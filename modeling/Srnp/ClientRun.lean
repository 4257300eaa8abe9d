import Srnp.Subscriptions
import Srnp.ClientSession

/-! The client at work: threads that register and cancel subscriptions, the
master's announcements, and the sessions, each of which connects once and then
replays the subscriptions that concern its component. A call changes the
records in one critical section, looks up sessions in a second and locks each
session in a third; a session reads the records in one critical section and
sends them one by one. Anything may fall between two of these. -/
namespace Srnp
open Std Transition

/-- Where a thread stands in `registerSubscription` or `cancelSubscription`:
the records are changed, the owner id is read, or the sessions are looked up. -/
inductive SubscribeCall where
  | idle
  | recorded (record : SubscriptionRecord) (registering : Bool)
  | named (record : SubscriptionRecord) (registering : Bool) (subscriber : OwnerId)
  | sending (record : SubscriptionRecord) (registering : Bool) (rest : List (Nat × Subscription))

/-- `ClientSession::run`: it connects, passes on what was pending, reads the
records and sends them. An exception ends it too. -/
inductive RunPhase where
  | connecting
  | flushing (waiting : List Message)
  | replaying (rest : List SubscriptionRecord)
  | finished

/-- A session, with the frames it has passed to its channel. -/
structure OpenSession where
  endpoint : OwnerId
  session : ClientSession Message
  phase : RunPhase
  passed : List Message

structure ClientRun (F : Type) where
  client : Component F
  /-- The components of the welcome that have no session yet. -/
  welcome : Option (List ComponentInfo)
  calls : ThreadId → SubscribeCall
  sessions : Nat → OpenSession

inductive ClientAction where
  | welcome (message : MasterMessage)
  | join
  | update (update : UpdateComponents)
  | register (thread : ThreadId) (owner : OwnerId) (key : Bytes)
  | cancel (thread : ThreadId) (owner : OwnerId) (key : Bytes)
  | cancelHandle (thread : ThreadId) (handle : SubscriptionHandle)
  | advance (thread : ThreadId)
  | adopt (session : Nat)
  | flush (session : Nat)
  | read (session : Nat)
  | replay (session : Nat)
  | close (session : Nat)
  | other (session : Nat) (message : Message)

namespace OpenSession

def initial (endpoint : OwnerId) : OpenSession := ⟨endpoint, .initial, .connecting, []⟩

/-- A session that is closing ignores what it is given. -/
def send (link : OpenSession) (message : Message) : OpenSession :=
  if link.session.closing then link
  else
    let result := link.session.sendLocked message
    { link with session := result.1, passed := link.passed ++ result.2 }

def close (link : OpenSession) : OpenSession :=
  { link with session := { link.session.release with closing := true } }

def replayed (link : OpenSession) (record : SubscriptionRecord) (subscriber : OwnerId) :
    Subscription :=
  ⟨record.key, if record.owner = kAnyOwner then link.endpoint else record.owner, subscriber, true⟩

end OpenSession

namespace Component
variable {F : Type} (c : Component F)

def constructed : Component F :=
  { initial kAnyOwner with ready := false }

/-- `sessionFor` or `allSessions`, with the frame for each. A key too long to
frame makes the call throw before anything is sent. -/
def lookUp (record : SubscriptionRecord) (registering : Bool) (subscriber : OwnerId) :
    List (Nat × Subscription) :=
  let targets := if record.owner = kAnyOwner then c.sessions.toList
    else (c.sessions[record.owner]?).toList.map (record.owner, ·)
  (targets.map fun target =>
    (target.2, (⟨record.key, target.1, subscriber, registering⟩ : Subscription))).takeWhile
      fun sent => (Message.subscription sent.2).fits

variable {c} {owner : OwnerId} {key : Bytes}

theorem component_sendSubscription (registering : Bool) :
    (c.sendSubscription owner key registering).component = c := by
  unfold sendSubscription
  split <;> rfl

theorem registerSubscription_component (h : ¬ c.Live ⟨owner, key⟩) :
    (c.registerSubscription owner key).component = { c with
      subscriptions := c.subscriptions.insertIfNew (c.nextSubscriptionHandle + 1) ⟨owner, key⟩
      nextSubscriptionHandle := c.nextSubscriptionHandle + 1 } := by
  rw [live_iff_any] at h
  unfold registerSubscription
  rw [if_neg h]
  exact component_sendSubscription _

theorem cancelSubscription_component (h : c.Live ⟨owner, key⟩) :
    ∃ handle : SubscriptionHandle, c.subscriptions[handle]? = some ⟨owner, key⟩ ∧
      (c.cancelSubscription owner key).component =
        { c with subscriptions := c.subscriptions.erase handle } := by
  unfold cancelSubscription
  split
  · rename_i hnone
    obtain ⟨handle, hfind⟩ := h
    have hmem := ExtTreeMap.mem_toList_iff_getElem?_eq_some.mpr hfind
    have hother := List.find?_eq_none.mp hnone _ hmem
    simp at hother
  · rename_i handle record hfound
    have hrecord : record = ⟨owner, key⟩ := by
      simpa using List.find?_some hfound
    have hmem := List.mem_of_find?_eq_some hfound
    rw [hrecord] at hmem
    exact ⟨handle, ExtTreeMap.mem_toList_iff_getElem?_eq_some.mp hmem,
      component_sendSubscription _⟩

theorem cancelSubscriptionHandle_component {handle : SubscriptionHandle}
    {record : SubscriptionRecord} (h : c.subscriptions[handle]? = some record) :
    (c.cancelSubscriptionHandle handle).component =
      { c with subscriptions := c.subscriptions.erase handle } := by
  unfold cancelSubscriptionHandle
  rw [h]
  exact component_sendSubscription _

theorem session_of_removeSession {removed : OwnerId} {number : Nat}
    (h : (c.removeSession removed).component.sessions[owner]? = some number) :
    c.sessions[owner]? = some number := by
  simp only [removeSession, ExtTreeMap.getElem?_erase] at h
  split at h
  · contradiction
  · exact h

end Component

namespace ClientRun
variable {F : Type}

def initial : ClientRun F :=
  ⟨.constructed, none, fun _ => .idle, fun _ => .initial kAnyOwner⟩

def setCall (run : ClientRun F) (thread : ThreadId) (call : SubscribeCall) : ClientRun F :=
  { run with calls := Function.update run.calls thread call }

def setSession (run : ClientRun F) (number : Nat) (link : OpenSession) : ClientRun F :=
  { run with sessions := Function.update run.sessions number link }

def addSession (run : ClientRun F) (info : ComponentInfo) : ClientRun F :=
  { run.setSession run.client.nextSession (.initial info.owner) with
    client := (run.client.addSession info).component }

def change (run : ClientRun F) (thread : ThreadId) (client : Component F)
    (record : SubscriptionRecord) (registering : Bool) : ClientRun F :=
  { run.setCall thread (.recorded record registering) with client }

def isCurrent (run : ClientRun F) (number : Nat) : Bool :=
  run.client.sessions[(run.sessions number).endpoint]? = some number

def begin (run : ClientRun F) (thread : ThreadId) (begun : ClientRun F) : Option (ClientRun F) :=
  match run.calls thread with
  | .idle => some begun
  | _ => none

def advance (run : ClientRun F) (thread : ThreadId) : Option (ClientRun F) :=
  match run.calls thread with
  | .idle => none
  | .recorded record registering =>
      some (run.setCall thread (.named record registering run.client.owner))
  | .named record registering subscriber =>
      some (run.setCall thread
        (.sending record registering (run.client.lookUp record registering subscriber)))
  | .sending _ _ [] => some (run.setCall thread .idle)
  | .sending record registering ((number, message) :: rest) =>
      some ((run.setCall thread (.sending record registering rest)).setSession number
        ((run.sessions number).send (.subscription message)))

/-- One record is sent, or ends the replay because it is too long to frame. -/
def replay (run : ClientRun F) (number : Nat) : Option (ClientRun F) :=
  let link := run.sessions number
  match link.phase with
  | .replaying [] => some (run.setSession number { link with phase := .finished })
  | .replaying (record :: rest) =>
      let message := Message.subscription (link.replayed record run.client.owner)
      some (run.setSession number (if message.fits then
        { link.send message with phase := .replaying rest } else { link with phase := .finished }))
  | _ => none

/-- The master's link is read after the welcome. A session is closed by
`removeSession`, some time after it was taken off the map. -/
def step (run : ClientRun F) : ClientAction → Option (ClientRun F)
  | .welcome message =>
      match run.welcome with
      | some _ => none
      | none => some { run with
          client := { run.client with owner := message.owner }
          welcome := some message.allComponents }
  | .join =>
      match run.welcome with
      | none => none
      | some [] => some { run with client := { run.client with ready := true } }
      | some (info :: rest) => some { run.addSession info with welcome := some rest }
  | .update update =>
      if run.client.ready then
        match update.operation with
        | .add => some (run.addSession update.component)
        | .remove => some { run with client := (run.client.onComponentUpdate update).component }
      else none
  | .register thread owner key => run.begin thread
      (if run.client.Live ⟨owner, key⟩ then run
      else run.change thread (run.client.registerSubscription owner key).component ⟨owner, key⟩ true)
  | .cancel thread owner key => run.begin thread
      (if run.client.Live ⟨owner, key⟩ then
        run.change thread (run.client.cancelSubscription owner key).component ⟨owner, key⟩ false
      else run)
  | .cancelHandle thread handle => run.begin thread
      (match run.client.subscriptions[handle]? with
      | none => run
      | some record =>
          run.change thread (run.client.cancelSubscriptionHandle handle).component record false)
  | .advance thread => run.advance thread
  | .adopt number =>
      let link := run.sessions number
      match link.phase with
      | .connecting =>
          if number < run.client.nextSession then
            link.session.adopt.map fun adopted => run.setSession number
              { link with session := adopted.1, phase := .flushing adopted.2 }
          else none
      | _ => none
  | .flush number =>
      let link := run.sessions number
      match link.phase with
      | .flushing (message :: rest) => some (run.setSession number
          { link with phase := .flushing rest, passed := link.passed ++ [message] })
      | _ => none
  | .read number =>
      let link := run.sessions number
      match link.phase with
      | .flushing [] => some (run.setSession number
          { link with phase := .replaying (run.client.subscriptionsFor link.endpoint) })
      | _ => none
  | .replay number => run.replay number
  | .close number =>
      if run.isCurrent number then none
      else some (run.setSession number (run.sessions number).close)
  | .other number message =>
      match message with
      | .subscription _ => none
      | _ => some (run.setSession number ((run.sessions number).send message))

inductive Serves (run : ClientRun F) : ClientAction → Nat → OpenSession → Prop
  | adopt {number : Nat} : (run.sessions number).phase = .connecting →
      Serves run (.adopt number) number { run.sessions number with
        session := { (run.sessions number).session with connected := true, pending := [] }
        phase := .flushing (run.sessions number).session.pending }
  | flush {number : Nat} {message : Message} {rest : List Message} :
      (run.sessions number).phase = .flushing (message :: rest) →
      Serves run (.flush number) number { run.sessions number with
        phase := .flushing rest, passed := (run.sessions number).passed ++ [message] }
  | read {number : Nat} : (run.sessions number).phase = .flushing [] →
      Serves run (.read number) number { run.sessions number with
        phase := .replaying (run.client.subscriptionsFor (run.sessions number).endpoint) }
  | replay {number : Nat} {record : SubscriptionRecord} {rest : List SubscriptionRecord} :
      (run.sessions number).phase = .replaying (record :: rest) →
      record.key.length + 13 ≤ Wire.kMaxPayload →
      Serves run (.replay number) number { (run.sessions number).send
        (.subscription ((run.sessions number).replayed record run.client.owner)) with
          phase := .replaying rest }
  | throw {number : Nat} {record : SubscriptionRecord} {rest : List SubscriptionRecord} :
      (run.sessions number).phase = .replaying (record :: rest) →
      ¬ record.key.length + 13 ≤ Wire.kMaxPayload →
      Serves run (.replay number) number { run.sessions number with phase := .finished }
  | finish {number : Nat} : (run.sessions number).phase = .replaying [] →
      Serves run (.replay number) number { run.sessions number with phase := .finished }
  | close {number : Nat} : run.isCurrent number = false →
      Serves run (.close number) number (run.sessions number).close
  | other {number : Nat} {message : Message} : (∀ request, message ≠ .subscription request) →
      Serves run (.other number message) number ((run.sessions number).send message)

inductive Does (run : ClientRun F) : ClientAction → ClientRun F → Prop
  | nothing (action : ClientAction) : Does run action run
  | welcome (message : MasterMessage) : run.welcome = none →
      Does run (.welcome message) { run with
        client := { run.client with owner := message.owner }
        welcome := some message.allComponents }
  | ready : run.welcome ≠ none → Does run .join { run with client := { run.client with ready := true } }
  | join {info : ComponentInfo} {rest : List ComponentInfo} : run.welcome = some (info :: rest) →
      Does run .join { run.addSession info with welcome := some rest }
  | add {update : UpdateComponents} : run.client.ready →
      Does run (.update update) (run.addSession update.component)
  | remove {update : UpdateComponents} : Does run (.update update)
      { run with client := (run.client.removeSession update.component.owner).component }
  | register {thread : ThreadId} {owner : OwnerId} {key : Bytes} :
      run.calls thread = .idle → ¬ run.client.Live ⟨owner, key⟩ →
      Does run (.register thread owner key) (run.change thread
        (run.client.registerSubscription owner key).component ⟨owner, key⟩ true)
  | cancel {action : ClientAction} {thread : ThreadId} {handle : SubscriptionHandle}
      {record : SubscriptionRecord} :
      run.calls thread = .idle → run.client.subscriptions[handle]? = some record →
      action = .cancel thread record.owner record.key ∨ action = .cancelHandle thread handle →
      Does run action (run.change thread
        { run.client with subscriptions := run.client.subscriptions.erase handle } record false)
  | name {thread : ThreadId} {record : SubscriptionRecord} {registering : Bool} :
      run.calls thread = .recorded record registering →
      Does run (.advance thread)
        (run.setCall thread (.named record registering run.client.owner))
  | lookUp {thread : ThreadId} {record : SubscriptionRecord} {registering : Bool}
      {subscriber : OwnerId} : run.calls thread = .named record registering subscriber →
      Does run (.advance thread) (run.setCall thread
        (.sending record registering (run.client.lookUp record registering subscriber)))
  | send {thread : ThreadId} {record : SubscriptionRecord} {registering : Bool} {number : Nat}
      {message : Subscription} {rest : List (Nat × Subscription)} :
      run.calls thread = .sending record registering ((number, message) :: rest) →
      Does run (.advance thread)
        ((run.setCall thread (.sending record registering rest)).setSession number
          ((run.sessions number).send (.subscription message)))
  | done {thread : ThreadId} {record : SubscriptionRecord} {registering : Bool} :
      run.calls thread = .sending record registering [] →
      Does run (.advance thread) (run.setCall thread .idle)
  | session {action : ClientAction} {number : Nat} {link : OpenSession} :
      run.Serves action number link → Does run action (run.setSession number link)

theorem begin_eq {run begun after : ClientRun F} {thread : ThreadId}
    (h : run.begin thread begun = some after) : run.calls thread = .idle ∧ after = begun := by
  unfold begin at h
  split at h
  · rename_i hidle
    exact ⟨hidle, (Option.some.inj h).symm⟩
  · contradiction

theorem advance_does {run after : ClientRun F} {thread : ThreadId}
    (h : run.advance thread = some after) : run.Does (.advance thread) after := by
  unfold advance at h
  split at h
  · contradiction
  · rename_i hcall
    cases Option.some.inj h
    exact .name hcall
  · rename_i hcall
    cases Option.some.inj h
    exact .lookUp hcall
  · rename_i hcall
    cases Option.some.inj h
    exact .done hcall
  · rename_i hcall
    cases Option.some.inj h
    exact .send hcall

theorem replay_does {run after : ClientRun F} {number : Nat}
    (h : run.replay number = some after) : run.Does (.replay number) after := by
  unfold replay at h
  dsimp only at h
  split at h
  · rename_i hphase
    cases Option.some.inj h
    exact .session (.finish hphase)
  · rename_i record rest hphase
    cases Option.some.inj h
    split
    · rename_i hfits
      exact .session (.replay hphase ((subscription_fits_iff _).mp hfits))
    · rename_i hfits
      rw [subscription_fits_iff] at hfits
      exact .session (.throw hphase hfits)
  · contradiction

theorem step_does {run after : ClientRun F} {action : ClientAction}
    (h : run.step action = some after) : run.Does action after := by
  cases action with
  | welcome message =>
    simp only [step] at h
    split at h
    · contradiction
    · rename_i hwelcome
      cases Option.some.inj h
      exact .welcome message hwelcome
  | join =>
    simp only [step] at h
    split at h
    · contradiction
    · rename_i hwelcome
      cases Option.some.inj h
      exact .ready (by simp [hwelcome])
    · rename_i hwelcome
      cases Option.some.inj h
      exact .join hwelcome
  | update update =>
    simp only [step] at h
    split at h
    · rename_i hready
      split at h
      · cases Option.some.inj h
        exact .add hready
      · rename_i hremove
        cases Option.some.inj h
        simp only [Component.onComponentUpdate, hremove]
        exact .remove
    · contradiction
  | register thread owner key =>
    obtain ⟨hidle, rfl⟩ := begin_eq h
    split
    · exact .nothing _
    · rename_i hnew
      exact .register hidle hnew
  | cancel thread owner key =>
    obtain ⟨hidle, rfl⟩ := begin_eq h
    split
    · rename_i hlive
      obtain ⟨handle, hfind, herase⟩ := Component.cancelSubscription_component hlive
      rw [herase]
      exact .cancel hidle hfind (Or.inl rfl)
    · exact .nothing _
  | cancelHandle thread handle =>
    obtain ⟨hidle, rfl⟩ := begin_eq h
    split
    · exact .nothing _
    · rename_i record hfind
      rw [Component.cancelSubscriptionHandle_component hfind]
      exact .cancel hidle hfind (Or.inr rfl)
  | advance thread => exact advance_does h
  | adopt number =>
    simp only [step] at h
    split at h
    · rename_i hphase
      split at h
      · obtain ⟨adopted, hadopt, rfl⟩ := Option.map_eq_some_iff.mp h
        unfold ClientSession.adopt at hadopt
        split at hadopt
        · contradiction
        · cases Option.some.inj hadopt
          exact .session (.adopt hphase)
      · contradiction
    · contradiction
  | flush number =>
    simp only [step] at h
    split at h
    · rename_i hphase
      cases Option.some.inj h
      exact .session (.flush hphase)
    · contradiction
  | read number =>
    simp only [step] at h
    split at h
    · rename_i hphase
      cases Option.some.inj h
      exact .session (.read hphase)
    · contradiction
  | replay number => exact replay_does h
  | close number =>
    simp only [step] at h
    split at h
    · contradiction
    · rename_i hcurrent
      cases Option.some.inj h
      exact .session (.close (Bool.not_eq_true _ ▸ hcurrent))
  | other number message =>
    simp only [step] at h
    split at h
    · contradiction
    · rename_i hother
      cases Option.some.inj h
      exact .session (.other hother)

end ClientRun

/-! ### How sessions are wired -/

namespace OpenSession
variable {link : OpenSession} {message : Message}

/-- A session that is not closing is connected once it has stopped connecting,
and passes nothing on before. -/
structure Sound (link : OpenSession) : Prop where
  connected : link.session.closing = false →
    (link.session.connected = true ↔ link.phase ≠ .connecting)
  silent : link.phase = .connecting → link.passed = []

theorem initial_sound (endpoint : OwnerId) : (initial endpoint).Sound where
  connected _ := by simp [initial, ClientSession.initial]
  silent _ := rfl

@[simp] theorem send_endpoint : (link.send message).endpoint = link.endpoint := by
  unfold send
  split <;> rfl

@[simp] theorem send_phase : (link.send message).phase = link.phase := by
  unfold send
  split <;> rfl

@[simp] theorem send_closing : (link.send message).session.closing = link.session.closing := by
  unfold send ClientSession.sendLocked
  split
  · rfl
  · dsimp only
    split <;> rfl

@[simp] theorem send_connected :
    (link.send message).session.connected = link.session.connected := by
  unfold send ClientSession.sendLocked
  split
  · rfl
  · dsimp only
    split <;> rfl

theorem send_passed (hopen : link.session.closing = false) (hup : link.session.connected = true) :
    (link.send message).passed = link.passed ++ [message] := by
  simp [send, ClientSession.sendLocked, hopen, hup]

theorem send_passed_connecting (hdown : link.session.connected = false) :
    (link.send message).passed = link.passed := by
  unfold send
  split
  · rfl
  · simp [ClientSession.sendLocked, hdown]

theorem passed_send : link.passed <+: (link.send message).passed := by
  unfold send
  split
  · exact List.prefix_refl _
  · exact List.prefix_append _ _

theorem Sound.send (h : link.Sound) (message : Message) : (link.send message).Sound := by
  constructor
  · rw [send_closing, send_connected, send_phase]
    exact h.connected
  · rw [send_phase]
    intro hphase
    cases hclosing : link.session.closing with
    | true =>
      have hsame : link.send message = link := by
        simp [OpenSession.send, hclosing]
      rw [hsame]
      exact h.silent hphase
    | false =>
      have hdown : link.session.connected = false := by
        rw [← Bool.not_eq_true, h.connected hclosing]
        exact not_not.mpr hphase
      rw [send_passed_connecting hdown]
      exact h.silent hphase

end OpenSession

namespace ClientRun
variable {F : Type} {run after : ClientRun F} {action : ClientAction} {number : Nat}
  {link : OpenSession}

theorem Serves.endpoint (h : run.Serves action number link) :
    link.endpoint = (run.sessions number).endpoint := by
  cases h with
  | replay _ _ => exact OpenSession.send_endpoint
  | other _ => exact OpenSession.send_endpoint
  | _ => rfl

theorem Serves.closing (h : run.Serves action number link)
    (hcurrent : run.client.sessions[(run.sessions number).endpoint]? = some number) :
    link.session.closing = (run.sessions number).session.closing := by
  cases h with
  | replay _ _ => exact OpenSession.send_closing
  | other _ => exact OpenSession.send_closing
  | close hstale =>
    rw [isCurrent, decide_eq_false_iff_not] at hstale
    exact absurd hcurrent hstale
  | _ => rfl

theorem Serves.passed (h : run.Serves action number link) :
    (run.sessions number).passed <+: link.passed := by
  cases h with
  | flush _ => exact List.prefix_append _ _
  | replay _ _ => exact OpenSession.passed_send
  | other _ => exact OpenSession.passed_send
  | _ => exact List.prefix_refl _

theorem Serves.sound (h : run.Serves action number link) (hsound : (run.sessions number).Sound) :
    link.Sound := by
  cases h with
  | adopt hphase => exact ⟨fun _ => by simp, nofun⟩
  | flush hphase => exact ⟨fun hopen => by simp [hsound.connected hopen, hphase], nofun⟩
  | read hphase => exact ⟨fun hopen => by simp [hsound.connected hopen, hphase], nofun⟩
  | replay hphase _ =>
    refine ⟨?_, nofun⟩
    simp only [OpenSession.send_closing, OpenSession.send_connected]
    exact fun hopen => by simp [hsound.connected hopen, hphase]
  | throw hphase _ => exact ⟨fun hopen => by simp [hsound.connected hopen, hphase], nofun⟩
  | finish hphase => exact ⟨fun hopen => by simp [hsound.connected hopen, hphase], nofun⟩
  | close _ => exact ⟨nofun, hsound.silent⟩
  | other _ => exact hsound.send _

/-- A session on the map has a number of its own, talks to the owner it is filed
under and is not closing. Before the welcome there is none. -/
structure Wired (run : ClientRun F) : Prop where
  current : ∀ owner number, run.client.sessions[owner]? = some number →
    number < run.client.nextSession ∧ (run.sessions number).endpoint = owner ∧
      (run.sessions number).session.closing = false
  early : run.welcome = none →
    run.client.ready = false ∧ ∀ owner : OwnerId, run.client.sessions[owner]? = none
  sound : ∀ number, (run.sessions number).Sound

theorem Wired.initial : (initial : ClientRun F).Wired where
  current owner number h := by
    simp [ClientRun.initial, Component.constructed, Component.initial] at h
  early _ := by
    simp [ClientRun.initial, Component.constructed, Component.initial]
  sound _ := OpenSession.initial_sound _

theorem sessions_addSession (info : ComponentInfo) (owner : OwnerId) :
    (run.addSession info).client.sessions[owner]? =
      if info.owner = owner then some run.client.nextSession
      else run.client.sessions[owner]? := by
  simp [addSession, Component.addSession, Component.idle, setSession, ExtTreeMap.getElem?_insert]

theorem link_addSession (info : ComponentInfo) (number : Nat) :
    (run.addSession info).sessions number =
      if number = run.client.nextSession then .initial info.owner else run.sessions number := by
  simp [addSession, setSession, Function.update_apply]

theorem link_setSession (other : Nat) :
    (run.setSession number link).sessions other =
      if other = number then link else run.sessions other := by
  simp [setSession, Function.update_apply]

theorem Wired.addSession (h : run.Wired) (info : ComponentInfo)
    (hready : run.welcome ≠ none) : (run.addSession info).Wired := by
  have hnext : (run.addSession info).client.nextSession = run.client.nextSession + 1 := rfl
  refine ⟨?_, fun hnone => absurd hnone hready, ?_⟩
  · intro owner number hfind
    rw [sessions_addSession] at hfind
    rw [link_addSession, hnext]
    split at hfind
    · rename_i howner
      cases Option.some.inj hfind
      rw [if_pos rfl]
      exact ⟨Nat.lt_succ_self _, howner, rfl⟩
    · obtain ⟨hlt, hrest⟩ := h.current owner number hfind
      rw [if_neg (Nat.ne_of_lt hlt)]
      exact ⟨Nat.lt_succ_of_lt hlt, hrest⟩
  · intro number
    rw [link_addSession]
    split
    · exact OpenSession.initial_sound _
    · exact h.sound number

theorem Wired.setSession (h : run.Wired)
    (hendpoint : link.endpoint = (run.sessions number).endpoint)
    (hclosing : run.client.sessions[(run.sessions number).endpoint]? = some number →
      link.session.closing = (run.sessions number).session.closing)
    (hsound : link.Sound) : (run.setSession number link).Wired := by
  refine ⟨?_, h.early, ?_⟩
  · intro owner other hfind
    obtain ⟨hlt, howner, hopen⟩ := h.current owner other hfind
    refine ⟨hlt, ?_⟩
    rw [link_setSession]
    split
    · rename_i heq
      subst heq
      rw [hendpoint, hclosing (howner ▸ hfind)]
      exact ⟨howner, hopen⟩
    · exact ⟨howner, hopen⟩
  · intro other
    rw [link_setSession]
    split
    · exact hsound
    · exact h.sound other

theorem Wired.congr (h : run.Wired) (hsessions : after.client.sessions = run.client.sessions)
    (hnext : after.client.nextSession = run.client.nextSession)
    (hready : after.client.ready = run.client.ready) (hwelcome : after.welcome = run.welcome)
    (hlinks : after.sessions = run.sessions) : after.Wired := by
  refine ⟨?_, ?_, ?_⟩
  · rw [hsessions, hnext, hlinks]
    exact h.current
  · rw [hwelcome, hready, hsessions]
    exact h.early
  · rw [hlinks]
    exact h.sound

theorem Wired.step (h : run.Wired) (hdoes : run.Does action after) : after.Wired := by
  cases hdoes with
  | nothing => exact h
  | welcome message hwelcome => exact ⟨h.current, nofun, h.sound⟩
  | ready hwelcome =>
    refine ⟨h.current, fun hnone => ?_, h.sound⟩
    exact absurd hnone hwelcome
  | @join info rest hwelcome =>
    have hadded := h.addSession info (by simp [hwelcome])
    exact ⟨hadded.current, nofun, hadded.sound⟩
  | @add update hready =>
    apply h.addSession
    intro hnone
    rw [(h.early hnone).1] at hready
    contradiction
  | @remove update =>
    refine ⟨?_, ?_, h.sound⟩
    · intro owner number hfind
      exact h.current owner number (Component.session_of_removeSession hfind)
    · intro hnone
      refine ⟨(h.early hnone).1, fun owner => ?_⟩
      simp only [Component.removeSession, ExtTreeMap.getElem?_erase]
      split
      · rfl
      · exact (h.early hnone).2 owner
  | register _ hnew =>
    apply h.congr <;> simp [change, setCall, Component.registerSubscription_component hnew]
  | cancel => exact h.congr rfl rfl rfl rfl rfl
  | name => exact h.congr rfl rfl rfl rfl rfl
  | lookUp => exact h.congr rfl rfl rfl rfl rfl
  | @send thread record registering number message rest hcall =>
    have hsent : (run.setSession number ((run.sessions number).send (.subscription message))).Wired :=
      h.setSession OpenSession.send_endpoint (fun _ => OpenSession.send_closing)
        ((h.sound number).send _)
    exact hsent.congr rfl rfl rfl rfl rfl
  | done => exact h.congr rfl rfl rfl rfl rfl
  | session hserves =>
    exact h.setSession hserves.endpoint hserves.closing (hserves.sound (h.sound _))

end ClientRun

end Srnp
