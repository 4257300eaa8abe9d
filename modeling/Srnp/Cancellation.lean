import Srnp.Registration

/-! A cancelled subscription. What the other end is left with for a key is what
the last frame about that key says. A cancelling frame is the last word only if
no registering frame for the key comes after it, and two parties may still have
one to pass on: `connect`, from the frames that were pending, and the replay,
from its copy of the records. Where neither has, a key that no live record
stands behind is not left registered. -/
namespace Srnp
open Std LastWrite Transition

/-- What a frame says about the subscriptions of `peer`. -/
def Message.word (peer : OwnerId) : Message → Option (Write Bytes Unit)
  | .subscription message =>
      if message.subscriber = peer then
        some (if message.registering then .put message.key () else .remove message.key)
      else none
  | _ => none

/-- What is registered after a list of frames, by the last word on each key. -/
def words (peer : OwnerId) (frames : List Message) : Store Bytes Unit :=
  Store.replay (fun _ => none) (frames.filterMap (·.word peer))

def Asked (peer : OwnerId) (key : Bytes) (frames : List Message) : Prop :=
  words peer frames key = some ()

section
variable {peer : OwnerId} {key : Bytes} {frames later : List Message} {message : Message}

theorem not_asked_nil : ¬ Asked peer key [] := nofun

theorem words_append : words peer (frames ++ later) =
    (words peer frames).replay (later.filterMap (·.word peer)) := by
  rw [words, List.filterMap_append, Store.replay_append]
  rfl

theorem Asked.append_left (h : Asked peer key later) (frames : List Message) :
    Asked peer key (frames ++ later) := by
  unfold Asked at h ⊢
  rw [words_append]
  rw [words, Store.replay_at] at h
  rw [Store.replay_at]
  split at h
  · exact h
  · contradiction

theorem asked_insert_other (h : ∀ write, message.word peer = some write → write.key ≠ key) :
    Asked peer key (frames ++ message :: later) ↔ Asked peer key (frames ++ later) := by
  unfold Asked
  rw [words_append, words_append, List.filterMap_cons]
  cases hword : message.word peer with
  | none => rfl
  | some write =>
    dsimp only
    rw [Store.replay_cons, Store.replay_congr (Store.apply_other (h write hword))]

theorem Asked.after_cancel (h : Asked peer key (frames ++ message :: later))
    (hcancel : message.word peer = some (.remove key)) : Asked peer key later := by
  unfold Asked at h ⊢
  rw [words_append, List.filterMap_cons_some hcancel, Store.replay_cons] at h
  have hsame := @Store.replay_congr Bytes Unit _ ((words peer frames).apply (.remove key))
    (fun _ => none) key (Store.apply_remove _ key) (later.filterMap (·.word peer))
  exact hsame.symm.trans h

theorem asked_concat_register (h : message.word peer = some (.put key ())) :
    Asked peer key (frames ++ [message]) := by
  unfold Asked
  rw [words_append, List.filterMap_cons_some h, Store.replay_cons]
  exact Store.apply_same rfl

end

/-! ### What a session still has -/

namespace OpenSession
variable {link : OpenSession} {peer : OwnerId} {key : Bytes} {message : Message}

def queue (link : OpenSession) : List Message :=
  match link.phase with
  | .connecting => link.session.pending
  | .flushing waiting => waiting
  | _ => []

def Replays (link : OpenSession) (key : Bytes) : Prop :=
  match link.phase with
  | .replaying rest => key.length + 13 ≤ Wire.kMaxPayload ∧ ∃ record ∈ rest, record.key = key
  | _ => False

/-- The other end is left with the key registered, or is yet going to be told
to register it. -/
def Holds (link : OpenSession) (peer : OwnerId) (key : Bytes) : Prop :=
  Asked peer key (link.passed ++ link.queue) ∨ Asked peer key link.queue ∨ link.Replays key

def Behind (link : OpenSession) (peer : OwnerId) (key : Bytes) : Prop :=
  match link.phase with
  | .connecting => False
  | .flushing waiting => Asked peer key waiting
  | _ => link.Replays key

def Addressed (link : OpenSession) : Prop :=
  ∀ message, .subscription message ∈ link.passed ++ link.queue → message.ownerId = link.endpoint

theorem replays_send : (link.send message).Replays key ↔ link.Replays key := by
  unfold Replays
  rw [send_phase]

theorem send_cases (hsound : link.Sound) (hopen : link.session.closing = false)
    (message : Message) :
    (link.phase = .connecting ∧ link.passed = [] ∧ (link.send message).passed = [] ∧
      ((link.send message).queue = link.queue ++ [message] ∨
        (link.send message).queue = link.queue.tail ++ [message])) ∨
    (link.phase ≠ .connecting ∧ (link.send message).passed = link.passed ++ [message] ∧
      (link.send message).queue = link.queue) := by
  by_cases hphase : link.phase = .connecting
  · left
    have hdown : link.session.connected = false := by
      rw [← Bool.not_eq_true, hsound.connected hopen]
      exact not_not.mpr hphase
    refine ⟨hphase, hsound.silent hphase, ?_, ?_⟩
    · rw [send_passed_connecting hdown]
      exact hsound.silent hphase
    · unfold queue
      rw [send_phase, hphase]
      simp only [send, hopen, ClientSession.sendLocked, hdown, Bool.false_eq_true, if_false]
      split
      · exact Or.inr rfl
      · exact Or.inl rfl
  · right
    have hup := (hsound.connected hopen).mpr hphase
    refine ⟨hphase, send_passed hopen hup, ?_⟩
    unfold queue
    rw [send_phase]
    split
    · rename_i hconnecting
      exact absurd hconnecting hphase
    · rfl
    · rfl

theorem holds_send_other (hsound : link.Sound) (hopen : link.session.closing = false)
    (hother : ∀ write, message.word peer = some write → write.key ≠ key)
    (h : (link.send message).Holds peer key) : link.Holds peer key := by
  unfold Holds at h ⊢
  rw [replays_send] at h
  rcases send_cases hsound hopen message with
    ⟨_, hpassed, hsent, hqueue⟩ | ⟨_, hsent, hqueue⟩
  · have hasked : Asked peer key (link.send message).queue → Asked peer key link.queue := by
      intro hasked
      rcases hqueue with hqueue | hqueue
      · rw [hqueue, asked_insert_other hother, List.append_nil] at hasked
        exact hasked
      · rw [hqueue, asked_insert_other hother, List.append_nil] at hasked
        have htail := hasked.append_left link.queue.head?.toList
        cases hempty : link.queue with
        | nil =>
          rw [hempty] at hasked
          exact hasked
        | cons first rest =>
          rw [hempty] at htail
          exact htail
    rw [hsent, List.nil_append] at h
    rcases h with h | h | h
    · exact Or.inr (Or.inl (hasked h))
    · exact Or.inr (Or.inl (hasked h))
    · exact Or.inr (Or.inr h)
  · rw [hsent, hqueue, List.append_assoc, List.singleton_append, asked_insert_other hother] at h
    exact h

theorem not_holds_send_cancel (hsound : link.Sound) (hopen : link.session.closing = false)
    (hcancel : message.word peer = some (.remove key)) (hbehind : ¬ link.Behind peer key) :
    ¬ (link.send message).Holds peer key := by
  unfold Holds
  rw [replays_send]
  rcases send_cases hsound hopen message with
    ⟨hphase, hpassed, hsent, hqueue⟩ | ⟨hphase, hsent, hqueue⟩
  · have hnot : ¬ Asked peer key (link.send message).queue := by
      intro hasked
      rcases hqueue with hqueue | hqueue
      · rw [hqueue] at hasked
        exact not_asked_nil (hasked.after_cancel hcancel)
      · rw [hqueue] at hasked
        exact not_asked_nil (hasked.after_cancel hcancel)
    rw [hsent, List.nil_append]
    rintro (h | h | h)
    · exact hnot h
    · exact hnot h
    · simp [Replays, hphase] at h
  · have hqueued : ¬ Asked peer key link.queue ∧ ¬ link.Replays key := by
      cases hcase : link.phase with
      | connecting => exact absurd hcase hphase
      | flushing waiting =>
        simp only [Behind, hcase] at hbehind
        exact ⟨by simpa only [queue, hcase] using hbehind, by simp [Replays, hcase]⟩
      | replaying rest =>
        simp only [Behind, hcase] at hbehind
        exact ⟨by simpa only [queue, hcase] using not_asked_nil, hbehind⟩
      | finished =>
        simp only [Behind, hcase] at hbehind
        exact ⟨by simpa only [queue, hcase] using not_asked_nil, hbehind⟩
    rw [hsent, hqueue, List.append_assoc]
    rintro (h | h | h)
    · exact hqueued.1 (h.after_cancel hcancel)
    · exact hqueued.1 h
    · exact hqueued.2 h

theorem mem_send {other : Message}
    (h : other ∈ (link.send message).passed ++ (link.send message).queue) :
    other = message ∨ other ∈ link.passed ++ link.queue := by
  have hqueue : ∀ {frame}, frame ∈ (link.send message).queue →
      frame = message ∨ frame ∈ link.queue := by
    intro frame hframe
    unfold queue at hframe ⊢
    rw [send_phase] at hframe
    split at hframe
    · unfold send at hframe
      split at hframe
      · exact Or.inr hframe
      · exact (ClientSession.mem_sendLocked hframe).symm
    · exact Or.inr hframe
    · exact Or.inr hframe
  have hpassed : ∀ {frame}, frame ∈ (link.send message).passed →
      frame = message ∨ frame ∈ link.passed := by
    intro frame hframe
    unfold send ClientSession.sendLocked at hframe
    split at hframe
    · exact Or.inr hframe
    · rcases List.mem_append.mp hframe with hold | hnew
      · exact Or.inr hold
      · left
        split at hnew
        · exact List.mem_singleton.mp hnew
        · contradiction
  rcases List.mem_append.mp h with hold | hnew
  · rcases hpassed hold with rfl | hmem
    · exact Or.inl rfl
    · exact Or.inr (List.mem_append_left _ hmem)
  · rcases hqueue hnew with rfl | hmem
    · exact Or.inl rfl
    · exact Or.inr (List.mem_append_right _ hmem)

theorem Addressed.send (h : link.Addressed) (message : Message)
    (hmessage : ∀ request, message = .subscription request → request.ownerId = link.endpoint) :
    (link.send message).Addressed := by
  intro request hrequest
  rw [send_endpoint]
  rcases mem_send hrequest with heq | hmem
  · exact hmessage request heq.symm
  · exact h request hmem

theorem Addressed.subset {after : OpenSession} (h : link.Addressed)
    (hendpoint : after.endpoint = link.endpoint)
    (hsubset : after.passed ++ after.queue ⊆ link.passed ++ link.queue) : after.Addressed := by
  intro request hrequest
  rw [hendpoint]
  exact h request (hsubset hrequest)

end OpenSession

/-! ### Frames go where they belong -/

def SubscribeCall.Addressed (sessions : Nat → OpenSession) (bound : Nat) : SubscribeCall → Prop
  | .sending record registering rest => ∀ sent ∈ rest, sent.1 < bound ∧
      record.Matches (sessions sent.1).endpoint ∧ record.key.length + 13 ≤ Wire.kMaxPayload ∧
      ∃ subscriber, sent.2 =
        ⟨record.key, (sessions sent.1).endpoint, subscriber, registering⟩
  | _ => True

theorem SubscribeCall.Addressed.mono {call : SubscribeCall} {sessions later : Nat → OpenSession}
    {bound limit : Nat} (h : call.Addressed sessions bound) (hbound : bound ≤ limit)
    (hsame : ∀ number < bound, (later number).endpoint = (sessions number).endpoint) :
    call.Addressed later limit := by
  cases call with
  | sending record registering rest =>
    intro sent hsent
    obtain ⟨hlt, hrest⟩ := h sent hsent
    rw [hsame sent.1 hlt]
    exact ⟨Nat.lt_of_lt_of_le hlt hbound, hrest⟩
  | _ => trivial

namespace ClientRun
variable {F : Type} {run after : ClientRun F} {action : ClientAction} {number : Nat}
  {link : OpenSession}

structure Posted (run : ClientRun F) : Prop where
  wired : run.Wired
  calls : ∀ thread, (run.calls thread).Addressed run.sessions run.client.nextSession
  replayed : ∀ number rest, (run.sessions number).phase = .replaying rest →
    ∀ record ∈ rest, record.Matches (run.sessions number).endpoint
  addressed : ∀ number, (run.sessions number).Addressed

theorem Posted.initial : (initial : ClientRun F).Posted where
  wired := .initial
  calls _ := trivial
  replayed _ _ h := by contradiction
  addressed _ _ h := by contradiction

theorem Posted.setCall (h : run.Posted) (thread : ThreadId) {call : SubscribeCall}
    (hcall : call.Addressed run.sessions run.client.nextSession) :
    (run.setCall thread call).Posted := by
  refine ⟨h.wired.congr rfl rfl rfl rfl rfl, ?_, h.replayed, h.addressed⟩
  intro other
  simp only [ClientRun.setCall, Function.update_apply]
  split
  · exact hcall
  · exact h.calls other

theorem Posted.addSession (h : run.Posted) (info : ComponentInfo)
    (hwelcome : run.welcome ≠ none) : (run.addSession info).Posted := by
  refine ⟨h.wired.addSession info hwelcome, ?_, ?_, ?_⟩
  · intro thread
    refine (h.calls thread).mono (Nat.le_succ _) ?_
    intro number hlt
    rw [link_addSession, if_neg (Nat.ne_of_lt hlt)]
  · intro number rest hphase
    rw [link_addSession] at hphase ⊢
    split at hphase
    · contradiction
    · rename_i hne
      rw [if_neg hne]
      exact h.replayed number rest hphase
  · intro number
    rw [link_addSession]
    split
    · intro request hrequest
      contradiction
    · exact h.addressed number

theorem Posted.setSession (h : run.Posted) (hwired : (run.setSession number link).Wired)
    (hendpoint : link.endpoint = (run.sessions number).endpoint)
    (hreplayed : ∀ rest, link.phase = .replaying rest →
      ∀ record ∈ rest, record.Matches link.endpoint)
    (haddressed : link.Addressed) : (run.setSession number link).Posted := by
  refine ⟨hwired, ?_, ?_, ?_⟩
  · intro thread
    refine (h.calls thread).mono (Nat.le_refl _) ?_
    intro other _
    rw [link_setSession]
    split
    · rename_i heq
      rw [hendpoint, heq]
    · rfl
  · intro other rest hphase
    rw [link_setSession] at hphase ⊢
    split at hphase
    · rename_i heq
      rw [if_pos heq]
      exact hreplayed rest hphase
    · rename_i hne
      rw [if_neg hne]
      exact h.replayed other rest hphase
  · intro other
    rw [link_setSession]
    split
    · exact haddressed
    · exact h.addressed other

theorem Posted.session (h : run.Posted) (hserves : run.Serves action number link) :
    (run.setSession number link).Posted := by
  have hold := h.addressed number
  apply h.setSession (h.wired.step (.session hserves)) hserves.endpoint
  · intro records hphase record hmem
    rw [hserves.endpoint]
    cases hserves with
    | adopt => contradiction
    | flush => contradiction
    | read =>
      cases hphase
      exact (Component.live_of_mem_subscriptionsFor hmem).2
    | replay hbefore _ =>
      cases hphase
      exact h.replayed number _ hbefore record (List.mem_cons_of_mem _ hmem)
    | throw => contradiction
    | finish => contradiction
    | close => exact h.replayed number records hphase record hmem
    | other =>
      rw [OpenSession.send_phase] at hphase
      exact h.replayed number records hphase record hmem
  · cases hserves with
    | adopt hphase =>
      refine hold.subset ?_ ?_
      · rfl
      · simp [OpenSession.queue, hphase]
    | flush hphase =>
      refine hold.subset ?_ ?_
      · rfl
      · simp [OpenSession.queue, hphase]
    | read hphase =>
      refine hold.subset ?_ ?_
      · rfl
      · simp [OpenSession.queue, hphase]
    | @replay _ record rest hphase _ =>
      have hsent := hold.send (.subscription
        ((run.sessions number).replayed record run.client.owner)) (by
          intro request hrequest
          cases hrequest
          rw [replayed_eq (h.replayed number _ hphase record List.mem_cons_self)])
      refine hsent.subset ?_ ?_
      · rfl
      · simp [OpenSession.queue, OpenSession.send_phase, hphase]
    | throw hphase _ =>
      refine hold.subset ?_ ?_
      · rfl
      · simp [OpenSession.queue, hphase]
    | finish hphase =>
      refine hold.subset ?_ ?_
      · rfl
      · simp [OpenSession.queue, hphase]
    | close _ =>
      refine hold.subset ?_ (List.append_subset.mpr ⟨List.subset_append_left _ _, ?_⟩)
      · rfl
      · refine List.Subset.trans ?_ (List.subset_append_right _ _)
        cases hphase : (run.sessions number).phase <;>
          simp [OpenSession.close, OpenSession.queue, ClientSession.release, hphase]
    | other hother =>
      apply hold.send
      intro request hrequest
      exact absurd hrequest (hother request)

theorem Posted.step (h : run.Posted) (hdoes : run.Does action after) : after.Posted := by
  have hwired := h.wired.step hdoes
  cases hdoes with
  | nothing => exact h
  | welcome message hnone => exact ⟨hwired, h.calls, h.replayed, h.addressed⟩
  | ready => exact ⟨hwired, h.calls, h.replayed, h.addressed⟩
  | @join info rest hwelcome =>
    have hadded := h.addSession info (by simp [hwelcome])
    exact ⟨hwired, hadded.calls, hadded.replayed, hadded.addressed⟩
  | @add update hready =>
    apply h.addSession
    intro hnone
    rw [(h.wired.early hnone).1] at hready
    contradiction
  | remove => exact ⟨hwired, h.calls, h.replayed, h.addressed⟩
  | @register thread owner key hidle hnew =>
    have hcall := h.setCall thread (show (SubscribeCall.recorded ⟨owner, key⟩ true).Addressed
      run.sessions run.client.nextSession from trivial)
    refine ⟨hwired, ?_, hcall.replayed, hcall.addressed⟩
    rw [change, Component.registerSubscription_component hnew]
    exact hcall.calls
  | @cancel action thread handle record _ _ _ =>
    have hcall := h.setCall thread (show (SubscribeCall.recorded record false).Addressed
      run.sessions run.client.nextSession from trivial)
    exact ⟨hwired, hcall.calls, hcall.replayed, hcall.addressed⟩
  | name => exact h.setCall _ trivial
  | lookUp hcall =>
    apply h.setCall
    intro sent hsent
    obtain ⟨owner, hsession, hmatches, hfits, hmessage⟩ := Component.of_mem_lookUp hsent
    obtain ⟨hlt, hendpoint, _⟩ := h.wired.current owner sent.1 hsession
    rw [hendpoint]
    exact ⟨hlt, hmatches, hfits, _, hmessage⟩
  | @send thread record registering number message rest hcall =>
    have hcalls := h.calls thread
    rw [hcall] at hcalls
    have hrest : (SubscribeCall.sending record registering rest).Addressed run.sessions
        run.client.nextSession := fun sent hsent => hcalls sent (List.mem_cons_of_mem _ hsent)
    have hmoved := h.setCall thread hrest
    obtain ⟨_, _, _, subscriber, hmessage⟩ := hcalls (number, message) List.mem_cons_self
    apply hmoved.setSession hwired OpenSession.send_endpoint
    · rw [OpenSession.send_phase, OpenSession.send_endpoint]
      exact h.replayed number
    · apply (h.addressed number).send
      intro request hrequest
      cases hrequest
      exact congrArg Subscription.ownerId hmessage
  | done => exact h.setCall _ trivial
  | session hserves => exact h.session hserves

end ClientRun

/-! ### Keys that nothing stands behind -/

/-- A call that has erased a record and is going to tell session `number`. -/
def SubscribeCall.Withdraws (owner : OwnerId) (number : Nat) (subscriber : OwnerId)
    (key : Bytes) : SubscribeCall → Prop
  | .idle => False
  | .recorded record registering =>
      registering = false ∧ record.Matches owner ∧ record.key = key
  | .named record registering read =>
      registering = false ∧ record.Matches owner ∧ record.key = key ∧ read = subscriber
  | .sending _ registering rest =>
      registering = false ∧ (number, ⟨key, owner, subscriber, false⟩) ∈ rest

namespace ClientRun
variable {F : Type} {run after : ClientRun F} {action : ClientAction} {number : Nat}
  {link : OpenSession} {owner : OwnerId} {key : Bytes}

/-- Why a key may be registered at the other end of a session. -/
inductive Backed (run : ClientRun F) (owner : OwnerId) (number : Nat) (key : Bytes) : Prop
  | live {record : SubscriptionRecord} : run.client.Live record → record.Matches owner →
      record.key = key → Backed run owner number key
  | withdrawn (thread : ThreadId) :
      (run.calls thread).Withdraws owner number run.client.owner key →
      Backed run owner number key

/-- A record is cancelled after its registration has returned, and the
cancelling frame is passed to a session that has no registering frame for the
same key still to pass on. -/
def Orderly (run : ClientRun F) : ClientAction → Prop
  | .register _ owner key => ¬ run.client.Live ⟨owner, key⟩ →
      run.client.nextSubscriptionHandle + 1 ∉ run.client.subscriptions
  | .cancel _ owner key => ∀ thread, ¬ (run.calls thread).Registering ⟨owner, key⟩
  | .cancelHandle _ handle => ∀ record, run.client.subscriptions[handle]? = some record →
      ∀ thread, ¬ (run.calls thread).Registering record
  | .advance thread => ∀ record number message rest,
      run.calls thread = .sending record false ((number, message) :: rest) →
      run.client.sessions[message.ownerId]? = some number →
        ¬ (run.sessions number).Behind run.client.owner message.key
  | _ => True

structure Settled (run : ClientRun F) : Prop where
  posted : run.Posted
  registering : ∀ thread record, (run.calls thread).Registering record → run.client.Live record
  backed : ∀ owner number key, run.client.sessions[owner]? = some number →
    (run.sessions number).Holds run.client.owner key →
      key.length + 13 ≤ Wire.kMaxPayload ∧ run.Backed owner number key

theorem Settled.initial : (initial : ClientRun F).Settled where
  posted := .initial
  registering _ _ h := h.elim
  backed owner number key h := by
    simp [ClientRun.initial, Component.constructed, Component.initial] at h

theorem not_holds_initial (endpoint peer : OwnerId) (key : Bytes) :
    ¬ (OpenSession.initial endpoint).Holds peer key := by
  rintro (h | h | h)
  · exact not_asked_nil h
  · exact not_asked_nil h
  · exact h

theorem Backed.congr (h : run.Backed owner number key)
    (hlive : ∀ record, run.client.Live record → after.client.Live record)
    (howner : after.client.owner = run.client.owner)
    (hcalls : ∀ thread, (run.calls thread).Withdraws owner number run.client.owner key →
      (after.calls thread).Withdraws owner number run.client.owner key) :
    after.Backed owner number key := by
  cases h with
  | live hrecord hmatches hkey => exact .live (hlive _ hrecord) hmatches hkey
  | withdrawn thread hwithdraws =>
    apply Backed.withdrawn thread
    rw [howner]
    exact hcalls thread hwithdraws

theorem calls_setCall {thread : ThreadId} {call : SubscribeCall}
    {P : SubscribeCall → Prop} (h : P (run.calls thread) → P call) (other : ThreadId)
    (hother : P (run.calls other)) : P ((run.setCall thread call).calls other) := by
  simp only [setCall, Function.update_apply]
  split
  · rename_i heq
    rw [heq] at hother
    exact h hother
  · exact hother

theorem Settled.setCall (h : run.Settled) {thread : ThreadId} {call : SubscribeCall}
    (hposted : (run.setCall thread call).Posted)
    (hregistering : ∀ record, call.Registering record → (run.calls thread).Registering record)
    (hwithdraws : ∀ owner number key, run.client.sessions[owner]? = some number →
      key.length + 13 ≤ Wire.kMaxPayload →
      (run.calls thread).Withdraws owner number run.client.owner key →
        call.Withdraws owner number run.client.owner key) :
    (run.setCall thread call).Settled := by
  refine ⟨hposted, ?_, ?_⟩
  · intro other record hother
    simp only [ClientRun.setCall, Function.update_apply] at hother
    split at hother
    · rename_i heq
      exact h.registering thread record (hregistering record hother)
    · exact h.registering other record hother
  · intro owner number key hsession hholds
    obtain ⟨hfits, hbacked⟩ := h.backed owner number key hsession hholds
    refine ⟨hfits, hbacked.congr (fun _ hlive => hlive) rfl ?_⟩
    intro other hother
    exact calls_setCall (P := SubscribeCall.Withdraws owner number run.client.owner key)
      (hwithdraws owner number key hsession hfits) other hother

theorem Settled.addSession (h : run.Settled) (info : ComponentInfo)
    (hwelcome : run.welcome ≠ none) : (run.addSession info).Settled := by
  refine ⟨h.posted.addSession info hwelcome, h.registering, ?_⟩
  intro owner number key hsession hholds
  rw [sessions_addSession] at hsession
  rw [link_addSession] at hholds
  split at hsession
  · cases Option.some.inj hsession
    rw [if_pos rfl] at hholds
    exact absurd hholds (not_holds_initial _ _ _)
  · rw [if_neg (Nat.ne_of_lt (h.posted.wired.current owner number hsession).1)] at hholds
    obtain ⟨hfits, hbacked⟩ := h.backed owner number key hsession hholds
    exact ⟨hfits, hbacked.congr (fun _ hlive => hlive) rfl fun _ hcall => hcall⟩

theorem Settled.register (h : run.Settled) {thread : ThreadId} {registered : OwnerId}
    {key : Bytes} (hidle : run.calls thread = .idle) (hnew : ¬ run.client.Live ⟨registered, key⟩)
    (hfresh : run.client.nextSubscriptionHandle + 1 ∉ run.client.subscriptions) :
    (run.change thread (run.client.registerSubscription registered key).component
      ⟨registered, key⟩ true).Settled := by
  have hposted := h.posted.step (.register hidle hnew)
  rw [Component.registerSubscription_component hnew] at hposted ⊢
  refine ⟨hposted, ?_, ?_⟩
  · intro other record hother
    simp only [change, ClientRun.setCall, Function.update_apply] at hother
    apply (Component.live_insert hfresh).mpr
    split at hother
    · exact Or.inr hother.1.symm
    · exact Or.inl (h.registering other record hother)
  · intro owner number words hsession hholds
    obtain ⟨hfits, hbacked⟩ := h.backed owner number words hsession hholds
    refine ⟨hfits, hbacked.congr ?_ rfl ?_⟩
    · intro record hlive
      exact (Component.live_insert hfresh).mpr (Or.inl hlive)
    · intro other hother
      refine calls_setCall (P := SubscribeCall.Withdraws owner number run.client.owner words)
        ?_ other hother
      rw [hidle]
      exact False.elim

theorem Settled.cancel (h : run.Settled) {thread : ThreadId} {handle : SubscriptionHandle}
    {record : SubscriptionRecord} (hidle : run.calls thread = .idle)
    (hfind : run.client.subscriptions[handle]? = some record)
    (hreturned : ∀ other, ¬ (run.calls other).Registering record)
    (hposted : (run.change thread { run.client with
      subscriptions := run.client.subscriptions.erase handle } record false).Posted) :
    (run.change thread { run.client with
      subscriptions := run.client.subscriptions.erase handle } record false).Settled := by
  refine ⟨hposted, ?_, ?_⟩
  · intro other registered hother
    simp only [change, ClientRun.setCall, Function.update_apply] at hother
    split at hother
    · exact absurd hother.2 Bool.false_ne_true
    · obtain ⟨found, hfound⟩ := h.registering other registered hother
      refine Component.live_erase.mpr ⟨found, ?_, hfound⟩
      rintro rfl
      cases Option.some.inj (hfound.symm.trans hfind)
      exact hreturned other hother
  · intro owner number key hsession hholds
    obtain ⟨hfits, hbacked⟩ := h.backed owner number key hsession hholds
    refine ⟨hfits, ?_⟩
    cases hbacked with
    | @live other hlive hmatches hkey =>
      obtain ⟨found, hfound⟩ := hlive
      by_cases heq : found = handle
      · subst heq
        cases Option.some.inj (hfound.symm.trans hfind)
        apply Backed.withdrawn thread
        simp only [change, ClientRun.setCall, Function.update_self]
        exact ⟨rfl, hmatches, hkey⟩
      · exact .live (Component.live_erase.mpr ⟨found, heq, hfound⟩) hmatches hkey
    | withdrawn other hother =>
      apply Backed.withdrawn other
      refine calls_setCall (P := SubscribeCall.Withdraws owner number run.client.owner key)
        ?_ other hother
      rw [hidle]
      exact False.elim

theorem word_subscription {peer : OwnerId} {message : Subscription} {write : Write Bytes Unit}
    (h : (Message.subscription message).word peer = some write) :
    message.subscriber = peer ∧ write.key = message.key := by
  simp only [Message.word] at h
  split at h
  · rename_i hpeer
    cases Option.some.inj h
    refine ⟨hpeer, ?_⟩
    split <;> rfl
  · contradiction

theorem Settled.send (h : run.Settled) {thread : ThreadId} {record : SubscriptionRecord}
    {registering : Bool} {sender : Nat} {message : Subscription}
    {rest : List (Nat × Subscription)}
    (hcall : run.calls thread = .sending record registering ((sender, message) :: rest))
    (hguard : run.Orderly (.advance thread)) :
    ((run.setCall thread (.sending record registering rest)).setSession sender
      ((run.sessions sender).send (.subscription message))).Settled := by
  have haddressed := h.posted.calls thread
  rw [hcall] at haddressed
  obtain ⟨_, hmatches, hfits, subscriber, hmessage⟩ := haddressed _ List.mem_cons_self
  dsimp only at hmatches hmessage
  have hkey : message.key = record.key := congrArg Subscription.key hmessage
  refine ⟨h.posted.step (.send hcall), ?_, ?_⟩
  · intro other found hother
    simp only [ClientRun.setSession, ClientRun.setCall, Function.update_apply] at hother
    split at hother
    · apply h.registering thread
      rw [hcall]
      exact ⟨hother.1, hother.2.1, List.cons_ne_nil _ _⟩
    · exact h.registering other found hother
  · intro owner number key hsession hholds
    rw [link_setSession] at hholds
    have hkept : run.Backed owner number key →
        (registering = false → number = sender → key = record.key →
          subscriber = run.client.owner → False) →
        ((run.setCall thread (.sending record registering rest)).setSession sender
          ((run.sessions sender).send (.subscription message))).Backed owner number key := by
      intro hbacked hnot
      refine hbacked.congr (fun _ hlive => hlive) rfl ?_
      intro other hother
      refine calls_setCall (P := SubscribeCall.Withdraws owner number run.client.owner key)
        ?_ other hother
      rw [hcall]
      rintro ⟨hcancel, hmem⟩
      refine ⟨hcancel, ?_⟩
      rcases List.mem_cons.mp hmem with hfirst | hlater
      · obtain ⟨rfl, rfl⟩ := Prod.mk.inj hfirst
        have hself : run.client.owner = subscriber := congrArg Subscription.subscriber hmessage
        exact (hnot hcancel rfl hkey hself.symm).elim
      · exact hlater
    split at hholds
    · rename_i heq
      subst heq
      obtain ⟨_, hendpoint, hopen⟩ := h.posted.wired.current owner number hsession
      have hsound := h.posted.wired.sound number
      by_cases habout : key = record.key ∧ subscriber = run.client.owner
      · obtain ⟨rfl, rfl⟩ := habout
        refine ⟨hfits, ?_⟩
        cases registering with
        | true =>
          have hlive := h.registering thread record (by
            rw [hcall]
            exact ⟨rfl, rfl, List.cons_ne_nil _ _⟩)
          exact .live hlive (hendpoint ▸ hmatches) rfl
        | false =>
          have hbehind := hguard record number message rest hcall (by
            rw [hmessage]
            exact hendpoint.symm ▸ hsession)
          have hword : (Message.subscription message).word run.client.owner =
              some (.remove record.key) := by
            rw [hmessage]
            simp [Message.word]
          rw [hkey] at hbehind
          exact absurd hholds
            (OpenSession.not_holds_send_cancel hsound hopen hword hbehind)
      · have hbefore := OpenSession.holds_send_other hsound hopen (by
          intro write hwrite heq
          obtain ⟨hpeer, hwritten⟩ := word_subscription hwrite
          rw [hmessage] at hpeer
          exact habout ⟨heq.symm.trans (hwritten.trans hkey), hpeer⟩) hholds
        obtain ⟨hshort, hbacked⟩ := h.backed owner number key hsession hbefore
        exact ⟨hshort, hkept hbacked fun _ _ hsame hself => habout ⟨hsame, hself⟩⟩
    · rename_i hne
      obtain ⟨hshort, hbacked⟩ := h.backed owner number key hsession hholds
      exact ⟨hshort, hkept hbacked fun _ hsame => absurd hsame hne⟩

/-- What a session does by itself leaves no key registered that was not before,
but for the records it reads. -/
theorem Serves.holds (hserves : run.Serves action number link) (hposted : run.Posted)
    (hsession : run.client.sessions[owner]? = some number)
    (hholds : link.Holds run.client.owner key) :
    (run.sessions number).Holds run.client.owner key ∨
      (key.length + 13 ≤ Wire.kMaxPayload ∧ ∃ record, run.client.Live record ∧
        record.Matches owner ∧ record.key = key) := by
  obtain ⟨_, hendpoint, hopen⟩ := hposted.wired.current owner number hsession
  have hsound := hposted.wired.sound number
  cases hserves with
  | adopt hphase =>
    left
    simpa [OpenSession.Holds, OpenSession.queue, OpenSession.Replays, hphase] using hholds
  | flush hphase =>
    left
    simp only [OpenSession.Holds, OpenSession.queue, OpenSession.Replays, hphase,
      List.append_assoc, List.singleton_append] at hholds ⊢
    rcases hholds with h | h | h
    · exact Or.inl h
    · exact Or.inr (Or.inl (h.append_left [_]))
    · exact h.elim
  | read hphase =>
    simp only [OpenSession.Holds, OpenSession.queue, OpenSession.Replays, hphase,
      List.append_nil] at hholds ⊢
    rcases hholds with h | h | ⟨hfits, record, hmem, hkey⟩
    · exact Or.inl (Or.inl h)
    · exact absurd h not_asked_nil
    · obtain ⟨hlive, hmatches⟩ := Component.live_of_mem_subscriptionsFor hmem
      exact Or.inr ⟨hfits, record, hlive, hendpoint ▸ hmatches, hkey⟩
  | @replay _ record rest hphase hfits =>
    left
    have hup : (run.sessions number).session.connected = true := by
      rw [hsound.connected hopen, hphase]
      exact nofun
    simp only [OpenSession.Holds, OpenSession.queue, OpenSession.Replays, hphase,
      OpenSession.send_passed hopen hup, List.append_nil] at hholds ⊢
    by_cases hkey : record.key = key
    · exact Or.inr (Or.inr ⟨hkey ▸ hfits, record, List.mem_cons_self, hkey⟩)
    · rcases hholds with h | h | ⟨hshort, other, hmem, hother⟩
      · rw [asked_insert_other, List.append_nil] at h
        · exact Or.inl h
        · intro write hwrite heq
          rw [(word_subscription hwrite).2] at heq
          exact hkey heq
      · exact absurd h not_asked_nil
      · exact Or.inr (Or.inr ⟨hshort, other, List.mem_cons_of_mem _ hmem, hother⟩)
  | throw hphase _ =>
    left
    simp only [OpenSession.Holds, OpenSession.queue, OpenSession.Replays, hphase,
      List.append_nil, or_false] at hholds ⊢
    exact Or.inl (hholds.resolve_right not_asked_nil)
  | finish hphase =>
    left
    simp only [OpenSession.Holds, OpenSession.queue, OpenSession.Replays, hphase,
      List.append_nil, or_false] at hholds ⊢
    exact Or.inl (hholds.resolve_right not_asked_nil)
  | close hstale =>
    rw [isCurrent, hendpoint, decide_eq_false_iff_not] at hstale
    exact absurd hsession hstale
  | @other _ message hother =>
    left
    refine OpenSession.holds_send_other hsound hopen ?_ hholds
    intro write hwrite
    cases message with
    | subscription request => exact absurd rfl (hother request)
    | _ => contradiction

theorem Settled.session (h : run.Settled) (hserves : run.Serves action number link) :
    (run.setSession number link).Settled := by
  refine ⟨h.posted.step (.session hserves), h.registering, ?_⟩
  intro owner other key hsession hholds
  rw [link_setSession] at hholds
  have hkept : ∀ {word}, run.Backed owner other word →
      (run.setSession number link).Backed owner other word := fun hbacked =>
    hbacked.congr (fun _ hlive => hlive) rfl fun _ hcall => hcall
  split at hholds
  · rename_i heq
    subst heq
    rcases hserves.holds h.posted hsession hholds with
      hbefore | ⟨hfits, record, hlive, hmatches, hkey⟩
    · obtain ⟨hfits, hbacked⟩ := h.backed owner other key hsession hbefore
      exact ⟨hfits, hkept hbacked⟩
    · exact ⟨hfits, .live hlive hmatches hkey⟩
  · obtain ⟨hfits, hbacked⟩ := h.backed owner other key hsession hholds
    exact ⟨hfits, hkept hbacked⟩

theorem Settled.step (h : run.Settled) (hguard : run.Orderly action)
    (hdoes : run.Does action after) : after.Settled := by
  have hposted := h.posted.step hdoes
  cases hdoes with
  | nothing => exact h
  | welcome message hnone =>
    refine ⟨hposted, h.registering, ?_⟩
    intro owner number key hsession
    rw [(h.posted.wired.early hnone).2 owner] at hsession
    contradiction
  | ready =>
    refine ⟨hposted, h.registering, ?_⟩
    intro owner number key hsession hholds
    obtain ⟨hfits, hbacked⟩ := h.backed owner number key hsession hholds
    exact ⟨hfits, hbacked.congr (fun _ hlive => hlive) rfl fun _ hcall => hcall⟩
  | @join info rest hwelcome =>
    have hadded := h.addSession info (by simp [hwelcome])
    refine ⟨hposted, hadded.registering, ?_⟩
    intro owner number key hsession hholds
    obtain ⟨hfits, hbacked⟩ := hadded.backed owner number key hsession hholds
    exact ⟨hfits, hbacked.congr (fun _ hlive => hlive) rfl fun _ hcall => hcall⟩
  | @add update hready =>
    apply h.addSession
    intro hnone
    rw [(h.posted.wired.early hnone).1] at hready
    contradiction
  | @remove update =>
    refine ⟨hposted, h.registering, ?_⟩
    intro owner number key hsession hholds
    obtain ⟨hfits, hbacked⟩ :=
      h.backed owner number key (Component.session_of_removeSession hsession) hholds
    exact ⟨hfits, hbacked.congr (fun _ hlive => hlive) rfl fun _ hcall => hcall⟩
  | register hidle hnew => exact h.register hidle hnew (hguard hnew)
  | cancel hidle hfind hcancel =>
    apply h.cancel hidle hfind _ hposted
    rcases hcancel with rfl | rfl
    · exact hguard
    · exact hguard _ hfind
  | name hcall =>
    apply h.setCall hposted
    · intro record hregistering
      rw [hcall]
      exact hregistering
    · intro owner number key _ _ hwithdraws
      rw [hcall] at hwithdraws
      exact ⟨hwithdraws.1, hwithdraws.2.1, hwithdraws.2.2, rfl⟩
  | lookUp hcall =>
    apply h.setCall hposted
    · intro record hregistering
      rw [hcall]
      exact ⟨hregistering.1, hregistering.2.1⟩
    · intro owner number key hsession hfits hwithdraws
      rw [hcall] at hwithdraws
      obtain ⟨rfl, hmatches, rfl, rfl⟩ := hwithdraws
      exact ⟨rfl, Component.mem_lookUp hsession hmatches hfits false _⟩
  | send hcall => exact h.send hcall hguard
  | done hcall =>
    apply h.setCall hposted
    · intro record hregistering
      exact hregistering.elim
    · intro owner number key _ _ hwithdraws
      rw [hcall] at hwithdraws
      exact absurd hwithdraws.2 List.not_mem_nil
  | session hserves => exact h.session hserves

/-- When every call has returned and the session has replayed, a key is left
registered only if a live record has it. -/
theorem Settled.asked (h : run.Settled) (hsession : run.client.sessions[owner]? = some number)
    (hidle : ∀ thread, run.calls thread = .idle)
    (hasked : Asked run.client.owner key (run.sessions number).passed)
    (hfinished : (run.sessions number).phase = .finished) :
    ∃ record, run.client.Live record ∧ record.Matches owner ∧ record.key = key := by
  have hholds : (run.sessions number).Holds run.client.owner key := by
    left
    simpa only [OpenSession.queue, hfinished, List.append_nil] using hasked
  obtain ⟨_, hbacked⟩ := h.backed owner number key hsession hholds
  cases hbacked with
  | live hlive hmatches hkey => exact ⟨_, hlive, hmatches, hkey⟩
  | withdrawn thread hwithdraws =>
    rw [hidle thread] at hwithdraws
    exact hwithdraws.elim

end ClientRun

/-! ### The other end -/

namespace Component
variable {F : Type} {c : Component F} {id : OwnerId} {key : Bytes} {handled : List Message}

structure Heard (c : Component F) (id : OwnerId) (key : Bytes) (handled : List Message) : Prop where
  universal : id ∈ c.space.uSubscribers → Asked id kWildcardKey handled
  listed : id ∉ c.space.uSubscribers → id ∈ c.space.subscribersOf ⟨c.owner, key⟩ →
    Asked id key handled

theorem Absent.heard (h : c.Absent id) : c.Heard id key [] :=
  ⟨fun hid => absurd hid h.1, fun _ hid => absurd hid (h.not_listed _)⟩

theorem Heard.enter_other (h : c.Heard id key handled) (call : Call F)
    (hcall : call.subscriber ≠ some id) (now : TimePoint) :
    (c.enter call now).component.Heard id key handled := by
  have howner := c.enter_owner call now
  by_cases hsubscription : ∃ message, call = .handle (.subscription message)
  · obtain ⟨message, rfl⟩ := hsubscription
    have hother : id ≠ message.subscriber := fun heq => hcall (congrArg some heq.symm)
    have huniversal := c.mem_uSubscribers_handleSubscription hother now
    have hlisted := c.mem_subscribersOf_handleSubscription hother now
    constructor
    · intro hid
      exact h.universal (huniversal.mp hid)
    · intro hnot hid
      rw [howner] at hid
      exact h.listed (fun hold => hnot (huniversal.mpr hold)) ((hlisted _).mp hid)
  · have hkeeps := c.enter_keepsSubscribers (fun message heq => hsubscription ⟨message, heq⟩) now
    constructor
    · intro hid
      rw [hkeeps.universal] at hid
      exact h.universal hid
    · intro hnot hid
      rw [howner] at hid
      rw [hkeeps.universal] at hnot
      rcases hkeeps.subscribers ⟨c.owner, key⟩ with hsame | ⟨_, hsame⟩
      · rw [hsame] at hid
        exact h.listed hnot hid
      · rw [hsame] at hid
        exact absurd hid hnot

theorem Heard.handleSubscription {message : Subscription}
    (h : c.Heard message.subscriber key handled) (hto : message.ownerId = c.owner)
    (hfrom : message.subscriber ≠ c.owner) (now : TimePoint) :
    (c.handleSubscription message now).component.Heard message.subscriber key
      (handled ++ [.subscription message]) := by
  have hsay : ∀ {word : Bytes}, Asked message.subscriber word handled → message.key ≠ word →
      Asked message.subscriber word (handled ++ [.subscription message]) := by
    intro word hasked hne
    rw [asked_insert_other, List.append_nil]
    · exact hasked
    · intro write hwrite heq
      exact hne ((ClientRun.word_subscription hwrite).2.symm.trans heq)
  have hask : message.registering = true →
      Asked message.subscriber message.key (handled ++ [.subscription message]) := by
    intro hregistering
    apply asked_concat_register
    simp [Message.word, hregistering]
  unfold Component.handleSubscription
  rw [if_neg (by simp [hto]), if_neg hfrom]
  by_cases hregistering : message.registering = true
  · rw [if_pos hregistering]
    by_cases hwildcard : message.key = kWildcardKey
    · rw [if_pos hwildcard]
      constructor
      · intro _
        exact hwildcard ▸ hask hregistering
      · intro hnot
        refine absurd ?_ hnot
        simp only [PairSpace.addSubscriptionToAll]
        split
        · assumption
        · simp
    · rw [if_neg hwildcard]
      constructor
      · intro hid
        rw [PairSpace.uSubscribers_addSubscription] at hid
        exact hsay (h.universal hid) hwildcard
      · intro hnot hid
        simp only [PairSpace.uSubscribers_addSubscription] at hnot
        rw [PairSpace.subscribersOf_addSubscription] at hid
        by_cases hkey : message.key = key
        · exact hkey ▸ hask hregistering
        · rw [if_neg (fun heq => hkey (congrArg PairKey.key heq))] at hid
          exact hsay (h.listed hnot hid) hkey
  · rw [if_neg hregistering]
    by_cases hwildcard : message.key = kWildcardKey
    · rw [if_pos hwildcard]
      constructor
      · intro hid
        simp [PairSpace.removeSubscriptionToAll] at hid
      · intro _ hid
        simp [PairSpace.subscribersOf_removeSubscriptionToAll] at hid
    · rw [if_neg hwildcard]
      constructor
      · intro hid
        simp only [PairSpace.uSubscribers_removeSubscription] at hid
        exact hsay (h.universal hid) hwildcard
      · intro hnot hid
        simp only [PairSpace.uSubscribers_removeSubscription] at hnot
        simp only [PairSpace.subscribersOf_removeSubscription, hto] at hid
        by_cases hkey : message.key = key
        · subst hkey
          cases hfind : c.space.find ⟨c.owner, message.key⟩ with
          | none =>
            simp only [hfind, Option.isSome_none, Bool.false_eq_true, and_false, if_false,
              PairSpace.subscribersOf] at hid
            exact absurd hid hnot
          | some entry => simp [hfind] at hid
        · rw [if_neg (fun heq => hkey (congrArg PairKey.key heq.1))] at hid
          exact hsay (h.listed hnot hid) hkey

end Component

namespace ClientRun
variable {F : Type} {run : ClientRun F} {number : Nat} {owner : OwnerId} {key : Bytes}

def Serving (_ : SubscriptionRun F) : SubscriptionAction F → Prop
  | .deliver _ => True
  | .atOwner _ _ => True
  | _ => False

structure Hears (run : ClientRun F) (passed : List Message) (owner : OwnerId) (key : Bytes)
    (far : SubscriptionRun F) : Prop where
  client : far.client = run.client
  owner : far.owner.owner = owner
  heard : ∃ handled, passed = handled ++ far.channel ∧
    far.owner.Heard run.client.owner key handled

theorem Hears.step {passed : List Message} {far next : SubscriptionRun F}
    {action : SubscriptionAction F} (h : run.Hears passed owner key far)
    (hdistinct : run.client.owner ≠ owner)
    (haddressed : ∀ message, .subscription message ∈ passed → message.ownerId = owner)
    (hguard : Serving far action) (hstep : far.step action = some next) :
    run.Hears passed owner key next := by
  obtain ⟨handled, hpassed, hheard⟩ := h.heard
  cases action with
  | register => exact hguard.elim
  | cancel => exact hguard.elim
  | cancelHandle => exact hguard.elim
  | deliver now =>
    simp only [SubscriptionRun.step] at hstep
    split at hstep
    · contradiction
    rename_i message rest hchannel
    cases Option.some.inj hstep
    rw [hchannel] at hpassed
    have hnext : passed = (handled ++ [message]) ++ rest := by
      rw [hpassed, List.append_assoc]
      rfl
    refine ⟨h.client, (far.owner.enter_owner _ now).trans h.owner, handled ++ [message], hnext, ?_⟩
    by_cases hown : ∃ request, message = .subscription request ∧
        request.subscriber = run.client.owner
    · obtain ⟨request, rfl, hfrom⟩ := hown
      have hto : request.ownerId = far.owner.owner := by
        rw [h.owner]
        apply haddressed
        rw [hpassed]
        exact List.mem_append_right _ List.mem_cons_self
      have hself : request.subscriber ≠ far.owner.owner := by
        rw [hfrom, h.owner]
        exact hdistinct
      rw [← hfrom] at hheard ⊢
      exact hheard.handleSubscription hto hself now
    · have hword : ∀ write, message.word run.client.owner ≠ some write := by
        intro write hwrite
        cases message with
        | subscription request =>
          exact hown ⟨request, rfl, (word_subscription hwrite).1⟩
        | _ => contradiction
      have hsame := hheard.enter_other (.handle message) (by
        intro heq
        cases message with
        | subscription request => exact hown ⟨request, rfl, Option.some.inj heq⟩
        | _ => contradiction) now
      refine ⟨fun hid => ?_, fun hnot hid => ?_⟩
      · rw [asked_insert_other fun write hwrite => absurd hwrite (hword write), List.append_nil]
        exact hsame.universal hid
      · rw [asked_insert_other fun write hwrite => absurd hwrite (hword write), List.append_nil]
        exact hsame.listed hnot hid
  | atOwner call now =>
    simp only [SubscriptionRun.step] at hstep
    split at hstep
    · contradiction
    rename_i hcall
    cases Option.some.inj hstep
    rw [h.client] at hcall
    exact ⟨h.client, (far.owner.enter_owner call now).trans h.owner, handled, hpassed,
      hheard.enter_other _ hcall now⟩

/-- However calls, replays and connections are interleaved, when all have come
to an end and the other end has handled every frame, a client is not listed for
a pair that no live record of it covers, as long as no cancelling frame is
passed on before a registering one for the same key that the session still had. -/
theorem cancelled_stays_cancelled (hreach : Reach step Orderly initial run)
    (hsession : run.client.sessions[owner]? = some number)
    (hfinished : (run.sessions number).phase = .finished)
    (hidle : ∀ thread, run.calls thread = .idle) {peer : Component F}
    (howner : peer.owner = owner) (hdistinct : run.client.owner ≠ owner)
    (habsent : peer.Absent run.client.owner) {far : SubscriptionRun F}
    (hserved : Reach SubscriptionRun.step Serving
      ⟨run.client, (run.sessions number).passed, peer⟩ far)
    (hquiet : far.channel = [])
    (hdead : ∀ record, run.client.Live record → ¬ record.Covers owner key) :
    run.client.owner ∉ far.owner.space.subscribersOf ⟨owner, key⟩ := by
  have hsettled : run.Settled := by
    refine hreach.invariant Settled.initial ?_
    intro before action after hbefore hguard hstep
    exact hbefore.step hguard (step_does hstep)
  have haddressed : ∀ message, .subscription message ∈ (run.sessions number).passed →
      message.ownerId = owner := by
    intro message hmem
    rw [← (hsettled.posted.wired.current owner number hsession).2.1]
    exact hsettled.posted.addressed number message (List.mem_append_left _ hmem)
  have hhears : run.Hears (run.sessions number).passed owner key far := by
    refine hserved.invariant ⟨rfl, howner, [], rfl, habsent.heard⟩ ?_
    intro before action after hbefore hguard hstep
    exact hbefore.step hdistinct haddressed hguard hstep
  obtain ⟨handled, hpassed, hheard⟩ := hhears.heard
  rw [hquiet, List.append_nil] at hpassed
  intro hlisted
  rw [← hhears.owner] at hlisted
  by_cases huniversal : run.client.owner ∈ far.owner.space.uSubscribers
  · have hasked := hpassed ▸ hheard.universal huniversal
    obtain ⟨record, hlive, hmatches, hkey⟩ := hsettled.asked hsession hidle hasked hfinished
    exact hdead record hlive ⟨hmatches, Or.inr hkey⟩
  · have hasked := hpassed ▸ hheard.listed huniversal hlisted
    obtain ⟨record, hlive, hmatches, hkey⟩ := hsettled.asked hsession hidle hasked hfinished
    exact hdead record hlive ⟨hmatches, Or.inl hkey⟩

/-! Two runs with the same calls and two orders of the session's steps. -/

def registered (key : Bytes) : List ClientAction :=
  registering key ++ [.advance 0, .advance 0]

def withdrawing : List ClientAction := [.advance 0, .advance 0, .advance 0, .advance 0]

/-- The replay has read the record when the call erases it. The cancelling frame
is passed on first, and the client stays listed for a pair it has cancelled. -/
theorem cancelled_is_replayed : ∃ (run : ClientRun Unit) (far : SubscriptionRun Unit),
    Reach step unguarded initial run ∧ run.client.sessions[(1000 : OwnerId)]? = some 0 ∧
      (run.sessions 0).phase = .finished ∧ (∀ thread, run.calls thread = .idle) ∧
      (∀ record, ¬ run.client.Live record) ∧
      Reach SubscriptionRun.step Serving
        ⟨run.client, (run.sessions 0).passed, Component.initial 1000⟩ far ∧
      far.channel = [] ∧ run.client.owner ∈ far.owner.space.subscribersOf ⟨1000, [107]⟩ := by
  refine ⟨_, _, Reach.of_run (welcoming ++ registered [107] ++ [.adopt 0, .flush 0, .read 0,
    .cancel 0 1000 [107]] ++ withdrawing ++ [.replay 0, .replay 0]) (fun _ _ _ => trivial) rfl,
    rfl, rfl, ?_, ?_, Reach.of_run [.deliver 0, .deliver 0, .deliver 0] ?_ rfl, rfl, by decide⟩
  · intro thread
    cases thread <;> rfl
  · intro record
    rw [Component.live_iff_any]
    exact Bool.false_ne_true
  · simp [Serving]

def calm (run : ClientRun F) : ClientAction → Bool
  | .register .. => run.client.nextSubscriptionHandle + 1 ∉ run.client.subscriptions
  | .cancel .. => false
  | .cancelHandle .. => false
  | .advance thread =>
      match run.calls thread with
      | .sending _ false ((number, _) :: _) =>
          match (run.sessions number).phase with
          | .connecting => true
          | _ => false
      | _ => true
  | _ => true

theorem orderly_of_calm (run : ClientRun F) (action : ClientAction) (h : run.calm action) :
    run.Orderly action := by
  cases action with
  | register thread owner key => exact fun _ => of_decide_eq_true h
  | cancel => contradiction
  | cancelHandle => contradiction
  | advance thread =>
    intro record number message rest hcall _ hbehind
    simp only [calm, hcall] at h
    split at h
    · rename_i hphase
      simp [OpenSession.Behind, hphase] at hbehind
    · contradiction
  | _ => trivial

/-- The record is registered and cancelled before the connection is up. -/
theorem cancelled_stays_cancelled_pending :
    ∃ (run : ClientRun Unit) (far : SubscriptionRun Unit),
    Reach step Orderly initial run ∧ (run.sessions 0).passed.length = 2 ∧
      Reach SubscriptionRun.step Serving
        ⟨run.client, (run.sessions 0).passed, Component.initial 1000⟩ far ∧
      far.channel = [] ∧ run.client.owner ∉ far.owner.space.subscribersOf ⟨1000, [107]⟩ := by
  have hbefore : ∃ run : ClientRun Unit, Reach step Orderly initial run ∧
      (∀ thread, run.calls thread = .idle) ∧
      ∃ after, run.step (.cancel 0 1000 [107]) = some after ∧
      ∃ last, Transition.run (checked step calm) after (withdrawing ++
        [.adopt 0, .flush 0, .flush 0, .read 0, .replay 0]) = some last ∧
      last.client.sessions[(1000 : OwnerId)]? = some 0 ∧ (last.sessions 0).phase = .finished ∧
      (∀ thread, last.calls thread = .idle) ∧ (∀ record, ¬ last.client.Live record) ∧
      (last.sessions 0).passed.length = 2 ∧ last.client.owner = 2000 ∧
      ∃ far, Transition.run SubscriptionRun.step
        ⟨last.client, (last.sessions 0).passed, Component.initial 1000⟩
        [.deliver 0, .deliver 0] = some far ∧ far.channel = [] := by
    refine ⟨_, Reach.of_checked orderly_of_calm (welcoming ++ registered [107]) rfl, ?_, _, rfl, _,
      rfl, rfl, rfl, ?_, ?_, rfl, rfl, _, rfl, rfl⟩
    · intro thread
      cases thread <;> rfl
    · intro thread
      cases thread <;> rfl
    · intro record
      rw [Component.live_iff_any]
      exact Bool.false_ne_true
  obtain ⟨before, hreach, hidle, after, hcancel, last, hlast, hsession, hfinished, hquiet, hdead,
    hlength, howner, far, hfar, hempty⟩ := hbefore
  have hguard : before.Orderly (.cancel 0 1000 [107]) := by
    intro thread
    rw [hidle thread]
    exact id
  have hend : Reach step Orderly initial last :=
    (hreach.tail hguard hcancel).trans (Reach.of_checked orderly_of_calm _ hlast)
  have hserved : Reach SubscriptionRun.step Serving _ far :=
    Reach.of_run _ (by simp [Serving]) hfar
  refine ⟨last, far, hend, hlength, hserved, hempty, ?_⟩
  exact cancelled_stays_cancelled hend hsession hfinished hquiet rfl (by rw [howner]; decide)
    (Component.absent_iff.mpr rfl) hserved hempty fun record hlive => absurd hlive (hdead record)

end ClientRun

end Srnp
