import Srnp.Replica
import Srnp.LateSubscriber
import Srnp.ClientSession

/-! A component that joins and subscribes. The owner of the pair learns of the
newcomer twice, by channels that know nothing of each other: the master's link
brings the announcement that makes the owner open a session, the newcomer's own
connection brings its subscription. A frame for a subscriber without a session
is dropped for good. Where the session is there whenever a frame is due, the
newcomer ends up with the owner's value, however the rest is interleaved. -/
namespace Srnp
open Std LastWrite Transition

namespace Component
variable {F : Type} (c : Component F)

def owes (subscriber : OwnerId) (key : PairKey) : Call F → Prop
  | .handle (.subscription message) =>
      message.subscriber = subscriber ∧ message.covers key ∧ (c.getPair key).isSome
  | call => (c.ownWrite call).map (·.key) = some key ∧ subscriber ∈ c.space.subscribersOf key

def burst : Call F → Nat
  | .sendSubscriptionsFor owner _ => (c.subscriptionsFor owner).length
  | .handle (.subscription message) =>
      if message.key = kWildcardKey then (c.ownPairs c.space).length else 1
  | _ => 1

/-- What a subscriber is to be shown: nothing until it is subscribed. -/
def due (subscriber : OwnerId) (key : PairKey) : Option Shown :=
  if subscriber ∈ c.space.subscribersOf key then c.space.view key else none

end Component

def ClientSession.sendEach {β : Type} (session : ClientSession β) :
    List β → ClientSession β × List β
  | [] => (session, [])
  | frame :: rest =>
      let first := session.sendLocked frame
      let others := sendEach first.1 rest
      (others.1, first.2 ++ others.2)

/-- The owner's side has the announcements and the requests that are on their
way to it, and its session for the subscriber, unused until it is announced. -/
structure JoinRun (F : Type) extends ReplicaRun F where
  masterLink : List UpdateComponents
  requests : List Message
  session : ClientSession Message
  /-- Taken from `pending_` by `connect`, not yet passed on. -/
  waiting : List Message

inductive JoinAction (F : Type) where
  | announce (update : UpdateComponents)
  | request (message : Message)
  | hear
  | serve (now : TimePoint)
  | atOwner (call : Call F) (now : TimePoint)
  | connect
  | flush
  | drain
  | deliver (now : TimePoint)
  | atSubscriber (call : Call F) (now : TimePoint)

namespace JoinRun
variable {F : Type}

def subscribing (key : PairKey) (subscriber : OwnerId) : Subscription :=
  ⟨key.key, key.owner, subscriber, true⟩

/-- The subscriber has registered with the master and sent its subscription. -/
def start (owner subscriber : Component F) (ip port : Bytes) (key : PairKey) : JoinRun F :=
  { ReplicaRun.start owner subscriber with
    masterLink := [⟨.add, ⟨subscriber.owner, ip, port⟩⟩]
    requests := [.subscription (subscribing key subscriber.owner)]
    session := .initial
    waiting := [] }

def enter (run : JoinRun F) (call : Call F) (now : TimePoint) : JoinRun F :=
  let entered := run.owner.enter call now
  let sent := run.session.sendEach
    (entered.component.framesFor run.subscriber.owner entered.todo)
  { run with
    owner := entered.component
    session := sent.1
    channel := run.channel.sendEach sent.2 }

def relay (run : JoinRun F) (action : ReplicaAction F) : Option (JoinRun F) :=
  (run.toReplicaRun.step action).map fun replica => { run with toReplicaRun := replica }

/-- The master announces the subscriber once, and other components besides. -/
def step (run : JoinRun F) : JoinAction F → Option (JoinRun F)
  | .announce update =>
      if update.component.owner = run.subscriber.owner then none
      else some { run with masterLink := run.masterLink ++ [update] }
  | .request message => some { run with requests := run.requests ++ [message] }
  | .hear =>
      match run.masterLink with
      | [] => none
      | update :: rest => some { run with
          masterLink := rest, owner := (run.owner.onComponentUpdate update).component }
  | .serve now =>
      match run.requests with
      | [] => none
      | message :: rest => some { run.enter (.handle message) now with requests := rest }
  | .atOwner call now => some (run.enter call now)
  | .connect =>
      if run.owner.sessions.contains run.subscriber.owner && !run.session.connected then
        run.session.adopt.map fun adopted =>
          { run with session := adopted.1, waiting := adopted.2 }
      else none
  | .flush =>
      match run.waiting with
      | [] => none
      | frame :: rest => some { run with
          waiting := rest, channel := run.channel.sendEach [frame] }
  | .drain => run.relay .drain
  | .deliver now => run.relay (.deliver now)
  | .atSubscriber call now => run.relay (.atSubscriber call now)

def Delivered (run : JoinRun F) : Prop :=
  run.masterLink = [] ∧ run.requests = [] ∧ run.session.pending = [] ∧ run.waiting = [] ∧
    run.inFlight = []

/-- Where the next frames for the subscriber go there is room for them, and
`connect` is not still passing on older ones. -/
def Room (run : JoinRun F) (count : Nat) : Prop :=
  if run.session.connected then
    run.waiting = [] ∧ run.channel.outbox.frames.length + count ≤ kMaxOutboxFrames
  else run.session.pending.length + count ≤ kMaxPendingFrames

end JoinRun

def Message.joins (subscriber : OwnerId) : Message → Prop
  | .subscription message => message.subscriber = subscriber ∧ message.registering
  | .pair _ => True
  | .removePair _ => True
  | _ => False

/-- What the owner does meanwhile: it publishes, handles the writes and the
subscriptions of others and tells others of its own subscriptions. -/
def Call.meanwhile {F : Type} (subscriber : OwnerId) : Call F → Prop
  | .sendSubscriptionsFor .. => True
  | call => call.writes ∨ call.besides subscriber

namespace JoinRun
variable {F : Type}

/-- Pairs can be framed, queues are not at their caps and nobody else writes to
the owner's pairs. -/
def Ordinary (run : JoinRun F) : JoinAction F → Prop
  | .request message => message.joins run.subscriber.owner
  | .serve _ => ∀ message ∈ run.requests.head?, message.fits ∧ run.owner.OwnPairsFit ∧
      run.Room (run.owner.burst (.handle message))
  | .atOwner call _ => call.meanwhile run.subscriber.owner ∧ call.announceable ∧
      run.Room (run.owner.burst call)
  | .flush => run.channel.outbox.frames.length < kMaxOutboxFrames
  | .atSubscriber call _ => ∀ write, call.received = some write →
      write.key.owner ≠ run.owner.owner
  | _ => True

def Known (key : PairKey) (run : JoinRun F) : JoinAction F → Prop
  | .serve _ => ∀ message ∈ run.requests.head?,
      run.owner.owes run.subscriber.owner key (.handle message) →
        run.owner.sessions.contains run.subscriber.owner
  | .atOwner call _ => run.owner.owes run.subscriber.owner key call →
      run.owner.sessions.contains run.subscriber.owner
  | _ => True

/-- The subscriber's copy catches up with what is due to it, once what the
session holds back is passed on too. -/
structure Joining (key : PairKey) (run : JoinRun F) : Prop where
  owned : key.owner = run.owner.owner
  universal : run.subscriber.owner ∈ run.owner.space.uSubscribers →
    run.subscriber.owner ∈ run.owner.space.subscribersOf key
  settled : run.session.connected = true → run.session.pending = []
  flushing : run.session.connected = false → run.waiting = []
  asked : run.subscriber.owner ∈ run.owner.space.subscribersOf key ∨
    .subscription (subscribing key run.subscriber.owner) ∈ run.requests
  requests : ∀ message ∈ run.requests, message.joins run.subscriber.owner
  follows : ReplicaRun.Follows key (run.waiting ++ run.session.pending)
    (run.owner.due run.subscriber.owner key) run.toReplicaRun

end JoinRun

/-! ### What a call means for one subscriber -/

namespace Component
variable {F : Type} (c : Component F)

/-- The frames that a call hands to `subscriber` take it from what was due before
the call to what is due after it. -/
structure Serves (subscriber : OwnerId) (key : PairKey) (entered : Entered F) : Prop where
  universal : (subscriber ∈ c.space.uSubscribers → subscriber ∈ c.space.subscribersOf key) →
    subscriber ∈ entered.component.space.uSubscribers →
      subscriber ∈ entered.component.space.subscribersOf key
  member : subscriber ∈ c.space.subscribersOf key →
    subscriber ∈ entered.component.space.subscribersOf key
  due : entered.component.due subscriber key =
    Store.replay (c.due subscriber)
      ((entered.component.framesFor subscriber entered.todo).filterMap Message.write) key

theorem replay_nothing_about {frames : List Message} {key : PairKey}
    (h : frames.filter (·.about key) = []) (store : Store PairKey Shown) :
    store.replay (frames.filterMap Message.write) key = store key := by
  rw [replay_about, h]
  rfl

theorem about_framesFor_nil {subscriber : OwnerId} {key : PairKey} {todo : List (Action F)}
    (h : (parcels todo).filter (Node.Concerns subscriber key) = []) :
    (c.framesFor subscriber todo).filter (·.about key) = [] := by
  rw [List.filter_eq_nil_iff] at h ⊢
  intro message hmessage habout
  obtain ⟨parcel, hparcel, rfl⟩ := List.mem_map.mp hmessage
  obtain ⟨hhands, hto⟩ := List.mem_filter.mp hparcel
  rw [decide_eq_true_iff] at hto
  rw [Message.about, decide_eq_true_iff] at habout
  apply h parcel ((c.hands_sublist todo).subset hhands)
  rw [Node.Concerns, decide_eq_true_iff]
  exact ⟨hto, habout⟩

theorem Serves.of_aside {subscriber : OwnerId} {key : PairKey} {entered : Entered F}
    (hmember : subscriber ∈ entered.component.space.subscribersOf key ↔
      subscriber ∈ c.space.subscribersOf key)
    (huniversal : subscriber ∈ entered.component.space.uSubscribers ↔
      subscriber ∈ c.space.uSubscribers)
    (hview : entered.component.space.view key = c.space.view key)
    (hframes : (entered.component.framesFor subscriber entered.todo).filter (·.about key) = []) :
    c.Serves subscriber key entered where
  universal := by
    intro h hafter
    exact hmember.mpr (h (huniversal.mp hafter))
  member := hmember.mpr
  due := by
    rw [replay_nothing_about hframes]
    simp only [Component.due, hmember, hview]

theorem serves_besides {call : Call F} {subscriber : OwnerId} (h : call.besides subscriber)
    (hreads : ¬ call.writes) (key : PairKey) (now : TimePoint) :
    c.Serves subscriber key (c.enter call now) := by
  have hidle := c.besides_enter h hreads key now
  apply Serves.of_aside c hidle.member hidle.universal
  · rw [hidle.view]
  · rw [hidle.frames]
    rfl

theorem serves_sendSubscriptionsFor (owner : OwnerId) (session : Nat) (subscriber : OwnerId)
    (key : PairKey) : c.Serves subscriber key (c.sendSubscriptionsFor owner session) := by
  apply Serves.of_aside c Iff.rfl Iff.rfl rfl
  apply about_framesFor_nil
  rw [List.filter_eq_nil_iff]
  intro parcel hparcel
  obtain ⟨action, haction, hsome⟩ := List.mem_filterMap.mp hparcel
  obtain ⟨message, _, rfl⟩ := List.mem_map.mp haction
  cases Option.some.inj hsome
  simp [Node.Concerns, Message.target]

theorem serves_writes {call : Call F} (hwrites : call.writes) {subscriber : OwnerId}
    {key : PairKey} {now : TimePoint} (hannounceable : call.announceable)
    (huniversal : subscriber ∈ c.space.uSubscribers → subscriber ∈ c.space.subscribersOf key)
    (hknown : c.owes subscriber key call → c.sessions.contains subscriber) :
    c.Serves subscriber key (c.enter call now) := by
  have hview := c.view_enter_writes hwrites now
  have hsame := c.uSubscribers_enter_writes hwrites now
  by_cases hmember : subscriber ∈ c.space.subscribersOf key
  · have hafter := c.mem_subscribersOf_enter_writes hwrites now hmember
    have hbefore : c.due subscriber key = c.space.view key := if_pos hmember
    refine ⟨fun _ _ => hafter, fun _ => hafter, ?_⟩
    rw [Component.due, if_pos hafter]
    rcases c.enter_writes hwrites now with hnothing | ⟨message, hwrote⟩
    · rw [hnothing]
      exact hbefore.symm
    rw [hview, ← hwrote.write]
    by_cases htarget : message.target = some key
    · have howes : c.owes subscriber key call := by
        have hkey : (c.ownWrite call).map (·.key) = some key := by
          rw [← hwrote.write, ← message.target_eq, htarget]
        cases call with
        | handle received =>
          cases received with
          | subscription message => contradiction
          | _ => exact ⟨hkey, hmember⟩
        | _ => exact ⟨hkey, hmember⟩
      obtain ⟨space, hspace⟩ := c.enter_writes_frame hwrites now
      have hsession : (c.enter call now).component.sessions.contains subscriber := by
        rw [hspace]
        exact hknown howes
      rw [replay_about, about_framesFor _ hsession, hwrote.parcels,
        Node.announced_concerns c (hwrote.fits hwrites hannounceable) htarget hmember,
        List.map_singleton, replay_filterMap_cons]
      exact Store.replay_congr hbefore.symm _
    · rw [message.replay_elsewhere htarget, replay_nothing_about, hbefore]
      apply about_framesFor_nil
      rw [hwrote.parcels]
      exact Node.announced_elsewhere c subscriber htarget
  · have hnone : subscriber ∉ c.space.uSubscribers := fun h => hmember (huniversal h)
    have hafter := c.not_mem_subscribersOf_enter_writes hwrites now hmember hnone
    refine ⟨?_, fun h => absurd h hmember, ?_⟩
    · intro _ h
      rw [hsame] at h
      exact absurd h hnone
    · rw [replay_nothing_about]
      · simp only [Component.due, hafter, hmember, if_false]
      · apply about_framesFor_nil
        rcases c.enter_writes hwrites now with hnothing | ⟨message, hwrote⟩
        · rw [hnothing]
          rfl
        · rw [hwrote.parcels]
          exact Node.announced_not_member c hmember message

theorem replay_all_same {writes : List (Write PairKey Shown)} {key : PairKey}
    {value : Option Shown} (hsame : ∀ write ∈ writes, write.key = key → write.value = value)
    (hsome : ∃ write ∈ writes, write.key = key) (store : Store PairKey Shown) :
    store.replay writes key = value := by
  obtain ⟨first, hfirst, hkey⟩ := hsome
  have hmem : first ∈ writesAt key writes := by
    rw [writesAt, List.mem_filter, decide_eq_true_iff]
    exact ⟨hfirst, hkey⟩
  rw [Store.replay_at]
  cases hlast : (writesAt key writes).getLast? with
  | none =>
    rw [List.getLast?_eq_none_iff.mp hlast] at hmem
    contradiction
  | some last =>
    obtain ⟨hwrite, hlastKey⟩ := List.mem_filter.mp (List.mem_of_getLast? hlast)
    exact hsame last hwrite (of_decide_eq_true hlastKey)

/-- A registration covering `key` by a subscriber that can be reached, if there
is a value to send. -/
theorem serves_collected {message : Subscription} {key : PairKey} {entered : Entered F}
    (h : c.Collected message key entered)
    (hknown : (c.getPair key).isSome → c.sessions.contains message.subscriber) :
    c.Serves message.subscriber key entered where
  universal := fun _ _ => h.member
  member := fun _ => h.member
  due := by
    obtain ⟨pairs, hparcels, hsound, hcomplete⟩ := h.parcels
    have hheld : entered.component.space.view key =
        (c.space.held key).map fun pair => (pair.value, pair.type) := by
      rw [PairSpace.view_eq_held, h.held]
    rw [Component.due, if_pos h.member]
    cases hpair : c.space.held key with
    | none =>
      have hview : c.space.view key = none := by
        rw [PairSpace.view_eq_held, hpair]
        rfl
      rw [hheld, hpair, replay_nothing_about]
      · rw [Component.due, hview, ite_self]
        rfl
      · apply about_framesFor_nil
        rw [hparcels, List.filter_eq_nil_iff]
        intro parcel hparcel hconcerns
        obtain ⟨pair, hmem, rfl⟩ := List.mem_map.mp hparcel
        rw [Node.Concerns, decide_eq_true_iff] at hconcerns
        have hsome := hsound pair hmem
        rw [Option.some.inj hconcerns.2, hpair] at hsome
        contradiction
    | some pair =>
      have hsession : entered.component.sessions.contains message.subscriber := by
        rw [h.sessions]
        apply hknown
        change (c.space.held key).isSome
        rw [hpair]
        rfl
      have hkey := PairSpace.held_pairKey hpair
      have hshown : pair.write.value = some (pair.value, pair.type) := by
        rw [Pair.write_value, Pair.shown, if_neg (PairSpace.held_eq_some.mp hpair).1]
      rw [hheld, hpair, replay_about, about_framesFor _ hsession, hparcels]
      refine (replay_all_same ?_ ?_ _).symm
      · intro write hwrite hwriteKey
        obtain ⟨frame, hframe, hsome⟩ := List.mem_filterMap.mp hwrite
        obtain ⟨parcel, hparcel, rfl⟩ := List.mem_map.mp hframe
        obtain ⟨hmem, _⟩ := List.mem_filter.mp hparcel
        obtain ⟨other, hother, rfl⟩ := List.mem_map.mp hmem
        cases Option.some.inj hsome
        have hotherKey : other.pairKey = key := (Pair.write_key other).symm.trans hwriteKey
        have hsame := hsound other hother
        rw [hotherKey, hpair] at hsame
        rw [← Option.some.inj hsame]
        exact hshown
      · refine ⟨pair.write, ?_, (Pair.write_key pair).trans hkey⟩
        apply List.mem_filterMap.mpr
        refine ⟨.pairUpdate pair, List.mem_map.mpr ⟨(message.subscriber, .pairUpdate pair), ?_, rfl⟩,
          rfl⟩
        apply List.mem_filter.mpr
        refine ⟨List.mem_map.mpr ⟨pair, hcomplete pair hpair, rfl⟩, ?_⟩
        simp [Node.Concerns, Message.target, hkey]

theorem serves_elsewhere {message : Subscription} {key : PairKey}
    (hcovers : ¬ message.covers key) (hregistering : message.registering) (now : TimePoint) :
    c.Serves message.subscriber key (c.handleSubscription message now) := by
  obtain ⟨hexact, hother⟩ := not_or.mp hcovers
  unfold handleSubscription
  split
  · exact Serves.of_aside c Iff.rfl Iff.rfl rfl rfl
  split
  · exact Serves.of_aside c Iff.rfl Iff.rfl rfl rfl
  have hne : (⟨message.ownerId, message.key⟩ : PairKey) ≠ key := by
    rintro rfl
    exact hother ⟨rfl, rfl⟩
  apply Serves.of_aside
  · simp only [PairSpace.subscribersOf_addSubscription, if_neg hne]
  · simp only [PairSpace.uSubscribers_addSubscription]
  · rw [PairSpace.view_addSubscription]
  · apply about_framesFor_nil
    rw [List.filter_eq_nil_iff]
    intro parcel hparcel hconcerns
    obtain ⟨action, haction, hsome⟩ := List.mem_filterMap.mp hparcel
    obtain ⟨pair, hpair, rfl⟩ := List.mem_map.mp haction
    cases Option.some.inj hsome
    rw [Node.Concerns, decide_eq_true_iff] at hconcerns
    have hheld := mem_currentPair.mp ((List.takeWhile_sublist _).subset hpair)
    exact hne ((PairSpace.held_pairKey hheld).symm.trans (Option.some.inj hconcerns.2))

/-! ### How many frames there are -/

theorem length_framesFor (subscriber : OwnerId) (todo : List (Action F)) :
    (c.framesFor subscriber todo).length ≤ (parcels todo).length := by
  rw [framesFor, List.length_map]
  exact (List.length_filter_le _ _).trans (c.hands_sublist todo).length_le

theorem length_sendEach (pairs : List Pair) (subscriber : OwnerId) :
    (parcels (F := F) (sendEach pairs subscriber)).length ≤ pairs.length := by
  refine (List.length_filterMap_le _ _).trans ?_
  rw [sendEach, List.length_map]
  exact (List.takeWhile_sublist _).length_le

theorem ownPairs_addSubscriptionToAll (space : PairSpace F) (subscriber : OwnerId) :
    c.ownPairs (space.addSubscriptionToAll subscriber) = c.ownPairs space := by
  unfold PairSpace.addSubscriptionToAll
  split
  · rfl
  · unfold ownPairs
    congr 1
    change ((space.pairs.map _).toList).map _ = _
    rw [ExtTreeMap.toList_map, List.map_map]
    rfl

theorem length_handleSubscription (message : Subscription) (now : TimePoint) :
    (parcels (c.handleSubscription message now).todo).length ≤
      c.burst (.handle (.subscription message)) := by
  unfold handleSubscription
  split
  · exact Nat.zero_le _
  split
  · exact Nat.zero_le _
  split
  · simp only [burst]
    split
    · rw [ownPairs_addSubscriptionToAll]
      exact length_sendEach _ _
    · refine (length_sendEach _ _).trans ?_
      refine (List.length_filter_le _ _).trans ?_
      cases PairSpace.copyOf _ _ <;> simp
  split
  · exact Nat.zero_le _
  · exact Nat.zero_le _

theorem length_sendSubscriptionsFor (owner : OwnerId) (session : Nat) :
    (parcels (c.sendSubscriptionsFor owner session).todo).length ≤
      c.burst (.sendSubscriptionsFor owner session : Call F) := by
  refine (List.length_filterMap_le _ _).trans ?_
  simp only [sendSubscriptionsFor, List.length_map, burst]
  refine (List.takeWhile_sublist _).length_le.trans ?_
  rw [List.length_map]

theorem length_enter_writes {call : Call F} (h : call.writes) (now : TimePoint)
    (subscriber : OwnerId) :
    ((c.enter call now).component.framesFor subscriber (c.enter call now).todo).length ≤
      c.burst call := by
  have hburst : c.burst call = 1 := by
    cases call with
    | handle message =>
      cases message with
      | subscription message => contradiction
      | _ => rfl
    | sendSubscriptionsFor owner session => contradiction
    | _ => rfl
  rw [hburst]
  rcases c.enter_writes h now with hnothing | ⟨message, hwrote⟩
  · rw [hnothing]
    exact Nat.zero_le _
  · exact ((c.enter call now).component.framesFor_announced hwrote.parcels subscriber).length_le

end Component

namespace ClientSession
variable {β : Type}

theorem sendEach_connected {session : ClientSession β} (h : session.connected = true)
    (frames : List β) : session.sendEach frames = (session, frames) := by
  induction frames with
  | nil => rfl
  | cons frame rest ih => simp [sendEach, sendLocked, h, ih]

theorem sendEach_pending {session : ClientSession β} {frames : List β}
    (h : session.connected = false)
    (room : session.pending.length + frames.length ≤ kMaxPendingFrames) :
    session.sendEach frames = ({ session with pending := session.pending ++ frames }, []) := by
  induction frames generalizing session with
  | nil => simp [sendEach]
  | cons frame rest ih =>
    rw [List.length_cons] at room
    have hfirst : session.sendLocked frame =
        ({ session with pending := session.pending ++ [frame] }, []) := by
      have hbelow : ¬ kMaxPendingFrames ≤ session.pending.length := by omega
      simp only [sendLocked, h, Bool.false_eq_true, if_false, ge_iff_le, hbelow]
    have hrest := @ih { session with pending := session.pending ++ [frame] } h (by
      rw [List.length_append, List.length_singleton]
      omega)
    rw [sendEach, hfirst, hrest]
    simp

theorem connected_sendEach (session : ClientSession β) (frames : List β) :
    (session.sendEach frames).1.connected = session.connected := by
  induction frames generalizing session with
  | nil => rfl
  | cons frame rest ih =>
    rw [sendEach, ih, sendLocked]
    split <;> rfl

end ClientSession

namespace JoinRun
variable {F : Type} {run after : JoinRun F} {key : PairKey}

theorem Room.mono {few many : Nat} (h : run.Room many) (hle : few ≤ many) : run.Room few := by
  unfold Room at h ⊢
  split
  · rename_i hconnected
    rw [if_pos hconnected] at h
    refine ⟨h.1, ?_⟩
    omega
  · rename_i hconnected
    rw [if_neg hconnected] at h
    omega

theorem Joining.follows_enter (h : Joining key run) {call : Call F} {now : TimePoint}
    (hserves : run.owner.Serves run.subscriber.owner key (run.owner.enter call now))
    (room : run.Room ((run.owner.enter call now).component.framesFor run.subscriber.owner
      (run.owner.enter call now).todo).length) :
    ReplicaRun.Follows key ((run.enter call now).waiting ++ (run.enter call now).session.pending)
      ((run.enter call now).owner.due run.subscriber.owner key)
      (run.enter call now).toReplicaRun := by
  let frames := (run.owner.enter call now).component.framesFor run.subscriber.owner
    (run.owner.enter call now).todo
  have hbehind : ReplicaRun.Follows key (run.waiting ++ run.session.pending ++ frames)
      ((run.enter call now).owner.due run.subscriber.owner key) run.toReplicaRun := by
    change ReplicaRun.Follows key _ ((run.owner.enter call now).component.due _ key) _
    rw [hserves.due]
    exact ReplicaRun.Follows.append h.follows frames
  unfold Room at room
  cases hconnected : run.session.connected with
  | true =>
    rw [if_pos hconnected] at room
    have hsent : run.session.sendEach frames = (run.session, frames) :=
      ClientSession.sendEach_connected hconnected frames
    rw [room.1, h.settled hconnected, List.append_nil, List.nil_append,
      ← List.append_nil frames] at hbehind
    have hqueued := hbehind.queue room.2
    have hlater : (run.enter call now).waiting ++ (run.enter call now).session.pending = [] := by
      change run.waiting ++ (run.session.sendEach frames).1.pending = []
      rw [hsent, room.1, h.settled hconnected]
      rfl
    have hchannel : (run.enter call now).channel = run.channel.sendEach frames := by
      change run.channel.sendEach (run.session.sendEach frames).2 = _
      rw [hsent]
    rw [hlater]
    refine ⟨?_, hqueued.foreign, ?_⟩
    · rw [hchannel]
      exact hqueued.connected
    · have hflight : (run.enter call now).inFlight =
          ReplicaRun.inFlight { run.toReplicaRun with channel := run.channel.sendEach frames } := by
        simp only [ReplicaRun.inFlight, hchannel]
        rfl
      rw [hflight]
      exact hqueued.replay
  | false =>
    rw [if_neg (by simp [hconnected])] at room
    have hsent := ClientSession.sendEach_pending hconnected room
    have hlater : (run.enter call now).waiting ++ (run.enter call now).session.pending =
        run.waiting ++ run.session.pending ++ frames := by
      change run.waiting ++ (run.session.sendEach frames).1.pending = _
      rw [hsent, List.append_assoc]
    have hchannel : (run.enter call now).channel = run.channel := by
      change run.channel.sendEach (run.session.sendEach frames).2 = _
      rw [hsent]
      rfl
    rw [hlater]
    refine ⟨?_, hbehind.foreign, ?_⟩
    · rw [hchannel]
      exact hbehind.connected
    · have hflight : (run.enter call now).inFlight = run.inFlight := by
        simp only [ReplicaRun.inFlight, hchannel]
        rfl
      rw [hflight]
      exact hbehind.replay

theorem Joining.enter (h : Joining key run) {call : Call F} {now : TimePoint}
    (hserves : run.owner.Serves run.subscriber.owner key (run.owner.enter call now))
    (room : run.Room ((run.owner.enter call now).component.framesFor run.subscriber.owner
      (run.owner.enter call now).todo).length) {requests : List Message}
    (hasked : .subscription (subscribing key run.subscriber.owner) ∈ run.requests →
      run.subscriber.owner ∈ (run.owner.enter call now).component.space.subscribersOf key ∨
        .subscription (subscribing key run.subscriber.owner) ∈ requests)
    (hrequests : ∀ message ∈ requests, message.joins run.subscriber.owner) :
    Joining key { run.enter call now with requests } := by
  have hfollows := h.follows_enter hserves room
  have hconnected : (run.enter call now).session.connected = run.session.connected :=
    run.session.connected_sendEach _
  refine ⟨?_, ?_, ?_, ?_, ?_, hrequests, ?_⟩
  · exact h.owned.trans (run.owner.enter_owner call now).symm
  · exact hserves.universal h.universal
  · intro hnow
    have hbefore : run.session.connected = true := hconnected.symm.trans hnow
    change (run.session.sendEach _).1.pending = []
    rw [ClientSession.sendEach_connected hbefore]
    exact h.settled hbefore
  · intro hnow
    exact h.flushing (hconnected.symm.trans hnow)
  · rcases h.asked with hmember | hrequest
    · exact Or.inl (hserves.member hmember)
    · exact hasked hrequest
  · exact ⟨hfollows.connected, hfollows.foreign, hfollows.replay⟩

theorem Joining.atOwner (h : Joining key run) {call : Call F} {now : TimePoint}
    (hguard : Ordinary run (.atOwner call now)) (hknown : Known key run (.atOwner call now)) :
    Joining key (run.enter call now) := by
  obtain ⟨hmeanwhile, hannounceable, room⟩ := hguard
  have hbound : run.owner.Serves run.subscriber.owner key (run.owner.enter call now) ∧
      ((run.owner.enter call now).component.framesFor run.subscriber.owner
        (run.owner.enter call now).todo).length ≤ run.owner.burst call := by
    by_cases hwrites : call.writes
    · exact ⟨run.owner.serves_writes hwrites hannounceable h.universal hknown,
        run.owner.length_enter_writes hwrites now _⟩
    · cases call with
      | sendSubscriptionsFor owner session =>
        refine ⟨run.owner.serves_sendSubscriptionsFor owner session _ key, ?_⟩
        exact (Component.length_framesFor _ _ _).trans
          (run.owner.length_sendSubscriptionsFor owner session)
      | _ =>
        have hbesides := hmeanwhile.resolve_left hwrites
        refine ⟨run.owner.serves_besides hbesides hwrites key now, ?_⟩
        rw [(run.owner.besides_enter hbesides hwrites key now).frames]
        exact Nat.zero_le _
  exact h.enter hbound.1 (room.mono hbound.2) Or.inr h.requests

theorem Joining.serve (h : Joining key run) {message : Message} {rest : List Message}
    {now : TimePoint} (hhead : run.requests = message :: rest)
    (hguard : Ordinary run (.serve now)) (hknown : Known key run (.serve now)) :
    Joining key { run.enter (.handle message) now with requests := rest } := by
  have hhead? : message ∈ run.requests.head? := by
    rw [hhead]
    rfl
  obtain ⟨hfits, hfit, room⟩ := hguard message hhead?
  have hknown := hknown message hhead?
  have hjoins : message.joins run.subscriber.owner := by
    apply h.requests
    rw [hhead]
    exact List.mem_cons_self
  have hrest : ∀ later ∈ rest, later.joins run.subscriber.owner := by
    intro later hlater
    apply h.requests
    rw [hhead]
    exact List.mem_cons_of_mem _ hlater
  have hwriter : ∀ call : Call F, call = .handle message → call.writes →
      Joining key { run.enter (.handle message) now with requests := rest } := by
    rintro call rfl hwrites
    refine h.enter (run.owner.serves_writes hwrites hfits h.universal hknown)
      (room.mono (run.owner.length_enter_writes hwrites now _)) ?_ hrest
    intro hrequest
    right
    rw [hhead] at hrequest
    rcases List.mem_cons.mp hrequest with rfl | hlater
    · contradiction
    · exact hlater
  cases message with
  | pair pair => exact hwriter _ rfl rfl
  | removePair request => exact hwriter _ rfl rfl
  | subscription message =>
    obtain ⟨hsubscriber, hregistering⟩ := hjoins
    have hother : message.subscriber ≠ run.owner.owner := by
      rw [hsubscriber, ← h.owned]
      exact h.follows.foreign
    have hbound : ((run.owner.enter (.handle (.subscription message)) now).component.framesFor
        run.subscriber.owner (run.owner.enter (.handle (.subscription message)) now).todo).length ≤
          run.owner.burst (.handle (.subscription message)) :=
      (Component.length_framesFor _ _ _).trans (run.owner.length_handleSubscription message now)
    have hserved : run.owner.Serves run.subscriber.owner key
        (run.owner.enter (.handle (.subscription message)) now) ∧ (message.covers key →
          run.subscriber.owner ∈ (run.owner.enter (.handle (.subscription message))
            now).component.space.subscribersOf key) := by
      rw [← hsubscriber]
      by_cases hcovers : message.covers key
      · have hcollected := run.owner.handleSubscription_collected hcovers h.owned hother
          hregistering (hsubscriber ▸ h.universal) hfit now
        refine ⟨run.owner.serves_collected hcollected ?_, fun _ => hcollected.member⟩
        intro hsome
        rw [hsubscriber]
        exact hknown ⟨hsubscriber, hcovers, hsome⟩
      · exact ⟨run.owner.serves_elsewhere hcovers hregistering now, fun h => absurd h hcovers⟩
    refine h.enter hserved.1 (room.mono hbound) ?_ hrest
    intro hrequest
    rw [hhead] at hrequest
    rcases List.mem_cons.mp hrequest with hsame | hlater
    · cases hsame
      exact Or.inl (hserved.2 (Or.inr ⟨rfl, rfl⟩))
    · exact Or.inr hlater
  | pairUpdate pair => contradiction
  | pairRemoved request => contradiction

theorem Joining.relay (h : Joining key run) {replica : ReplicaRun F}
    (howner : replica.owner = run.owner)
    (hsubscriber : replica.subscriber.owner = run.subscriber.owner)
    (hfollows : ReplicaRun.Follows key (run.waiting ++ run.session.pending)
      (run.owner.due run.subscriber.owner key) replica) :
    Joining key { run with toReplicaRun := replica } := by
  refine ⟨?_, ?_, h.settled, h.flushing, ?_, ?_, ?_⟩
  · rw [howner]
    exact h.owned
  · rw [howner, hsubscriber]
    exact h.universal
  · rw [howner, hsubscriber]
    exact h.asked
  · rw [hsubscriber]
    exact h.requests
  · rw [howner, hsubscriber]
    exact hfollows

theorem Joining.relay_step (h : Joining key run) {action : ReplicaAction F}
    (hguard : ∀ call now, action = .atSubscriber call now →
      ∀ write, call.received = some write → write.key.owner ≠ run.owner.owner)
    (haway : ∀ call now, action ≠ .atOwner call now)
    (hstep : run.relay action = some after) : Joining key after := by
  obtain ⟨replica, hreplica, rfl⟩ := Option.map_eq_some_iff.mp hstep
  cases action with
  | atOwner call now => exact absurd rfl (haway call now)
  | drain =>
    obtain ⟨hfollows, howner, hsubscriber⟩ := h.follows.drain hreplica
    exact h.relay howner (congrArg Component.owner hsubscriber) hfollows
  | deliver now =>
    simp only [ReplicaRun.step] at hreplica
    split at hreplica
    · contradiction
    · rename_i message rest hwire
      cases Option.some.inj hreplica
      exact h.relay rfl (run.subscriber.enter_owner _ _) (h.follows.deliver hwire)
  | atSubscriber call now =>
    cases Option.some.inj hreplica
    refine h.relay rfl (run.subscriber.enter_owner _ _) (h.follows.atSubscriber ?_ now)
    rw [h.owned]
    exact hguard call now rfl

theorem Joining.hear (h : Joining key run) (update : UpdateComponents)
    {masterLink : List UpdateComponents} :
    Joining key { run with
      masterLink, owner := (run.owner.onComponentUpdate update).component } := by
  have hspace : (run.owner.onComponentUpdate update).component.space = run.owner.space := by
    unfold Component.onComponentUpdate
    split <;> rfl
  have howner : (run.owner.onComponentUpdate update).component.owner = run.owner.owner := by
    unfold Component.onComponentUpdate
    split <;> rfl
  refine ⟨?_, ?_, h.settled, h.flushing, ?_, h.requests, ?_⟩
  · rw [howner]
    exact h.owned
  · rw [hspace]
    exact h.universal
  · rw [hspace]
    exact h.asked
  · refine ⟨h.follows.connected, h.follows.foreign, ?_⟩
    simp only [Component.due, hspace]
    exact h.follows.replay

theorem Joining.connect (h : Joining key run) (hstep : run.step .connect = some after) :
    Joining key after := by
  simp only [JoinRun.step] at hstep
  split at hstep
  · rename_i hready
    rw [Bool.and_eq_true, Bool.not_eq_true'] at hready
    obtain ⟨adopted, hadopted, rfl⟩ := Option.map_eq_some_iff.mp hstep
    unfold ClientSession.adopt at hadopted
    split at hadopted
    · contradiction
    · cases Option.some.inj hadopted
      refine ⟨h.owned, h.universal, fun _ => rfl, ?_, h.asked, h.requests, ?_⟩
      · intro hnot
        contradiction
      · have hfollows := h.follows
        rw [h.flushing hready.2, List.nil_append] at hfollows
        rw [List.append_nil]
        exact hfollows
  · contradiction

theorem Joining.flush (h : Joining key run) {frame : Message} {rest : List Message}
    (hwaiting : run.waiting = frame :: rest)
    (room : run.channel.outbox.frames.length < kMaxOutboxFrames) :
    Joining key { run with waiting := rest, channel := run.channel.sendEach [frame] } := by
  have hfollows := h.follows
  rw [hwaiting] at hfollows
  change ReplicaRun.Follows key ([frame] ++ (rest ++ run.session.pending)) _ _ at hfollows
  refine ⟨h.owned, h.universal, h.settled, ?_, h.asked, h.requests, hfollows.queue room⟩
  intro hconnected
  have hempty := h.flushing hconnected
  rw [hwaiting] at hempty
  contradiction

theorem Joining.step {action : JoinAction F} (h : Joining key run)
    (hguard : Ordinary run action) (hknown : Known key run action)
    (hstep : run.step action = some after) : Joining key after := by
  cases action with
  | announce update =>
    simp only [JoinRun.step] at hstep
    split at hstep
    · contradiction
    · cases Option.some.inj hstep
      exact ⟨h.owned, h.universal, h.settled, h.flushing, h.asked, h.requests, h.follows⟩
  | request message =>
    cases Option.some.inj hstep
    refine ⟨h.owned, h.universal, h.settled, h.flushing, ?_, ?_, h.follows⟩
    · exact h.asked.imp_right (List.mem_append_left _)
    · intro later hlater
      rcases List.mem_append.mp hlater with hlater | hlater
      · exact h.requests later hlater
      · rw [List.mem_singleton.mp hlater]
        exact hguard
  | hear =>
    simp only [JoinRun.step] at hstep
    split at hstep
    · contradiction
    · cases Option.some.inj hstep
      exact h.hear _
  | serve now =>
    simp only [JoinRun.step] at hstep
    split at hstep
    · contradiction
    · rename_i message rest hhead
      cases Option.some.inj hstep
      exact h.serve hhead hguard hknown
  | atOwner call now =>
    cases Option.some.inj hstep
    exact h.atOwner hguard hknown
  | connect => exact h.connect hstep
  | flush =>
    simp only [JoinRun.step] at hstep
    split at hstep
    · contradiction
    · rename_i frame rest hwaiting
      cases Option.some.inj hstep
      exact h.flush hwaiting hguard
  | drain => exact h.relay_step (by intros; contradiction) (by intros; simp) hstep
  | deliver now => exact h.relay_step (by intros; contradiction) (by intros; simp) hstep
  | atSubscriber call now =>
    refine h.relay_step ?_ (by intros; simp) hstep
    rintro _ _ heq
    cases heq
    exact hguard

/-- The session is known when it is needed, and nothing else gets in the way. -/
def Met (key : PairKey) (run : JoinRun F) (action : JoinAction F) : Prop :=
  Ordinary run action ∧ Known key run action

theorem joined_agrees {owner subscriber : Component F} (howned : key.owner = owner.owner)
    (hdistinct : subscriber.owner ≠ owner.owner)
    (hmember : subscriber.owner ∉ owner.space.subscribersOf key)
    (huniversal : subscriber.owner ∉ owner.space.uSubscribers)
    (hempty : subscriber.getPair key = none) {ip port : Bytes}
    (hreach : Reach JoinRun.step (Met key) (start owner subscriber ip port key) run)
    (hdelivered : run.Delivered) :
    (run.subscriber.getPair key).map (fun pair => (pair.value, pair.type)) =
      (run.owner.getPair key).map fun pair => (pair.value, pair.type) := by
  have hjoining : Joining key run := by
    refine hreach.invariant ?_ fun _ _ _ h hguard hstep => h.step hguard.1 hguard.2 hstep
    have hview : subscriber.space.view key = none := by
      rw [PairSpace.view_eq_held]
      exact congrArg (Option.map fun pair : Pair => (pair.value, pair.type)) hempty
    refine ⟨howned, fun h => absurd h huniversal, fun _ => rfl, fun _ => rfl,
      Or.inr List.mem_cons_self, ?_, rfl, ?_, ?_⟩
    · intro message hmessage
      rw [List.mem_singleton.mp hmessage]
      exact ⟨rfl, rfl⟩
    · rw [howned]
      exact hdistinct
    · change subscriber.space.view key = owner.due subscriber.owner key
      rw [Component.due, if_neg hmember]
      exact hview
  obtain ⟨_, hrequests, hpending, hwaiting, hflight⟩ := hdelivered
  have hmember : run.subscriber.owner ∈ run.owner.space.subscribersOf key := by
    apply hjoining.asked.resolve_right
    rw [hrequests]
    exact List.not_mem_nil
  have hreplay := hjoining.follows.replay
  rw [hflight, hwaiting, hpending, Component.due, if_pos hmember] at hreplay
  change run.subscriber.space.view key = _ at hreplay
  rw [PairSpace.view_eq_held, PairSpace.view_eq_held] at hreplay
  exact hreplay

/-! Component 1000 holds a value for its key `"k"`; component 2000 joins. -/

def holder : Component Unit := ((Component.initial 1000).enter (.setPair [107] [1] .string) 5).component

def newcomer : JoinRun Unit := start holder (.initial 2000) [] [] ⟨1000, [107]⟩

def announced : JoinRun Unit :=
  { newcomer with
    masterLink := []
    owner := (holder.onComponentUpdate ⟨.add, ⟨2000, [], []⟩⟩).component }

theorem holder_fit : holder.OwnPairsFit := by
  apply Component.ownPairsFit_of_all
  intro pair hpair
  have hpairs : holder.ownPairs holder.space = [⟨1000, [107], [1], .string, 5, 0⟩] := by decide
  rw [hpairs, List.mem_singleton] at hpair
  rw [hpair, pairUpdate_fits_iff]
  decide

theorem newcomer_serve (run : JoinRun Unit) (hrequests : run.requests = newcomer.requests)
    (hsession : run.session = .initial) (hfit : run.owner.OwnPairsFit) :
    Ordinary run (.serve 6) := by
  intro message hmessage
  rw [hrequests] at hmessage
  cases Option.some.inj hmessage
  refine ⟨?_, hfit, ?_⟩
  · decide
  · rw [Room, hsession]
    change 0 + 1 ≤ kMaxPendingFrames
    decide

/-- The announcement first: the value waits in the session until it connects. -/
theorem joined_agrees_announced : ∃ run : JoinRun Unit,
    Reach JoinRun.step (Met ⟨1000, [107]⟩) newcomer run ∧ run.Delivered ∧
      (run.subscriber.getPair ⟨1000, [107]⟩).isSome ∧
      (run.subscriber.getPair ⟨1000, [107]⟩).map (fun pair => (pair.value, pair.type)) =
        (run.owner.getPair ⟨1000, [107]⟩).map fun pair => (pair.value, pair.type) := by
  have hheard : Reach JoinRun.step (Met ⟨1000, [107]⟩) newcomer announced :=
    .tail (a := .hear) .refl ⟨trivial, trivial⟩ rfl
  have hserve : Met ⟨1000, [107]⟩ announced (.serve 6) := by
    refine ⟨newcomer_serve _ rfl rfl holder_fit, ?_⟩
    intro _ _ _
    decide
  have hrun : ∃ run : JoinRun Unit, Reach JoinRun.step (Met ⟨1000, [107]⟩) newcomer run ∧
      run.Delivered ∧ (run.subscriber.getPair ⟨1000, [107]⟩).isSome := by
    refine ⟨_, .tail (a := .deliver 7) (.tail (a := .drain) (.tail (a := .flush)
      (.tail (a := .connect) (.tail hheard hserve rfl) ⟨trivial, trivial⟩ rfl)
        ⟨?_, trivial⟩ rfl) ⟨trivial, trivial⟩ rfl) ⟨trivial, trivial⟩ rfl, ?_, ?_⟩
    · change (0 : Nat) < kMaxOutboxFrames
      decide
    · exact ⟨rfl, rfl, rfl, rfl, rfl⟩
    · decide
  obtain ⟨run, hreach, hdelivered, hsome⟩ := hrun
  exact ⟨run, hreach, hdelivered, hsome, joined_agrees rfl (by decide) (by decide) (by decide)
    (by decide) hreach hdelivered⟩

/-- The subscription first: it is registered, and the value is not sent. -/
theorem subscription_handled_unannounced : ∃ run : JoinRun Unit,
    Reach JoinRun.step Ordinary newcomer run ∧ run.Delivered ∧
      2000 ∈ run.owner.space.subscribersOf ⟨1000, [107]⟩ ∧
      run.owner.sessions.contains 2000 ∧
      (run.owner.getPair ⟨1000, [107]⟩).isSome ∧
      run.subscriber.getPair ⟨1000, [107]⟩ = none := by
  have hserve : Ordinary newcomer (.serve 6) := newcomer_serve _ rfl rfl holder_fit
  refine ⟨_, .tail (a := .hear) (.tail .refl hserve rfl) trivial rfl, ?_, ?_, ?_, ?_, ?_⟩
  · exact ⟨rfl, rfl, rfl, rfl, rfl⟩
  · decide
  · decide
  · decide
  · decide

end JoinRun

end Srnp
