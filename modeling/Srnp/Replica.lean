import Srnp.PublishOrder
import Srnp.FrameChannel

/-! A pair at its owner and its copy at one subscriber, joined by the outbox of
the subscriber's channel and by the wire. `setPair` and `removePair` hold the
lock of the pair space until their frames are queued, so each is one step here.
The frames in flight are what the copy still lacks. -/
namespace Srnp
open Std LastWrite Transition

def Component.framesFor {F : Type} (c : Component F) (subscriber : OwnerId)
    (todo : List (Action F)) : List Message :=
  ((todo.flatMap c.hands).filter fun parcel => parcel.1 = subscriber).map (·.2)

def FrameChannel.sendEach (channel : FrameChannel PairKey Message) (messages : List Message) :
    FrameChannel PairKey Message :=
  messages.foldl (fun channel message => (channel.sendLocked message message.coalesceKey).1) channel

structure ReplicaRun (F : Type) where
  owner : Component F
  channel : FrameChannel PairKey Message
  wire : List Message
  subscriber : Component F

inductive ReplicaAction (F : Type) where
  | atOwner (call : Call F) (now : TimePoint)
  | drain
  | deliver (now : TimePoint)
  | atSubscriber (call : Call F) (now : TimePoint)

namespace ReplicaRun
variable {F : Type}

def start (owner subscriber : Component F) : ReplicaRun F := ⟨owner, .initial, [], subscriber⟩

def step (run : ReplicaRun F) : ReplicaAction F → Option (ReplicaRun F)
  | .atOwner call now =>
      let entered := run.owner.enter call now
      some { run with
        owner := entered.component
        channel := run.channel.sendEach
          (entered.component.framesFor run.subscriber.owner entered.todo) }
  | .drain =>
      match run.channel.drainLocked with
      | (channel, some message) => some { run with channel, wire := run.wire ++ [message] }
      | (channel, none) => some { run with channel }
  | .deliver now =>
      match run.wire with
      | [] => none
      | message :: rest => some { run with
          wire := rest, subscriber := (run.subscriber.enter (.handle message) now).component }
  | .atSubscriber call now =>
      some { run with subscriber := (run.subscriber.enter call now).component }

def inFlight (run : ReplicaRun F) : List Message :=
  run.wire ++ run.channel.outbox.frames.map (·.bytes)

end ReplicaRun

/-- Publishing at the owner, and what may go on there besides: callbacks, and
subscriptions of others than `subscriber`. -/
def Call.besides {F : Type} (subscriber : OwnerId) : Call F → Prop
  | .setPair .. => True
  | .removePair _ => True
  | .registerCallback .. => True
  | .cancelCallback _ => True
  | .handle (.subscription message) => message.subscriber ≠ subscriber
  | _ => False

namespace ReplicaRun
variable {F : Type}

/-- Every published pair can be framed and the outbox is not at its cap when it
is queued; nothing else writes to the owner's pairs, at either end. -/
def Undisturbed (run : ReplicaRun F) : ReplicaAction F → Prop
  | .atOwner call _ => call.besides run.subscriber.owner ∧ call.announceable ∧
      run.channel.outbox.frames.length < kMaxOutboxFrames
  | .atSubscriber call _ => ∀ write, call.received = some write →
      write.key.owner ≠ run.owner.owner
  | _ => True

def receive (c : Component F) (now : TimePoint) (messages : List Message) : Component F :=
  messages.foldl (fun c message => (c.enter (.handle message) now).component) c

/-- Presence, value and type of a pair agree once the frames in flight are in. -/
def Agrees (run : ReplicaRun F) (key : PairKey) : Prop :=
  ∀ now, ((receive run.subscriber now run.inFlight).getPair key).map
      (fun pair => (pair.value, pair.type)) =
    (run.owner.getPair key).map fun pair => (pair.value, pair.type)

end ReplicaRun

/-! ### Frames as writes -/

def Message.about (key : PairKey) (message : Message) : Bool := message.target = some key

theorem writesAt_filterMap (key : PairKey) (messages : List Message) :
    writesAt key (messages.filterMap Message.write) =
      (messages.filter (·.about key)).filterMap Message.write := by
  induction messages with
  | nil => rfl
  | cons message rest ih =>
    have htarget := message.target_eq
    cases hwrite : message.write with
    | none =>
      have hother : ¬ message.about key = true := by
        simp [Message.about, htarget, hwrite]
      rw [List.filterMap_cons_none hwrite, ih, List.filter_cons_of_neg hother]
    | some write =>
      rw [List.filterMap_cons_some hwrite]
      by_cases hkey : write.key = key
      · have hsame : message.about key = true := by
          simp [Message.about, htarget, hwrite, hkey]
        rw [List.filter_cons_of_pos hsame, List.filterMap_cons_some hwrite, ← ih]
        simp [writesAt, hkey]
      · have hother : ¬ message.about key = true := by
          simp [Message.about, htarget, hwrite, hkey]
        rw [List.filter_cons_of_neg hother, ← ih]
        simp [writesAt, hkey]

theorem replay_about (store : Store PairKey Shown) (key : PairKey) (messages : List Message) :
    store.replay (messages.filterMap Message.write) key =
      store.replay ((messages.filter (·.about key)).filterMap Message.write) key := by
  rw [Store.replay_at, Store.replay_at, writesAt_filterMap, writesAt_filterMap,
    List.filter_filter]
  simp only [Bool.and_self]

theorem replay_foreign {writes : List (Write PairKey Shown)} {key : PairKey}
    (h : ∀ write ∈ writes, write.key.owner ≠ key.owner) (store : Store PairKey Shown) :
    store.replay writes key = store key := by
  have hnone : writesAt key writes = [] := by
    rw [writesAt, List.filter_eq_nil_iff]
    intro write hwrite heq
    rw [decide_eq_true_iff] at heq
    exact h write hwrite (congrArg PairKey.owner heq)
  rw [Store.replay_at, hnone]
  rfl

theorem replay_filterMap_cons (store : Store PairKey Shown) (message : Message)
    (rest : List Message) :
    store.replay ((message :: rest).filterMap Message.write) =
      (store.replay message.write.toList).replay (rest.filterMap Message.write) := by
  rw [List.filterMap_cons]
  cases message.write <;> rfl

/-- All that a component writes on handling a frame, to pairs that are not its
own, is what the frame says. -/
theorem Component.view_handle {F : Type} (c : Component F) {key : PairKey}
    (hforeign : c.owner ≠ key.owner) (message : Message) (now : TimePoint) :
    (c.enter (.handle message) now).component.space.view key =
      c.space.view.replay message.write.toList key := by
  rw [c.enter_view, Store.replay_append]
  apply Store.replay_congr
  apply replay_foreign
  intro write hwrite
  rw [c.ownWrite_owner (Option.mem_toList.mp hwrite)]
  exact hforeign

namespace ReplicaRun
variable {F : Type} {run : ReplicaRun F} {key : PairKey}

theorem view_receive {c : Component F} (hforeign : c.owner ≠ key.owner) (now : TimePoint)
    (messages : List Message) :
    (receive c now messages).space.view key =
      c.space.view.replay (messages.filterMap Message.write) key := by
  induction messages generalizing c with
  | nil => rfl
  | cons message rest ih =>
    have howner := c.enter_owner (.handle message) now
    change (receive (c.enter (.handle message) now).component now rest).space.view key = _
    rw [ih (by rw [howner]; exact hforeign), replay_filterMap_cons]
    exact Store.replay_congr (c.view_handle hforeign message now) _

end ReplicaRun

/-! ### Frames for the subscriber -/

namespace Component
variable {F : Type} (c : Component F)

theorem hands_sublist (todo : List (Action F)) :
    List.Sublist (todo.flatMap c.hands) (parcels todo) := by
  induction todo with
  | nil => exact List.Sublist.refl _
  | cons action rest ih =>
    have hfirst : List.Sublist (c.hands action) (parcel action).toList := by
      cases action with
      | send id message =>
        simp only [hands, parcel]
        split
        · exact List.Sublist.refl _
        · exact List.nil_sublist _
      | sendOn owner session message =>
        simp only [hands, parcel]
        split
        · exact List.Sublist.refl _
        · exact List.nil_sublist _
      | _ => exact List.nil_sublist _
    rw [List.flatMap_cons, parcels_cons]
    exact hfirst.append ih

theorem filter_flatMap_hands {subscriber : OwnerId} (hsession : c.sessions.contains subscriber)
    (key : PairKey) (todo : List (Action F)) :
    (todo.flatMap c.hands).filter (Node.Concerns subscriber key) =
      (parcels todo).filter (Node.Concerns subscriber key) := by
  induction todo with
  | nil => rfl
  | cons action rest ih =>
    rw [List.flatMap_cons, List.filter_append, Node.filter_hands c hsession, ih]
    rw [parcels_cons, List.filter_append]

theorem about_framesFor {subscriber : OwnerId} (hsession : c.sessions.contains subscriber)
    (key : PairKey) (todo : List (Action F)) :
    (c.framesFor subscriber todo).filter (·.about key) =
      ((parcels todo).filter (Node.Concerns subscriber key)).map (·.2) := by
  rw [← c.filter_flatMap_hands hsession, framesFor, List.filter_map, List.filter_filter]
  congr 1
  apply List.filter_congr
  intro parcel _
  change (parcel.2.about key && decide (parcel.1 = subscriber)) = _
  rw [Message.about, ← Bool.decide_and, Node.Concerns]
  exact decide_eq_decide.mpr And.comm

theorem framesFor_announced {message : Message} {todo : List (Action F)} {before : Component F}
    (h : parcels todo = before.announced message) (subscriber : OwnerId) :
    List.Sublist (c.framesFor subscriber todo) [message] := by
  have hsublist := ((c.hands_sublist todo).filter fun parcel => parcel.1 = subscriber).map (·.2)
  apply hsublist.trans
  rw [h, announced]
  split
  · rename_i key _
    split
    · have hids : (before.space.subscribersOf key).ids.filter (fun id => id = subscriber) =
          List.replicate ((before.space.subscribersOf key).ids.count subscriber) subscriber := by
        rw [← List.filter_beq]
        apply List.filter_congr
        intro id _
        by_cases hid : id = subscriber <;> simp [hid]
      have hcount := List.nodup_iff_count_le_one.mp (before.space.subscribersOf key).nodup
        subscriber
      rw [List.filter_map, List.map_map]
      change List.Sublist (((before.space.subscribersOf key).ids.filter
        fun id => id = subscriber).map fun _ => message) _
      rw [hids, List.map_replicate]
      exact List.replicate_sublist_replicate message |>.mpr hcount
    · exact List.nil_sublist _
  · exact List.nil_sublist _

theorem mem_parcels_sendEach {pairs : List Pair} {subscriber : OwnerId} {parcel : OwnerId × Message}
    (h : parcel ∈ parcels (F := F) (sendEach pairs subscriber)) :
    ∃ pair ∈ pairs, parcel = (subscriber, .pairUpdate pair) := by
  obtain ⟨action, haction, hsome⟩ := List.mem_filterMap.mp h
  obtain ⟨pair, hpair, rfl⟩ := List.mem_map.mp haction
  cases Option.some.inj hsome
  exact ⟨pair, (List.takeWhile_sublist _).subset hpair, rfl⟩

theorem parcels_sendEach_to (pairs : List Pair) (subscriber : OwnerId) :
    ∀ parcel ∈ parcels (F := F) (sendEach pairs subscriber), parcel.1 = subscriber := by
  intro parcel hparcel
  obtain ⟨pair, _, rfl⟩ := mem_parcels_sendEach hparcel
  rfl

theorem parcels_handleSubscription (message : Subscription) (now : TimePoint) :
    ∀ parcel ∈ parcels (c.handleSubscription message now).todo,
      parcel.1 = message.subscriber := by
  unfold handleSubscription
  split
  · simp [idle]
  split
  · simp [idle]
  split
  · split <;> exact parcels_sendEach_to _ _
  · split <;> simp [idle]

theorem mem_subscribersOf_handleSubscription {message : Subscription} {subscriber : OwnerId}
    (hother : subscriber ≠ message.subscriber) (now : TimePoint) (key : PairKey) :
    subscriber ∈ (c.handleSubscription message now).component.space.subscribersOf key ↔
      subscriber ∈ c.space.subscribersOf key := by
  unfold handleSubscription
  split
  · rfl
  split
  · rfl
  split
  · split
    · by_cases huniversal : message.subscriber ∈ c.space.uSubscribers
      · simp [PairSpace.addSubscriptionToAll, huniversal]
      · simp [PairSpace.subscribersOf_addSubscriptionToAll huniversal, hother]
    · simp only [PairSpace.subscribersOf_addSubscription]
      split
      · rename_i heq
        simp [heq, hother]
      · rfl
  split
  · simp [PairSpace.subscribersOf_removeSubscriptionToAll, hother]
  · simp only [PairSpace.subscribersOf_removeSubscription]
    split
    · rename_i heq
      simp [heq.1, hother]
    · rfl

theorem mem_uSubscribers_handleSubscription {message : Subscription} {subscriber : OwnerId}
    (hother : subscriber ≠ message.subscriber) (now : TimePoint) :
    subscriber ∈ (c.handleSubscription message now).component.space.uSubscribers ↔
      subscriber ∈ c.space.uSubscribers := by
  unfold handleSubscription
  split
  · rfl
  split
  · rfl
  split
  · split
    · simp only [PairSpace.addSubscriptionToAll]
      split
      · rfl
      · simp [hother]
    · simp only [PairSpace.uSubscribers_addSubscription]
  split
  · simp [PairSpace.removeSubscriptionToAll, hother]
  · simp only [PairSpace.uSubscribers_removeSubscription]

structure Besides (subscriber : OwnerId) (key : PairKey) (entered : Entered F) : Prop where
  sessions : entered.component.sessions = c.sessions
  member : subscriber ∈ entered.component.space.subscribersOf key ↔
    subscriber ∈ c.space.subscribersOf key
  universal : subscriber ∈ entered.component.space.uSubscribers ↔
    subscriber ∈ c.space.uSubscribers
  view : entered.component.space.view = c.space.view
  frames : entered.component.framesFor subscriber entered.todo = []

theorem besides_handleSubscription {message : Subscription} {subscriber : OwnerId}
    (hother : message.subscriber ≠ subscriber) (key : PairKey) (now : TimePoint) :
    c.Besides subscriber key (c.handleSubscription message now) where
  sessions := by
    unfold handleSubscription
    split
    · rfl
    split
    · rfl
    split
    · split <;> rfl
    · split <;> rfl
  member := c.mem_subscribersOf_handleSubscription (Ne.symm hother) now key
  universal := c.mem_uSubscribers_handleSubscription (Ne.symm hother) now
  view := c.view_handleSubscription message now
  frames := by
    rw [framesFor, List.map_eq_nil_iff, List.filter_eq_nil_iff]
    intro parcel hparcel
    have hmem := ((c.handleSubscription message now).component.hands_sublist
      (c.handleSubscription message now).todo).subset hparcel
    rw [c.parcels_handleSubscription message now parcel hmem, decide_eq_true_iff]
    exact hother

theorem besides_enter {call : Call F} {subscriber : OwnerId} (h : call.besides subscriber)
    (hreads : ¬ call.writes) (key : PairKey) (now : TimePoint) :
    c.Besides subscriber key (c.enter call now) := by
  cases call with
  | registerCallback owner pairKey callback =>
    refine ⟨?_, ?_, ?_, c.view_registerCallback owner pairKey callback now, ?_⟩
    all_goals simp only [enter, registerCallback]
    all_goals split
    · rfl
    · rfl
    · rfl
    · simp only [PairSpace.subscribersOf_addCallback]
    · rfl
    · simp only [PairSpace.uSubscribers_addCallback]
    · rfl
    · rfl
  | cancelCallback handle =>
    refine ⟨rfl, ?_, ?_, PairSpace.view_removeCallback _ _, rfl⟩
    · simp only [enter, cancelCallback, PairSpace.subscribersOf_removeCallback]
    · simp only [enter, cancelCallback, PairSpace.uSubscribers_removeCallback]
  | handle message =>
    cases message with
    | subscription message => exact c.besides_handleSubscription h key now
    | _ => exact absurd h id
  | setPair => exact absurd rfl hreads
  | removePair => exact absurd rfl hreads
  | _ => exact absurd h id

end Component

theorem FrameChannel.sendEach_room (channel : FrameChannel PairKey Message)
    {messages : List Message}
    (room : channel.outbox.frames.length + messages.length ≤ kMaxOutboxFrames) :
    (channel.sendEach messages).outbox.frames.map (·.bytes) =
        channel.outbox.frames.map (·.bytes) ++ messages ∧
      (channel.sendEach messages).closed = channel.closed := by
  induction messages generalizing channel with
  | nil => exact ⟨(List.append_nil _).symm, rfl⟩
  | cons message rest ih =>
    rw [List.length_cons] at room
    have hsends := channel.sendLocked_sends message message.coalesceKey
    rw [sendEach, List.foldl_cons]
    generalize channel.sendLocked message message.coalesceKey = result at hsends ⊢
    obtain ⟨after, verdict⟩ := result
    cases hsends with
    | @queued node outbox _ _ hafter =>
      have hlength : outbox.frames.length + rest.length ≤ kMaxOutboxFrames := by
        rw [hafter, List.length_append, List.length_singleton]
        omega
      obtain ⟨hframes, hclosed⟩ := ih { channel with outbox, writing := true } hlength
      constructor
      · refine hframes.trans ?_
        rw [hafter, List.map_append, List.append_assoc]
        rfl
      · exact hclosed
    | replaced full => omega
    | evicted full => omega
    | overfull full => omega

namespace ReplicaRun
variable {F : Type} {run after : ReplicaRun F} {key : PairKey}

/-- Once the subscriber has handled the frames in flight to it, and the `later`
ones behind them, its copy of the pair shows `shown`. -/
structure Follows (key : PairKey) (later : List Message) (shown : Option Shown)
    (run : ReplicaRun F) : Prop where
  connected : run.channel.closed = false
  foreign : run.subscriber.owner ≠ key.owner
  replay : run.subscriber.space.view.replay ((run.inFlight ++ later).filterMap Message.write) key =
    shown

section
variable {later frames : List Message} {shown : Option Shown}

theorem Follows.append {store : Store PairKey Shown} (h : Follows key later (store key) run)
    (frames : List Message) :
    Follows key (later ++ frames) (store.replay (frames.filterMap Message.write) key) run where
  connected := h.connected
  foreign := h.foreign
  replay := by
    rw [← List.append_assoc, List.filterMap_append, Store.replay_append]
    exact Store.replay_congr h.replay _

theorem Follows.queue (h : Follows key (frames ++ later) shown run)
    (room : run.channel.outbox.frames.length + frames.length ≤ kMaxOutboxFrames) :
    Follows key later shown { run with channel := run.channel.sendEach frames } := by
  obtain ⟨hframes, hclosed⟩ := run.channel.sendEach_room room
  refine ⟨hclosed.trans h.connected, h.foreign, ?_⟩
  rw [← h.replay]
  simp only [inFlight, hframes, List.append_assoc]

theorem Follows.drain (h : Follows key later shown run) (hstep : run.step .drain = some after) :
    Follows key later shown after ∧ after.owner = run.owner ∧ after.subscriber = run.subscriber := by
  have hkeep : ∀ after : ReplicaRun F, after.subscriber = run.subscriber →
      after.channel.closed = run.channel.closed → after.inFlight = run.inFlight →
      Follows key later shown after := by
    intro after hsubscriber hclosed hflight
    constructor
    · rw [hclosed]
      exact h.connected
    · rw [hsubscriber]
      exact h.foreign
    · rw [hflight, hsubscriber]
      exact h.replay
  have hdrains := run.channel.drainLocked_drains
  simp only [step] at hstep
  generalize run.channel.drainLocked = result at hstep hdrains
  obtain ⟨channel, next⟩ := result
  cases hdrains with
  | stopped =>
    cases Option.some.inj hstep
    exact ⟨hkeep _ rfl rfl rfl, rfl, rfl⟩
  | taken _ hqueue hrest =>
    cases Option.some.inj hstep
    refine ⟨hkeep _ rfl rfl ?_, rfl, rfl⟩
    simp [inFlight, hqueue, hrest]

theorem Follows.deliver (h : Follows key later shown run) {now : TimePoint} {message : Message}
    {rest : List Message} (hwire : run.wire = message :: rest) :
    Follows key later shown { run with
      wire := rest, subscriber := (run.subscriber.enter (.handle message) now).component } := by
  refine ⟨h.connected, ?_, ?_⟩
  · rw [run.subscriber.enter_owner]
    exact h.foreign
  · have hflight : run.inFlight ++ later =
        message :: (rest ++ run.channel.outbox.frames.map (·.bytes) ++ later) := by
      simp only [inFlight, hwire, List.cons_append]
    rw [← h.replay, hflight, replay_filterMap_cons]
    exact Store.replay_congr (run.subscriber.view_handle h.foreign message now) _

theorem Follows.atSubscriber (h : Follows key later shown run) {call : Call F}
    (hguard : ∀ write, call.received = some write → write.key.owner ≠ key.owner)
    (now : TimePoint) :
    Follows key later shown { run with
      subscriber := (run.subscriber.enter call now).component } := by
  refine ⟨h.connected, ?_, ?_⟩
  · rw [run.subscriber.enter_owner]
    exact h.foreign
  · rw [← h.replay]
    apply Store.replay_congr
    rw [run.subscriber.enter_view call now]
    apply replay_foreign
    intro write hwrite
    rcases List.mem_append.mp hwrite with hown | hreceived
    · rw [run.subscriber.ownWrite_owner (Option.mem_toList.mp hown)]
      exact h.foreign
    · exact hguard write (Option.mem_toList.mp hreceived)

end

/-- The copy, brought up to date with the frames in flight, shows what the owner
shows. -/
structure Tracks (key : PairKey) (run : ReplicaRun F) : Prop where
  owned : key.owner = run.owner.owner
  distinct : run.subscriber.owner ≠ run.owner.owner
  session : run.owner.sessions.contains run.subscriber.owner
  member : run.subscriber.owner ∈ run.owner.space.subscribersOf key
  follows : Follows key [] (run.owner.space.view key) run

theorem Tracks.start {owner subscriber : Component F} (howned : key.owner = owner.owner)
    (hdistinct : subscriber.owner ≠ owner.owner)
    (hsession : owner.sessions.contains subscriber.owner)
    (hmember : subscriber.owner ∈ owner.space.subscribersOf key)
    (hagree : subscriber.space.view key = owner.space.view key) :
    Tracks key (start owner subscriber) where
  owned := howned
  distinct := hdistinct
  session := hsession
  member := hmember
  follows := by
    refine ⟨rfl, ?_, hagree⟩
    rw [howned]
    exact hdistinct

theorem Tracks.queue (h : Tracks key run) {owner : Component F} {frames : List Message}
    (howner : owner.owner = run.owner.owner)
    (hsession : owner.sessions = run.owner.sessions)
    (hmember : run.subscriber.owner ∈ owner.space.subscribersOf key)
    (room : run.channel.outbox.frames.length + frames.length ≤ kMaxOutboxFrames)
    (hview : owner.space.view key = (run.owner.space.view.replay
      ((frames.filter (·.about key)).filterMap Message.write)) key) :
    Tracks key { run with owner, channel := run.channel.sendEach frames } := by
  constructor
  · exact h.owned.trans howner.symm
  · rw [howner]
    exact h.distinct
  · rw [hsession]
    exact h.session
  · exact hmember
  · rw [hview, ← replay_about]
    have happended := h.follows.append frames
    rw [List.nil_append, ← List.append_nil frames] at happended
    have hqueued := happended.queue room
    rw [List.append_nil] at hqueued
    exact ⟨hqueued.connected, hqueued.foreign, hqueued.replay⟩

theorem Tracks.atOwner (h : Tracks key run) {call : Call F} {now : TimePoint}
    (hguard : Undisturbed run (.atOwner call now)) :
    Tracks key { run with
      owner := (run.owner.enter call now).component
      channel := run.channel.sendEach ((run.owner.enter call now).component.framesFor
        run.subscriber.owner (run.owner.enter call now).todo) } := by
  obtain ⟨hbesides, hannounceable, room⟩ := hguard
  have howner := run.owner.enter_owner call now
  by_cases hwrites : call.writes
  · obtain ⟨space, hspace⟩ := run.owner.enter_writes_frame hwrites now
    have hsessions : (run.owner.enter call now).component.sessions = run.owner.sessions := by
      rw [hspace]
    have hmember := run.owner.mem_subscribersOf_enter_writes hwrites now h.member
    have hsession : (run.owner.enter call now).component.sessions.contains
        run.subscriber.owner := by
      rw [hsessions]
      exact h.session
    have hview := run.owner.view_enter_writes hwrites now
    rcases run.owner.enter_writes hwrites now with hnothing | ⟨message, hwrote⟩
    · refine h.queue howner hsessions hmember ?_ ?_
      · rw [hnothing]
        exact Nat.le_of_lt room
      · rw [hnothing]
        rfl
    · have hfits := hwrote.fits hwrites hannounceable
      have habout := (run.owner.enter call now).component.about_framesFor hsession key
        (run.owner.enter call now).todo
      rw [hwrote.parcels] at habout
      have hone := ((run.owner.enter call now).component.framesFor_announced hwrote.parcels
        run.subscriber.owner).length_le
      rw [List.length_singleton] at hone
      refine h.queue howner hsessions hmember ?_ ?_
      · omega
      · rw [habout, hview, ← hwrote.write]
        by_cases htarget : message.target = some key
        · rw [Node.announced_concerns _ hfits htarget h.member]
          simp only [List.map_cons, List.map_nil, List.filterMap_cons, List.filterMap_nil]
          cases message.write <;> rfl
        · rw [Node.announced_elsewhere _ _ htarget]
          exact message.replay_elsewhere htarget _
  · have hidle := run.owner.besides_enter hbesides hwrites key now
    refine h.queue howner hidle.sessions (hidle.member.mpr h.member) ?_ ?_
    · rw [hidle.frames]
      exact Nat.le_of_lt room
    · rw [hidle.frames, hidle.view]
      rfl

theorem Tracks.hear (h : Tracks key run) (call : Call F) (now : TimePoint) {wire : List Message}
    (hfollows : Follows key [] (run.owner.space.view key)
      { run with wire, subscriber := (run.subscriber.enter call now).component }) :
    Tracks key { run with wire, subscriber := (run.subscriber.enter call now).component } := by
  have howner := run.subscriber.enter_owner call now
  refine ⟨h.owned, ?_, ?_, ?_, hfollows⟩
  · rw [howner]
    exact h.distinct
  · rw [howner]
    exact h.session
  · rw [howner]
    exact h.member

theorem Tracks.step {action : ReplicaAction F} (h : Tracks key run)
    (hguard : Undisturbed run action) (hstep : run.step action = some after) :
    Tracks key after := by
  cases action with
  | atOwner call now =>
    cases Option.some.inj hstep
    exact h.atOwner hguard
  | drain =>
    obtain ⟨hfollows, howner, hsubscriber⟩ := h.follows.drain hstep
    constructor
    · rw [howner]
      exact h.owned
    · rw [howner, hsubscriber]
      exact h.distinct
    · rw [howner, hsubscriber]
      exact h.session
    · rw [howner, hsubscriber]
      exact h.member
    · rw [howner]
      exact hfollows
  | deliver now =>
    simp only [ReplicaRun.step] at hstep
    split at hstep
    · contradiction
    · rename_i message rest hwire
      cases Option.some.inj hstep
      exact h.hear (.handle message) now (h.follows.deliver hwire)
  | atSubscriber call now =>
    cases Option.some.inj hstep
    rw [Undisturbed, ← h.owned] at hguard
    exact h.hear call now (h.follows.atSubscriber hguard now)

theorem agrees {owner subscriber : Component F} (howned : key.owner = owner.owner)
    (hdistinct : subscriber.owner ≠ owner.owner)
    (hsession : owner.sessions.contains subscriber.owner)
    (hmember : subscriber.owner ∈ owner.space.subscribersOf key)
    (hinitial : (subscriber.getPair key).map (fun pair => (pair.value, pair.type)) =
      (owner.getPair key).map fun pair => (pair.value, pair.type))
    (hreach : Reach ReplicaRun.step Undisturbed (ReplicaRun.start owner subscriber) run) :
    run.Agrees key := by
  have htracks : Tracks key run := by
    refine hreach.invariant ?_ fun _ _ _ h hguard hstep => h.step hguard hstep
    apply Tracks.start howned hdistinct hsession hmember
    rw [PairSpace.view_eq_held, PairSpace.view_eq_held]
    exact hinitial
  intro now
  have hreplay := htracks.follows.replay
  rw [List.append_nil, ← view_receive htracks.follows.foreign now, PairSpace.view_eq_held,
    PairSpace.view_eq_held] at hreplay
  exact hreplay

/-- A publish that the copy has, and a removal that is still in the outbox. -/
theorem agrees_publish_remove : ∃ run : ReplicaRun Unit,
    Reach ReplicaRun.step Undisturbed (ReplicaRun.start Node.watched (.initial 2000)) run ∧
      run.inFlight = [.pairRemoved ⟨1000, [107]⟩] ∧
      (run.subscriber.getPair ⟨1000, [107]⟩).isSome ∧ run.Agrees ⟨1000, [107]⟩ := by
  have hpublish : Undisturbed (ReplicaRun.start Node.watched (.initial 2000))
      (.atOwner (.setPair [107] [1] .string) 5) := by
    refine ⟨trivial, ?_, by decide⟩
    change 1 + 1 + 29 ≤ Wire.kMaxPayload
    decide
  have hrun : ∃ run : ReplicaRun Unit,
      Reach ReplicaRun.step Undisturbed (ReplicaRun.start Node.watched (.initial 2000)) run ∧
        run.inFlight = [.pairRemoved ⟨1000, [107]⟩] ∧
        (run.subscriber.getPair ⟨1000, [107]⟩).isSome := by
    refine ⟨_, .tail (a := .atOwner (.removePair [107]) 7) (.tail (a := .deliver 6)
      (.tail (a := .drain) (.tail .refl hpublish rfl) trivial rfl) trivial rfl)
        ⟨trivial, ?_, ?_⟩ rfl, ?_, ?_⟩
    · change 1 + 8 ≤ Wire.kMaxPayload
      decide
    · decide
    · decide
    · decide
  obtain ⟨run, hreach, hflight, hsome⟩ := hrun
  exact ⟨run, hreach, hflight, hsome,
    agrees rfl (by decide) (by decide) (by decide) (by decide) hreach⟩

end ReplicaRun

end Srnp
