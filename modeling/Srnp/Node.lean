import Srnp.ComponentSpec
import Srnp.Lib.Transition

/-! The threads of one component. A thread enters a call and then runs the
actions the call left, one at a time, while any number of other threads do the
same; entering a call that needs the pair space waits for its lock. The logs
record what happened in the order in which it happened. -/
namespace Srnp
open Std LastWrite Transition

structure Node (F : Type) where
  component : Component F
  lock : Option ThreadId
  todo : ThreadId → List (Action F)
  /-- Frames handed to `ClientSession::send`, with the component each is for. -/
  handed : List (OwnerId × Message)
  /-- Changes made to the pair space, each as the frame that announces it. -/
  changes : List Message
  /-- Writes made to the component's own pairs by its callers. -/
  writes : List (Write PairKey Shown)
  /-- Work posted to `callback_strand_`. -/
  posted : List (Pair × List F)
  /-- Callbacks run by the server's handlers. -/
  called : List (F × Pair)

inductive NodeAction (F : Type) where
  | enter (thread : ThreadId) (call : Call F) (now : TimePoint)
  | advance (thread : ThreadId)
  /-- The user callback that is next on the thread throws. -/
  | throw (thread : ThreadId)

def Component.locks {F : Type} (c : Component F) : Call F → Bool
  | .setPair .. => c.ready
  | .removePair _ => c.ready
  | .removeRemotePair owner _ => owner = c.owner && c.ready
  | .registerCallback .. => true
  | .cancelCallback _ => true
  | .handle _ => true
  | _ => false

namespace Node
variable {F : Type}

def quiet (c : Component F) : Node F := ⟨c, none, fun _ => [], [], [], [], [], []⟩

def enter (node : Node F) (thread : ThreadId) (call : Call F) (now : TimePoint) : Node F :=
  let entered := node.component.enter call now
  { node with
    component := entered.component
    lock := if entered.locked then some thread else node.lock
    todo := Function.update node.todo thread entered.todo
    changes := node.changes ++ entered.change.toList
    writes := node.writes ++ (node.component.ownWrite call).toList }

def perform (node : Node F) (action : Action F) : Node F :=
  match action with
  | .call callback snapshot => { node with called := node.called ++ [(callback, snapshot)] }
  | .post snapshot callbacks => { node with posted := node.posted ++ [(snapshot, callbacks)] }
  | .unlock => { node with lock := none }
  | action => { node with handed := node.handed ++ node.component.hands action }

def resume (node : Node F) (action : Action F) (rest : List (Action F)) : List (Action F) :=
  match action with
  | .sendAll key registering => node.component.sendsToAll key registering ++ rest
  | _ => rest

def advance (node : Node F) (thread : ThreadId) (action : Action F) (rest : List (Action F)) :
    Node F :=
  { node.perform action with
    todo := Function.update node.todo thread (node.resume action rest) }

def step (node : Node F) : NodeAction F → Option (Node F)
  | .enter thread call now =>
      if (node.todo thread).isEmpty && (!node.component.locks call || node.lock.isNone) then
        some (node.enter thread call now)
      else none
  | .advance thread =>
      match node.todo thread with
      | [] => none
      | action :: rest => some (node.advance thread action rest)
  | .throw thread =>
      match node.todo thread with
      | .call _ _ :: _ => some { node with todo := Function.update node.todo thread [] }
      | _ => none

theorem step_cases {node next : Node F} {action : NodeAction F}
    (h : node.step action = some next) :
    (∃ thread call now, action = .enter thread call now ∧ node.todo thread = [] ∧
      (node.component.locks call → node.lock = none) ∧ next = node.enter thread call now) ∨
    (∃ thread first rest, action = .advance thread ∧ node.todo thread = first :: rest ∧
      next = node.advance thread first rest) ∨
    (∃ thread, action = .throw thread ∧
      next = { node with todo := Function.update node.todo thread [] }) := by
  cases action with
  | enter thread call now =>
    left
    simp only [step] at h
    split at h
    · rename_i henabled
      rw [Bool.and_eq_true, List.isEmpty_iff, Bool.or_eq_true] at henabled
      refine ⟨thread, call, now, rfl, henabled.1, ?_, (Option.some.inj h).symm⟩
      intro hlocks
      rcases henabled.2 with hfree | hfree
      · simp [hlocks] at hfree
      · exact Option.isNone_iff_eq_none.mp hfree
    · contradiction
  | advance thread =>
    right
    left
    simp only [step] at h
    split at h
    · contradiction
    · rename_i first rest htodo
      exact ⟨thread, first, rest, rfl, htodo, (Option.some.inj h).symm⟩
  | throw thread =>
    right
    right
    simp only [step] at h
    split at h
    · exact ⟨thread, rfl, (Option.some.inj h).symm⟩
    · contradiction

@[simp] theorem perform_component (node : Node F) (action : Action F) :
    (node.perform action).component = node.component := by
  cases action <;> rfl

@[simp] theorem perform_changes (node : Node F) (action : Action F) :
    (node.perform action).changes = node.changes := by
  cases action <;> rfl

@[simp] theorem perform_writes (node : Node F) (action : Action F) :
    (node.perform action).writes = node.writes := by
  cases action <;> rfl

theorem perform_handed (node : Node F) (action : Action F) :
    (node.perform action).handed = node.handed ++ node.component.hands action := by
  cases action <;> simp [perform, Component.hands]

/-! ### Frames about one pair, for one subscriber -/

/-- A frame for `subscriber` about the pair `key`. -/
def Concerns (subscriber : OwnerId) (key : PairKey) (parcel : OwnerId × Message) : Bool :=
  parcel.1 = subscriber ∧ parcel.2.target = some key

def owed (node : Node F) (subscriber : OwnerId) (key : PairKey) (thread : ThreadId) :
    List (OwnerId × Message) :=
  (Component.parcels (node.todo thread)).filter (Concerns subscriber key)

/-- What has been handed to `subscriber` about `key`, in order. -/
def handedTo (node : Node F) (subscriber : OwnerId) (key : PairKey) : List (OwnerId × Message) :=
  node.handed.filter (Concerns subscriber key)

/-- The changes made to `key`, each as the frame due to `subscriber`. -/
def changesTo (node : Node F) (subscriber : OwnerId) (key : PairKey) : List (OwnerId × Message) :=
  (node.changes.map (subscriber, ·)).filter (Concerns subscriber key)

/-- Nothing about `key` is on its way to `subscriber` from any thread. -/
def Settled (node : Node F) (subscriber : OwnerId) (key : PairKey) : Prop :=
  ∀ thread, node.owed subscriber key thread = []

/-- The frame says what the pair space shows for the pair it is about. -/
def Describes (node : Node F) (key : PairKey) (parcel : OwnerId × Message) : Prop :=
  parcel.2.write.map (·.value) = some (node.component.space.view key)

theorem announced_concerns (c : Component F) {subscriber : OwnerId} {key : PairKey}
    {message : Message} (hfits : message.fits) (htarget : message.target = some key)
    (hmember : subscriber ∈ c.space.subscribersOf key) :
    (c.announced message).filter (Concerns subscriber key) = [(subscriber, message)] := by
  have hcount : (c.space.subscribersOf key).ids.count subscriber = 1 :=
    List.count_eq_one_of_mem (c.space.subscribersOf key).nodup hmember
  simp only [Component.announced, htarget, hfits, if_true, List.filter_map]
  have hpred : (Concerns subscriber key ∘ fun id => (id, message)) = fun id => id == subscriber := by
    funext id
    change decide (id = subscriber ∧ message.target = some key) = (id == subscriber)
    by_cases hid : id = subscriber <;> simp [htarget, hid]
  rw [hpred, List.filter_beq, hcount]
  rfl

theorem announced_elsewhere (c : Component F) (subscriber : OwnerId) {key : PairKey}
    {message : Message} (htarget : message.target ≠ some key) :
    (c.announced message).filter (Concerns subscriber key) = [] := by
  rw [List.filter_eq_nil_iff]
  intro parcel hparcel
  have hmessage : parcel.2 = message := by
    unfold Component.announced at hparcel
    split at hparcel
    · split at hparcel
      · obtain ⟨id, _, rfl⟩ := List.mem_map.mp hparcel
        rfl
      · contradiction
    · contradiction
  simp [Concerns, hmessage, htarget]

/-! What a step does to the frames about one pair. -/

theorem owed_of_idle {node : Node F} {thread : ThreadId} (h : node.todo thread = [])
    (subscriber : OwnerId) (key : PairKey) : node.owed subscriber key thread = [] := by
  simp [owed, h]

theorem owed_enter (node : Node F) (thread : ThreadId) (call : Call F) (now : TimePoint)
    (subscriber : OwnerId) (key : PairKey) (other : ThreadId) :
    (node.enter thread call now).owed subscriber key other =
      if other = thread then
        (Component.parcels (node.component.enter call now).todo).filter (Concerns subscriber key)
      else node.owed subscriber key other := by
  simp only [owed, enter, Function.update_apply]
  split <;> rfl

theorem parcels_sendsToAll (c : Component F) (words : Bytes) (registering : Bool)
    (subscriber : OwnerId) (key : PairKey) :
    (Component.parcels (c.sendsToAll words registering)).filter (Concerns subscriber key) = [] := by
  rw [List.filter_eq_nil_iff]
  intro parcel hparcel
  obtain ⟨action, haction, hsome⟩ := List.mem_filterMap.mp hparcel
  obtain ⟨session, _, rfl⟩ := List.mem_map.mp haction
  cases Option.some.inj hsome
  simp [Concerns, Message.target]

theorem owed_advance (node : Node F) {thread : ThreadId} {first : Action F}
    {rest : List (Action F)} (subscriber : OwnerId) (key : PairKey) (other : ThreadId) :
    (node.advance thread first rest).owed subscriber key other =
      if other = thread then (Component.parcels rest).filter (Concerns subscriber key)
      else node.owed subscriber key other := by
  simp only [owed, advance, Function.update_apply]
  split
  · cases first with
    | sendAll words registering =>
      simp only [resume, Component.parcels_append, List.filter_append]
      rw [parcels_sendsToAll, List.nil_append]
    | _ => rfl
  · rfl

theorem filter_hands (c : Component F) {subscriber : OwnerId}
    (hsession : c.sessions.contains subscriber) (key : PairKey) (action : Action F) :
    (c.hands action).filter (Concerns subscriber key) =
      (Component.parcel action).toList.filter (Concerns subscriber key) := by
  cases action with
  | send id message =>
    by_cases hid : id = subscriber
    · simp [Component.hands, Component.parcel, hid, hsession]
    · simp only [Component.hands, Component.parcel]
      split <;> simp [Concerns, hid]
  | sendOn owner session message =>
    simp only [Component.hands, Component.parcel]
    split <;> simp [Concerns, Message.target]
  | _ => rfl

theorem handedTo_advance (node : Node F) (thread : ThreadId) (first : Action F)
    (rest : List (Action F)) {subscriber : OwnerId}
    (hsession : node.component.sessions.contains subscriber) (key : PairKey) :
    (node.advance thread first rest).handedTo subscriber key =
      node.handedTo subscriber key ++
        (Component.parcel first).toList.filter (Concerns subscriber key) := by
  simp only [handedTo, advance, perform_handed, List.filter_append]
  rw [filter_hands _ hsession]

theorem owed_cons {node : Node F} {thread : ThreadId} {first : Action F}
    {rest : List (Action F)} (h : node.todo thread = first :: rest) (subscriber : OwnerId)
    (key : PairKey) :
    node.owed subscriber key thread =
      (Component.parcel first).toList.filter (Concerns subscriber key) ++
        (Component.parcels rest).filter (Concerns subscriber key) := by
  rw [owed, h, Component.parcels_cons, List.filter_append]

end Node

end Srnp
