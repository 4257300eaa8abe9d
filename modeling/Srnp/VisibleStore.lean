import Srnp.Component
import Srnp.PairSpaceView

/-! What a reader of a pair space can see, over any sequence of its operations.
Subscriptions and callbacks are filed in the map of the pairs, under
placeholders where there is no pair; a reader sees none of that, only the last
write to each key. -/
namespace Srnp
open Std LastWrite

/-- The operations of a pair space; those that read the clock say what it read. -/
inductive SpaceOp (F : Type) where
  | addPair (pair : Pair) (now : TimePoint)
  | removePair (key : PairKey)
  | addSubscription (key : PairKey) (subscriber : OwnerId) (now : TimePoint)
  | removeSubscription (key : PairKey) (subscriber : OwnerId)
  | addSubscriptionToAll (subscriber : OwnerId)
  | removeSubscriptionToAll (subscriber : OwnerId)
  | addCallback (key : PairKey) (callback : F) (now : TimePoint)
  | addCallbackToAll (callback : F)
  | removeCallback (handle : CallbackHandle)

namespace SpaceOp
variable {F : Type}

def perform (space : PairSpace F) : SpaceOp F → PairSpace F
  | .addPair pair now => (space.addPair pair now).1
  | .removePair key => space.removePair key
  | .addSubscription key subscriber now => space.addSubscription key subscriber now
  | .removeSubscription key subscriber => space.removeSubscription key subscriber
  | .addSubscriptionToAll subscriber => space.addSubscriptionToAll subscriber
  | .removeSubscriptionToAll subscriber => space.removeSubscriptionToAll subscriber
  | .addCallback key callback now => (space.addCallback key callback now).1
  | .addCallbackToAll callback => (space.addCallbackToAll callback).1
  | .removeCallback handle => space.removeCallback handle

def writes : SpaceOp F → Option PairKey
  | .addPair pair _ => some pair.pairKey
  | .removePair key => some key
  | _ => none

/-- The value and type an operation leaves under its key: those of a pair added, unless it is
added as a placeholder. -/
def leaves : SpaceOp F → Option Shown
  | .addPair pair _ => if pair.type = .invalid then none else some (pair.value, pair.type)
  | _ => none

def write : SpaceOp F → Option (Write PairKey Shown)
  | .addPair pair _ => some pair.write
  | .removePair key => some (.remove key)
  | _ => none

theorem write_key (op : SpaceOp F) : op.write.map Write.key = op.writes := by
  cases op with
  | addPair pair now => exact congrArg some pair.write_key
  | _ => rfl

theorem write_value {op : SpaceOp F} {write : Write PairKey Shown} (h : op.write = some write) :
    write.value = op.leaves := by
  cases op with
  | addPair pair now =>
    cases Option.some.inj h
    exact pair.write_value
  | removePair key =>
    cases Option.some.inj h
    rfl
  | _ => contradiction

theorem write_eq_none {op : SpaceOp F} : op.write = none ↔ op.writes = none := by
  rw [← write_key, Option.map_eq_none_iff]

theorem held_perform {op : SpaceOp F} (h : op.writes = none) (space : PairSpace F) :
    (op.perform space).held = space.held := by
  cases op with
  | addPair | removePair => contradiction
  | addSubscription key subscriber now => exact space.held_addSubscription key subscriber now
  | removeSubscription key subscriber => exact space.held_removeSubscription key subscriber
  | addSubscriptionToAll subscriber => exact space.held_addSubscriptionToAll subscriber
  | removeSubscriptionToAll subscriber => exact space.held_removeSubscriptionToAll subscriber
  | addCallback key callback now => exact space.held_addCallback key callback now
  | addCallbackToAll callback => rfl
  | removeCallback handle => exact space.held_removeCallback handle

theorem view_perform (op : SpaceOp F) (space : PairSpace F) :
    (op.perform space).view = space.view.replay op.write.toList := by
  cases hwrite : op.write with
  | none => exact PairSpace.view_congr (held_perform (write_eq_none.mp hwrite) space)
  | some write =>
    cases op with
    | addPair pair now =>
      cases Option.some.inj hwrite
      exact space.view_addPair pair now
    | removePair key =>
      cases Option.some.inj hwrite
      exact space.view_removePair key
    | _ => contradiction

end SpaceOp

namespace PairSpace
variable {F : Type}

def performAll (space : PairSpace F) (ops : List (SpaceOp F)) : PairSpace F :=
  ops.foldl (fun space op => op.perform space) space

/-- The visible store refines the last-write map. -/
theorem view_performAll (ops : List (SpaceOp F)) (space : PairSpace F) :
    (space.performAll ops).view = space.view.replay (ops.filterMap SpaceOp.write) := by
  induction ops generalizing space with
  | nil => rfl
  | cons op rest ih =>
    rw [performAll, List.foldl_cons]
    refine (ih (op.perform space)).trans ?_
    rw [op.view_perform, ← Store.replay_append]
    cases hwrite : op.write <;> simp [hwrite]

theorem writesAt_filterMap (key : PairKey) (ops : List (SpaceOp F)) :
    writesAt key (ops.filterMap SpaceOp.write) =
      (ops.filter fun op => op.writes = some key).filterMap SpaceOp.write := by
  induction ops with
  | nil => rfl
  | cons op rest ih =>
    have hkey := op.write_key
    cases hwrite : op.write with
    | none =>
      rw [hwrite] at hkey
      rw [List.filterMap_cons_none hwrite, List.filter_cons_of_neg (by simp [← hkey]), ih]
    | some write =>
      rw [hwrite] at hkey
      rw [List.filterMap_cons_some hwrite]
      by_cases hsame : write.key = key
      · rw [List.filter_cons_of_pos (by simp [← hkey, hsame]), List.filterMap_cons_some hwrite,
          ← ih]
        simp [writesAt, hsame]
      · rw [List.filter_cons_of_neg (by simp [← hkey, hsame]), ← ih]
        simp [writesAt, hsame]

theorem view_empty : (empty : PairSpace F).view = fun _ => none := by
  funext key
  simp [view, find, empty]

theorem view_performAll_at (ops : List (SpaceOp F)) (key : PairKey) :
    (empty.performAll ops : PairSpace F).view key =
      (ops.filter fun op => op.writes = some key).getLast?.bind SpaceOp.leaves := by
  rw [view_performAll, Store.replay_at, writesAt_filterMap, view_empty]
  cases hlast : (ops.filter fun op => op.writes = some key).getLast? with
  | none =>
    rw [List.getLast?_eq_none_iff.mp hlast]
    rfl
  | some op =>
    obtain ⟨front, hfront⟩ := List.getLast?_eq_some_iff.mp hlast
    have hmem : op ∈ ops.filter fun op => op.writes = some key := by
      rw [hfront]
      exact List.mem_append_right _ List.mem_cons_self
    have hwrites := (List.mem_filter.mp hmem).2
    rw [decide_eq_true_iff] at hwrites
    cases hwrite : op.write with
    | none =>
      rw [SpaceOp.write_eq_none.mp hwrite] at hwrites
      contradiction
    | some write =>
      rw [hfront, List.filterMap_append, List.filterMap_cons_some hwrite, List.filterMap_nil,
        List.getLast?_concat]
      exact SpaceOp.write_value hwrite

def snapshotPairs (space : PairSpace F) : List Pair :=
  (space.pairs.toList.map (·.2.pair)).filter fun pair => pair.type ≠ .invalid

theorem mem_snapshotPairs {space : PairSpace F} {pair : Pair} :
    pair ∈ space.snapshotPairs ↔ space.held pair.pairKey = some pair := by
  rw [held_eq_some, snapshotPairs, List.mem_filter, decide_eq_true_iff, List.mem_map, and_comm]
  refine and_congr_right fun _ => ?_
  constructor
  · rintro ⟨⟨key, entry⟩, hmem, rfl⟩
    have hfind : space.find key = some entry := ExtTreeMap.mem_toList_iff_getElem?_eq_some.mp hmem
    refine ⟨entry, ?_, rfl⟩
    rw [pairKey_of_find hfind]
    exact hfind
  · rintro ⟨entry, hfind, rfl⟩
    exact ⟨(entry.pair.pairKey, entry), ExtTreeMap.mem_toList_iff_getElem?_eq_some.mpr hfind, rfl⟩

theorem snapshotPairs_ordered (space : PairSpace F) :
    space.snapshotPairs.Pairwise fun left right => compare left.pairKey right.pairKey = .lt := by
  apply List.Pairwise.filter
  rw [List.pairwise_map]
  refine (ExtTreeMap.ordered_keys_toList (t := space.pairs)).imp_of_mem ?_
  intro left right hleft hright hlt
  have hkey : ∀ entry ∈ space.pairs.toList, entry.2.pair.pairKey = entry.1 := by
    intro entry hentry
    exact space.keyed entry.1 entry.2 (ExtTreeMap.mem_toList_iff_getElem?_eq_some.mp hentry)
  rw [hkey left hleft, hkey right hright]
  exact hlt

theorem snapshotPairs_congr {left right : PairSpace F} (h : left.held = right.held) :
    left.snapshotPairs = right.snapshotPairs := by
  have hnodup : ∀ space : PairSpace F, space.snapshotPairs.Nodup := by
    intro space
    refine space.snapshotPairs_ordered.imp ?_
    rintro first second hlt rfl
    rw [ReflOrd.compare_self] at hlt
    contradiction
  have hperm : left.snapshotPairs.Perm right.snapshotPairs := by
    rw [List.perm_ext_iff_of_nodup (hnodup left) (hnodup right)]
    intro pair
    rw [mem_snapshotPairs, mem_snapshotPairs, h]
  refine hperm.eq_of_pairwise ?_ left.snapshotPairs_ordered right.snapshotPairs_ordered
  intro first second _ _ hlt hgt
  rw [OrientedOrd.eq_swap, hgt] at hlt
  contradiction

end PairSpace

/-- A component whose pair space has been through the operations shows the last-write map of its
additions and removals, one by one and all at once. -/
theorem visible_store {F : Type} (c : Component F) (ops : List (SpaceOp F)) :
    let after : Component F := { c with space := PairSpace.empty.performAll ops }
    (∀ key, (after.getPair key).map (fun pair => (pair.pairKey, pair.value, pair.type)) =
      ((ops.filter fun op => op.writes = some key).getLast?.bind SpaceOp.leaves).map
        fun shown => (key, shown)) ∧
    (∀ pair, pair ∈ after.space.snapshotPairs ↔ after.getPair pair.pairKey = some pair) ∧
    after.space.snapshotPairs.Pairwise (fun left right => compare left.pairKey right.pairKey = .lt) ∧
    (∀ op : SpaceOp F, op.writes = none →
      (∀ key, ({ after with space := op.perform after.space } : Component F).getPair key =
        after.getPair key) ∧
      (op.perform after.space).snapshotPairs = after.space.snapshotPairs) := by
  intro after
  refine ⟨?_, fun pair => PairSpace.mem_snapshotPairs, PairSpace.snapshotPairs_ordered _, ?_⟩
  · intro key
    rw [← PairSpace.view_performAll_at, PairSpace.view_eq_held, Option.map_map]
    change (PairSpace.held _ key).map _ = _
    cases hheld : (PairSpace.empty.performAll ops : PairSpace F).held key with
    | none => rfl
    | some pair =>
      rw [Option.map_some, Option.map_some, PairSpace.held_pairKey hheld]
      rfl
  · intro op hop
    have hheld := SpaceOp.held_perform hop after.space
    exact ⟨fun key => congrFun hheld key, PairSpace.snapshotPairs_congr hheld⟩

end Srnp
