import Srnp.VisibleStore
import Srnp.CallbackTable

/-! Which callbacks run when a pair is applied, over any sequence of operations
on a pair space. The roster is what the callers see: a callback joins it under
the handle it was given and leaves it when that handle is passed to
`removeCallback`. Handles grow, so the maps of the space, which are ordered by
handle, list the callbacks in the order in which they joined. -/
namespace Srnp
open Std

structure Registered (F : Type) where
  handle : CallbackHandle
  place : Option PairKey
  callback : F

namespace SpaceOp
variable {F : Type}

def registers : SpaceOp F → Bool
  | .addCallback .. => true
  | .addCallbackToAll _ => true
  | _ => false

def record (space : PairSpace F) (roster : List (Registered F)) :
    SpaceOp F → List (Registered F)
  | .addCallback key callback now =>
      roster ++ [⟨(space.addCallback key callback now).2, some key, callback⟩]
  | .addCallbackToAll callback =>
      roster ++ [⟨(space.addCallbackToAll callback).2, none, callback⟩]
  | .removeCallback handle => roster.filter (·.handle ≠ handle)
  | _ => roster

end SpaceOp

namespace PairSpace
variable {F : Type}

def recordAll (space : PairSpace F) (roster : List (Registered F)) :
    List (SpaceOp F) → List (Registered F)
  | [] => roster
  | op :: rest => (op.perform space).recordAll (op.record space roster) rest

def rosterAt (roster : List (Registered F)) (place : Option PairKey) : List F :=
  (roster.filter (·.place = place)).map (·.callback)

/-- The space calls what is on the roster, under handles that `issued` calls have given out. -/
structure Rostered (space : PairSpace F) (roster : List (Registered F)) (issued : Nat) : Prop where
  filed : space.Filed
  next : space.nextCallbackHandle.toNat = issued
  ascending : roster.Pairwise fun earlier later => earlier.handle < later.handle
  issued : ∀ joined ∈ roster, joined.handle.toNat ≤ issued
  named : ∀ handle place callback,
    space.callbackAt handle = some (place, callback) ↔ ⟨handle, place, callback⟩ ∈ roster

variable {space : PairSpace F} {roster : List (Registered F)} {issued : Nat}

theorem Rostered.empty : (PairSpace.empty : PairSpace F).Rostered [] 0 where
  filed := .empty
  next := rfl
  ascending := .nil
  issued := by simp
  named := by simp [callbackAt, PairSpace.empty]

theorem Rostered.same (h : space.Rostered roster issued) {after : PairSpace F}
    (hsame : space.SameCallbacks after) : after.Rostered roster issued where
  filed := hsame.filed h.filed
  next := by
    rw [hsame.nextCallbackHandle]
    exact h.next
  ascending := h.ascending
  issued := h.issued
  named := by
    rw [hsame.callbackAt]
    exact h.named

theorem Rostered.next_toNat (h : space.Rostered roster issued) (hroom : issued + 1 < 2 ^ 64) :
    (space.nextCallbackHandle + 1).toNat = issued + 1 := by
  rw [UInt64.toNat_add, h.next]
  exact Nat.mod_eq_of_lt hroom

theorem Rostered.fresh (h : space.Rostered roster issued) (hroom : issued + 1 < 2 ^ 64) :
    space.callbackAt (space.nextCallbackHandle + 1) = none := by
  by_contra hsome
  obtain ⟨⟨place, callback⟩, hnamed⟩ := Option.ne_none_iff_exists'.mp hsome
  have hle := h.issued _ ((h.named _ _ _).mp hnamed)
  have hnext := h.next_toNat hroom
  dsimp only at hle
  omega

theorem Rostered.join (h : space.Rostered roster issued) (hroom : issued + 1 < 2 ^ 64)
    {place : Option PairKey} {callback : F} {after : PairSpace F} (hfiled : after.Filed)
    (hnext : after.nextCallbackHandle = space.nextCallbackHandle + 1)
    (hnamed : after.callbackAt = Function.update space.callbackAt (space.nextCallbackHandle + 1)
      (some (place, callback))) :
    after.Rostered (roster ++ [⟨space.nextCallbackHandle + 1, place, callback⟩]) (issued + 1) := by
  have hnumber := h.next_toNat hroom
  refine ⟨hfiled, ?_, ?_, ?_, ?_⟩
  · rw [hnext]
    exact hnumber
  · rw [List.pairwise_append]
    refine ⟨h.ascending, List.pairwise_singleton _ _, ?_⟩
    intro earlier hearlier later hlater
    rw [List.mem_singleton.mp hlater, UInt64.lt_iff_toNat_lt]
    have hle := h.issued earlier hearlier
    dsimp only
    omega
  · intro joined hjoined
    rcases List.mem_append.mp hjoined with hold | hnew
    · have hle := h.issued joined hold
      omega
    · rw [List.mem_singleton.mp hnew]
      exact Nat.le_of_eq hnumber
  · intro handle asked found
    rw [hnamed, Function.update_apply, List.mem_append, List.mem_singleton]
    split
    · rename_i heq
      subst heq
      have hnot : (⟨space.nextCallbackHandle + 1, asked, found⟩ : Registered F) ∉ roster := by
        intro hmem
        have hle := h.issued _ hmem
        dsimp only at hle
        omega
      simp [hnot, eq_comm]
    · rename_i hother
      rw [h.named]
      simp [hother]

theorem Rostered.perform (h : space.Rostered roster issued) (op : SpaceOp F)
    (hroom : op.registers → issued + 1 < 2 ^ 64) :
    (op.perform space).Rostered (op.record space roster)
      (if op.registers then issued + 1 else issued) := by
  cases op with
  | addPair pair now => exact h.same (.addPair space pair now)
  | removePair key => exact h.same (.removePair space key)
  | addSubscription key subscriber now => exact h.same (.addSubscription space key subscriber now)
  | removeSubscription key subscriber => exact h.same (.removeSubscription space key subscriber)
  | addSubscriptionToAll subscriber => exact h.same (.addSubscriptionToAll space subscriber)
  | removeSubscriptionToAll subscriber => exact h.same (.removeSubscriptionToAll space subscriber)
  | addCallback key callback now =>
    have hfresh := h.fresh (hroom rfl)
    exact h.join (hroom rfl) (h.filed.addCallback hfresh key callback now) rfl
      (h.filed.callbackAt_addCallback hfresh key callback now)
  | addCallbackToAll callback =>
    have hfresh := h.fresh (hroom rfl)
    exact h.join (hroom rfl) (h.filed.addCallbackToAll hfresh callback) rfl
      (h.filed.callbackAt_addCallbackToAll hfresh callback)
  | removeCallback handle =>
    refine ⟨h.filed.removeCallback handle, ?_, h.ascending.filter _, ?_, ?_⟩
    · rw [← h.next]
      simp only [SpaceOp.perform, removeCallback]
      split
      · rfl
      · dsimp only
        split <;> rfl
    · exact fun joined hjoined => h.issued joined (List.mem_of_mem_filter hjoined)
    · intro other place callback
      change (space.removeCallback handle).callbackAt other = _ ↔ _ ∈ List.filter _ roster
      rw [h.filed.callbackAt_removeCallback, Function.update_apply, List.mem_filter]
      split
      · rename_i heq
        simp [heq]
      · rename_i hother
        rw [h.named]
        simp [hother]

theorem Rostered.performAll (h : space.Rostered roster issued) {ops : List (SpaceOp F)}
    (hroom : issued + ops.countP SpaceOp.registers < 2 ^ 64) :
    (space.performAll ops).Rostered (space.recordAll roster ops)
      (issued + ops.countP SpaceOp.registers) := by
  induction ops generalizing space roster issued with
  | nil => exact h
  | cons op rest ih =>
    rw [List.countP_cons] at hroom ⊢
    have hstep := h.perform op (by
      intro hregisters
      rw [if_pos hregisters] at hroom
      omega)
    have hcount : issued + (rest.countP SpaceOp.registers + if op.registers then 1 else 0) =
        (if op.registers then issued + 1 else issued) + rest.countP SpaceOp.registers := by
      split <;> omega
    rw [hcount] at hroom ⊢
    exact ih hstep hroom

/-! ### The maps, read off the roster -/

theorem toList_eq_of_mem {β : Type} {map : ExtTreeMap CallbackHandle β}
    {list : List (CallbackHandle × β)}
    (hsorted : list.Pairwise fun earlier later => earlier.1 < later.1)
    (h : ∀ (handle : CallbackHandle) (value : β), map[handle]? = some value ↔ (handle, value) ∈ list) :
    map.toList = list := by
  have hordered : map.toList.Pairwise fun earlier later => earlier.1 < later.1 := by
    refine (ExtTreeMap.ordered_keys_toList (t := map)).imp ?_
    intro earlier later hlt
    exact compareOfLessAndEq_eq_lt.mp hlt
  have hnodup : ∀ entries : List (CallbackHandle × β),
      entries.Pairwise (fun earlier later => earlier.1 < later.1) → entries.Nodup := by
    intro entries hentries
    refine hentries.imp ?_
    rintro earlier later hlt rfl
    exact UInt64.lt_irrefl _ hlt
  have hperm : map.toList.Perm list := by
    rw [List.perm_ext_iff_of_nodup (hnodup _ hordered) (hnodup _ hsorted)]
    rintro ⟨handle, value⟩
    rw [ExtTreeMap.mem_toList_iff_getElem?_eq_some]
    exact h handle value
  refine hperm.eq_of_pairwise ?_ hordered hsorted
  intro earlier later _ _ hlt hgt
  exact absurd (UInt64.lt_trans hlt hgt) (UInt64.lt_irrefl _)

theorem Rostered.callbacks_at (h : space.Rostered roster issued) (place : Option PairKey)
    {map : ExtTreeMap CallbackHandle F}
    (hmap : ∀ (handle : CallbackHandle) (callback : F),
      map[handle]? = some callback ↔ space.Runs handle (place, callback)) :
    map.toList.map (·.2) = rosterAt roster place := by
  have hlist : map.toList = (roster.filter (·.place = place)).map fun joined =>
      (joined.handle, joined.callback) := by
    apply toList_eq_of_mem
    · rw [List.pairwise_map]
      exact h.ascending.filter _
    · intro handle callback
      rw [hmap, h.filed.runs_iff, h.named, List.mem_map]
      constructor
      · intro hmem
        exact ⟨⟨handle, place, callback⟩, List.mem_filter.mpr ⟨hmem, by simp⟩, rfl⟩
      · rintro ⟨⟨found, asked, filed⟩, hmem, heq⟩
        cases heq
        obtain ⟨hjoined, hplace⟩ := List.mem_filter.mp hmem
        rw [decide_eq_true_iff] at hplace
        subst hplace
        exact hjoined
  rw [hlist, List.map_map]
  rfl

theorem Rostered.watchers (h : space.Rostered roster issued) (key : PairKey) :
    space.watchers key = rosterAt roster none ++ rosterAt roster (some key) := by
  have hentry : (space.callbacksAt key).toList.map (·.2) = rosterAt roster (some key) :=
    h.callbacks_at (some key) fun _ _ => Iff.rfl
  have huniversal : space.universalCallbacks = rosterAt roster none :=
    h.callbacks_at none fun _ _ => Iff.rfl
  rw [PairSpace.watchers, huniversal, ← hentry, callbacksAt]
  cases space.find key <;> rfl

theorem Rostered.removeCallback_unknown (h : space.Rostered roster issued)
    {handle : CallbackHandle} (hunknown : ∀ joined ∈ roster, joined.handle ≠ handle) :
    space.removeCallback handle = space := by
  have hnone : space.callbackAt handle = none := by
    by_contra hsome
    obtain ⟨⟨place, callback⟩, hnamed⟩ := Option.ne_none_iff_exists'.mp hsome
    exact hunknown _ ((h.named _ _ _).mp hnamed) rfl
  obtain ⟨howners, huniversal, _⟩ := h.filed.of_callbackAt_none hnone
  have hsame : space.universal.erase handle = space.universal := by
    apply ExtTreeMap.ext_getElem?
    intro other
    rw [getElem?_erase_handle]
    split
    · rename_i heq
      rw [heq, ExtTreeMap.getElem?_eq_none huniversal]
    · rfl
  rw [removeCallback_universal (ExtTreeMap.getElem?_eq_none howners), hsame]

/-- Whatever was done to a space, the callbacks collected when a pair is applied are those that
were registered for it or for every pair and whose handles have not been cancelled since: each of
them once, the universal ones first, and otherwise in the order of their registration. To cancel a
handle that is not on the roster changes nothing. -/
theorem live_callbacks_run (ops : List (SpaceOp F)) (hcount : ops.countP SpaceOp.registers < 2 ^ 64) :
    let space : PairSpace F := PairSpace.empty.performAll ops
    let roster := PairSpace.empty.recordAll [] ops
    (∀ pair now, let added := space.addPair pair now
      added.1.callbacksFor added.2 =
        rosterAt roster none ++ rosterAt roster (some pair.pairKey)) ∧
    roster.Pairwise (fun earlier later => earlier.handle < later.handle) ∧
    ∀ handle, (∀ joined ∈ roster, joined.handle ≠ handle) → space.removeCallback handle = space := by
  intro space roster
  have hrostered := Rostered.performAll (F := F) .empty (by rwa [Nat.zero_add] : _ < 2 ^ 64)
  refine ⟨?_, hrostered.ascending, ?_⟩
  · intro pair now
    dsimp only
    rw [callbacksFor_addPair]
    exact hrostered.watchers pair.pairKey
  · intro handle hunknown
    exact hrostered.removeCallback_unknown hunknown

/-! Callbacks 5 and 6 for one pair, 7 for all pairs; 5 is cancelled and the pair removed. -/

def rostered : List (SpaceOp Nat) :=
  [.addCallback ⟨1000, [107]⟩ 5 1, .addCallback ⟨1000, [107]⟩ 6 2, .addCallbackToAll 7,
    .removeCallback 1, .removePair ⟨1000, [107]⟩]

theorem live_callbacks_run_cancelled :
    let added := (PairSpace.empty.performAll rostered).addPair
      { owner := 1000, key := [107], value := [8] } 3
    added.1.callbacksFor added.2 = [7, 6] ∧
      (PairSpace.empty.performAll rostered).removeCallback 1 =
        PairSpace.empty.performAll rostered := by
  have hlive := live_callbacks_run rostered (by decide)
  constructor
  · rw [hlive.1]
    decide
  · exact hlive.2.2 1 (by decide)

end PairSpace

end Srnp
