import Mathlib

/-! The meaning of a blackboard: a map in which the last write to a key wins.
Stores are plain functions, so that two parties may be compared key by key. -/
namespace LastWrite

variable {κ ν : Type}

/-- A write puts a value under a key or takes the key away. -/
inductive Write (κ ν : Type) where
  | put (key : κ) (value : ν)
  | remove (key : κ)
deriving DecidableEq

namespace Write

def key : Write κ ν → κ
  | .put key _ => key
  | .remove key => key

def value : Write κ ν → Option ν
  | .put _ value => some value
  | .remove _ => none

def map {μ : Type} (f : ν → μ) : Write κ ν → Write κ μ
  | .put key value => .put key (f value)
  | .remove key => .remove key

@[simp] theorem key_map {μ : Type} (f : ν → μ) (write : Write κ ν) :
    (write.map f).key = write.key := by
  cases write <;> rfl

@[simp] theorem value_map {μ : Type} (f : ν → μ) (write : Write κ ν) :
    (write.map f).value = write.value.map f := by
  cases write <;> rfl

end Write

abbrev Store (κ ν : Type) := κ → Option ν

section
variable [DecidableEq κ]

def Store.apply (store : Store κ ν) (write : Write κ ν) : Store κ ν :=
  Function.update store write.key write.value

def Store.replay (store : Store κ ν) (writes : List (Write κ ν)) : Store κ ν :=
  writes.foldl Store.apply store

def writesAt (key : κ) (writes : List (Write κ ν)) : List (Write κ ν) :=
  writes.filter fun write => write.key = key

theorem Store.apply_same {store : Store κ ν} {write : Write κ ν} {key : κ}
    (h : write.key = key) : store.apply write key = write.value := by
  subst h
  simp [Store.apply]

theorem Store.apply_other {store : Store κ ν} {write : Write κ ν} {key : κ}
    (h : write.key ≠ key) : store.apply write key = store key := by
  simp [Store.apply, Function.update_of_ne (Ne.symm h)]

@[simp] theorem Store.apply_remove (store : Store κ ν) (key : κ) :
    store.apply (.remove key) key = none :=
  Store.apply_same rfl

theorem Store.apply_remove_other (store : Store κ ν) {removed key : κ} (h : removed ≠ key) :
    store.apply (.remove removed) key = store key :=
  Store.apply_other h

theorem Store.apply_put_eq (store : Store κ ν) (written key : κ) (value : ν) :
    store.apply (.put written value) key = if written = key then some value else store key := by
  split
  · rename_i heq
    exact Store.apply_same heq
  · rename_i hne
    exact Store.apply_other hne

theorem Store.apply_remove_eq (store : Store κ ν) (removed key : κ) :
    store.apply (.remove removed) key = if removed = key then none else store key := by
  split
  · rename_i heq
    exact Store.apply_same heq
  · rename_i hne
    exact Store.apply_other hne

@[simp] theorem Store.replay_nil (store : Store κ ν) : store.replay [] = store := rfl

@[simp] theorem Store.replay_cons (store : Store κ ν) (write : Write κ ν)
    (rest : List (Write κ ν)) :
    store.replay (write :: rest) = (store.apply write).replay rest := rfl

theorem Store.replay_append (store : Store κ ν) (first second : List (Write κ ν)) :
    store.replay (first ++ second) = (store.replay first).replay second := by
  simp [Store.replay]

theorem Store.replay_forall {P : κ → ν → Prop} {store : Store κ ν} {writes : List (Write κ ν)}
    (hstore : ∀ key value, store key = some value → P key value)
    (hwrites : ∀ write ∈ writes, ∀ value, write.value = some value → P write.key value) :
    ∀ key value, store.replay writes key = some value → P key value := by
  induction writes generalizing store with
  | nil => exact hstore
  | cons write rest ih =>
    apply ih
    · intro key value hvalue
      by_cases heq : write.key = key
      · rw [Store.apply_same heq] at hvalue
        rw [← heq]
        exact hwrites write List.mem_cons_self value hvalue
      · rw [Store.apply_other heq] at hvalue
        exact hstore key value hvalue
    · intro later hlater
      exact hwrites later (List.mem_cons_of_mem write hlater)

/-- Only the last write to a key matters to that key. -/
theorem Store.replay_at (store : Store κ ν) (writes : List (Write κ ν)) (key : κ) :
    store.replay writes key =
      match (writesAt key writes).getLast? with
      | some write => write.value
      | none => store key := by
  induction writes using List.reverseRecOn with
  | nil => rfl
  | append_singleton front last ih =>
    rw [Store.replay_append]
    simp only [Store.replay_cons, Store.replay_nil]
    by_cases h : last.key = key
    · simp [Store.apply_same h, writesAt, h]
    · rw [Store.apply_other h, ih]
      simp [writesAt, h]

theorem Store.replay_puts (store : Store κ ν) (keys : List κ) (value : ν) (key : κ) :
    store.replay (keys.map fun put => .put put value) key =
      if key ∈ keys then some value else store key := by
  induction keys generalizing store with
  | nil => rfl
  | cons first rest ih =>
    rw [List.map_cons, Store.replay_cons, ih]
    by_cases hrest : key ∈ rest
    · rw [if_pos hrest, if_pos (List.mem_cons_of_mem first hrest)]
    · rw [if_neg hrest, Store.apply_put_eq]
      refine if_congr ?_ rfl rfl
      rw [List.mem_cons, or_iff_left hrest, eq_comm]

theorem Store.replay_congr {left right : Store κ ν} {key : κ} (h : left key = right key)
    (writes : List (Write κ ν)) : left.replay writes key = right.replay writes key := by
  rw [Store.replay_at, Store.replay_at, h]

theorem Store.replay_map {μ : Type} (f : ν → μ) (store : Store κ ν)
    (writes : List (Write κ ν)) (key : κ) :
    Store.replay (fun key => (store key).map f) (writes.map (Write.map f)) key =
      (store.replay writes key).map f := by
  induction writes using List.reverseRecOn with
  | nil => rfl
  | append_singleton front last ih =>
    rw [List.map_append, Store.replay_append, Store.replay_append]
    simp only [List.map_cons, List.map_nil, Store.replay_cons, Store.replay_nil]
    by_cases h : last.key = key
    · rw [Store.apply_same h, Store.apply_same ((last.key_map f).trans h), last.value_map]
    · rw [Store.apply_other h, Store.apply_other (by rwa [last.key_map f]), ih]

end

end LastWrite
