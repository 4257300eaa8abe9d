import Srnp.Lib.Transition

/-! Programs seen only by what they lock. A piece of code locks mutexes for the
length of a scope, runs callbacks that may call back into the program, and
suspends; which way its branches go and how often its loops run is left open.
Where every piece of code locks in the order of one ranking, and neither calls
back nor suspends under a lock, no interleaving of threads comes to a stand. -/
namespace LockOrder
open Transition

inductive Code (M : Type) where
  | done
  /-- Control leaves for a callback, which may make any call of the program. -/
  | callback
  /-- The thread waits for something that is not a mutex. -/
  | await
  /-- The scope of a `std::lock_guard`. -/
  | locked (mutex : M) (body : Code M)
  | seq (first second : Code M)
  | either (left right : Code M)
  /-- The same code about some object or other, such as a connection. -/
  | pick (body : Nat → Code M)
  | many (body : Code M)

namespace Code
variable {M : Type}

def block (codes : List (Code M)) : Code M := codes.foldr .seq .done

def optional (code : Code M) : Code M := .either .done code

end Code

inductive Item (M : Type) where
  | run (code : Code M)
  | unlock (mutex : M)

structure State (M : Type) where
  holder : M → Option ThreadId
  stack : ThreadId → List (Item M)

inductive Act (M : Type) where
  | begin (thread : ThreadId) (code : Code M)
  | advance (thread : ThreadId) (choice : Nat)
  | reenter (thread : ThreadId) (code : Code M)
  /-- An exception leaves what is left of the scope. -/
  | unwind (thread : ThreadId)

variable {M : Type}

/-- One step of code that takes no lock, as `choice` has it. -/
def Code.next (choice : Nat) : Code M → List (Code M)
  | .seq first second => [first, second]
  | .either left right => [if choice = 0 then left else right]
  | .pick body => [body choice]
  | .many body => if choice = 0 then [] else [body, .many body]
  | _ => []

def held : List (Item M) → List M
  | [] => []
  | .run _ :: rest => held rest
  | .unlock mutex :: rest => mutex :: held rest

@[simp] theorem held_run (codes : List (Code M)) (rest : List (Item M)) :
    held (codes.map .run ++ rest) = held rest := by
  induction codes with
  | nil => rfl
  | cons code others ih => exact ih

namespace State

def idle : State M := ⟨fun _ => none, fun _ => []⟩

def setStack (s : State M) (thread : ThreadId) (items : List (Item M)) : State M :=
  { s with stack := Function.update s.stack thread items }

variable [DecidableEq M]

def acquire (s : State M) (thread : ThreadId) (mutex : M) (items : List (Item M)) : State M :=
  { s.setStack thread items with holder := Function.update s.holder mutex (some thread) }

def release (s : State M) (thread : ThreadId) (mutex : M) (items : List (Item M)) : State M :=
  { s.setStack thread items with holder := Function.update s.holder mutex none }

/-- The next thing a thread does. A thread that wants a mutex waits until nobody
has it, be it that it has it itself. -/
def advance (s : State M) (thread : ThreadId) (choice : Nat) : Option (State M) :=
  match s.stack thread with
  | [] => none
  | .unlock mutex :: rest => some (s.release thread mutex rest)
  | .run (.locked mutex body) :: rest =>
      if s.holder mutex = none then
        some (s.acquire thread mutex (.run body :: .unlock mutex :: rest))
      else none
  | .run code :: rest => some (s.setStack thread ((code.next choice).map .run ++ rest))

def step (s : State M) : Act M → Option (State M)
  | .begin thread code =>
      match s.stack thread with
      | [] => some (s.setStack thread [.run code])
      | _ => none
  | .advance thread choice => s.advance thread choice
  | .reenter thread code =>
      match s.stack thread with
      | .run .callback :: _ => some (s.setStack thread (.run code :: s.stack thread))
      | _ => none
  | .unwind thread =>
      match s.stack thread with
      | .run _ :: rest => some (s.setStack thread rest)
      | _ => none

inductive Move (s : State M) : Act M → State M → Prop
  | begin {thread : ThreadId} {code : Code M} (hidle : s.stack thread = []) :
      Move s (.begin thread code) (s.setStack thread [.run code])
  | release {thread : ThreadId} {choice : Nat} {mutex : M} {rest : List (Item M)}
      (htop : s.stack thread = .unlock mutex :: rest) :
      Move s (.advance thread choice) (s.release thread mutex rest)
  | acquire {thread : ThreadId} {choice : Nat} {mutex : M} {body : Code M} {rest : List (Item M)}
      (htop : s.stack thread = .run (.locked mutex body) :: rest) (hfree : s.holder mutex = none) :
      Move s (.advance thread choice)
        (s.acquire thread mutex (.run body :: .unlock mutex :: rest))
  | run {thread : ThreadId} {choice : Nat} {code : Code M} {rest : List (Item M)}
      (htop : s.stack thread = .run code :: rest) :
      Move s (.advance thread choice) (s.setStack thread ((code.next choice).map .run ++ rest))
  | reenter {thread : ThreadId} {code : Code M} {rest : List (Item M)}
      (htop : s.stack thread = .run .callback :: rest) :
      Move s (.reenter thread code) (s.setStack thread (.run code :: s.stack thread))
  | unwind {thread : ThreadId} {code : Code M} {rest : List (Item M)}
      (htop : s.stack thread = .run code :: rest) :
      Move s (.unwind thread) (s.setStack thread rest)

theorem step_move {s t : State M} {act : Act M} (h : s.step act = some t) : s.Move act t := by
  cases act with
  | begin thread code =>
    simp only [step] at h
    split at h
    · rename_i hidle
      cases Option.some.inj h
      exact .begin hidle
    · contradiction
  | advance thread choice =>
    simp only [step, advance] at h
    split at h
    · contradiction
    · rename_i mutex rest htop
      cases Option.some.inj h
      exact .release htop
    · rename_i mutex body rest htop
      split at h
      · rename_i hfree
        cases Option.some.inj h
        exact .acquire htop hfree
      · contradiction
    · rename_i code rest hother htop
      cases Option.some.inj h
      exact .run htop
  | reenter thread code =>
    simp only [step] at h
    split at h
    · rename_i rest htop
      cases Option.some.inj h
      exact .reenter htop
    · contradiction
  | unwind thread =>
    simp only [step] at h
    split at h
    · rename_i code rest htop
      cases Option.some.inj h
      exact .unwind htop
    · contradiction

end State

/-! ### One ranking of the mutexes -/

section
variable (rank : M → Nat)

/-- The code takes mutexes above `low` only, each above the ones around it, and
leaves for a callback or a wait only where `low` is zero. -/
def Code.Ordered (low : Nat) : Code M → Prop
  | .done => True
  | .callback => low = 0
  | .await => low = 0
  | .locked mutex body => low < rank mutex ∧ body.Ordered (rank mutex)
  | .seq first second => first.Ordered low ∧ second.Ordered low
  | .either left right => left.Ordered low ∧ right.Ordered low
  | .pick body => ∀ choice, (body choice).Ordered low
  | .many body => body.Ordered low

def level : List (Item M) → Nat
  | [] => 0
  | .run _ :: rest => level rest
  | .unlock mutex :: _ => rank mutex

def Sound : List (Item M) → Prop
  | [] => True
  | .run code :: rest => code.Ordered rank (level rank rest) ∧ Sound rest
  | .unlock mutex :: rest => level rank rest < rank mutex ∧ Sound rest

/-- Every thread locks in order, and the holder of a mutex is the thread that is
going to unlock it. -/
structure Orderly (s : State M) : Prop where
  sound : ∀ thread, Sound rank (s.stack thread)
  holds : ∀ mutex thread, s.holder mutex = some thread ↔ mutex ∈ held (s.stack thread)

def Making (calls : Code M → Prop) (_ : State M) : Act M → Prop
  | .begin _ code => calls code
  | .reenter _ code => calls code
  | _ => True

end

variable {rank : M → Nat}

@[simp] theorem Code.ordered_block {low : Nat} (codes : List (Code M)) :
    (Code.block codes).Ordered rank low ↔ ∀ code ∈ codes, code.Ordered rank low := by
  induction codes with
  | nil => exact iff_of_true trivial nofun
  | cons code rest ih =>
    rw [List.forall_mem_cons, ← ih]
    rfl

theorem Code.Ordered.next {low : Nat} {code : Code M} (h : code.Ordered rank low) (choice : Nat) :
    ∀ other ∈ code.next choice, other.Ordered rank low := by
  cases code with
  | seq first second =>
    intro other hother
    simp only [Code.next, List.mem_cons, List.not_mem_nil, or_false] at hother
    obtain rfl | rfl := hother
    · exact h.1
    · exact h.2
  | either left right =>
    intro other hother
    rw [List.mem_singleton.mp hother]
    split
    · exact h.1
    · exact h.2
  | pick body =>
    intro other hother
    rw [List.mem_singleton.mp hother]
    exact h choice
  | many body =>
    intro other hother
    simp only [Code.next] at hother
    split at hother
    · contradiction
    · simp only [List.mem_cons, List.not_mem_nil, or_false] at hother
      obtain rfl | rfl := hother
      · exact h
      · exact h
  | _ =>
    intro other hother
    contradiction

@[simp] theorem level_run (codes : List (Code M)) (rest : List (Item M)) :
    level rank (codes.map .run ++ rest) = level rank rest := by
  induction codes with
  | nil => rfl
  | cons code others ih => exact ih

theorem Sound.run {codes : List (Code M)} {rest : List (Item M)}
    (hcodes : ∀ code ∈ codes, code.Ordered rank (level rank rest)) (hrest : Sound rank rest) :
    Sound rank (codes.map .run ++ rest) := by
  induction codes with
  | nil => exact hrest
  | cons code others ih =>
    refine ⟨?_, ih fun other hother => hcodes other (List.mem_cons_of_mem _ hother)⟩
    change code.Ordered rank (level rank (others.map .run ++ rest))
    rw [level_run]
    exact hcodes code List.mem_cons_self

theorem Sound.rank_le {items : List (Item M)} (h : Sound rank items) {mutex : M}
    (hmutex : mutex ∈ held items) : rank mutex ≤ level rank items := by
  induction items with
  | nil => contradiction
  | cons item rest ih =>
    cases item with
    | run code => exact ih h.2 hmutex
    | unlock last =>
      rcases List.mem_cons.mp hmutex with rfl | hrest
      · exact Nat.le_refl _
      · exact (ih h.2 hrest).trans (Nat.le_of_lt h.1)

theorem held_eq_nil (hpositive : ∀ mutex, 0 < rank mutex) {items : List (Item M)}
    (h : level rank items = 0) : held items = [] := by
  induction items with
  | nil => rfl
  | cons item rest ih =>
    cases item with
    | run code => exact ih h
    | unlock mutex =>
      have hrank := hpositive mutex
      change rank mutex = 0 at h
      omega

theorem level_le {top : Nat} (htop : ∀ mutex, rank mutex ≤ top) (items : List (Item M)) :
    level rank items ≤ top := by
  induction items with
  | nil => exact Nat.zero_le _
  | cons item rest ih =>
    cases item with
    | run code => exact ih
    | unlock mutex => exact htop mutex

theorem Orderly.idle : Orderly rank (State.idle : State M) where
  sound _ := trivial
  holds mutex thread := by simp [State.idle, held]

namespace Orderly
variable {s t : State M} {thread : ThreadId} {items : List (Item M)}

theorem setStack (h : Orderly rank s) (hsound : Sound rank items)
    (hheld : held items = held (s.stack thread)) : Orderly rank (s.setStack thread items) where
  sound other := by
    simp only [State.setStack, Function.update_apply]
    split
    · exact hsound
    · exact h.sound other
  holds mutex other := by
    simp only [State.setStack, Function.update_apply]
    split
    · rename_i heq
      rw [hheld, ← heq]
      exact h.holds mutex other
    · exact h.holds mutex other

theorem unlocked (h : Orderly rank s) (hpositive : ∀ mutex, 0 < rank mutex) {code : Code M}
    {rest : List (Item M)} (htop : s.stack thread = .run code :: rest)
    (hcode : code = .callback ∨ code = .await) (mutex : M) : s.holder mutex ≠ some thread := by
  have hsound := h.sound thread
  rw [htop] at hsound
  have hlevel : level rank rest = 0 := by
    rcases hcode with rfl | rfl
    · exact hsound.1
    · exact hsound.1
  intro hholder
  have hmem := (h.holds mutex thread).mp hholder
  rw [htop] at hmem
  change mutex ∈ held rest at hmem
  rw [held_eq_nil hpositive hlevel] at hmem
  contradiction

variable [DecidableEq M]

theorem acquire (h : Orderly rank s) {mutex : M} {body : Code M} {rest : List (Item M)}
    (htop : s.stack thread = .run (.locked mutex body) :: rest) (hfree : s.holder mutex = none) :
    Orderly rank (s.acquire thread mutex (.run body :: .unlock mutex :: rest)) where
  sound other := by
    simp only [State.acquire, State.setStack, Function.update_apply]
    split
    · have hsound := h.sound thread
      rw [htop] at hsound
      exact ⟨hsound.1.2, hsound.1.1, hsound.2⟩
    · exact h.sound other
  holds wanted other := by
    have hbefore := h.holds wanted other
    simp only [State.acquire, State.setStack, Function.update_apply]
    by_cases hmutex : wanted = mutex
    · subst hmutex
      rw [hfree] at hbefore
      by_cases heq : other = thread
      · simp [heq, held]
      · have hnot : wanted ∉ held (s.stack other) := fun hmem => nomatch hbefore.mpr hmem
        simp [heq, hnot, Ne.symm heq]
    · rw [if_neg hmutex, hbefore]
      split
      · rename_i heq
        rw [heq, htop]
        simp [held, hmutex]
      · rfl

theorem release (h : Orderly rank s) {mutex : M} {rest : List (Item M)}
    (htop : s.stack thread = .unlock mutex :: rest) :
    Orderly rank (s.release thread mutex rest) where
  sound other := by
    simp only [State.release, State.setStack, Function.update_apply]
    split
    · have hsound := h.sound thread
      rw [htop] at hsound
      exact hsound.2
    · exact h.sound other
  holds wanted other := by
    have hbefore := h.holds wanted other
    simp only [State.release, State.setStack, Function.update_apply]
    by_cases hmutex : wanted = mutex
    · subst hmutex
      have howner : s.holder wanted = some thread :=
        (h.holds wanted thread).mpr (by simp [htop, held])
      rw [if_pos rfl]
      refine iff_of_false nofun ?_
      split
      · intro hmem
        have hsound := h.sound thread
        rw [htop] at hsound
        have hle := hsound.2.rank_le hmem
        have hlt := hsound.1
        omega
      · rename_i hother
        intro hmem
        rw [howner] at hbefore
        exact hother (Option.some.inj (hbefore.mpr hmem)).symm
    · rw [if_neg hmutex, hbefore]
      split
      · rename_i heq
        rw [heq, htop]
        simp [held, hmutex]
      · rfl

theorem step {calls : Code M → Prop} (hcalls : ∀ code, calls code → code.Ordered rank 0)
    (h : Orderly rank s) {act : Act M} (hguard : Making calls s act) (hstep : s.step act = some t) :
    Orderly rank t := by
  cases State.step_move hstep with
  | @begin thread code hidle =>
    refine h.setStack ⟨hcalls code hguard, trivial⟩ ?_
    rw [hidle]
    rfl
  | release htop => exact h.release htop
  | acquire htop hfree => exact h.acquire htop hfree
  | @run thread choice code rest htop =>
    have hsound := h.sound thread
    rw [htop] at hsound
    refine h.setStack (Sound.run (hsound.1.next choice) hsound.2) ?_
    rw [htop, held_run]
    rfl
  | @reenter thread code rest htop =>
    have hsound := h.sound thread
    have hlevel : level rank (s.stack thread) = 0 := by
      rw [htop] at hsound ⊢
      exact hsound.1
    refine h.setStack ⟨?_, hsound⟩ rfl
    rw [hlevel]
    exact hcalls code hguard
  | @unwind thread code rest htop =>
    have hsound := h.sound thread
    rw [htop] at hsound
    refine h.setStack hsound.2 ?_
    rw [htop]
    rfl

theorem of_reach {calls : Code M → Prop} (hcalls : ∀ code, calls code → code.Ordered rank 0)
    (h : Reach State.step (Making calls) State.idle s) : Orderly rank s :=
  h.invariant .idle fun _ _ _ hbefore hguard hstep => hbefore.step hcalls hguard hstep

theorem blocked (h : Orderly rank s) (hbusy : s.stack thread ≠ [])
    (hblocked : s.advance thread 0 = none) :
    ∃ other, s.stack other ≠ [] ∧ level rank (s.stack thread) < level rank (s.stack other) := by
  unfold State.advance at hblocked
  split at hblocked
  · rename_i hidle
    exact absurd hidle hbusy
  · contradiction
  · rename_i mutex body rest htop
    split at hblocked
    · contradiction
    · rename_i htaken
      obtain ⟨other, hother⟩ := Option.ne_none_iff_exists'.mp htaken
      have hmem := (h.holds mutex other).mp hother
      refine ⟨other, ?_, ?_⟩
      · intro hidle
        rw [hidle] at hmem
        contradiction
      · have hsound := h.sound thread
        rw [htop] at hsound
        have hle := (h.sound other).rank_le hmem
        rw [htop]
        exact Nat.lt_of_lt_of_le hsound.1.1 hle
  · contradiction

/-- While a thread has something to do, some thread can go on. The chain of
threads that wait for each other climbs in rank, so it ends. -/
theorem progress (h : Orderly rank s) {top : Nat} (htop : ∀ mutex, rank mutex ≤ top)
    (hbusy : s.stack thread ≠ []) : ∃ other, (s.advance other 0).isSome := by
  induction hgap : top - level rank (s.stack thread) using Nat.strong_induction_on
    generalizing thread with
  | _ gap ih =>
    cases hadvance : s.advance thread 0 with
    | some after => exact ⟨thread, by rw [hadvance]; rfl⟩
    | none =>
      obtain ⟨other, hother, hlt⟩ := h.blocked hbusy hadvance
      have hle := level_le htop (s.stack other)
      exact ih (top - level rank (s.stack other)) (by omega) hother rfl

end Orderly

end LockOrder
