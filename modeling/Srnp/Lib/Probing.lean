import Mathlib

/-! Stepping from one candidate to the next until one is free. There is room
for a number of steps; as long as fewer candidates are taken than can be
visited, the search ends at a free one. -/
namespace Probing
variable {α : Type} {next : α → α} {taken : α → Bool}

/-- The first candidate that is not taken, if it comes within `room` steps. -/
def probe (next : α → α) (taken : α → Bool) : Nat → α → Option α
  | 0, candidate => if taken candidate then none else some candidate
  | room + 1, candidate =>
      if taken candidate then probe next taken room (next candidate) else some candidate

theorem probe_some {room : Nat} {candidate found : α}
    (h : probe next taken room candidate = some found) :
    taken found = false ∧ ∃ steps ≤ room, found = next^[steps] candidate := by
  induction room generalizing candidate with
  | zero =>
    simp only [probe] at h
    split at h
    · contradiction
    · rename_i hfree
      cases Option.some.inj h
      exact ⟨Bool.not_eq_true _ ▸ hfree, 0, Nat.le_refl 0, rfl⟩
  | succ room ih =>
    simp only [probe] at h
    split at h
    · obtain ⟨hfree, steps, hsteps, hfound⟩ := ih h
      exact ⟨hfree, steps + 1, Nat.succ_le_succ hsteps, hfound⟩
    · rename_i hfree
      cases Option.some.inj h
      exact ⟨Bool.not_eq_true _ ▸ hfree, 0, Nat.zero_le _, rfl⟩

theorem probe_none {room : Nat} {candidate : α} (h : probe next taken room candidate = none) :
    ∀ steps ≤ room, taken (next^[steps] candidate) = true := by
  induction room generalizing candidate with
  | zero =>
    intro steps hsteps
    simp only [probe] at h
    split at h
    · rename_i htaken
      cases Nat.le_zero.mp hsteps
      exact htaken
    · contradiction
  | succ room ih =>
    intro steps hsteps
    simp only [probe] at h
    split at h
    · rename_i htaken
      cases steps with
      | zero => exact htaken
      | succ steps => exact ih h steps (Nat.le_of_succ_le_succ hsteps)
    · contradiction

/-- What was stepped past stays stepped past: the search ends where it ended
before if nothing has become free and its end is not taken. -/
theorem probe_again {taken' : α → Bool} (hkept : ∀ x, taken x = true → taken' x = true)
    {room : Nat} {candidate found : α} (h : probe next taken room candidate = some found)
    (hfree : taken' found = false) : probe next taken' room candidate = some found := by
  have hfirst : ∀ {candidate : α}, ¬taken candidate = true → some candidate = some found →
      ¬taken' candidate = true := by
    intro candidate _ hfound
    cases Option.some.inj hfound
    exact Bool.eq_false_iff.mp hfree
  induction room generalizing candidate with
  | zero =>
    simp only [probe] at h ⊢
    split at h
    · contradiction
    · rename_i hopen
      rw [if_neg (hfirst hopen h)]
      exact h
  | succ room ih =>
    simp only [probe] at h ⊢
    split at h
    · rename_i htaken
      rw [if_pos (hkept candidate htaken)]
      exact ih h
    · rename_i hopen
      rw [if_neg (hfirst hopen h)]
      exact h

theorem probe_isSome {room : Nat} {candidate : α} {occupied : List α}
    (htaken : ∀ x, taken x = true → x ∈ occupied)
    (hdistinct : ((List.range (room + 1)).map fun steps => next^[steps] candidate).Nodup)
    (hfew : occupied.length ≤ room) : ∃ found, probe next taken room candidate = some found := by
  by_contra hnone
  have hall := probe_none (Option.eq_none_iff_forall_ne_some.mpr fun found hfound =>
    hnone ⟨found, hfound⟩)
  have hsubset : ((List.range (room + 1)).map fun steps => next^[steps] candidate) ⊆ occupied := by
    intro visited hvisited
    obtain ⟨steps, hsteps, rfl⟩ := List.mem_map.mp hvisited
    exact htaken _ (hall steps (Nat.le_of_lt_succ (List.mem_range.mp hsteps)))
  have hlength := (List.subperm_of_subset hdistinct hsubset).length_le
  rw [List.length_map, List.length_range] at hlength
  omega

end Probing
