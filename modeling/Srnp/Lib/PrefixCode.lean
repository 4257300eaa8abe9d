import Mathlib

/-! Codes whose words can be told apart at the front of a text. A text that is
written word by word, with nothing in between, is then read in one way only. -/
namespace PrefixCode
variable {α β : Type}

/-- A word is split off the front of any text in one way only, and is not empty. -/
structure PrefixFree (code : α → List β) : Prop where
  split : ∀ a b after rest, code a ++ after = code b ++ rest → a = b ∧ after = rest
  nonempty : ∀ a, code a ≠ []

theorem PrefixFree.of_reader {code : α → List β} (read : List β → Option (α × List β))
    (hread : ∀ a rest, read (code a ++ rest) = some (a, rest)) (hnonempty : ∀ a, code a ≠ []) :
    PrefixFree code where
  split := by
    intro a b after rest h
    have hsame := congrArg read h
    rw [hread, hread] at hsame
    exact Prod.mk.inj (Option.some.inj hsame)
  nonempty := hnonempty

theorem PrefixFree.flatMap_injective {code : α → List β} (h : PrefixFree code) :
    Function.Injective (List.flatMap code) := by
  intro first
  induction first with
  | nil =>
    intro second hsame
    cases second with
    | nil => rfl
    | cons b second =>
      rw [List.flatMap_nil, List.flatMap_cons] at hsame
      exact absurd (List.append_eq_nil_iff.mp hsame.symm).1 (h.nonempty b)
  | cons a first ih =>
    intro second hsame
    cases second with
    | nil =>
      rw [List.flatMap_nil, List.flatMap_cons] at hsame
      exact absurd (List.append_eq_nil_iff.mp hsame).1 (h.nonempty a)
    | cons b second =>
      rw [List.flatMap_cons, List.flatMap_cons] at hsame
      obtain ⟨rfl, hrest⟩ := h.split a b _ _ hsame
      rw [ih hrest]

end PrefixCode
