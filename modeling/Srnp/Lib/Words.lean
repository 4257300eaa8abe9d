import Mathlib

/-! The words of a text between separators. A word may be trimmed, and one of
which nothing is left does not count. -/
namespace Words
variable {α : Type} [BEq α] [LawfulBEq α]

def words (separator : α) (trim : List α → List α) (text : List α) : List (List α) :=
  ((text.splitOn separator).map trim).filter fun word => !word.isEmpty

variable {separator : α} {trim : List α → List α} {word rest : List α}

theorem words_append (front rest : List α) :
    words separator trim (front ++ separator :: rest) =
      words separator trim front ++ words separator trim rest := by
  rw [words, List.splitOn_append_cons_self, List.map_append, List.filter_append]
  rfl

theorem words_singleton (hword : separator ∉ word) :
    words separator trim word = if trim word = [] then [] else [trim word] := by
  rw [words, List.splitOn_eq_singleton hword]
  by_cases hkept : trim word = [] <;> simp [hkept]

theorem words_cons_of_ne_nil (hword : separator ∉ word) (hkept : trim word ≠ []) :
    words separator trim (word ++ separator :: rest) = trim word :: words separator trim rest := by
  rw [words_append, words_singleton hword, if_neg hkept]
  rfl

theorem words_separator (hempty : trim [] = []) :
    words separator trim (separator :: rest) = words separator trim rest := by
  have hfront := @words_append _ _ _ separator trim [] rest
  rw [List.nil_append, words_singleton List.not_mem_nil, if_pos hempty] at hfront
  exact hfront

/-- What holds of a text without separators and of what a separator joins. -/
theorem split_induction {motive : List α → Prop} (hword : ∀ word, separator ∉ word → motive word)
    (hjoin : ∀ front rest, motive front → motive rest → motive (front ++ separator :: rest))
    (text : List α) : motive text := by
  induction hlength : text.length using Nat.strong_induction_on generalizing text with
  | h length ih =>
    by_cases hmem : separator ∈ text
    · obtain ⟨front, rest, rfl⟩ := List.append_of_mem hmem
      rw [List.length_append, List.length_cons] at hlength
      exact hjoin front rest (ih _ (by omega) front rfl) (ih _ (by omega) rest rfl)
    · exact hword text hmem

theorem mem_words (htrim : ∀ part, trim part ⊆ part) {text : List α}
    (h : word ∈ words separator trim text) : word ≠ [] ∧ separator ∉ word := by
  induction text using split_induction with
  | hword part hpart =>
    rw [words_singleton hpart] at h
    split at h
    · contradiction
    · rename_i hkept
      cases List.mem_singleton.mp h
      exact ⟨hkept, fun hmem => hpart (htrim part hmem)⟩
  | hjoin front rest ihfront ihrest =>
    rw [words_append, List.mem_append] at h
    exact h.elim ihfront ihrest

end Words
