import Mathlib

/-! Lists that ascend strictly under a measure. Their elements are told apart by
the measure, and their greatest element is the last. -/
namespace Ascending

variable {α : Type} {measure : α → Nat} {list : List α}

theorem concat {last : α} (h : list.Pairwise fun earlier later => measure earlier < measure later)
    (hlast : ∀ element ∈ list, measure element < measure last) :
    (list ++ [last]).Pairwise fun earlier later => measure earlier < measure later := by
  rw [List.pairwise_append]
  refine ⟨h, List.pairwise_singleton _ _, ?_⟩
  intro earlier hearlier later hlater
  rw [List.mem_singleton.mp hlater]
  exact hlast earlier hearlier

theorem eq_of_measure (h : list.Pairwise fun earlier later => measure earlier < measure later)
    {left right : α} (hleft : left ∈ list) (hright : right ∈ list)
    (heq : measure left = measure right) : left = right := by
  obtain ⟨i, hi, rfl⟩ := List.mem_iff_getElem.mp hleft
  obtain ⟨j, hj, rfl⟩ := List.mem_iff_getElem.mp hright
  have hsorted := List.pairwise_iff_getElem.mp h
  rcases Nat.lt_trichotomy i j with hlt | rfl | hgt
  · have hmeasure := hsorted i j hi hj hlt
    omega
  · rfl
  · have hmeasure := hsorted j i hj hi hgt
    omega

theorem filter_ne {front back : List α} {middle : α}
    (h : (front ++ middle :: back).Pairwise fun earlier later => measure earlier < measure later) :
    (front ++ middle :: back).filter (fun element => measure element ≠ measure middle) =
      front ++ back := by
  rw [List.pairwise_append, List.pairwise_cons] at h
  obtain ⟨_, ⟨hback, _⟩, hfront⟩ := h
  rw [List.filter_append, List.filter_cons_of_neg (by simp)]
  congr 1
  · rw [List.filter_eq_self]
    intro element helement
    have hlt := hfront element helement middle List.mem_cons_self
    simp only [decide_eq_true_iff]
    omega
  · rw [List.filter_eq_self]
    intro element helement
    have hlt := hback element helement
    simp only [decide_eq_true_iff]
    omega

theorem getLast?_of_greatest
    (h : list.Pairwise fun earlier later => measure earlier < measure later) {element : α}
    (hmem : element ∈ list) (hgreatest : ∀ other ∈ list, measure other ≤ measure element) :
    list.getLast? = some element := by
  obtain ⟨front, back, rfl⟩ := List.append_of_mem hmem
  cases back with
  | nil => simp
  | cons later rest =>
    rw [List.pairwise_append, List.pairwise_cons] at h
    have hlt := h.2.1.1 later List.mem_cons_self
    have hle := hgreatest later (by simp)
    omega

theorem le_of_getLast? (h : list.Pairwise fun earlier later => measure earlier < measure later)
    {last : α} (hlast : list.getLast? = some last) :
    ∀ element ∈ list, measure element ≤ measure last := by
  intro element hmem
  obtain ⟨front, rfl⟩ := List.getLast?_eq_some_iff.mp hlast
  rw [List.pairwise_append] at h
  rcases List.mem_append.mp hmem with hmem | hmem
  · exact Nat.le_of_lt (h.2.2 element hmem last (List.mem_singleton_self _))
  · rw [List.mem_singleton.mp hmem]

end Ascending
