import Srnp.Lib.LastWrite

/-! A copy of a store that is fed from the log of the writes to it. The feed
has the writes to the keys the copy is interested in, in the order of the log,
and perhaps others; each goes with its place in the log. Then the copy shows
what the store showed after some number of writes, the same number for all of
these keys, and that number never becomes smaller. -/
namespace LastWrite
variable {κ ν : Type} [DecidableEq κ]

/-- A write on its way, with its place in the log. -/
abbrev Fed (κ ν : Type) := Nat × Write κ ν

/-- `copy` has heard of the first `heard` writes of `log`, from `base` on, and
of the others those to interesting keys are in the feed. -/
structure Lagging (interest : κ → Prop) (base : Store κ ν) (log : List (Write κ ν))
    (heard : Nat) (feed : List (Fed κ ν)) (copy : Store κ ν) : Prop where
  within : heard ≤ log.length
  ascending : feed.Pairwise fun earlier later => earlier.1 < later.1
  pending : ∀ entry ∈ feed, heard ≤ entry.1 ∧ log[entry.1]? = some entry.2
  complete : ∀ index write, heard ≤ index → log[index]? = some write → interest write.key →
    (index, write) ∈ feed
  current : ∀ key, interest key → copy key = base.replay (log.take heard) key

theorem Store.replay_uneventful (base : Store κ ν) {log : List (Write κ ν)} {key : κ}
    {first last : Nat} (hle : first ≤ last) (h : ∀ index write, first ≤ index → index < last →
      log[index]? = some write → write.key ≠ key) :
    base.replay (log.take last) key = base.replay (log.take first) key := by
  have hnone : writesAt key ((log.take last).drop first) = [] := by
    rw [writesAt, List.filter_eq_nil_iff]
    intro write hwrite hkey
    rw [decide_eq_true_iff] at hkey
    obtain ⟨offset, hoffset⟩ := List.mem_iff_getElem?.mp hwrite
    rw [List.getElem?_drop, List.getElem?_take] at hoffset
    split at hoffset
    · rename_i hbefore
      exact h (first + offset) write (Nat.le_add_right _ _) hbefore hoffset hkey
    · contradiction
  have hsplit : log.take last = log.take first ++ (log.take last).drop first := by
    have htake : (log.take last).take first = log.take first := by
      rw [List.take_take, Nat.min_eq_left hle]
    rw [← htake, List.take_append_drop]
  rw [hsplit, Store.replay_append, Store.replay_at _ ((log.take last).drop first), hnone]
  rfl

namespace Lagging
variable {interest : κ → Prop} {base copy : Store κ ν} {log : List (Write κ ν)} {heard : Nat}
variable {feed rest : List (Fed κ ν)} {write : Write κ ν}

theorem start (h : ∀ key, interest key → copy key = base key) :
    Lagging interest base [] 0 [] copy := by
  refine ⟨Nat.le_refl _, .nil, List.forall_mem_nil _, ?_, h⟩
  intro index write _ hfound
  contradiction

theorem unsaid (h : Lagging interest base log heard feed copy) (hwrite : ¬ interest write.key) :
    Lagging interest base (log ++ [write]) heard feed copy := by
  have hwithin := h.within
  constructor
  · rw [List.length_append]
    omega
  · exact h.ascending
  · intro entry hentry
    obtain ⟨hlate, hfound⟩ := h.pending entry hentry
    refine ⟨hlate, ?_⟩
    rw [List.getElem?_append_left (List.getElem?_eq_some_iff.mp hfound).1]
    exact hfound
  · intro index other hlate hfound hinterest
    by_cases hold : index < log.length
    · rw [List.getElem?_append_left hold] at hfound
      exact h.complete index other hlate hfound hinterest
    · have hother : other ∈ [write] := by
        rw [List.getElem?_append_right (Nat.not_lt.mp hold)] at hfound
        exact List.mem_of_getElem? hfound
      rw [List.mem_singleton.mp hother] at hinterest
      exact absurd hinterest hwrite
  · intro key hinterest
    rw [List.take_append_of_le_length hwithin]
    exact h.current key hinterest

theorem said (h : Lagging interest base log heard feed copy) (write : Write κ ν) :
    Lagging interest base (log ++ [write]) heard (feed ++ [(log.length, write)]) copy := by
  have hwithin := h.within
  constructor
  · rw [List.length_append]
    omega
  · rw [List.pairwise_append]
    refine ⟨h.ascending, List.pairwise_singleton _ _, ?_⟩
    intro earlier hearlier later hlater
    rw [List.mem_singleton.mp hlater]
    exact (List.getElem?_eq_some_iff.mp (h.pending earlier hearlier).2).1
  · intro entry hentry
    rcases List.mem_append.mp hentry with hold | hnew
    · obtain ⟨hlate, hfound⟩ := h.pending entry hold
      refine ⟨hlate, ?_⟩
      rw [List.getElem?_append_left (List.getElem?_eq_some_iff.mp hfound).1]
      exact hfound
    · rw [List.mem_singleton.mp hnew]
      exact ⟨hwithin, List.getElem?_concat_length⟩
  · intro index other hlate hfound hinterest
    by_cases hold : index < log.length
    · rw [List.getElem?_append_left hold] at hfound
      exact List.mem_append_left _ (h.complete index other hlate hfound hinterest)
    · have hlast : index = log.length := by
        have hbound := (List.getElem?_eq_some_iff.mp hfound).1
        rw [List.length_append, List.length_singleton] at hbound
        omega
      subst hlast
      rw [List.getElem?_concat_length] at hfound
      cases Option.some.inj hfound
      exact List.mem_append_right _ (List.mem_singleton_self _)
  · intro key hinterest
    rw [List.take_append_of_le_length hwithin]
    exact h.current key hinterest

/-- The writes that were skipped before the next one of the feed are to keys of
no interest. -/
theorem replay_skipped (h : Lagging interest base log heard ((index, write) :: rest) copy)
    {key : κ} (hinterest : interest key) :
    base.replay (log.take index) key = base.replay (log.take heard) key := by
  refine Store.replay_uneventful base (h.pending (index, write) List.mem_cons_self).1 ?_
  rintro place other hlate hbefore hfound rfl
  rcases List.mem_cons.mp (h.complete place other hlate hfound hinterest) with heq | hmem
  · have hsame := (Prod.mk.inj heq).1
    omega
  · have hlater := List.rel_of_pairwise_cons h.ascending hmem
    dsimp only at hlater
    omega

theorem hear (h : Lagging interest base log heard ((index, write) :: rest) copy) :
    Lagging interest base log (index + 1) rest (copy.apply write) := by
  obtain ⟨hlate, hfound⟩ := h.pending (index, write) List.mem_cons_self
  have hbound : index < log.length := (List.getElem?_eq_some_iff.mp hfound).1
  refine ⟨hbound, h.ascending.of_cons, ?_, ?_, ?_⟩
  · intro entry hentry
    exact ⟨List.rel_of_pairwise_cons h.ascending hentry,
      (h.pending entry (List.mem_cons_of_mem _ hentry)).2⟩
  · intro later other hlater hother hinterest
    rcases List.mem_cons.mp (h.complete later other (by omega) hother hinterest) with heq | hmem
    · have hsame := (Prod.mk.inj heq).1
      omega
    · exact hmem
  · intro key hinterest
    have hcopy : copy key = base.replay (log.take index) key := by
      rw [h.replay_skipped hinterest]
      exact h.current key hinterest
    have hwrite : log[index] = write := by
      rw [List.getElem?_eq_getElem hbound] at hfound
      exact Option.some.inj hfound
    rw [List.take_succ_eq_append_getElem hbound, Store.replay_append, hwrite]
    exact Store.replay_congr hcopy [write]

theorem congr (h : Lagging interest base log heard feed copy) {other : Store κ ν}
    (hother : ∀ key, interest key → other key = copy key) :
    Lagging interest base log heard feed other :=
  ⟨h.within, h.ascending, h.pending, h.complete,
    fun key hinterest => (hother key hinterest).trans (h.current key hinterest)⟩

/-- With nothing on its way, the copy shows what the log comes to. -/
theorem caught_up (h : Lagging interest base log heard [] copy) {key : κ}
    (hinterest : interest key) : copy key = base.replay log key := by
  have hwhole : base.replay (log.take log.length) key = base.replay (log.take heard) key := by
    refine Store.replay_uneventful base h.within ?_
    rintro index write hlate _ hfound rfl
    exact absurd (h.complete index write hlate hfound hinterest) List.not_mem_nil
  rw [h.current key hinterest, ← hwhole, List.take_length]

end Lagging

end LastWrite
