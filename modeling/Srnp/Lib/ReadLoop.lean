import Srnp.Lib.Reading

/-! A loop that reads a value off the front of its input and hands it to a
handler, until a read fails or the handler throws. What was read already does
not depend on what follows, so a loop may be fed in pieces, and one that reads
back what was written does to the values what its handler does. -/
namespace Reading
variable {σ ε α S E : Type}

structure ReadLoop (σ ε α S E : Type) where
  reader : Reader σ ε α
  /-- A read takes something off its input. -/
  shorter : ∀ {input rest : List σ} {value : α},
    reader.run input = .ok (value, rest) → rest.length < input.length
  /-- What a value does to the state, and whether it was handled to the end. -/
  handle : α → S → S × Except E Unit

inductive LoopEnd (ε E : Type) where
  | unread (error : ε)
  | thrown (error : E)

/-- The end of a loop whose handler ended so, where all there is was read. -/
def LoopEnd.after (short : ε) : Except E Unit → LoopEnd ε E
  | .error error => .thrown error
  | .ok () => .unread short

structure Looped (σ ε S E : Type) where
  state : S
  reason : LoopEnd ε E
  rest : List σ

namespace ReadLoop
variable (loop : ReadLoop σ ε α S E)

def run (state : S) (input : List σ) : Looped σ ε S E :=
  match h : loop.reader.run input with
  | .error error => ⟨state, .unread error, input⟩
  | .ok (value, rest) =>
      have := loop.shorter h
      match loop.handle value state with
      | (next, .error error) => ⟨next, .thrown error, rest⟩
      | (next, .ok ()) => run next rest
termination_by input.length

def handleAll (state : S) : List α → S × Except E Unit
  | [] => (state, .ok ())
  | value :: rest =>
      match loop.handle value state with
      | (next, .error error) => (next, .error error)
      | (next, .ok ()) => handleAll next rest

section
variable {loop} {state next : S} {input rest : List σ} {value : α}

theorem run_unread {error : ε} (h : loop.reader.run input = .error error) :
    loop.run state input = ⟨state, .unread error, input⟩ := by
  rw [run]
  split
  · rename_i found hfound
    cases Except.error.inj (hfound.symm.trans h)
    rfl
  · rename_i hfound
    rw [h] at hfound
    contradiction

theorem run_thrown {error : E} (h : loop.reader.run input = .ok (value, rest))
    (hhandle : loop.handle value state = (next, .error error)) :
    loop.run state input = ⟨next, .thrown error, rest⟩ := by
  rw [run]
  split
  · rename_i hfound
    rw [h] at hfound
    contradiction
  · rename_i hfound
    cases Except.ok.inj (hfound.symm.trans h)
    rw [hhandle]

theorem run_next (h : loop.reader.run input = .ok (value, rest))
    (hhandle : loop.handle value state = (next, .ok ())) :
    loop.run state input = loop.run next rest := by
  rw [run]
  split
  · rename_i hfound
    rw [h] at hfound
    contradiction
  · rename_i hfound
    cases Except.ok.inj (hfound.symm.trans h)
    rw [hhandle]

theorem run_induction {motive : S → List σ → Looped σ ε S E → Prop}
    (unread : ∀ state input error, loop.reader.run input = .error error →
      motive state input ⟨state, .unread error, input⟩)
    (thrown : ∀ state input value rest next error, loop.reader.run input = .ok (value, rest) →
      loop.handle value state = (next, .error error) →
      motive state input ⟨next, .thrown error, rest⟩)
    (next : ∀ state input value rest next ended, loop.reader.run input = .ok (value, rest) →
      loop.handle value state = (next, .ok ()) → motive next rest ended →
      motive state input ended)
    (state : S) (input : List σ) : motive state input (loop.run state input) := by
  induction input using WellFounded.induction (measure List.length).wf generalizing state with
  | h input ih =>
    cases hread : loop.reader.run input with
    | error error =>
      rw [run_unread hread]
      exact unread state input error hread
    | ok read =>
      obtain ⟨value, rest⟩ := read
      rcases hhandle : loop.handle value state with ⟨after, exit⟩
      cases exit with
      | error error =>
        rw [run_thrown hread hhandle]
        exact thrown state input value rest after error hread hhandle
      | ok done =>
        rw [run_next hread hhandle]
        exact next state input value rest after _ hread hhandle
          (ih rest (loop.shorter hread) after)

theorem run_keeps {I : S → Prop} (h : ∀ value state, I state → I (loop.handle value state).1)
    (state : S) (input : List σ) : I state → I (loop.run state input).state := by
  induction state, input using loop.run_induction with
  | unread state input error hread => exact id
  | thrown state input value rest next error hread hhandle =>
    intro hstart
    have hkept := h value state hstart
    rw [hhandle] at hkept
    exact hkept
  | next state input value rest next ended hread hhandle ih =>
    intro hstart
    have hkept := h value state hstart
    rw [hhandle] at hkept
    exact ih hkept

/-! ### Fed in pieces -/

/-- A loop that ran out of input goes on with what comes next. -/
theorem run_resume (hsteady : Steady loop.reader) (more : List σ) {error : ε} :
    (loop.run state input).reason = .unread error → loop.run state (input ++ more) =
      loop.run (loop.run state input).state ((loop.run state input).rest ++ more) := by
  induction state, input using loop.run_induction with
  | unread state input error hread => exact fun _ => rfl
  | thrown state input value rest next error hread hhandle => nofun
  | next state input value rest next ended hread hhandle ih =>
    intro hreason
    rw [run_next (hsteady input value rest hread more) hhandle]
    exact ih hreason

theorem run_final (hsteady : Steady loop.reader) (more : List σ) {error : E} :
    (loop.run state input).reason = .thrown error → loop.run state (input ++ more) =
      ⟨(loop.run state input).state, .thrown error, (loop.run state input).rest ++ more⟩ := by
  induction state, input using loop.run_induction with
  | unread state input error hread => nofun
  | thrown state input value rest next found hread hhandle =>
    intro hreason
    cases hreason
    exact run_thrown (hsteady input value rest hread more) hhandle
  | next state input value rest next ended hread hhandle ih =>
    intro hreason
    rw [run_next (hsteady input value rest hread more) hhandle]
    exact ih hreason

theorem run_rest {error : ε} : (loop.run state input).reason = .unread error →
    loop.reader.run (loop.run state input).rest = .error error := by
  induction state, input using loop.run_induction with
  | unread state input found hread =>
    intro hreason
    cases hreason
    exact hread
  | thrown state input value rest next error hread hhandle => nofun
  | next state input value rest next ended hread hhandle ih => exact ih

theorem run_final_unread (hsteady : Steady loop.reader) {error : ε}
    (h : (loop.run state input).reason = .unread error)
    (hfinal : ∀ input, loop.reader.run input = .error error →
      ∀ more, loop.reader.run (input ++ more) = .error error) (more : List σ) :
    loop.run state (input ++ more) =
      ⟨(loop.run state input).state, .unread error, (loop.run state input).rest ++ more⟩ := by
  rw [run_resume hsteady more h]
  exact run_unread (hfinal _ (run_rest h) more)

/-! ### Reading back what was written -/

theorem run_all {pieces : List (List σ)} {values : List α}
    (hreads : List.Forall₂ (Reads loop.reader) pieces values)
    (h : (loop.handleAll state values).2 = .ok ()) (rest : List σ) :
    loop.run state (pieces.flatten ++ rest) = loop.run (loop.handleAll state values).1 rest := by
  induction hreads generalizing state with
  | nil => rfl
  | @cons piece value pieces values hread hreads ih =>
    rw [handleAll] at h ⊢
    rw [List.flatten_cons, List.append_assoc]
    rcases hhandle : loop.handle value state with ⟨next, exit⟩
    rw [hhandle] at h
    cases exit with
    | error error => contradiction
    | ok done =>
      rw [run_next (hread _) hhandle]
      exact ih h

/-- How many of the pieces are within the first `cut` symbols. -/
def wholeWithin : List (List σ) → Nat → Nat
  | [], _ => 0
  | piece :: rest, cut =>
      if piece.length ≤ cut then wholeWithin rest (cut - piece.length) + 1 else 0

theorem wholeWithin_flatten (pieces : List (List σ)) :
    wholeWithin pieces pieces.flatten.length = pieces.length := by
  induction pieces with
  | nil => rfl
  | cons piece rest ih =>
    rw [wholeWithin, List.flatten_cons, List.length_append, if_pos (Nat.le_add_right _ _),
      Nat.add_sub_cancel_left, ih]
    rfl

/-- Of pieces that are read back, and of which no part is, the loop handles
those that are there as a whole. -/
theorem run_cut {pieces : List (List σ)} {values : List α} {short : ε}
    (hreads : List.Forall₂ (Reads loop.reader) pieces values)
    (hshort : ∀ piece ∈ pieces, ∀ cut < piece.length,
      loop.reader.run (piece.take cut) = .error short)
    (hnil : loop.reader.run [] = .error short) (cut : Nat) (state : S) :
    (loop.run state (pieces.flatten.take cut)).state =
        (loop.handleAll state (values.take (wholeWithin pieces cut))).1 ∧
      (loop.run state (pieces.flatten.take cut)).reason =
        .after short (loop.handleAll state (values.take (wholeWithin pieces cut))).2 := by
  induction hreads generalizing cut state with
  | nil =>
    rw [List.flatten_nil, List.take_nil, List.take_nil, run_unread hnil]
    exact ⟨rfl, rfl⟩
  | @cons piece value pieces values hread hreads ih =>
    rw [List.flatten_cons, List.take_append, wholeWithin]
    split
    · rename_i hwhole
      have hlater := ih (fun other hother => hshort other (List.mem_cons_of_mem _ hother))
        (cut - piece.length)
      rw [List.take_of_length_le hwhole, List.take_succ_cons, handleAll]
      rcases hhandle : loop.handle value state with ⟨next, exit⟩
      cases exit with
      | error error =>
        rw [run_thrown (hread _) hhandle]
        exact ⟨rfl, rfl⟩
      | ok done =>
        rw [run_next (hread _) hhandle]
        exact hlater next
    · rename_i hwithin
      have hcut : cut < piece.length := Nat.lt_of_not_le hwithin
      have hnone : cut - piece.length = 0 := by omega
      rw [hnone, List.take_zero, List.append_nil,
        run_unread (hshort piece List.mem_cons_self cut hcut)]
      exact ⟨rfl, rfl⟩

end

end ReadLoop

end Reading
