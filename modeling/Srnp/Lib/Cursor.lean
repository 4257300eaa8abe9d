import Srnp.Lib.Reading

/-! Readers that keep an offset into an array instead of what is left of a list.
The offset is a machine word, every access names the elements it touches, and an
access outside of the array is a fault of its own. A reader at an offset follows
a list reader if it does the same with what lies behind the offset. -/
namespace Cursor
open Reading
variable {σ ε α β : Type}

inductive Fault (ε : Type) where
  | thrown (error : ε)
  | outside

/-- An array in memory, which pointer differences can span. -/
structure Span (σ : Type) where
  content : List σ
  addressable : content.length < 2 ^ 63

abbrev CursorReader (ε α : Type) := StateT UInt64 (Except (Fault ε)) α

def throwing (error : ε) : CursorReader ε α := fun _ => .error (.thrown error)

def repeated (reader : CursorReader ε α) : Nat → CursorReader ε (List α)
  | 0 => pure []
  | count + 1 => do
      let first ← reader
      let others ← repeated reader count
      pure (first :: others)

namespace Span
variable (span : Span σ)

def size : UInt64 := UInt64.ofNat span.content.length

/-- Throws unless that many elements are left; the sum wraps as words do. -/
def require (short : ε) (count : UInt64) : CursorReader ε Unit := do
  let offset ← get
  if span.size < offset + count then throwing short else pure ()

def access (count : UInt64) : CursorReader ε (List σ) := do
  let offset ← get
  if offset.toNat + count.toNat ≤ span.content.length then
    pure ((span.content.drop offset.toNat).take count.toNat)
  else fun _ => .error .outside

def take (short : ε) (count : UInt64) : CursorReader ε (List σ) := do
  span.require short count
  let taken ← span.access count
  modify (· + count)
  pure taken

/-- From any offset within the array, the reader does what the list reader does
with the rest of it, and ends within the array. -/
def Follows (here : CursorReader ε α) (reader : Reader σ ε α) : Prop :=
  ∀ offset : UInt64, offset.toNat ≤ span.content.length →
    match reader.run (span.content.drop offset.toNat) with
    | .error error => here.run offset = .error (.thrown error)
    | .ok (value, rest) => ∃ next : UInt64, here.run offset = .ok (value, next) ∧
        next.toNat ≤ span.content.length ∧ span.content.drop next.toNat = rest

theorem size_toNat : span.size.toNat = span.content.length := by
  have hbound := span.addressable
  apply Nat.mod_eq_of_lt
  omega

theorem toNat_add {offset count : UInt64} (hoffset : offset.toNat ≤ span.content.length)
    (hcount : count.toNat < 2 ^ 63) : (offset + count).toNat = offset.toNat + count.toNat := by
  have hbound := span.addressable
  rw [UInt64.toNat_add]
  apply Nat.mod_eq_of_lt
  omega

theorem take_run (short : ε) {offset count : UInt64} (hoffset : offset.toNat ≤ span.content.length)
    (hcount : count.toNat < 2 ^ 63) :
    (span.take short count).run offset =
      if span.content.length < offset.toNat + count.toNat then .error (.thrown short)
      else .ok ((span.content.drop offset.toNat).take count.toNat, offset + count) := by
  have hcheck : span.size < offset + count ↔
      span.content.length < offset.toNat + count.toNat := by
    rw [UInt64.lt_iff_toNat_lt, span.size_toNat, span.toNat_add hoffset hcount]
  have hrequire : (span.require short count).run offset =
      if span.content.length < offset.toNat + count.toNat then .error (.thrown short)
      else .ok ((), offset) := by
    change StateT.run (if span.size < offset + count then _ else _) offset = _
    by_cases hshort : span.size < offset + count
    · rw [if_pos hshort, if_pos (hcheck.mp hshort)]
      rfl
    · rw [if_neg hshort, if_neg (mt hcheck.mpr hshort)]
      rfl
  unfold take
  rw [StateT.run_bind, hrequire]
  by_cases hshort : span.content.length < offset.toNat + count.toNat
  · rw [if_pos hshort, if_pos hshort]
    rfl
  · rw [if_neg hshort, if_neg hshort]
    have haccess : (span.access (ε := ε) count).run offset =
        .ok ((span.content.drop offset.toNat).take count.toNat, offset) := by
      change StateT.run (if offset.toNat + count.toNat ≤ span.content.length then _ else _)
        offset = _
      rw [if_pos (Nat.not_lt.mp hshort)]
      rfl
    change StateT.run (span.access count >>= fun taken => modify (· + count) >>= fun _ =>
      (pure taken : CursorReader ε (List σ))) offset = _
    rw [StateT.run_bind, haccess]
    rfl

namespace Follows
variable {span}

theorem pure (value : α) :
    span.Follows (Pure.pure value : CursorReader ε α) (Pure.pure value : Reader σ ε α) := by
  intro offset hoffset
  exact ⟨offset, rfl, hoffset, rfl⟩

theorem fail (error : ε) :
    span.Follows (throwing error : CursorReader ε α) (throw error : Reader σ ε α) := by
  intro offset hoffset
  rfl

theorem take {short : ε} {count : UInt64} {reader : Reader σ ε (List σ)}
    (hcount : count.toNat < 2 ^ 63)
    (hreader : ∀ list, reader.run list = if list.length < count.toNat then .error short
      else .ok (list.take count.toNat, list.drop count.toNat)) :
    span.Follows (span.take short count) reader := by
  intro offset hoffset
  rw [hreader, List.length_drop, span.take_run short hoffset hcount]
  by_cases hshort : span.content.length < offset.toNat + count.toNat
  · have hleft : span.content.length - offset.toNat < count.toNat := by omega
    rw [if_pos hshort, if_pos hleft]
  · have hleft : ¬ span.content.length - offset.toNat < count.toNat := by omega
    rw [if_neg hshort, if_neg hleft]
    have hsum := span.toNat_add hoffset hcount
    refine ⟨offset + count, rfl, ?_, ?_⟩
    · rw [hsum]
      omega
    · rw [hsum, List.drop_drop]

theorem bind {here : CursorReader ε α} {reader : Reader σ ε α} {next : α → CursorReader ε β}
    {second : α → Reader σ ε β} (hfirst : span.Follows here reader)
    (hsecond : ∀ a, span.Follows (next a) (second a)) :
    span.Follows (here >>= next) (reader >>= second) := by
  intro offset hoffset
  have h := hfirst offset hoffset
  rw [StateT.run_bind, StateT.run_bind]
  cases hread : reader.run (span.content.drop offset.toNat) with
  | error error =>
    rw [hread] at h
    dsimp only at h
    rw [h]
    rfl
  | ok read =>
    obtain ⟨a, rest⟩ := read
    rw [hread] at h
    obtain ⟨middle, hhere, hmiddle, hrest⟩ := h
    rw [hhere, ← hrest]
    exact hsecond a middle hmiddle

theorem result {here : CursorReader ε α} {reader : Reader σ ε α}
    (h : span.Follows here reader) (f : α → β) :
    span.Follows (here >>= fun read => Pure.pure (f read))
      (reader >>= fun read => Pure.pure (f read)) :=
  h.bind fun read => Follows.pure (f read)

theorem repeated {here : CursorReader ε α} {reader : Reader σ ε α}
    (h : span.Follows here reader) (count : Nat) :
    span.Follows (Cursor.repeated here count) (Reading.repeated reader count) := by
  induction count with
  | zero => exact Follows.pure []
  | succ count ih => exact h.bind fun first => ih.bind fun others => Follows.pure _

end Follows

end Span

end Cursor
