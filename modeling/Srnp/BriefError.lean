import Srnp.MetaValue

/-! How the gui cuts the message of an exception down to its first sentence and
closes the brackets that the cut leaves open. The difference of two counts goes
through a `std::size_t`. -/
namespace Srnp.Gui

structure LengthError where
  what : String := "basic_string"
deriving DecidableEq

def find (text pattern : Bytes) : Option Nat := text.tails.findIdx? pattern.isPrefixOf

section
variable (maxSize : Nat)

/-- A `std::string` of the same bytes. -/
def newString (text : Bytes) : Except LengthError Bytes :=
  if maxSize < text.length then throw {} else pure text

def append (text : Bytes) (count : UInt64) (byte : UInt8) : Except LengthError Bytes :=
  if maxSize - text.length < count.toNat then throw {}
  else pure (text ++ List.replicate count.toNat byte)

def briefError (what : Bytes) : Except LengthError Bytes :=
  match find what [32, 91] with
  | none => newString maxSize what
  | some detail => do
      let brief ← newString maxSize (what.take detail)
      let opened : Int := brief.count 40
      let closed : Int := brief.count 41
      append maxSize brief (UInt64.ofInt (opened - closed)) 41

end

/-- The message fits on a string, the count that is cast is not negative, and a
message that is cut ends in as many brackets as it leaves open. -/
def BalancesBrackets (maxSize : Nat) (what : Bytes) : Prop :=
  ∃ brief, briefError maxSize what = .ok brief ∧
    ∀ detail, find what [32, 91] = some detail →
      (what.take detail).count 41 ≤ (what.take detail).count 40 ∧
      (∃ count, brief = what.take detail ++ List.replicate count 41) ∧
      brief.count 40 = brief.count 41

/-- No more brackets are closed than opened before the cut, and the closed text
still fits on a string. -/
def Closable (maxSize : Nat) (text : Bytes) : Prop :=
  text.count 41 ≤ text.count 40 ∧ text.length + (text.count 40 - text.count 41) ≤ maxSize

instance (maxSize : Nat) (text : Bytes) : Decidable (Closable maxSize text) :=
  inferInstanceAs (Decidable (_ ∧ _))

theorem newString_ok {maxSize : Nat} {text : Bytes} (h : text.length ≤ maxSize) :
    newString maxSize text = .ok text := if_neg (Nat.not_lt.mpr h)

section
variable {maxSize : Nat} (hmax : maxSize < 2 ^ 63)
include hmax

/-- A difference below zero wraps to more than any string takes. -/
theorem append_wrapped {text : Bytes} {excess : Nat} (hpos : 0 < excess)
    (hsmall : excess ≤ maxSize) :
    append maxSize text (UInt64.ofInt (-excess)) 41 = .error {} := by
  apply if_pos
  rw [UInt64.ofInt, UInt64.toNat_ofNat']
  omega

theorem append_counted {text : Bytes} {missing : Nat} (hshort : text.length ≤ maxSize)
    (hsmall : missing ≤ maxSize) :
    append maxSize text (UInt64.ofInt missing) 41 =
      if text.length + missing ≤ maxSize then .ok (text ++ List.replicate missing 41)
      else .error {} := by
  have hcount : (UInt64.ofInt missing).toNat = missing := by
    rw [UInt64.ofInt, UInt64.toNat_ofNat']
    omega
  rw [append, hcount]
  by_cases hfits : text.length + missing ≤ maxSize
  · rw [if_pos hfits, if_neg (by omega)]
    rfl
  · rw [if_neg hfits, if_pos (by omega)]
    rfl

theorem append_closes {text : Bytes} (hshort : text.length ≤ maxSize) :
    append maxSize text (UInt64.ofInt ((text.count 40 : Int) - text.count 41)) 41 =
      if Closable maxSize text then
        .ok (text ++ List.replicate (text.count 40 - text.count 41) 41)
      else .error {} := by
  have hopened : text.count 40 ≤ text.length := List.count_le_length
  have hclosed : text.count 41 ≤ text.length := List.count_le_length
  by_cases hmore : text.count 41 ≤ text.count 40
  · have hdifference : (text.count 40 : Int) - text.count 41 =
        ((text.count 40 - text.count 41 : Nat) : Int) := by omega
    rw [hdifference, append_counted hmax hshort (by omega)]
    simp only [Closable, hmore, true_and]
  · have hdifference : (text.count 40 : Int) - text.count 41 =
        -((text.count 41 - text.count 40 : Nat) : Int) := by omega
    have hnot : ¬ Closable maxSize text := fun h => hmore h.1
    rw [hdifference, append_wrapped hmax (by omega) (by omega), if_neg hnot]

omit hmax in
theorem closed_balanced {text : Bytes} (hmore : text.count 41 ≤ text.count 40) :
    (text ++ List.replicate (text.count 40 - text.count 41) 41).count 40 =
      (text ++ List.replicate (text.count 40 - text.count 41) 41).count 41 := by
  rw [List.count_append, List.count_append, List.count_replicate_self, List.count_replicate,
    if_neg (by decide)]
  omega

theorem briefError_cut {what : Bytes} {detail : Nat} (hwhat : what.length ≤ maxSize)
    (hcut : find what [32, 91] = some detail) :
    briefError maxSize what =
      if Closable maxSize (what.take detail) then
        .ok (what.take detail ++ List.replicate
          ((what.take detail).count 40 - (what.take detail).count 41) 41)
      else .error {} := by
  have hshort : (what.take detail).length ≤ maxSize :=
    Nat.le_trans (List.length_take_le' _ _) hwhat
  simp only [briefError, hcut, newString_ok hshort]
  exact append_closes hmax hshort

/-- A message is cut and closed exactly if the text before its first detail can be. -/
theorem briefError_balances_iff {what : Bytes} (hwhat : what.length ≤ maxSize) :
    BalancesBrackets maxSize what ↔
      ∀ detail, find what [32, 91] = some detail → Closable maxSize (what.take detail) := by
  constructor
  · rintro ⟨brief, hbrief, -⟩ detail hcut
    by_contra hnot
    rw [briefError_cut hmax hwhat hcut, if_neg hnot] at hbrief
    contradiction
  · intro hclosable
    cases hcut : find what [32, 91] with
    | none =>
      refine ⟨what, ?_, fun detail hdetail => ?_⟩
      · simp only [briefError, hcut, newString_ok hwhat]
      · rw [hcut] at hdetail
        contradiction
    | some detail =>
      have hclosed := hclosable detail hcut
      refine ⟨_, (briefError_cut hmax hwhat hcut).trans (if_pos hclosed), ?_⟩
      intro other hother
      rw [hcut] at hother
      cases Option.some.inj hother
      exact ⟨hclosed.1, ⟨_, rfl⟩, closed_balanced hclosed.1⟩

end

/-- `(c [x]`: the bracket is closed. -/
theorem briefError_balances_connect :
    BalancesBrackets (2 ^ 62) [40, 99, 32, 91, 120, 93] :=
  (briefError_balances_iff (by decide) (by decide)).mpr (by
    intro detail hcut
    cases Option.some.inj (hcut.symm.trans (show find _ _ = some 2 from rfl))
    decide)

/-- The message for a master at `) [`, up to its port. -/
def unreachable : Bytes :=
  [99, 111, 117, 108, 100, 32, 110, 111, 116, 32, 114, 101, 97, 99, 104, 32, 116, 104, 101, 32,
    109, 97, 115, 116, 101, 114, 32, 97, 116, 32, 41, 32, 91, 58]

theorem unreachable_unbalanced :
    ¬ ∀ what, what.length ≤ 2 ^ 62 → BalancesBrackets (2 ^ 62) what := by
  intro hclaim
  obtain ⟨brief, hbrief, hbalanced⟩ := hclaim unreachable (by decide)
  exact absurd (hbalanced 31 (by decide)).1 (by decide)

end Srnp.Gui
