import Mathlib

/-! Numbers written out in ASCII in a base up to sixteen, shortest or padded
with zeros, and how they are read back. -/
namespace Numerals

def digits (base number : Nat) : List UInt8 := (Nat.toDigits base number).map Char.toUInt8

/-- At least `width` digits, with zeros in front. -/
def padded (base width number : Nat) : List UInt8 :=
  List.replicate (width - (digits base number).length) 48 ++ digits base number

def digitValue (byte : UInt8) : Option Nat :=
  if 48 ≤ byte ∧ byte ≤ 57 then some (byte.toNat - 48)
  else if 97 ≤ byte ∧ byte ≤ 102 then some (byte.toNat - 87)
  else none

/-- Reads a whole text, most significant digit first. -/
def value (base : Nat) (text : List UInt8) : Option Nat :=
  text.foldlM (fun number byte => (digitValue byte).map (base * number + ·)) 0

theorem digitValue_digitChar {digit : Nat} (h : digit < 16) :
    digitValue digit.digitChar.toUInt8 = some digit := by
  revert digit
  decide

section
variable {base : Nat}

theorem value_append {front back : List UInt8} {number : Nat} (h : value base front = some number) :
    value base (front ++ back) =
      back.foldlM (fun number byte => (digitValue byte).map (base * number + ·)) number := by
  rw [value, List.foldlM_append]
  exact congrArg (· >>= _) h

theorem value_digits (hone : 1 < base) (hlast : base ≤ 16) (number : Nat) :
    value base (digits base number) = some number := by
  induction number using Nat.strong_induction_on with
  | h number ih =>
    have hdigit : number % base < 16 := by
      have := Nat.mod_lt number (Nat.lt_of_succ_lt hone)
      omega
    by_cases hsmall : number < base
    · rw [digits, Nat.toDigits_of_lt_base hsmall]
      simp [value, digitValue_digitChar (Nat.lt_of_lt_of_le hsmall hlast)]
    · have hfront := ih (number / base) (Nat.div_lt_self (by omega) hone)
      rw [digits, Nat.toDigits_of_base_le hone (Nat.le_of_not_lt hsmall), List.map_append]
      refine (value_append hfront).trans ?_
      simp [digitValue_digitChar hdigit, Nat.div_add_mod]

theorem value_zeros (count : Nat) : value base (List.replicate count 48) = some 0 := by
  induction count with
  | zero => rfl
  | succ count ih =>
    rw [List.replicate_succ', value_append ih]
    rfl

theorem value_padded (hone : 1 < base) (hlast : base ≤ 16) (width number : Nat) :
    value base (padded base width number) = some number := by
  rw [padded, value_append (value_zeros _)]
  exact value_digits hone hlast number

theorem padded_length (hone : 1 < base) {width number : Nat} (hwidth : 0 < width)
    (hfits : number < base ^ width) : (padded base width number).length = width := by
  have hshort := (Nat.length_toDigits_le_iff hone hwidth).mpr hfits
  simp only [padded, digits, List.length_append, List.length_replicate, List.length_map]
  omega

theorem mem_digits (hone : 1 < base) {number : Nat} {byte : UInt8}
    (h : byte ∈ digits base number) : ∃ digit < base, byte = digit.digitChar.toUInt8 := by
  induction number using Nat.strong_induction_on with
  | h number ih =>
    by_cases hsmall : number < base
    · rw [digits, Nat.toDigits_of_lt_base hsmall] at h
      exact ⟨number, hsmall, by simpa using h⟩
    · rw [digits, Nat.toDigits_of_base_le hone (Nat.le_of_not_lt hsmall), List.map_append,
        List.mem_append] at h
      rcases h with hfront | hlast
      · exact ih (number / base) (Nat.div_lt_self (by omega) hone) hfront
      · exact ⟨number % base, Nat.mod_lt _ (Nat.lt_of_succ_lt hone), by simpa using hlast⟩

theorem mem_padded (hone : 1 < base) {width number : Nat} {byte : UInt8}
    (h : byte ∈ padded base width number) : ∃ digit < base, byte = digit.digitChar.toUInt8 := by
  rcases List.mem_append.mp h with hzero | hdigit
  · exact ⟨0, Nat.lt_of_succ_lt hone, List.eq_of_mem_replicate hzero⟩
  · exact mem_digits hone hdigit

end

end Numerals
