import Srnp.MetaValue
import Srnp.Lib.Numerals
import Srnp.Lib.PrefixCode

/-! What the gui shows of a value that may hold any bytes: the escaped text of
the lists and the hex dump. `{:02x}` and `{:08x}` of the source are numbers
padded with zeros in base sixteen. -/
namespace Srnp.Gui
open Numerals PrefixCode

def kBytesPerLine : Nat := 16

def isPrintable (byte : UInt8) : Bool := 0x20 ≤ byte ∧ byte < 0x7F

/-! ### Escaping -/

def escapeByte : UInt8 → Bytes
  | 92 => [92, 92]
  | 10 => [92, 110]
  | 13 => [92, 114]
  | 9 => [92, 116]
  | byte => if isPrintable byte then [byte] else [92, 120] ++ padded 16 2 byte.toNat

def escape (value : Bytes) : Bytes := value.foldl (fun out byte => out ++ escapeByte byte) []

theorem isPrintable_digit {digit : Nat} (h : digit < 16) :
    isPrintable digit.digitChar.toUInt8 := by
  revert digit
  decide

theorem padded_printable {width number : Nat} {byte : UInt8} (h : byte ∈ padded 16 width number) :
    isPrintable byte := by
  obtain ⟨digit, hdigit, rfl⟩ := mem_padded (by decide) h
  exact isPrintable_digit hdigit

theorem padded_byte (byte : UInt8) :
    (padded 16 2 byte.toNat).length = 2 ∧ value 16 (padded 16 2 byte.toNat) = some byte.toNat :=
  ⟨padded_length (by decide) (by decide) byte.toNat_lt, value_padded (by decide) (by decide) _ _⟩

theorem escapeByte_cases (byte : UInt8) :
    (byte ∈ [(92 : UInt8), 10, 13, 9] ∧ escapeByte byte = [92, if byte = 92 then 92 else
      if byte = 10 then 110 else if byte = 13 then 114 else 116]) ∨
    (isPrintable byte ∧ byte ≠ 92 ∧ escapeByte byte = [byte]) ∨
    escapeByte byte = [92, 120] ++ padded 16 2 byte.toNat := by
  unfold escapeByte
  split
  · exact .inl ⟨by decide, rfl⟩
  · exact .inl ⟨by decide, rfl⟩
  · exact .inl ⟨by decide, rfl⟩
  · exact .inl ⟨by decide, rfl⟩
  · rename_i hother _ _ _
    by_cases hprintable : isPrintable byte
    · exact .inr (.inl ⟨hprintable, hother, if_pos hprintable⟩)
    · exact .inr (.inr (if_neg hprintable))

theorem escapeByte_printable {byte shown : UInt8} (h : shown ∈ escapeByte byte) :
    isPrintable shown := by
  rcases escapeByte_cases byte with ⟨hspecial, hcode⟩ | ⟨hprintable, -, hcode⟩ | hcode
  · rw [hcode] at h
    simp only [List.mem_cons, List.not_mem_nil, or_false] at hspecial
    rcases hspecial with rfl | rfl | rfl | rfl <;>
      · simp only [List.mem_cons, List.not_mem_nil, or_false] at h
        rcases h with rfl | rfl <;> decide
  · rw [hcode, List.mem_singleton] at h
    rwa [h]
  · rw [hcode] at h
    rcases List.mem_append.mp h with hfront | hdigit
    · simp only [List.mem_cons, List.not_mem_nil, or_false] at hfront
      rcases hfront with rfl | rfl <;> decide
    · exact padded_printable hdigit

def unescapeByte : Bytes → Option (UInt8 × Bytes)
  | 92 :: 120 :: high :: low :: rest =>
      (Numerals.value 16 [high, low]).map fun number => (UInt8.ofNat number, rest)
  | 92 :: 110 :: rest => some (10, rest)
  | 92 :: 114 :: rest => some (13, rest)
  | 92 :: 116 :: rest => some (9, rest)
  | 92 :: _ :: rest => some (92, rest)
  | byte :: rest => some (byte, rest)
  | [] => none

theorem unescapeByte_escapeByte (byte : UInt8) (rest : Bytes) :
    unescapeByte (escapeByte byte ++ rest) = some (byte, rest) := by
  rcases escapeByte_cases byte with ⟨hspecial, hcode⟩ | ⟨-, hother, hcode⟩ | hcode
  · rw [hcode]
    simp only [List.mem_cons, List.not_mem_nil, or_false] at hspecial
    rcases hspecial with rfl | rfl | rfl | rfl <;> rfl
  · rw [hcode]
    simp [unescapeByte, hother]
  · obtain ⟨hlength, hvalue⟩ := padded_byte byte
    rw [hcode]
    generalize padded 16 2 byte.toNat = digits at hlength hvalue ⊢
    obtain ⟨high, low, rfl⟩ := List.length_eq_two.mp hlength
    simp [unescapeByte, hvalue]

theorem escapeByte_prefixFree : PrefixFree escapeByte := by
  apply PrefixFree.of_reader unescapeByte unescapeByte_escapeByte
  intro byte hempty
  have hread := unescapeByte_escapeByte byte []
  rw [hempty] at hread
  contradiction

theorem escape_eq_flatMap (value : Bytes) : escape value = value.flatMap escapeByte := by
  rw [escape, List.foldl_append_eq_append, List.nil_append, List.flatMap_def]

/-- An escaped text is printable, and no two values have the same. -/
theorem escape_lossless :
    (∀ value, ∀ byte ∈ escape value, 0x20 ≤ byte ∧ byte ≤ 0x7E) ∧ Function.Injective escape := by
  constructor
  · intro value byte hbyte
    rw [escape_eq_flatMap] at hbyte
    obtain ⟨source, -, hshown⟩ := List.mem_flatMap.mp hbyte
    have hprintable := of_decide_eq_true (escapeByte_printable hshown)
    exact ⟨hprintable.1, UInt8.le_iff_toNat_le.mpr
      (Nat.le_of_lt_succ (UInt8.lt_iff_toNat_lt.mp hprintable.2))⟩
  · intro first second hsame
    rw [escape_eq_flatMap, escape_eq_flatMap] at hsame
    exact escapeByte_prefixFree.flatMap_injective hsame

end Srnp.Gui
