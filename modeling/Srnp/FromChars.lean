import Srnp.Pair

/-! `std::from_chars` for an `int` in base ten. What it makes of a text is told by
the decimal number that the text begins with, if it begins with one. -/
namespace Srnp

inductive Errc where
  | ok
  | invalidArgument
  | resultOutOfRange
deriving DecidableEq

/-- What `std::from_chars` leaves: the text from its end pointer on, the error
code and the integer it was given to write to. -/
structure FromCharsResult where
  rest : Bytes
  ec : Errc
  value : OwnerId
deriving DecidableEq

def isDigit (byte : UInt8) : Bool := 48 ≤ byte ∧ byte ≤ 57

def magnitude (digits : Bytes) : Int :=
  digits.foldl (fun value byte => 10 * value + (byte.toNat - 48 : Int)) 0

def InIntRange (number : Int) : Prop := -2147483648 ≤ number ∧ number ≤ 2147483647

instance (number : Int) : Decidable (InIntRange number) :=
  inferInstanceAs (Decidable (_ ∧ _))

/-- `std::from_chars` for an `int` in base ten. -/
def fromCharsInto (text : Bytes) (value : OwnerId) : FromCharsResult :=
  let negative := text.head? = some 45
  let body := if negative then text.tail else text
  let digits := body.takeWhile isDigit
  let number := if negative then -magnitude digits else magnitude digits
  if digits = [] then ⟨text, .invalidArgument, value⟩
  else if InIntRange number then ⟨body.dropWhile isDigit, .ok, Int32.ofInt number⟩
  else ⟨body.dropWhile isDigit, .resultOutOfRange, value⟩

/-! ### Numbers -/

/-- A text that begins with a decimal number, and what follows the number. -/
inductive Numeral : Bytes → Int → Bytes → Prop
  | positive {digits rest : Bytes} (hsome : digits ≠ []) (hdigits : ∀ byte ∈ digits, isDigit byte)
      (hrest : ∀ byte, rest.head? = some byte → isDigit byte = false) :
      Numeral (digits ++ rest) (magnitude digits) rest
  | negative {digits rest : Bytes} (hsome : digits ≠ []) (hdigits : ∀ byte ∈ digits, isDigit byte)
      (hrest : ∀ byte, rest.head? = some byte → isDigit byte = false) :
      Numeral (45 :: (digits ++ rest)) (-magnitude digits) rest

section
variable {digits rest : Bytes}

theorem takeWhile_digits (hdigits : ∀ byte ∈ digits, isDigit byte)
    (hrest : ∀ byte, rest.head? = some byte → isDigit byte = false) :
    (digits ++ rest).takeWhile isDigit = digits := by
  rw [List.takeWhile_append_of_pos hdigits]
  cases rest with
  | nil => exact List.append_nil digits
  | cons byte rest => simp [hrest byte rfl]

theorem dropWhile_digits (hdigits : ∀ byte ∈ digits, isDigit byte)
    (hrest : ∀ byte, rest.head? = some byte → isDigit byte = false) :
    (digits ++ rest).dropWhile isDigit = rest := by
  rw [List.dropWhile_append_of_pos hdigits]
  cases rest with
  | nil => rfl
  | cons byte rest => simp [hrest byte rfl]

end

theorem Numeral.fromChars {text rest : Bytes} {number : Int} (h : Numeral text number rest)
    (value : OwnerId) :
    fromCharsInto text value =
      if InIntRange number then ⟨rest, .ok, Int32.ofInt number⟩
      else ⟨rest, .resultOutOfRange, value⟩ := by
  cases h with
  | @positive digits _ hsome hdigits hrest =>
    have hsign : (digits ++ rest).head? ≠ some 45 := by
      cases digits with
      | nil => contradiction
      | cons byte digits =>
        intro hsign
        cases Option.some.inj hsign
        exact absurd (hdigits 45 List.mem_cons_self) (by decide)
    simp only [fromCharsInto, hsign, if_false, takeWhile_digits hdigits hrest,
      dropWhile_digits hdigits hrest, hsome]
  | negative hsome hdigits hrest =>
    simp only [fromCharsInto, List.head?_cons, if_true, List.tail_cons,
      takeWhile_digits hdigits hrest, dropWhile_digits hdigits hrest, hsome, if_false]

theorem fromCharsInto_cases (text : Bytes) :
    (∃ number rest, Numeral text number rest) ∨
      ∀ value, fromCharsInto text value = ⟨text, .invalidArgument, value⟩ := by
  let body := if text.head? = some 45 then text.tail else text
  by_cases hnone : body.takeWhile isDigit = []
  · right
    intro value
    simp only [fromCharsInto, body] at hnone ⊢
    rw [if_pos hnone]
  · left
    have hsplit := List.takeWhile_append_dropWhile (p := isDigit) (l := body)
    have hdigits : ∀ byte ∈ body.takeWhile isDigit, isDigit byte :=
      fun byte hbyte => List.mem_takeWhile_imp hbyte
    have hrest : ∀ byte, (body.dropWhile isDigit).head? = some byte → isDigit byte = false := by
      intro byte hbyte
      have hstop := List.head?_dropWhile_not isDigit body
      rw [hbyte] at hstop
      exact hstop
    by_cases hsign : text.head? = some 45
    · have htext : text = 45 :: body := by
        simp only [body, if_pos hsign]
        exact List.eq_cons_of_mem_head? hsign
      rw [htext, ← hsplit]
      exact ⟨_, _, .negative hnone hdigits hrest⟩
    · have htext : text = body := by
        simp only [body, if_neg hsign]
      rw [htext, ← hsplit]
      exact ⟨_, _, .positive hnone hdigits hrest⟩

end Srnp
