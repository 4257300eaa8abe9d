import Srnp.MetaValue
import Srnp.Lib.Numerals
import Srnp.Lib.Words

/-! The text of a meta-pair goes through a format and back. The words of
`(META o k)` are `META`, the owner and the words of the key, so the key comes
back exactly if it is its own only word. -/
namespace Srnp
open Numerals Words

/-- `{}` of an `int` -/
def formatInt (number : OwnerId) : Bytes :=
  if number < 0 then 45 :: digits 10 number.toInt.natAbs else digits 10 number.toInt.natAbs

/-- `(META {} {})`, as `Client::setMetaPair` writes it. -/
def formatMeta (owner : OwnerId) (key : Bytes) : Bytes :=
  [40] ++ kMeta ++ [32] ++ formatInt owner ++ [32] ++ key ++ [41]

/-! ### The owner -/

theorem digits_isDigit {number : Nat} {byte : UInt8} (h : byte ∈ digits 10 number) :
    isDigit byte := by
  obtain ⟨digit, hdigit, rfl⟩ := mem_digits (by decide) h
  have hall : ∀ digit < 10, isDigit digit.digitChar.toUInt8 := by decide
  exact hall digit hdigit

theorem digitValue_decimal {byte : UInt8} (h : isDigit byte) :
    digitValue byte = some (byte.toNat - 48) := if_pos (of_decide_eq_true h)

theorem magnitude_eq_value {text : Bytes} (h : ∀ byte ∈ text, isDigit byte) :
    value 10 text = some (magnitude text).toNat ∧ 0 ≤ magnitude text := by
  induction text using List.reverseRecOn with
  | nil => exact ⟨rfl, Int.le_refl 0⟩
  | append_singleton front byte ih =>
    obtain ⟨hvalue, hfront⟩ := ih fun other hother => h other (List.mem_append_left _ hother)
    have hbyte := h byte (List.mem_append_right _ List.mem_cons_self)
    have hlow : 48 ≤ byte.toNat := UInt8.le_iff_toNat_le.mp (of_decide_eq_true hbyte).1
    have hstep : magnitude (front ++ [byte]) = 10 * magnitude front + (byte.toNat - 48 : Int) := by
      rw [magnitude, List.foldl_append]
      rfl
    constructor
    · rw [value_append hvalue, hstep]
      simp only [List.foldlM_cons, List.foldlM_nil, digitValue_decimal hbyte]
      change some (10 * (magnitude front).toNat + (byte.toNat - 48)) = _
      exact congrArg some (by omega)
    · omega

theorem magnitude_digits (number : Nat) : magnitude (digits 10 number) = number := by
  obtain ⟨hvalue, hpos⟩ := magnitude_eq_value fun byte (h : byte ∈ digits 10 number) =>
    digits_isDigit h
  rw [value_digits (by decide) (by decide)] at hvalue
  have hnumber := Option.some.inj hvalue
  omega

theorem digits_ne_nil (base number : Nat) : digits base number ≠ [] := by
  rw [digits, ne_eq, List.map_eq_nil_iff]
  exact Nat.toDigits_ne_nil

theorem formatInt_numeral (owner : OwnerId) : Numeral (formatInt owner) owner.toInt [] := by
  have hdigits : ∀ byte ∈ digits 10 owner.toInt.natAbs, isDigit byte := fun byte h =>
    digits_isDigit h
  have hrest : ∀ byte : UInt8, ([] : Bytes).head? = some byte → isDigit byte = false :=
    fun byte h => absurd h (by simp)
  have hmagnitude := magnitude_digits owner.toInt.natAbs
  unfold formatInt
  by_cases hnegative : owner < 0
  · have hsign : owner.toInt < 0 := Int32.lt_iff_toInt_lt.mp hnegative
    have hnumeral := Numeral.negative (digits_ne_nil _ _) hdigits hrest
    rw [hmagnitude, List.append_nil] at hnumeral
    rw [if_pos hnegative]
    have hvalue : -(owner.toInt.natAbs : Int) = owner.toInt := by omega
    rwa [hvalue] at hnumeral
  · have hsign : 0 ≤ owner.toInt := Int.not_lt.mp fun h => hnegative (Int32.lt_iff_toInt_lt.mpr h)
    have hnumeral := Numeral.positive (digits_ne_nil _ _) hdigits hrest
    rw [hmagnitude, List.append_nil] at hnumeral
    rw [if_neg hnegative]
    have hvalue : (owner.toInt.natAbs : Int) = owner.toInt := by omega
    rwa [hvalue] at hnumeral

/-- `std::format` and `std::from_chars` are inverse on an `int`. -/
theorem fromCharsInto_formatInt (owner : OwnerId) (initial : OwnerId) :
    fromCharsInto (formatInt owner) initial = ⟨[], .ok, owner⟩ := by
  have hrange : InIntRange owner.toInt := ⟨owner.le_toInt, Int.le_of_lt_add_one owner.toInt_lt⟩
  rw [(formatInt_numeral owner).fromChars, if_pos hrange, Int32.ofInt_toInt]

/-! ### The words of the key -/

def isParenthesis (byte : UInt8) : Bool := byte = 40 ∨ byte = 41

def trimParentheses (part : Bytes) : Bytes :=
  (part.dropWhile isParenthesis).rdropWhile isParenthesis

theorem extractStrings_eq_words (text : Bytes) :
    extractStrings text = words 32 trimParentheses text := rfl

theorem trimParentheses_subset (part : Bytes) : trimParentheses part ⊆ part :=
  fun _ h => (List.dropWhile_suffix _).subset ((List.rdropWhile_prefix _ _).subset h)

theorem trimParentheses_close (part : Bytes) :
    trimParentheses (part ++ [41]) = trimParentheses part := by
  unfold trimParentheses
  rw [List.dropWhile_append]
  split
  · rename_i hempty
    rw [List.isEmpty_iff.mp hempty]
    rfl
  · exact List.rdropWhile_concat_pos _ _ _ (by decide)

theorem trimParentheses_eq_self {part : Bytes} (hfirst : ∀ byte ∈ part.head?, ¬ isParenthesis byte)
    (hlast : ∀ byte ∈ part.getLast?, ¬ isParenthesis byte) : trimParentheses part = part := by
  have hfront : part.dropWhile isParenthesis = part := by
    cases part with
    | nil => rfl
    | cons byte part => exact List.dropWhile_cons_of_neg (hfirst byte rfl)
  rw [trimParentheses, hfront, List.rdropWhile_eq_self_iff]
  intro hsome
  exact hlast _ (List.getLast_mem_getLast? hsome)

theorem trimParentheses_eq_self_iff (part : Bytes) : trimParentheses part = part ↔
    (∀ byte ∈ part.head?, ¬ isParenthesis byte) ∧ ∀ byte ∈ part.getLast?, ¬ isParenthesis byte := by
  constructor
  · intro hself
    have hback := List.rdropWhile_prefix isParenthesis (part.dropWhile isParenthesis)
    have hshort := hback.length_le
    change (trimParentheses part).length ≤ _ at hshort
    rw [hself] at hshort
    have hfront : part.dropWhile isParenthesis = part :=
      (List.dropWhile_suffix isParenthesis).eq_of_length_le hshort
    rw [trimParentheses, hfront] at hself
    constructor
    · intro byte hbyte
      have hstop := List.head?_dropWhile_not isParenthesis part
      rw [hfront, hbyte] at hstop
      exact Bool.eq_false_iff.mp hstop
    · intro byte hbyte
      obtain ⟨hsome, rfl⟩ := List.mem_getLast?_eq_getLast hbyte
      exact List.rdropWhile_eq_self_iff.mp hself hsome
  · rintro ⟨hfirst, hlast⟩
    exact trimParentheses_eq_self hfirst hlast

theorem extractStrings_close (key : Bytes) : extractStrings (key ++ [41]) = extractStrings key := by
  rw [extractStrings_eq_words, extractStrings_eq_words]
  induction key using @split_induction _ _ _ (32 : UInt8) with
  | hword part hpart =>
    have hclosed : (32 : UInt8) ∉ part ++ [41] := by simp [hpart]
    rw [words_singleton hclosed, words_singleton hpart, trimParentheses_close]
  | hjoin front rest _ ih =>
    rw [List.append_assoc, List.cons_append, words_append, words_append, ih]

theorem space_not_mem_formatInt (owner : OwnerId) : (32 : UInt8) ∉ formatInt owner := by
  intro h
  unfold formatInt at h
  split at h
  · rcases List.mem_cons.mp h with hsign | hdigit
    · exact absurd hsign (by decide)
    · exact absurd (digits_isDigit hdigit) (by decide)
  · exact absurd (digits_isDigit h) (by decide)

theorem formatInt_ne_nil (owner : OwnerId) : formatInt owner ≠ [] := by
  unfold formatInt
  split
  · exact List.cons_ne_nil _ _
  · exact digits_ne_nil _ _

theorem formatInt_unparenthesised {owner : OwnerId} {byte : UInt8} (h : byte ∈ formatInt owner) :
    ¬ isParenthesis byte := by
  intro hparenthesis
  have hcases : byte = 40 ∨ byte = 41 := of_decide_eq_true hparenthesis
  unfold formatInt at h
  split at h
  · rcases List.mem_cons.mp h with hsign | hdigit
    · rcases hcases with rfl | rfl <;> contradiction
    · rcases hcases with rfl | rfl <;> exact absurd (digits_isDigit hdigit) (by decide)
  · rcases hcases with rfl | rfl <;> exact absurd (digits_isDigit h) (by decide)

theorem extractStrings_formatMeta (owner : OwnerId) (key : Bytes) :
    extractStrings (formatMeta owner key) = kMeta :: formatInt owner :: extractStrings key := by
  have htrim : trimParentheses (formatInt owner) = formatInt owner :=
    trimParentheses_eq_self (fun _ h => formatInt_unparenthesised (List.mem_of_mem_head? h))
      fun _ h => formatInt_unparenthesised (List.mem_of_mem_getLast? h)
  have hkept : trimParentheses (formatInt owner) ≠ [] := by
    rw [htrim]
    exact formatInt_ne_nil owner
  have hvalue : formatMeta owner key =
      ([40] ++ kMeta) ++ 32 :: (formatInt owner ++ 32 :: (key ++ [41])) := by
    simp only [formatMeta, List.append_assoc, List.cons_append, List.nil_append]
  rw [hvalue, extractStrings_eq_words, words_cons_of_ne_nil (by decide) (by decide),
    words_cons_of_ne_nil (space_not_mem_formatInt owner) hkept, htrim,
    ← extractStrings_eq_words, extractStrings_close]
  rfl

/-! ### Reading it back -/

/-- The key is not empty, has no space and no parenthesis at an end. -/
def PlainKey (key : Bytes) : Prop :=
  key ≠ [] ∧ (32 : UInt8) ∉ key ∧ (∀ byte ∈ key.head?, byte ≠ 40 ∧ byte ≠ 41) ∧
    ∀ byte ∈ key.getLast?, byte ≠ 40 ∧ byte ≠ 41

theorem not_isParenthesis (byte : UInt8) : ¬ isParenthesis byte ↔ byte ≠ 40 ∧ byte ≠ 41 := by
  simp [isParenthesis]

theorem extractStrings_eq_singleton (key : Bytes) : extractStrings key = [key] ↔ PlainKey key := by
  simp only [PlainKey, ← not_isParenthesis, ← trimParentheses_eq_self_iff]
  rw [extractStrings_eq_words]
  constructor
  · intro hself
    have hmem : key ∈ words 32 trimParentheses key := by
      rw [hself]
      exact List.mem_singleton_self key
    obtain ⟨hsome, hspace⟩ := mem_words trimParentheses_subset hmem
    refine ⟨hsome, hspace, ?_⟩
    rw [words_singleton hspace] at hself
    split at hself
    · contradiction
    · exact (List.cons.inj hself).1
  · rintro ⟨hsome, hspace, htrim⟩
    rw [words_singleton hspace, htrim, if_neg hsome]

theorem Client.parseMetaValue_formatMeta (owner : OwnerId) (key : Bytes) :
    Client.parseMetaValue (formatMeta owner key) =
      match extractStrings key with
      | [word] => some ⟨owner, word⟩
      | _ => none := by
  have howner : Client.parseInt (formatInt owner) = some owner := by
    rw [Client.parseInt, fromCharsInto_formatInt]
    rfl
  rw [Client.parseMetaValue, extractStrings_formatMeta]
  rcases extractStrings key with _ | ⟨word, _ | ⟨next, more⟩⟩
  · rfl
  · simp [howner]
  · rfl

theorem MetaTracker.parseMetaValue_formatMeta (owner : OwnerId) (key : Bytes) :
    MetaTracker.parseMetaValue (formatMeta owner key) =
      match extractStrings key with
      | [word] => if owner = kAnyOwner ∧ word = kNull then none else some ⟨owner, word⟩
      | _ => none := by
  rw [MetaTracker.parseMetaValue, extractStrings_formatMeta]
  rcases extractStrings key with _ | ⟨word, _ | ⟨next, more⟩⟩
  · rfl
  · simp [fromCharsInto_formatInt]
  · rfl

/-- Only a plain key comes back, to the client and to the trackers, and to the
latter nothing comes back for the pair that stands for none. -/
theorem metaValue_round_trip (owner : OwnerId) (key : Bytes) :
    (Client.parseMetaValue (formatMeta owner key) = some ⟨owner, key⟩ ↔ PlainKey key) ∧
    (MetaTracker.parseMetaValue (formatMeta owner key) = some ⟨owner, key⟩ ↔
      PlainKey key ∧ ¬ (owner = kAnyOwner ∧ key = kNull)) ∧
    MetaTracker.parseMetaValue (formatMeta kAnyOwner kNull) = none := by
  rw [Client.parseMetaValue_formatMeta, MetaTracker.parseMetaValue_formatMeta,
    MetaTracker.parseMetaValue_formatMeta, ← extractStrings_eq_singleton]
  refine ⟨?_, ?_, by decide⟩
  · rcases extractStrings key with _ | ⟨word, _ | ⟨next, more⟩⟩ <;> simp
  · rcases extractStrings key with _ | ⟨word, _ | ⟨next, more⟩⟩
    · simp
    · by_cases hnowhere : owner = kAnyOwner ∧ word = kNull
      · simp only [if_pos hnowhere]
        constructor
        · intro h
          contradiction
        · rintro ⟨hword, hsomewhere⟩
          cases hword
          exact absurd hnowhere hsomewhere
      · simp only [if_neg hnowhere]
        constructor
        · intro h
          cases Option.some.inj h
          exact ⟨rfl, hnowhere⟩
        · rintro ⟨hword, _⟩
          cases hword
          rfl
    · simp

end Srnp
