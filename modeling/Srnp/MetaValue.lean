import Srnp.FromChars

/-! The values of meta-pairs, and the three parsers for them. All three take the
words apart the same way and then read the owner with `std::from_chars`; the
client looks at the error code and the end pointer, the tracker only at the
error code and the gui only at the end pointer. -/
namespace Srnp

/-- The words between spaces, without the parentheses around them. -/
def extractStrings (text : Bytes) : List Bytes :=
  let parenthesis (byte : UInt8) : Bool := byte = 40 ∨ byte = 41
  let words := (text.splitOn 32).map fun part => (part.dropWhile parenthesis).rdropWhile parenthesis
  words.filter fun word => !word.isEmpty

/-- The word `META`. -/
def kMeta : Bytes := [77, 69, 84, 65]

/-- The word `NULL`. -/
def kNull : Bytes := [78, 85, 76, 76]

namespace Client

def parseInt (text : Bytes) : Option OwnerId :=
  let result := fromCharsInto text 0
  if result.ec ≠ .ok ∨ result.rest ≠ [] then none else some result.value

def parseMetaValue (value : Bytes) : Option PairKey :=
  match extractStrings value with
  | [word, owner, key] => if word ≠ kMeta then none else (parseInt owner).map (⟨·, key⟩)
  | _ => none

end Client

/-- `parseMetaValue` of the trackers: a meta-pair that points nowhere gives nothing. -/
def MetaTracker.parseMetaValue (value : Bytes) : Option PairKey :=
  match extractStrings value with
  | [word, owner, key] =>
      if word ≠ kMeta then none
      else
        let result := fromCharsInto owner 0
        if result.ec ≠ .ok then none
        else if result.value = kAnyOwner ∧ key = kNull then none
        else some ⟨result.value, key⟩
  | _ => none

namespace Gui

structure MetaTarget where
  owner : OwnerId := kAnyOwner
  key : Bytes := []
deriving DecidableEq

def parseMetaTarget (value : Bytes) : Option MetaTarget :=
  match extractStrings value with
  | [word, owner, key] =>
      if word ≠ kMeta then none
      else
        let target : MetaTarget := {}
        let result := fromCharsInto owner target.owner
        if result.rest ≠ [] then none else some { owner := result.value, key }
  | _ => none

end Gui

/-! ### The parsers -/

/-- All three reject the value or all three give the same target, except that the tracker gives
nothing for a meta-pair that points nowhere. -/
def ParsersAgree (value : Bytes) : Prop :=
  MetaTracker.parseMetaValue value =
      (Client.parseMetaValue value).filter (fun target => target ≠ ⟨kAnyOwner, kNull⟩) ∧
    (Gui.parseMetaTarget value).map (fun target => (⟨target.owner, target.key⟩ : PairKey)) =
      Client.parseMetaValue value

/-- The owner of a meta-value is read alike: a number with something behind it is no `int`, or says
with its key that the meta-pair points nowhere, and a number alone is an `int`. -/
def OwnerReadAlike (owner key : Bytes) : Prop :=
  ∀ number rest, Numeral owner number rest →
    (InIntRange number → rest = [] ∨ (number = -1 ∧ key = kNull)) ∧
    (¬ InIntRange number → rest ≠ [])

theorem ofInt_eq_anyOwner {number : Int} (h : InIntRange number) :
    Int32.ofInt number = kAnyOwner ↔ number = -1 := by
  have hnumber := Int32.toInt_ofInt_of_le h.1 (Int.lt_of_le_of_lt h.2 (by decide))
  rw [← Int32.toInt_inj, hnumber]
  rfl

section
variable {value owner key : Bytes} (hwords : extractStrings value = [kMeta, owner, key])
include hwords

/-- The three parsers on a number: accepted whole, accepted in front, accepted at its end. -/
theorem parsersAgree_of_numeral {number : Int} {rest : Bytes} (h : Numeral owner number rest) :
    ParsersAgree value ↔ (InIntRange number → rest = [] ∨ (number = -1 ∧ key = kNull)) ∧
      (¬ InIntRange number → rest ≠ []) := by
  simp only [ParsersAgree, Client.parseMetaValue, MetaTracker.parseMetaValue, Gui.parseMetaTarget,
    Client.parseInt, hwords, h.fromChars, ne_eq, not_true, if_false]
  by_cases hrange : InIntRange number
  · rw [← ofInt_eq_anyOwner hrange]
    simp only [hrange]
    generalize Int32.ofInt number = read
    by_cases hrest : rest = []
    · by_cases hnowhere : read = kAnyOwner ∧ key = kNull <;>
        simp [hrest, hnowhere, Option.filter]
    · by_cases hnowhere : read = kAnyOwner ∧ key = kNull <;> simp [hrest, hnowhere]
  · by_cases hrest : rest = [] <;> simp [hrange, hrest]

theorem parsersAgree_of_words : ParsersAgree value ↔ OwnerReadAlike owner key := by
  constructor
  · intro hagree number rest hnumeral
    exact (parsersAgree_of_numeral hwords hnumeral).mp hagree
  · intro halike
    have hsome : owner ≠ [] := by
      have hmem : owner ∈ extractStrings value := by simp [hwords]
      have hword := (List.mem_filter.mp hmem).2
      simpa using hword
    rcases fromCharsInto_cases owner with ⟨number, rest, hnumeral⟩ | hnone
    · exact (parsersAgree_of_numeral hwords hnumeral).mpr (halike number rest hnumeral)
    · simp [ParsersAgree, Client.parseMetaValue, MetaTracker.parseMetaValue, Gui.parseMetaTarget,
        Client.parseInt, hwords, hnone, hsome]

end

theorem parsersAgree_of_other {value : Bytes}
    (hwords : ∀ owner key, extractStrings value ≠ [kMeta, owner, key]) : ParsersAgree value := by
  simp only [ParsersAgree, Client.parseMetaValue, MetaTracker.parseMetaValue, Gui.parseMetaTarget]
  split
  · rename_i word owner key heq
    have hother : word ≠ kMeta := by
      rintro rfl
      exact hwords owner key heq
    simp [hother]
  · exact ⟨rfl, rfl⟩

/-- The parsers agree unless the owner is an `int` followed by other characters, or a number that
is no `int`. -/
theorem parsers_agree_iff (value : Bytes) :
    ParsersAgree value ↔ ∀ owner key, extractStrings value = [kMeta, owner, key] →
      OwnerReadAlike owner key := by
  by_cases hwords : ∃ owner key, extractStrings value = [kMeta, owner, key]
  · obtain ⟨owner, key, hwords⟩ := hwords
    rw [parsersAgree_of_words hwords]
    constructor
    · intro halike owner' key' hwords'
      rw [hwords] at hwords'
      cases hwords'
      exact halike
    · intro halike
      exact halike owner key hwords
  · push Not at hwords
    exact iff_of_true (parsersAgree_of_other hwords) fun owner key h => absurd h (hwords owner key)

/-- `(META 1000x k)`: the tracker follows pair `k` of owner 1000, the others reject the value. -/
def trailing : Bytes := [40, 77, 69, 84, 65, 32, 49, 48, 48, 48, 120, 32, 107, 41]

/-- `(META 2147483648 k)`: the gui shows pair `k` of any owner, the others reject the value. -/
def overflowing : Bytes :=
  [40, 77, 69, 84, 65, 32, 50, 49, 52, 55, 52, 56, 51, 54, 52, 56, 32, 107, 41]

theorem parsers_disagree :
    (¬ ParsersAgree trailing ∧ Client.parseMetaValue trailing = none ∧
      MetaTracker.parseMetaValue trailing = some ⟨1000, [107]⟩ ∧
      Gui.parseMetaTarget trailing = none) ∧
    (¬ ParsersAgree overflowing ∧ Client.parseMetaValue overflowing = none ∧
      MetaTracker.parseMetaValue overflowing = none ∧
      Gui.parseMetaTarget overflowing = some ⟨-1, [107]⟩) := by
  have hrejects : Client.parseMetaValue trailing = none := by decide
  have htracks : MetaTracker.parseMetaValue trailing = some ⟨1000, [107]⟩ := by decide
  have hrefuses : Client.parseMetaValue overflowing = none := by decide
  have hshows : Gui.parseMetaTarget overflowing = some ⟨-1, [107]⟩ := by decide
  refine ⟨⟨?_, hrejects, htracks, by decide⟩, ⟨?_, hrefuses, by decide, hshows⟩⟩
  · intro hagree
    have htracker := hagree.1
    rw [hrejects, htracks] at htracker
    contradiction
  · intro hagree
    have hgui := hagree.2
    rw [hrefuses, hshows] at hgui
    contradiction

end Srnp
