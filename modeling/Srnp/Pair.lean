import Mathlib
import Srnp.Lib.LastWrite

/-! Pairs and the names they go by. A string of the source is a byte string, an
owner id a 32-bit integer and a time point a count of nanoseconds. -/
namespace Srnp
open Std LastWrite

abbrev Bytes := List UInt8
abbrev OwnerId := Int32
abbrev TimePoint := Int64
abbrev CallbackHandle := UInt64
abbrev SubscriptionHandle := UInt64

/-- Stands in for "any owner" in a wildcard subscription. -/
def kAnyOwner : OwnerId := -1

def kInvalidSubscriptionHandle : SubscriptionHandle := 0
def kInvalidCallbackHandle : CallbackHandle := 0

inductive PairType where
  | invalid
  | string
  | bytes
  | metaPair
deriving DecidableEq, Repr

structure Pair where
  owner : OwnerId
  key : Bytes
  value : Bytes
  type : PairType := .string
  writeTime : TimePoint := 0
  expiryTime : TimePoint := 0
deriving DecidableEq, Repr

structure PairKey where
  owner : OwnerId
  key : Bytes
deriving DecidableEq, Repr

/-- `PairKeyLess`: by owner first, then by the bytes of the key. -/
instance : Ord PairKey where
  compare := compareLex (compareOn PairKey.owner) (compareOn PairKey.key)

instance : TransOrd PairKey :=
  inferInstanceAs (TransCmp (compareLex (compareOn PairKey.owner) (compareOn PairKey.key)))

instance : LawfulEqOrd PairKey where
  eq_of_compare := by
    rintro ⟨owner, key⟩ ⟨owner', key'⟩ h
    have h' : (compare owner owner').then (compare key key') = .eq := h
    rw [Ordering.then_eq_eq] at h'
    rw [LawfulEqOrd.eq_of_compare h'.1, LawfulEqOrd.eq_of_compare h'.2]

def Pair.pairKey (pair : Pair) : PairKey := ⟨pair.owner, pair.key⟩

abbrev Shown := Bytes × PairType

/-- An invalid pair is a placeholder, so writing one takes the value away. -/
def Pair.write (pair : Pair) : Write PairKey Shown :=
  if pair.type = .invalid then .remove pair.pairKey
  else .put pair.pairKey (pair.value, pair.type)

@[simp] theorem Pair.write_key (pair : Pair) : pair.write.key = pair.pairKey := by
  unfold Pair.write
  split <;> rfl

end Srnp
