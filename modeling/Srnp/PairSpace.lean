import Srnp.Codec

/-! The pair space: every pair a component holds, with the subscribers and the
callbacks this component keeps about it. A subscriber list never names an id
twice and an entry is always filed under the key of the pair it holds; both
facts are fields, so no operation below can produce a space without them.
Callbacks are values of an arbitrary type. -/
namespace Srnp
open Std LastWrite

/-- Owner ids, in the order they subscribed. -/
structure SubscriberList where
  ids : List OwnerId
  nodup : ids.Nodup

namespace SubscriberList

def empty : SubscriberList := ⟨[], List.nodup_nil⟩

instance : Membership OwnerId SubscriberList := ⟨fun list id => id ∈ list.ids⟩

instance (id : OwnerId) (list : SubscriberList) : Decidable (id ∈ list) :=
  inferInstanceAs (Decidable (id ∈ list.ids))

@[ext] theorem ext {left right : SubscriberList} (h : left.ids = right.ids) : left = right := by
  cases left
  cases right
  congr

/-- `push_back`, unless a search finds the id already there. -/
def push (list : SubscriberList) (id : OwnerId) : SubscriberList :=
  if h : id ∈ list.ids then list
  else ⟨list.ids ++ [id], by
    rw [List.nodup_append]
    exact ⟨list.nodup, List.nodup_singleton id, by
      intro a ha b hb
      rintro rfl
      exact h (List.mem_singleton.mp hb ▸ ha)⟩⟩

def erase (list : SubscriberList) (id : OwnerId) : SubscriberList :=
  ⟨list.ids.filter (· ≠ id), list.nodup.filter _⟩

@[simp] theorem mem_ids {list : SubscriberList} {id : OwnerId} : id ∈ list.ids ↔ id ∈ list :=
  Iff.rfl

@[simp] theorem not_mem_empty (id : OwnerId) : id ∉ empty := List.not_mem_nil

@[simp] theorem mem_push {list : SubscriberList} {id other : OwnerId} :
    other ∈ list.push id ↔ other ∈ list ∨ other = id := by
  unfold push
  split
  · rename_i h
    constructor
    · exact Or.inl
    · rintro (h' | rfl)
      · exact h'
      · exact h
  · change other ∈ list.ids ++ [id] ↔ other ∈ list.ids ∨ other = id
    simp

@[simp] theorem mem_erase {list : SubscriberList} {id other : OwnerId} :
    other ∈ list.erase id ↔ other ∈ list ∧ other ≠ id := by
  change other ∈ list.ids.filter (· ≠ id) ↔ other ∈ list.ids ∧ other ≠ id
  simp

end SubscriberList

structure PairEntry (F : Type) where
  pair : Pair
  subscribers : SubscriberList
  callbacks : ExtTreeMap CallbackHandle F

structure PairSpace (F : Type) where
  pairs : ExtTreeMap PairKey (PairEntry F)
  uSubscribers : SubscriberList
  callbackOwners : ExtTreeMap CallbackHandle PairKey
  universal : ExtTreeMap CallbackHandle F
  nextCallbackHandle : CallbackHandle
  keyed : ∀ (key : PairKey) (entry : PairEntry F), pairs[key]? = some entry → entry.pair.pairKey = key

namespace PairSpace
variable {F : Type}

def empty : PairSpace F :=
  ⟨∅, .empty, ∅, ∅, kInvalidCallbackHandle, by simp⟩

def find (space : PairSpace F) (key : PairKey) : Option (PairEntry F) := space.pairs[key]?

def copyOf (space : PairSpace F) (key : PairKey) : Option Pair :=
  (space.find key).map (·.pair)

def put (space : PairSpace F) (entry : PairEntry F) : PairSpace F :=
  { space with
    pairs := space.pairs.insert entry.pair.pairKey entry
    keyed := by
      intro key found h
      rw [ExtTreeMap.getElem?_insert] at h
      split at h
      · rename_i heq
        cases Option.some.inj h
        exact LawfulEqOrd.eq_of_compare heq
      · exact space.keyed key found h }

def drop (space : PairSpace F) (key : PairKey) : PairSpace F :=
  { space with
    pairs := space.pairs.erase key
    keyed := by
      intro other found h
      rw [ExtTreeMap.getElem?_erase] at h
      split at h
      · contradiction
      · exact space.keyed other found h }

def mapSubscribers (space : PairSpace F) (f : SubscriberList → SubscriberList) : PairSpace F :=
  { space with
    pairs := space.pairs.map fun _ entry => { entry with subscribers := f entry.subscribers }
    keyed := by
      intro key found h
      rw [ExtTreeMap.getElem?_map, Option.map_eq_some_iff] at h
      obtain ⟨entry, hentry, rfl⟩ := h
      exact space.keyed key entry hentry }

def addPair (space : PairSpace F) (pair : Pair) (now : TimePoint) :
    PairSpace F × PairEntry F :=
  match space.find pair.pairKey with
  | none =>
      let added : PairEntry F := ⟨{ pair with writeTime := now }, space.uSubscribers, ∅⟩
      (space.put added, added)
  | some existing =>
      let updated := { existing with
        pair := { existing.pair with type := pair.type, value := pair.value, writeTime := now } }
      (space.put updated, updated)

def removePair (space : PairSpace F) (key : PairKey) : PairSpace F :=
  match space.find key with
  | none => space
  | some entry =>
      if entry.subscribers.ids.isEmpty && entry.callbacks.isEmpty then space.drop key
      else space.put { entry with pair := { entry.pair with value := [], type := .invalid } }

/-- Holds a subscription or a callback for a key that has no value. -/
def placeholder (key : PairKey) : Pair :=
  { owner := key.owner, key := key.key, value := [], type := .invalid }

def entryOrPlaceholder (space : PairSpace F) (key : PairKey) (now : TimePoint) :
    PairSpace F × PairEntry F :=
  match space.find key with
  | none => space.addPair (placeholder key) now
  | some entry => (space, entry)

def addCallback (space : PairSpace F) (key : PairKey) (callback : F) (now : TimePoint) :
    PairSpace F × CallbackHandle :=
  let handle := space.nextCallbackHandle + 1
  let (space, entry) := space.entryOrPlaceholder key now
  ({ space.put { entry with callbacks := entry.callbacks.insertIfNew handle callback } with
      callbackOwners := space.callbackOwners.insertIfNew handle key
      nextCallbackHandle := handle }, handle)

def addCallbackToAll (space : PairSpace F) (callback : F) : PairSpace F × CallbackHandle :=
  let handle := space.nextCallbackHandle + 1
  ({ space with
      universal := space.universal.insertIfNew handle callback
      nextCallbackHandle := handle }, handle)

def universalCallbacks (space : PairSpace F) : List F := space.universal.toList.map (·.2)

def removeCallback (space : PairSpace F) (handle : CallbackHandle) : PairSpace F :=
  match space.callbackOwners[handle]? with
  | none => { space with universal := space.universal.erase handle }
  | some key =>
      let space := match space.find key with
        | some entry => space.put { entry with callbacks := entry.callbacks.erase handle }
        | none => space
      { space with callbackOwners := space.callbackOwners.erase handle }

def addSubscription (space : PairSpace F) (key : PairKey) (subscriber : OwnerId)
    (now : TimePoint) : PairSpace F :=
  let (space, entry) := space.entryOrPlaceholder key now
  space.put { entry with subscribers := entry.subscribers.push subscriber }

def removeSubscription (space : PairSpace F) (key : PairKey) (subscriber : OwnerId) :
    PairSpace F :=
  match space.find key with
  | none => space
  | some entry => space.put { entry with subscribers := entry.subscribers.erase subscriber }

def addSubscriptionToAll (space : PairSpace F) (subscriber : OwnerId) : PairSpace F :=
  if subscriber ∈ space.uSubscribers then space
  else { space.mapSubscribers (·.push subscriber) with
    uSubscribers := space.uSubscribers.push subscriber }

def removeSubscriptionToAll (space : PairSpace F) (subscriber : OwnerId) : PairSpace F :=
  { space.mapSubscribers (·.erase subscriber) with
    uSubscribers := space.uSubscribers.erase subscriber }

/-- What the callbacks collected for one change are: the universal ones, then
the entry's own. -/
def callbacksFor (space : PairSpace F) (entry : PairEntry F) : List F :=
  space.universalCallbacks ++ entry.callbacks.toList.map (·.2)

end PairSpace

end Srnp
