import Srnp.PairSpace

/-! What a pair space shows and whom it tells. `view` is the last-write map a
reader of the space sees, and `subscribersOf` is the list a change to a key is
announced to, whether or not the key has an entry yet. Every operation is
described by its effect on these two. -/
namespace Srnp
open Std LastWrite

/-- A placeholder has nothing to show. -/
def Pair.shown (pair : Pair) : Option Shown :=
  if pair.type = .invalid then none else some (pair.value, pair.type)

@[simp] theorem Pair.write_value (pair : Pair) : pair.write.value = pair.shown := by
  unfold Pair.write Pair.shown
  split <;> rfl

namespace PairSpace
variable {F : Type}

def view (space : PairSpace F) : Store PairKey Shown :=
  fun key => (space.find key).bind (·.pair.shown)

def subscribersOf (space : PairSpace F) (key : PairKey) : SubscriberList :=
  match space.find key with
  | some entry => entry.subscribers
  | none => space.uSubscribers

@[simp] theorem find_put (space : PairSpace F) (entry : PairEntry F) (key : PairKey) :
    (space.put entry).find key =
      if entry.pair.pairKey = key then some entry else space.find key := by
  simp [find, put, ExtTreeMap.getElem?_insert]

@[simp] theorem find_drop (space : PairSpace F) (dropped key : PairKey) :
    (space.drop dropped).find key = if dropped = key then none else space.find key := by
  simp [find, drop, ExtTreeMap.getElem?_erase]

@[simp] theorem find_mapSubscribers (space : PairSpace F) (f : SubscriberList → SubscriberList)
    (key : PairKey) :
    (space.mapSubscribers f).find key =
      (space.find key).map fun entry => { entry with subscribers := f entry.subscribers } := by
  simp [find, mapSubscribers]

@[simp] theorem uSubscribers_put (space : PairSpace F) (entry : PairEntry F) :
    (space.put entry).uSubscribers = space.uSubscribers := rfl

@[simp] theorem uSubscribers_drop (space : PairSpace F) (key : PairKey) :
    (space.drop key).uSubscribers = space.uSubscribers := rfl

theorem pairKey_of_find {space : PairSpace F} {key : PairKey} {entry : PairEntry F}
    (h : space.find key = some entry) : entry.pair.pairKey = key :=
  space.keyed key entry h

/-! Replacing an entry by one for the same key changes what that key shows and
whom it tells, and nothing else. -/

theorem view_put (space : PairSpace F) (entry : PairEntry F) (key : PairKey) :
    (space.put entry).view key =
      if entry.pair.pairKey = key then entry.pair.shown else space.view key := by
  simp only [view, find_put]
  split <;> rfl

theorem subscribersOf_put (space : PairSpace F) (entry : PairEntry F) (key : PairKey) :
    (space.put entry).subscribersOf key =
      if entry.pair.pairKey = key then entry.subscribers else space.subscribersOf key := by
  simp only [subscribersOf, find_put, uSubscribers_put]
  by_cases h : entry.pair.pairKey = key
  · rw [if_pos h, if_pos h]
  · rw [if_neg h, if_neg h]

theorem subscribersOf_of_find {space : PairSpace F} {key : PairKey} {entry : PairEntry F}
    (h : space.find key = some entry) : space.subscribersOf key = entry.subscribers := by
  simp [subscribersOf, h]

/-! ### Adding a pair -/

section
variable (space : PairSpace F) (pair : Pair) (now : TimePoint)

theorem addPair_eq_put : (space.addPair pair now).1 = space.put (space.addPair pair now).2 := by
  unfold addPair
  split <;> rfl

@[simp] theorem addPair_pairKey : (space.addPair pair now).2.pair.pairKey = pair.pairKey := by
  unfold addPair
  split
  · rfl
  · rename_i existing hfind
    have hkey := pairKey_of_find hfind
    exact hkey

@[simp] theorem addPair_value : (space.addPair pair now).2.pair.value = pair.value := by
  unfold addPair
  split <;> rfl

@[simp] theorem addPair_type : (space.addPair pair now).2.pair.type = pair.type := by
  unfold addPair
  split <;> rfl

@[simp] theorem addPair_subscribers :
    (space.addPair pair now).2.subscribers = space.subscribersOf pair.pairKey := by
  unfold addPair subscribersOf
  cases space.find pair.pairKey <;> rfl

@[simp] theorem uSubscribers_addPair :
    (space.addPair pair now).1.uSubscribers = space.uSubscribers := by
  rw [addPair_eq_put]
  rfl

theorem addPair_write : (space.addPair pair now).2.pair.write = pair.write := by
  simp only [Pair.write, addPair_type, addPair_pairKey, addPair_value]

theorem view_addPair : (space.addPair pair now).1.view = space.view.apply pair.write := by
  funext key
  rw [addPair_eq_put, view_put, addPair_pairKey]
  split
  · rename_i h
    rw [Store.apply_same (by simpa using h), ← addPair_write space pair now, Pair.write_value]
  · rename_i h
    rw [Store.apply_other (by simpa using h)]

@[simp] theorem subscribersOf_addPair (key : PairKey) :
    (space.addPair pair now).1.subscribersOf key = space.subscribersOf key := by
  rw [addPair_eq_put, subscribersOf_put, addPair_pairKey, addPair_subscribers]
  split
  · rename_i h
    rw [h]
  · rfl

end

/-! ### Removing a pair -/

section
variable (space : PairSpace F) (removed : PairKey)

@[simp] theorem uSubscribers_removePair :
    (space.removePair removed).uSubscribers = space.uSubscribers := by
  unfold removePair
  split
  · rfl
  · split <;> rfl

theorem view_removePair : (space.removePair removed).view = space.view.apply (.remove removed) := by
  funext key
  unfold removePair
  split
  · rename_i hfind
    by_cases h : removed = key
    · subst h
      simp [view, hfind]
    · rw [Store.apply_remove_other _ h]
  · rename_i entry hfind
    have hkey := pairKey_of_find hfind
    split
    · by_cases h : removed = key
      · subst h
        simp [view]
      · rw [Store.apply_remove_other _ h]
        simp [view, h]
    · rw [view_put]
      change (if entry.pair.pairKey = key then _ else _) = _
      rw [hkey]
      split
      · rename_i h
        subst h
        rw [Store.apply_remove]
        rfl
      · rename_i h
        rw [Store.apply_remove_other _ h]

/-- Removing a pair keeps its subscriber list, except that an empty one is
forgotten with the entry. -/
theorem subscribersOf_removePair (key : PairKey) :
    (space.removePair removed).subscribersOf key = space.subscribersOf key ∨
      (space.subscribersOf key = .empty ∧
        (space.removePair removed).subscribersOf key = space.uSubscribers) := by
  unfold removePair
  split
  · exact Or.inl rfl
  · rename_i entry hfind
    have hkey := pairKey_of_find hfind
    split
    · rename_i hempty
      by_cases h : removed = key
      · right
        subst h
        rw [Bool.and_eq_true, List.isEmpty_iff] at hempty
        refine ⟨?_, by simp [subscribersOf]⟩
        rw [subscribersOf_of_find hfind]
        exact SubscriberList.ext hempty.1
      · left
        simp [subscribersOf, h]
    · left
      rw [subscribersOf_put]
      change (if entry.pair.pairKey = key then _ else _) = _
      rw [hkey]
      split
      · rename_i h
        rw [← h, subscribersOf_of_find hfind]
      · rfl

theorem mem_subscribersOf_removePair {key : PairKey} {id : OwnerId}
    (h : id ∈ space.subscribersOf key) : id ∈ (space.removePair removed).subscribersOf key := by
  rcases space.subscribersOf_removePair removed key with hsame | ⟨hempty, _⟩
  · rwa [hsame]
  · rw [hempty] at h
    exact absurd h (SubscriberList.not_mem_empty id)

end

/-! ### Reading a pair -/

/-- The pair under a key, placeholders aside. -/
def held (space : PairSpace F) (key : PairKey) : Option Pair :=
  (space.copyOf key).filter fun pair => pair.type ≠ .invalid

theorem view_eq_held (space : PairSpace F) (key : PairKey) :
    space.view key = (space.held key).map fun pair => (pair.value, pair.type) := by
  unfold view held copyOf
  cases space.find key with
  | none => rfl
  | some entry =>
    by_cases h : entry.pair.type = .invalid <;> simp [Pair.shown, h, Option.filter]

theorem held_eq_some {space : PairSpace F} {key : PairKey} {pair : Pair} :
    space.held key = some pair ↔
      pair.type ≠ .invalid ∧ ∃ entry, space.find key = some entry ∧ entry.pair = pair := by
  unfold held copyOf
  rw [Option.filter_eq_some_iff, Option.map_eq_some_iff, decide_eq_true_iff]
  exact And.comm

theorem held_pairKey {space : PairSpace F} {key : PairKey} {pair : Pair}
    (h : space.held key = some pair) : pair.pairKey = key := by
  obtain ⟨_, entry, hfind, rfl⟩ := held_eq_some.mp h
  exact pairKey_of_find hfind

theorem held_put (space : PairSpace F) (entry : PairEntry F) (key : PairKey) :
    (space.put entry).held key =
      if entry.pair.pairKey = key then (some entry.pair).filter fun pair => pair.type ≠ .invalid
      else space.held key := by
  simp only [held, copyOf, find_put]
  split <;> rfl

theorem held_of_find {space : PairSpace F} {key : PairKey} {entry : PairEntry F}
    (h : space.find key = some entry) :
    space.held key = (some entry.pair).filter fun pair => pair.type ≠ .invalid := by
  simp [held, copyOf, h]

theorem view_congr {left right : PairSpace F} (h : left.held = right.held) :
    left.view = right.view := by
  funext key
  rw [view_eq_held, view_eq_held, h]

theorem held_put_same {space : PairSpace F} {key : PairKey} {entry changed : PairEntry F}
    (hfind : space.find key = some entry) (hpair : changed.pair = entry.pair) :
    (space.put changed).held = space.held := by
  funext other
  rw [held_put, hpair]
  split
  · rename_i h
    rw [held_of_find (h ▸ pairKey_of_find hfind ▸ hfind)]
  · rfl

/-! ### Placeholders, callbacks and subscriptions -/

section
variable (space : PairSpace F) (target : PairKey) (now : TimePoint)

@[simp] theorem placeholder_pairKey : (placeholder target).pairKey = target := rfl

theorem entryOrPlaceholder_find :
    (space.entryOrPlaceholder target now).1.find target =
      some (space.entryOrPlaceholder target now).2 := by
  unfold entryOrPlaceholder
  split
  · rw [addPair_eq_put, find_put, addPair_pairKey, placeholder_pairKey, if_pos rfl]
  · assumption

@[simp] theorem held_entryOrPlaceholder :
    (space.entryOrPlaceholder target now).1.held = space.held := by
  unfold entryOrPlaceholder
  split
  · rename_i hfind
    funext key
    rw [addPair_eq_put, held_put, addPair_pairKey, placeholder_pairKey]
    split
    · rename_i h
      rw [← h]
      simp [held, copyOf, hfind, Option.filter, placeholder]
    · rfl
  · rfl

@[simp] theorem subscribersOf_entryOrPlaceholder (key : PairKey) :
    (space.entryOrPlaceholder target now).1.subscribersOf key = space.subscribersOf key := by
  unfold entryOrPlaceholder
  split
  · exact subscribersOf_addPair _ _ _ _
  · rfl

@[simp] theorem uSubscribers_entryOrPlaceholder :
    (space.entryOrPlaceholder target now).1.uSubscribers = space.uSubscribers := by
  unfold entryOrPlaceholder
  split
  · exact uSubscribers_addPair _ _ _
  · rfl

end

theorem subscribersOf_put_subscribers {space : PairSpace F} {key : PairKey} {entry : PairEntry F}
    (hfind : space.find key = some entry) (list : SubscriberList) (other : PairKey) :
    (space.put { entry with subscribers := list }).subscribersOf other =
      if key = other then list else space.subscribersOf other := by
  rw [subscribersOf_put]
  change (if entry.pair.pairKey = other then _ else _) = _
  rw [pairKey_of_find hfind]

theorem subscribersOf_put_callbacks {space : PairSpace F} {key : PairKey} {entry : PairEntry F}
    (hfind : space.find key = some entry) (callbacks : ExtTreeMap CallbackHandle F)
    (other : PairKey) :
    (space.put { entry with callbacks := callbacks }).subscribersOf other =
      space.subscribersOf other := by
  rw [subscribersOf_put]
  change (if entry.pair.pairKey = other then entry.subscribers else _) = _
  split
  · rename_i h
    rw [← h, pairKey_of_find hfind, subscribersOf_of_find hfind]
  · rfl

theorem held_addCallback (space : PairSpace F) (key : PairKey) (callback : F)
    (now : TimePoint) : (space.addCallback key callback now).1.held = space.held := by
  rw [← held_entryOrPlaceholder space key now]
  exact held_put_same (space.entryOrPlaceholder_find key now) rfl

theorem view_addCallback (space : PairSpace F) (key : PairKey) (callback : F)
    (now : TimePoint) : (space.addCallback key callback now).1.view = space.view :=
  view_congr (space.held_addCallback key callback now)

theorem subscribersOf_addCallback (space : PairSpace F) (key : PairKey) (callback : F)
    (now : TimePoint) (other : PairKey) :
    (space.addCallback key callback now).1.subscribersOf other = space.subscribersOf other := by
  rw [← subscribersOf_entryOrPlaceholder space key now other]
  exact subscribersOf_put_callbacks (space.entryOrPlaceholder_find key now) _ other

theorem uSubscribers_addCallback (space : PairSpace F) (key : PairKey) (callback : F)
    (now : TimePoint) :
    (space.addCallback key callback now).1.uSubscribers = space.uSubscribers :=
  uSubscribers_entryOrPlaceholder space key now

theorem held_removeCallback (space : PairSpace F) (handle : CallbackHandle) :
    (space.removeCallback handle).held = space.held := by
  unfold removeCallback
  split
  · rfl
  · dsimp only
    split
    · rename_i hfind
      exact held_put_same hfind rfl
    · rfl

theorem view_removeCallback (space : PairSpace F) (handle : CallbackHandle) :
    (space.removeCallback handle).view = space.view :=
  view_congr (space.held_removeCallback handle)

theorem subscribersOf_removeCallback (space : PairSpace F) (handle : CallbackHandle)
    (other : PairKey) :
    (space.removeCallback handle).subscribersOf other = space.subscribersOf other := by
  unfold removeCallback
  split
  · rfl
  · dsimp only
    split
    · rename_i hfind
      exact subscribersOf_put_callbacks hfind _ other
    · rfl

theorem uSubscribers_removeCallback (space : PairSpace F) (handle : CallbackHandle) :
    (space.removeCallback handle).uSubscribers = space.uSubscribers := by
  unfold removeCallback
  split
  · rfl
  · dsimp only
    split <;> rfl

theorem held_addSubscription (space : PairSpace F) (key : PairKey) (subscriber : OwnerId)
    (now : TimePoint) : (space.addSubscription key subscriber now).held = space.held := by
  rw [← held_entryOrPlaceholder space key now]
  exact held_put_same (space.entryOrPlaceholder_find key now) rfl

theorem view_addSubscription (space : PairSpace F) (key : PairKey) (subscriber : OwnerId)
    (now : TimePoint) : (space.addSubscription key subscriber now).view = space.view :=
  view_congr (space.held_addSubscription key subscriber now)

theorem subscribersOf_addSubscription (space : PairSpace F) (key : PairKey)
    (subscriber : OwnerId) (now : TimePoint) (other : PairKey) :
    (space.addSubscription key subscriber now).subscribersOf other =
      if key = other then (space.subscribersOf key).push subscriber
      else space.subscribersOf other := by
  have hfind := space.entryOrPlaceholder_find key now
  have hput := subscribersOf_put_subscribers hfind
    ((space.entryOrPlaceholder key now).2.subscribers.push subscriber) other
  rw [← subscribersOf_of_find hfind, subscribersOf_entryOrPlaceholder,
    subscribersOf_entryOrPlaceholder] at hput
  rw [← hput, ← subscribersOf_entryOrPlaceholder space key now, subscribersOf_of_find hfind]
  rfl

theorem uSubscribers_addSubscription (space : PairSpace F) (key : PairKey)
    (subscriber : OwnerId) (now : TimePoint) :
    (space.addSubscription key subscriber now).uSubscribers = space.uSubscribers :=
  uSubscribers_entryOrPlaceholder space key now

theorem held_removeSubscription (space : PairSpace F) (key : PairKey) (subscriber : OwnerId) :
    (space.removeSubscription key subscriber).held = space.held := by
  unfold removeSubscription
  split
  · rfl
  · rename_i hfind
    exact held_put_same hfind rfl

theorem view_removeSubscription (space : PairSpace F) (key : PairKey) (subscriber : OwnerId) :
    (space.removeSubscription key subscriber).view = space.view :=
  view_congr (space.held_removeSubscription key subscriber)

theorem subscribersOf_removeSubscription (space : PairSpace F) (key : PairKey)
    (subscriber : OwnerId) (other : PairKey) :
    (space.removeSubscription key subscriber).subscribersOf other =
      if key = other ∧ (space.find key).isSome then (space.subscribersOf key).erase subscriber
      else space.subscribersOf other := by
  unfold removeSubscription
  split
  · rename_i hfind
    simp [hfind]
  · rename_i entry hfind
    rw [subscribersOf_put_subscribers hfind, subscribersOf_of_find hfind]
    simp [hfind]

theorem uSubscribers_removeSubscription (space : PairSpace F) (key : PairKey)
    (subscriber : OwnerId) :
    (space.removeSubscription key subscriber).uSubscribers = space.uSubscribers := by
  unfold removeSubscription
  split <;> rfl

theorem held_mapSubscribers (space : PairSpace F) (f : SubscriberList → SubscriberList) :
    (space.mapSubscribers f).held = space.held := by
  funext key
  simp only [held, copyOf, find_mapSubscribers]
  cases space.find key <;> rfl

theorem held_addSubscriptionToAll (space : PairSpace F) (subscriber : OwnerId) :
    (space.addSubscriptionToAll subscriber).held = space.held := by
  unfold addSubscriptionToAll
  split
  · rfl
  · exact held_mapSubscribers space (·.push subscriber)

theorem view_addSubscriptionToAll (space : PairSpace F) (subscriber : OwnerId) :
    (space.addSubscriptionToAll subscriber).view = space.view :=
  view_congr (space.held_addSubscriptionToAll subscriber)

theorem held_removeSubscriptionToAll (space : PairSpace F) (subscriber : OwnerId) :
    (space.removeSubscriptionToAll subscriber).held = space.held :=
  held_mapSubscribers space (·.erase subscriber)

theorem view_removeSubscriptionToAll (space : PairSpace F) (subscriber : OwnerId) :
    (space.removeSubscriptionToAll subscriber).view = space.view :=
  view_congr (space.held_removeSubscriptionToAll subscriber)

theorem subscribersOf_addSubscriptionToAll {space : PairSpace F} {subscriber : OwnerId}
    (h : subscriber ∉ space.uSubscribers) (key : PairKey) :
    (space.addSubscriptionToAll subscriber).subscribersOf key =
      (space.subscribersOf key).push subscriber := by
  unfold addSubscriptionToAll
  rw [if_neg h]
  change (match (space.mapSubscribers (·.push subscriber)).find key with
    | some entry => entry.subscribers
    | none => space.uSubscribers.push subscriber) = _
  rw [find_mapSubscribers]
  unfold subscribersOf
  cases space.find key <;> rfl

theorem subscribersOf_removeSubscriptionToAll (space : PairSpace F) (subscriber : OwnerId)
    (key : PairKey) :
    (space.removeSubscriptionToAll subscriber).subscribersOf key =
      (space.subscribersOf key).erase subscriber := by
  change (match (space.mapSubscribers (·.erase subscriber)).find key with
    | some entry => entry.subscribers
    | none => space.uSubscribers.erase subscriber) = _
  rw [find_mapSubscribers]
  unfold subscribersOf
  cases space.find key <;> rfl

end PairSpace

end Srnp
