import Srnp.CallbackOrder
import Srnp.Lib.HandleTable

/-! Which callback a handle names. A callback of one pair is kept with the
entry of the pair, and `callback_owners_` says which pair that is; a callback of
every pair is kept in a map of its own. In every space that can come about the
two agree, so a handle names at most one callback, and of all the calls of a
component only `registerCallback` and `cancelCallback` change what it names. -/
namespace Srnp
open Std LastWrite

namespace PairSpace
variable {F : Type} (space : PairSpace F)

def callbacksAt (key : PairKey) : ExtTreeMap CallbackHandle F :=
  match space.find key with
  | some entry => entry.callbacks
  | none => ∅

/-- The callback is called under the handle, for changes of the pair named or,
where none is, for all changes. -/
def Runs (handle : CallbackHandle) : Option PairKey × F → Prop
  | (some key, callback) => (space.callbacksAt key)[handle]? = some callback
  | (none, callback) => space.universal[handle]? = some callback

def callbackAt (handle : CallbackHandle) : Option (Option PairKey × F) :=
  match space.callbackOwners[handle]? with
  | some key => (space.callbacksAt key)[handle]?.map (some key, ·)
  | none => space.universal[handle]?.map (none, ·)

/-- Every callback of a pair is filed under its handle, and no other handle is. -/
structure Filed : Prop where
  owned : ∀ (handle : CallbackHandle) (key : PairKey),
    space.callbackOwners[handle]? = some key ↔ handle ∈ space.callbacksAt key
  universal : ∀ handle : CallbackHandle,
    handle ∈ space.universal → space.callbackOwners[handle]? = none

structure SameCallbacks (other : PairSpace F) : Prop where
  callbacksAt : other.callbacksAt = space.callbacksAt
  callbackOwners : other.callbackOwners = space.callbackOwners
  universal : other.universal = space.universal
  nextCallbackHandle : other.nextCallbackHandle = space.nextCallbackHandle

variable {space} {other : PairSpace F}

theorem SameCallbacks.refl : space.SameCallbacks space := ⟨rfl, rfl, rfl, rfl⟩

theorem SameCallbacks.trans {third : PairSpace F} (first : space.SameCallbacks other)
    (second : other.SameCallbacks third) : space.SameCallbacks third where
  callbacksAt := second.callbacksAt.trans first.callbacksAt
  callbackOwners := second.callbackOwners.trans first.callbackOwners
  universal := second.universal.trans first.universal
  nextCallbackHandle := second.nextCallbackHandle.trans first.nextCallbackHandle

theorem SameCallbacks.callbackAt (h : space.SameCallbacks other) :
    other.callbackAt = space.callbackAt := by
  funext handle
  unfold PairSpace.callbackAt
  rw [h.callbacksAt, h.callbackOwners, h.universal]

theorem SameCallbacks.filed (h : space.SameCallbacks other) (hfiled : space.Filed) :
    other.Filed := by
  constructor
  · rw [h.callbacksAt, h.callbackOwners]
    exact hfiled.owned
  · rw [h.callbackOwners, h.universal]
    exact hfiled.universal

theorem Filed.empty : (empty : PairSpace F).Filed := by
  constructor
  · intro handle key
    simp [PairSpace.empty, callbacksAt, find]
  · intro handle _
    rfl

theorem Filed.runs_iff (h : space.Filed) {handle : CallbackHandle} {named : Option PairKey × F} :
    space.Runs handle named ↔ space.callbackAt handle = some named := by
  obtain ⟨place, callback⟩ := named
  unfold callbackAt
  cases hplace : space.callbackOwners[handle]? with
  | none =>
    cases place with
    | none => simp [Runs]
    | some key =>
      simp only [Runs, Option.map_eq_some_iff, Prod.mk.injEq, reduceCtorEq, false_and, and_false,
        exists_false, iff_false]
      intro hfind
      have howned := (h.owned handle key).mpr (ExtTreeMap.getElem?_eq_some_iff.mp hfind).1
      rw [hplace] at howned
      contradiction
  | some owner =>
    cases place with
    | none =>
      simp only [Runs, Option.map_eq_some_iff, Prod.mk.injEq, reduceCtorEq, false_and, and_false,
        exists_false, iff_false]
      intro hfind
      have hnone := h.universal handle (ExtTreeMap.getElem?_eq_some_iff.mp hfind).1
      rw [hplace] at hnone
      contradiction
    | some key =>
      simp only [Runs, Option.map_eq_some_iff, Prod.mk.injEq, Option.some.injEq]
      constructor
      · intro hfind
        have howned := (h.owned handle key).mpr (ExtTreeMap.getElem?_eq_some_iff.mp hfind).1
        rw [hplace] at howned
        cases howned
        exact ⟨callback, hfind, rfl, rfl⟩
      · rintro ⟨found, hfind, rfl, rfl⟩
        exact hfind

theorem Filed.of_callbackAt_none (h : space.Filed) {handle : CallbackHandle}
    (hnone : space.callbackAt handle = none) :
    handle ∉ space.callbackOwners ∧ handle ∉ space.universal ∧
      ∀ key, handle ∉ space.callbacksAt key := by
  have howners : space.callbackOwners[handle]? = none := by
    cases hplace : space.callbackOwners[handle]? with
    | none => rfl
    | some key =>
      have hmem := (h.owned handle key).mp hplace
      simp only [callbackAt, hplace, Option.map_eq_none_iff, getElem?_eq_none_iff] at hnone
      exact absurd hmem hnone
  refine ⟨?_, ?_, ?_⟩
  · simpa using howners
  · simpa [callbackAt, howners] using hnone
  · intro key hmem
    have howned := (h.owned handle key).mpr hmem
    rw [howners] at howned
    contradiction

/-! ### The operations that leave the callbacks alone -/

theorem callbacksAt_of_find {key : PairKey} {entry : PairEntry F}
    (h : space.find key = some entry) : space.callbacksAt key = entry.callbacks := by
  simp [callbacksAt, h]

theorem callbacksAt_put (entry : PairEntry F) (key : PairKey) :
    (space.put entry).callbacksAt key =
      if entry.pair.pairKey = key then entry.callbacks else space.callbacksAt key := by
  simp only [callbacksAt, find_put]
  by_cases h : entry.pair.pairKey = key
  · rw [if_pos h, if_pos h]
  · rw [if_neg h, if_neg h]

theorem SameCallbacks.put {entry : PairEntry F}
    (h : entry.callbacks = space.callbacksAt entry.pair.pairKey) :
    space.SameCallbacks (space.put entry) := by
  refine ⟨?_, rfl, rfl, rfl⟩
  funext key
  rw [callbacksAt_put]
  split
  · rename_i heq
    rw [h, heq]
  · rfl

theorem SameCallbacks.put_same {key : PairKey} {entry changed : PairEntry F}
    (hfind : space.find key = some entry) (hkey : changed.pair.pairKey = entry.pair.pairKey)
    (hsame : changed.callbacks = entry.callbacks) : space.SameCallbacks (space.put changed) := by
  apply SameCallbacks.put
  rw [hsame, hkey, pairKey_of_find hfind, callbacksAt_of_find hfind]

section
variable (space)

theorem SameCallbacks.addPair (pair : Pair) (now : TimePoint) :
    space.SameCallbacks (space.addPair pair now).1 := by
  rw [addPair_eq_put]
  apply SameCallbacks.put
  rw [addPair_pairKey]
  unfold PairSpace.addPair PairSpace.callbacksAt
  cases space.find pair.pairKey <;> rfl

theorem SameCallbacks.removePair (key : PairKey) :
    space.SameCallbacks (space.removePair key) := by
  unfold PairSpace.removePair
  split
  · exact .refl
  · rename_i entry hfind
    split
    · rename_i hempty
      rw [Bool.and_eq_true, ExtTreeMap.isEmpty_iff] at hempty
      refine ⟨?_, rfl, rfl, rfl⟩
      funext other
      simp only [PairSpace.callbacksAt, find_drop]
      by_cases heq : key = other
      · rw [if_pos heq, ← heq, hfind]
        exact hempty.2.symm
      · rw [if_neg heq]
    · exact .put_same hfind rfl rfl

theorem SameCallbacks.entryOrPlaceholder (key : PairKey) (now : TimePoint) :
    space.SameCallbacks (space.entryOrPlaceholder key now).1 := by
  unfold PairSpace.entryOrPlaceholder
  split
  · exact .addPair space _ now
  · exact .refl

theorem SameCallbacks.addSubscription (key : PairKey) (subscriber : OwnerId) (now : TimePoint) :
    space.SameCallbacks (space.addSubscription key subscriber now) :=
  (SameCallbacks.entryOrPlaceholder space key now).trans
    (.put_same (space.entryOrPlaceholder_find key now) rfl rfl)

theorem SameCallbacks.removeSubscription (key : PairKey) (subscriber : OwnerId) :
    space.SameCallbacks (space.removeSubscription key subscriber) := by
  unfold PairSpace.removeSubscription
  split
  · exact .refl
  · rename_i hfind
    exact .put_same hfind rfl rfl

theorem SameCallbacks.mapSubscribers (f : SubscriberList → SubscriberList) :
    space.SameCallbacks (space.mapSubscribers f) := by
  refine ⟨?_, rfl, rfl, rfl⟩
  funext key
  simp only [PairSpace.callbacksAt, find_mapSubscribers]
  cases space.find key <;> rfl

theorem SameCallbacks.addSubscriptionToAll (subscriber : OwnerId) :
    space.SameCallbacks (space.addSubscriptionToAll subscriber) := by
  unfold PairSpace.addSubscriptionToAll
  split
  · exact .refl
  · obtain ⟨hat, _, _, _⟩ := SameCallbacks.mapSubscribers space (·.push subscriber)
    exact ⟨hat, rfl, rfl, rfl⟩

theorem SameCallbacks.removeSubscriptionToAll (subscriber : OwnerId) :
    space.SameCallbacks (space.removeSubscriptionToAll subscriber) := by
  obtain ⟨hat, _, _, _⟩ := SameCallbacks.mapSubscribers space (·.erase subscriber)
  exact ⟨hat, rfl, rfl, rfl⟩

end

/-! ### Registering and cancelling -/

theorem callbacksAt_addCallback (key : PairKey) (callback : F) (now : TimePoint)
    (asked : PairKey) :
    (space.addCallback key callback now).1.callbacksAt asked =
      if key = asked then (space.callbacksAt key).insertIfNew (space.nextCallbackHandle + 1) callback
      else space.callbacksAt asked := by
  have hsame := SameCallbacks.entryOrPlaceholder space key now
  have hfind := space.entryOrPlaceholder_find key now
  have hentry := callbacksAt_of_find hfind
  rw [hsame.callbacksAt] at hentry
  change ((space.entryOrPlaceholder key now).1.put
    { (space.entryOrPlaceholder key now).2 with
      callbacks := (space.entryOrPlaceholder key now).2.callbacks.insertIfNew
        (space.nextCallbackHandle + 1) callback }).callbacksAt asked = _
  rw [callbacksAt_put, hsame.callbacksAt, ← hentry]
  change (if (space.entryOrPlaceholder key now).2.pair.pairKey = asked then _ else _) = _
  rw [pairKey_of_find hfind]

theorem callbackOwners_addCallback (key : PairKey) (callback : F) (now : TimePoint) :
    (space.addCallback key callback now).1.callbackOwners =
      space.callbackOwners.insertIfNew (space.nextCallbackHandle + 1) key := by
  have hsame := SameCallbacks.entryOrPlaceholder space key now
  change (space.entryOrPlaceholder key now).1.callbackOwners.insertIfNew _ _ = _
  rw [hsame.callbackOwners]

theorem universal_addCallback (key : PairKey) (callback : F) (now : TimePoint) :
    (space.addCallback key callback now).1.universal = space.universal :=
  (SameCallbacks.entryOrPlaceholder space key now).universal

theorem getElem?_insertIfNew_fresh {β : Type} {map : ExtTreeMap CallbackHandle β}
    {handle : CallbackHandle} (h : handle ∉ map) (value : β) (asked : CallbackHandle) :
    (map.insertIfNew handle value)[asked]? =
      if asked = handle then some value else map[asked]? := by
  rw [ExtTreeMap.getElem?_insertIfNew]
  simp only [LawfulEqOrd.compare_eq_iff_eq, h, not_false_eq_true, and_true]
  exact if_congr eq_comm rfl rfl

theorem getElem?_erase_handle {β : Type} {map : ExtTreeMap CallbackHandle β}
    (handle asked : CallbackHandle) :
    (map.erase handle)[asked]? = if asked = handle then none else map[asked]? := by
  rw [ExtTreeMap.getElem?_erase]
  simp only [LawfulEqOrd.compare_eq_iff_eq]
  exact if_congr eq_comm rfl rfl

section
variable (hfiled : space.Filed) (hfresh : space.callbackAt (space.nextCallbackHandle + 1) = none)
include hfiled hfresh

theorem Filed.addCallback (key : PairKey) (callback : F) (now : TimePoint) :
    (space.addCallback key callback now).1.Filed := by
  obtain ⟨howners, huniversal, hentries⟩ := hfiled.of_callbackAt_none hfresh
  constructor
  · intro handle asked
    rw [callbackOwners_addCallback, callbacksAt_addCallback,
      getElem?_insertIfNew_fresh howners]
    have hold := hfiled.owned handle asked
    by_cases heq : handle = space.nextCallbackHandle + 1
    · subst heq
      rw [if_pos rfl]
      by_cases hkey : key = asked
      · simp [hkey]
      · simp [hkey, hentries asked]
    · rw [if_neg heq, hold]
      by_cases hkey : key = asked
      · subst hkey
        simp [Ne.symm heq]
      · rw [if_neg hkey]
  · intro handle hmem
    rw [universal_addCallback] at hmem
    rw [callbackOwners_addCallback, getElem?_insertIfNew_fresh howners,
      if_neg ?_]
    · exact hfiled.universal handle hmem
    · rintro rfl
      exact huniversal hmem

theorem Filed.callbackAt_addCallback (key : PairKey) (callback : F) (now : TimePoint) :
    (space.addCallback key callback now).1.callbackAt =
      Function.update space.callbackAt (space.nextCallbackHandle + 1) (some (some key, callback)) := by
  obtain ⟨howners, _, hentries⟩ := hfiled.of_callbackAt_none hfresh
  funext handle
  rw [callbackAt, callbackOwners_addCallback, getElem?_insertIfNew_fresh howners,
    universal_addCallback]
  by_cases heq : handle = space.nextCallbackHandle + 1
  · subst heq
    rw [if_pos rfl, Function.update_self]
    simp only [callbacksAt_addCallback, if_true]
    rw [getElem?_insertIfNew_fresh (hentries key), if_pos rfl]
    rfl
  · rw [if_neg heq, Function.update_of_ne heq, callbackAt]
    cases space.callbackOwners[handle]? with
    | none => rfl
    | some asked =>
      simp only [callbacksAt_addCallback]
      by_cases hkey : key = asked
      · subst hkey
        rw [if_pos rfl, getElem?_insertIfNew_fresh (hentries key), if_neg heq]
      · rw [if_neg hkey]

theorem Filed.addCallbackToAll (callback : F) : (space.addCallbackToAll callback).1.Filed := by
  obtain ⟨howners, _, _⟩ := hfiled.of_callbackAt_none hfresh
  refine ⟨hfiled.owned, ?_⟩
  intro handle hmem
  change space.callbackOwners[handle]? = none
  by_cases heq : handle = space.nextCallbackHandle + 1
  · rw [heq]
    exact ExtTreeMap.getElem?_eq_none howners
  · apply hfiled.universal
    change handle ∈ space.universal.insertIfNew _ callback at hmem
    simpa [Ne.symm heq] using hmem

theorem Filed.callbackAt_addCallbackToAll (callback : F) :
    (space.addCallbackToAll callback).1.callbackAt =
      Function.update space.callbackAt (space.nextCallbackHandle + 1) (some (none, callback)) := by
  obtain ⟨howners, huniversal, _⟩ := hfiled.of_callbackAt_none hfresh
  funext handle
  change (match space.callbackOwners[handle]? with
    | some key => (space.callbacksAt key)[handle]?.map (some key, ·)
    | none => (space.universal.insertIfNew _ callback)[handle]?.map (none, ·)) = _
  rw [getElem?_insertIfNew_fresh huniversal]
  by_cases heq : handle = space.nextCallbackHandle + 1
  · subst heq
    rw [ExtTreeMap.getElem?_eq_none howners, Function.update_self, if_pos rfl]
    rfl
  · rw [if_neg heq, Function.update_of_ne heq]
    rfl

end

theorem removeCallback_universal {handle : CallbackHandle}
    (h : space.callbackOwners[handle]? = none) :
    space.removeCallback handle = { space with universal := space.universal.erase handle } := by
  unfold removeCallback
  rw [h]

theorem removeCallback_owned (hfiled : space.Filed) {handle : CallbackHandle} {key : PairKey}
    (h : space.callbackOwners[handle]? = some key) :
    (space.removeCallback handle).callbackOwners = space.callbackOwners.erase handle ∧
      (space.removeCallback handle).universal = space.universal ∧
      ∀ asked, (space.removeCallback handle).callbacksAt asked =
        if key = asked then (space.callbacksAt key).erase handle else space.callbacksAt asked := by
  have hmem := (hfiled.owned handle key).mp h
  unfold removeCallback
  rw [h]
  dsimp only
  cases hfind : space.find key with
  | none => simp [callbacksAt, hfind] at hmem
  | some entry =>
    refine ⟨rfl, rfl, ?_⟩
    intro asked
    change (space.put _).callbacksAt asked = _
    rw [callbacksAt_put, callbacksAt_of_find hfind]
    change (if entry.pair.pairKey = asked then _ else _) = _
    rw [pairKey_of_find hfind]

theorem Filed.removeCallback (hfiled : space.Filed) (handle : CallbackHandle) :
    (space.removeCallback handle).Filed := by
  cases hplace : space.callbackOwners[handle]? with
  | none =>
    rw [removeCallback_universal hplace]
    refine ⟨hfiled.owned, ?_⟩
    intro other hmem
    exact hfiled.universal other (ExtTreeMap.mem_of_mem_erase hmem)
  | some key =>
    obtain ⟨howners, huniversal, hentries⟩ := removeCallback_owned hfiled hplace
    constructor
    · intro other asked
      rw [howners, hentries, getElem?_erase_handle]
      have hold := hfiled.owned other asked
      by_cases heq : other = handle
      · subst heq
        rw [hplace] at hold
        by_cases hkey : key = asked
        · simp [hkey]
        · simpa [hkey] using hold
      · rw [if_neg heq, hold]
        by_cases hkey : key = asked
        · subst hkey
          simp [Ne.symm heq]
        · rw [if_neg hkey]
    · intro other hmem
      rw [huniversal] at hmem
      rw [howners, getElem?_erase_handle]
      split
      · rfl
      · exact hfiled.universal other hmem

theorem Filed.callbackAt_removeCallback (hfiled : space.Filed) (handle : CallbackHandle) :
    (space.removeCallback handle).callbackAt = Function.update space.callbackAt handle none := by
  funext other
  cases hplace : space.callbackOwners[handle]? with
  | none =>
    rw [removeCallback_universal hplace]
    change (match space.callbackOwners[other]? with
      | some key => (space.callbacksAt key)[other]?.map (some key, ·)
      | none => (space.universal.erase handle)[other]?.map (none, ·)) = _
    by_cases heq : other = handle
    · subst heq
      rw [hplace, Function.update_self]
      simp
    · rw [Function.update_of_ne heq, getElem?_erase_handle, if_neg heq]
      rfl
  | some key =>
    obtain ⟨howners, huniversal, hentries⟩ := removeCallback_owned hfiled hplace
    rw [callbackAt, howners, huniversal, getElem?_erase_handle]
    by_cases heq : other = handle
    · subst heq
      rw [if_pos rfl, Function.update_self, Option.map_eq_none_iff]
      apply ExtTreeMap.getElem?_eq_none
      intro hmem
      have hnone := hfiled.universal other hmem
      rw [hplace] at hnone
      contradiction
    · rw [if_neg heq, Function.update_of_ne heq, callbackAt]
      cases space.callbackOwners[other]? with
      | none => rfl
      | some asked =>
        simp only [hentries]
        by_cases hkey : key = asked
        · subst hkey
          rw [if_pos rfl, getElem?_erase_handle, if_neg heq]
        · rw [if_neg hkey]

end PairSpace

def Call.aboutCallbacks {F : Type} : Call F → Bool
  | .registerCallback .. => true
  | .cancelCallback _ => true
  | _ => false

namespace Component
variable {F : Type} (c : Component F)
open PairSpace

theorem sameCallbacks_removePair (key : Bytes) :
    c.space.SameCallbacks (c.removePair key).component.space := by
  rw [removePair_space]
  dsimp only
  split
  · exact .removePair c.space _
  · exact .refl

theorem sameCallbacks_handleSubscription (message : Subscription) (now : TimePoint) :
    c.space.SameCallbacks (c.handleSubscription message now).component.space := by
  unfold handleSubscription
  split
  · exact .refl
  split
  · exact .refl
  split
  · split
    · exact .addSubscriptionToAll c.space _
    · exact .addSubscription c.space _ _ _
  split
  · exact .removeSubscriptionToAll c.space _
  · exact .removeSubscription c.space _ _

theorem sameCallbacks_enter {call : Call F} (h : call.aboutCallbacks = false) (now : TimePoint) :
    c.space.SameCallbacks (c.enter call now).component.space := by
  cases call with
  | setPair key value type =>
    simp only [enter, setPair_space]
    split
    · exact .addPair c.space _ now
    · exact .refl
  | setRemotePair owner key value type => exact .refl
  | removePair key => exact c.sameCallbacks_removePair key
  | removeRemotePair owner key =>
    simp only [enter, removeRemotePair]
    split
    · exact c.sameCallbacks_removePair key
    · exact .refl
  | registerCallback owner key callback => contradiction
  | cancelCallback handle => contradiction
  | registerSubscription owner key =>
    simp only [enter, space_registerSubscription]
    exact .refl
  | cancelSubscription owner key =>
    simp only [enter, space_cancelSubscription]
    exact .refl
  | cancelSubscriptionHandle handle =>
    simp only [enter, space_cancelSubscriptionHandle]
    exact .refl
  | addSession component => exact .refl
  | removeSession owner => exact .refl
  | sendSubscriptionsFor owner session => exact .refl
  | handle message =>
    cases message with
    | pair pair => exact .addPair c.space _ now
    | pairUpdate pair => exact .addPair c.space _ now
    | subscription message => exact c.sameCallbacks_handleSubscription message now
    | removePair request =>
      simp only [enter, handle, handleRemovePair_space]
      split
      · exact .removePair c.space _
      · exact .refl
    | pairRemoved request => exact .removePair c.space _

end Component

end Srnp
