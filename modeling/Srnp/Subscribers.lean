import Srnp.Replica

/-! Who is told of a change, in every state a component can be in. A component
is never in its own lists. For a pair of another owner it keeps no list of its
own making: such a pair is told to the wildcard subscribers, all of them and no
one else, because every entry is filed with them and every change of theirs
goes to all entries. -/
namespace Srnp
open Std LastWrite

namespace PairSpace
variable {F : Type}

/-- The lists are as before, except that an entry dropped without subscribers
counts as subscribed to by the wildcard subscribers. -/
structure KeepsSubscribers (before after : PairSpace F) : Prop where
  universal : after.uSubscribers = before.uSubscribers
  subscribers : ∀ key, after.subscribersOf key = before.subscribersOf key ∨
    (before.subscribersOf key = .empty ∧ after.subscribersOf key = before.uSubscribers)

theorem KeepsSubscribers.refl (space : PairSpace F) : KeepsSubscribers space space :=
  ⟨rfl, fun _ => Or.inl rfl⟩

theorem keeps_addPair (space : PairSpace F) (pair : Pair) (now : TimePoint) :
    KeepsSubscribers space (space.addPair pair now).1 :=
  ⟨space.uSubscribers_addPair pair now, fun key => Or.inl (space.subscribersOf_addPair pair now key)⟩

theorem keeps_removePair (space : PairSpace F) (key : PairKey) :
    KeepsSubscribers space (space.removePair key) :=
  ⟨space.uSubscribers_removePair key, space.subscribersOf_removePair key⟩

end PairSpace

namespace Component
variable {F : Type} (c : Component F)

theorem keeps_removal (key : Bytes) :
    PairSpace.KeepsSubscribers c.space (c.removePair key).component.space := by
  simp only [removePair_space]
  split
  · exact PairSpace.keeps_removePair _ _
  · exact .refl _

theorem enter_keepsSubscribers {call : Call F}
    (h : ∀ message, call ≠ .handle (.subscription message)) (now : TimePoint) :
    PairSpace.KeepsSubscribers c.space (c.enter call now).component.space := by
  cases call with
  | setPair key value type =>
    simp only [enter, setPair_space]
    split
    · exact PairSpace.keeps_addPair _ _ _
    · exact .refl _
  | setRemotePair owner key value type => exact .refl _
  | removePair key => exact c.keeps_removal key
  | removeRemotePair owner key =>
    simp only [enter, removeRemotePair]
    split
    · exact c.keeps_removal key
    · exact .refl _
  | registerCallback owner key callback =>
    simp only [enter, registerCallback]
    split
    · exact ⟨rfl, fun _ => Or.inl rfl⟩
    · exact ⟨PairSpace.uSubscribers_addCallback _ _ _ _,
        fun other => Or.inl (PairSpace.subscribersOf_addCallback _ _ _ _ other)⟩
  | cancelCallback handle =>
    exact ⟨PairSpace.uSubscribers_removeCallback _ _,
      fun other => Or.inl (PairSpace.subscribersOf_removeCallback _ _ other)⟩
  | registerSubscription owner key =>
    simp only [enter, space_registerSubscription]
    exact .refl _
  | cancelSubscription owner key =>
    simp only [enter, space_cancelSubscription]
    exact .refl _
  | cancelSubscriptionHandle handle =>
    simp only [enter, space_cancelSubscriptionHandle]
    exact .refl _
  | addSession component => exact .refl _
  | removeSession owner => exact .refl _
  | sendSubscriptionsFor owner session => exact .refl _
  | handle message =>
    cases message with
    | pair pair => exact PairSpace.keeps_addPair _ _ _
    | pairUpdate pair => exact PairSpace.keeps_addPair _ _ _
    | subscription message => exact absurd rfl (h message)
    | removePair request =>
      simp only [enter, handle, handleRemovePair_space]
      split
      · exact PairSpace.keeps_removePair _ _
      · exact .refl _
    | pairRemoved request => exact PairSpace.keeps_removePair _ _

structure Regular : Prop where
  universal : c.owner ∉ c.space.uSubscribers
  stranger : ∀ key, c.owner ∉ c.space.subscribersOf key
  uniform : ∀ key, key.owner ≠ c.owner → c.space.subscribersOf key = c.space.uSubscribers

theorem Regular.initial (owner : OwnerId) : (Component.initial owner : Component F).Regular := by
  have hlists : ∀ key, (Component.initial owner : Component F).space.subscribersOf key =
      (Component.initial owner : Component F).space.uSubscribers := by
    intro key
    simp [Component.initial, PairSpace.subscribersOf, PairSpace.find, PairSpace.empty]
  refine ⟨SubscriberList.not_mem_empty _, ?_, ?_⟩
  · intro key
    rw [hlists]
    exact SubscriberList.not_mem_empty _
  · intro key _
    exact hlists key

variable {c}

theorem Regular.of_keeps (h : c.Regular) {next : Component F} (howner : next.owner = c.owner)
    (hkeeps : PairSpace.KeepsSubscribers c.space next.space) : next.Regular := by
  constructor
  · rw [howner, hkeeps.universal]
    exact h.universal
  · intro key
    rw [howner]
    rcases hkeeps.subscribers key with hsame | ⟨_, hsame⟩
    · rw [hsame]
      exact h.stranger key
    · rw [hsame]
      exact h.universal
  · intro key hkey
    rw [howner] at hkey
    rw [hkeeps.universal]
    rcases hkeeps.subscribers key with hsame | ⟨_, hsame⟩
    · rw [hsame]
      exact h.uniform key hkey
    · exact hsame

theorem Regular.handleSubscription (h : c.Regular) (message : Subscription) (now : TimePoint) :
    (c.handleSubscription message now).component.Regular := by
  unfold Component.handleSubscription
  split
  · exact h
  rename_i hmine
  split
  · exact h
  rename_i hother
  have hself : c.owner ≠ message.subscriber := Ne.symm hother
  split
  · split
    · by_cases huniversal : message.subscriber ∈ c.space.uSubscribers
      · simp only [PairSpace.addSubscriptionToAll, huniversal, if_true]
        exact h
      · have hall := PairSpace.subscribersOf_addSubscriptionToAll huniversal
        have hnew : (c.space.addSubscriptionToAll message.subscriber).uSubscribers =
            c.space.uSubscribers.push message.subscriber := by
          simp [PairSpace.addSubscriptionToAll, huniversal]
        refine ⟨?_, ?_, ?_⟩
        · simp [hnew, h.universal, hself]
        · intro key
          simp [hall, h.stranger key, hself]
        · intro key hkey
          simp only [hall, hnew, h.uniform key hkey]
    · rename_i hexact
      have hown : message.ownerId = c.owner := by
        by_contra hforeign
        exact hmine ⟨hexact, hforeign⟩
      refine ⟨?_, ?_, ?_⟩
      · simp only [PairSpace.uSubscribers_addSubscription]
        exact h.universal
      · intro key
        simp only [PairSpace.subscribersOf_addSubscription]
        split
        · simp [h.stranger, hself]
        · exact h.stranger key
      · intro key hkey
        have hne : (⟨message.ownerId, message.key⟩ : PairKey) ≠ key := by
          rintro rfl
          exact hkey hown
        simp only [PairSpace.subscribersOf_addSubscription, if_neg hne,
          PairSpace.uSubscribers_addSubscription]
        exact h.uniform key hkey
  split
  · have hall := c.space.subscribersOf_removeSubscriptionToAll message.subscriber
    have hnew : (c.space.removeSubscriptionToAll message.subscriber).uSubscribers =
        c.space.uSubscribers.erase message.subscriber := rfl
    refine ⟨?_, ?_, ?_⟩
    · simp [hnew, h.universal]
    · intro key
      simp [hall, h.stranger key]
    · intro key hkey
      simp only [hall, hnew, h.uniform key hkey]
  · rename_i hexact
    have hown : message.ownerId = c.owner := by
      by_contra hforeign
      exact hmine ⟨hexact, hforeign⟩
    refine ⟨?_, ?_, ?_⟩
    · simp only [PairSpace.uSubscribers_removeSubscription]
      exact h.universal
    · intro key
      simp only [PairSpace.subscribersOf_removeSubscription]
      split
      · simp [h.stranger]
      · exact h.stranger key
    · intro key hkey
      have hne : ¬ ((⟨message.ownerId, message.key⟩ : PairKey) = key ∧
          (c.space.find ⟨message.ownerId, message.key⟩).isSome) := by
        rintro ⟨rfl, _⟩
        exact hkey hown
      simp only [PairSpace.subscribersOf_removeSubscription, if_neg hne,
        PairSpace.uSubscribers_removeSubscription]
      exact h.uniform key hkey

theorem Regular.enter (h : c.Regular) (call : Call F) (now : TimePoint) :
    (c.enter call now).component.Regular := by
  by_cases hsubscription : ∃ message, call = .handle (.subscription message)
  · obtain ⟨message, rfl⟩ := hsubscription
    exact h.handleSubscription message now
  · apply h.of_keeps (c.enter_owner call now)
    apply c.enter_keepsSubscribers
    intro message hcall
    exact hsubscription ⟨message, hcall⟩

end Component

/-! ### Whom frames are for -/

def Addressed (parcel : OwnerId × Message) : Prop :=
  ∀ key, parcel.2.target = some key → key.owner ≠ parcel.1

namespace Component
variable {F : Type} {c : Component F}

theorem addressed_of_untargeted {parcel : OwnerId × Message} (h : parcel.2.target = none) :
    Addressed parcel := by
  intro key hkey
  rw [h] at hkey
  contradiction

/-- Why a call owes `recipient` a frame about `key`. -/
inductive Tells (c : Component F) : Call F → OwnerId → PairKey → Prop
  | write {call : Call F} {recipient : OwnerId} {key : PairKey} :
      key.owner = c.owner → recipient ∈ c.space.subscribersOf key → Tells c call recipient key
  | update {pair : Pair} {recipient : OwnerId} :
      recipient ∈ c.space.subscribersOf pair.pairKey →
      Tells c (.handle (.pairUpdate pair)) recipient pair.pairKey
  | subscription {message : Subscription} {key : PairKey} :
      message.registering → message.subscriber ≠ c.owner → key.owner = c.owner →
      Tells c (.handle (.subscription message)) message.subscriber key

def TellsAll (c : Component F) (call : Call F) (todo : List (Action F)) : Prop :=
  ∀ parcel ∈ parcels todo, ∀ key, parcel.2.target = some key → c.Tells call parcel.1 key

theorem tells_nothing {call : Call F} {todo : List (Action F)}
    (h : ∀ parcel ∈ parcels todo, parcel.2.target = none) : c.TellsAll call todo := by
  intro parcel hparcel key hkey
  rw [h parcel hparcel] at hkey
  contradiction

theorem announced_listed {message : Message} {key : PairKey} {parcel : OwnerId × Message}
    (hparcel : parcel ∈ c.announced message) (hkey : parcel.2.target = some key) :
    message.target = some key ∧ parcel.1 ∈ c.space.subscribersOf key := by
  unfold announced at hparcel
  split at hparcel
  · rename_i other htarget
    split at hparcel
    · obtain ⟨id, hid, rfl⟩ := List.mem_map.mp hparcel
      rw [htarget] at hkey
      cases Option.some.inj hkey
      exact ⟨htarget, hid⟩
    · contradiction
  · contradiction

theorem tells_writes {call made : Call F} (hwrites : made.writes) (now : TimePoint) :
    c.TellsAll call (c.enter made now).todo := by
  rcases c.enter_writes hwrites now with hnothing | ⟨message, hwrote⟩
  · rw [hnothing]
    apply tells_nothing
    intro parcel hparcel
    contradiction
  · intro parcel hparcel key hkey
    rw [hwrote.parcels] at hparcel
    obtain ⟨htarget, hlisted⟩ := announced_listed hparcel hkey
    obtain ⟨write, hwrite, hof⟩ := Option.map_eq_some_iff.mp (message.target_eq ▸ htarget)
    have howner := c.ownWrite_owner (hwrote.write.symm.trans hwrite)
    rw [hof] at howner
    exact .write howner hlisted

theorem tells_handleSubscription (message : Subscription) (now : TimePoint) :
    c.TellsAll (.handle (.subscription message)) (c.handleSubscription message now).todo := by
  intro parcel hparcel key hkey
  unfold handleSubscription at hparcel
  split at hparcel
  · contradiction
  rename_i hmine
  split at hparcel
  · contradiction
  rename_i hother
  split at hparcel
  · rename_i hregistering
    split at hparcel
    · obtain ⟨pair, hpair, rfl⟩ := mem_parcels_sendEach hparcel
      obtain ⟨_, hfound⟩ := List.mem_filter.mp hpair
      cases Option.some.inj hkey
      exact .subscription hregistering hother (of_decide_eq_true hfound).1
    · rename_i hexact
      obtain ⟨pair, hpair, rfl⟩ := mem_parcels_sendEach hparcel
      obtain ⟨hcopy, _⟩ := List.mem_filter.mp hpair
      obtain ⟨entry, hfind, rfl⟩ := Option.map_eq_some_iff.mp (Option.mem_toList.mp hcopy)
      have hfiled := PairSpace.pairKey_of_find hfind
      cases Option.some.inj hkey
      refine .subscription hregistering hother ?_
      by_contra hforeign
      exact hmine ⟨hexact, fun howner => hforeign ((congrArg PairKey.owner hfiled).trans howner)⟩
  split at hparcel
  · contradiction
  · contradiction

theorem untargeted_sendTo {owner : OwnerId} {message : Message} (h : message.target = none) :
    ∀ parcel ∈ parcels (c.sendTo owner message).todo, parcel.2.target = none := by
  intro parcel hparcel
  unfold sendTo at hparcel
  split at hparcel
  · rw [List.mem_singleton.mp hparcel]
    exact h
  · contradiction

theorem untargeted_sendSubscription (owner : OwnerId) (key : Bytes) (registering : Bool) :
    ∀ parcel ∈ parcels (c.sendSubscription owner key registering).todo,
      parcel.2.target = none := by
  unfold sendSubscription
  split
  · exact untargeted_sendTo rfl
  · intro parcel hparcel
    contradiction

theorem tells_enter (call : Call F) (now : TimePoint) :
    c.TellsAll call (c.enter call now).todo := by
  cases call with
  | setPair key value type => exact tells_writes rfl now
  | setRemotePair owner key value type => exact tells_nothing (untargeted_sendTo rfl)
  | removePair key => exact tells_writes rfl now
  | removeRemotePair owner key =>
    simp only [enter, removeRemotePair]
    split
    · have hwrites : (Call.removePair key : Call F).writes := rfl
      exact tells_writes hwrites now
    · exact tells_nothing (untargeted_sendTo rfl)
  | registerCallback owner key callback =>
    simp only [enter, registerCallback]
    split <;> exact tells_nothing (by simp [idle])
  | cancelCallback handle => exact tells_nothing (by simp [enter, cancelCallback, idle])
  | registerSubscription owner key =>
    simp only [enter, registerSubscription]
    split
    · exact tells_nothing (by simp [idle])
    · exact tells_nothing (untargeted_sendSubscription _ _ _)
  | cancelSubscription owner key =>
    simp only [enter, cancelSubscription]
    split
    · exact tells_nothing (by simp [idle])
    · exact tells_nothing (untargeted_sendSubscription _ _ _)
  | cancelSubscriptionHandle handle =>
    simp only [enter, cancelSubscriptionHandle]
    split
    · exact tells_nothing (by simp [idle])
    · exact tells_nothing (untargeted_sendSubscription _ _ _)
  | addSession component => exact tells_nothing (by simp [enter, addSession, idle])
  | removeSession owner => exact tells_nothing (by simp [enter, removeSession, idle])
  | sendSubscriptionsFor owner session =>
    apply tells_nothing
    intro parcel hparcel
    obtain ⟨action, haction, hsome⟩ := List.mem_filterMap.mp hparcel
    obtain ⟨message, _, rfl⟩ := List.mem_map.mp haction
    cases Option.some.inj hsome
    rfl
  | handle message =>
    cases message with
    | pair pair => exact tells_writes rfl now
    | pairUpdate pair =>
      intro parcel hparcel key hkey
      simp only [enter, handle, handlePairUpdate, parcels_applyAndNotify] at hparcel
      obtain ⟨htarget, hlisted⟩ := announced_listed hparcel hkey
      have hpair : (Message.pairUpdate (c.space.addPair pair now).2.pair).target =
          some pair.pairKey := congrArg some (c.space.addPair_pairKey pair now)
      cases Option.some.inj (hpair.symm.trans htarget)
      exact .update hlisted
    | subscription message => exact tells_handleSubscription message now
    | removePair request => exact tells_writes rfl now
    | pairRemoved request => exact tells_nothing (by simp [enter, handle, handlePairRemoved])

/-- No call sends a pair to its owner, unless it forwards a pair of a wildcard
subscriber. -/
theorem Regular.addressed_enter (h : c.Regular) {call : Call F} {now : TimePoint}
    (hecho : ∀ pair, call = .handle (.pairUpdate pair) → pair.owner ∉ c.space.uSubscribers) :
    ∀ parcel ∈ parcels (c.enter call now).todo, Addressed parcel := by
  rintro ⟨recipient, message⟩ hparcel key hkey heq
  cases tells_enter call now (recipient, message) hparcel key hkey with
  | write howner hlisted =>
    rw [← heq, howner] at hlisted
    exact h.stranger key hlisted
  | @update pair _ hlisted =>
    by_cases hown : pair.owner = c.owner
    · rw [← heq, show pair.pairKey.owner = c.owner from hown] at hlisted
      exact h.stranger _ hlisted
    · rw [h.uniform _ hown, ← heq] at hlisted
      exact hecho pair rfl hlisted
  | subscription _ hother howner => exact hother (heq.symm.trans howner)

end Component

end Srnp
