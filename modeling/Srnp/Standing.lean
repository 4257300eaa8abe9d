import Srnp.Subscribers

/-! What the lists of a component say of one subscriber: whether it is among
the wildcard subscribers, and which pairs it is listed for. While a wildcard
subscriber is listed everywhere, only its own subscription frames change this,
and each changes it in the same way whatever the component holds. -/
namespace Srnp
open Std LastWrite

structure Standing where
  universal : Bool
  listed : PairKey → Bool

namespace Standing

def none : Standing := ⟨false, fun _ => false⟩

/-- A wildcard subscriber is listed for every pair. -/
def Coherent (standing : Standing) : Prop :=
  standing.universal = true → ∀ key, standing.listed key = true

def apply (standing : Standing) (message : Subscription) : Standing :=
  let target : PairKey := ⟨message.ownerId, message.key⟩
  if message.registering then
    if message.key = kWildcardKey then ⟨true, fun _ => true⟩
    else ⟨standing.universal, fun key => decide (key = target) || standing.listed key⟩
  else if message.key = kWildcardKey then none
  else ⟨standing.universal, fun key => decide (key ≠ target) && standing.listed key⟩

/-- A pair of a wildcard subscriber is not cancelled by itself. -/
def Allows (standing : Standing) (message : Subscription) : Prop :=
  message.registering = false → message.key ≠ kWildcardKey → standing.universal = false

theorem none_coherent : none.Coherent := by
  intro h
  contradiction

theorem Coherent.apply {standing : Standing} {message : Subscription} (h : standing.Coherent)
    (hallows : standing.Allows message) : (standing.apply message).Coherent := by
  unfold Standing.apply
  split
  · split
    · exact fun _ _ => rfl
    · intro huniversal key
      simp [h huniversal key]
  · rename_i hregistering
    split
    · exact none_coherent
    · rename_i hexact
      intro huniversal
      rw [hallows (Bool.not_eq_true _ ▸ hregistering) hexact] at huniversal
      contradiction

/-! ### A list of frames, one after the other -/

def applyAll (standing : Standing) (messages : List Subscription) : Standing :=
  messages.foldl apply standing

def AllowsAll (standing : Standing) : List Subscription → Prop
  | [] => True
  | message :: rest => standing.Allows message ∧ (standing.apply message).AllowsAll rest

@[simp] theorem applyAll_nil (standing : Standing) : standing.applyAll [] = standing := rfl

@[simp] theorem applyAll_cons (standing : Standing) (message : Subscription)
    (rest : List Subscription) :
    standing.applyAll (message :: rest) = (standing.apply message).applyAll rest := rfl

theorem applyAll_append (standing : Standing) (messages later : List Subscription) :
    standing.applyAll (messages ++ later) = (standing.applyAll messages).applyAll later :=
  List.foldl_append

theorem AllowsAll.append {standing : Standing} {messages later : List Subscription}
    (h : standing.AllowsAll messages) (hlater : (standing.applyAll messages).AllowsAll later) :
    standing.AllowsAll (messages ++ later) := by
  induction messages generalizing standing with
  | nil => exact hlater
  | cons message rest ih => exact ⟨h.1, ih h.2 hlater⟩

end Standing

namespace Component
variable {F : Type} (c : Component F)

def standing (id : OwnerId) : Standing where
  universal := decide (id ∈ c.space.uSubscribers)
  listed key := decide (id ∈ c.space.subscribersOf key)

variable {c} {id : OwnerId}

theorem standing_eq {d : Component F} (huniversal : id ∈ d.space.uSubscribers ↔
      id ∈ c.space.uSubscribers)
    (hlisted : ∀ key, id ∈ d.space.subscribersOf key ↔ id ∈ c.space.subscribersOf key) :
    d.standing id = c.standing id := by
  simp only [standing, huniversal, hlisted]

theorem standing_enter (h : (c.standing id).Coherent) {call : Call F}
    (hcall : ∀ message, call ≠ .handle (.subscription message)) (now : TimePoint) :
    (c.enter call now).component.standing id = c.standing id := by
  have hkeeps := c.enter_keepsSubscribers hcall now
  apply standing_eq
  · rw [hkeeps.universal]
  · intro key
    rcases hkeeps.subscribers key with hsame | ⟨hempty, huniversal⟩
    · rw [hsame]
    · rw [hempty, huniversal]
      constructor
      · intro hid
        have hlisted := h (decide_eq_true hid) key
        simp [standing, hempty] at hlisted
      · intro hid
        exact absurd hid (SubscriberList.not_mem_empty id)

theorem standing_handleSubscription_other {message : Subscription}
    (hother : id ≠ message.subscriber) (now : TimePoint) :
    (c.handleSubscription message now).component.standing id = c.standing id := by
  apply standing_eq
  · exact c.mem_uSubscribers_handleSubscription hother now
  · exact c.mem_subscribersOf_handleSubscription hother now

theorem standing_enter_other (h : (c.standing id).Coherent) {call : Call F}
    (hcall : ∀ message, call = .handle (.subscription message) → id ≠ message.subscriber)
    (now : TimePoint) : (c.enter call now).component.standing id = c.standing id := by
  by_cases hsubscription : ∃ message, call = .handle (.subscription message)
  · obtain ⟨message, rfl⟩ := hsubscription
    exact standing_handleSubscription_other (hcall message rfl) now
  · apply standing_enter h
    intro message heq
    exact hsubscription ⟨message, heq⟩

theorem standing_cancel (h : c.standing id = .none) {message : Subscription}
    (hcancel : message.registering = false) (now : TimePoint) :
    (c.handleSubscription message now).component.standing id = .none := by
  have huniversal : id ∉ c.space.uSubscribers := of_decide_eq_false (congrArg Standing.universal h)
  have hlisted : ∀ key, id ∉ c.space.subscribersOf key := fun key =>
    of_decide_eq_false (congrFun (congrArg Standing.listed h) key)
  rw [← h]
  unfold handleSubscription
  split
  · rfl
  split
  · rfl
  rw [if_neg (by simp [hcancel])]
  split
  · apply standing_eq
    · simp [PairSpace.removeSubscriptionToAll, huniversal]
    · simp [PairSpace.subscribersOf_removeSubscriptionToAll, hlisted]
  · apply standing_eq
    · rw [PairSpace.uSubscribers_removeSubscription]
    · intro key
      rw [PairSpace.subscribersOf_removeSubscription]
      split <;> simp [hlisted]

theorem standing_handleSubscription {message : Subscription} (hto : message.ownerId = c.owner)
    (hfrom : message.subscriber ≠ c.owner) (h : (c.standing message.subscriber).Coherent)
    (hallows : (c.standing message.subscriber).Allows message) (now : TimePoint) :
    (c.handleSubscription message now).component.standing message.subscriber =
      (c.standing message.subscriber).apply message := by
  unfold handleSubscription
  rw [if_neg (by simp [hto]), if_neg hfrom]
  cases hregistering : message.registering with
  | true =>
    by_cases hwildcard : message.key = kWildcardKey
    · simp only [if_true, if_pos hwildcard, Standing.apply, hregistering]
      by_cases huniversal : message.subscriber ∈ c.space.uSubscribers
      · have hall := h (decide_eq_true huniversal)
        simp only [PairSpace.addSubscriptionToAll, if_pos huniversal]
        simp only [standing, decide_eq_true_eq] at hall
        simp [standing, huniversal, hall]
      · have hall := PairSpace.subscribersOf_addSubscriptionToAll huniversal
        simp [standing, hall]
        simp [PairSpace.addSubscriptionToAll, huniversal]
    · simp only [if_true, if_neg hwildcard, Standing.apply, hregistering, standing,
        PairSpace.uSubscribers_addSubscription, PairSpace.subscribersOf_addSubscription]
      congr 1
      funext key
      by_cases hkey : (⟨message.ownerId, message.key⟩ : PairKey) = key
      · simp [hkey]
      · simp [hkey, Ne.symm hkey]
  | false =>
    by_cases hwildcard : message.key = kWildcardKey
    · simp only [Bool.false_eq_true, if_false, if_pos hwildcard, Standing.apply, hregistering,
        standing, PairSpace.subscribersOf_removeSubscriptionToAll]
      simp [PairSpace.removeSubscriptionToAll, Standing.none]
    · have huniversal := hallows hregistering hwildcard
      simp only [standing, decide_eq_false_iff_not] at huniversal
      simp only [Bool.false_eq_true, if_false, if_neg hwildcard, Standing.apply, hregistering,
        standing, idle, PairSpace.uSubscribers_removeSubscription,
        PairSpace.subscribersOf_removeSubscription]
      congr 1
      funext key
      by_cases hkey : (⟨message.ownerId, message.key⟩ : PairKey) = key
      · subst hkey
        cases hfind : c.space.find ⟨message.ownerId, message.key⟩ with
        | none => simp [PairSpace.subscribersOf, hfind, huniversal]
        | some entry => simp
      · simp [hkey, Ne.symm hkey]

end Component

end Srnp
