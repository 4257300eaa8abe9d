import Srnp.PublishOrder

/-! A subscriber that joins while pairs are being published. The handler of a
subscription registers the subscriber and collects the current values under
the lock, and sends what it collected after releasing it. A publish that falls
in between already sees the subscriber, so its frame may leave first. Where
publishes of a covered key wait for the collected value to be sent, the last
frame the subscriber is handed says what the owner holds. -/
namespace Srnp
open Std LastWrite Transition

def Subscription.covers (message : Subscription) (key : PairKey) : Prop :=
  message.key = kWildcardKey ∨ (message.ownerId = key.owner ∧ message.key = key.key)

namespace Component
variable {F : Type} (c : Component F)

theorem mem_ownPairs {space : PairSpace F} {pair : Pair} :
    pair ∈ c.ownPairs space ↔ pair.owner = c.owner ∧ space.held pair.pairKey = some pair := by
  unfold ownPairs
  rw [List.mem_filter, List.mem_map, decide_eq_true_iff, PairSpace.held_eq_some]
  constructor
  · rintro ⟨⟨⟨key, entry⟩, hmem, rfl⟩, howner, htype⟩
    have hfind : space.find key = some entry := ExtTreeMap.mem_toList_iff_getElem?_eq_some.mp hmem
    refine ⟨howner, htype, entry, ?_, rfl⟩
    rw [PairSpace.pairKey_of_find hfind]
    exact hfind
  · rintro ⟨howner, htype, entry, hfind, hpair⟩
    exact ⟨⟨(pair.pairKey, entry), ExtTreeMap.mem_toList_iff_getElem?_eq_some.mpr hfind, hpair⟩,
      howner, htype⟩

theorem mem_currentPair {space : PairSpace F} {key : PairKey} {pair : Pair} :
    pair ∈ currentPair space key ↔ space.held key = some pair := by
  unfold currentPair PairSpace.held
  rw [List.mem_filter, Option.mem_toList, Option.filter_eq_some_iff]

def OwnPairsFit : Prop :=
  ∀ key pair, key.owner = c.owner → c.getPair key = some pair → (Message.pairUpdate pair).fits

theorem ownPairsFit_of_all
    (h : ∀ pair ∈ c.ownPairs c.space, (Message.pairUpdate pair).fits) : c.OwnPairsFit := by
  intro key pair howner hpair
  have hkey := PairSpace.held_pairKey hpair
  apply h
  rw [mem_ownPairs, hkey]
  refine ⟨?_, hpair⟩
  rw [← howner, ← hkey]
  rfl

theorem parcels_sendEach {pairs : List Pair}
    (hfits : ∀ pair ∈ pairs, (Message.pairUpdate pair).fits) (subscriber : OwnerId) :
    parcels (F := F) (sendEach pairs subscriber) =
      pairs.map fun pair => (subscriber, .pairUpdate pair) := by
  unfold sendEach
  rw [List.takeWhile_eq_self_iff.mpr hfits]
  clear hfits
  induction pairs with
  | nil => rfl
  | cons pair rest ih => exact congrArg ((subscriber, .pairUpdate pair) :: ·) ih

structure Collected (message : Subscription) (key : PairKey) (entered : Entered F) : Prop where
  sessions : entered.component.sessions = c.sessions
  member : message.subscriber ∈ entered.component.space.subscribersOf key
  held : entered.component.space.held = c.space.held
  parcels : ∃ pairs : List Pair,
    parcels entered.todo = pairs.map (fun pair => (message.subscriber, .pairUpdate pair)) ∧
      (∀ pair ∈ pairs, c.space.held pair.pairKey = some pair) ∧
      (∀ pair, c.space.held key = some pair → pair ∈ pairs)

theorem handleSubscription_collected {message : Subscription} {key : PairKey}
    (hcovers : message.covers key) (howner : key.owner = c.owner)
    (hother : message.subscriber ≠ c.owner) (hregistering : message.registering)
    (hnew : message.subscriber ∈ c.space.uSubscribers →
      message.subscriber ∈ c.space.subscribersOf key)
    (hfit : c.OwnPairsFit) (now : TimePoint) :
    c.Collected message key (c.handleSubscription message now) := by
  unfold handleSubscription
  by_cases hwildcard : message.key = kWildcardKey
  · simp only [hwildcard, ne_eq, not_true, false_and, if_false, hother, hregistering, if_true]
    have hheld := c.space.held_addSubscriptionToAll message.subscriber
    have hmem : ∀ pair, pair ∈ c.ownPairs (c.space.addSubscriptionToAll message.subscriber) ↔
        pair.owner = c.owner ∧ c.space.held pair.pairKey = some pair := by
      intro pair
      rw [mem_ownPairs, hheld]
    refine ⟨rfl, ?_, hheld, _, parcels_sendEach ?_ _, ?_, ?_⟩
    · by_cases huniversal : message.subscriber ∈ c.space.uSubscribers
      · simpa [PairSpace.addSubscriptionToAll, huniversal] using hnew huniversal
      · simp only [PairSpace.subscribersOf_addSubscriptionToAll huniversal]
        rw [SubscriberList.mem_push]
        exact Or.inr rfl
    · intro pair hpair
      exact hfit pair.pairKey pair ((hmem pair).mp hpair).1 ((hmem pair).mp hpair).2
    · intro pair hpair
      exact ((hmem pair).mp hpair).2
    · intro pair hpair
      have hkey := PairSpace.held_pairKey hpair
      rw [hmem, hkey]
      refine ⟨?_, hpair⟩
      rw [← howner, ← hkey]
      rfl
  · obtain ⟨hownerId, hname⟩ := hcovers.resolve_left hwildcard
    have hkey : (⟨message.ownerId, message.key⟩ : PairKey) = key := by
      rw [hownerId, hname]
    have hmine : message.ownerId = c.owner := hownerId.trans howner
    simp only [hmine, ne_eq, not_true, and_false, if_false, hother, hregistering, if_true,
      hwildcard]
    rw [← hmine, hkey]
    have hheld := c.space.held_addSubscription key message.subscriber now
    have hmem : ∀ pair, pair ∈ currentPair (c.space.addSubscription key message.subscriber now)
        key ↔ c.space.held key = some pair := by
      intro pair
      rw [mem_currentPair, hheld]
    refine ⟨rfl, ?_, hheld, _, parcels_sendEach ?_ _, ?_, ?_⟩
    · simp only [PairSpace.subscribersOf_addSubscription, if_true]
      rw [SubscriberList.mem_push]
      exact Or.inr rfl
    · intro pair hpair
      exact hfit key pair howner ((hmem pair).mp hpair)
    · intro pair hpair
      have hpair := (hmem pair).mp hpair
      rw [PairSpace.held_pairKey hpair]
      exact hpair
    · intro pair hpair
      exact (hmem pair).mpr hpair

theorem uSubscribers_enter_writes {call : Call F} (h : call.writes) (now : TimePoint) :
    (c.enter call now).component.space.uSubscribers = c.space.uSubscribers := by
  cases call with
  | setPair key value type =>
    simp only [enter, setPair_space]
    split
    · exact PairSpace.uSubscribers_addPair _ _ _
    · rfl
  | removePair key =>
    simp only [enter, removePair_space]
    split
    · exact PairSpace.uSubscribers_removePair _ _
    · rfl
  | handle message =>
    cases message with
    | pair pair => exact PairSpace.uSubscribers_addPair _ _ _
    | removePair request =>
      simp only [enter, handle, handleRemovePair_space]
      split
      · exact PairSpace.uSubscribers_removePair _ _
      · rfl
    | _ => contradiction
  | _ => contradiction

/-- No writer subscribes anyone, except that an entry dropped for good is made
anew with the wildcard subscribers. -/
theorem not_mem_subscribersOf_enter_writes {call : Call F} (h : call.writes) (now : TimePoint)
    {key : PairKey} {id : OwnerId} (hid : id ∉ c.space.subscribersOf key)
    (huniversal : id ∉ c.space.uSubscribers) :
    id ∉ (c.enter call now).component.space.subscribersOf key := by
  have hremove : ∀ removed, id ∉ (c.space.removePair removed).subscribersOf key := by
    intro removed
    rcases c.space.subscribersOf_removePair removed key with hsame | ⟨_, hsame⟩
    · rwa [hsame]
    · rwa [hsame]
  cases call with
  | setPair pairKey value type =>
    simp only [enter, setPair_space]
    split
    · rwa [PairSpace.subscribersOf_addPair]
    · exact hid
  | removePair pairKey =>
    simp only [enter, removePair_space]
    split
    · exact hremove _
    · exact hid
  | handle message =>
    cases message with
    | pair pair =>
      change id ∉ (c.space.addPair _ now).1.subscribersOf key
      rwa [PairSpace.subscribersOf_addPair]
    | removePair request =>
      simp only [enter, handle, handleRemovePair_space]
      split
      · exact hremove _
      · exact hid
    | _ => contradiction
  | _ => contradiction

end Component

namespace Node
variable {F : Type} {subscriber : OwnerId} {key : PairKey} {node : Node F}

theorem announced_not_member (c : Component F) {subscriber : OwnerId} {key : PairKey}
    (h : subscriber ∉ c.space.subscribersOf key) (message : Message) :
    (c.announced message).filter (Concerns subscriber key) = [] := by
  by_cases htarget : message.target = some key
  · rw [List.filter_eq_nil_iff]
    intro parcel hparcel
    simp only [Component.announced, htarget] at hparcel
    split at hparcel
    · obtain ⟨id, hid, rfl⟩ := List.mem_map.mp hparcel
      have hne : id ≠ subscriber := by
        rintro rfl
        exact h hid
      simp [Concerns, hne]
    · contradiction
  · exact announced_elsewhere c subscriber htarget

structure Unaware (subscriber : OwnerId) (key : PairKey) (node : Node F) : Prop where
  owner : node.component.owner = key.owner
  session : node.component.sessions.contains subscriber
  member : subscriber ∉ node.component.space.subscribersOf key
  universal : subscriber ∉ node.component.space.uSubscribers
  settled : node.Settled subscriber key
  handed : node.handedTo subscriber key = []

theorem Unaware.enter (h : Unaware subscriber key node) {thread : ThreadId} {call : Call F}
    (hwrites : call.writes) (now : TimePoint) :
    Unaware subscriber key (node.enter thread call now) := by
  constructor
  · obtain ⟨space, hspace⟩ := node.component.enter_writes_frame hwrites now
    simp only [Node.enter, hspace]
    exact h.owner
  · rw [sessions_enter_writes thread hwrites]
    exact h.session
  · exact node.component.not_mem_subscribersOf_enter_writes hwrites now h.member h.universal
  · change subscriber ∉ (node.component.enter call now).component.space.uSubscribers
    rw [Component.uSubscribers_enter_writes _ hwrites]
    exact h.universal
  · intro other
    rw [owed_enter]
    split
    · rcases node.component.enter_writes hwrites now with hnothing | ⟨message, hwrote⟩
      · rw [hnothing]
        rfl
      · rw [hwrote.parcels, announced_not_member _ h.member]
    · exact h.settled other
  · exact h.handed

theorem Unaware.advance (h : Unaware subscriber key node) {thread : ThreadId} {first : Action F}
    {rest : List (Action F)} (htodo : node.todo thread = first :: rest) :
    Unaware subscriber key (node.advance thread first rest) := by
  have hcomponent : (node.advance thread first rest).component = node.component :=
    perform_component node first
  have hempty := h.settled thread
  rw [owed_cons htodo, List.append_eq_nil_iff] at hempty
  constructor
  · rw [hcomponent]
    exact h.owner
  · rw [hcomponent]
    exact h.session
  · rw [hcomponent]
    exact h.member
  · rw [hcomponent]
    exact h.universal
  · intro other
    rw [owed_advance]
    split
    · exact hempty.2
    · exact h.settled other
  · rw [handedTo_advance node thread first rest h.session, h.handed, hempty.1]
    rfl

theorem Unaware.step {action : NodeAction F} {next : Node F} (h : Unaware subscriber key node)
    (hguard : WritersOnly node action) (hstep : node.step action = some next) :
    Unaware subscriber key next := by
  rcases step_cases hstep with ⟨thread, call, now, rfl, _, _, rfl⟩ |
    ⟨thread, first, rest, rfl, htodo, rfl⟩ | ⟨thread, rfl, rfl⟩
  · exact h.enter hguard now
  · exact h.advance htodo
  · refine ⟨h.owner, h.session, h.member, h.universal, ?_, h.handed⟩
    intro other
    by_cases heq : other = thread
    · simp [owed, heq]
    · have howed := h.settled other
      simpa [owed, heq] using howed

theorem Unaware.join (h : Unaware subscriber key node) {message : Subscription}
    (hsubscriber : message.subscriber = subscriber) {thread : ThreadId} {now : TimePoint}
    (hcollected : node.component.Collected message key
      (node.component.enter (.handle (.subscription message)) now)) :
    ∃ due, Turns subscriber key due (node.enter thread (.handle (.subscription message)) now) ∧
      (due = [] → (node.enter thread
        (.handle (.subscription message)) now).component.space.view key = none) := by
  obtain ⟨pairs, hparcels, hsound, hcomplete⟩ := hcollected.parcels
  let call : Call F := .handle (.subscription message)
  let due := (Component.parcels (node.component.enter call now).todo).filter
    (Concerns subscriber key)
  have hview : ∀ pair, node.component.space.held key = some pair →
      (node.component.enter call now).component.space.view key = some (pair.value, pair.type) := by
    intro pair hpair
    rw [PairSpace.view_eq_held, hcollected.held, hpair]
    rfl
  refine ⟨due, ⟨?_, ?_, ⟨thread, ?_, ?_⟩, ?_⟩, ?_⟩
  · change (node.component.enter call now).component.sessions.contains subscriber
    rw [hcollected.sessions]
    exact h.session
  · rw [← hsubscriber]
    exact hcollected.member
  · intro other hother
    rw [owed_enter, if_neg hother]
    exact h.settled other
  · rw [owed_enter, if_pos rfl]
    change _ = node.handedTo subscriber key ++ _
    rw [h.handed]
    rfl
  · intro last hlast
    have hmem := List.mem_of_getLast? hlast
    obtain ⟨hlast, hconcerns⟩ := List.mem_filter.mp hmem
    rw [hparcels] at hlast
    obtain ⟨pair, hpair, rfl⟩ := List.mem_map.mp hlast
    have hkey : pair.pairKey = key := by
      simpa [Concerns, Message.target, hsubscriber] using hconcerns
    have hheld := hkey ▸ hsound pair hpair
    obtain ⟨htype, _⟩ := PairSpace.held_eq_some.mp hheld
    change some pair.write.value =
      some ((node.component.enter call now).component.space.view key)
    rw [hview pair hheld, Pair.write_value, Pair.shown, if_neg htype]
  · intro hnothing
    change (node.component.enter call now).component.space.view key = none
    rw [PairSpace.view_eq_held, hcollected.held]
    cases hheld : node.component.space.held key with
    | none => rfl
    | some pair =>
      have hparcel : (subscriber, Message.pairUpdate pair) ∈ due := by
        apply List.mem_filter.mpr
        rw [hparcels, ← hsubscriber]
        refine ⟨List.mem_map.mpr ⟨pair, hcomplete pair hheld, rfl⟩, ?_⟩
        have hkey := PairSpace.held_pairKey hheld
        simp [Concerns, Message.target, hkey]
      rw [hnothing] at hparcel
      contradiction

/-- The last frame handed to `subscriber` about `key` says what the space shows,
and there is one unless it shows nothing. -/
def Informed (node : Node F) (subscriber : OwnerId) (key : PairKey) : Prop :=
  match (node.handedTo subscriber key).getLast? with
  | some last => node.Describes key last
  | none => node.component.space.view key = none

/-- The subscription itself takes any place among the writes before it. Writes
to a covered key that come after it wait for the collected value to be sent. -/
theorem informed_after_joining {c : Component F} {message : Subscription} {first joined : Node F}
    {thread : ThreadId} {now : TimePoint} (hsession : c.sessions.contains message.subscriber)
    (hmember : message.subscriber ∉ c.space.subscribersOf key)
    (huniversal : message.subscriber ∉ c.space.uSubscribers)
    (hbefore : Reach Node.step WritersOnly (Node.quiet c) first)
    (hfit : first.component.OwnPairsFit)
    (hcovers : message.covers key) (howner : key.owner = c.owner)
    (hother : message.subscriber ≠ c.owner) (hregistering : message.registering)
    (hjoin : first.step (.enter thread (.handle (.subscription message)) now) = some joined)
    (hafter : Reach Node.step (InTurn message.subscriber key) joined node)
    (hsettled : node.Settled message.subscriber key) :
    node.Informed message.subscriber key := by
  have hunaware : Unaware message.subscriber key first := by
    refine hbefore.invariant ?_ fun _ _ _ h hguard hstep => h.step hguard hstep
    exact ⟨howner.symm, hsession, hmember, huniversal, fun _ => rfl, rfl⟩
  have hforeign : message.subscriber ≠ first.component.owner := by
    rw [hunaware.owner, howner]
    exact hother
  have hjoined : ∃ due, Turns message.subscriber key due joined ∧
      (due = [] → joined.component.space.view key = none) := by
    rcases step_cases hjoin with ⟨thread', call, now', haction, _, _, rfl⟩ |
      ⟨_, _, _, haction, _⟩ | ⟨_, haction, _⟩
    · cases haction
      exact hunaware.join rfl (first.component.handleSubscription_collected hcovers
        hunaware.owner.symm hforeign hregistering (fun h => absurd h hunaware.universal) hfit now)
    · contradiction
    · contradiction
  have hturns : ∃ due, Turns message.subscriber key due node ∧
      (due = [] → node.component.space.view key = none) := by
    refine hafter.invariant (I := fun node => ∃ due, Turns message.subscriber key due node ∧
      (due = [] → node.component.space.view key = none)) hjoined ?_
    rintro before action after ⟨due, h, hempty⟩ hguard hstep
    obtain ⟨extra, hnext⟩ := h.step hguard hstep
    refine ⟨due ++ extra, hnext.turns, ?_⟩
    intro hnothing
    rw [List.append_eq_nil_iff] at hnothing
    rw [hnext.view hnothing.2]
    exact hempty hnothing.1
  obtain ⟨due, h, hempty⟩ := hturns
  unfold Informed
  rw [h.settled hsettled]
  cases hlast : due.getLast? with
  | none => exact hempty (List.getLast?_eq_none_iff.mp hlast)
  | some last => exact h.current last hlast

/-! Component 1000 has a session for 2000, which subscribes to its key `"k"`. -/

def reachable2000 : Component Unit :=
  ((Component.initial 1000).enter (.addSession ⟨2000, [], []⟩) 0).component

def joining : Subscription := { key := [107], ownerId := 1000, subscriber := 2000 }

def published : Node Unit :=
  ((Node.quiet reachable2000).enter 0 (.setPair [107] [1] .string) 5).advance 0 .unlock []

theorem published_fit : published.component.OwnPairsFit := by
  apply Component.ownPairsFit_of_all
  intro pair hpair
  have hpairs : published.component.ownPairs published.component.space =
      [⟨1000, [107], [1], .string, 5, 0⟩] := by decide
  rw [hpairs, List.mem_singleton] at hpair
  rw [hpair, pairUpdate_fits_iff]
  decide

/-- A publish, then the subscription with the value it collected. -/
theorem informed_after_publish : ∃ node : Node Unit,
    node.handed = [(2000, .pairUpdate ⟨1000, [107], [1], .string, 5, 0⟩)] ∧
      node.Informed 2000 ⟨1000, [107]⟩ := by
  have hbefore : Reach Node.step WritersOnly (Node.quiet reachable2000) published := by
    apply Reach.of_run [.enter 0 (.setPair [107] [1] .string) 5, .advance 0]
    · intro action haction node
      fin_cases haction <;> trivial
    · rfl
  let joined := published.enter 1 (.handle (.subscription joining)) 6
  let sent := joined.advance 1 (.send 2000 (.pairUpdate ⟨1000, [107], [1], .string, 5, 0⟩)) []
  have hafter : Reach Node.step (InTurn 2000 ⟨1000, [107]⟩) joined sent :=
    .tail (a := .advance 1) .refl trivial rfl
  have hjoin : published.step (.enter 1 (.handle (.subscription joining)) 6) = some joined := rfl
  refine ⟨sent, by decide, informed_after_joining (by decide) (by decide) (by decide) hbefore
    published_fit (Or.inr ⟨rfl, rfl⟩) rfl (by decide) rfl hjoin hafter ?_⟩
  intro thread
  match thread with
  | 0 => decide
  | 1 => decide
  | thread + 2 => rfl

/-- A newer value is published and fanned out under the lock between the
collecting of the old one and its sending. -/
def publishedMeanwhile : List (NodeAction Unit) :=
  [.enter 0 (.setPair [107] [2] .string) 7, .advance 0, .advance 0, .advance 1]

theorem collected_value_sent_late :
    reachable2000.sessions.contains joining.subscriber ∧
      joining.subscriber ∉ reachable2000.space.subscribersOf ⟨1000, [107]⟩ ∧
      joining.subscriber ∉ reachable2000.space.uSubscribers ∧
      published.component.OwnPairsFit ∧ joining.covers ⟨1000, [107]⟩ ∧
      Reach Node.step WritersOnly (Node.quiet reachable2000) published ∧
      ∃ joined node : Node Unit,
        published.step (.enter 1 (.handle (.subscription joining)) 6) = some joined ∧
        Reach Node.step WritersOnly joined node ∧ (∀ thread, node.todo thread = []) ∧
        ¬ node.Informed 2000 ⟨1000, [107]⟩ := by
  refine ⟨by decide, by decide, by decide, published_fit, Or.inr ⟨rfl, rfl⟩, ?_, _, _, rfl,
    Reach.of_run publishedMeanwhile ?_ rfl, ?_, ?_⟩
  · apply Reach.of_run [.enter 0 (.setPair [107] [1] .string) 5, .advance 0]
    · intro action haction node
      fin_cases haction <;> trivial
    · rfl
  · intro action haction node
    fin_cases haction <;> trivial
  · intro thread
    match thread with
    | 0 => rfl
    | 1 => rfl
    | thread + 2 => rfl
  · rw [Informed, show (handedTo _ 2000 ⟨1000, [107]⟩).getLast? =
      some (2000, .pairUpdate ⟨1000, [107], [1], .string, 5, 0⟩) by decide]
    unfold Describes
    decide

end Node

end Srnp
