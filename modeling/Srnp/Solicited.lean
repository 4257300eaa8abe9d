import Srnp.OwnerIntegrity
import Srnp.BadFrames
import Srnp.ClientRun

/-! Nobody is told of a pair without having asked. Every frame about a pair that
a component hands to a session goes back to a call of `registerSubscription` by
the component it is for: one that names the owner, or no owner, and the key, or
a wildcard one that reached the component that sends the frame. The
registrations are followed through the records, the frames that ask for them,
the subscriber lists and the calls in progress. -/
namespace Srnp
open Std LastWrite Transition

abbrev Registry := OwnerId → SubscriptionRecord → Prop

namespace Registry
variable (registry : Registry)

/-- The registration reached the component: it names it, or no one. -/
def Reaches (subscriber peer : OwnerId) (key : Bytes) : Prop :=
  ∃ owner, (owner = peer ∨ owner = kAnyOwner) ∧ registry subscriber ⟨owner, key⟩

/-- The subscriber may be told of the pair by the peer. -/
def Asked (peer subscriber : OwnerId) (key : PairKey) : Prop :=
  registry.Reaches subscriber peer kWildcardKey ∨
    key.owner = peer ∧ registry.Reaches subscriber peer key.key

/-- A subscription on its way to the peer was registered by the one it names. -/
def Requested (peer : OwnerId) (message : Subscription) : Prop :=
  message.registering → message.ownerId = peer ∧
    registry.Reaches message.subscriber peer message.key

structure Due (sender : OwnerId) (parcel : OwnerId × Message) : Prop where
  told : ∀ key, parcel.2.target = some key → registry.Asked sender parcel.1 key
  asks : ∀ message, parcel.2 = .subscription message → registry.Requested parcel.1 message

variable {registry}

section
variable {more : Registry} (hmore : ∀ subscriber record, registry subscriber record →
  more subscriber record)
include hmore

theorem Reaches.mono {subscriber peer : OwnerId} {key : Bytes}
    (h : registry.Reaches subscriber peer key) : more.Reaches subscriber peer key := by
  obtain ⟨owner, howner, hregistered⟩ := h
  exact ⟨owner, howner, hmore _ _ hregistered⟩

theorem Asked.mono {peer subscriber : OwnerId} {key : PairKey}
    (h : registry.Asked peer subscriber key) : more.Asked peer subscriber key := by
  rcases h with hwildcard | ⟨howner, hexact⟩
  · exact Or.inl (hwildcard.mono hmore)
  · exact Or.inr ⟨howner, hexact.mono hmore⟩

theorem Requested.mono {peer : OwnerId} {message : Subscription}
    (h : registry.Requested peer message) : more.Requested peer message := by
  intro hregistering
  exact ⟨(h hregistering).1, (h hregistering).2.mono hmore⟩

theorem Due.mono {sender : OwnerId} {parcel : OwnerId × Message} (h : registry.Due sender parcel) :
    more.Due sender parcel := by
  constructor
  · intro key hkey
    exact (h.told key hkey).mono hmore
  · intro message hmessage
    exact (h.asks message hmessage).mono hmore

end

end Registry

namespace Component
variable {F : Type} {c : Component F} {registry : Registry}

structure Solicited (registry : Registry) (c : Component F) : Prop where
  records : ∀ (number : SubscriptionHandle) record, c.subscriptions[number]? = some record →
    registry c.owner record
  universal : ∀ subscriber ∈ c.space.uSubscribers,
    registry.Reaches subscriber c.owner kWildcardKey
  listed : ∀ key, ∀ subscriber ∈ c.space.subscribersOf key, registry.Asked c.owner subscriber key

structure Owed (registry : Registry) (owner : OwnerId) (todo : List (Action F)) : Prop where
  parcels : ∀ parcel ∈ Component.parcels todo, registry.Due owner parcel
  everyone : ∀ key, .sendAll key true ∈ todo → registry owner ⟨kAnyOwner, key⟩

theorem Owed.nil (owner : OwnerId) : Owed registry owner ([] : List (Action F)) :=
  ⟨List.forall_mem_nil _, fun _ => nofun⟩

/-! ### Who is added to the lists -/

theorem mem_subscribersOf_of_handleSubscription {message : Subscription} {now : TimePoint}
    {key : PairKey} {subscriber : OwnerId}
    (h : subscriber ∈ (c.handleSubscription message now).component.space.subscribersOf key) :
    subscriber ∈ c.space.subscribersOf key ∨ subscriber = message.subscriber ∧
      message.registering ∧ (message.key = kWildcardKey ∨
        message.ownerId = c.owner ∧ key = ⟨message.ownerId, message.key⟩) := by
  by_cases hother : subscriber = message.subscriber
  · subst hother
    unfold handleSubscription at h
    split at h
    · exact Or.inl h
    rename_i hmine
    split at h
    · exact Or.inl h
    split at h
    · rename_i hregistering
      split at h
      · rename_i hwildcard
        exact Or.inr ⟨rfl, hregistering, Or.inl hwildcard⟩
      · rename_i hexact
        simp only [PairSpace.subscribersOf_addSubscription] at h
        split at h
        · rename_i hkey
          refine Or.inr ⟨rfl, hregistering, Or.inr ⟨?_, hkey.symm⟩⟩
          by_contra hforeign
          exact hmine ⟨hexact, hforeign⟩
        · exact Or.inl h
    split at h
    · simp [PairSpace.subscribersOf_removeSubscriptionToAll] at h
    · simp only [PairSpace.subscribersOf_removeSubscription] at h
      split at h
      · simp at h
      · exact Or.inl h
  · exact Or.inl ((c.mem_subscribersOf_handleSubscription hother now key).mp h)

theorem mem_uSubscribers_of_handleSubscription {message : Subscription} {now : TimePoint}
    {subscriber : OwnerId}
    (h : subscriber ∈ (c.handleSubscription message now).component.space.uSubscribers) :
    subscriber ∈ c.space.uSubscribers ∨
      subscriber = message.subscriber ∧ message.registering ∧ message.key = kWildcardKey := by
  by_cases hother : subscriber = message.subscriber
  · subst hother
    unfold handleSubscription at h
    split at h
    · exact Or.inl h
    split at h
    · exact Or.inl h
    split at h
    · rename_i hregistering
      split at h
      · rename_i hwildcard
        exact Or.inr ⟨rfl, hregistering, hwildcard⟩
      · rw [PairSpace.uSubscribers_addSubscription] at h
        exact Or.inl h
    split at h
    · simp [PairSpace.removeSubscriptionToAll] at h
    · rw [PairSpace.uSubscribers_removeSubscription] at h
      exact Or.inl h
  · exact Or.inl ((c.mem_uSubscribers_handleSubscription hother now).mp h)

theorem record_of_enter {call : Call F} {now : TimePoint} {number : SubscriptionHandle}
    {record : SubscriptionRecord}
    (h : (c.enter call now).component.subscriptions[number]? = some record) :
    c.subscriptions[number]? = some record ∨
      call = .registerSubscription record.owner record.key := by
  have herase : ∀ erased : SubscriptionHandle,
      (c.subscriptions.erase erased)[number]? = some record →
        c.subscriptions[number]? = some record := by
    intro erased hfound
    rw [ExtTreeMap.getElem?_erase] at hfound
    split at hfound
    · contradiction
    · exact hfound
  cases call with
  | setPair key value type =>
    simp only [enter, setPair_space] at h
    exact Or.inl h
  | removePair key =>
    simp only [enter, removePair_space] at h
    exact Or.inl h
  | removeRemotePair owner key =>
    simp only [enter, removeRemotePair] at h
    split at h
    · simp only [removePair_space] at h
      exact Or.inl h
    · exact Or.inl h
  | registerCallback owner key callback =>
    simp only [enter, registerCallback] at h
    split at h <;> exact Or.inl h
  | registerSubscription owner key =>
    simp only [enter, registerSubscription] at h
    split at h
    · exact Or.inl h
    · rw [component_sendSubscription, ExtTreeMap.getElem?_insertIfNew] at h
      split at h
      · cases Option.some.inj h
        exact Or.inr rfl
      · exact Or.inl h
  | cancelSubscription owner key =>
    simp only [enter, cancelSubscription] at h
    split at h
    · exact Or.inl h
    · rw [component_sendSubscription] at h
      exact Or.inl (herase _ h)
  | cancelSubscriptionHandle erased =>
    simp only [enter, cancelSubscriptionHandle] at h
    split at h
    · exact Or.inl h
    · rw [component_sendSubscription] at h
      exact Or.inl (herase _ h)
  | handle message =>
    cases message with
    | subscription message =>
      simp only [enter, Component.handle, handleSubscription] at h
      split at h
      · exact Or.inl h
      split at h
      · exact Or.inl h
      split at h
      · split at h <;> exact Or.inl h
      · split at h <;> exact Or.inl h
    | removePair request =>
      simp only [enter, Component.handle, handleRemovePair_space] at h
      exact Or.inl h
    | _ => exact Or.inl h
  | _ => exact Or.inl h

theorem Solicited.enter (h : c.Solicited registry) {call : Call F} (now : TimePoint)
    (hasks : ∀ message, call = .handle (.subscription message) →
      registry.Requested c.owner message)
    (hregisters : ∀ owner key, call = .registerSubscription owner key →
      registry c.owner ⟨owner, key⟩) : (c.enter call now).component.Solicited registry := by
  have howner := c.enter_owner call now
  have hrecords : ∀ (number : SubscriptionHandle) record,
      (c.enter call now).component.subscriptions[number]? = some record →
        registry c.owner record := by
    intro number record hfound
    rcases record_of_enter hfound with hold | hnew
    · exact h.records number record hold
    · exact hregisters _ _ hnew
  by_cases hsubscription : ∃ message, call = .handle (.subscription message)
  · obtain ⟨message, rfl⟩ := hsubscription
    have hrequested := hasks message rfl
    constructor
    · rw [howner]
      exact hrecords
    · intro subscriber hmember
      rw [howner]
      rcases mem_uSubscribers_of_handleSubscription hmember with
        hold | ⟨rfl, hregistering, hwildcard⟩
      · exact h.universal subscriber hold
      · rw [← hwildcard]
        exact (hrequested hregistering).2
    · intro key subscriber hmember
      rw [howner]
      rcases mem_subscribersOf_of_handleSubscription hmember with
        hold | ⟨rfl, hregistering, hcovers⟩
      · exact h.listed key subscriber hold
      · have hreaches := (hrequested hregistering).2
        rcases hcovers with hwildcard | ⟨hown, rfl⟩
        · rw [hwildcard] at hreaches
          exact Or.inl hreaches
        · exact Or.inr ⟨hown, hreaches⟩
  · have hkeeps := c.enter_keepsSubscribers
      (fun message hcall => hsubscription ⟨message, hcall⟩) now
    constructor
    · rw [howner]
      exact hrecords
    · intro subscriber hmember
      rw [howner]
      rw [hkeeps.universal] at hmember
      exact h.universal subscriber hmember
    · intro key subscriber hmember
      rw [howner]
      rcases hkeeps.subscribers key with hsame | ⟨_, hsame⟩
      · rw [hsame] at hmember
        exact h.listed key subscriber hmember
      · rw [hsame] at hmember
        exact Or.inl (h.universal subscriber hmember)

/-! ### What calls leave to do -/

def Unasking : Action F → Prop
  | .send _ (.subscription _) => False
  | .sendOn .. => False
  | .sendAll .. => False
  | _ => True

theorem unasking_fanOutThen {message : Message} (htarget : message.target.isSome)
    (subscribers : SubscriberList) {rest : List (Action F)}
    (hrest : ∀ action ∈ rest, Unasking action) {unwind : List (Action F)}
    (hunwind : ∀ action ∈ unwind, Unasking action) :
    ∀ action ∈ fanOutThen message subscribers unwind rest, Unasking action := by
  refine forall_fanOutThen ?_ subscribers hunwind hrest
  intro subscriber
  cases message with
  | subscription message => contradiction
  | _ => trivial

theorem unasking_unlock : ∀ action ∈ [(.unlock : Action F)], Unasking action := by
  intro action haction
  cases List.mem_singleton.mp haction
  trivial

theorem unasking_removePair (key : Bytes) :
    ∀ action ∈ (c.removePair key).todo, Unasking action := by
  unfold removePair
  split
  · dsimp only
    split
    · exact List.forall_mem_nil _
    · exact unasking_fanOutThen rfl _ unasking_unlock unasking_unlock
  · exact List.forall_mem_nil _

theorem unasking_applyAndNotify (pair : Pair) (now : TimePoint) :
    ∀ action ∈ (c.applyAndNotify pair now).todo, Unasking action := by
  intro action haction
  rcases List.mem_append.mp haction with hcall | hsend
  · obtain ⟨callback, _, rfl⟩ := List.mem_map.mp hcall
    trivial
  · exact unasking_fanOutThen rfl _ (List.forall_mem_nil _)
      (List.forall_mem_nil _) action hsend

theorem unasking_sendTo {owner : OwnerId} {message : Message}
    (h : ∀ subscription, message ≠ .subscription subscription) :
    ∀ action ∈ (c.sendTo owner message).todo, Unasking action := by
  unfold sendTo
  split
  · intro action haction
    cases List.mem_singleton.mp haction
    cases message with
    | subscription message => exact absurd rfl (h message)
    | _ => trivial
  · exact List.forall_mem_nil _

theorem unasking_enter {call : Call F} (now : TimePoint)
    (hregister : ∀ owner key, call ≠ .registerSubscription owner key)
    (hcancel : ∀ owner key, call ≠ .cancelSubscription owner key)
    (hhandle : ∀ number, call ≠ .cancelSubscriptionHandle number)
    (hreplay : ∀ owner session, call ≠ .sendSubscriptionsFor owner session) :
    ∀ action ∈ (c.enter call now).todo, Unasking action := by
  cases call with
  | setPair key value type =>
    simp only [enter, setPair]
    split
    · refine unasking_fanOutThen rfl _ ?_ unasking_unlock
      intro action haction
      rcases List.mem_cons.mp haction with rfl | hpost
      · trivial
      · unfold notifyLocal at hpost
        split at hpost
        · contradiction
        · cases List.mem_singleton.mp hpost
          trivial
    · exact List.forall_mem_nil _
  | setRemotePair owner key value type => exact unasking_sendTo (by simp)
  | removePair key => exact unasking_removePair key
  | removeRemotePair owner key =>
    simp only [enter, removeRemotePair]
    split
    · exact unasking_removePair key
    · exact unasking_sendTo (by simp)
  | registerCallback owner key callback =>
    simp only [enter, registerCallback]
    split <;> exact List.forall_mem_nil _
  | cancelCallback number => exact List.forall_mem_nil _
  | registerSubscription owner key => exact absurd rfl (hregister owner key)
  | cancelSubscription owner key => exact absurd rfl (hcancel owner key)
  | cancelSubscriptionHandle number => exact absurd rfl (hhandle number)
  | addSession component => exact List.forall_mem_nil _
  | removeSession owner => exact List.forall_mem_nil _
  | sendSubscriptionsFor owner session => exact absurd rfl (hreplay owner session)
  | handle message =>
    cases message with
    | pair pair => exact unasking_applyAndNotify _ now
    | pairUpdate pair => exact unasking_applyAndNotify pair now
    | subscription message =>
      intro action haction
      change action ∈ (c.handleSubscription message now).todo at haction
      rw [handleSubscription_todo] at haction
      obtain ⟨pair, _, rfl⟩ := List.mem_map.mp haction
      trivial
    | removePair request =>
      simp only [enter, Component.handle, handleRemovePair]
      split
      · exact List.forall_mem_nil _
      split
      · exact List.forall_mem_nil _
      · exact unasking_fanOutThen rfl _ (List.forall_mem_nil _) (List.forall_mem_nil _)
    | pairRemoved request => exact List.forall_mem_nil _

theorem due_request {owner : OwnerId} {message : Subscription}
    (h : registry.Requested owner message) (sender : OwnerId) :
    registry.Due sender (owner, .subscription message) := by
  constructor
  · intro key hkey
    contradiction
  · intro other hother
    cases hother
    exact h

theorem Owed.of_requests {todo : List (Action F)} {owner : OwnerId}
    (h : ∀ action ∈ todo, ∃ (peer : OwnerId) (session : Nat) (message : Subscription),
      action = .sendOn peer session message ∧ registry.Requested peer message) :
    Owed registry owner todo := by
  constructor
  · intro parcel hparcel
    obtain ⟨action, haction, hsome⟩ := List.mem_filterMap.mp hparcel
    obtain ⟨peer, session, message, rfl, hrequested⟩ := h action haction
    cases Option.some.inj hsome
    exact due_request hrequested owner
  · intro key hkey
    obtain ⟨peer, session, message, heq, _⟩ := h _ hkey
    contradiction

theorem Owed.sendSubscription {owner : OwnerId} {key : Bytes} {registering : Bool}
    (h : registering → registry c.owner ⟨owner, key⟩) :
    Owed registry c.owner (c.sendSubscription owner key registering).todo := by
  unfold Component.sendSubscription
  split
  · have hrequested : registry.Requested owner ⟨key, owner, c.owner, registering⟩ :=
      fun hregistering => ⟨rfl, owner, Or.inl rfl, h hregistering⟩
    unfold sendTo
    split
    · constructor
      · intro parcel hparcel
        cases List.mem_singleton.mp hparcel
        exact due_request hrequested c.owner
      · intro other hother
        cases List.mem_singleton.mp hother
    · exact .nil c.owner
  · rename_i hany
    constructor
    · intro parcel hparcel
      contradiction
    · intro other hother
      cases List.mem_singleton.mp hother
      rw [← not_not.mp hany]
      exact h rfl

theorem Owed.replay (h : c.Solicited registry) (owner : OwnerId) (session : Nat) :
    Owed registry c.owner (c.sendSubscriptionsFor owner session).todo := by
  refine .of_requests ?_
  intro action haction
  obtain ⟨message, hmessage, rfl⟩ := List.mem_map.mp haction
  refine ⟨owner, session, message, rfl, ?_⟩
  obtain ⟨record, hrecord, rfl⟩ := List.mem_map.mp ((List.takeWhile_sublist _).subset hmessage)
  obtain ⟨hfound, howner⟩ := List.mem_filter.mp hrecord
  obtain ⟨⟨number, found⟩, hmem, rfl⟩ := List.mem_map.mp hfound
  have hregistered := h.records number found (ExtTreeMap.mem_toList_iff_getElem?_eq_some.mp hmem)
  intro _
  have howner := of_decide_eq_true howner
  refine ⟨?_, found.owner, howner.symm, hregistered⟩
  dsimp only
  split
  · rfl
  · rename_i hnamed
    exact howner.resolve_left hnamed

theorem Owed.sendsToAll {key : Bytes} {registering : Bool}
    (h : registering → registry c.owner ⟨kAnyOwner, key⟩) :
    Owed registry c.owner (c.sendsToAll key registering) := by
  refine .of_requests ?_
  intro action haction
  obtain ⟨session, _, rfl⟩ := List.mem_map.mp haction
  exact ⟨session.1, session.2, _, rfl, fun hregistering =>
    ⟨rfl, kAnyOwner, Or.inr rfl, h hregistering⟩⟩

/-- A frame about a pair is told to whoever asked for it. -/
theorem Solicited.asked (h : c.Solicited registry) {call : Call F} {now : TimePoint}
    (hasks : ∀ message, call = .handle (.subscription message) →
      registry.Requested c.owner message) {parcel : OwnerId × Message}
    (hparcel : parcel ∈ parcels (c.enter call now).todo) {key : PairKey}
    (hkey : parcel.2.target = some key) : registry.Asked c.owner parcel.1 key := by
  obtain ⟨recipient, sent⟩ := parcel
  cases tells_enter call now (recipient, sent) hparcel key hkey with
  | write _ hlisted => exact h.listed key _ hlisted
  | update hlisted => exact h.listed _ _ hlisted
  | @subscription message _ hregistering _ _ =>
    change (_, sent) ∈ parcels (c.handleSubscription message now).todo at hparcel
    rw [handleSubscription_todo] at hparcel
    obtain ⟨pair, hpair, hsent⟩ := mem_parcels_sendEach hparcel
    cases (Prod.mk.inj hsent).2
    have howes := (c.mem_toSend).mp hpair
    cases Option.some.inj hkey
    have hreaches := (hasks message rfl hregistering).2
    rcases howes.covers with hwildcard | ⟨_, hname⟩
    · rw [hwildcard] at hreaches
      exact Or.inl hreaches
    · rw [hname] at hreaches
      exact Or.inr ⟨howes.own, hreaches⟩

theorem Solicited.owed (h : c.Solicited registry) {call : Call F} (now : TimePoint)
    (hasks : ∀ message, call = .handle (.subscription message) →
      registry.Requested c.owner message)
    (hregisters : ∀ owner key, call = .registerSubscription owner key →
      registry c.owner ⟨owner, key⟩) : Owed registry c.owner (c.enter call now).todo := by
  have hplain : (∀ action ∈ (c.enter call now).todo, Unasking action) →
      Owed registry c.owner (c.enter call now).todo := by
    intro hunasking
    constructor
    · intro parcel hparcel
      constructor
      · intro key hkey
        exact h.asked hasks hparcel hkey
      · intro message hmessage
        obtain ⟨action, haction, hsome⟩ := List.mem_filterMap.mp hparcel
        have hunasks := hunasking action haction
        cases action with
        | send recipient sent =>
          cases Option.some.inj hsome
          cases hmessage
          exact absurd hunasks id
        | sendOn => exact absurd hunasks id
        | _ => contradiction
    · intro key hkey
      exact absurd (hunasking _ hkey) id
  have hcancelling : ∀ owner key, false = true → registry c.owner ⟨owner, key⟩ := by
    intro _ _ hregistering
    contradiction
  cases call with
  | registerSubscription owner key =>
    have hregistered := hregisters owner key rfl
    simp only [Component.enter, registerSubscription]
    split
    · exact .nil c.owner
    · exact @Owed.sendSubscription F { c with
        subscriptions := c.subscriptions.insertIfNew (c.nextSubscriptionHandle + 1) ⟨owner, key⟩
        nextSubscriptionHandle := c.nextSubscriptionHandle + 1 } _ _ _ _ fun _ => hregistered
  | cancelSubscription owner key =>
    simp only [Component.enter, cancelSubscription]
    split
    · exact .nil c.owner
    · rename_i number record _
      exact @Owed.sendSubscription F { c with
        subscriptions := c.subscriptions.erase number } _ _ _ _ (hcancelling _ _)
  | cancelSubscriptionHandle number =>
    simp only [Component.enter, cancelSubscriptionHandle]
    split
    · exact .nil c.owner
    · exact @Owed.sendSubscription F { c with
        subscriptions := c.subscriptions.erase number } _ _ _ _ (hcancelling _ _)
  | sendSubscriptionsFor owner session => exact .replay h owner session
  | _ => exact hplain (unasking_enter now (by simp) (by simp) (by simp) (by simp))

end Component

namespace Network
variable {F : Type} {net next : Network F}

def registry (net : Network F) : Registry := fun subscriber record =>
  ∃ origin ∈ net.issued, origin.component.owner = subscriber ∧
    origin.call = .registerSubscription record.owner record.key

/-- Whoever is about to be told of a pair has asked the component that tells
it, and whoever was told had asked the one that told it. -/
structure ToldOnRequest (net : Network F) : Prop where
  owed : ∀ owner thread, ∀ parcel ∈ Component.parcels ((net.nodes owner).todo thread),
    ∀ key, parcel.2.target = some key → net.registry.Asked owner parcel.1 key
  sent : ∀ envelope ∈ net.sent, ∀ key, envelope.message.target = some key →
    ∃ peer, net.registry.Asked peer envelope.recipient key

end Network

namespace Component
variable {F : Type} {c : Component F} {registry more : Registry}

theorem Solicited.mono (h : c.Solicited registry)
    (hmore : ∀ subscriber record, registry subscriber record → more subscriber record) :
    c.Solicited more where
  records number record hfound := hmore _ _ (h.records number record hfound)
  universal subscriber hmember := (h.universal subscriber hmember).mono hmore
  listed key subscriber hmember := (h.listed key subscriber hmember).mono hmore

theorem Owed.mono {owner : OwnerId} {todo : List (Action F)} (h : Owed registry owner todo)
    (hmore : ∀ subscriber record, registry subscriber record → more subscriber record) :
    Owed more owner todo where
  parcels parcel hparcel := (h.parcels parcel hparcel).mono hmore
  everyone key hkey := hmore _ _ (h.everyone key hkey)

theorem Owed.tail {owner : OwnerId} {first : Action F} {rest : List (Action F)}
    (h : Owed registry owner (first :: rest)) : Owed registry owner rest where
  parcels parcel hparcel := h.parcels parcel (Node.mem_parcels_tail hparcel)
  everyone key hkey := h.everyone key (List.mem_cons_of_mem _ hkey)

theorem Owed.append {owner : OwnerId} {first second : List (Action F)}
    (hfirst : Owed registry owner first) (hsecond : Owed registry owner second) :
    Owed registry owner (first ++ second) := by
  constructor
  · intro parcel hparcel
    rw [parcels_append] at hparcel
    rcases List.mem_append.mp hparcel with hmem | hmem
    · exact hfirst.parcels parcel hmem
    · exact hsecond.parcels parcel hmem
  · intro key hkey
    rcases List.mem_append.mp hkey with hmem | hmem
    · exact hfirst.everyone key hmem
    · exact hsecond.everyone key hmem

end Component

structure Node.Solicited {F : Type} (registry : Registry) (owner : OwnerId) (node : Node F) :
    Prop where
  identity : node.component.owner = owner
  component : node.component.Solicited registry
  owed : ∀ thread, Component.Owed registry owner (node.todo thread)

namespace Node
variable {F : Type} {registry more : Registry} {owner : OwnerId} {node : Node F}

theorem Solicited.quiet (owner : OwnerId) :
    Solicited registry owner (Node.quiet (.initial owner) : Node F) := by
  refine ⟨rfl, ⟨?_, ?_, ?_⟩, fun thread => .nil owner⟩
  · intro number record hfound
    simp [Node.quiet, Component.initial] at hfound
  · intro subscriber hmember
    exact absurd hmember (SubscriberList.not_mem_empty subscriber)
  · intro key subscriber hmember
    simp [Node.quiet, Component.initial, PairSpace.subscribersOf, PairSpace.find,
      PairSpace.empty] at hmember

theorem Solicited.mono (h : Solicited registry owner node)
    (hmore : ∀ subscriber record, registry subscriber record → more subscriber record) :
    Solicited more owner node :=
  ⟨h.identity, h.component.mono hmore, fun thread => (h.owed thread).mono hmore⟩

theorem Solicited.enter (h : Solicited registry owner node) {thread : ThreadId} {call : Call F}
    {now : TimePoint} (hasks : ∀ message, call = .handle (.subscription message) →
      registry.Requested owner message)
    (hregisters : ∀ named key, call = .registerSubscription named key →
      registry owner ⟨named, key⟩) : Solicited registry owner (node.enter thread call now) := by
  have hidentity := h.identity
  rw [← hidentity] at hasks hregisters
  refine ⟨(node.component.enter_owner call now).trans hidentity,
    h.component.enter now hasks hregisters, ?_⟩
  intro other
  simp only [Node.enter, Function.update_apply]
  split
  · rw [← hidentity]
    exact h.component.owed now hasks hregisters
  · exact h.owed other

theorem Solicited.advance (h : Solicited registry owner node) {thread : ThreadId}
    {first : Action F} {rest : List (Action F)} (htodo : node.todo thread = first :: rest) :
    Solicited registry owner (node.advance thread first rest) := by
  have hcomponent : (node.advance thread first rest).component = node.component :=
    perform_component node first
  have howed := h.owed thread
  rw [htodo] at howed
  refine ⟨?_, ?_, ?_⟩
  · rw [hcomponent]
    exact h.identity
  · rw [hcomponent]
    exact h.component
  · intro other
    simp only [Node.advance, Function.update_apply]
    split
    · cases first with
      | sendAll key registering =>
        refine .append ?_ howed.tail
        have hregistered : registering → registry node.component.owner ⟨kAnyOwner, key⟩ := by
          rintro rfl
          rw [h.identity]
          exact howed.everyone key List.mem_cons_self
        have hall := Component.Owed.sendsToAll hregistered
        rw [h.identity] at hall
        exact hall
      | _ => exact howed.tail
    · exact h.owed other

theorem Solicited.throw (h : Solicited registry owner node) (thread : ThreadId) :
    Solicited registry owner { node with todo := Function.update node.todo thread [] } := by
  refine ⟨h.identity, h.component, ?_⟩
  intro other
  simp only [Function.update_apply]
  split
  · exact .nil owner
  · exact h.owed other

theorem Solicited.outgoing (h : Solicited registry owner node) {thread : ThreadId} :
    ∀ parcel ∈ node.outgoing thread, registry.Due owner parcel := by
  intro parcel hparcel
  unfold Node.outgoing at hparcel
  split at hparcel
  · contradiction
  · rename_i first rest htodo
    apply (h.owed thread).parcels
    have hall : parcel ∈ (node.todo thread).flatMap node.component.hands := by
      rw [htodo, List.flatMap_cons]
      exact List.mem_append_left _ hparcel
    exact (Component.hands_sublist _ _).subset hall

end Node

namespace Network
variable {F : Type} {net next : Network F}

structure Solicited (net : Network F) : Prop where
  nodes : ∀ owner, Node.Solicited net.registry owner (net.nodes owner)
  flight : ∀ envelope ∈ net.flight, ∀ message, envelope.message = .subscription message →
    net.registry.Requested envelope.recipient message
  sent : ∀ envelope ∈ net.sent, ∀ key, envelope.message.target = some key →
    ∃ peer, net.registry.Asked peer envelope.recipient key

theorem Solicited.initial : Solicited (Network.initial : Network F) :=
  ⟨fun owner => .quiet owner, List.forall_mem_nil _, List.forall_mem_nil _⟩

theorem Solicited.update (h : Solicited net) {owner : OwnerId} {node : Node F}
    (hnode : Node.Solicited net.registry owner node) (other : OwnerId) :
    Node.Solicited net.registry other (Function.update net.nodes owner node other) := by
  rw [Function.update_apply]
  split
  · rename_i heq
    rw [heq]
    exact hnode
  · exact h.nodes other

theorem Solicited.call (h : Solicited net) {owner : OwnerId} {thread : ThreadId} {call : Call F}
    {now : TimePoint} (hpublic : call.isPublic) :
    Solicited { net.assign owner thread ((net.nodes owner).enter thread call now)
        (some net.issued.length) with
      issued := net.issued ++ [⟨(net.nodes owner).component, call⟩] } := by
  let issued := net.issued ++ [⟨(net.nodes owner).component, call⟩]
  have hmore : ∀ subscriber record, net.registry subscriber record →
      registry { net with issued } subscriber record := by
    rintro subscriber record ⟨origin, hmem, horigin⟩
    exact ⟨origin, List.mem_append_left _ hmem, horigin⟩
  have hgrown : Solicited { net with issued } := by
    refine ⟨fun other => (h.nodes other).mono hmore, ?_, ?_⟩
    · intro envelope henvelope message hmessage
      exact (h.flight envelope henvelope message hmessage).mono hmore
    · intro envelope henvelope key hkey
      obtain ⟨peer, hasked⟩ := h.sent envelope henvelope key hkey
      exact ⟨peer, hasked.mono hmore⟩
  refine ⟨hgrown.update ((hgrown.nodes owner).enter ?_ ?_), hgrown.flight, hgrown.sent⟩
  · rintro message rfl
    contradiction
  · rintro named key rfl
    exact ⟨_, List.mem_append_right _ (List.mem_singleton_self _), (h.nodes owner).identity, rfl⟩

theorem Solicited.move {action : NetworkAction F} (h : Solicited net)
    (hmove : net.Move action next) : Solicited next := by
  cases hmove with
  | call hpublic _ => exact h.call hpublic
  | @advance owner thread first rest htodo =>
    have hdue : ∀ parcel ∈ (net.nodes owner).outgoing thread, net.registry.Due owner parcel :=
      (h.nodes owner).outgoing
    refine ⟨h.update ((h.nodes owner).advance htodo), ?_, ?_⟩
    · intro envelope henvelope message hmessage
      rcases List.mem_append.mp henvelope with hold | hnew
      · exact h.flight envelope hold message hmessage
      · obtain ⟨parcel, hparcel, rfl⟩ := List.mem_map.mp hnew
        exact (hdue parcel hparcel).asks message hmessage
    · intro envelope henvelope key hkey
      rcases List.mem_append.mp henvelope with hold | hnew
      · exact h.sent envelope hold key hkey
      · obtain ⟨parcel, hparcel, rfl⟩ := List.mem_map.mp hnew
        exact ⟨owner, (hdue parcel hparcel).told key hkey⟩
  | throw => exact ⟨h.update ((h.nodes _).throw _), h.flight, h.sent⟩
  | @deliver index thread now envelope hflight hidle =>
    have hmem : envelope ∈ net.flight := List.mem_of_getElem? hflight
    refine ⟨h.update ((h.nodes envelope.recipient).enter ?_ ?_), ?_, h.sent⟩
    · intro message hcall
      injection hcall with hmessage
      exact h.flight envelope hmem message hmessage
    · intro named key hcall
      contradiction
    · intro other hother
      exact h.flight other (List.mem_of_mem_eraseIdx hother)
  | lose =>
    refine ⟨h.nodes, ?_, h.sent⟩
    intro other hother
    exact h.flight other (List.mem_of_mem_eraseIdx hother)

end Network

/-- However calls and deliveries interleave, a component is told of a pair only
if it has registered a subscription that asks for it. -/
theorem told_on_request {F : Type} {net : Network F}
    (h : Reach Network.step unguarded Network.initial net) : net.ToldOnRequest := by
  have hsolicited : net.Solicited :=
    h.invariant .initial fun _ _ _ hnet _ hstep => hnet.move (Network.step_move hstep)
  refine ⟨?_, hsolicited.sent⟩
  intro owner thread parcel hparcel key hkey
  exact (((hsolicited.nodes owner).owed thread).parcels parcel hparcel).told key hkey

/-- Component 2000 has asked 1000 for everything and is told of a publish. -/
theorem told_on_request_wildcard : ∃ net : Network Unit,
    Reach Network.step unguarded Network.initial net ∧
      (∃ envelope ∈ net.sent, envelope.recipient = 2000 ∧
        envelope.message.target = some ⟨1000, [107]⟩) ∧ net.ToldOnRequest := by
  have hrun : ∃ net : Network Unit, Reach Network.step unguarded Network.initial net ∧
      ∃ envelope ∈ net.sent, envelope.recipient = 2000 ∧
        envelope.message.target = some ⟨1000, [107]⟩ := by
    refine ⟨_, Reach.of_run (Network.acquainted ++ Network.publishing) (fun _ _ _ => trivial) rfl,
      _, List.mem_cons_of_mem _ List.mem_cons_self, rfl, rfl⟩
  obtain ⟨net, hreach, hsent⟩ := hrun
  exact ⟨net, hreach, hsent, told_on_request hreach⟩

end Srnp
