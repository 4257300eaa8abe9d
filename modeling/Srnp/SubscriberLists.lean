import Srnp.Replica
import Srnp.VisibleStore
import Srnp.CallbackTable

/-! The subscriber lists over any sequence of operations on a pair space. No
list names an id twice, so one change is told to each session once at most; an
id taken from all lists stays out of them until it is subscribed again; and a
pair that is removed and published again is told to whoever it was told to,
except that an entry nobody listened to starts over with the wildcard list. -/
namespace Srnp
open Std LastWrite Transition

namespace SpaceOp
variable {F : Type}

def Subscribes (subscriber : OwnerId) : SpaceOp F → Prop
  | .addSubscription _ named _ => named = subscriber
  | .addSubscriptionToAll named => named = subscriber
  | _ => False

end SpaceOp

namespace PairSpace
variable {F : Type} {space : PairSpace F} {subscriber : OwnerId}

structure Unlisted (space : PairSpace F) (subscriber : OwnerId) : Prop where
  universal : subscriber ∉ space.uSubscribers
  listed : ∀ key, subscriber ∉ space.subscribersOf key

theorem Unlisted.removeSubscriptionToAll (space : PairSpace F) (subscriber : OwnerId) :
    (space.removeSubscriptionToAll subscriber).Unlisted subscriber := by
  constructor
  · change subscriber ∉ space.uSubscribers.erase subscriber
    simp
  · intro key
    simp [subscribersOf_removeSubscriptionToAll]

theorem Unlisted.perform (h : space.Unlisted subscriber) {op : SpaceOp F}
    (hop : ¬ op.Subscribes subscriber) : (op.perform space).Unlisted subscriber := by
  cases op with
  | addPair pair now =>
    constructor
    · exact fun hmem => h.universal (space.uSubscribers_addPair pair now ▸ hmem)
    · exact fun key hmem => h.listed key (space.subscribersOf_addPair pair now key ▸ hmem)
  | removePair removed =>
    constructor
    · exact fun hmem => h.universal (space.uSubscribers_removePair removed ▸ hmem)
    · intro key hmem
      change subscriber ∈ (space.removePair removed).subscribersOf key at hmem
      rcases space.subscribersOf_removePair removed key with hsame | ⟨_, hwildcard⟩
      · rw [hsame] at hmem
        exact h.listed key hmem
      · rw [hwildcard] at hmem
        exact h.universal hmem
  | addSubscription target named now =>
    constructor
    · exact fun hmem => h.universal (space.uSubscribers_addSubscription target named now ▸ hmem)
    · intro key hmem
      change subscriber ∈ (space.addSubscription target named now).subscribersOf key at hmem
      rw [subscribersOf_addSubscription] at hmem
      split at hmem
      · rcases SubscriberList.mem_push.mp hmem with hold | hnew
        · exact h.listed target hold
        · exact hop hnew.symm
      · exact h.listed key hmem
  | removeSubscription target named =>
    constructor
    · exact fun hmem => h.universal (space.uSubscribers_removeSubscription target named ▸ hmem)
    · intro key hmem
      change subscriber ∈ (space.removeSubscription target named).subscribersOf key at hmem
      rw [subscribersOf_removeSubscription] at hmem
      split at hmem
      · exact h.listed target (SubscriberList.mem_erase.mp hmem).1
      · exact h.listed key hmem
  | addSubscriptionToAll named =>
    by_cases hknown : named ∈ space.uSubscribers
    · simp only [SpaceOp.perform, addSubscriptionToAll, if_pos hknown]
      exact h
    · constructor
      · intro hmem
        simp only [SpaceOp.perform, addSubscriptionToAll, if_neg hknown] at hmem
        rcases SubscriberList.mem_push.mp hmem with hold | hnew
        · exact h.universal hold
        · exact hop hnew.symm
      · intro key hmem
        change subscriber ∈ (space.addSubscriptionToAll named).subscribersOf key at hmem
        rw [subscribersOf_addSubscriptionToAll hknown] at hmem
        rcases SubscriberList.mem_push.mp hmem with hold | hnew
        · exact h.listed key hold
        · exact hop hnew.symm
  | removeSubscriptionToAll named =>
    constructor
    · exact fun hmem => h.universal (SubscriberList.mem_erase.mp hmem).1
    · intro key hmem
      change subscriber ∈ (space.removeSubscriptionToAll named).subscribersOf key at hmem
      rw [subscribersOf_removeSubscriptionToAll] at hmem
      exact h.listed key (SubscriberList.mem_erase.mp hmem).1
  | addCallback target callback now =>
    constructor
    · exact fun hmem => h.universal (space.uSubscribers_addCallback target callback now ▸ hmem)
    · exact fun key hmem =>
        h.listed key (space.subscribersOf_addCallback target callback now key ▸ hmem)
  | addCallbackToAll callback => exact ⟨h.universal, h.listed⟩
  | removeCallback handle =>
    constructor
    · exact fun hmem => h.universal (space.uSubscribers_removeCallback handle ▸ hmem)
    · exact fun key hmem => h.listed key (space.subscribersOf_removeCallback handle key ▸ hmem)

theorem Unlisted.performAll (h : space.Unlisted subscriber) {ops : List (SpaceOp F)}
    (hops : ∀ op ∈ ops, ¬ op.Subscribes subscriber) :
    (space.performAll ops).Unlisted subscriber := by
  induction ops generalizing space with
  | nil => exact h
  | cons op rest ih =>
    apply ih (h.perform (hops op List.mem_cons_self))
    exact fun later hlater => hops later (List.mem_cons_of_mem op hlater)

theorem performAll_append (space : PairSpace F) (first second : List (SpaceOp F)) :
    space.performAll (first ++ second) = (space.performAll first).performAll second :=
  List.foldl_append

end PairSpace

/-! ### Sessions -/

namespace Component
variable {F : Type} {c : Component F}

structure Numbered (c : Component F) : Prop where
  issued : ∀ (owner : OwnerId) (session : Nat), c.sessions[owner]? = some session →
    session < c.nextSession
  apart : ∀ (left right : OwnerId) (session : Nat), c.sessions[left]? = some session →
    c.sessions[right]? = some session → left = right

theorem Numbered.initial (owner : OwnerId) : (initial owner : Component F).Numbered := by
  constructor <;> simp [Component.initial]

theorem Numbered.congr (h : c.Numbered) {after : Component F}
    (hsessions : after.sessions = c.sessions) (hnext : after.nextSession = c.nextSession) :
    after.Numbered := by
  constructor
  · rw [hsessions, hnext]
    exact h.issued
  · rw [hsessions]
    exact h.apart

theorem Numbered.addSession (h : c.Numbered) (info : ComponentInfo) :
    (c.addSession info).component.Numbered := by
  have hfind : ∀ owner : OwnerId, (c.addSession info).component.sessions[owner]? =
      if info.owner = owner then some c.nextSession else c.sessions[owner]? := by
    intro owner
    simp only [Component.addSession, ExtTreeMap.getElem?_insert]
    exact if_congr LawfulEqOrd.compare_eq_iff_eq rfl rfl
  constructor
  · intro owner session hsession
    rw [hfind] at hsession
    change session < c.nextSession + 1
    split at hsession
    · cases Option.some.inj hsession
      exact Nat.lt_succ_self _
    · exact Nat.lt_succ_of_lt (h.issued owner session hsession)
  · intro left right session hleft hright
    rw [hfind] at hleft hright
    split at hleft <;> split at hright
    · rename_i hl hr
      exact hl.symm.trans hr
    · cases Option.some.inj hleft
      exact absurd (h.issued right _ hright) (Nat.lt_irrefl _)
    · cases Option.some.inj hright
      exact absurd (h.issued left _ hleft) (Nat.lt_irrefl _)
    · exact h.apart left right session hleft hright

theorem Numbered.removeSession (h : c.Numbered) (removed : OwnerId) :
    (c.removeSession removed).component.Numbered := by
  have hkept : ∀ (owner : OwnerId) (session : Nat),
      (c.removeSession removed).component.sessions[owner]? = some session →
        c.sessions[owner]? = some session := by
    intro owner session hsession
    simp only [Component.removeSession, ExtTreeMap.getElem?_erase] at hsession
    split at hsession
    · contradiction
    · exact hsession
  constructor
  · exact fun owner session hsession => h.issued owner session (hkept owner session hsession)
  · exact fun left right session hleft hright =>
      h.apart left right session (hkept left session hleft) (hkept right session hright)

theorem Numbered.enter (h : c.Numbered) (call : Call F) (now : TimePoint) :
    (c.enter call now).component.Numbered := by
  cases call with
  | addSession info => exact h.addSession info
  | removeSession owner => exact h.removeSession owner
  | setPair key value type =>
    simp only [Component.enter, setPair_space]
    exact h.congr rfl rfl
  | removePair key =>
    simp only [Component.enter, removePair_space]
    exact h.congr rfl rfl
  | removeRemotePair owner key =>
    simp only [Component.enter, removeRemotePair]
    split
    · simp only [removePair_space]
      exact h.congr rfl rfl
    · exact h
  | registerCallback owner key callback =>
    simp only [Component.enter, registerCallback]
    split <;> exact h.congr rfl rfl
  | registerSubscription owner key =>
    simp only [Component.enter, registerSubscription]
    split
    · exact h
    · rw [space_sendSubscription]
      exact h.congr rfl rfl
  | cancelSubscription owner key =>
    simp only [Component.enter, cancelSubscription]
    split
    · exact h
    · rw [space_sendSubscription]
      exact h.congr rfl rfl
  | cancelSubscriptionHandle handle =>
    simp only [Component.enter, cancelSubscriptionHandle]
    split
    · exact h
    · rw [space_sendSubscription]
      exact h.congr rfl rfl
  | setRemotePair | cancelCallback | sendSubscriptionsFor => exact h.congr rfl rfl
  | handle message =>
    cases message with
    | pair | pairUpdate | pairRemoved => exact h.congr rfl rfl
    | subscription message =>
      simp only [Component.enter, handle, handleSubscription]
      split
      · exact h
      split
      · exact h
      split
      · split <;> exact h.congr rfl rfl
      · split <;> exact h.congr rfl rfl
    | removePair request =>
      simp only [Component.enter, handle, handleRemovePair]
      split
      · exact h
      · split
        · exact h
        · exact h.congr rfl rfl

def handedTo (c : Component F) (session : Nat) (todo : List (Action F)) : List Message :=
  ((todo.flatMap c.hands).filter fun parcel => c.sessions[parcel.1]? = some session).map (·.2)

theorem Numbered.handedTo (h : c.Numbered) {owner : OwnerId} {session : Nat}
    (hsession : c.sessions[owner]? = some session) (todo : List (Action F)) :
    c.handedTo session todo = c.framesFor owner todo := by
  unfold Component.handedTo framesFor
  congr 1
  apply List.filter_congr
  intro parcel _
  apply decide_eq_decide.mpr
  constructor
  · intro hparcel
    exact h.apart parcel.1 owner session hparcel hsession
  · intro howner
    rw [howner]
    exact hsession

theorem Numbered.handedTo_setPair (h : c.Numbered) (key value : Bytes) (type : PairType)
    (now : TimePoint) (session : Nat) :
    (c.handedTo session (c.setPair key value type now).todo).length ≤ 1 := by
  by_cases hready : c.ready
  · by_cases howned : ∃ owner : OwnerId, c.sessions[owner]? = some session
    · obtain ⟨owner, howner⟩ := howned
      obtain ⟨message, hwrote⟩ := c.setPair_wrote hready key value type now
      rw [h.handedTo howner]
      exact (c.framesFor_announced hwrote.parcels owner).length_le
    · have hnone : c.handedTo session (c.setPair key value type now).todo = [] := by
        unfold Component.handedTo
        rw [List.map_eq_nil_iff, List.filter_eq_nil_iff]
        intro parcel _ hparcel
        exact howned ⟨parcel.1, of_decide_eq_true hparcel⟩
      rw [hnone]
      exact Nat.zero_le 1
  · simp [setPair, hready, idle, Component.handedTo]

end Component

theorem Node.numbered_of_reach {F : Type} {owner : OwnerId} {node : Node F}
    (h : Reach Node.step unguarded (.quiet (.initial owner)) node) : node.component.Numbered := by
  refine h.invariant (I := fun node => node.component.Numbered) (.initial owner) ?_
  intro before action after hbefore _ hstep
  rcases step_cases hstep with ⟨thread, call, now, _, _, _, rfl⟩ | ⟨thread, first, rest, _, _, rfl⟩ |
    ⟨thread, _, rfl⟩
  · exact hbefore.enter call now
  · simp only [advance, perform_component]
    exact hbefore
  · exact hbefore

/-- In every space that operations can lead to, each entry is filed under the key of its pair, no
list names an id twice, and an id that was taken from all lists is in none until it is subscribed
again. A publish on such a space, whatever the sessions, hands each of them one frame at most. -/
theorem one_frame_per_subscriber {F : Type} (ops : List (SpaceOp F)) {owner : OwnerId}
    {node : Node F} (h : Reach Node.step unguarded (.quiet (.initial owner)) node) :
    let space : PairSpace F := PairSpace.empty.performAll ops
    let c : Component F := { node.component with space }
    (∀ (key : PairKey) (entry : PairEntry F), space.pairs[key]? = some entry →
      entry.pair.pairKey = key ∧ entry.subscribers.ids.Nodup) ∧
    space.uSubscribers.ids.Nodup ∧
    (∀ before after subscriber, ops = before ++ .removeSubscriptionToAll subscriber :: after →
      (∀ op ∈ after, ¬ op.Subscribes subscriber) →
      subscriber ∉ space.uSubscribers.ids ∧
        ∀ (key : PairKey) (entry : PairEntry F), space.pairs[key]? = some entry →
          subscriber ∉ entry.subscribers.ids) ∧
    ∀ key value type now session,
      (c.handedTo session (c.setPair key value type now).todo).length ≤ 1 := by
  intro space c
  refine ⟨?_, space.uSubscribers.nodup, ?_, ?_⟩
  · intro key entry hentry
    exact ⟨space.keyed key entry hentry, entry.subscribers.nodup⟩
  · intro before after subscriber hops hafter
    have hunlisted : space.Unlisted subscriber := by
      change (PairSpace.empty.performAll ops).Unlisted subscriber
      rw [hops, PairSpace.performAll_append]
      exact (PairSpace.Unlisted.removeSubscriptionToAll _ subscriber).performAll hafter
    refine ⟨hunlisted.universal, ?_⟩
    intro key entry hentry
    have hlisted := hunlisted.listed key
    rw [PairSpace.subscribersOf_of_find hentry] at hlisted
    exact hlisted
  · intro key value type now session
    have hnumbered : c.Numbered := (Node.numbered_of_reach h).congr rfl rfl
    exact hnumbered.handedTo_setPair key value type now session

/-! Component 2000 subscribes to everything, to one pair, and cancels it all. -/

def subscribedTwice : List (SpaceOp Unit) :=
  [.addSubscriptionToAll 2000, .addSubscription ⟨1000, [107]⟩ 2000 1]

theorem one_frame_per_subscriber_joined : ∃ node : Node Unit,
    Reach Node.step unguarded (.quiet (.initial 1000)) node ∧
      node.component.sessions[(2000 : OwnerId)]? = some 0 ∧
      let c : Component Unit :=
        { node.component with space := PairSpace.empty.performAll subscribedTwice }
      (c.handedTo 0 (c.setPair [107] [7] .string 5).todo).length ≤ 1 ∧
      c.handedTo 0 (c.setPair [107] [7] .string 5).todo =
        [.pairUpdate { owner := 1000, key := [107], value := [7], writeTime := 5 }] := by
  have hrun : ∃ node : Node Unit, Reach Node.step unguarded (.quiet (.initial 1000)) node ∧
      node.component = ((Component.initial 1000).addSession ⟨2000, [], []⟩).component :=
    ⟨_, .tail (a := .enter 0 (.addSession ⟨2000, [], []⟩) 1) .refl trivial rfl, rfl⟩
  obtain ⟨node, hreach, hcomponent⟩ := hrun
  have hone := (one_frame_per_subscriber subscribedTwice hreach).2.2.2 [107] [7] .string 5 0
  refine ⟨node, hreach, ?_, hone, ?_⟩
  · rw [hcomponent]
    rfl
  · rw [hcomponent]
    decide

/-! ### Removing a pair and publishing it again -/

namespace PairSpace
variable {F : Type} {space : PairSpace F}

theorem find_republish {key : PairKey} {entry : PairEntry F} (hfind : space.find key = some entry)
    {pair : Pair} (hkey : pair.pairKey = key) (now : TimePoint) :
    ∃ again, ((space.removePair key).addPair pair now).1.find key = some again ∧
      again.callbacks = entry.callbacks ∧
      again.subscribers = if entry.subscribers.ids.isEmpty && entry.callbacks.isEmpty then
        space.uSubscribers else entry.subscribers := by
  have hagain : ((space.removePair key).addPair pair now).1.find key =
      some ((space.removePair key).addPair pair now).2 := by
    rw [addPair_eq_put, find_put, addPair_pairKey, if_pos hkey]
  refine ⟨_, hagain, ?_, ?_⟩
  · have hremoved := (SameCallbacks.removePair space key).trans (.addPair _ pair now)
    rw [← callbacksAt_of_find hagain, hremoved.callbacksAt, callbacksAt_of_find hfind]
  · rw [addPair_subscribers, hkey]
    unfold removePair
    rw [hfind]
    dsimp only
    split
    · simp [subscribersOf]
    · rw [subscribersOf_put]
      change (if entry.pair.pairKey = key then _ else _) = _
      rw [pairKey_of_find hfind, if_pos rfl]

end PairSpace

/-- A pair removed and published again has the callbacks it had. It has the subscribers it had too,
unless there was nobody to tell: then its entry is erased and the next one is told to the wildcard
subscribers, like that of any new pair. -/
theorem subscriptions_outlive_removal {F : Type} (ops : List (SpaceOp F)) {key : PairKey}
    {entry : PairEntry F} (hfind : (PairSpace.empty.performAll ops).find key = some entry)
    {pair : Pair} (hkey : pair.pairKey = key) (now : TimePoint) :
    let space : PairSpace F := PairSpace.empty.performAll ops
    ∃ again, ((space.removePair key).addPair pair now).1.find key = some again ∧
      again.callbacks = entry.callbacks ∧
      (again.subscribers = entry.subscribers ↔
        ¬ (entry.subscribers = .empty ∧ entry.callbacks = ∅ ∧ space.uSubscribers ≠ .empty)) ∧
      (entry.subscribers = .empty → entry.callbacks = ∅ →
        again.subscribers = space.uSubscribers) := by
  intro space
  obtain ⟨again, hagain, hcallbacks, hsubscribers⟩ :=
    PairSpace.find_republish hfind hkey now
  refine ⟨again, hagain, hcallbacks, ?_⟩
  have hempty : (entry.subscribers.ids.isEmpty && entry.callbacks.isEmpty) = true ↔
      entry.subscribers = .empty ∧ entry.callbacks = ∅ := by
    rw [Bool.and_eq_true, List.isEmpty_iff, ExtTreeMap.isEmpty_iff]
    refine and_congr_left fun _ => ⟨fun hnone => SubscriberList.ext hnone, ?_⟩
    intro hnone
    rw [hnone]
    rfl
  by_cases hnobody : entry.subscribers = .empty ∧ entry.callbacks = ∅
  · rw [if_pos (hempty.mpr hnobody)] at hsubscribers
    refine ⟨?_, fun _ _ => hsubscribers⟩
    rw [hsubscribers, hnobody.1]
    constructor
    · exact fun hnone hsome => hsome.2.2 hnone
    · intro hsome
      by_contra hne
      exact hsome ⟨rfl, hnobody.2, hne⟩
  · rw [if_neg (fun h => hnobody (hempty.mp h))] at hsubscribers
    refine ⟨⟨fun _ h => hnobody ⟨h.1, h.2.1⟩, fun _ => hsubscribers⟩, ?_⟩
    exact fun hnone hcallbacks => absurd ⟨hnone, hcallbacks⟩ hnobody

def republished : Pair := { owner := 1000, key := [107], value := [8] }

theorem subscriptions_outlive_removal_subscribed : ∃ entry again : PairEntry Unit,
    let space := PairSpace.empty.performAll subscribedTwice
    space.find republished.pairKey = some entry ∧ entry.subscribers.ids = [2000] ∧
      ((space.removePair republished.pairKey).addPair republished 5).1.find republished.pairKey =
        some again ∧ again.callbacks = entry.callbacks := by
  have hentry : ∃ entry : PairEntry Unit,
      (PairSpace.empty.performAll subscribedTwice).find republished.pairKey = some entry ∧
        entry.subscribers.ids = [2000] := ⟨_, rfl, rfl⟩
  obtain ⟨entry, hfind, hids⟩ := hentry
  obtain ⟨again, hagain, hcallbacks, _⟩ :=
    subscriptions_outlive_removal subscribedTwice hfind rfl 5
  exact ⟨entry, again, hfind, hids, hagain, hcallbacks⟩

/-- Component 2000 subscribes to everything and cancels the one pair there is. -/
def cancelledPair : List (SpaceOp Unit) :=
  [.addSubscriptionToAll 2000, .addPair { republished with value := [7] } 1,
    .removeSubscription republished.pairKey 2000]

/-- It is told of that pair again once the pair has been removed and published. -/
theorem cancelled_pair_resubscribed :
    ¬ ∀ (ops : List (SpaceOp Unit)) (key : PairKey) (entry : PairEntry Unit) (pair : Pair)
      (now : TimePoint), (PairSpace.empty.performAll ops).find key = some entry →
      pair.pairKey = key →
      ∃ again, (((PairSpace.empty.performAll ops).removePair key).addPair pair now).1.find key =
        some again ∧ again.subscribers = entry.subscribers ∧
        again.callbacks = entry.callbacks := by
  intro hclaim
  let space : PairSpace Unit := PairSpace.empty.performAll cancelledPair
  have hentry : ∃ entry : PairEntry Unit, space.find republished.pairKey = some entry ∧
      entry.subscribers.ids = [] := ⟨_, rfl, rfl⟩
  obtain ⟨entry, hfind, hids⟩ := hentry
  obtain ⟨again, hagain, hsame, _⟩ :=
    hclaim cancelledPair republished.pairKey entry republished 5 hfind rfl
  have hlisted : (((space.removePair republished.pairKey).addPair republished 5).1.find
      republished.pairKey).map (·.subscribers.ids) = some [2000] := rfl
  rw [hagain, Option.map_some, hsame, hids] at hlisted
  contradiction

end Srnp
