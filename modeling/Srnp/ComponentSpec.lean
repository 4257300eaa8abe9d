import Srnp.Component

/-! What entering a call does, said once for every call: the writes it makes to
the pair space, the change it announces and the frames it then owes. -/
namespace Srnp
open Std LastWrite

def Message.target : Message → Option PairKey
  | .pairUpdate update => some update.pairKey
  | .pairRemoved request => some request.pairKey
  | _ => none

/-- What a frame from the owner of a pair writes to the copy of the receiver. -/
def Call.received {F : Type} : Call F → Option (Write PairKey Shown)
  | .handle message => message.write
  | _ => none

theorem Message.target_eq (message : Message) :
    message.target = message.write.map (·.key) := by
  cases message with
  | pairUpdate update => simp [Message.target, Message.write]
  | _ => rfl

theorem Message.replay_elsewhere {message : Message} {key : PairKey}
    (h : message.target ≠ some key) (store : Store PairKey Shown) :
    store.replay message.write.toList key = store key := by
  rw [message.target_eq] at h
  cases hwrite : message.write with
  | none => rfl
  | some write =>
    rw [hwrite] at h
    have hother : write.key ≠ key := by
      intro heq
      exact h (congrArg some heq)
    exact Store.apply_other hother

namespace Component
variable {F : Type} (c : Component F)

/-- What a call writes to the pairs of the component it is made at: the local
calls, and the `Pair` and `RemovePair` frames addressed to it. -/
def ownWrite : Call F → Option (Write PairKey Shown)
  | .setPair key value type =>
      if c.ready then some ({ owner := c.owner, key, value, type } : Pair).write else none
  | .removePair key => if c.ready then some (.remove ⟨c.owner, key⟩) else none
  | .removeRemotePair owner key =>
      if owner = c.owner ∧ c.ready then some (.remove ⟨owner, key⟩) else none
  | .handle (.pair pair) => some ({ pair with owner := c.owner } : Pair).write
  | .handle (.removePair request) =>
      if request.owner = c.owner then some (.remove request.pairKey) else none
  | _ => none

theorem ownWrite_owner {call : Call F} {write : Write PairKey Shown}
    (h : c.ownWrite call = some write) : write.key.owner = c.owner := by
  unfold ownWrite at h
  split at h <;> try split at h
  all_goals first | contradiction | cases Option.some.inj h
  · simp [Pair.pairKey]
  · rfl
  · rename_i hown
    exact hown.1
  · simp [Pair.pairKey]
  · rename_i hown
    exact hown

theorem identity_sendSubscription (owner : OwnerId) (key : Bytes) (registering : Bool) :
    (c.sendSubscription owner key registering).component.owner = c.owner ∧
      (c.sendSubscription owner key registering).component.ready = c.ready := by
  unfold sendSubscription
  split <;> exact ⟨rfl, rfl⟩

theorem identity_removePair (key : Bytes) :
    (c.removePair key).component.owner = c.owner ∧
      (c.removePair key).component.ready = c.ready := by
  unfold removePair
  split
  · dsimp only
    split <;> exact ⟨rfl, rfl⟩
  · exact ⟨rfl, rfl⟩

theorem enter_identity (call : Call F) (now : TimePoint) :
    (c.enter call now).component.owner = c.owner ∧
      (c.enter call now).component.ready = c.ready := by
  cases call with
  | setPair key value type =>
    simp only [enter, setPair]
    split <;> exact ⟨rfl, rfl⟩
  | setRemotePair owner key value type => exact ⟨rfl, rfl⟩
  | removePair key => exact c.identity_removePair key
  | removeRemotePair owner key =>
    simp only [enter, removeRemotePair]
    split
    · exact c.identity_removePair key
    · exact ⟨rfl, rfl⟩
  | registerCallback owner key callback =>
    simp only [enter, registerCallback]
    split <;> exact ⟨rfl, rfl⟩
  | cancelCallback handle => exact ⟨rfl, rfl⟩
  | registerSubscription owner key =>
    simp only [enter, registerSubscription]
    split
    · exact ⟨rfl, rfl⟩
    · exact identity_sendSubscription _ _ _ _
  | cancelSubscription owner key =>
    simp only [enter, cancelSubscription]
    split
    · exact ⟨rfl, rfl⟩
    · exact identity_sendSubscription _ _ _ _
  | cancelSubscriptionHandle handle =>
    simp only [enter, cancelSubscriptionHandle]
    split
    · exact ⟨rfl, rfl⟩
    · exact identity_sendSubscription _ _ _ _
  | addSession component => exact ⟨rfl, rfl⟩
  | removeSession owner => exact ⟨rfl, rfl⟩
  | sendSubscriptionsFor owner session => exact ⟨rfl, rfl⟩
  | handle message =>
    cases message with
    | pair pair => exact ⟨rfl, rfl⟩
    | pairUpdate pair => exact ⟨rfl, rfl⟩
    | subscription message =>
      simp only [enter, handle, handleSubscription]
      split
      · exact ⟨rfl, rfl⟩
      split
      · exact ⟨rfl, rfl⟩
      split
      · split <;> exact ⟨rfl, rfl⟩
      · split <;> exact ⟨rfl, rfl⟩
    | removePair request =>
      simp only [enter, handle, handleRemovePair]
      split
      · exact ⟨rfl, rfl⟩
      · split <;> exact ⟨rfl, rfl⟩
    | pairRemoved request => exact ⟨rfl, rfl⟩

@[simp] theorem enter_owner (call : Call F) (now : TimePoint) :
    (c.enter call now).component.owner = c.owner :=
  (c.enter_identity call now).1

/-! ### The pair space after a call -/

theorem replay_remove_absent {space : PairSpace F} {key : PairKey}
    (h : space.find key = none) : space.view.replay [.remove key] = space.view := by
  funext other
  by_cases hkey : key = other
  · subst hkey
    simp [PairSpace.view, h]
  · simp [Store.apply_remove_other _ hkey]

theorem view_removePair (key : Bytes) :
    (c.removePair key).component.space.view =
      c.space.view.replay (c.ownWrite (.removePair key)).toList := by
  unfold removePair
  by_cases hready : c.ready
  · simp only [hready, if_true, ownWrite, Option.toList_some]
    split
    · rename_i hfind
      exact (replay_remove_absent hfind).symm
    · exact PairSpace.view_removePair _ _
  · simp [hready, ownWrite, idle]

theorem space_sendTo (owner : OwnerId) (message : Message) :
    (c.sendTo owner message).component = c := rfl

theorem space_sendSubscription (owner : OwnerId) (key : Bytes) (registering : Bool) :
    (c.sendSubscription owner key registering).component = c := by
  unfold sendSubscription
  split <;> rfl

theorem space_registerSubscription (owner : OwnerId) (key : Bytes) :
    (c.registerSubscription owner key).component.space = c.space := by
  unfold registerSubscription
  split
  · rfl
  · simp only [space_sendSubscription]

theorem space_cancelSubscription (owner : OwnerId) (key : Bytes) :
    (c.cancelSubscription owner key).component.space = c.space := by
  unfold cancelSubscription
  split
  · rfl
  · simp only [space_sendSubscription]

theorem space_cancelSubscriptionHandle (handle : SubscriptionHandle) :
    (c.cancelSubscriptionHandle handle).component.space = c.space := by
  unfold cancelSubscriptionHandle
  split
  · rfl
  · simp only [space_sendSubscription]

theorem view_registerCallback (owner : OwnerId) (key : Bytes) (callback : F) (now : TimePoint) :
    (c.registerCallback owner key callback now).component.space.view = c.space.view := by
  unfold registerCallback
  split
  · rfl
  · exact PairSpace.view_addCallback _ _ _ _

theorem view_handleSubscription (message : Subscription) (now : TimePoint) :
    (c.handleSubscription message now).component.space.view = c.space.view := by
  unfold handleSubscription
  split
  · rfl
  split
  · rfl
  split
  · split
    · exact PairSpace.view_addSubscriptionToAll _ _
    · exact PairSpace.view_addSubscription _ _ _ _
  split
  · exact PairSpace.view_removeSubscriptionToAll _ _
  · exact PairSpace.view_removeSubscription _ _ _

theorem view_handleRemovePair (request : RemovePairRequest) :
    (c.handleRemovePair request).component.space.view =
      c.space.view.replay (c.ownWrite (.handle (.removePair request))).toList := by
  unfold handleRemovePair
  by_cases howner : request.owner = c.owner
  · simp only [howner, ne_eq, not_true, if_false, ownWrite, if_true, Option.toList_some]
    split
    · rename_i hfind
      exact (replay_remove_absent hfind).symm
    · exact PairSpace.view_removePair _ _
  · simp [howner, ownWrite, idle]

/-- Every call replays its own write and what it received on the view. -/
theorem enter_view (call : Call F) (now : TimePoint) :
    (c.enter call now).component.space.view =
      c.space.view.replay ((c.ownWrite call).toList ++ call.received.toList) := by
  cases call with
  | setPair key value type =>
    by_cases hready : c.ready
    · simp only [enter, setPair, hready, if_true, ownWrite, Call.received, Option.toList_some,
        Option.toList_none, List.append_nil]
      exact PairSpace.view_addPair _ _ _
    · simp [enter, setPair, hready, ownWrite, Call.received, idle]
  | setRemotePair owner key value type => rfl
  | removePair key =>
    have h := c.view_removePair key
    simpa [enter, Call.received] using h
  | removeRemotePair owner key =>
    by_cases howner : owner = c.owner
    · have h := c.view_removePair key
      simpa [enter, removeRemotePair, howner, Call.received, ownWrite] using h
    · simp [enter, removeRemotePair, howner, Call.received, ownWrite, space_sendTo]
  | registerCallback owner key callback => exact c.view_registerCallback owner key callback now
  | cancelCallback handle => exact PairSpace.view_removeCallback _ _
  | registerSubscription owner key =>
    simp [enter, space_registerSubscription, Call.received, ownWrite]
  | cancelSubscription owner key =>
    simp [enter, space_cancelSubscription, Call.received, ownWrite]
  | cancelSubscriptionHandle handle =>
    simp [enter, space_cancelSubscriptionHandle, Call.received, ownWrite]
  | addSession component => rfl
  | removeSession owner => rfl
  | sendSubscriptionsFor owner session => rfl
  | handle message =>
    cases message with
    | pair pair => exact PairSpace.view_addPair _ _ _
    | pairUpdate pair => exact PairSpace.view_addPair _ _ _
    | subscription message => exact c.view_handleSubscription message now
    | removePair request =>
      have h := c.view_handleRemovePair request
      simpa [enter, handle, Call.received, Message.write] using h
    | pairRemoved request => exact PairSpace.view_removePair _ _

/-! ### The frames a call owes -/

def parcel : Action F → Option (OwnerId × Message)
  | .send subscriber message => some (subscriber, message)
  | .sendOn owner _ message => some (owner, .subscription message)
  | _ => none

def parcels (todo : List (Action F)) : List (OwnerId × Message) := todo.filterMap parcel

def announced (message : Message) : List (OwnerId × Message) :=
  match message.target with
  | some key => if message.fits then (c.space.subscribersOf key).ids.map (·, message) else []
  | none => []

@[simp] theorem parcels_nil : parcels ([] : List (Action F)) = [] := rfl

theorem parcels_cons (first : Action F) (rest : List (Action F)) :
    parcels (first :: rest) = (parcel first).toList ++ parcels rest := by
  rw [parcels, List.filterMap_cons]
  cases parcel first <;> rfl

@[simp] theorem parcels_append (first second : List (Action F)) :
    parcels (first ++ second) = parcels first ++ parcels second :=
  List.filterMap_append

@[simp] theorem parcels_unlock (rest : List (Action F)) :
    parcels (.unlock :: rest) = parcels rest := rfl

@[simp] theorem parcels_notifyLocal (snapshot : Pair) (callbacks : List F) :
    parcels (notifyLocal snapshot callbacks) = [] := by
  unfold notifyLocal
  split <;> rfl

theorem parcels_calls (callbacks : List F) (snapshot : Pair) :
    parcels (callbacks.map fun callback => Action.call callback snapshot) = [] := by
  induction callbacks with
  | nil => rfl
  | cons callback rest ih => exact ih

theorem parcels_sends (message : Message) (ids : List OwnerId) :
    parcels (F := F) (ids.map fun subscriber => .send subscriber message) =
      ids.map (·, message) := by
  induction ids with
  | nil => rfl
  | cons id rest ih => exact congrArg ((id, message) :: ·) ih

theorem fanOutUnlessEmpty_fits {message : Message} (h : message.fits)
    (subscribers : SubscriberList) :
    fanOutUnlessEmpty (F := F) message subscribers =
      .ok (subscribers.ids.map fun subscriber => .send subscriber message) := by
  unfold fanOutUnlessEmpty
  split
  · rename_i hempty
    rw [List.isEmpty_iff.mp hempty]
    rfl
  · obtain ⟨bytes, hframe⟩ := message.ok_of_fits h
    unfold fanOut
    rw [hframe]
    rfl

theorem fanOutUnlessEmpty_too_large {message : Message} (h : message.fits = false)
    (subscribers : SubscriberList) :
    (∃ error, fanOutUnlessEmpty (F := F) message subscribers = .error error) ∨
      fanOutUnlessEmpty (F := F) message subscribers = .ok [] := by
  unfold fanOutUnlessEmpty
  split
  · exact Or.inr rfl
  · obtain ⟨error, hframe⟩ := message.error_of_too_large h
    unfold fanOut
    rw [hframe]
    exact Or.inl ⟨error, rfl⟩

theorem fanOutThen_cases (message : Message) (subscribers : SubscriberList)
    (unwind rest : List (Action F)) :
    fanOutThen message subscribers unwind rest = unwind ∨
      ∃ ids : List OwnerId, fanOutThen message subscribers unwind rest =
        (ids.map fun subscriber => .send subscriber message) ++ rest := by
  unfold fanOutThen
  cases hfits : message.fits with
  | true =>
    rw [fanOutUnlessEmpty_fits hfits]
    exact Or.inr ⟨subscribers.ids, rfl⟩
  | false =>
    rcases fanOutUnlessEmpty_too_large (F := F) hfits subscribers with ⟨error, herror⟩ | hempty
    · rw [herror]
      exact Or.inl rfl
    · rw [hempty]
      exact Or.inr ⟨[], rfl⟩

theorem forall_fanOutThen {P : Action F → Prop} {message : Message}
    (hsend : ∀ subscriber, P (.send subscriber message)) (subscribers : SubscriberList)
    {unwind rest : List (Action F)} (hunwind : ∀ action ∈ unwind, P action)
    (hrest : ∀ action ∈ rest, P action) :
    ∀ action ∈ fanOutThen message subscribers unwind rest, P action := by
  intro action hmem
  rcases fanOutThen_cases message subscribers unwind rest with hall | ⟨ids, hall⟩
  · rw [hall] at hmem
    exact hunwind action hmem
  · rw [hall, List.mem_append] at hmem
    rcases hmem with hmem | hmem
    · obtain ⟨subscriber, _, rfl⟩ := List.mem_map.mp hmem
      exact hsend subscriber
    · exact hrest action hmem

theorem parcels_fanOutThen (message : Message) (subscribers : SubscriberList)
    {unwind rest : List (Action F)} (hunwind : parcels unwind = []) (hrest : parcels rest = []) :
    parcels (fanOutThen message subscribers unwind rest) =
      if message.fits then subscribers.ids.map (·, message) else [] := by
  unfold fanOutThen
  cases hfits : message.fits with
  | true =>
    rw [fanOutUnlessEmpty_fits hfits]
    simp [hrest, parcels_sends]
  | false =>
    rcases fanOutUnlessEmpty_too_large (F := F) hfits subscribers with ⟨error, herror⟩ | hempty
    · rw [herror]
      exact hunwind
    · rw [hempty]
      simpa using hrest

/-- A call that changed the pair space announces its own write to everyone
subscribed to the key. -/
structure Wrote (call : Call F) (entered : Entered F) (message : Message) : Prop where
  change : entered.change = some message
  write : message.write = c.ownWrite call
  parcels : parcels entered.todo = c.announced message

theorem setPair_wrote (hready : c.ready) (key value : Bytes) (type : PairType) (now : TimePoint) :
    ∃ message, c.Wrote (.setPair key value type) (c.setPair key value type now) message := by
  let pair : Pair := { owner := c.owner, key, value, type }
  refine ⟨.pairUpdate (c.space.addPair pair now).2.pair, ?_, ?_, ?_⟩
  · simp [setPair, hready, pair]
  · simp only [Message.write, PairSpace.addPair_write, ownWrite, hready, if_true, pair]
  · simp only [setPair, hready, if_true, announced, Message.target, PairSpace.addPair_pairKey]
    rw [parcels_fanOutThen _ _ rfl (by simp), PairSpace.addPair_subscribers]

theorem removePair_wrote (hready : c.ready) {key : Bytes} {entry : PairEntry F}
    (hfind : c.space.find ⟨c.owner, key⟩ = some entry) :
    ∃ message, c.Wrote (.removePair key) (c.removePair key) message := by
  refine ⟨.pairRemoved ⟨c.owner, key⟩, ?_, ?_, ?_⟩
  · simp [removePair, hready, RemovePairRequest.pairKey, hfind]
  · simp [Message.write, ownWrite, hready, RemovePairRequest.pairKey]
  · simp only [removePair, hready, if_true, RemovePairRequest.pairKey, hfind, announced,
      Message.target]
    rw [parcels_fanOutThen _ _ rfl rfl, PairSpace.subscribersOf_of_find hfind]

theorem parcels_applyAndNotify (pair : Pair) (now : TimePoint) :
    parcels (c.applyAndNotify pair now).todo =
      c.announced (.pairUpdate (c.space.addPair pair now).2.pair) := by
  simp only [applyAndNotify, parcels_append, parcels_calls, List.nil_append, announced,
    Message.target, PairSpace.addPair_pairKey]
  rw [parcels_fanOutThen _ _ rfl rfl, PairSpace.addPair_subscribers]

theorem handleIncomingPair_wrote (pair : Pair) (now : TimePoint) :
    ∃ message, c.Wrote (.handle (.pair pair)) (c.handleIncomingPair pair now) message := by
  let owned : Pair := { pair with owner := c.owner }
  refine ⟨.pairUpdate (c.space.addPair owned now).2.pair, rfl, ?_,
    c.parcels_applyAndNotify owned now⟩
  simp only [Message.write, PairSpace.addPair_write, ownWrite, owned]

theorem handleRemovePair_wrote {request : RemovePairRequest} {entry : PairEntry F}
    (howner : request.owner = c.owner) (hfind : c.space.find request.pairKey = some entry) :
    ∃ message, c.Wrote (.handle (.removePair request)) (c.handleRemovePair request) message := by
  refine ⟨.pairRemoved request, ?_, ?_, ?_⟩
  · simp [handleRemovePair, howner, hfind]
  · simp [Message.write, ownWrite, howner]
  · simp only [handleRemovePair, howner, ne_eq, not_true, if_false, hfind, announced,
      Message.target]
    rw [parcels_fanOutThen _ _ rfl rfl, PairSpace.subscribersOf_of_find hfind]

end Component

namespace Call
variable {F : Type}

def writes : Call F → Bool
  | .setPair .. => true
  | .removePair _ => true
  | .handle (.pair _) => true
  | .handle (.removePair _) => true
  | _ => false

theorem received_of_writes {call : Call F} (h : call.writes) :
    call.received = none := by
  cases call with
  | handle message =>
    cases message with
    | pairUpdate pair => contradiction
    | pairRemoved request => contradiction
    | _ => rfl
  | _ => rfl

end Call

namespace Component
variable {F : Type} (c : Component F)

/-- A writer either leaves the component as it is or has `Wrote`. -/
theorem enter_writes {call : Call F} (h : call.writes) (now : TimePoint) :
    c.enter call now = c.idle ∨ ∃ message, c.Wrote call (c.enter call now) message := by
  cases call with
  | setPair key value type =>
    by_cases hready : c.ready
    · exact Or.inr (c.setPair_wrote hready key value type now)
    · left
      simp [enter, setPair, hready]
  | removePair key =>
    by_cases hready : c.ready
    · cases hfind : c.space.find ⟨c.owner, key⟩ with
      | none =>
        left
        simp [enter, removePair, hready, RemovePairRequest.pairKey, hfind]
      | some entry => exact Or.inr (c.removePair_wrote hready hfind)
    · left
      simp [enter, removePair, hready]
  | handle message =>
    cases message with
    | pair pair => exact Or.inr (c.handleIncomingPair_wrote pair now)
    | removePair request =>
      by_cases howner : request.owner = c.owner
      · cases hfind : c.space.find request.pairKey with
        | none =>
          left
          simp [enter, handle, handleRemovePair, howner, hfind]
        | some entry => exact Or.inr (c.handleRemovePair_wrote howner hfind)
      · left
        simp [enter, handle, handleRemovePair, howner]
    | _ => contradiction
  | _ => contradiction

theorem setPair_space (key value : Bytes) (type : PairType) (now : TimePoint) :
    (c.setPair key value type now).component = { c with
      space := if c.ready then (c.space.addPair { owner := c.owner, key, value, type } now).1
        else c.space } := by
  unfold setPair
  split <;> rfl

theorem removePair_space (key : Bytes) :
    (c.removePair key).component = { c with
      space := if c.ready then c.space.removePair ⟨c.owner, key⟩ else c.space } := by
  unfold removePair
  split
  · dsimp only
    split
    · rename_i hfind
      have habsent : c.space.removePair ⟨c.owner, key⟩ = c.space := by
        change c.space.find ⟨c.owner, key⟩ = none at hfind
        simp [PairSpace.removePair, hfind]
      rw [habsent]
      rfl
    · rfl
  · rfl

theorem handleRemovePair_space (request : RemovePairRequest) :
    (c.handleRemovePair request).component = { c with
      space := if request.owner = c.owner then c.space.removePair request.pairKey
        else c.space } := by
  unfold handleRemovePair
  by_cases howner : request.owner = c.owner
  · rw [if_neg (not_not.mpr howner), if_pos howner]
    split
    · rename_i hfind
      have habsent : c.space.removePair request.pairKey = c.space := by
        simp [PairSpace.removePair, hfind]
      rw [habsent]
      rfl
    · rfl
  · rw [if_pos howner, if_neg howner]
    rfl

theorem view_enter_writes {call : Call F} (h : call.writes) (now : TimePoint) :
    (c.enter call now).component.space.view =
      c.space.view.replay (c.ownWrite call).toList := by
  have hview := c.enter_view call now
  rw [Call.received_of_writes h, Option.toList_none, List.append_nil] at hview
  exact hview

theorem enter_writes_frame {call : Call F} (h : call.writes) (now : TimePoint) :
    ∃ space, (c.enter call now).component = { c with space } := by
  cases call with
  | setPair key value type => exact ⟨_, c.setPair_space key value type now⟩
  | removePair key => exact ⟨_, c.removePair_space key⟩
  | handle message =>
    cases message with
    | pair pair => exact ⟨_, rfl⟩
    | removePair request => exact ⟨_, c.handleRemovePair_space request⟩
    | _ => contradiction
  | _ => contradiction

theorem mem_subscribersOf_enter_writes {call : Call F} (h : call.writes) (now : TimePoint)
    {key : PairKey} {id : OwnerId} (hid : id ∈ c.space.subscribersOf key) :
    id ∈ (c.enter call now).component.space.subscribersOf key := by
  cases call with
  | setPair pairKey value type =>
    simp only [enter, setPair_space]
    split
    · rw [PairSpace.subscribersOf_addPair]
      exact hid
    · exact hid
  | removePair pairKey =>
    simp only [enter, removePair_space]
    split
    · exact PairSpace.mem_subscribersOf_removePair _ _ hid
    · exact hid
  | handle message =>
    cases message with
    | pair pair =>
      change id ∈ (c.space.addPair _ now).1.subscribersOf key
      rw [PairSpace.subscribersOf_addPair]
      exact hid
    | removePair request =>
      simp only [enter, handle, handleRemovePair_space]
      split
      · exact PairSpace.mem_subscribersOf_removePair _ _ hid
      · exact hid
    | _ => contradiction
  | _ => contradiction

end Component

/-- Whether the frame that announces a call's write is within the size limit.
It always is for a frame that was itself received. -/
def Call.announceable {F : Type} : Call F → Prop
  | .setPair key value _ => key.length + value.length + 29 ≤ Wire.kMaxPayload
  | .removePair key => key.length + 8 ≤ Wire.kMaxPayload
  | .handle message => message.fits
  | _ => True

theorem Component.Wrote.fits {F : Type} {c : Component F} {call : Call F} {now : TimePoint}
    {message : Message} (h : c.Wrote call (c.enter call now) message) (hcall : call.writes)
    (hfits : call.announceable) : message.fits := by
  have hchange := h.change
  cases call with
  | setPair key value type =>
    by_cases hready : c.ready
    · simp only [Component.enter, Component.setPair, hready, if_true, Option.some.injEq] at hchange
      subst hchange
      rw [pairUpdate_fits_iff]
      have hkey := PairSpace.addPair_pairKey c.space
        { owner := c.owner, key := key, value := value, type := type } now
      have hlength := congrArg (fun k : PairKey => k.key.length) hkey
      simp only [Pair.pairKey] at hlength
      rw [hlength, PairSpace.addPair_value]
      exact hfits
    · simp [Component.enter, Component.setPair, hready, Component.idle] at hchange
  | removePair key =>
    have hremoved : message = .pairRemoved ⟨c.owner, key⟩ := by
      simp only [Component.enter, Component.removePair] at hchange
      split at hchange
      · split at hchange
        · contradiction
        · exact (Option.some.inj hchange).symm
      · contradiction
    subst hremoved
    rw [pairRemoved_fits_iff]
    exact hfits
  | handle received =>
    cases received with
    | pair pair =>
      simp only [Component.enter, Component.handle, Component.handleIncomingPair,
        Component.applyAndNotify, Option.some.injEq] at hchange
      subst hchange
      have hpair := (pair_fits_iff pair).mp hfits
      rw [pairUpdate_fits_iff]
      have hkey := PairSpace.addPair_pairKey c.space { pair with owner := c.owner } now
      have hlength := congrArg (fun k : PairKey => k.key.length) hkey
      simp only [Pair.pairKey] at hlength
      rw [hlength, PairSpace.addPair_value]
      exact hpair
    | removePair request =>
      have hremoved : message = .pairRemoved request := by
        simp only [Component.enter, Component.handle, Component.handleRemovePair] at hchange
        split at hchange
        · contradiction
        · split at hchange
          · contradiction
          · exact (Option.some.inj hchange).symm
      subst hremoved
      rw [pairRemoved_fits_iff]
      exact (removePair_fits_iff request).mp hfits
    | _ => contradiction
  | _ => contradiction

end Srnp
