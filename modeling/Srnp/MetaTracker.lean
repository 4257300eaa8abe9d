import Srnp.CallbackTable
import Srnp.ClientRun
import Srnp.MetaValue

/-! The trackers of meta-pairs. A tracker keeps the handles of the subscription
and the callback on its meta-pair, and of those on the pair the meta-pair names.
Its functions go through the process-wide node and are left by an exception
when there is none, or when a subscription is too long to frame for a session;
what was done before the exception stays done. -/
namespace Srnp
open Std LastWrite

/-- The callbacks of a process: those the user passed in, and the one that every
tracker registers. -/
inductive Watcher (U : Type) where
  | user (callback : U)
  | onMetaPairChanged

structure MetaTracker (U : Type) where
  fn : Option U
  metaSubscription : SubscriptionHandle := kInvalidSubscriptionHandle
  metaCallback : CallbackHandle := kInvalidCallbackHandle
  /-- The pair the meta-pair names right now, empty when it names nothing. -/
  target : Option PairKey := none
  targetSubscription : SubscriptionHandle := kInvalidSubscriptionHandle
  targetCallback : CallbackHandle := kInvalidCallbackHandle

namespace Component
variable {F : Type} (c : Component F)

def addressees (record : SubscriptionRecord) : List OwnerId :=
  if record.owner = kAnyOwner then c.sessions.toList.map (·.1)
  else if c.sessions.contains record.owner then [record.owner] else []

/-- A frame is built only once its session is found. -/
def sendThrows (record : SubscriptionRecord) (registering : Bool) : Bool :=
  (c.addressees record).any fun owner =>
    !(Message.subscription ⟨record.key, owner, c.owner, registering⟩).fits

def subscribed (record : SubscriptionRecord) : Bool :=
  c.subscriptions.toList.any fun entry => entry.2 = record

end Component

def PairKey.record (key : PairKey) : SubscriptionRecord := ⟨key.owner, key.key⟩

structure Held (U : Type) where
  node : Option (Component (Watcher U))
  tracker : MetaTracker U

abbrev HeldM (U : Type) := EStateM Unit (Held U)

namespace Held
variable {U : Type}

def client : HeldM U (Component (Watcher U)) := do
  match (← get).node with
  | none => throw ()
  | some c => pure c

def setNode (c : Component (Watcher U)) : HeldM U Unit :=
  modify fun held => { held with node := some c }

def registerCallback (key : PairKey) (callback : Watcher U) (now : TimePoint) :
    HeldM U CallbackHandle := do
  let c ← client
  let after := (c.registerCallback key.owner key.key callback now).component
  setNode after
  pure after.space.nextCallbackHandle

def cancelCallback (handle : CallbackHandle) : HeldM U Unit := do
  let c ← client
  setNode (c.cancelCallback handle).component

def registerSubscription (key : PairKey) : HeldM U SubscriptionHandle := do
  let c ← client
  let after := (c.registerSubscription key.owner key.key).component
  setNode after
  if c.subscribed key.record then pure kInvalidSubscriptionHandle
  else if c.sendThrows key.record true then throw ()
  else pure after.nextSubscriptionHandle

def cancelSubscription (handle : SubscriptionHandle) : HeldM U Unit := do
  let c ← client
  setNode (c.cancelSubscriptionHandle handle).component
  match c.subscriptions[handle]? with
  | none => pure ()
  | some record => if c.sendThrows record false then throw () else pure ()

def releaseTargetCallback : HeldM U Unit := do
  let held ← get
  if held.tracker.targetCallback ≠ kInvalidCallbackHandle then
    cancelCallback held.tracker.targetCallback
    modify fun held => { held with tracker.targetCallback := kInvalidCallbackHandle }

def releaseTargetSubscription : HeldM U Unit := do
  let held ← get
  if held.tracker.targetSubscription ≠ kInvalidSubscriptionHandle then
    cancelSubscription held.tracker.targetSubscription
    modify fun held => { held with tracker.targetSubscription := kInvalidSubscriptionHandle }

def releaseTarget : HeldM U Unit := do
  releaseTargetCallback
  releaseTargetSubscription
  modify fun held => { held with tracker.target := none }

def acquireTarget (target : PairKey) (now : TimePoint) : HeldM U Unit := do
  modify fun held => { held with tracker.target := some target }
  let subscription ← registerSubscription target
  modify fun held => { held with tracker.targetSubscription := subscription }
  match (← get).tracker.fn with
  | none => pure ()
  | some fn =>
      let callback ← registerCallback target (.user fn) now
      modify fun held => { held with tracker.targetCallback := callback }

/-- The part of `registerTracker` that fills in a new tracker. -/
def acquireMeta (key : PairKey) (now : TimePoint) : HeldM U Unit := do
  let subscription ← registerSubscription key
  modify fun held => { held with tracker.metaSubscription := subscription }
  let callback ← registerCallback key .onMetaPairChanged now
  modify fun held => { held with tracker.metaCallback := callback }

/-- The part of `onMetaPairChanged` for a meta-pair that is tracked. -/
def repoint (value : Bytes) (now : TimePoint) : HeldM U Unit := do
  let target := MetaTracker.parseMetaValue value
  let held ← get
  if target ≠ held.tracker.target then
    releaseTarget
    match target with
    | none => pure ()
    | some target => acquireTarget target now

/-- The part of `cancelMetaCallback` before the tracker is forgotten. -/
def releaseAll : HeldM U Unit := do
  releaseTarget
  cancelSubscription (← get).tracker.metaSubscription
  cancelCallback (← get).tracker.metaCallback

end Held

/-! ### What the functions leave behind -/

def MetaTracker.withoutTarget {U : Type} (tracker : MetaTracker U) : MetaTracker U :=
  { tracker with
    target := none
    targetSubscription := kInvalidSubscriptionHandle
    targetCallback := kInvalidCallbackHandle }

namespace Component
variable {U : Type} (c : Component (Watcher U)) (tracker : MetaTracker U)

def released : Component (Watcher U) :=
  let c := if tracker.targetCallback = kInvalidCallbackHandle then c
    else (c.cancelCallback tracker.targetCallback).component
  if tracker.targetSubscription = kInvalidSubscriptionHandle then c
  else (c.cancelSubscriptionHandle tracker.targetSubscription).component

def cancelThrows (handle : SubscriptionHandle) : Bool :=
  c.subscriptions[handle]?.any fun record => c.sendThrows record false

def releaseThrows : Bool :=
  tracker.targetSubscription ≠ kInvalidSubscriptionHandle ∧ c.cancelThrows tracker.targetSubscription

def registerThrows (key : PairKey) : Bool := !c.subscribed key.record && c.sendThrows key.record true

def recorded (key : PairKey) : Component (Watcher U) :=
  (c.registerSubscription key.owner key.key).component

def subscriptionHandle (key : PairKey) : SubscriptionHandle :=
  if c.subscribed key.record then kInvalidSubscriptionHandle else (c.recorded key).nextSubscriptionHandle

def watched (key : PairKey) (callback : Watcher U) (now : TimePoint) : Component (Watcher U) :=
  (c.registerCallback key.owner key.key callback now).component

end Component

namespace Held
variable {U : Type}

section
variable {α β : Type} {m : HeldM U α} {f : α → HeldM U β} {before after : Held U}

theorem bind_of_ok {result : α} (h : m before = .ok result after) :
    (m >>= f) before = f result after := by
  change EStateM.bind m f before = f result after
  simp only [EStateM.bind, h]

theorem bind_of_error (h : m before = .error () after) : (m >>= f) before = .error () after := by
  change EStateM.bind m f before = .error () after
  simp only [EStateM.bind, h]

end

variable (c : Component (Watcher U)) (tracker : MetaTracker U)

theorem registerSubscription_node (key : PairKey) :
    registerSubscription key ⟨some c, tracker⟩ =
      if c.registerThrows key then .error () ⟨some (c.recorded key), tracker⟩
      else .ok (c.subscriptionHandle key) ⟨some (c.recorded key), tracker⟩ := by
  change (if c.subscribed key.record then pure kInvalidSubscriptionHandle
    else if c.sendThrows key.record true then throw ()
    else pure (c.recorded key).nextSubscriptionHandle : HeldM U SubscriptionHandle)
      ⟨some (c.recorded key), tracker⟩ = _
  unfold Component.registerThrows Component.subscriptionHandle
  cases c.subscribed key.record with
  | true => rfl
  | false => cases c.sendThrows key.record true <;> rfl

theorem cancelSubscription_node (handle : SubscriptionHandle) :
    cancelSubscription handle ⟨some c, tracker⟩ =
      if c.cancelThrows handle then
        .error () ⟨some (c.cancelSubscriptionHandle handle).component, tracker⟩
      else .ok () ⟨some (c.cancelSubscriptionHandle handle).component, tracker⟩ := by
  change (match c.subscriptions[handle]? with
    | none => pure ()
    | some record => if c.sendThrows record false then throw () else pure () : HeldM U Unit)
      ⟨some (c.cancelSubscriptionHandle handle).component, tracker⟩ = _
  unfold Component.cancelThrows
  cases c.subscriptions[handle]? with
  | none => rfl
  | some record =>
    simp only [Option.any_some]
    by_cases h : c.sendThrows record false
    · rw [if_pos h, if_pos h]
      rfl
    · rw [if_neg h, if_neg h]
      rfl

theorem releaseTargetCallback_node :
    releaseTargetCallback ⟨some c, tracker⟩ =
      .ok () ⟨some (if tracker.targetCallback = kInvalidCallbackHandle then c
        else (c.cancelCallback tracker.targetCallback).component),
        { tracker with targetCallback := kInvalidCallbackHandle }⟩ := by
  change (if tracker.targetCallback ≠ kInvalidCallbackHandle then _ else _ : HeldM U Unit)
    ⟨some c, tracker⟩ = _
  by_cases h : tracker.targetCallback = kInvalidCallbackHandle
  · rw [if_neg (not_not.mpr h), if_pos h, ← h]
    rfl
  · rw [if_pos h, if_neg h]
    rfl

theorem releaseTargetSubscription_node :
    releaseTargetSubscription ⟨some c, tracker⟩ =
      if c.releaseThrows tracker then
        .error () ⟨some (c.cancelSubscriptionHandle tracker.targetSubscription).component, tracker⟩
      else .ok () ⟨some (if tracker.targetSubscription = kInvalidSubscriptionHandle then c
        else (c.cancelSubscriptionHandle tracker.targetSubscription).component),
        { tracker with targetSubscription := kInvalidSubscriptionHandle }⟩ := by
  change (if tracker.targetSubscription ≠ kInvalidSubscriptionHandle then _ else _ : HeldM U Unit)
    ⟨some c, tracker⟩ = _
  unfold Component.releaseThrows
  by_cases h : tracker.targetSubscription = kInvalidSubscriptionHandle
  · simp only [h, ne_eq, not_true, if_false, false_and, decide_false, Bool.false_eq_true, if_true]
    change EStateM.Result.ok () (⟨some c, tracker⟩ : Held U) = _
    rw [← h]
  · simp only [ne_eq, h, not_false_eq_true, if_true, true_and, Bool.decide_eq_true, if_false]
    have hcancel := cancelSubscription_node c tracker tracker.targetSubscription
    by_cases hthrows : c.cancelThrows tracker.targetSubscription
    · rw [if_pos hthrows] at hcancel ⊢
      exact bind_of_error hcancel
    · rw [if_neg hthrows] at hcancel ⊢
      exact bind_of_ok hcancel

theorem releaseTarget_node :
    releaseTarget ⟨some c, tracker⟩ =
      if c.releaseThrows tracker then
        .error () ⟨some (c.released tracker),
          { tracker with targetCallback := kInvalidCallbackHandle }⟩
      else .ok () ⟨some (c.released tracker), tracker.withoutTarget⟩ := by
  have hcallback := releaseTargetCallback_node c tracker
  change (releaseTargetCallback >>= fun _ => releaseTargetSubscription >>= _ : HeldM U Unit) _ = _
  rw [bind_of_ok hcallback]
  have hsubscription := releaseTargetSubscription_node
    (if tracker.targetCallback = kInvalidCallbackHandle then c
      else (c.cancelCallback tracker.targetCallback).component)
    { tracker with targetCallback := kInvalidCallbackHandle }
  have hthrows : (if tracker.targetCallback = kInvalidCallbackHandle then c
      else (c.cancelCallback tracker.targetCallback).component).releaseThrows
        { tracker with targetCallback := kInvalidCallbackHandle } = c.releaseThrows tracker := by
    split <;> rfl
  rw [hthrows] at hsubscription
  by_cases h : c.releaseThrows tracker
  · rw [if_pos h] at hsubscription ⊢
    rw [bind_of_error hsubscription]
    have hsome : tracker.targetSubscription ≠ kInvalidSubscriptionHandle := by
      simp only [Component.releaseThrows, decide_eq_true_eq] at h
      exact h.1
    simp only [Component.released, if_neg hsome]
  · rw [if_neg h] at hsubscription ⊢
    rw [bind_of_ok hsubscription]
    rfl

theorem acquireTarget_node (target : PairKey) (now : TimePoint) :
    acquireTarget target now ⟨some c, tracker⟩ =
      if c.registerThrows target then
        .error () ⟨some (c.recorded target), { tracker with target := some target }⟩
      else
        match tracker.fn with
        | none => .ok () ⟨some (c.recorded target), { tracker with
            target := some target
            targetSubscription := c.subscriptionHandle target }⟩
        | some fn => .ok () ⟨some ((c.recorded target).watched target (.user fn) now), { tracker with
            target := some target
            targetSubscription := c.subscriptionHandle target
            targetCallback :=
              ((c.recorded target).watched target (.user fn) now).space.nextCallbackHandle }⟩ := by
  have hregister := registerSubscription_node c { tracker with target := some target } target
  change (registerSubscription target >>= _ : HeldM U Unit)
    ⟨some c, { tracker with target := some target }⟩ = _
  by_cases h : c.registerThrows target
  · rw [if_pos h] at hregister ⊢
    exact bind_of_error hregister
  · rw [if_neg h] at hregister ⊢
    rw [bind_of_ok hregister]
    cases hfn : tracker.fn with
    | none => rfl
    | some fn => rfl

theorem acquireMeta_node (key : PairKey) (now : TimePoint) :
    acquireMeta key now ⟨some c, tracker⟩ =
      if c.registerThrows key then .error () ⟨some (c.recorded key), tracker⟩
      else .ok () ⟨some ((c.recorded key).watched key .onMetaPairChanged now), { tracker with
        metaSubscription := c.subscriptionHandle key
        metaCallback :=
          ((c.recorded key).watched key .onMetaPairChanged now).space.nextCallbackHandle }⟩ := by
  have hregister := registerSubscription_node c tracker key
  change (registerSubscription key >>= _ : HeldM U Unit) _ = _
  by_cases h : c.registerThrows key
  · rw [if_pos h] at hregister ⊢
    exact bind_of_error hregister
  · rw [if_neg h] at hregister ⊢
    rw [bind_of_ok hregister]
    rfl

theorem repoint_node {value : Bytes} (now : TimePoint)
    (h : MetaTracker.parseMetaValue value ≠ tracker.target) :
    repoint value now ⟨some c, tracker⟩ =
      if c.releaseThrows tracker then
        .error () ⟨some (c.released tracker),
          { tracker with targetCallback := kInvalidCallbackHandle }⟩
      else
        match MetaTracker.parseMetaValue value with
        | none => .ok () ⟨some (c.released tracker), tracker.withoutTarget⟩
        | some target =>
            acquireTarget target now ⟨some (c.released tracker), tracker.withoutTarget⟩ := by
  have hrelease := releaseTarget_node c tracker
  change (if _ then _ else _ : HeldM U Unit) _ = _
  rw [if_pos h]
  by_cases hthrows : c.releaseThrows tracker
  · rw [if_pos hthrows] at hrelease ⊢
    exact bind_of_error hrelease
  · rw [if_neg hthrows] at hrelease ⊢
    rw [bind_of_ok hrelease]
    cases hparse : MetaTracker.parseMetaValue value with
    | none => rfl
    | some target => rfl

theorem repoint_same {value : Bytes} (now : TimePoint) {held : Held U}
    (h : MetaTracker.parseMetaValue value = held.tracker.target) :
    repoint value now held = .ok () held := by
  change (if _ then _ else _ : HeldM U Unit) held = _
  rw [if_neg (not_not.mpr h)]
  rfl

theorem releaseAll_node :
    releaseAll ⟨some c, tracker⟩ =
      if c.releaseThrows tracker then
        .error () ⟨some (c.released tracker),
          { tracker with targetCallback := kInvalidCallbackHandle }⟩
      else
        let c := c.released tracker
        let unsubscribed := (c.cancelSubscriptionHandle tracker.metaSubscription).component
        if c.cancelThrows tracker.metaSubscription then
          .error () ⟨some unsubscribed, tracker.withoutTarget⟩
        else .ok () ⟨some (unsubscribed.cancelCallback tracker.metaCallback).component,
          tracker.withoutTarget⟩ := by
  have hrelease := releaseTarget_node c tracker
  change (releaseTarget >>= _ : HeldM U Unit) _ = _
  by_cases hthrows : c.releaseThrows tracker
  · rw [if_pos hthrows] at hrelease ⊢
    exact bind_of_error hrelease
  · rw [if_neg hthrows] at hrelease ⊢
    rw [bind_of_ok hrelease]
    change (cancelSubscription tracker.metaSubscription >>= _ : HeldM U Unit) _ = _
    have hcancel := cancelSubscription_node (c.released tracker) tracker.withoutTarget
      tracker.metaSubscription
    dsimp only
    by_cases hmeta : (c.released tracker).cancelThrows tracker.metaSubscription
    · rw [if_pos hmeta] at hcancel ⊢
      exact bind_of_error hcancel
    · rw [if_neg hmeta] at hcancel ⊢
      rw [bind_of_ok hcancel]
      rfl

end Held

end Srnp
