import Srnp.MetaStep

/-! The handles that trackers keep. Subscription records and callbacks are two
tables of registrations; the trackers are agents that keep handles, and the user
is the party that is none. Each step of a process is a few changes of the two
tables. -/
namespace Srnp
open Std LastWrite Transition HandleTable

/-- Zero is no handle. -/
def kept (handle : UInt64) : Option UInt64 := if handle = 0 then none else some handle

namespace MetaTracker
variable {U : Type} (tracker : MetaTracker U)

def subscription : Slot → SubscriptionHandle
  | .metaPair => tracker.metaSubscription
  | .target => tracker.targetSubscription

def callback : Slot → CallbackHandle
  | .metaPair => tracker.metaCallback
  | .target => tracker.targetCallback

end MetaTracker

/-- Where a callback for the key is kept: a wildcard is about every pair. -/
def PairKey.place (key : PairKey) : Option PairKey :=
  if key.key = kWildcardKey then none else some key

def holderOf {U : Type} (read : MetaTracker U → Slot → UInt64)
    (trackers : ExtTreeMap PairKey (MetaTracker U)) (agent : Agent) : Option UInt64 :=
  trackers[agent.key]?.bind fun tracker => kept (read tracker agent.slot)

def ProperCallback {U : Type} (agent : Agent) (named : Option PairKey × Watcher U) : Prop :=
  agent.slot = .metaPair → named = (agent.key.place, .onMetaPairChanged)

abbrev SubscriptionTable := Table SubscriptionHandle SubscriptionRecord Agent
abbrev CallbackTable (U : Type) := Table CallbackHandle (Option PairKey × Watcher U) Agent

namespace Component
variable {U : Type} (c : Component (Watcher U))

/-- The records of a node, with the trackers and the history of a process. -/
def subscriptionTable (trackers : ExtTreeMap PairKey (MetaTracker U))
    (issued : SubscriptionHandle → Option (Option Agent × SubscriptionRecord)) :
    SubscriptionTable :=
  ⟨fun handle => c.subscriptions[handle]?, issued, holderOf MetaTracker.subscription trackers⟩

def callbackTable (trackers : ExtTreeMap PairKey (MetaTracker U))
    (issued : CallbackHandle → Option (Option Agent × (Option PairKey × Watcher U))) :
    CallbackTable U :=
  ⟨c.space.callbackAt, issued, holderOf MetaTracker.callback trackers⟩

end Component

section
variable {U : Type} {read : MetaTracker U → Slot → UInt64}
  {trackers : ExtTreeMap PairKey (MetaTracker U)} {key : PairKey} {tracker : MetaTracker U}

theorem holderOf_insert (agent : Agent) :
    holderOf read (trackers.insert key tracker) agent =
      if agent.key = key then kept (read tracker agent.slot) else holderOf read trackers agent := by
  unfold holderOf
  rw [ExtTreeMap.getElem?_insert]
  by_cases h : agent.key = key
  · simp [h]
  · simp [h, Ne.symm h]

theorem holderOf_erase (agent : Agent) :
    holderOf read (trackers.erase key) agent =
      if agent.key = key then none else holderOf read trackers agent := by
  unfold holderOf
  rw [ExtTreeMap.getElem?_erase]
  by_cases h : agent.key = key
  · simp [h]
  · simp [h, Ne.symm h]

theorem holderOf_of_tracked (h : trackers[key]? = some tracker) (slot : Slot) :
    holderOf read trackers ⟨key, slot⟩ = kept (read tracker slot) := by
  simp [holderOf, h]

theorem holderOf_of_untracked (h : trackers[key]? = none) (slot : Slot) :
    holderOf read trackers ⟨key, slot⟩ = none := by
  simp [holderOf, h]

theorem holderOf_change {changed : MetaTracker U} {slot : Slot} {handle : UInt64}
    (hold : ∀ other, holderOf read trackers ⟨key, other⟩ = kept (read tracker other))
    (hread : read changed = Function.update (read tracker) slot handle) :
    holderOf read (trackers.insert key changed) =
      Function.update (holderOf read trackers) ⟨key, slot⟩ (kept handle) := by
  funext agent
  obtain ⟨other, role⟩ := agent
  rw [holderOf_insert, hread]
  by_cases h : other = key
  · subst h
    by_cases hrole : role = slot
    · subst hrole
      simp
    · simp [hrole, hold]
  · simp [h]

theorem holderOf_clear {changed : MetaTracker U} {slot : Slot}
    (hold : ∀ other, holderOf read trackers ⟨key, other⟩ = kept (read tracker other))
    (hread : read changed = Function.update (read tracker) slot 0) :
    holderOf read (trackers.insert key changed) =
      Function.update (holderOf read trackers) ⟨key, slot⟩ none :=
  holderOf_change hold hread

theorem holderOf_same {changed : MetaTracker U} (h : trackers[key]? = some tracker)
    (hread : read changed = read tracker) :
    holderOf read (trackers.insert key changed) = holderOf read trackers := by
  funext agent
  obtain ⟨other, role⟩ := agent
  rw [holderOf_insert, hread]
  split
  · rename_i heq
    cases heq
    rw [holderOf_of_tracked h]
  · rfl

end

namespace Component
variable {U : Type} {c : Component (Watcher U)}

/-! ### What the functions do to the records and the callbacks -/

theorem enter_subscriptions {call : Call (Watcher U)} (hregister : ∀ owner key,
      call ≠ .registerSubscription owner key) (hcancel : ∀ owner key,
      call ≠ .cancelSubscription owner key) (hhandle : ∀ handle,
      call ≠ .cancelSubscriptionHandle handle) (now : TimePoint) :
    (c.enter call now).component.subscriptions = c.subscriptions ∧
      (c.enter call now).component.nextSubscriptionHandle = c.nextSubscriptionHandle := by
  cases call with
  | setPair key value type =>
    simp only [enter, setPair_space, and_self]
  | removePair key =>
    simp only [enter, removePair_space, and_self]
  | removeRemotePair owner key =>
    simp only [enter, removeRemotePair]
    split
    · simp only [removePair_space, and_self]
    · exact ⟨rfl, rfl⟩
  | registerCallback owner key callback =>
    simp only [enter, Component.registerCallback]
    split <;> exact ⟨rfl, rfl⟩
  | registerSubscription owner key => exact absurd rfl (hregister owner key)
  | cancelSubscription owner key => exact absurd rfl (hcancel owner key)
  | cancelSubscriptionHandle handle => exact absurd rfl (hhandle handle)
  | handle message =>
    cases message with
    | subscription message =>
      simp only [enter, handle, handleSubscription]
      split
      · exact ⟨rfl, rfl⟩
      split
      · exact ⟨rfl, rfl⟩
      split
      · split <;> exact ⟨rfl, rfl⟩
      · split <;> exact ⟨rfl, rfl⟩
    | removePair request =>
      simp only [enter, handle, handleRemovePair_space, and_self]
    | _ => exact ⟨rfl, rfl⟩
  | _ => exact ⟨rfl, rfl⟩

theorem subscribed_iff {record : SubscriptionRecord} : c.subscribed record ↔ c.Live record :=
  live_iff_any.symm

theorem subscriptions_cancelSubscriptionHandle (handle : SubscriptionHandle) :
    (fun other => (c.cancelSubscriptionHandle handle).component.subscriptions[other]?) =
      Function.update (fun other => c.subscriptions[other]?) handle none := by
  funext other
  cases hfind : c.subscriptions[handle]? with
  | none =>
    have hsame : (c.cancelSubscriptionHandle handle).component = c := by
      simp [cancelSubscriptionHandle, hfind, idle]
    rw [hsame, Function.update_apply]
    split
    · rename_i heq
      rw [heq, hfind]
    · rfl
  | some record =>
    rw [cancelSubscriptionHandle_component hfind, Function.update_apply]
    exact PairSpace.getElem?_erase_handle handle other

theorem recorded_of_subscribed {key : PairKey} (h : c.subscribed key.record) :
    c.recorded key = c := by
  unfold recorded registerSubscription
  exact congrArg Entered.component (if_pos h)

theorem recorded_of_new {key : PairKey} (h : c.subscribed key.record = false) :
    c.recorded key = { c with
      subscriptions := c.subscriptions.insertIfNew (c.nextSubscriptionHandle + 1) key.record
      nextSubscriptionHandle := c.nextSubscriptionHandle + 1 } := by
  have hnew : ¬ c.Live ⟨key.owner, key.key⟩ := by
    rw [← subscribed_iff]
    exact Bool.eq_false_iff.mp h
  exact registerSubscription_component hnew

@[simp] theorem space_recorded (key : PairKey) : (c.recorded key).space = c.space :=
  c.space_registerSubscription key.owner key.key

theorem subscriptions_recorded {key : PairKey} (h : c.subscribed key.record = false)
    (hfresh : c.subscriptions[c.nextSubscriptionHandle + 1]? = none) :
    (fun other => (c.recorded key).subscriptions[other]?) =
      Function.update (fun other => c.subscriptions[other]?) (c.nextSubscriptionHandle + 1)
        (some key.record) := by
  funext other
  have hnew : c.nextSubscriptionHandle + 1 ∉ c.subscriptions := by simpa using hfresh
  rw [recorded_of_new h, Function.update_apply]
  exact PairSpace.getElem?_insertIfNew_fresh hnew key.record other

theorem subscriptions_watched (key : PairKey) (callback : Watcher U) (now : TimePoint) :
    (c.watched key callback now).subscriptions = c.subscriptions ∧
      (c.watched key callback now).nextSubscriptionHandle = c.nextSubscriptionHandle := by
  unfold watched registerCallback
  split <;> exact ⟨rfl, rfl⟩

theorem next_watched (key : PairKey) (callback : Watcher U) (now : TimePoint) :
    (c.watched key callback now).space.nextCallbackHandle = c.space.nextCallbackHandle + 1 := by
  unfold watched registerCallback
  split <;> rfl

section
variable (hfiled : c.space.Filed)
  (hfresh : c.space.callbackAt (c.space.nextCallbackHandle + 1) = none)
include hfiled hfresh

theorem filed_watched (key : PairKey) (callback : Watcher U) (now : TimePoint) :
    (c.watched key callback now).space.Filed := by
  unfold watched registerCallback
  split
  · exact hfiled.addCallbackToAll hfresh callback
  · exact hfiled.addCallback hfresh _ callback now

theorem callbackAt_watched (key : PairKey) (callback : Watcher U) (now : TimePoint) :
    (c.watched key callback now).space.callbackAt =
      Function.update c.space.callbackAt (c.space.nextCallbackHandle + 1)
        (some (key.place, callback)) := by
  unfold watched registerCallback PairKey.place
  by_cases h : key.key = kWildcardKey
  · rw [if_pos h, if_pos h]
    exact hfiled.callbackAt_addCallbackToAll hfresh callback
  · rw [if_neg h, if_neg h]
    exact hfiled.callbackAt_addCallback hfresh _ callback now

end

structure SameNode (c d : Component (Watcher U)) : Prop where
  owner : d.owner = c.owner
  sessions : d.sessions = c.sessions
  nextSubscriptionHandle : d.nextSubscriptionHandle = c.nextSubscriptionHandle
  nextCallbackHandle : d.space.nextCallbackHandle = c.space.nextCallbackHandle
  view : d.space.view = c.space.view

theorem SameNode.refl : SameNode c c := ⟨rfl, rfl, rfl, rfl, rfl⟩

theorem SameNode.trans {d e : Component (Watcher U)} (first : SameNode c d) (second : SameNode d e) :
    SameNode c e where
  owner := second.owner.trans first.owner
  sessions := second.sessions.trans first.sessions
  nextSubscriptionHandle := second.nextSubscriptionHandle.trans first.nextSubscriptionHandle
  nextCallbackHandle := second.nextCallbackHandle.trans first.nextCallbackHandle
  view := second.view.trans first.view

theorem next_removeCallback {F : Type} (space : PairSpace F) (handle : CallbackHandle) :
    (space.removeCallback handle).nextCallbackHandle = space.nextCallbackHandle := by
  unfold PairSpace.removeCallback
  split
  · rfl
  · dsimp only
    split <;> rfl

theorem SameNode.cancelCallback (handle : CallbackHandle) :
    SameNode c (c.cancelCallback handle).component :=
  ⟨rfl, rfl, rfl, next_removeCallback c.space handle, PairSpace.view_removeCallback c.space handle⟩

theorem SameNode.cancelSubscriptionHandle (handle : SubscriptionHandle) :
    SameNode c (c.cancelSubscriptionHandle handle).component := by
  cases hfind : c.subscriptions[handle]? with
  | none =>
    have hsame : (c.cancelSubscriptionHandle handle).component = c := by
      simp [Component.cancelSubscriptionHandle, hfind, idle]
    rw [hsame]
    exact .refl
  | some record =>
    rw [cancelSubscriptionHandle_component hfind]
    exact ⟨rfl, rfl, rfl, rfl, rfl⟩

theorem SameNode.sendThrows {d : Component (Watcher U)} (h : SameNode c d)
    (record : SubscriptionRecord) (registering : Bool) :
    d.sendThrows record registering = c.sendThrows record registering := by
  unfold Component.sendThrows addressees
  rw [h.owner, h.sessions]

variable (tracker : MetaTracker U)

theorem SameNode.released : SameNode c (c.released tracker) := by
  unfold Component.released
  dsimp only
  split
  · split
    · exact .refl
    · exact .cancelCallback _
  · split
    · exact .cancelSubscriptionHandle _
    · exact (SameNode.cancelCallback _).trans (.cancelSubscriptionHandle _)

theorem subscriptions_released :
    (fun other => (c.released tracker).subscriptions[other]?) =
      if tracker.targetSubscription = kInvalidSubscriptionHandle then
        fun other => c.subscriptions[other]?
      else Function.update (fun other => c.subscriptions[other]?) tracker.targetSubscription none := by
  have hcallback : (if tracker.targetCallback = kInvalidCallbackHandle then c
      else (c.cancelCallback tracker.targetCallback).component).subscriptions = c.subscriptions := by
    split <;> rfl
  unfold Component.released
  dsimp only
  by_cases h : tracker.targetSubscription = kInvalidSubscriptionHandle
  · rw [if_pos h, if_pos h, hcallback]
  · rw [if_neg h, if_neg h, subscriptions_cancelSubscriptionHandle, hcallback]

theorem space_released :
    (c.released tracker).space =
      if tracker.targetCallback = kInvalidCallbackHandle then c.space
      else c.space.removeCallback tracker.targetCallback := by
  unfold Component.released
  dsimp only
  by_cases h : tracker.targetSubscription = kInvalidSubscriptionHandle
  · rw [if_pos h]
    split <;> rfl
  · rw [if_neg h, space_cancelSubscriptionHandle]
    split <;> rfl

theorem filed_released (hfiled : c.space.Filed) : (c.released tracker).space.Filed := by
  rw [space_released]
  split
  · exact hfiled
  · exact hfiled.removeCallback _

end Component

/-! ### Giving up and taking registrations -/

section
variable {U : Type} {c : Component (Watcher U)} {trackers : ExtTreeMap PairKey (MetaTracker U)}
  {key : PairKey} {tracker : MetaTracker U} {permits : Permits}
  {subscriptions : SubscriptionHandle → Option (Option Agent × SubscriptionRecord)}
  {callbacks : CallbackHandle → Option (Option Agent × (Option PairKey × Watcher U))}

def anyRecord (_ : Agent) (_ : SubscriptionRecord) : Prop := True

theorem kept_of_ne {handle : UInt64} (h : handle ≠ 0) : kept handle = some handle := if_neg h

theorem release_subscription (htracked : trackers[key]? = some tracker) :
    Events anyRecord permits (c.subscriptionTable trackers subscriptions)
      ((c.released tracker).subscriptionTable (trackers.insert key tracker.withoutTarget)
        subscriptions) := by
  by_cases h : tracker.targetSubscription = kInvalidSubscriptionHandle
  · apply Events.same
    · exact (c.subscriptions_released tracker).trans (if_pos h)
    · rfl
    · apply holderOf_same htracked
      funext slot
      cases slot with
      | metaPair => rfl
      | target => exact h.symm
  · have held : (c.subscriptionTable trackers subscriptions).holder ⟨key, .target⟩ =
        some tracker.targetSubscription :=
      (holderOf_of_tracked htracked .target).trans (kept_of_ne h)
    apply (Event.release held).ends
    · exact (c.subscriptions_released tracker).trans (if_neg h)
    · rfl
    · apply holderOf_clear (holderOf_of_tracked htracked)
      funext slot
      cases slot <;> rfl

theorem lose_subscription (htracked : trackers[key]? = some tracker)
    (hthrows : c.releaseThrows tracker) (hlose : permits.lose) :
    Events anyRecord permits (c.subscriptionTable trackers subscriptions)
      ((c.released tracker).subscriptionTable
        (trackers.insert key { tracker with targetCallback := kInvalidCallbackHandle })
        subscriptions) := by
  simp only [Component.releaseThrows, decide_eq_true_eq] at hthrows
  have held : (c.subscriptionTable trackers subscriptions).holder ⟨key, .target⟩ =
      some tracker.targetSubscription :=
    (holderOf_of_tracked htracked .target).trans (kept_of_ne hthrows.1)
  apply (Event.lose hlose held).ends
  · exact (c.subscriptions_released tracker).trans (if_neg hthrows.1)
  · rfl
  · exact holderOf_same htracked rfl

theorem release_callback {changed : MetaTracker U} (htracked : trackers[key]? = some tracker)
    (hfiled : c.space.Filed) (hmeta : changed.metaCallback = tracker.metaCallback)
    (htarget : changed.targetCallback = kInvalidCallbackHandle) :
    Events ProperCallback permits (c.callbackTable trackers callbacks)
      ((c.released tracker).callbackTable (trackers.insert key changed) callbacks) := by
  have hspace := c.space_released tracker
  by_cases h : tracker.targetCallback = kInvalidCallbackHandle
  · rw [if_pos h] at hspace
    apply Events.same
    · exact congrArg PairSpace.callbackAt hspace
    · rfl
    · apply holderOf_same htracked
      funext slot
      cases slot with
      | metaPair => exact hmeta
      | target => exact htarget.trans h.symm
  · rw [if_neg h] at hspace
    have held : (c.callbackTable trackers callbacks).holder ⟨key, .target⟩ =
        some tracker.targetCallback :=
      (holderOf_of_tracked htracked .target).trans (kept_of_ne h)
    apply (Event.release held).ends
    · exact (congrArg PairSpace.callbackAt hspace).trans (hfiled.callbackAt_removeCallback _)
    · rfl
    · apply holderOf_clear (holderOf_of_tracked htracked)
      funext slot
      cases slot with
      | metaPair => exact hmeta
      | target => exact htarget

theorem note_recorded (agent : Option Agent) (asked : PairKey)
    (hfresh : c.subscriptions[c.nextSubscriptionHandle + 1]? = none) :
    note agent c.nextSubscriptionHandle (c.recorded asked).nextSubscriptionHandle
        (c.recorded asked).subscriptions[(c.recorded asked).nextSubscriptionHandle]? subscriptions =
      if c.subscribed asked.record then subscriptions
      else Function.update subscriptions (c.nextSubscriptionHandle + 1)
        (some (agent, asked.record)) := by
  unfold note
  cases h : c.subscribed asked.record with
  | true =>
    rw [Component.recorded_of_subscribed h, if_pos rfl]
    rfl
  | false =>
    have hnext : (c.recorded asked).nextSubscriptionHandle = c.nextSubscriptionHandle + 1 := by
      rw [Component.recorded_of_new h]
    have hfind := congrFun (Component.subscriptions_recorded h hfresh) (c.nextSubscriptionHandle + 1)
    rw [Function.update_self] at hfind
    rw [hnext, hfind, if_neg (by simp)]
    rfl

theorem take_subscription {after : ExtTreeMap PairKey (MetaTracker U)} {agent : Agent}
    {asked : PairKey} (free : holderOf MetaTracker.subscription trackers agent = none)
    (hne : c.nextSubscriptionHandle + 1 ≠ 0)
    (fresh : (c.subscriptionTable trackers subscriptions).Fresh (c.nextSubscriptionHandle + 1))
    (hafter : holderOf MetaTracker.subscription after =
      Function.update (holderOf MetaTracker.subscription trackers) agent
        (kept (c.subscriptionHandle asked))) :
    Events anyRecord permits (c.subscriptionTable trackers subscriptions)
      ((c.recorded asked).subscriptionTable after
        (note (some agent) c.nextSubscriptionHandle (c.recorded asked).nextSubscriptionHandle
          (c.recorded asked).subscriptions[(c.recorded asked).nextSubscriptionHandle]?
          subscriptions)) := by
  rw [note_recorded _ _ fresh.dead]
  cases h : c.subscribed asked.record with
  | true =>
    apply Events.same
    · rw [Component.recorded_of_subscribed h]
      rfl
    · rfl
    · change holderOf MetaTracker.subscription after = _
      rw [hafter]
      unfold Component.subscriptionHandle
      rw [if_pos h]
      change Function.update _ agent none = holderOf MetaTracker.subscription trackers
      rw [← free, Function.update_eq_self]
  | false =>
    apply (Event.acquire (a := agent) (v := asked.record) fresh free trivial).ends
    · exact Component.subscriptions_recorded h fresh.dead
    · rfl
    · change holderOf MetaTracker.subscription after = _
      have hhandle : c.subscriptionHandle asked = c.nextSubscriptionHandle + 1 := by
        simp [Component.subscriptionHandle, h, Component.recorded_of_new h]
      rw [hafter, hhandle, kept_of_ne hne]
      rfl

theorem leak_subscription {after : ExtTreeMap PairKey (MetaTracker U)} {asked : PairKey}
    (hthrows : c.registerThrows asked) (hleak : permits.leak) (agent : Agent)
    (fresh : (c.subscriptionTable trackers subscriptions).Fresh (c.nextSubscriptionHandle + 1))
    (hafter : holderOf MetaTracker.subscription after = holderOf MetaTracker.subscription trackers) :
    Events anyRecord permits (c.subscriptionTable trackers subscriptions)
      ((c.recorded asked).subscriptionTable after
        (note (some agent) c.nextSubscriptionHandle (c.recorded asked).nextSubscriptionHandle
          (c.recorded asked).subscriptions[(c.recorded asked).nextSubscriptionHandle]?
          subscriptions)) := by
  rw [note_recorded _ _ fresh.dead]
  have h : c.subscribed asked.record = false := by
    simp only [Component.registerThrows, Bool.and_eq_true, Bool.not_eq_true'] at hthrows
    exact hthrows.1
  rw [h]
  apply (Event.leak (a := agent) (v := asked.record) hleak fresh).ends
  · exact Component.subscriptions_recorded h fresh.dead
  · rfl
  · exact hafter

theorem take_callback {after : ExtTreeMap PairKey (MetaTracker U)} {agent : Agent}
    {asked : PairKey} {callback : Watcher U} {now : TimePoint}
    (hproper : ProperCallback agent (asked.place, callback)) (hfiled : c.space.Filed)
    (free : holderOf MetaTracker.callback trackers agent = none)
    (hne : c.space.nextCallbackHandle + 1 ≠ 0)
    (fresh : (c.callbackTable trackers callbacks).Fresh (c.space.nextCallbackHandle + 1))
    (hafter : holderOf MetaTracker.callback after =
      Function.update (holderOf MetaTracker.callback trackers) agent
        (kept (c.space.nextCallbackHandle + 1))) :
    Events ProperCallback permits (c.callbackTable trackers callbacks)
      ((c.watched asked callback now).callbackTable after
        (note (some agent) c.space.nextCallbackHandle
          (c.watched asked callback now).space.nextCallbackHandle
          ((c.watched asked callback now).space.callbackAt
            (c.watched asked callback now).space.nextCallbackHandle) callbacks)) := by
  have hat := Component.callbackAt_watched hfiled fresh.dead asked callback now
  apply (Event.acquire (a := agent) (v := (asked.place, callback)) fresh free hproper).ends
  · exact hat
  · change note _ _ _ _ _ = _
    unfold note
    rw [Component.next_watched, hat, Function.update_self, if_neg (by simp)]
    rfl
  · change holderOf MetaTracker.callback after = _
    rw [hafter, kept_of_ne hne]
    rfl

end

end Srnp
