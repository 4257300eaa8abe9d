import Srnp.MetaHandles

/-! What trackers own. A tracker that keeps every handle it is given leaves
nothing behind, and a handle it keeps stays its own as long as the node it was
given by runs. Neither holds of every run: a registration that throws is not
given back, and the table of trackers outlives the node. -/
namespace Srnp
open Std LastWrite Transition HandleTable

structure Component.NextUnused {U : Type} (c : Component (Watcher U))
    (trackers : ExtTreeMap PairKey (MetaTracker U))
    (subscriptions : SubscriptionHandle → Option (Option Agent × SubscriptionRecord))
    (callbacks : CallbackHandle → Option (Option Agent × (Option PairKey × Watcher U))) : Prop where
  subscription_ne : c.nextSubscriptionHandle + 1 ≠ kInvalidSubscriptionHandle
  subscription : (c.subscriptionTable trackers subscriptions).Fresh (c.nextSubscriptionHandle + 1)
  callback_ne : c.space.nextCallbackHandle + 1 ≠ kInvalidCallbackHandle
  callback : (c.callbackTable trackers callbacks).Fresh (c.space.nextCallbackHandle + 1)

def Watching {U : Type} (trackers : ExtTreeMap PairKey (MetaTracker U)) : Prop :=
  ∀ (key : PairKey) (tracker : MetaTracker U), trackers[key]? = some tracker →
    tracker.metaCallback ≠ kInvalidCallbackHandle

namespace Process
variable {U : Type} (p : Process U)

def subscriptionTable : SubscriptionTable :=
  ⟨fun handle => p.kernel.node.bind (·.subscriptions[handle]?), p.subscriptionMaker,
    holderOf MetaTracker.subscription p.kernel.trackers⟩

def callbackTable : CallbackTable U :=
  ⟨fun handle => p.kernel.node.bind (·.space.callbackAt handle), p.callbackMaker,
    holderOf MetaTracker.callback p.kernel.trackers⟩

/-- No handle is given out while it is in use, and the node is not shut down while a
meta-pair is tracked. -/
def Orderly : ProcessAction U → Prop
  | .initializeNode _ => True
  | .shutdown => ∀ key : PairKey, p.kernel.trackers[key]? = none
  | .cancelMetaCallback _ => True
  | _ => ∀ c, p.kernel.node = some c →
      c.NextUnused p.kernel.trackers p.subscriptionMaker p.callbackMaker

/-- No tracker registers a subscription whose frame is too large for a session. -/
def RegistersFramed : ProcessAction U → Prop
  | .registerTracker key _ _ => p.kernel.trackers[key]? = none →
      ∀ c, p.kernel.node = some c → c.registerThrows key = false
  | .notify index _ => ∀ notice c tracker target, p.pending[index]? = some notice →
      p.kernel.node = some c → p.kernel.trackers[notice.snapshot.pairKey]? = some tracker →
      MetaTracker.parseMetaValue notice.snapshot.value = some target →
      some target ≠ tracker.target → c.sendThrows target.record true →
      ∃ handle : SubscriptionHandle, handle ≠ tracker.targetSubscription ∧
        c.subscriptions[handle]? = some target.record
  | _ => True

/-- No tracker gives up a subscription whose frame is too large for a session. -/
def ReleasesFramed : ProcessAction U → Prop
  | .notify index _ => ∀ notice c tracker, p.pending[index]? = some notice →
      p.kernel.node = some c → p.kernel.trackers[notice.snapshot.pairKey]? = some tracker →
      MetaTracker.parseMetaValue notice.snapshot.value ≠ tracker.target →
      c.releaseThrows tracker = false
  | .cancelMetaCallback key => ∀ c tracker, p.kernel.node = some c →
      p.kernel.trackers[key]? = some tracker →
      c.releaseThrows tracker = false ∧ c.cancelThrows tracker.metaSubscription = false
  | _ => True

/-- The user cancels no callback that a tracker keeps. -/
def SparesCallbacks : ProcessAction U → Prop
  | .call call _ => ∀ handle, call = .cancelCallback handle →
      ∀ agent, p.callbackTable.holder agent ≠ some handle
  | _ => True

/-- The user cancels no subscription that a tracker keeps. -/
def SparesRecords : ProcessAction U → Prop
  | .call call _ => ∀ c record, p.kernel.node = some c → c.cancels call = some record →
      ∀ handle : SubscriptionHandle, c.subscriptions[handle]? = some record →
        ∀ agent, p.subscriptionTable.holder agent ≠ some handle
  | _ => True

def permits (action : ProcessAction U) : Permits :=
  ⟨¬ p.RegistersFramed action, ¬ p.ReleasesFramed action, ¬ p.SparesRecords action⟩

def callbackPermits (action : ProcessAction U) : Permits :=
  ⟨False, False, ¬ p.SparesCallbacks action⟩

/-- What holds of every process whatever its trackers lose or leave behind. -/
structure Sane : Prop where
  filed : ∀ c, p.kernel.node = some c → c.space.Filed
  zero : ∀ c, p.kernel.node = some c → c.subscriptions[kInvalidSubscriptionHandle]? = none
  idle : p.kernel.node = none → ∀ key : PairKey, p.kernel.trackers[key]? = none
  watching : Watching p.kernel.trackers
  subscriptions : Sound anyRecord p.subscriptionTable
  callbacks : Sound ProperCallback p.callbackTable

end Process

structure Component.Changes {U : Type} (permits callbackPermits : Permits) (maker : Option Agent)
    (c : Component (Watcher U)) (trackers : ExtTreeMap PairKey (MetaTracker U))
    (d : Component (Watcher U)) (after : ExtTreeMap PairKey (MetaTracker U))
    (subscriptions : SubscriptionHandle → Option (Option Agent × SubscriptionRecord))
    (callbacks : CallbackHandle → Option (Option Agent × (Option PairKey × Watcher U))) : Prop where
  subscriptions : Events anyRecord permits (c.subscriptionTable trackers subscriptions)
    (d.subscriptionTable after (note maker c.nextSubscriptionHandle d.nextSubscriptionHandle
      d.subscriptions[d.nextSubscriptionHandle]? subscriptions))
  callbacks : Events ProperCallback callbackPermits (c.callbackTable trackers callbacks)
    (d.callbackTable after (note maker c.space.nextCallbackHandle d.space.nextCallbackHandle
      (d.space.callbackAt d.space.nextCallbackHandle) callbacks))
  filed : d.space.Filed
  zero : d.subscriptions[kInvalidSubscriptionHandle]? = none
  watching : Watching after

theorem Watching.insert {U : Type} {trackers : ExtTreeMap PairKey (MetaTracker U)} {key : PairKey}
    {changed : MetaTracker U} (hwatching : Watching trackers)
    (hchanged : changed.metaCallback ≠ kInvalidCallbackHandle) :
    Watching (trackers.insert key changed) := by
  intro asked found hfound
  rw [ExtTreeMap.getElem?_insert] at hfound
  split at hfound
  · cases hfound
    exact hchanged
  · exact hwatching asked found hfound

theorem note_of_eq {ρ : Type} {maker : Option Agent} {before after : UInt64} {named : Option ρ}
    {table : UInt64 → Option (Option Agent × ρ)} (h : after = before) :
    note maker before after named table = table :=
  if_pos h

namespace Component
variable {U : Type} {permits callbackPermits : Permits} {maker : Option Agent}
  {c d e : Component (Watcher U)} {trackers middle after : ExtTreeMap PairKey (MetaTracker U)}
  {subscriptions : SubscriptionHandle → Option (Option Agent × SubscriptionRecord)}
  {callbacks : CallbackHandle → Option (Option Agent × (Option PairKey × Watcher U))}
  {key : PairKey} {tracker changed : MetaTracker U}

theorem Changes.trans (hsame : SameNode c e)
    (first : c.Changes permits callbackPermits maker trackers e middle subscriptions callbacks)
    (second : e.Changes permits callbackPermits maker middle d after subscriptions callbacks) :
    c.Changes permits callbackPermits maker trackers d after subscriptions callbacks := by
  obtain ⟨hsubscriptions, hcallbacks, hfiled, hzero, hwatching⟩ := second
  have hfirst := first.subscriptions
  have hsecond := first.callbacks
  rw [note_of_eq hsame.nextSubscriptionHandle] at hfirst
  rw [note_of_eq hsame.nextCallbackHandle] at hsecond
  rw [hsame.nextSubscriptionHandle] at hsubscriptions
  rw [hsame.nextCallbackHandle] at hcallbacks
  exact ⟨hfirst.trans hsubscriptions, hsecond.trans hcallbacks, hfiled, hzero, hwatching⟩

theorem zero_cancel (hzero : c.subscriptions[kInvalidSubscriptionHandle]? = none)
    (handle : SubscriptionHandle) :
    (c.cancelSubscriptionHandle handle).component.subscriptions[kInvalidSubscriptionHandle]? =
      none := by
  have h := congrFun (c.subscriptions_cancelSubscriptionHandle handle) kInvalidSubscriptionHandle
  rw [Function.update_apply] at h
  rw [h]
  split
  · rfl
  · exact hzero

theorem zero_released (hzero : c.subscriptions[kInvalidSubscriptionHandle]? = none)
    (tracker : MetaTracker U) :
    (c.released tracker).subscriptions[kInvalidSubscriptionHandle]? = none := by
  have h := congrFun (c.subscriptions_released tracker) kInvalidSubscriptionHandle
  rw [h]
  split
  · exact hzero
  · rw [Function.update_apply]
    split
    · rfl
    · exact hzero

theorem zero_recorded (hzero : c.subscriptions[kInvalidSubscriptionHandle]? = none)
    (hne : c.nextSubscriptionHandle + 1 ≠ kInvalidSubscriptionHandle)
    (hfresh : c.subscriptions[c.nextSubscriptionHandle + 1]? = none) (asked : PairKey) :
    (c.recorded asked).subscriptions[kInvalidSubscriptionHandle]? = none := by
  cases h : c.subscribed asked.record with
  | true =>
    rw [recorded_of_subscribed h]
    exact hzero
  | false =>
    have hfind := congrFun (subscriptions_recorded h hfresh) kInvalidSubscriptionHandle
    rw [Function.update_of_ne (Ne.symm hne)] at hfind
    exact hfind.trans hzero

theorem Changes.same (hfiled : c.space.Filed)
    (hzero : c.subscriptions[kInvalidSubscriptionHandle]? = none) (hwatching : Watching after)
    (hsubscription : holderOf MetaTracker.subscription after =
      holderOf MetaTracker.subscription trackers)
    (hcallback : holderOf MetaTracker.callback after = holderOf MetaTracker.callback trackers) :
    c.Changes permits callbackPermits maker trackers c after subscriptions callbacks := by
  refine ⟨?_, ?_, hfiled, hzero, hwatching⟩
  · rw [note_of_eq rfl]
    exact .same rfl rfl hsubscription
  · rw [note_of_eq rfl]
    exact .same rfl rfl hcallback

section
variable (htracked : trackers[key]? = some tracker) (hfiled : c.space.Filed)
  (hzero : c.subscriptions[kInvalidSubscriptionHandle]? = none)
  (hwatching : Watching trackers)
include htracked hfiled hzero hwatching

theorem Changes.release :
    c.Changes permits callbackPermits maker trackers (c.released tracker)
      (trackers.insert key tracker.withoutTarget) subscriptions callbacks := by
  have hsame : SameNode c (c.released tracker) := .released tracker
  constructor
  · rw [note_of_eq hsame.nextSubscriptionHandle]
    exact release_subscription htracked
  · rw [note_of_eq hsame.nextCallbackHandle]
    exact release_callback htracked hfiled rfl rfl
  · exact filed_released tracker hfiled
  · exact zero_released hzero tracker
  · exact hwatching.insert (hwatching key tracker htracked)

theorem Changes.lose (hthrows : c.releaseThrows tracker) (hlose : permits.lose) :
    c.Changes permits callbackPermits maker trackers (c.released tracker)
      (trackers.insert key { tracker with targetCallback := kInvalidCallbackHandle })
      subscriptions callbacks := by
  have hsame : SameNode c (c.released tracker) := .released tracker
  constructor
  · rw [note_of_eq hsame.nextSubscriptionHandle]
    exact lose_subscription htracked hthrows hlose
  · rw [note_of_eq hsame.nextCallbackHandle]
    exact release_callback htracked hfiled rfl rfl
  · exact filed_released tracker hfiled
  · exact zero_released hzero tracker
  · exact hwatching.insert (hwatching key tracker htracked)

end

section
variable {asked : PairKey} {agent : Agent} (hfiled : c.space.Filed)
  (hzero : c.subscriptions[kInvalidSubscriptionHandle]? = none)
  (hunused : NextUnused c trackers subscriptions callbacks) (hwatching : Watching after)
include hfiled hzero hunused hwatching

theorem Changes.record
    (hfree : holderOf MetaTracker.subscription trackers agent = none)
    (hafter : holderOf MetaTracker.subscription after =
      Function.update (holderOf MetaTracker.subscription trackers) agent
        (kept (c.subscriptionHandle asked)))
    (hsame : holderOf MetaTracker.callback after = holderOf MetaTracker.callback trackers) :
    c.Changes permits callbackPermits (some agent) trackers (c.recorded asked) after subscriptions
      callbacks := by
  have hspace : (c.recorded asked).space = c.space := space_recorded asked
  constructor
  · exact take_subscription hfree hunused.subscription_ne hunused.subscription hafter
  · rw [note_of_eq (congrArg PairSpace.nextCallbackHandle hspace)]
    exact .same (congrArg PairSpace.callbackAt hspace) rfl hsame
  · rw [hspace]
    exact hfiled
  · exact zero_recorded hzero hunused.subscription_ne hunused.subscription.dead asked
  · exact hwatching

theorem Changes.leak (hthrows : c.registerThrows asked) (hleak : permits.leak)
    (hsubscription : holderOf MetaTracker.subscription after =
      holderOf MetaTracker.subscription trackers)
    (hcallback : holderOf MetaTracker.callback after = holderOf MetaTracker.callback trackers) :
    c.Changes permits callbackPermits (some agent) trackers (c.recorded asked) after subscriptions
      callbacks := by
  have hspace : (c.recorded asked).space = c.space := space_recorded asked
  constructor
  · exact leak_subscription hthrows hleak agent hunused.subscription hsubscription
  · rw [note_of_eq (congrArg PairSpace.nextCallbackHandle hspace)]
    exact .same (congrArg PairSpace.callbackAt hspace) rfl hcallback
  · rw [hspace]
    exact hfiled
  · exact zero_recorded hzero hunused.subscription_ne hunused.subscription.dead asked
  · exact hwatching

theorem Changes.take {callback : Watcher U} {now : TimePoint}
    (hproper : ProperCallback agent (asked.place, callback))
    (hfree : holderOf MetaTracker.subscription trackers agent = none)
    (hfree' : holderOf MetaTracker.callback trackers agent = none)
    (hsubscription : holderOf MetaTracker.subscription after =
      Function.update (holderOf MetaTracker.subscription trackers) agent
        (kept (c.subscriptionHandle asked)))
    (hcallback : holderOf MetaTracker.callback after =
      Function.update (holderOf MetaTracker.callback trackers) agent
        (kept (c.space.nextCallbackHandle + 1))) :
    c.Changes permits callbackPermits (some agent) trackers
      ((c.recorded asked).watched asked callback now) after subscriptions callbacks := by
  have hspace : (c.recorded asked).space = c.space := space_recorded asked
  obtain ⟨hrecords, hnext⟩ := (c.recorded asked).subscriptions_watched asked callback now
  constructor
  · have htaken : Events anyRecord permits _ _ :=
      take_subscription hfree hunused.subscription_ne hunused.subscription hsubscription
    rw [← hrecords, ← hnext] at htaken
    have hlive : ((c.recorded asked).watched asked callback now).subscriptionTable after =
        (c.recorded asked).subscriptionTable after := by
      funext issued
      simp only [subscriptionTable, hrecords]
    rw [hlive]
    exact htaken
  · have hfiled' : (c.recorded asked).space.Filed := by
      rw [hspace]
      exact hfiled
    have hunchanged : (c.recorded asked).callbackTable trackers callbacks =
        c.callbackTable trackers callbacks := by
      simp only [callbackTable, hspace]
    rw [← hunchanged, ← congrArg PairSpace.nextCallbackHandle hspace]
    refine take_callback hproper hfiled' hfree' ?_ ?_ ?_
    · rw [hspace]
      exact hunused.callback_ne
    · rw [hunchanged, hspace]
      exact hunused.callback
    · rw [hspace]
      exact hcallback
  · apply filed_watched
    · rw [hspace]
      exact hfiled
    · rw [hspace]
      exact hunused.callback.dead
  · rw [hrecords]
    exact zero_recorded hzero hunused.subscription_ne hunused.subscription.dead asked
  · exact hwatching

end

theorem NextUnused.release (hunused : NextUnused c trackers subscriptions callbacks)
    (htracked : trackers[key]? = some tracker) (hfiled : c.space.Filed) :
    NextUnused (c.released tracker) (trackers.insert key tracker.withoutTarget) subscriptions
      callbacks := by
  have hsame : SameNode c (c.released tracker) := .released tracker
  have hgone : ∀ (read : MetaTracker U → Slot → UInt64)
      (_ : ∀ slot, read tracker.withoutTarget slot = 0 ∨
        read tracker.withoutTarget slot = read tracker slot) (agent : Agent),
      holderOf read (trackers.insert key tracker.withoutTarget) agent = none ∨
        holderOf read (trackers.insert key tracker.withoutTarget) agent =
          holderOf read trackers agent := by
    intro read hread agent
    obtain ⟨other, slot⟩ := agent
    rw [holderOf_insert]
    split
    · rename_i heq
      cases heq
      rw [holderOf_of_tracked htracked]
      rcases hread slot with hzero | hsame
      · left
        rw [hzero]
        rfl
      · right
        rw [hsame]
    · exact Or.inr rfl
  constructor
  · rw [hsame.nextSubscriptionHandle]
    exact hunused.subscription_ne
  · rw [hsame.nextSubscriptionHandle]
    refine hunused.subscription.mono ?_ (hgone MetaTracker.subscription ?_)
    · intro other
      have hlive := congrFun (c.subscriptions_released tracker) other
      change (c.released tracker).subscriptions[other]? = none ∨
        (c.released tracker).subscriptions[other]? = c.subscriptions[other]?
      rw [hlive]
      split
      · exact Or.inr rfl
      · rw [Function.update_apply]
        split
        · exact Or.inl rfl
        · exact Or.inr rfl
    · intro slot
      cases slot with
      | metaPair => exact Or.inr rfl
      | target => exact Or.inl rfl
  · rw [hsame.nextCallbackHandle]
    exact hunused.callback_ne
  · rw [hsame.nextCallbackHandle]
    refine hunused.callback.mono ?_ (hgone MetaTracker.callback ?_)
    · intro other
      change (c.released tracker).space.callbackAt other = none ∨
        (c.released tracker).space.callbackAt other = c.space.callbackAt other
      rw [space_released]
      split
      · exact Or.inr rfl
      · rw [hfiled.callbackAt_removeCallback, Function.update_apply]
        split
        · exact Or.inl rfl
        · exact Or.inr rfl
    · intro slot
      cases slot with
      | metaPair => exact Or.inr rfl
      | target => exact Or.inl rfl

section
variable (htracked : trackers[key]? = some tracker) (hfiled : c.space.Filed)
  (hzero : c.subscriptions[kInvalidSubscriptionHandle]? = none)
  (hunused : NextUnused c trackers subscriptions callbacks) (hwatching : Watching trackers)
include htracked hfiled hzero hunused hwatching

theorem Changes.acquireTarget (target : PairKey) (now : TimePoint)
    (hsubscription : tracker.targetSubscription = kInvalidSubscriptionHandle)
    (hcallback : tracker.targetCallback = kInvalidCallbackHandle)
    (hleak : c.registerThrows target → permits.leak) :
    ∃ d changed, stateOf (Held.acquireTarget target now ⟨some c, tracker⟩) = ⟨some d, changed⟩ ∧
      c.Changes permits callbackPermits (some ⟨key, .target⟩) trackers d
        (trackers.insert key changed) subscriptions callbacks := by
  have hnode := Held.acquireTarget_node c tracker target now
  have hold : ∀ slot, holderOf MetaTracker.subscription trackers ⟨key, slot⟩ =
      kept (tracker.subscription slot) := holderOf_of_tracked htracked
  have hold' : ∀ slot, holderOf MetaTracker.callback trackers ⟨key, slot⟩ =
      kept (tracker.callback slot) := holderOf_of_tracked htracked
  have hmeta := hwatching key tracker htracked
  by_cases hthrows : c.registerThrows target
  · rw [if_pos hthrows] at hnode
    refine ⟨_, _, congrArg stateOf hnode, ?_⟩
    exact .leak hfiled hzero hunused (hwatching.insert hmeta) hthrows (hleak hthrows)
      (holderOf_same htracked rfl) (holderOf_same htracked rfl)
  · rw [if_neg hthrows] at hnode
    have hfree : holderOf MetaTracker.subscription trackers ⟨key, .target⟩ = none := by
      rw [hold]
      exact if_pos hsubscription
    have hfree' : holderOf MetaTracker.callback trackers ⟨key, .target⟩ = none := by
      rw [hold']
      exact if_pos hcallback
    cases hfn : tracker.fn with
    | none =>
      rw [hfn] at hnode
      refine ⟨_, _, congrArg stateOf hnode, ?_⟩
      refine .record hfiled hzero hunused (hwatching.insert hmeta) hfree ?_
        (holderOf_same htracked rfl)
      apply holderOf_change hold
      funext slot
      cases slot <;> rfl
    | some fn =>
      rw [hfn] at hnode
      refine ⟨_, _, congrArg stateOf hnode, ?_⟩
      refine .take hfiled hzero hunused (hwatching.insert ?_) ?_ hfree hfree' ?_ ?_
      · exact hmeta
      · intro hslot
        contradiction
      · apply holderOf_change hold
        funext slot
        cases slot <;> rfl
      · apply holderOf_change hold'
        funext slot
        cases slot with
        | metaPair => rfl
        | target =>
          have hnext := (c.recorded target).next_watched target (.user fn) now
          rw [space_recorded] at hnext
          exact hnext

theorem Changes.repoint (value : Bytes) (now : TimePoint)
    (hlose : MetaTracker.parseMetaValue value ≠ tracker.target → c.releaseThrows tracker →
      permits.lose)
    (hleak : ∀ target, MetaTracker.parseMetaValue value = some target →
      some target ≠ tracker.target → (c.released tracker).registerThrows target → permits.leak) :
    ∃ d changed, stateOf (Held.repoint value now ⟨some c, tracker⟩) = ⟨some d, changed⟩ ∧
      c.Changes permits callbackPermits (some ⟨key, .target⟩) trackers d
        (trackers.insert key changed) subscriptions callbacks := by
  have hmeta := hwatching key tracker htracked
  by_cases hchange : MetaTracker.parseMetaValue value = tracker.target
  · refine ⟨c, tracker, congrArg stateOf (Held.repoint_same now hchange), ?_⟩
    exact .same hfiled hzero (hwatching.insert hmeta) (holderOf_same htracked rfl)
      (holderOf_same htracked rfl)
  · have hnode := Held.repoint_node c tracker now hchange
    by_cases hthrows : c.releaseThrows tracker
    · rw [if_pos hthrows] at hnode
      exact ⟨_, _, congrArg stateOf hnode,
        .lose htracked hfiled hzero hwatching hthrows (hlose hchange hthrows)⟩
    · rw [if_neg hthrows] at hnode
      cases hparse : MetaTracker.parseMetaValue value with
      | none =>
        rw [hparse] at hnode
        exact ⟨_, _, congrArg stateOf hnode, .release htracked hfiled hzero hwatching⟩
      | some target =>
        rw [hparse] at hnode hchange
        have hreleased : c.Changes permits callbackPermits (some ⟨key, .target⟩) trackers
            (c.released tracker) (trackers.insert key tracker.withoutTarget) subscriptions
            callbacks := .release htracked hfiled hzero hwatching
        obtain ⟨d, changed, hacquire, hchanges⟩ := Changes.acquireTarget
          ExtTreeMap.getElem?_insert_self hreleased.filed hreleased.zero
          (hunused.release htracked hfiled) hreleased.watching target now rfl rfl
          (hleak target hparse hchange)
        rw [insert_insert] at hchanges
        exact ⟨d, changed, by rwa [hnode], hreleased.trans (.released tracker) hchanges⟩

end

theorem Changes.tracks {fn : Option U} {now : TimePoint}
    (h : c.Tracks trackers key fn now d after) (hfiled : c.space.Filed)
    (hzero : c.subscriptions[kInvalidSubscriptionHandle]? = none)
    (hunused : NextUnused c trackers subscriptions callbacks) (hwatching : Watching trackers)
    (hleak : trackers[key]? = none → c.registerThrows key → permits.leak) :
    c.Changes permits callbackPermits (some ⟨key, .metaPair⟩) trackers d after subscriptions
      callbacks := by
  cases h with
  | @renewed tracker htracked =>
    exact .same hfiled hzero (hwatching.insert (hwatching key tracker htracked))
      (holderOf_same htracked rfl) (holderOf_same htracked rfl)
  | cutShort huntracked hthrows =>
    exact .leak hfiled hzero hunused hwatching hthrows (hleak huntracked hthrows) rfl rfl
  | added huntracked _ =>
    have hblank : ∀ slot, holderOf MetaTracker.subscription trackers ⟨key, slot⟩ =
        kept (MetaTracker.subscription ({ fn } : MetaTracker U) slot) := by
      intro slot
      rw [holderOf_of_untracked huntracked]
      cases slot <;> rfl
    have hblank' : ∀ slot, holderOf MetaTracker.callback trackers ⟨key, slot⟩ =
        kept (MetaTracker.callback ({ fn } : MetaTracker U) slot) := by
      intro slot
      rw [holderOf_of_untracked huntracked]
      cases slot <;> rfl
    have hnext := (c.recorded key).next_watched key .onMetaPairChanged now
    rw [space_recorded] at hnext
    refine .take hfiled hzero hunused (hwatching.insert ?_) (fun _ => rfl)
      (holderOf_of_untracked huntracked _) (holderOf_of_untracked huntracked _) ?_ ?_
    · change ((c.recorded key).watched key .onMetaPairChanged now).space.nextCallbackHandle ≠ _
      rw [hnext]
      exact hunused.callback_ne
    · apply holderOf_change hblank
      funext slot
      cases slot <;> rfl
    · apply holderOf_change hblank'
      funext slot
      cases slot with
      | metaPair => exact hnext
      | target => rfl

theorem cancelThrows_released (tracker : MetaTracker U) {handle : SubscriptionHandle}
    (h : (c.released tracker).cancelThrows handle) : c.cancelThrows handle := by
  have hsame : SameNode c (c.released tracker) := .released tracker
  have hlive := congrFun (c.subscriptions_released tracker) handle
  unfold cancelThrows at h ⊢
  cases hrecord : (c.released tracker).subscriptions[handle]? with
  | none =>
    rw [hrecord] at h
    contradiction
  | some record =>
    have hbefore : c.subscriptions[handle]? = some record := by
      rw [hrecord] at hlive
      split at hlive
      · exact hlive.symm
      · exact live_of_update hlive.symm
    rw [hrecord] at h
    rw [hbefore]
    simp only [Option.any_some] at h ⊢
    rw [hsame.sendThrows] at h
    exact h

section
variable (htracked : trackers[key]? = some tracker) (hfiled : c.space.Filed)
  (hzero : c.subscriptions[kInvalidSubscriptionHandle]? = none) (hwatching : Watching trackers)
include htracked hfiled hzero hwatching

theorem Changes.loseMeta (hthrows : c.cancelThrows tracker.metaSubscription)
    (hlose : permits.lose) :
    c.Changes permits callbackPermits maker trackers
      (c.cancelSubscriptionHandle tracker.metaSubscription).component trackers subscriptions
      callbacks := by
  have hsame : SameNode c (c.cancelSubscriptionHandle tracker.metaSubscription).component :=
    .cancelSubscriptionHandle _
  have hspace := c.space_cancelSubscriptionHandle tracker.metaSubscription
  have hne : tracker.metaSubscription ≠ 0 := by
    intro hnone
    unfold cancelThrows at hthrows
    rw [hnone] at hthrows
    change Option.any _ c.subscriptions[kInvalidSubscriptionHandle]? = true at hthrows
    rw [hzero] at hthrows
    contradiction
  have held : (c.subscriptionTable trackers subscriptions).holder ⟨key, .metaPair⟩ =
      some tracker.metaSubscription :=
    (holderOf_of_tracked htracked .metaPair).trans (kept_of_ne hne)
  refine ⟨?_, ?_, ?_, zero_cancel hzero _, hwatching⟩
  · rw [note_of_eq hsame.nextSubscriptionHandle]
    exact (Event.lose hlose held).ends (c.subscriptions_cancelSubscriptionHandle _) rfl rfl
  · rw [note_of_eq hsame.nextCallbackHandle]
    exact .same (congrArg PairSpace.callbackAt hspace) rfl rfl
  · rw [hspace]
    exact hfiled

theorem Changes.forget (hsubscription : tracker.targetSubscription = kInvalidSubscriptionHandle)
    (hcallback : tracker.targetCallback = kInvalidCallbackHandle) :
    c.Changes permits callbackPermits maker trackers
      ((c.cancelSubscriptionHandle tracker.metaSubscription).component.cancelCallback
        tracker.metaCallback).component (trackers.erase key) subscriptions callbacks := by
  have hsame : SameNode c ((c.cancelSubscriptionHandle tracker.metaSubscription).component.cancelCallback
      tracker.metaCallback).component :=
    (SameNode.cancelSubscriptionHandle _).trans (.cancelCallback _)
  have hspace : ((c.cancelSubscriptionHandle tracker.metaSubscription).component.cancelCallback
      tracker.metaCallback).component.space = c.space.removeCallback tracker.metaCallback :=
    congrArg (·.removeCallback tracker.metaCallback)
      (c.space_cancelSubscriptionHandle tracker.metaSubscription)
  have hforgotten : ∀ (read : MetaTracker U → Slot → UInt64), read tracker .target = 0 →
      holderOf read (trackers.erase key) =
        Function.update (holderOf read trackers) ⟨key, .metaPair⟩ none := by
    intro read hread
    funext agent
    obtain ⟨other, slot⟩ := agent
    rw [holderOf_erase]
    by_cases heq : other = key
    · subst heq
      rw [if_pos rfl]
      cases slot with
      | metaPair => rw [Function.update_self]
      | target =>
        rw [Function.update_of_ne (by simp), holderOf_of_tracked htracked, hread]
        rfl
    · rw [if_neg heq, Function.update_of_ne (by simp [heq])]
  refine ⟨?_, ?_, ?_, zero_cancel hzero _, ?_⟩
  · rw [note_of_eq hsame.nextSubscriptionHandle]
    by_cases hne : tracker.metaSubscription = kInvalidSubscriptionHandle
    · apply Events.same
      · refine (c.subscriptions_cancelSubscriptionHandle tracker.metaSubscription).trans ?_
        rw [hne, ← hzero]
        exact Function.update_eq_self _ _
      · rfl
      · refine (hforgotten MetaTracker.subscription hsubscription).trans ?_
        have hfree : holderOf MetaTracker.subscription trackers ⟨key, .metaPair⟩ = none :=
          (holderOf_of_tracked htracked .metaPair).trans (if_pos hne)
        rw [← hfree]
        exact Function.update_eq_self _ _
    · have held : (c.subscriptionTable trackers subscriptions).holder ⟨key, .metaPair⟩ =
          some tracker.metaSubscription :=
        (holderOf_of_tracked htracked .metaPair).trans (kept_of_ne hne)
      exact (Event.release held).ends (c.subscriptions_cancelSubscriptionHandle _) rfl
        (hforgotten MetaTracker.subscription hsubscription)
  · rw [note_of_eq hsame.nextCallbackHandle]
    have held : (c.callbackTable trackers callbacks).holder ⟨key, .metaPair⟩ =
        some tracker.metaCallback :=
      (holderOf_of_tracked htracked .metaPair).trans (kept_of_ne (hwatching key tracker htracked))
    exact (Event.release held).ends
      ((congrArg PairSpace.callbackAt hspace).trans (hfiled.callbackAt_removeCallback _)) rfl
      (hforgotten MetaTracker.callback hcallback)
  · rw [hspace]
    exact hfiled.removeCallback _
  · intro asked found hfound
    rw [ExtTreeMap.getElem?_erase] at hfound
    split at hfound
    · contradiction
    · exact hwatching asked found hfound

end

theorem Changes.untracks (h : c.Untracks trackers key d after) (hfiled : c.space.Filed)
    (hzero : c.subscriptions[kInvalidSubscriptionHandle]? = none) (hwatching : Watching trackers)
    (hlose : ∀ tracker, trackers[key]? = some tracker →
      c.releaseThrows tracker ∨ c.cancelThrows tracker.metaSubscription → permits.lose) :
    c.Changes permits callbackPermits maker trackers d after subscriptions callbacks := by
  have hreleased : ∀ tracker, trackers[key]? = some tracker →
      c.Changes permits callbackPermits maker trackers (c.released tracker)
        (trackers.insert key tracker.withoutTarget) subscriptions callbacks :=
    fun _ htracked => .release htracked hfiled hzero hwatching
  have hinserted : ∀ tracker : MetaTracker U,
      (trackers.insert key tracker.withoutTarget)[key]? = some tracker.withoutTarget :=
    fun _ => ExtTreeMap.getElem?_insert_self
  cases h with
  | untracked => exact .same hfiled hzero hwatching rfl rfl
  | @keepsTarget tracker htracked hthrows =>
    exact .lose htracked hfiled hzero hwatching hthrows (hlose tracker htracked (Or.inl hthrows))
  | @keepsMeta tracker htracked _ hthrows =>
    have hlost : permits.lose :=
      hlose tracker htracked (Or.inr (cancelThrows_released tracker hthrows))
    have hbefore := hreleased tracker htracked
    refine hbefore.trans (.released tracker) ?_
    change Changes _ _ _ _ _ ((c.released tracker).cancelSubscriptionHandle
      tracker.withoutTarget.metaSubscription).component _ _ _
    exact .loseMeta (hinserted tracker) hbefore.filed hbefore.zero hbefore.watching hthrows hlost
  | @forgotten tracker htracked =>
    have hbefore := hreleased tracker htracked
    refine hbefore.trans (.released tracker) ?_
    rw [← erase_insert trackers key tracker.withoutTarget]
    change Changes _ _ _ _ _ (((c.released tracker).cancelSubscriptionHandle
      tracker.withoutTarget.metaSubscription).component.cancelCallback
        tracker.withoutTarget.metaCallback).component _ _ _
    exact .forget (hinserted tracker) hbefore.filed hbefore.zero hbefore.watching rfl rfl

/-! ### The calls of the user -/

theorem cancelSubscription_absent {owner : OwnerId} {key : Bytes} (h : ¬ c.Live ⟨owner, key⟩) :
    (c.cancelSubscription owner key).component = c := by
  unfold cancelSubscription
  split
  · rfl
  · rename_i handle record hfound
    have hrecord : record = ⟨owner, key⟩ := by
      simpa using List.find?_some hfound
    have hmem := List.mem_of_find?_eq_some hfound
    rw [hrecord] at hmem
    exact absurd ⟨handle, ExtTreeMap.mem_toList_iff_getElem?_eq_some.mp hmem⟩ h

theorem cancels_handle {call : Call (Watcher U)} {record : SubscriptionRecord}
    (h : c.cancels call = some record) (now : TimePoint) :
    ∃ handle : SubscriptionHandle, c.subscriptions[handle]? = some record ∧
      (c.enter call now).component = { c with subscriptions := c.subscriptions.erase handle } := by
  cases call with
  | cancelSubscription owner key =>
    simp only [cancels] at h
    split at h
    · rename_i hsubscribed
      cases h
      exact cancelSubscription_component (subscribed_iff.mp hsubscribed)
    · contradiction
  | cancelSubscriptionHandle handle => exact ⟨handle, h, cancelSubscriptionHandle_component h⟩
  | _ => contradiction

theorem cancels_none {call : Call (Watcher U)} (h : c.cancels call = none)
    (hregister : ∀ owner key, call ≠ .registerSubscription owner key) (now : TimePoint) :
    (c.enter call now).component.subscriptions = c.subscriptions ∧
      (c.enter call now).component.nextSubscriptionHandle = c.nextSubscriptionHandle := by
  cases call with
  | cancelSubscription owner key =>
    have hnone : ¬ c.Live ⟨owner, key⟩ := by
      rw [← subscribed_iff]
      intro hsubscribed
      simp [cancels, hsubscribed] at h
    simp only [enter, cancelSubscription_absent hnone, and_self]
  | cancelSubscriptionHandle handle =>
    change c.subscriptions[handle]? = none at h
    simp [enter, cancelSubscriptionHandle, h, idle]
  | _ => exact enter_subscriptions hregister (by simp) (by simp) now

theorem Changes.call_subscriptions {call : Call (Watcher U)} (now : TimePoint)
    (hunused : NextUnused c trackers subscriptions callbacks)
    (hspared : permits.remove ∨ ∀ record, c.cancels call = some record →
      ∀ handle : SubscriptionHandle, c.subscriptions[handle]? = some record →
        ∀ agent, holderOf MetaTracker.subscription trackers agent ≠ some handle) :
    Events anyRecord permits (c.subscriptionTable trackers subscriptions)
      ((c.enter call now).component.subscriptionTable trackers
        (note none c.nextSubscriptionHandle (c.enter call now).component.nextSubscriptionHandle
          (c.enter call now).component.subscriptions[
            (c.enter call now).component.nextSubscriptionHandle]? subscriptions)) := by
  cases hcancels : c.cancels call with
  | some record =>
    obtain ⟨handle, hfind, hafter⟩ := cancels_handle hcancels now
    have hnext : (c.enter call now).component.nextSubscriptionHandle = c.nextSubscriptionHandle := by
      rw [hafter]
    have hpermitted : permits.remove ∨
        ∀ agent, (c.subscriptionTable trackers subscriptions).holder agent ≠ some handle :=
      hspared.imp id fun hspared => hspared record hcancels handle hfind
    rw [note_of_eq hnext]
    refine (Event.remove hpermitted).ends ?_ rfl rfl
    rw [hafter]
    funext other
    change (c.subscriptions.erase handle)[other]? =
      Function.update (fun other => c.subscriptions[other]?) handle none other
    rw [PairSpace.getElem?_erase_handle, Function.update_apply]
  | none =>
    by_cases hregister : ∀ owner key, call ≠ .registerSubscription owner key
    · obtain ⟨hsame, hnext⟩ := cancels_none hcancels hregister now
      rw [note_of_eq hnext]
      refine .same ?_ rfl rfl
      change (fun handle => (c.enter call now).component.subscriptions[handle]?) = _
      rw [hsame]
      rfl
    · simp only [not_forall, not_not] at hregister
      obtain ⟨owner, key, rfl⟩ := hregister
      have hcall : (c.enter (.registerSubscription owner key) now).component =
          c.recorded ⟨owner, key⟩ := rfl
      rw [hcall, note_recorded none ⟨owner, key⟩ hunused.subscription.dead]
      cases h : c.subscribed (⟨owner, key⟩ : PairKey).record with
      | true =>
        rw [recorded_of_subscribed h]
        exact .same rfl rfl rfl
      | false =>
        exact (Event.add hunused.subscription).ends
          (subscriptions_recorded h hunused.subscription.dead) rfl rfl

theorem Changes.call_callbacks {call : Call (Watcher U)} (now : TimePoint) (hfiled : c.space.Filed)
    (hunused : NextUnused c trackers subscriptions callbacks)
    (hspared : callbackPermits.remove ∨ ∀ handle, call = .cancelCallback handle →
      ∀ agent, holderOf MetaTracker.callback trackers agent ≠ some handle) :
    (c.enter call now).component.space.Filed ∧
    Events ProperCallback callbackPermits (c.callbackTable trackers callbacks)
      ((c.enter call now).component.callbackTable trackers
        (note none c.space.nextCallbackHandle
          (c.enter call now).component.space.nextCallbackHandle
          ((c.enter call now).component.space.callbackAt
            (c.enter call now).component.space.nextCallbackHandle) callbacks)) := by
  cases habout : call.aboutCallbacks with
  | false =>
    have hsame := c.sameCallbacks_enter habout now
    rw [note_of_eq hsame.nextCallbackHandle]
    exact ⟨hsame.filed hfiled, .same hsame.callbackAt rfl rfl⟩
  | true =>
    cases call with
    | registerCallback owner key callback =>
      have hat := callbackAt_watched hfiled hunused.callback.dead ⟨owner, key⟩ callback now
      have hnext := c.next_watched ⟨owner, key⟩ callback now
      have hcall : (c.enter (.registerCallback owner key callback) now).component =
          c.watched ⟨owner, key⟩ callback now := rfl
      rw [hcall]
      refine ⟨filed_watched hfiled hunused.callback.dead ⟨owner, key⟩ callback now, ?_⟩
      refine (Event.add hunused.callback).ends hat ?_ rfl
      change note none _ _ _ callbacks = _
      unfold note
      rw [hnext, hat, Function.update_self, if_neg (by simp)]
      rfl
    | cancelCallback handle =>
      have hpermitted : callbackPermits.remove ∨
          ∀ agent, (c.callbackTable trackers callbacks).holder agent ≠ some handle :=
        hspared.imp id fun hspared => hspared handle rfl
      have hnext := next_removeCallback c.space handle
      refine ⟨hfiled.removeCallback handle, ?_⟩
      refine (Event.remove hpermitted).ends (hfiled.callbackAt_removeCallback handle) ?_ rfl
      exact note_of_eq hnext
    | _ => contradiction

theorem Changes.call {call : Call (Watcher U)} (now : TimePoint) (hfiled : c.space.Filed)
    (hzero : c.subscriptions[kInvalidSubscriptionHandle]? = none)
    (hunused : NextUnused c trackers subscriptions callbacks) (hwatching : Watching trackers)
    (hsubscriptions : permits.remove ∨ ∀ record, c.cancels call = some record →
      ∀ handle : SubscriptionHandle, c.subscriptions[handle]? = some record →
        ∀ agent, holderOf MetaTracker.subscription trackers agent ≠ some handle)
    (hcallbacks : callbackPermits.remove ∨ ∀ handle, call = .cancelCallback handle →
      ∀ agent, holderOf MetaTracker.callback trackers agent ≠ some handle) :
    c.Changes permits callbackPermits none trackers (c.enter call now).component trackers
      subscriptions callbacks := by
  have htable := Changes.call_subscriptions now hunused hsubscriptions
  obtain ⟨hfiled', htable'⟩ := Changes.call_callbacks now hfiled hunused hcallbacks
  refine ⟨htable, htable', hfiled', ?_, hwatching⟩
  cases hcancels : c.cancels call with
  | some record =>
    obtain ⟨handle, _, hafter⟩ := cancels_handle hcancels now
    rw [hafter]
    change (c.subscriptions.erase handle)[kInvalidSubscriptionHandle]? = none
    rw [PairSpace.getElem?_erase_handle]
    split
    · rfl
    · exact hzero
  | none =>
    by_cases hregister : ∀ owner key, call ≠ .registerSubscription owner key
    · rw [(cancels_none hcancels hregister now).1]
      exact hzero
    · simp only [not_forall, not_not] at hregister
      obtain ⟨owner, key, rfl⟩ := hregister
      exact zero_recorded hzero hunused.subscription_ne hunused.subscription.dead ⟨owner, key⟩

end Component

namespace Process
variable {U : Type} {p : Process U} {c : Component (Watcher U)}
  {trackers : ExtTreeMap PairKey (MetaTracker U)}

theorem subscriptionTable_eq (h : p.kernel = ⟨some c, trackers⟩) :
    p.subscriptionTable = c.subscriptionTable trackers p.subscriptionMaker := by
  unfold subscriptionTable
  rw [h]
  rfl

theorem callbackTable_eq (h : p.kernel = ⟨some c, trackers⟩) :
    p.callbackTable = c.callbackTable trackers p.callbackMaker := by
  unfold callbackTable
  rw [h]
  rfl

theorem Sane.runs_iff (hsane : p.Sane) (hnode : p.kernel.node = some c) {handle : CallbackHandle}
    {named : Option PairKey × Watcher U} :
    c.space.Runs handle named ↔ p.callbackTable.live handle = some named := by
  rw [callbackTable_eq (kernel_eq hnode)]
  exact (hsane.filed c hnode).runs_iff

section
variable {after : ExtTreeMap PairKey (MetaTracker U)} {d : Component (Watcher U)}
  {maker : Option Agent}

structure SaneStep (p q : Process U) (permits callbackPermits : Permits) : Prop where
  sane : q.Sane
  subscriptions : Events anyRecord permits p.subscriptionTable q.subscriptionTable
  callbacks : Events ProperCallback callbackPermits p.callbackTable q.callbackTable

theorem Sane.refl (hsane : p.Sane) {permits callbackPermits : Permits} :
    SaneStep p p permits callbackPermits :=
  ⟨hsane, .refl, .refl⟩

theorem Sane.changes (hsane : p.Sane) (h : p.kernel = ⟨some c, trackers⟩) {q : Process U}
    {permits callbackPermits : Permits}
    (hchanges : c.Changes permits callbackPermits maker trackers d after p.subscriptionMaker
      p.callbackMaker)
    (hkernel : q.kernel = ⟨some d, after⟩)
    (hsubscriptions : q.subscriptionMaker = (p.advance maker ⟨some d, after⟩).subscriptionMaker)
    (hcallbacks : q.callbackMaker = (p.advance maker ⟨some d, after⟩).callbackMaker) :
    SaneStep p q permits callbackPermits := by
  rw [advance_eq h] at hsubscriptions hcallbacks
  have hfirst := hchanges.subscriptions
  have hsecond := hchanges.callbacks
  have hbefore := subscriptionTable_eq h
  have hbefore' := callbackTable_eq h
  have hafter := subscriptionTable_eq hkernel
  have hafter' := callbackTable_eq hkernel
  rw [hsubscriptions] at hafter
  rw [hcallbacks] at hafter'
  rw [← hbefore, ← hafter] at hfirst
  rw [← hbefore', ← hafter'] at hsecond
  refine ⟨⟨?_, ?_, ?_, ?_, hsane.subscriptions.events hfirst, hsane.callbacks.events hsecond⟩,
    hfirst, hsecond⟩
  · rw [hkernel]
    intro e he
    cases he
    exact hchanges.filed
  · rw [hkernel]
    intro e he
    cases he
    exact hchanges.zero
  · rw [hkernel]
    intro hnone
    contradiction
  · rw [hkernel]
    exact hchanges.watching

end

/-! ### The steps -/

theorem onWelcome_fresh (welcome : MasterMessage) :
    let c : Component (Watcher U) := (Component.constructed.onWelcome welcome).component
    c.space = .empty ∧ c.subscriptions = ∅ ∧
      c.nextSubscriptionHandle = kInvalidSubscriptionHandle := by
  have hfold : ∀ (components : List ComponentInfo) (c : Component (Watcher U)),
      (components.foldl (fun c info => (c.addSession info).component) c).space = c.space ∧
        (components.foldl (fun c info => (c.addSession info).component) c).subscriptions =
          c.subscriptions ∧
        (components.foldl (fun c info => (c.addSession info).component) c).nextSubscriptionHandle =
          c.nextSubscriptionHandle := by
    intro components
    induction components with
    | nil => exact fun c => ⟨rfl, rfl, rfl⟩
    | cons info rest ih => exact fun c => ih (c.addSession info).component
  exact hfold welcome.allComponents _

section
variable {q : Process U} (hsane : p.Sane)
include hsane

theorem Sane.registerTracker {key : PairKey} {fn : Option U} {now : TimePoint}
    (horderly : p.Orderly (.registerTracker key fn now))
    (hstep : p.step (.registerTracker key fn now) = some q) :
    SaneStep p q (p.permits (.registerTracker key fn now))
      (p.callbackPermits (.registerTracker key fn now)) := by
  rcases registerTracker_cases hsane.idle hstep with rfl | ⟨c, d, after, hnode, htracks, rfl⟩
  · exact hsane.refl
  · have hleak : p.kernel.trackers[key]? = none → c.registerThrows key →
        (p.permits (.registerTracker key fn now)).leak := by
      intro huntracked hthrows hframed
      rw [hframed huntracked c hnode] at hthrows
      contradiction
    exact hsane.changes (kernel_eq hnode) (.tracks htracks (hsane.filed c hnode)
      (hsane.zero c hnode) (horderly c hnode) hsane.watching hleak) (advance_kernel _ _) rfl rfl

theorem Sane.cancelMetaCallback {key : PairKey}
    (hstep : p.step (.cancelMetaCallback key) = some q) :
    SaneStep p q (p.permits (.cancelMetaCallback key))
      (p.callbackPermits (.cancelMetaCallback key)) := by
  rcases cancelMetaCallback_cases hsane.idle hstep with rfl | ⟨c, d, after, hnode, huntracks, rfl⟩
  · exact hsane.refl
  · have hlose : ∀ tracker, p.kernel.trackers[key]? = some tracker →
        c.releaseThrows tracker ∨ c.cancelThrows tracker.metaSubscription →
        (p.permits (.cancelMetaCallback key)).lose := by
      intro tracker htracked hthrows hframed
      obtain ⟨hrelease, hcancel⟩ := hframed c tracker hnode htracked
      rw [hrelease, hcancel] at hthrows
      simp at hthrows
    exact hsane.changes (kernel_eq hnode) (.untracks huntracks (hsane.filed c hnode)
      (hsane.zero c hnode) hsane.watching hlose) (advance_kernel _ _) rfl rfl

theorem Sane.call {call : Call (Watcher U)} {now : TimePoint}
    (horderly : p.Orderly (.call call now)) (hstep : p.step (.call call now) = some q) :
    SaneStep p q (p.permits (.call call now)) (p.callbackPermits (.call call now)) := by
  simp only [step] at hstep
  split at hstep
  · split at hstep
    · cases hstep
      exact hsane.refl
    · rename_i c hnode
      cases hstep
      have hkernel := kernel_eq hnode
      have hchanges : c.Changes (p.permits (.call call now)) (p.callbackPermits (.call call now))
          none p.kernel.trackers (c.enter call now).component p.kernel.trackers
          p.subscriptionMaker p.callbackMaker := by
        refine .call now (hsane.filed c hnode) (hsane.zero c hnode) (horderly c hnode)
          hsane.watching ?_ ?_
        · by_cases hspared : p.SparesRecords (.call call now)
          · exact Or.inr fun record hcancels => hspared c record hnode hcancels
          · exact Or.inl hspared
        · by_cases hspared : p.SparesCallbacks (.call call now)
          · exact Or.inr hspared
          · exact Or.inl hspared
      exact hsane.changes hkernel hchanges (by rw [advance_eq hkernel]) rfl rfl
  · contradiction

theorem Sane.notify {index : Nat} {now : TimePoint} (horderly : p.Orderly (.notify index now))
    (hstep : p.step (.notify index now) = some q) :
    SaneStep p q (p.permits (.notify index now)) (p.callbackPermits (.notify index now)) := by
  obtain ⟨notice, pending, hnotice, _, hcases⟩ := notify_cases hsane.idle hstep
  rcases hcases with ⟨_, rfl⟩ | ⟨c, tracker, held, hnode, htracked, hrepoint, _, rfl⟩
  · cases hnode : p.kernel.node with
    | none =>
      rw [advance_none hnode]
      obtain ⟨hfiled, hzero, hidle, hwatching, hsubscriptions, hcallbacks⟩ := hsane
      exact ⟨⟨hfiled, hzero, hidle, hwatching, hsubscriptions, hcallbacks⟩, .refl, .refl⟩
    | some c =>
      have hkernel := kernel_eq hnode
      refine hsane.changes hkernel (.same (hsane.filed c hnode) (hsane.zero c hnode) hsane.watching
        rfl rfl) ?_ (by rw [← hkernel]) (by rw [← hkernel])
      exact (advance_kernel _ _).trans hkernel
  · have hlose : MetaTracker.parseMetaValue notice.snapshot.value ≠ tracker.target →
        c.releaseThrows tracker → (p.permits (.notify index now)).lose := by
      intro hchange hthrows hframed
      rw [hframed notice c tracker hnotice hnode htracked hchange] at hthrows
      contradiction
    have hleak : ∀ target, MetaTracker.parseMetaValue notice.snapshot.value = some target →
        some target ≠ tracker.target → (c.released tracker).registerThrows target →
        (p.permits (.notify index now)).leak := by
      intro target hparse hchange hthrows hframed
      simp only [Component.registerThrows, Bool.and_eq_true, Bool.not_eq_true'] at hthrows
      obtain ⟨hnew, hthrows⟩ := hthrows
      rw [(Component.SameNode.released tracker).sendThrows] at hthrows
      obtain ⟨handle, hne, hfind⟩ :=
        hframed notice c tracker target hnotice hnode htracked hparse hchange hthrows
      have hlive := congrFun (c.subscriptions_released tracker) handle
      have hstill : (c.released tracker).subscriptions[handle]? = some target.record := by
        refine hlive.trans ?_
        split
        · exact hfind
        · rw [Function.update_of_ne hne]
          exact hfind
      have hsubscribed := Component.subscribed_iff.mpr ⟨handle, hstill⟩
      rw [hnew] at hsubscribed
      contradiction
    obtain ⟨d, changed, hresult, hchanges⟩ := Component.Changes.repoint htracked
      (hsane.filed c hnode) (hsane.zero c hnode) (horderly c hnode) hsane.watching
      notice.snapshot.value now hlose hleak
    cases hresult.symm.trans hrepoint
    exact hsane.changes (kernel_eq hnode) hchanges (advance_kernel _ _) rfl rfl

theorem Sane.initializeNode {welcome : MasterMessage}
    (hstep : p.step (.initializeNode welcome) = some q) :
    SaneStep p q (p.permits (.initializeNode welcome)) (p.callbackPermits (.initializeNode welcome)) := by
  simp only [step] at hstep
  cases hnode : p.kernel.node with
  | some c =>
    rw [hnode] at hstep
    cases hstep
    exact hsane.refl
  | none =>
    rw [hnode] at hstep
    cases hstep
    let fresh : Component (Watcher U) := (Component.constructed.onWelcome welcome).component
    obtain ⟨hspace, hrecords, _⟩ : fresh.space = .empty ∧ fresh.subscriptions = ∅ ∧
      fresh.nextSubscriptionHandle = kInvalidSubscriptionHandle := onWelcome_fresh welcome
    have hsubscriptions : Events anyRecord (p.permits (.initializeNode welcome)) p.subscriptionTable
        (fresh.subscriptionTable p.kernel.trackers p.subscriptionMaker) := by
      refine .same ?_ rfl rfl
      funext handle
      simp [subscriptionTable, Component.subscriptionTable, hnode, hrecords]
    have hcallbacks : Events ProperCallback (p.callbackPermits (.initializeNode welcome))
        p.callbackTable (fresh.callbackTable p.kernel.trackers p.callbackMaker) := by
      refine .same ?_ rfl rfl
      unfold Component.callbackTable
      funext handle
      simp [callbackTable, hnode, hspace, PairSpace.callbackAt, PairSpace.empty]
    refine ⟨⟨?_, ?_, ?_, hsane.watching, hsane.subscriptions.events hsubscriptions,
      hsane.callbacks.events hcallbacks⟩, hsubscriptions, hcallbacks⟩
    · intro c hc
      cases hc
      change fresh.space.Filed
      rw [hspace]
      exact .empty
    · intro c hc
      cases hc
      change fresh.subscriptions[kInvalidSubscriptionHandle]? = none
      simp [hrecords]
    · intro hnone
      contradiction

theorem Sane.shutdown (horderly : p.Orderly .shutdown) (hstep : p.step .shutdown = some q) :
    SaneStep p q (p.permits .shutdown) (p.callbackPermits .shutdown) := by
  cases hstep
  have hfree : ∀ (read : MetaTracker U → Slot → UInt64) (agent : Agent),
      holderOf read p.kernel.trackers agent = none := by
    intro read agent
    exact holderOf_of_untracked (horderly agent.key) agent.slot
  have hsubscriptions : Events anyRecord (p.permits .shutdown) p.subscriptionTable
      (⟨fun _ => none, fun _ => none, holderOf MetaTracker.subscription p.kernel.trackers⟩ :
        SubscriptionTable) :=
    .single (.reset (hfree MetaTracker.subscription))
  have hcallbacks : Events ProperCallback (p.callbackPermits .shutdown) p.callbackTable
      (⟨fun _ => none, fun _ => none, holderOf MetaTracker.callback p.kernel.trackers⟩ :
        CallbackTable U) :=
    .single (.reset (hfree MetaTracker.callback))
  exact ⟨⟨fun c hc => by contradiction, fun c hc => by contradiction, fun _ => horderly,
    hsane.watching, hsane.subscriptions.events hsubscriptions,
    hsane.callbacks.events hcallbacks⟩, hsubscriptions, hcallbacks⟩

/-- What a step of a sane process does to its two tables. -/
theorem Sane.step {action : ProcessAction U} (horderly : p.Orderly action)
    (hstep : p.step action = some q) :
    SaneStep p q (p.permits action) (p.callbackPermits action) := by
  cases action with
  | registerTracker key fn now => exact hsane.registerTracker horderly hstep
  | cancelMetaCallback key => exact hsane.cancelMetaCallback hstep
  | call call now => exact hsane.call horderly hstep
  | notify index now => exact hsane.notify horderly hstep
  | initializeNode welcome => exact hsane.initializeNode hstep
  | shutdown => exact hsane.shutdown horderly hstep

end

theorem Sane.start : (start : Process U).Sane where
  filed := fun c hc => by contradiction
  zero := fun c hc => by contradiction
  idle := by simp [Process.start]
  watching := fun key tracker htracked => by simp [Process.start] at htracked
  subscriptions := by
    refine ⟨fun _ _ hlive => by contradiction, ?_⟩
    intro agent handle hheld
    simp [Process.subscriptionTable, Process.start, holderOf] at hheld
  callbacks := by
    refine ⟨fun _ _ hlive => by contradiction, ?_⟩
    intro agent handle hheld
    simp [Process.callbackTable, Process.start, holderOf] at hheld

end Process

end Srnp
