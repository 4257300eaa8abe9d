import Srnp.MetaProcess

/-! What a step of the trackers can do. At a node each of their functions ends in
one of a few ways, by an exception or not, and with no node none of them does
anything. -/
namespace Srnp
open Std LastWrite Transition HandleTable

namespace Component
variable {U : Type}

/-- The ways in which `registerTracker` leaves the node and the trackers. -/
inductive Tracks (c : Component (Watcher U)) (trackers : ExtTreeMap PairKey (MetaTracker U))
    (key : PairKey) (fn : Option U) (now : TimePoint) :
    Component (Watcher U) → ExtTreeMap PairKey (MetaTracker U) → Prop
  /-- The tracker is there and takes the new function. -/
  | renewed {tracker : MetaTracker U} (tracked : trackers[key]? = some tracker) :
      Tracks c trackers key fn now c (trackers.insert key { tracker with fn })
  | cutShort (untracked : trackers[key]? = none) (throws : c.registerThrows key) :
      Tracks c trackers key fn now (c.recorded key) trackers
  | added (untracked : trackers[key]? = none) (returns : ¬ c.registerThrows key) :
      Tracks c trackers key fn now ((c.recorded key).watched key .onMetaPairChanged now)
        (trackers.insert key {
          fn
          metaSubscription := c.subscriptionHandle key
          metaCallback :=
            ((c.recorded key).watched key .onMetaPairChanged now).space.nextCallbackHandle })

/-- The ways in which `cancelMetaCallback` leaves the node and the trackers. -/
inductive Untracks (c : Component (Watcher U)) (trackers : ExtTreeMap PairKey (MetaTracker U))
    (key : PairKey) : Component (Watcher U) → ExtTreeMap PairKey (MetaTracker U) → Prop
  | untracked (untracked : trackers[key]? = none) : Untracks c trackers key c trackers
  | keepsTarget {tracker : MetaTracker U} (tracked : trackers[key]? = some tracker)
      (throws : c.releaseThrows tracker) :
      Untracks c trackers key (c.released tracker)
        (trackers.insert key { tracker with targetCallback := kInvalidCallbackHandle })
  | keepsMeta {tracker : MetaTracker U} (tracked : trackers[key]? = some tracker)
      (returns : ¬ c.releaseThrows tracker)
      (throws : (c.released tracker).cancelThrows tracker.metaSubscription) :
      Untracks c trackers key
        ((c.released tracker).cancelSubscriptionHandle tracker.metaSubscription).component
        (trackers.insert key tracker.withoutTarget)
  | forgotten {tracker : MetaTracker U} (tracked : trackers[key]? = some tracker)
      (returns : ¬ c.releaseThrows tracker)
      (returnsMeta : ¬ (c.released tracker).cancelThrows tracker.metaSubscription) :
      Untracks c trackers key
        (((c.released tracker).cancelSubscriptionHandle tracker.metaSubscription).component
          |>.cancelCallback tracker.metaCallback).component
        (trackers.erase key)

end Component

section
variable {β : Type} (trackers : ExtTreeMap PairKey β) (key : PairKey)

theorem insert_insert (first second : β) :
    (trackers.insert key first).insert key second = trackers.insert key second := by
  apply ExtTreeMap.ext_getElem?
  intro asked
  simp only [ExtTreeMap.getElem?_insert]
  split <;> rfl

theorem erase_insert (value : β) : (trackers.insert key value).erase key = trackers.erase key := by
  apply ExtTreeMap.ext_getElem?
  intro asked
  simp only [ExtTreeMap.getElem?_insert, ExtTreeMap.getElem?_erase]
  split <;> rfl

variable {trackers key} {asked : PairKey} {changed tracker : β}

theorem tracked_insert (h : (trackers.insert key changed)[asked]? = some tracker) :
    (asked = key ∧ tracker = changed) ∨ (asked ≠ key ∧ trackers[asked]? = some tracker) := by
  rw [ExtTreeMap.getElem?_insert] at h
  split at h
  · rename_i heq
    cases h
    exact Or.inl ⟨(LawfulEqOrd.eq_of_compare heq).symm, rfl⟩
  · rename_i hne
    refine Or.inr ⟨?_, h⟩
    rintro rfl
    exact hne ReflOrd.compare_self

theorem tracked_erase (h : (trackers.erase key)[asked]? = some tracker) :
    asked ≠ key ∧ trackers[asked]? = some tracker := by
  rw [ExtTreeMap.getElem?_erase] at h
  split at h
  · contradiction
  · rename_i hne
    refine ⟨?_, h⟩
    rintro rfl
    exact hne ReflOrd.compare_self

end

/-! ### The functions -/

namespace Kernel
variable {U : Type} {kernel : Kernel U} {c : Component (Watcher U)} {key : PairKey}

theorem get_run : (get : KernelM U (Kernel U)) kernel = .ok kernel kernel := rfl

theorem registerTracker_none (hnode : kernel.node = none)
    (huntracked : kernel.trackers[key]? = none) (fn : Option U) (now : TimePoint) :
    registerTracker key fn now kernel = .error () kernel := by
  unfold registerTracker
  rw [huntracked]
  have hthrew : Held.acquireMeta key now ⟨kernel.node, { fn }⟩ =
      .error () ⟨kernel.node, { fn }⟩ := by
    rw [hnode]
    rfl
  dsimp only
  rw [hthrew]

theorem registerTracker_outcome (hnode : kernel.node = some c) (key : PairKey) (fn : Option U)
    (now : TimePoint) :
    ∃ d after, stateOf (registerTracker key fn now kernel) = ⟨some d, after⟩ ∧
      c.Tracks kernel.trackers key fn now d after := by
  cases htracked : kernel.trackers[key]? with
  | some tracker =>
    refine ⟨_, _, ?_, .renewed htracked⟩
    simp only [registerTracker, htracked, stateOf, hnode]
  | none =>
    have hacquire := Held.acquireMeta_node c { fn } key now
    by_cases hthrows : c.registerThrows key
    · rw [if_pos hthrows] at hacquire
      refine ⟨_, _, ?_, .cutShort htracked hthrows⟩
      simp only [registerTracker, htracked, hnode, hacquire, stateOf]
    · rw [if_neg hthrows] at hacquire
      refine ⟨_, _, ?_, .added htracked hthrows⟩
      simp only [registerTracker, htracked, hnode, hacquire, stateOf]

theorem cancelMetaCallback_untracked (huntracked : kernel.trackers[key]? = none) :
    cancelMetaCallback key kernel = .ok () kernel := by
  simp only [cancelMetaCallback, bind, EStateM.bind, get_run, huntracked]
  rfl

theorem cancelMetaCallback_tracked {tracker : MetaTracker U}
    (htracked : kernel.trackers[key]? = some tracker) :
    cancelMetaCallback key kernel =
      match Held.releaseAll ⟨kernel.node, tracker⟩ with
      | .ok _ held => .ok () ⟨held.node, (kernel.trackers.insert key held.tracker).erase key⟩
      | .error _ held => .error () ⟨held.node, kernel.trackers.insert key held.tracker⟩ := by
  simp only [cancelMetaCallback, bind, EStateM.bind, get_run, htracked, onTracker]
  cases Held.releaseAll ⟨kernel.node, tracker⟩ <;> rfl

theorem cancelMetaCallback_outcome (hnode : kernel.node = some c) (key : PairKey) :
    ∃ d after, stateOf (cancelMetaCallback key kernel) = ⟨some d, after⟩ ∧
      c.Untracks kernel.trackers key d after := by
  cases htracked : kernel.trackers[key]? with
  | none =>
    refine ⟨_, _, ?_, .untracked htracked⟩
    rw [cancelMetaCallback_untracked htracked, stateOf, ← hnode]
  | some tracker =>
    have hcancel := cancelMetaCallback_tracked htracked
    rw [hnode, Held.releaseAll_node] at hcancel
    by_cases hthrows : c.releaseThrows tracker
    · rw [if_pos hthrows] at hcancel
      refine ⟨_, _, ?_, .keepsTarget htracked hthrows⟩
      rw [hcancel]
      rfl
    · rw [if_neg hthrows] at hcancel
      dsimp only at hcancel
      by_cases hmeta : (c.released tracker).cancelThrows tracker.metaSubscription
      · rw [if_pos hmeta] at hcancel
        refine ⟨_, _, ?_, .keepsMeta htracked hthrows hmeta⟩
        rw [hcancel]
        rfl
      · rw [if_neg hmeta] at hcancel
        dsimp only at hcancel
        rw [erase_insert] at hcancel
        refine ⟨_, _, ?_, .forgotten htracked hthrows hmeta⟩
        rw [hcancel]
        rfl

theorem onMetaPairChanged_untracked {metapair : Pair}
    (huntracked : kernel.trackers[metapair.pairKey]? = none) (now : TimePoint) :
    onMetaPairChanged metapair now kernel = .ok () kernel := by
  simp only [onMetaPairChanged, bind, EStateM.bind, get_run, huntracked]
  rfl

theorem onMetaPairChanged_tracked {metapair : Pair} {tracker : MetaTracker U}
    (htracked : kernel.trackers[metapair.pairKey]? = some tracker) (now : TimePoint) :
    onMetaPairChanged metapair now kernel =
      onTracker metapair.pairKey tracker (Held.repoint metapair.value now) kernel := by
  simp only [onMetaPairChanged, bind, EStateM.bind, get_run, htracked]

end Kernel

/-! ### The steps -/

namespace Process
variable {U : Type} {p q : Process U} {c d : Component (Watcher U)} {maker : Option Agent}

theorem kernel_eq (hnode : p.kernel.node = some c) : p.kernel = ⟨some c, p.kernel.trackers⟩ := by
  cases hkernel : p.kernel with
  | mk node trackers =>
    rw [hkernel] at hnode
    dsimp only at hnode ⊢
    rw [hnode]

theorem advance_eq {trackers after : ExtTreeMap PairKey (MetaTracker U)}
    (h : p.kernel = ⟨some c, trackers⟩) :
    p.advance maker ⟨some d, after⟩ = { p with
      kernel := ⟨some d, after⟩
      subscriptionMaker := note maker c.nextSubscriptionHandle d.nextSubscriptionHandle
        d.subscriptions[d.nextSubscriptionHandle]? p.subscriptionMaker
      callbackMaker := note maker c.space.nextCallbackHandle d.space.nextCallbackHandle
        (d.space.callbackAt d.space.nextCallbackHandle) p.callbackMaker
      cancelled := mark p.cancelled (filed c d) false } := by
  unfold advance
  rw [h]

theorem advance_kernel (maker : Option Agent) (kernel : Kernel U) :
    (p.advance maker kernel).kernel = kernel := by
  unfold advance
  split <;> rfl

theorem advance_none (hnode : p.kernel.node = none) (maker : Option Agent) :
    p.advance maker p.kernel = p := by
  unfold advance
  rw [hnode]

section
variable (hidle : p.kernel.node = none → ∀ key : PairKey, p.kernel.trackers[key]? = none)
include hidle

theorem registerTracker_cases {key : PairKey} {fn : Option U} {now : TimePoint}
    (hstep : p.step (.registerTracker key fn now) = some q) :
    q = p ∨ ∃ c d after, p.kernel.node = some c ∧ c.Tracks p.kernel.trackers key fn now d after ∧
      q = p.advance (some ⟨key, .metaPair⟩) ⟨some d, after⟩ := by
  have hq := Option.some.inj hstep
  cases hnode : p.kernel.node with
  | none =>
    left
    rw [Kernel.registerTracker_none hnode (hidle hnode key)] at hq
    exact hq.symm.trans (advance_none hnode _)
  | some c =>
    right
    obtain ⟨d, after, hresult, htracks⟩ := Kernel.registerTracker_outcome hnode key fn now
    rw [hresult] at hq
    exact ⟨c, d, after, rfl, htracks, hq.symm⟩

theorem cancelMetaCallback_cases {key : PairKey}
    (hstep : p.step (.cancelMetaCallback key) = some q) :
    q = p ∨ ∃ c d after, p.kernel.node = some c ∧ c.Untracks p.kernel.trackers key d after ∧
      q = p.advance none ⟨some d, after⟩ := by
  have hq := Option.some.inj hstep
  cases hnode : p.kernel.node with
  | none =>
    left
    rw [Kernel.cancelMetaCallback_untracked (hidle hnode key)] at hq
    exact hq.symm.trans (advance_none hnode _)
  | some c =>
    right
    obtain ⟨d, after, hresult, huntracks⟩ := Kernel.cancelMetaCallback_outcome hnode key
    rw [hresult] at hq
    exact ⟨c, d, after, rfl, huntracks, hq.symm⟩

/-- One call of a notice: the tracker, if there is one, is repointed. On the strand that call
must return. -/
theorem notify_cases {index : Nat} {now : TimePoint}
    (hstep : p.step (.notify index now) = some q) :
    ∃ notice pending, p.pending[index]? = some notice ∧
      (pending = called p.pending index notice ∨ pending = p.pending.eraseIdx index) ∧
      (p.kernel.trackers[notice.snapshot.pairKey]? = none ∧
          q = { p.advance (some ⟨notice.snapshot.pairKey, .target⟩) p.kernel with pending } ∨
        ∃ c tracker held, p.kernel.node = some c ∧
          p.kernel.trackers[notice.snapshot.pairKey]? = some tracker ∧
          stateOf (Held.repoint notice.snapshot.value now ⟨some c, tracker⟩) = held ∧
          (notice.strand → Held.repoint notice.snapshot.value now ⟨some c, tracker⟩ = .ok () held) ∧
          q = { p.advance (some ⟨notice.snapshot.pairKey, .target⟩)
            ⟨held.node, p.kernel.trackers.insert notice.snapshot.pairKey held.tracker⟩ with
              pending }) := by
  simp only [step] at hstep
  split at hstep
  · contradiction
  rename_i notice hnotice
  cases htracked : p.kernel.trackers[notice.snapshot.pairKey]? with
  | none =>
    rw [Kernel.onMetaPairChanged_untracked htracked] at hstep
    exact ⟨notice, _, hnotice, Or.inl rfl, Or.inl ⟨htracked, (Option.some.inj hstep).symm⟩⟩
  | some tracker =>
    cases hnode : p.kernel.node with
    | none =>
      rw [hidle hnode] at htracked
      contradiction
    | some c =>
      have hresult := Kernel.onMetaPairChanged_tracked htracked now
      simp only [Kernel.onTracker, hnode] at hresult
      cases hrepoint : Held.repoint notice.snapshot.value now ⟨some c, tracker⟩ with
      | ok _ held =>
        rw [hrepoint] at hresult
        rw [hresult] at hstep
        exact ⟨notice, _, hnotice, Or.inl rfl, Or.inr ⟨c, tracker, held, rfl, htracked,
          congrArg stateOf hrepoint, fun _ => hrepoint, (Option.some.inj hstep).symm⟩⟩
      | error _ held =>
        rw [hrepoint] at hresult
        rw [hresult] at hstep
        dsimp only at hstep
        split at hstep
        · contradiction
        · rename_i hhandler
          exact ⟨notice, _, hnotice, Or.inr rfl, Or.inr ⟨c, tracker, held, rfl, htracked,
            congrArg stateOf hrepoint, fun hstrand => absurd hstrand hhandler,
            (Option.some.inj hstep).symm⟩⟩

end

end Process

end Srnp
