import Srnp.MetaLifetime

/-! The pairs that trackers follow. A client keeps one record for a pair, however
many asked for it, and the record belongs to whoever asked first: when that one
gives it up the others lose it with him. As long as no tracker gives up a record
that somebody else relies on, what is followed stays subscribed. -/
namespace Srnp
open Std LastWrite Transition HandleTable

namespace Process
variable {U : Type} (p : Process U)

/-- Nobody but the tracker of the key relies on the record under the handle. -/
def Unshared (c : Component (Watcher U)) (key : PairKey) (handle : SubscriptionHandle) : Prop :=
  ∀ record, c.subscriptions[handle]? = some record →
    p.asked record = false ∧ ∀ (other : PairKey) (tracker : MetaTracker U) (target : PairKey),
      other ≠ key → p.kernel.trackers[other]? = some tracker → tracker.target = some target →
        target.record ≠ record

/-- No tracker gives up a record that somebody else relies on, nor is it cut short doing so. -/
def ReleasesUnshared : ProcessAction U → Prop
  | .notify index _ => ∀ notice c tracker, p.pending[index]? = some notice →
      p.kernel.node = some c → p.kernel.trackers[notice.snapshot.pairKey]? = some tracker →
      MetaTracker.parseMetaValue notice.snapshot.value ≠ tracker.target →
      p.Unshared c notice.snapshot.pairKey tracker.targetSubscription ∧
        c.releaseThrows tracker = false
  | .cancelMetaCallback key => ∀ c tracker, p.kernel.node = some c →
      p.kernel.trackers[key]? = some tracker →
      p.Unshared c key tracker.targetSubscription ∧ p.Unshared c key tracker.metaSubscription ∧
        c.releaseThrows tracker = false
  | _ => True

def Sharing (action : ProcessAction U) : Prop := p.Orderly action ∧ p.ReleasesUnshared action

/-- What is followed is subscribed, unless the user cancelled it, and what the user asked for is. -/
structure Served : Prop where
  targets : ∀ c (key : PairKey) (tracker : MetaTracker U) target, p.kernel.node = some c →
    p.kernel.trackers[key]? = some tracker → tracker.target = some target →
    p.cancelled target.record = false → c.Live target.record
  asked : ∀ c record, p.kernel.node = some c → p.asked record = true → c.Live record
  idle : p.kernel.node = none → ∀ record, p.asked record = false

end Process

theorem mark_apply (table : SubscriptionRecord → Bool) (marked : Option SubscriptionRecord)
    (value : Bool) (record : SubscriptionRecord) :
    mark table marked value record = if marked = some record then value else table record := by
  cases marked with
  | none => rfl
  | some other =>
    simp only [mark, Function.update_apply, Option.some.injEq]
    exact if_congr eq_comm rfl rfl

namespace Component
variable {U : Type} {c : Component (Watcher U)} {record : SubscriptionRecord}

/-! ### Records that outlast a function -/

theorem live_cancelSubscriptionHandle {handle : SubscriptionHandle} (h : c.Live record)
    (hother : ∀ found, c.subscriptions[handle]? = some found → found ≠ record) :
    (c.cancelSubscriptionHandle handle).component.Live record := by
  obtain ⟨kept, hfind⟩ := h
  refine ⟨kept, ?_⟩
  have hafter := congrFun (c.subscriptions_cancelSubscriptionHandle handle) kept
  have hne : kept ≠ handle := by
    rintro rfl
    exact hother record hfind rfl
  rw [Function.update_of_ne hne] at hafter
  exact hafter.trans hfind

theorem live_released {tracker : MetaTracker U} (h : c.Live record)
    (hother : ∀ found, c.subscriptions[tracker.targetSubscription]? = some found →
      found ≠ record) : (c.released tracker).Live record := by
  obtain ⟨kept, hfind⟩ := h
  refine ⟨kept, ?_⟩
  have hafter := congrFun (c.subscriptions_released tracker) kept
  have hne : kept ≠ tracker.targetSubscription := by
    rintro rfl
    exact hother record hfind rfl
  split at hafter
  · exact hafter.trans hfind
  · rw [Function.update_of_ne hne] at hafter
    exact hafter.trans hfind

section
variable (hfresh : c.subscriptions[c.nextSubscriptionHandle + 1]? = none)
include hfresh

theorem live_recorded (asked : PairKey) (h : c.Live record) : (c.recorded asked).Live record := by
  cases hnew : c.subscribed asked.record with
  | true =>
    rw [recorded_of_subscribed hnew]
    exact h
  | false =>
    obtain ⟨kept, hfind⟩ := h
    refine ⟨kept, ?_⟩
    have hafter := congrFun (subscriptions_recorded hnew hfresh) kept
    have hne : kept ≠ c.nextSubscriptionHandle + 1 := by
      rintro rfl
      rw [hfresh] at hfind
      contradiction
    rw [Function.update_of_ne hne] at hafter
    exact hafter.trans hfind

theorem live_recorded_self (asked : PairKey) : (c.recorded asked).Live asked.record := by
  cases hnew : c.subscribed asked.record with
  | true =>
    rw [recorded_of_subscribed hnew]
    exact subscribed_iff.mp hnew
  | false =>
    have hafter := congrFun (subscriptions_recorded hnew hfresh) (c.nextSubscriptionHandle + 1)
    rw [Function.update_self] at hafter
    exact ⟨_, hafter⟩

end

theorem live_watched {asked : PairKey} {callback : Watcher U} {now : TimePoint} :
    (c.watched asked callback now).Live record ↔ c.Live record := by
  unfold Live
  rw [(c.subscriptions_watched asked callback now).1]

theorem live_enter {call : Call (Watcher U)} (now : TimePoint) (h : c.Live record)
    (hcancels : c.cancels call ≠ some record)
    (hfresh : c.subscriptions[c.nextSubscriptionHandle + 1]? = none) :
    (c.enter call now).component.Live record := by
  cases hcall : c.cancels call with
  | some gone =>
    obtain ⟨handle, hfind, hafter⟩ := cancels_handle hcall now
    rw [hafter]
    obtain ⟨kept, hkept⟩ := h
    refine live_erase.mpr ⟨kept, ?_, hkept⟩
    rintro rfl
    rw [hfind] at hkept
    rw [hcall] at hcancels
    exact hcancels hkept
  | none =>
    by_cases hregister : ∀ owner key, call ≠ .registerSubscription owner key
    · unfold Live
      rw [(cancels_none hcall hregister now).1]
      exact h
    · simp only [not_forall, not_not] at hregister
      obtain ⟨owner, key, rfl⟩ := hregister
      exact live_recorded hfresh ⟨owner, key⟩ h

theorem live_asked {call : Call (Watcher U)} (now : TimePoint) (h : call.asks = some record)
    (hfresh : c.subscriptions[c.nextSubscriptionHandle + 1]? = none) :
    (c.enter call now).component.Live record := by
  cases call with
  | registerSubscription owner key =>
    cases h
    exact live_recorded_self hfresh ⟨owner, key⟩
  | _ => contradiction

/-- What `onMetaPairChanged` leaves where the target changes and the old one is given up. -/
theorem repoint_outcome {tracker : MetaTracker U} {value : Bytes} (now : TimePoint)
    (hchange : MetaTracker.parseMetaValue value ≠ tracker.target)
    (hreturns : c.releaseThrows tracker = false)
    (hfresh : (c.released tracker).subscriptions[(c.released tracker).nextSubscriptionHandle + 1]? =
      none) :
    ∃ d changed, stateOf (Held.repoint value now ⟨some c, tracker⟩) = ⟨some d, changed⟩ ∧
      changed.target = MetaTracker.parseMetaValue value ∧
      (∀ record, (c.released tracker).Live record → d.Live record) ∧
      (∀ target, MetaTracker.parseMetaValue value = some target → d.Live target.record) ∧
      d.space.view = c.space.view := by
  have hnode := Held.repoint_node c tracker now hchange
  have hview := (SameNode.released (c := c) tracker).view
  rw [hreturns, if_neg Bool.false_ne_true] at hnode
  cases hparse : MetaTracker.parseMetaValue value with
  | none =>
    rw [hparse] at hnode
    exact ⟨_, _, congrArg stateOf hnode, rfl, fun _ h => h, fun _ h => by contradiction, hview⟩
  | some target =>
    rw [hparse] at hnode
    have hacquire := hnode.trans
      (Held.acquireTarget_node (c.released tracker) tracker.withoutTarget target now)
    have hkeeps : ∀ record, (c.released tracker).Live record →
        ((c.released tracker).recorded target).Live record :=
      fun _ => live_recorded hfresh target
    have hself := live_recorded_self hfresh target
    have hrecorded : ((c.released tracker).recorded target).space.view = c.space.view := by
      rw [space_recorded]
      exact hview
    have htarget : ∀ other, some target = some other →
        ((c.released tracker).recorded target).Live other.record := by
      rintro other ⟨⟩
      exact hself
    by_cases hthrows : (c.released tracker).registerThrows target
    · rw [if_pos hthrows] at hacquire
      exact ⟨_, _, congrArg stateOf hacquire, rfl, hkeeps, htarget, hrecorded⟩
    · rw [if_neg hthrows] at hacquire
      cases hfn : tracker.withoutTarget.fn with
      | none =>
        rw [hfn] at hacquire
        exact ⟨_, _, congrArg stateOf hacquire, rfl, hkeeps, htarget, hrecorded⟩
      | some fn =>
        rw [hfn] at hacquire
        refine ⟨_, _, congrArg stateOf hacquire, rfl, ?_, ?_, ?_⟩
        · intro record hlive
          exact live_watched.mpr (hkeeps record hlive)
        · intro other hother
          exact live_watched.mpr (htarget other hother)
        · exact (view_registerCallback _ _ _ _ _).trans hrecorded

end Component

namespace Process
variable {U : Type} {p q : Process U} {c d : Component (Watcher U)}
  {after : ExtTreeMap PairKey (MetaTracker U)}

theorem live_of_filed {record : SubscriptionRecord} (h : filed c d = some record) :
    d.Live record := by
  unfold filed at h
  split at h
  · contradiction
  · exact ⟨_, h⟩

/-- A step of the trackers: what is followed afterwards is subscribed now, or was followed and
its record is still there. -/
theorem Served.changes (h : p.Served) (hnode : p.kernel.node = some c)
    (hkernel : q.kernel = ⟨some d, after⟩) (hasked : q.asked = p.asked)
    (hcancelled : q.cancelled = mark p.cancelled (filed c d) false)
    (htargets : ∀ (key : PairKey) (tracker : MetaTracker U) (target : PairKey),
      after[key]? = some tracker → tracker.target = some target → d.Live target.record ∨
        (∃ old, p.kernel.trackers[key]? = some old ∧ old.target = some target) ∧
          (c.Live target.record → d.Live target.record))
    (hkeeps : ∀ record, p.asked record = true → c.Live record → d.Live record) : q.Served := by
  have hnode' : ∀ e, q.kernel.node = some e → e = d := by
    intro e he
    rw [hkernel] at he
    cases he
    rfl
  constructor
  · intro e key tracker target he htracked htarget hcancels
    rw [hnode' e he]
    rw [hkernel] at htracked
    rcases htargets key tracker target htracked htarget with hlive | ⟨⟨old, hold, hsame⟩, hkept⟩
    · exact hlive
    · rw [hcancelled, mark_apply] at hcancels
      split at hcancels
      · rename_i hfiled
        exact live_of_filed hfiled
      · exact hkept (h.targets c key old target hnode hold hsame hcancels)
  · intro e record he hrecord
    rw [hnode' e he]
    rw [hasked] at hrecord
    exact hkeeps record hrecord (h.asked c record hnode hrecord)
  · rw [hkernel]
    intro hnone
    contradiction

theorem Served.registerTracker (h : p.Served) (hsane : p.Sane) {key : PairKey} {fn : Option U}
    {now : TimePoint} (horderly : p.Orderly (.registerTracker key fn now))
    (hstep : p.step (.registerTracker key fn now) = some q) : q.Served := by
  rcases registerTracker_cases hsane.idle hstep with rfl | ⟨c, d, after, hnode, htracks, rfl⟩
  · exact h
  · have hfresh := (horderly c hnode).subscription.dead
    have hkeeps : ∀ record, c.Live record → (c.recorded key).Live record :=
      fun _ => Component.live_recorded hfresh key
    rw [advance_eq (kernel_eq hnode)]
    cases htracks with
    | @renewed tracker htracked =>
      refine h.changes hnode rfl rfl rfl ?_ (fun _ _ => id)
      intro other found target hfound htarget
      rcases tracked_insert hfound with ⟨rfl, rfl⟩ | ⟨_, hold⟩
      · exact Or.inr ⟨⟨tracker, htracked, htarget⟩, id⟩
      · exact Or.inr ⟨⟨found, hold, htarget⟩, id⟩
    | cutShort =>
      refine h.changes hnode rfl rfl rfl ?_ (fun record _ => hkeeps record)
      intro other found target hfound htarget
      exact Or.inr ⟨⟨found, hfound, htarget⟩, hkeeps _⟩
    | added =>
      refine h.changes hnode rfl rfl rfl ?_ ?_
      · intro other found target hfound htarget
        rcases tracked_insert hfound with ⟨rfl, rfl⟩ | ⟨_, hold⟩
        · contradiction
        · exact Or.inr ⟨⟨found, hold, htarget⟩,
            fun hlive => Component.live_watched.mpr (hkeeps _ hlive)⟩
      · intro record _ hlive
        exact Component.live_watched.mpr (hkeeps record hlive)

theorem Served.cancelMetaCallback (h : p.Served) (hsane : p.Sane) {key : PairKey}
    (hunshared : p.ReleasesUnshared (.cancelMetaCallback key))
    (hstep : p.step (.cancelMetaCallback key) = some q) : q.Served := by
  rcases cancelMetaCallback_cases hsane.idle hstep with rfl | ⟨c, d, after, hnode, huntracks, rfl⟩
  · exact h
  rw [advance_eq (kernel_eq hnode)]
  have hgiven : ∀ tracker, p.kernel.trackers[key]? = some tracker →
      let e := ((c.released tracker).cancelSubscriptionHandle tracker.metaSubscription).component
      (∀ (other : PairKey) (found : MetaTracker U) (target : PairKey), other ≠ key →
        p.kernel.trackers[other]? = some found → found.target = some target →
        c.Live target.record → e.Live target.record) ∧
      ∀ record, p.asked record = true → c.Live record → e.Live record := by
    intro tracker htracked e
    obtain ⟨htarget, hmeta, _⟩ := hunshared c tracker hnode htracked
    have hkeeps : ∀ record, c.Live record →
        (∀ found, c.subscriptions[tracker.targetSubscription]? = some found → found ≠ record) →
        (∀ found, c.subscriptions[tracker.metaSubscription]? = some found → found ≠ record) →
        e.Live record := by
      intro record hlive hfirst hsecond
      refine Component.live_cancelSubscriptionHandle (Component.live_released hlive hfirst) ?_
      intro found hfound
      have hbefore := congrFun (c.subscriptions_released tracker) tracker.metaSubscription
      rw [hfound] at hbefore
      split at hbefore
      · exact hsecond found hbefore.symm
      · exact hsecond found (live_of_update hbefore.symm)
    constructor
    · intro other found target hne hfound hsame hlive
      refine hkeeps _ hlive ?_ ?_
      · intro record hrecord
        exact ((htarget record hrecord).2 other found target hne hfound hsame).symm
      · intro record hrecord
        exact ((hmeta record hrecord).2 other found target hne hfound hsame).symm
    · intro record hrecord hlive
      refine hkeeps record hlive ?_ ?_
      · rintro found hfound rfl
        rw [(htarget found hfound).1] at hrecord
        contradiction
      · rintro found hfound rfl
        rw [(hmeta found hfound).1] at hrecord
        contradiction
  cases huntracks with
  | untracked =>
    exact h.changes hnode rfl rfl rfl
      (fun _ found _ hfound htarget => Or.inr ⟨⟨found, hfound, htarget⟩, id⟩) (fun _ _ => id)
  | @keepsTarget tracker htracked hthrows =>
    rw [(hunshared c tracker hnode htracked).2.2] at hthrows
    contradiction
  | @keepsMeta tracker htracked =>
    obtain ⟨hothers, hasked⟩ := hgiven tracker htracked
    refine h.changes hnode rfl rfl rfl ?_ hasked
    intro other found target hfound hsame
    rcases tracked_insert hfound with ⟨rfl, rfl⟩ | ⟨hne, hold⟩
    · contradiction
    · exact Or.inr ⟨⟨found, hold, hsame⟩, hothers other found target hne hold hsame⟩
  | @forgotten tracker htracked =>
    obtain ⟨hothers, hasked⟩ := hgiven tracker htracked
    refine h.changes hnode rfl rfl rfl ?_ hasked
    intro other found target hfound hsame
    obtain ⟨hne, hold⟩ := tracked_erase hfound
    exact Or.inr ⟨⟨found, hold, hsame⟩, hothers other found target hne hold hsame⟩

theorem Served.call (h : p.Served) {call : Call (Watcher U)} {now : TimePoint}
    (horderly : p.Orderly (.call call now)) (hstep : p.step (.call call now) = some q) :
    q.Served := by
  simp only [step] at hstep
  split at hstep
  · split at hstep
    · cases hstep
      exact h
    · rename_i c hnode
      have hfresh := (horderly c hnode).subscription.dead
      have hkernel := kernel_eq hnode
      rw [← Option.some.inj hstep, advance_eq hkernel]
      constructor
      · intro d key tracker target hd htracked htarget hcancels
        cases hd
        dsimp only at hcancels
        rw [mark_apply] at hcancels
        split at hcancels
        · contradiction
        · rename_i hkept
          rw [mark_apply] at hcancels
          split at hcancels
          · rename_i hfiled
            exact live_of_filed hfiled
          · exact Component.live_enter now (h.targets c key tracker target hnode htracked htarget
              hcancels) hkept hfresh
      · intro d record hd hrecord
        cases hd
        dsimp only at hrecord
        rw [mark_apply] at hrecord
        split at hrecord
        · rename_i hasks
          exact Component.live_asked now hasks hfresh
        · rw [mark_apply] at hrecord
          split at hrecord
          · contradiction
          · rename_i hkept
            exact Component.live_enter now (h.asked c record hnode hrecord) hkept hfresh
      · intro hnone
        contradiction
  · contradiction

theorem Served.notify (h : p.Served) (hsane : p.Sane) {index : Nat} {now : TimePoint}
    (horderly : p.Orderly (.notify index now)) (hunshared : p.ReleasesUnshared (.notify index now))
    (hstep : p.step (.notify index now) = some q) : q.Served := by
  obtain ⟨notice, pending, hnotice, _, hcases⟩ := notify_cases hsane.idle hstep
  rcases hcases with ⟨_, rfl⟩ | ⟨c, tracker, held, hnode, htracked, hrepoint, _, rfl⟩
  · cases hnode : p.kernel.node with
    | none =>
      rw [advance_none hnode]
      exact ⟨h.targets, h.asked, h.idle⟩
    | some c =>
      rw [kernel_eq hnode, advance_eq (kernel_eq hnode)]
      exact h.changes hnode rfl rfl rfl
        (fun _ found _ hfound htarget => Or.inr ⟨⟨found, hfound, htarget⟩, id⟩) (fun _ _ => id)
  by_cases hchange : MetaTracker.parseMetaValue notice.snapshot.value = tracker.target
  · rw [Held.repoint_same now hchange] at hrepoint
    cases hrepoint
    rw [stateOf, advance_eq (kernel_eq hnode)]
    refine h.changes hnode rfl rfl rfl ?_ (fun _ _ => id)
    intro other found target hfound htarget
    rcases tracked_insert hfound with ⟨rfl, rfl⟩ | ⟨_, hold⟩
    · exact Or.inr ⟨⟨_, htracked, htarget⟩, id⟩
    · exact Or.inr ⟨⟨found, hold, htarget⟩, id⟩
  · obtain ⟨hrelease, hreturns⟩ := hunshared notice c tracker hnotice hnode htracked hchange
    have hunused := (horderly c hnode).release htracked (hsane.filed c hnode)
    obtain ⟨d, changed, hresult, htarget, hkept, hself, _⟩ :=
      Component.repoint_outcome now hchange hreturns hunused.subscription.dead
    cases hresult.symm.trans hrepoint
    rw [advance_eq (kernel_eq hnode)]
    refine h.changes hnode rfl rfl rfl ?_ ?_
    · intro key found target hfound hsame
      rcases tracked_insert hfound with ⟨rfl, rfl⟩ | ⟨hne, hold⟩
      · exact Or.inl (hself target (htarget.symm.trans hsame))
      · refine Or.inr ⟨⟨found, hold, hsame⟩, ?_⟩
        intro hlive
        refine hkept _ (Component.live_released hlive ?_)
        intro record hrecord
        exact ((hrelease record hrecord).2 key found target hne hold hsame).symm
    · intro record hrecord hlive
      refine hkept record (Component.live_released hlive ?_)
      rintro gone hgone rfl
      rw [(hrelease gone hgone).1] at hrecord
      contradiction

theorem Served.step (h : p.Served) (hsane : p.Sane) {action : ProcessAction U}
    (hsharing : p.Sharing action) (hstep : p.step action = some q) : q.Served := by
  obtain ⟨horderly, hunshared⟩ := hsharing
  cases action with
  | registerTracker key fn now => exact h.registerTracker hsane horderly hstep
  | cancelMetaCallback key => exact h.cancelMetaCallback hsane hunshared hstep
  | call call now => exact h.call horderly hstep
  | notify index now => exact h.notify hsane horderly hunshared hstep
  | initializeNode welcome =>
    simp only [Process.step] at hstep
    cases hnode : p.kernel.node with
    | some c =>
      rw [hnode] at hstep
      cases hstep
      exact h
    | none =>
      rw [hnode] at hstep
      cases hstep
      refine ⟨?_, ?_, fun hnone => by contradiction⟩
      · intro c key tracker target _ htracked
        have hnone := hsane.idle hnode key
        rw [htracked] at hnone
        contradiction
      · intro c record _ hrecord
        have hnone := h.idle hnode record
        rw [hnone] at hrecord
        contradiction
  | shutdown =>
    cases hstep
    exact ⟨fun _ _ _ _ hnode => by contradiction, fun _ _ hnode => by contradiction, fun _ _ => rfl⟩

/-- In a run in which no tracker gives up a record that somebody else relies on, the pair that a
tracker follows stays subscribed until the user cancels it, and what the user asked for stays. -/
theorem targets_stay_subscribed (reach : Reach Process.step Sharing Process.start p)
    (hnode : p.kernel.node = some c) :
    (∀ (key : PairKey) (tracker : MetaTracker U) (target : PairKey),
      p.kernel.trackers[key]? = some tracker → tracker.target = some target →
        p.cancelled target.record = false → c.Live target.record) ∧
    ∀ record, p.asked record = true → c.Live record := by
  have hinvariant : p.Sane ∧ p.Served := by
    apply reach.invariant
    · exact ⟨.start, fun _ _ _ _ hnode => by contradiction, fun _ _ hnode => by contradiction,
        fun _ _ => rfl⟩
    · rintro before action after ⟨hsane, hserved⟩ hsharing hstep
      exact ⟨(hsane.step hsharing.1 hstep).sane, hserved.step hsane hsharing hstep⟩
  exact ⟨fun key tracker target => hinvariant.2.targets c key tracker target hnode,
    fun record => hinvariant.2.asked c record hnode⟩

def pointing : Bytes := [40, 77, 69, 84, 65, 32, 55, 32, 116, 41]

def pointed (key : Bytes) : Call (Watcher Unit) :=
  .handle (.pairUpdate { owner := 5, key, value := pointing })

def tracking : Process Unit :=
  begun.advance (some ⟨⟨5, [107]⟩, .metaPair⟩)
    ⟨some ((joined.recorded ⟨5, [107]⟩).watched ⟨5, [107]⟩ .onMetaPairChanged 3),
      (∅ : ExtTreeMap PairKey (MetaTracker Unit)).insert ⟨5, [107]⟩ ⟨none, 1, 1, none, 0, 0⟩⟩

theorem step_tracking : begun.step (.registerTracker ⟨5, [107]⟩ none 3) = some tracking := rfl

theorem unused_single {node : Component (Watcher U)} {key : PairKey} {tracker : MetaTracker U}
    {subscriptions : SubscriptionHandle → Option (Option Agent × SubscriptionRecord)}
    {callbacks : CallbackHandle → Option (Option Agent × (Option PairKey × Watcher U))}
    {issued : UInt64} (hsubscription : node.nextSubscriptionHandle + 1 = issued)
    (hcallback : node.space.nextCallbackHandle + 1 = issued) (hne : issued ≠ 0)
    (hrecord : node.subscriptions[(issued : SubscriptionHandle)]? = none)
    (hnone : node.space.callbackAt issued = none)
    (hslots : ∀ slot, tracker.subscription slot ≠ issued ∧ tracker.callback slot ≠ issued) :
    node.NextUnused ((∅ : ExtTreeMap PairKey (MetaTracker U)).insert key tracker) subscriptions
      callbacks := by
  have hheld : ∀ (read : MetaTracker U → Slot → UInt64) (agent : Agent),
      (∀ slot, read tracker slot ≠ issued) →
        holderOf read ((∅ : ExtTreeMap PairKey (MetaTracker U)).insert key tracker) agent ≠
          some issued := by
    intro read agent hread hheld
    obtain ⟨found, htracked, hslot, _⟩ := tracked_of_holder hheld
    rcases tracked_insert htracked with ⟨_, rfl⟩ | ⟨_, hold⟩
    · exact hread agent.slot hslot
    · simp at hold
  constructor
  · rw [hsubscription]
    exact hne
  · rw [hsubscription]
    exact ⟨hrecord, fun agent => hheld MetaTracker.subscription agent fun slot => (hslots slot).1⟩
  · rw [hcallback]
    exact hne
  · rw [hcallback]
    exact ⟨hnone, fun agent => hheld MetaTracker.callback agent fun slot => (hslots slot).2⟩

theorem unused_tracking {node : Component (Watcher Unit)}
    {subscriptions : SubscriptionHandle → Option (Option Agent × SubscriptionRecord)}
    {callbacks : CallbackHandle → Option (Option Agent × (Option PairKey × Watcher Unit))}
    (hsubscription : node.nextSubscriptionHandle = 1) (hcallback : node.space.nextCallbackHandle = 1)
    (hrecord : node.subscriptions[(2 : SubscriptionHandle)]? = none)
    (hnone : node.space.callbackAt 2 = none) :
    node.NextUnused tracking.kernel.trackers subscriptions callbacks := by
  refine unused_single ?_ ?_ ?_ hrecord hnone ?_
  · rw [hsubscription]
    rfl
  · rw [hcallback]
    rfl
  · decide
  · intro slot
    cases slot <;> decide

def told : Process Unit := (tracking.step (.call (pointed [107]) 4)).get rfl

def aimed : Process Unit := (told.step (.notify 0 5)).get rfl

theorem targets_stay_subscribed_pointed : ∃ (p : Process Unit) (c : Component (Watcher Unit))
    (tracker : MetaTracker Unit), Reach step Sharing start p ∧ p.kernel.node = some c ∧
      p.kernel.trackers[(⟨5, [107]⟩ : PairKey)]? = some tracker ∧
      tracker.target = some ⟨7, [116]⟩ ∧ c.Live ⟨7, [116]⟩ := by
  have hfirst : Reach step Sharing start tracking :=
    .tail (reach_begun ⟨trivial, trivial⟩) ⟨orderly_begun _ _ _, trivial⟩ step_tracking
  have hsecond : Reach step Sharing start told := by
    refine .tail (a := .call (pointed [107]) 4) hfirst ⟨?_, trivial⟩ (Option.some_get _).symm
    intro c hc
    cases hc
    exact unused_tracking rfl rfl rfl rfl
  have hthird : Reach step Sharing start aimed := by
    refine .tail (a := .notify 0 5) hsecond ⟨?_, ?_⟩ (Option.some_get _).symm
    · intro c hc
      cases hc
      exact unused_tracking rfl rfl rfl rfl
    · intro notice c tracker hnotice hc htracked _
      cases hnotice
      cases hc
      cases htracked
      refine ⟨?_, by decide⟩
      intro record hrecord
      contradiction
  exact ⟨aimed, _, _, hthird, rfl, rfl, rfl,
    (targets_stay_subscribed hthird rfl).1 ⟨5, [107]⟩ _ ⟨7, [116]⟩ rfl rfl rfl⟩

/-- Two meta-pairs name the same pair, the user asks for that pair too, and the meta-pair that
named it first is given up. -/
def sharedTarget : List (ProcessAction Unit) :=
  [.initializeNode welcomed, .registerTracker ⟨5, [107]⟩ none 3, .registerTracker ⟨5, [108]⟩ none 3,
    .call (pointed [107]) 4, .notify 0 5, .call (pointed [108]) 4, .notify 0 5,
    .call (.registerSubscription 7 [116]) 6, .cancelMetaCallback ⟨5, [107]⟩]

/-- The other tracker still follows the pair and the user still wants it, but the record is gone. -/
theorem shared_record_given_up : ∃ (p : Process Unit) (c : Component (Watcher Unit))
    (tracker : MetaTracker Unit), Reach step unguarded start p ∧ p.kernel.node = some c ∧
      p.kernel.trackers[(⟨5, [108]⟩ : PairKey)]? = some tracker ∧
      tracker.target = some ⟨7, [116]⟩ ∧ p.cancelled ⟨7, [116]⟩ = false ∧
      p.asked ⟨7, [116]⟩ = true ∧ ¬ c.Live ⟨7, [116]⟩ := by
  refine ⟨_, _, _, Reach.of_run sharedTarget (fun _ _ _ => trivial) rfl, rfl, rfl, rfl, rfl, rfl, ?_⟩
  rw [← Component.subscribed_iff, Bool.not_eq_true]
  rfl

end Process

end Srnp
