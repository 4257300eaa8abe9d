import Srnp.MetaTargets

/-! The callback that a tracker has on its target. The function of a tracker is
copied into the pair space when the target is acquired. Registering the meta-pair
again replaces the function and leaves the copy, so the copy is the function last
registered only as long as no other one is registered while a target is held. -/
namespace Srnp
open Std LastWrite Transition HandleTable

namespace Process
variable {U : Type} (p : Process U)

/-- What the tracker has registered on its target is the function, under the
handle that the tracker keeps, and nothing where there is no function. -/
def TargetRuns (c : Component (Watcher U)) (key : PairKey) (tracker : MetaTracker U)
    (target : PairKey) (fn : Option U) : Prop :=
  ∀ handle named, p.OwnCallback c ⟨key, .target⟩ handle named ↔
    handle = tracker.targetCallback ∧
      ∃ callback, fn = some callback ∧ named = (target.place, .user callback)

/-- No function but the one a tracker has is registered while it has a target,
and no tracker with a function is left half-way between two targets. -/
def KeepsCurrent : ProcessAction U → Prop
  | .registerTracker key fn _ => ∀ tracker : MetaTracker U,
      p.kernel.trackers[key]? = some tracker → tracker.target ≠ none → fn = tracker.fn
  | .notify index _ => ∀ notice c tracker, p.pending[index]? = some notice →
      p.kernel.node = some c → p.kernel.trackers[notice.snapshot.pairKey]? = some tracker →
      tracker.fn ≠ none → MetaTracker.parseMetaValue notice.snapshot.value ≠ tracker.target →
      c.releaseThrows tracker = false ∧
        ∀ target, MetaTracker.parseMetaValue notice.snapshot.value = some target →
          (c.released tracker).registerThrows target = false
  | .cancelMetaCallback key => ∀ c tracker, p.kernel.node = some c →
      p.kernel.trackers[key]? = some tracker → tracker.fn ≠ none →
      c.releaseThrows tracker = false
  | _ => True

def SparesTargetCallbacks : ProcessAction U → Prop
  | .call call _ => ∀ handle, call = .cancelCallback handle →
      ∀ key, p.callbackTable.holder ⟨key, .target⟩ ≠ some handle
  | _ => True

def Serving (action : ProcessAction U) : Prop :=
  p.Orderly action ∧ p.SparesTargetCallbacks action ∧ p.KeepsCurrent action

end Process

structure MetaRun (U : Type) where
  process : Process U
  latest : PairKey → Option U

namespace MetaRun
variable {U : Type}

def start : MetaRun U := ⟨.start, fun _ => none⟩

/-- `registerMetaCallback` and `registerMetaSubscription` give a function, or none. -/
def registered (latest : PairKey → Option U) : ProcessAction U → PairKey → Option U
  | .registerTracker key fn _ => Function.update latest key fn
  | _ => latest

def step (run : MetaRun U) (action : ProcessAction U) : Option (MetaRun U) :=
  (run.process.step action).map fun process => ⟨process, registered run.latest action⟩

def RunsLatest (run : MetaRun U) : Prop :=
  ∀ c (key : PairKey) (tracker : MetaTracker U) target, run.process.kernel.node = some c →
    run.process.kernel.trackers[key]? = some tracker → tracker.target = some target →
    run.process.TargetRuns c key tracker target (run.latest key)

end MetaRun

/-! ### Repointing a tracker -/

namespace Component
variable {U : Type} {c : Component (Watcher U)}

inductive Repoints (c : Component (Watcher U)) (tracker : MetaTracker U) :
    Component (Watcher U) → MetaTracker U → Prop
  | stays : Repoints c tracker c tracker
  | dropped {d : Component (Watcher U)} {changed : MetaTracker U} (hfn : changed.fn = tracker.fn)
      (htarget : changed.target = none)
      (hnext : d.space.nextCallbackHandle = c.space.nextCallbackHandle) :
      Repoints c tracker d changed
  | silent {d : Component (Watcher U)} {changed : MetaTracker U} (hnone : tracker.fn = none)
      (hfn : changed.fn = none) (hcallback : changed.targetCallback = kInvalidCallbackHandle)
      (hnext : d.space.nextCallbackHandle = c.space.nextCallbackHandle) :
      Repoints c tracker d changed
  | taken {d : Component (Watcher U)} {changed : MetaTracker U} {target : PairKey} {fn : U}
      (hsome : tracker.fn = some fn) (hfn : changed.fn = some fn)
      (htarget : changed.target = some target)
      (hcallback : changed.targetCallback = c.space.nextCallbackHandle + 1)
      (hnext : d.space.nextCallbackHandle = c.space.nextCallbackHandle + 1)
      (hat : d.space.callbackAt d.space.nextCallbackHandle = some (target.place, .user fn)) :
      Repoints c tracker d changed

theorem Repoints.fn {d : Component (Watcher U)} {tracker changed : MetaTracker U}
    (h : c.Repoints tracker d changed) : changed.fn = tracker.fn := by
  cases h with
  | stays => rfl
  | dropped hfn => exact hfn
  | silent hnone hfn => rw [hnone, hfn]
  | taken hsome hfn => rw [hsome, hfn]

theorem Repoints.next {d : Component (Watcher U)} {tracker changed : MetaTracker U}
    (h : c.Repoints tracker d changed) :
    d.space.nextCallbackHandle = c.space.nextCallbackHandle ∨
      d.space.nextCallbackHandle = c.space.nextCallbackHandle + 1 := by
  cases h with
  | stays => exact .inl rfl
  | dropped _ _ hnext => exact .inl hnext
  | silent _ _ _ hnext => exact .inl hnext
  | taken _ _ _ _ hnext => exact .inr hnext

section
variable {tracker : MetaTracker U} (hfiled : c.space.Filed)
  (hfresh : c.space.callbackAt (c.space.nextCallbackHandle + 1) = none)
include hfiled hfresh

theorem acquireTarget_repoints {before : Component (Watcher U)} {old : MetaTracker U}
    (target : PairKey) (now : TimePoint) (hold : tracker.fn = old.fn)
    (hclear : tracker.targetCallback = kInvalidCallbackHandle)
    (hsame : c.space.nextCallbackHandle = before.space.nextCallbackHandle)
    (hframed : tracker.fn ≠ none → c.registerThrows target = false) :
    ∃ d changed, stateOf (Held.acquireTarget target now ⟨some c, tracker⟩) = ⟨some d, changed⟩ ∧
      before.Repoints old d changed := by
  have hnode := Held.acquireTarget_node c tracker target now
  have hspace : (c.recorded target).space = c.space := space_recorded target
  by_cases hthrows : c.registerThrows target
  · have hnone : tracker.fn = none := by
      by_contra hsome
      rw [hframed hsome] at hthrows
      contradiction
    rw [if_pos hthrows] at hnode
    refine ⟨_, _, congrArg stateOf hnode, .silent (hold ▸ hnone) hnone hclear ?_⟩
    rw [hspace, hsame]
  · rw [if_neg hthrows] at hnode
    cases hfn : tracker.fn with
    | none =>
      rw [hfn] at hnode
      refine ⟨_, _, congrArg stateOf hnode, .silent (hold ▸ hfn) rfl hclear ?_⟩
      rw [hspace, hsame]
    | some fn =>
      have hnext := (c.recorded target).next_watched target (.user fn) now
      rw [hspace] at hnext
      have hat := callbackAt_watched (c := c.recorded target) (hspace.symm ▸ hfiled)
        (by rw [hspace]; exact hfresh) target (.user fn) now
      rw [hfn] at hnode
      refine ⟨_, _, congrArg stateOf hnode, .taken (hold ▸ hfn) rfl rfl ?_ ?_ ?_⟩
      · rw [hnext, hsame]
      · rw [hnext, hsame]
      · rw [hat, hspace, hnext, Function.update_self]

theorem repoint_repoints {value : Bytes} (now : TimePoint)
    (hframed : tracker.fn ≠ none → MetaTracker.parseMetaValue value ≠ tracker.target →
      c.releaseThrows tracker = false ∧
        ∀ target, MetaTracker.parseMetaValue value = some target →
          (c.released tracker).registerThrows target = false) :
    ∃ d changed, stateOf (Held.repoint value now ⟨some c, tracker⟩) = ⟨some d, changed⟩ ∧
      c.Repoints tracker d changed := by
  by_cases hchange : MetaTracker.parseMetaValue value = tracker.target
  · exact ⟨c, tracker, congrArg stateOf (Held.repoint_same now hchange), .stays⟩
  have hnode := Held.repoint_node c tracker now hchange
  have hsame : SameNode c (c.released tracker) := .released tracker
  by_cases hthrows : c.releaseThrows tracker
  · have hnone : tracker.fn = none := by
      by_contra hsome
      rw [(hframed hsome hchange).1] at hthrows
      contradiction
    rw [if_pos hthrows] at hnode
    exact ⟨_, _, congrArg stateOf hnode, .silent hnone hnone rfl hsame.nextCallbackHandle⟩
  · rw [if_neg hthrows] at hnode
    cases hparse : MetaTracker.parseMetaValue value with
    | none =>
      rw [hparse] at hnode
      exact ⟨_, _, congrArg stateOf hnode, .dropped rfl rfl hsame.nextCallbackHandle⟩
    | some target =>
      rw [hparse] at hnode
      have hdead : (c.released tracker).space.callbackAt
          ((c.released tracker).space.nextCallbackHandle + 1) = none := by
        rw [hsame.nextCallbackHandle, space_released]
        split
        · exact hfresh
        · rw [hfiled.callbackAt_removeCallback, Function.update_apply, hfresh, ite_self]
      obtain ⟨d, changed, hacquire, hrepoints⟩ := @acquireTarget_repoints U (c.released tracker)
        tracker.withoutTarget (filed_released tracker hfiled) hdead c tracker target now rfl rfl
        hsame.nextCallbackHandle fun hsome => (hframed hsome hchange).2 target hparse
      exact ⟨d, changed, by rw [hnode, hacquire], hrepoints⟩

end

end Component

theorem Component.next_enter {U : Type} (c : Component (Watcher U)) (call : Call (Watcher U))
    (now : TimePoint) :
    (c.enter call now).component.space.nextCallbackHandle = c.space.nextCallbackHandle ∨
      (c.enter call now).component.space.nextCallbackHandle = c.space.nextCallbackHandle + 1 := by
  cases habout : call.aboutCallbacks with
  | false => exact .inl (c.sameCallbacks_enter habout now).nextCallbackHandle
  | true =>
    cases call with
    | registerCallback owner key callback => exact .inr (c.next_watched ⟨owner, key⟩ callback now)
    | cancelCallback handle => exact .inl (next_removeCallback c.space handle)
    | _ => contradiction

/-! ### Trackers that follow -/

/-- A tracker has the function that was registered last, and what it keeps as the
callback on its target was given out for this function. -/
structure MetaTracker.Serves {U : Type} (tracker : MetaTracker U) (key : PairKey)
    (latest : Option U)
    (makers : CallbackHandle → Option (Option Agent × (Option PairKey × Watcher U))) : Prop where
  fn : tracker.fn = latest
  silent : ∀ target, tracker.target = some target → latest = none →
    tracker.targetCallback = kInvalidCallbackHandle
  callback : ∀ target, tracker.target = some target → ∀ fn, latest = some fn →
    tracker.targetCallback ≠ kInvalidCallbackHandle ∧
      makers tracker.targetCallback = some (some ⟨key, .target⟩, (target.place, .user fn))

namespace MetaTracker
variable {U : Type} {tracker : MetaTracker U} {key : PairKey} {latest : Option U}
  {makers : CallbackHandle → Option (Option Agent × (Option PairKey × Watcher U))}

theorem Serves.untargeted (hfn : tracker.fn = latest) (htarget : tracker.target = none) :
    tracker.Serves key latest makers where
  fn := hfn
  silent := fun target hsome => by rw [htarget] at hsome; contradiction
  callback := fun target hsome => by rw [htarget] at hsome; contradiction

theorem Serves.quiet (hfn : tracker.fn = latest) (hnone : latest = none)
    (hcallback : tracker.targetCallback = kInvalidCallbackHandle) :
    tracker.Serves key latest makers where
  fn := hfn
  silent := fun _ _ _ => hcallback
  callback := fun _ _ fn hsome => by rw [hnone] at hsome; contradiction

end MetaTracker

namespace Process
variable {U : Type} {p q : Process U} {c d : Component (Watcher U)}
  {latest : PairKey → Option U}

def Serves (p : Process U) (latest : PairKey → Option U) : Prop :=
  ∀ (key : PairKey) (tracker : MetaTracker U), p.kernel.trackers[key]? = some tracker →
    tracker.Serves key (latest key) p.callbackMaker

section
variable (hserves : p.Serves latest)
include hserves

theorem Serves.advance {maker : Option Agent} {after : ExtTreeMap PairKey (MetaTracker U)}
    (hnode : p.kernel.node = some c)
    (hnext : d.space.nextCallbackHandle = c.space.nextCallbackHandle ∨
      d.space.nextCallbackHandle = c.space.nextCallbackHandle + 1 ∧
        c.NextUnused p.kernel.trackers p.subscriptionMaker p.callbackMaker)
    {key : PairKey} {tracker : MetaTracker U} (htracked : p.kernel.trackers[key]? = some tracker) :
    tracker.Serves key (latest key) (p.advance maker ⟨some d, after⟩).callbackMaker := by
  obtain ⟨hfn, hsilent, hcallback⟩ := hserves key tracker htracked
  rw [advance_eq (kernel_eq hnode)]
  refine ⟨hfn, hsilent, ?_⟩
  intro target htarget fn hlatest
  obtain ⟨hne, hmade⟩ := hcallback target htarget fn hlatest
  refine ⟨hne, ?_⟩
  rcases hnext with hsame | ⟨hnext, hunused⟩
  · change note maker _ _ _ p.callbackMaker tracker.targetCallback = _
    rw [note_of_eq hsame]
    exact hmade
  · have hother : tracker.targetCallback ≠ c.space.nextCallbackHandle + 1 := by
      intro heq
      have hheld : holderOf MetaTracker.callback p.kernel.trackers ⟨key, .target⟩ =
          some tracker.targetCallback := holder_of_slot MetaTracker.callback htracked hne
      exact hunused.callback.unheld ⟨key, .target⟩ (hheld.trans (congrArg some heq))
    change note maker _ _ _ p.callbackMaker tracker.targetCallback = _
    rw [note, if_neg (by rw [hnext]; simp), Function.update_of_ne (by rw [hnext]; exact hother)]
    exact hmade

theorem Serves.registerTracker {key : PairKey} {fn : Option U} {now : TimePoint}
    (hidle : p.kernel.node = none → ∀ key : PairKey, p.kernel.trackers[key]? = none)
    (horderly : p.Orderly (.registerTracker key fn now))
    (hkeeps : p.KeepsCurrent (.registerTracker key fn now))
    (hstep : p.step (.registerTracker key fn now) = some q) :
    q.Serves (Function.update latest key fn) := by
  have hother : ∀ {asked : PairKey}, asked ≠ key →
      Function.update latest key fn asked = latest asked := fun h => Function.update_of_ne h _ _
  have hq := Option.some.inj hstep
  cases hnode : p.kernel.node with
  | none =>
    rw [Kernel.registerTracker_none hnode (hidle hnode key), stateOf, advance_none hnode] at hq
    subst hq
    intro asked tracker htracked
    rw [hidle hnode asked] at htracked
    contradiction
  | some c =>
    have hunused := horderly c hnode
    obtain ⟨d, after, hresult, htracks⟩ := Kernel.registerTracker_outcome hnode key fn now
    rw [hresult] at hq
    subst hq
    intro asked found hfound
    rw [advance_kernel] at hfound
    cases htracks with
    | @renewed tracker htracked =>
      rcases tracked_insert hfound with ⟨rfl, rfl⟩ | ⟨hne, hbefore⟩
      · rw [Function.update_self]
        by_cases htarget : tracker.target = none
        · exact .untargeted rfl htarget
        · have hsame : fn = tracker.fn := hkeeps tracker htracked htarget
          have hkept : tracker.Serves asked (latest asked) (p.advance (some ⟨asked, .metaPair⟩)
              ⟨some c, p.kernel.trackers.insert asked { tracker with fn }⟩).callbackMaker :=
            hserves.advance hnode (.inl rfl) htracked
          rw [← hkept.fn, ← hsame] at hkept
          exact ⟨rfl, hkept.silent, hkept.callback⟩
      · rw [hother hne]
        exact hserves.advance hnode (.inl rfl) hbefore
    | cutShort huntracked =>
      have hne : asked ≠ key := by
        rintro rfl
        rw [huntracked] at hfound
        contradiction
      rw [hother hne]
      have hspace : (c.recorded key).space = c.space := Component.space_recorded key
      exact hserves.advance hnode (.inl (congrArg PairSpace.nextCallbackHandle hspace)) hfound
    | added huntracked =>
      rcases tracked_insert hfound with ⟨rfl, rfl⟩ | ⟨hne, hbefore⟩
      · rw [Function.update_self]
        exact .untargeted rfl rfl
      · rw [hother hne]
        have hnext := (c.recorded key).next_watched key .onMetaPairChanged now
        rw [Component.space_recorded] at hnext
        exact hserves.advance hnode (.inr ⟨hnext, hunused⟩) hbefore

theorem Serves.cancelMetaCallback {key : PairKey}
    (hidle : p.kernel.node = none → ∀ key : PairKey, p.kernel.trackers[key]? = none)
    (hkeeps : p.KeepsCurrent (.cancelMetaCallback key))
    (hstep : p.step (.cancelMetaCallback key) = some q) : q.Serves latest := by
  rcases cancelMetaCallback_cases hidle hstep with rfl | ⟨c, d, after, hnode, huntracks, rfl⟩
  · exact hserves
  intro asked found hfound
  rw [advance_kernel] at hfound
  cases huntracks with
  | untracked => exact hserves.advance hnode (.inl rfl) hfound
  | @keepsTarget tracker htracked hthrows =>
    have hsame : Component.SameNode c (c.released tracker) := .released tracker
    rcases tracked_insert hfound with ⟨rfl, rfl⟩ | ⟨_, hbefore⟩
    · have hfn := (hserves asked tracker htracked).fn
      have hnone : tracker.fn = none := by
        by_contra hsome
        rw [hkeeps c tracker hnode htracked hsome] at hthrows
        contradiction
      exact .quiet hfn (hfn ▸ hnone) rfl
    · exact hserves.advance hnode (.inl hsame.nextCallbackHandle) hbefore
  | @keepsMeta tracker htracked =>
    have hsame := (Component.SameNode.released tracker (c := c)).trans
      (.cancelSubscriptionHandle tracker.metaSubscription)
    rcases tracked_insert hfound with ⟨rfl, rfl⟩ | ⟨_, hbefore⟩
    · exact .untargeted (hserves asked tracker htracked).fn rfl
    · exact hserves.advance hnode (.inl hsame.nextCallbackHandle) hbefore
  | @forgotten tracker htracked =>
    have hsame := ((Component.SameNode.released tracker (c := c)).trans
      (.cancelSubscriptionHandle tracker.metaSubscription)).trans
        (.cancelCallback tracker.metaCallback)
    exact hserves.advance hnode (.inl hsame.nextCallbackHandle) (tracked_erase hfound).2

theorem Serves.call {call : Call (Watcher U)} {now : TimePoint}
    (horderly : p.Orderly (.call call now)) (hstep : p.step (.call call now) = some q) :
    q.Serves latest := by
  simp only [step] at hstep
  split at hstep
  · split at hstep
    · cases hstep
      exact hserves
    · rename_i c hnode
      cases hstep
      have hunused := horderly c hnode
      intro asked found hfound
      have hbefore : p.kernel.trackers[asked]? = some found := by
        rw [advance_eq (kernel_eq hnode)] at hfound
        exact hfound
      exact hserves.advance hnode ((c.next_enter call now).imp_right fun h => ⟨h, hunused⟩) hbefore
  · contradiction

theorem Serves.notify {index : Nat} {now : TimePoint} (hsane : p.Sane)
    (horderly : p.Orderly (.notify index now)) (hkeeps : p.KeepsCurrent (.notify index now))
    (hstep : p.step (.notify index now) = some q) : q.Serves latest := by
  obtain ⟨notice, pending, hnotice, _, hcases⟩ := notify_cases hsane.idle hstep
  rcases hcases with ⟨_, rfl⟩ | ⟨c, tracker, held, hnode, htracked, hresult, _, rfl⟩
  · cases hnode : p.kernel.node with
    | none =>
      rw [advance_none hnode]
      exact hserves
    | some c =>
      have hkernel := kernel_eq hnode
      rw [hkernel]
      intro asked found hfound
      have hbefore : p.kernel.trackers[asked]? = some found := by
        rw [advance_eq hkernel] at hfound
        exact hfound
      exact hserves.advance hnode (.inl rfl) hbefore
  · have hunused := horderly c hnode
    have hframed : tracker.fn ≠ none →
        MetaTracker.parseMetaValue notice.snapshot.value ≠ tracker.target → _ :=
      fun hsome hchange => hkeeps notice c tracker hnotice hnode htracked hsome hchange
    obtain ⟨d, changed, hrepoint, hrepoints⟩ := Component.repoint_repoints (hsane.filed c hnode)
      hunused.callback.dead now hframed
    cases hrepoint.symm.trans hresult
    have hnext := hrepoints.next.imp_right fun h => And.intro h hunused
    have hserved := hserves notice.snapshot.pairKey tracker htracked
    intro asked found hfound
    have hfound' : (p.kernel.trackers.insert notice.snapshot.pairKey changed)[asked]? =
        some found := by
      rw [advance_eq (kernel_eq hnode)] at hfound
      exact hfound
    rcases tracked_insert hfound' with ⟨rfl, rfl⟩ | ⟨_, hbefore⟩
    · have hfn := hrepoints.fn.trans hserved.fn
      cases hrepoints with
      | stays => exact hserves.advance hnode hnext htracked
      | dropped _ htarget => exact .untargeted hfn htarget
      | silent hnone _ hcallback => exact .quiet hfn (hserved.fn ▸ hnone) hcallback
      | @taken _ _ target fn hsome _ htarget hcallback hmoved hat =>
        have hlatest : latest notice.snapshot.pairKey = some fn := hserved.fn ▸ hsome
        rw [hlatest]
        refine ⟨hfn.trans hlatest, fun _ _ hnone => by contradiction, ?_⟩
        rintro other hother callback heq
        cases heq
        rw [htarget] at hother
        cases hother
        rw [hcallback]
        refine ⟨hunused.callback_ne, ?_⟩
        rw [advance_eq (kernel_eq hnode)]
        change note _ _ _ _ p.callbackMaker _ = _
        rw [note, if_neg (by rw [hmoved]; simp), hmoved, Function.update_self, ← hmoved, hat]
        rfl
    · exact hserves.advance hnode hnext hbefore

theorem Serves.step {action : ProcessAction U} (hsane : p.Sane) (hserving : p.Serving action)
    (hstep : p.step action = some q) : q.Serves (MetaRun.registered latest action) := by
  obtain ⟨horderly, _, hkeeps⟩ := hserving
  cases action with
  | registerTracker key fn now =>
    exact hserves.registerTracker hsane.idle horderly hkeeps hstep
  | cancelMetaCallback key => exact hserves.cancelMetaCallback hsane.idle hkeeps hstep
  | call call now => exact hserves.call horderly hstep
  | notify index now => exact hserves.notify hsane horderly hkeeps hstep
  | initializeNode welcome =>
    simp only [Process.step] at hstep
    split at hstep
    · cases hstep
      exact hserves
    · cases hstep
      exact hserves
  | shutdown =>
    cases hstep
    intro key tracker htracked
    change p.kernel.trackers[key]? = some tracker at htracked
    rw [horderly key] at htracked
    contradiction

end

end Process

namespace MetaRun
variable {U : Type} {run : MetaRun U}

structure Steady (run : MetaRun U) : Prop where
  sane : run.process.Sane
  covered : Covered run.process.callbackTable
  alive : AliveOn (fun agent => agent.slot = .target) run.process.callbackTable
  serves : run.process.Serves run.latest

theorem Steady.step {next : MetaRun U} {action : ProcessAction U} (h : Steady run)
    (hserving : run.process.Serving action) (hstep : run.step action = some next) :
    Steady next := by
  obtain ⟨q, hq, rfl⟩ := Option.map_eq_some_iff.mp hstep
  obtain ⟨hsane, _, hcallbacks⟩ := h.sane.step hserving.1 hq
  have hspared : ∀ handle now, action = .call (.cancelCallback handle) now →
      ∀ key, run.process.callbackTable.holder ⟨key, .target⟩ ≠ some handle := by
    rintro handle now rfl
    exact hserving.2.1 handle rfl
  exact ⟨hsane, h.covered.events not_false hcallbacks,
    h.sane.aliveOn_step h.alive hserving.1 hspared hq, h.serves.step h.sane hserving hq⟩

theorem Steady.reach
    (reach : Reach MetaRun.step (fun run action => run.process.Serving action) start run) :
    Steady run := by
  apply reach.invariant
  · refine ⟨.start, ?_, ?_, ?_⟩
    · intro handle agent v hissued
      contradiction
    · intro agent handle _ hheld
      simp [Process.callbackTable, start, Process.start, holderOf] at hheld
    · intro key tracker htracked
      simp [start, Process.start] at htracked
  · intro before action after hsteady hserving hstep
    exact hsteady.step hserving hstep

theorem Steady.runsLatest (h : Steady run) : run.RunsLatest := by
  intro c key tracker target hnode htracked htarget handle named
  have hserved := h.serves key tracker htracked
  constructor
  · rintro ⟨hruns, hmade⟩
    have hlive := (h.sane.runs_iff hnode).mp hruns
    have hheld := h.covered handle _ named hmade (by rw [hlive]; rfl)
    obtain ⟨found, hfound, hread, hne⟩ := Process.tracked_of_holder hheld
    rw [htracked] at hfound
    cases hfound
    change tracker.targetCallback = handle at hread
    subst hread
    refine ⟨rfl, ?_⟩
    cases hlatest : run.latest key with
    | none => exact absurd (hserved.silent target htarget hlatest) hne
    | some fn =>
      obtain ⟨_, hgiven⟩ := hserved.callback target htarget fn hlatest
      rw [hgiven] at hmade
      cases hmade
      exact ⟨fn, rfl, rfl⟩
  · rintro ⟨rfl, fn, hlatest, rfl⟩
    obtain ⟨hne, hgiven⟩ := hserved.callback target htarget fn hlatest
    have hheld : run.process.callbackTable.holder ⟨key, .target⟩ = some tracker.targetCallback :=
      Process.holder_of_slot MetaTracker.callback htracked hne
    obtain ⟨found, hfound, hmade, _⟩ :=
      Process.own_of_live h.sane.callbacks hheld (h.alive _ _ rfl hheld)
    change run.process.callbackMaker tracker.targetCallback = _ at hmade
    rw [hgiven] at hmade
    cases hmade
    exact ⟨(h.sane.runs_iff hnode).mpr hfound, hgiven⟩

/-- A registration of another function while there is a target leaves the target with what
was registered before. -/
theorem Steady.renewed_stale {next : MetaRun U} {c : Component (Watcher U)} {key : PairKey}
    {tracker : MetaTracker U} {target : PairKey} {fn : Option U} {now : TimePoint}
    (h : Steady run) (hnode : run.process.kernel.node = some c)
    (htracked : run.process.kernel.trackers[key]? = some tracker)
    (htarget : tracker.target = some target) (hfn : fn ≠ tracker.fn)
    (hstep : run.step (.registerTracker key fn now) = some next) : ¬ next.RunsLatest := by
  obtain ⟨q, hq, rfl⟩ := Option.map_eq_some_iff.mp hstep
  have hq := Option.some.inj hq
  have hresult : stateOf (Kernel.registerTracker key fn now run.process.kernel) =
      ⟨some c, run.process.kernel.trackers.insert key { tracker with fn }⟩ := by
    simp only [Kernel.registerTracker, htracked, stateOf, hnode]
  rw [hresult, Process.advance_eq (Process.kernel_eq hnode)] at hq
  simp only [note_of_eq] at hq
  subst hq
  intro hnext
  have hafter := hnext c key { tracker with fn } target rfl ExtTreeMap.getElem?_insert_self htarget
  have hbefore := h.runsLatest c key tracker target hnode htracked htarget
  rw [← (h.serves key tracker htracked).fn] at hbefore
  change Process.TargetRuns _ c key _ target (Function.update run.latest key fn key) at hafter
  rw [Function.update_self] at hafter
  cases hold : tracker.fn with
  | some old =>
    have hown := (hbefore _ _).mpr ⟨rfl, old, hold, rfl⟩
    obtain ⟨_, new, hnew, hnamed⟩ := (hafter _ _).mp hown
    cases hnamed
    exact hfn (hnew.trans hold.symm)
  | none =>
    obtain ⟨new, hnew⟩ := Option.ne_none_iff_exists'.mp (hold ▸ hfn)
    have hown := (hafter _ _).mpr ⟨rfl, new, hnew, rfl⟩
    obtain ⟨_, old, hsome, _⟩ := (hbefore _ _).mp hown
    rw [hold] at hsome
    contradiction

/-- In every run that registers no other function for a meta-pair while its tracker has a
target, a tracker with a target has the function last registered on it, and nothing else. -/
theorem target_runs_latest
    (reach : Reach MetaRun.step (fun run action => run.process.Serving action) start run) :
    run.RunsLatest :=
  (Steady.reach reach).runsLatest

def listening : Process Unit :=
  Process.begun.advance (some ⟨⟨5, [107]⟩, .metaPair⟩)
    ⟨some ((Process.joined.recorded ⟨5, [107]⟩).watched ⟨5, [107]⟩ .onMetaPairChanged 3),
      (∅ : ExtTreeMap PairKey (MetaTracker Unit)).insert ⟨5, [107]⟩ ⟨some (), 1, 1, none, 0, 0⟩⟩

def tracked : MetaRun Unit := ⟨listening, Function.update (fun _ => none) ⟨5, [107]⟩ (some ())⟩

def informed : MetaRun Unit := (tracked.step (.call (Process.pointed [107]) 4)).get rfl

def directed : MetaRun Unit := (informed.step (.notify 0 5)).get rfl

theorem unused_listening {node : Component (Watcher Unit)}
    {subscriptions : SubscriptionHandle → Option (Option Agent × SubscriptionRecord)}
    {callbacks : CallbackHandle → Option (Option Agent × (Option PairKey × Watcher Unit))}
    (hsubscription : node.nextSubscriptionHandle + 1 = 2)
    (hcallback : node.space.nextCallbackHandle + 1 = 2)
    (hrecord : node.subscriptions[(2 : SubscriptionHandle)]? = none)
    (hnone : node.space.callbackAt 2 = none) :
    node.NextUnused listening.kernel.trackers subscriptions callbacks := by
  refine Process.unused_single hsubscription hcallback (by decide) hrecord hnone ?_
  intro slot
  cases slot <;> decide

theorem target_runs_latest_directed : ∃ (run : MetaRun Unit) (c : Component (Watcher Unit)),
    Reach MetaRun.step (fun run action => run.process.Serving action) start run ∧
      run.process.kernel.node = some c ∧
      run.process.OwnCallback c ⟨⟨5, [107]⟩, .target⟩ 2 (some ⟨7, [116]⟩, .user ()) := by
  have hbegun : Reach MetaRun.step (fun run action => run.process.Serving action)
      (start : MetaRun Unit) ⟨Process.begun, fun _ => none⟩ :=
    .tail (a := .initializeNode Process.welcomed) .refl ⟨trivial, trivial, trivial⟩ rfl
  have htracked : Reach MetaRun.step (fun run action => run.process.Serving action) start
      tracked := by
    refine .tail (a := .registerTracker ⟨5, [107]⟩ (some ()) 3) hbegun
      ⟨Process.orderly_begun _ _ _, trivial, ?_⟩ rfl
    intro tracker hfound
    contradiction
  have hinformed : Reach MetaRun.step (fun run action => run.process.Serving action) start
      informed := by
    refine .tail (a := .call (Process.pointed [107]) 4) htracked
      ⟨?_, fun _ hcall => by contradiction, trivial⟩ (Option.some_get _).symm
    intro c hc
    cases hc
    exact unused_listening rfl rfl rfl rfl
  have hdirected : Reach MetaRun.step (fun run action => run.process.Serving action) start
      directed := by
    refine .tail (a := .notify 0 5) hinformed ⟨?_, trivial, ?_⟩ (Option.some_get _).symm
    · intro c hc
      cases hc
      exact unused_listening rfl rfl rfl rfl
    · intro notice c tracker hnotice hc hfound _ _
      cases hnotice
      cases hc
      cases hfound
      refine ⟨rfl, ?_⟩
      intro target htarget
      cases htarget
      rfl
  refine ⟨directed, _, hdirected, rfl, ?_⟩
  exact (target_runs_latest hdirected _ ⟨5, [107]⟩ _ ⟨7, [116]⟩ rfl rfl rfl _ _).mpr
    ⟨rfl, (), rfl, rfl⟩

/-- A callback is registered for a meta-pair, the meta-pair gets a target, and another callback
is registered. -/
def renewed : List (ProcessAction Bool) :=
  [.initializeNode Process.welcomed, .registerTracker ⟨5, [107]⟩ (some false) 3,
    .call (.handle (.pairUpdate { owner := 5, key := [107], value := Process.pointing })) 4,
    .notify 0 5, .registerTracker ⟨5, [107]⟩ (some true) 6]

/-- The tracker has the new callback, and its target has the old one. -/
theorem renewed_target_runs_old : ∃ (run : MetaRun Bool) (c : Component (Watcher Bool)),
    Transition.run MetaRun.step start renewed = some run ∧ run.process.kernel.node = some c ∧
      run.latest ⟨5, [107]⟩ = some true ∧
      run.process.OwnCallback c ⟨⟨5, [107]⟩, .target⟩ 2 (some ⟨7, [116]⟩, .user false) ∧
      ¬ run.RunsLatest := by
  refine ⟨_, _, rfl, rfl, rfl, ⟨rfl, rfl⟩, ?_⟩
  intro hruns
  obtain ⟨_, callback, hlatest, hnamed⟩ :=
    (hruns _ ⟨5, [107]⟩ _ ⟨7, [116]⟩ rfl rfl rfl 2 (some ⟨7, [116]⟩, .user false)).mp ⟨rfl, rfl⟩
  change some true = some callback at hlatest
  cases hlatest
  cases hnamed

end MetaRun

end Srnp
