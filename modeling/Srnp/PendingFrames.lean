import Srnp.ClientSession

/-! What becomes of the frames a session holds for a peer that has not come up.
The queue of pending frames keeps the latest of them, whatever they are; only a
pair update has a newer version that makes the older one redundant, so the
frames that may not be lost are the ones without a key. -/
namespace Srnp
open Transition

/-- What a queue that drops its oldest element keeps of all it was given. -/
def latest {α : Type} (list : List α) : List α := list.drop (list.length - kMaxPendingFrames)

theorem latest_concat {α : Type} (list : List α) (last : α) :
    latest (list ++ [last]) =
      (if (latest list).length ≥ kMaxPendingFrames then (latest list).tail else latest list) ++
        [last] := by
  have hle : (list ++ [last]).length - kMaxPendingFrames ≤ list.length := by
    rw [List.length_append, List.length_singleton]
    unfold kMaxPendingFrames
    omega
  unfold latest
  rw [List.drop_append_of_le_length hle, List.length_append, List.length_singleton,
    List.length_drop]
  by_cases hfull : list.length ≥ kMaxPendingFrames
  · have hkept : list.length - (list.length - kMaxPendingFrames) ≥ kMaxPendingFrames := by omega
    have hnext : list.length + 1 - kMaxPendingFrames = list.length - kMaxPendingFrames + 1 := by
      omega
    rw [if_pos hkept, List.tail_drop, hnext]
  · have hkept : ¬ list.length - (list.length - kMaxPendingFrames) ≥ kMaxPendingFrames := by omega
    have hnext : list.length + 1 - kMaxPendingFrames = list.length - kMaxPendingFrames := by omega
    rw [if_neg hkept, hnext]

namespace SessionRun
variable {κ β : Type}

def Unclosed (_ : SessionRun κ β) : SessionAction κ β → Prop
  | .close _ => False
  | _ => True

def keyless (frames : List (Sent κ β)) : List (Sent κ β) :=
  frames.filter fun frame => frame.coalesceKey.isNone

/-- No call of `close` is in progress, and frames are numbered as they come. -/
structure Running (run : SessionRun κ β) : Prop where
  closing : run.session.closing = false
  calls : ∀ thread, run.calls thread ≠ .releasing
  stamps : run.order.map (·.stamp) = List.range run.order.length

/-- Nothing has been passed on yet, and the latest frames are pending. -/
structure Holding (run : SessionRun κ β) : Prop where
  connected : run.session.connected = false
  passed : run.passed = []
  pending : run.session.pending = latest run.order

/-- Of the first `count` frames, those `held` when the connection came up are passed on in order. -/
structure Flushing (count : Nat) (held : List (Sent κ β)) (run : SessionRun κ β) : Prop where
  phase : run.phase ≠ .connecting
  connected : run.session.connected = true
  sent : count ≤ run.order.length
  early : ∀ frame ∈ run.waiting, frame.stamp < count
  split : run.passed.filter (·.stamp < count) ++ run.waiting = held
  ended : run.phase = .ended → run.waiting = []

variable {run after : SessionRun κ β} {action : SessionAction κ β}

theorem Running.initial : Running (initial : SessionRun κ β) where
  closing := rfl
  calls := by simp [SessionRun.initial]
  stamps := rfl

theorem Holding.initial : Holding (initial : SessionRun κ β) :=
  ⟨rfl, rfl, List.drop_nil.symm⟩

theorem Running.step (h : run.Running) (hguard : Unclosed run action)
    (hstep : run.step action = some after) : after.Running := by
  have hmove : ∀ (thread : ThreadId) (call : SessionCall κ β), call ≠ .releasing →
      ∀ other, Function.update run.calls thread call other ≠ .releasing := by
    intro thread call hcall other
    rw [Function.update_apply]
    split
    · exact hcall
    · exact h.calls other
  cases step_move hstep with
  | send => exact ⟨h.closing, hmove _ _ (by simp), h.stamps⟩
  | @lock thread bytes key hcall =>
    refine ⟨?_, hmove _ _ (by simp), ?_⟩
    · simp only [SessionRun.lock, ClientSession.sendLocked]
      split <;> exact h.closing
    · simp only [SessionRun.lock, List.map_append, h.stamps, List.length_append,
        List.length_singleton, List.range_succ]
      rfl
  | close => contradiction
  | release hcall => exact absurd hcall (h.calls _)
  | _ => exact ⟨h.closing, h.calls, h.stamps⟩

theorem Holding.step (h : run.phase = .connecting → run.Holding) (hrunning : run.Running)
    (hguard : Unclosed run action) (hstep : run.step action = some after)
    (hphase : after.phase = .connecting) : after.Holding := by
  cases step_move hstep with
  | ignore => exact h hphase
  | send => exact ⟨(h hphase).connected, (h hphase).passed, (h hphase).pending⟩
  | lock =>
    have hheld := h hphase
    have hidle : ¬ run.session.connected = true := by
      rw [hheld.connected]
      exact Bool.false_ne_true
    refine ⟨?_, ?_, ?_⟩
    · simp only [SessionRun.lock, ClientSession.sendLocked, if_neg hidle]
      exact hheld.connected
    · simp only [SessionRun.lock, ClientSession.sendLocked, if_neg hidle, hheld.passed,
        List.append_nil]
    · simp only [SessionRun.lock, ClientSession.sendLocked, if_neg hidle, hheld.pending,
        latest_concat]
  | flush hflushing =>
    rw [hflushing] at hphase
    contradiction
  | release hcall => exact absurd hcall (hrunning.calls _)
  | close | adopt | abandon | finish => contradiction

theorem Flushing.step {count : Nat} {held : List (Sent κ β)} (h : run.Flushing count held)
    (hrunning : run.Running) (hguard : Unclosed run action)
    (hstep : run.step action = some after) : after.Flushing count held := by
  cases step_move hstep with
  | ignore => exact h
  | send => exact ⟨h.phase, h.connected, h.sent, h.early, h.split, h.ended⟩
  | lock =>
    refine ⟨h.phase, ?_, ?_, h.early, ?_, h.ended⟩
    · simp only [SessionRun.lock, ClientSession.sendLocked, if_pos h.connected]
      exact h.connected
    · simp only [SessionRun.lock, List.length_append]
      exact h.sent.trans (Nat.le_add_right _ _)
    · simp only [SessionRun.lock, ClientSession.sendLocked, if_pos h.connected]
      rw [List.filter_append, List.filter_cons_of_neg (by simpa using h.sent), List.filter_nil,
        List.append_nil]
      exact h.split
  | adopt hphase => exact absurd hphase h.phase
  | abandon hphase => exact absurd hphase h.phase
  | @flush frame rest hphase hwaiting =>
    have hearly : frame.stamp < count := h.early frame (hwaiting ▸ List.mem_cons_self)
    refine ⟨h.phase, h.connected, h.sent, ?_, ?_, ?_⟩
    · intro later hlater
      exact h.early later (hwaiting ▸ List.mem_cons_of_mem frame hlater)
    · rw [← h.split, hwaiting, List.filter_append,
        List.filter_cons_of_pos (by simpa using hearly), List.filter_nil]
      simp
    · intro hended
      change run.phase = .ended at hended
      rw [hphase] at hended
      contradiction
  | finish _ hwaiting => exact ⟨by simp, h.connected, h.sent, h.early, h.split, fun _ => hwaiting⟩
  | close => contradiction
  | release hcall => exact absurd hcall (hrunning.calls _)

theorem Running.of_reach {start : SessionRun κ β} (hstart : start.Running)
    (h : Reach SessionRun.step Unclosed start run) : run.Running :=
  h.invariant hstart fun _ _ _ hbefore hguard hstep => hbefore.step hguard hstep

theorem Holding.of_reach (h : Reach SessionRun.step Unclosed SessionRun.initial run)
    (hphase : run.phase = .connecting) : run.Holding := by
  have hall : run.Running ∧ (run.phase = .connecting → run.Holding) := by
    refine h.invariant (I := fun run => run.Running ∧ (run.phase = .connecting → run.Holding))
      ⟨.initial, fun _ => .initial⟩ ?_
    intro before action next hbefore hguard hstep
    exact ⟨hbefore.1.step hguard hstep,
      fun hnext => Holding.step hbefore.2 hbefore.1 hguard hstep hnext⟩
  exact hall.2 hphase

theorem Running.stamp_lt (h : run.Running) {frame : Sent κ β} (hframe : frame ∈ run.order) :
    frame.stamp < run.order.length := by
  rw [← List.mem_range, ← h.stamps]
  exact List.mem_map_of_mem hframe

theorem Running.nodup (h : run.Running) : run.order.Nodup := by
  apply List.Nodup.of_map (·.stamp)
  rw [h.stamps]
  exact List.nodup_range

/-- Connecting hands over the latest frames, and nothing sent later falls between them. -/
theorem passed_latest {up later : SessionRun κ β}
    (hbefore : Reach SessionRun.step Unclosed SessionRun.initial run)
    (hadopt : run.step .adopt = some up) (hafter : Reach SessionRun.step Unclosed up later)
    (hended : later.phase = .ended) :
    later.passed.filter (·.stamp < run.order.length) = latest run.order := by
  have hrunning := Running.of_reach .initial hbefore
  have hup : up.Running := hrunning.step (show Unclosed run .adopt from trivial) hadopt
  cases step_move hadopt with
  | adopt hphase =>
    have hheld := Holding.of_reach hbefore hphase
    have hstart : Flushing run.order.length (latest run.order) { run with
        session := { run.session with connected := true, pending := [] }
        phase := .flushing
        waiting := run.session.pending } := by
      refine ⟨by simp, rfl, Nat.le_refl _, ?_, ?_, by simp⟩
      · intro frame hframe
        change frame ∈ run.session.pending at hframe
        rw [hheld.pending] at hframe
        exact hrunning.stamp_lt (List.mem_of_mem_drop hframe)
      · change run.passed.filter _ ++ run.session.pending = _
        rw [hheld.passed, hheld.pending, List.filter_nil, List.nil_append]
    have hall : later.Running ∧ Flushing run.order.length (latest run.order) later := by
      refine hafter.invariant (I := fun later => later.Running ∧
        Flushing run.order.length (latest run.order) later) ⟨hup, hstart⟩ ?_
      intro before action next hprior hguard hstep
      exact ⟨hprior.1.step hguard hstep, hprior.2.step hprior.1 hguard hstep⟩
    have hsplit := hall.2.split
    rw [hall.2.ended hended, List.append_nil] at hsplit
    exact hsplit
  | abandon _ hclosing =>
    rw [hrunning.closing] at hclosing
    contradiction

theorem pushed_out_not_passed {up later : SessionRun κ β}
    (hbefore : Reach SessionRun.step Unclosed SessionRun.initial run)
    (hadopt : run.step .adopt = some up) (hafter : Reach SessionRun.step Unclosed up later)
    (hended : later.phase = .ended) {frame : Sent κ β}
    (hframe : frame ∈ run.order.take (run.order.length - kMaxPendingFrames)) :
    frame ∉ later.passed := by
  intro hlater
  have hrunning := Running.of_reach .initial hbefore
  have hlatest : frame ∈ latest run.order := by
    rw [← passed_latest hbefore hadopt hafter hended, List.mem_filter, decide_eq_true_iff]
    exact ⟨hlater, hrunning.stamp_lt (List.mem_of_mem_take hframe)⟩
  have hnodup := hrunning.nodup
  rw [← List.take_append_drop (run.order.length - kMaxPendingFrames) run.order,
    List.nodup_append] at hnodup
  exact hnodup.2.2 frame hframe frame hlatest rfl

/-- All the keyless frames sent before the connection came up reach the channel, in order, exactly
if every frame that the cap pushed out had a key. -/
theorem keyless_passed_iff {up later : SessionRun κ β}
    (hbefore : Reach SessionRun.step Unclosed SessionRun.initial run)
    (hadopt : run.step .adopt = some up) (hafter : Reach SessionRun.step Unclosed up later)
    (hended : later.phase = .ended) :
    List.Sublist (keyless run.order) later.passed ↔
      ∀ frame ∈ run.order.take (run.order.length - kMaxPendingFrames),
        frame.coalesceKey.isSome := by
  have hpassed := passed_latest hbefore hadopt hafter hended
  have hsplit : run.order.take (run.order.length - kMaxPendingFrames) ++ latest run.order =
      run.order := List.take_append_drop _ _
  constructor
  · intro hkept frame hframe
    by_contra hkeyless
    apply pushed_out_not_passed hbefore hadopt hafter hended hframe
    apply hkept.subset
    refine List.mem_filter.mpr ⟨List.mem_of_mem_take hframe, ?_⟩
    simpa using hkeyless
  · intro hkeyed
    have hnone : keyless (run.order.take (run.order.length - kMaxPendingFrames)) = [] := by
      rw [keyless, List.filter_eq_nil_iff]
      intro frame hframe
      have hkey := hkeyed frame hframe
      simpa [Option.isSome_iff_ne_none] using hkey
    have hlatest : keyless run.order = keyless (latest run.order) := by
      conv_lhs => rw [← hsplit]
      rw [keyless, List.filter_append]
      change keyless _ ++ keyless _ = _
      rw [hnone, List.nil_append]
    rw [hlatest, ← hpassed]
    exact List.filter_sublist.trans List.filter_sublist

/-! A pair update and a subscription are sent before the connection comes up. -/

theorem keyless_passed_iff_two : ∃ run up later : SessionRun Nat Nat,
    Reach SessionRun.step Unclosed SessionRun.initial run ∧ run.step .adopt = some up ∧
      Reach SessionRun.step Unclosed up later ∧ later.phase = .ended ∧
      (keyless run.order).map (·.bytes) = [11] ∧
      List.Sublist (keyless run.order) later.passed := by
  let stays (_ : SessionRun Nat Nat) (action : SessionAction Nat Nat) : Bool :=
    match action with
    | .close _ => false
    | _ => true
  have hstays : ∀ run action, stays run action → Unclosed run action := by
    intro run action hcheck
    cases action with
    | close thread => contradiction
    | _ => trivial
  have hrun : ∃ run up later : SessionRun Nat Nat,
      Reach SessionRun.step Unclosed SessionRun.initial run ∧ run.step .adopt = some up ∧
        Reach SessionRun.step Unclosed up later ∧ later.phase = .ended ∧
        run.order.length = 2 ∧ (keyless run.order).map (·.bytes) = [11] :=
    ⟨_, _, _, Reach.of_checked hstays [.send 0 10 (some 1), .lock 0, .send 0 11 none, .lock 0] rfl,
      rfl, Reach.of_checked hstays [.flush, .flush, .flush] rfl, rfl, rfl, rfl⟩
  obtain ⟨run, up, later, hbefore, hadopt, hafter, hended, hlength, hkeyless⟩ := hrun
  refine ⟨run, up, later, hbefore, hadopt, hafter, hended, hkeyless, ?_⟩
  rw [keyless_passed_iff hbefore hadopt hafter hended, hlength]
  intro frame hframe
  contradiction

/-! ### Too many frames without a key -/

theorem reach_sent (bytes : β) (count : Nat) : ∃ run : SessionRun κ β,
    Reach SessionRun.step Unclosed SessionRun.initial run ∧ run.phase = .connecting ∧
      run.calls 0 = .idle ∧ run.order.length = count ∧
      ∀ frame ∈ run.order, frame.coalesceKey = none := by
  induction count with
  | zero => exact ⟨_, .refl, rfl, rfl, rfl, by simp [SessionRun.initial]⟩
  | succ count ih =>
    obtain ⟨run, hreach, hphase, hidle, hlength, hkeyless⟩ := ih
    have hopen : ¬ run.session.closing = true := by
      rw [(Running.of_reach .initial hreach).closing]
      exact Bool.false_ne_true
    let sending : SessionRun κ β :=
      { run with calls := Function.update run.calls 0 (.locking bytes none) }
    have hsend : run.step (.send 0 bytes none) = some sending := by
      simp only [SessionRun.step, hidle, if_neg hopen]
      rfl
    have hlock : sending.step (.lock 0) = some (sending.lock 0 bytes none) := by
      simp only [SessionRun.step, sending, Function.update_self]
    have hsent : Reach SessionRun.step Unclosed SessionRun.initial sending :=
      .tail (a := .send 0 bytes none) hreach trivial hsend
    refine ⟨sending.lock 0 bytes none, .tail (a := .lock 0) hsent trivial hlock, hphase, ?_, ?_, ?_⟩
    · simp only [SessionRun.lock, Function.update_self]
    · simp only [SessionRun.lock, List.length_append, List.length_singleton]
      exact congrArg (· + 1) hlength
    · intro frame hframe
      rcases List.mem_append.mp hframe with hold | hnew
      · exact hkeyless frame hold
      · rw [List.mem_singleton.mp hnew]

theorem reach_ended (up : SessionRun κ β) (hphase : up.phase = .flushing) :
    ∃ later, Reach SessionRun.step Unclosed up later ∧ later.phase = .ended := by
  obtain ⟨waiting, hwaiting⟩ : ∃ waiting, up.waiting = waiting := ⟨_, rfl⟩
  induction waiting generalizing up with
  | nil =>
    refine ⟨{ up with phase := .ended }, .tail (a := .flush) .refl trivial ?_, rfl⟩
    simp only [SessionRun.step, hphase, hwaiting]
  | cons frame rest ih =>
    obtain ⟨later, hlater, hended⟩ :=
      ih { up with waiting := rest, passed := up.passed ++ [frame] } hphase rfl
    refine ⟨later, Reach.trans (.tail (a := .flush) .refl trivial ?_) hlater, hended⟩
    simp only [SessionRun.step, hphase, hwaiting]

/-- The first of more subscriptions than the queue holds is lost. -/
theorem first_subscription_lost :
    ¬ ∀ run up later : SessionRun Nat Nat,
      Reach SessionRun.step Unclosed SessionRun.initial run → run.step .adopt = some up →
      Reach SessionRun.step Unclosed up later → later.phase = .ended →
      List.Sublist (keyless run.order) later.passed := by
  intro hclaim
  obtain ⟨run, hbefore, hphase, _, hlength, hkeyless⟩ :=
    reach_sent (κ := Nat) 0 (kMaxPendingFrames + 1)
  have hadopt : run.step .adopt = some { run with
      session := { run.session with connected := true, pending := [] }
      phase := .flushing
      waiting := run.session.pending } := by
    have hopen := (Running.of_reach .initial hbefore).closing
    simp only [SessionRun.step, hphase, ClientSession.adopt, hopen, Bool.false_eq_true, if_false]
  obtain ⟨later, hafter, hended⟩ := reach_ended _ (rfl : ({ run with
      session := { run.session with connected := true, pending := [] }
      phase := .flushing
      waiting := run.session.pending } : SessionRun Nat Nat).phase = .flushing)
  cases horder : run.order with
  | nil =>
    rw [horder] at hlength
    contradiction
  | cons first rest =>
    have hfirst : first ∈ run.order.take (run.order.length - kMaxPendingFrames) := by
      rw [hlength, Nat.add_sub_cancel_left, horder]
      exact List.mem_cons_self
    apply pushed_out_not_passed hbefore hadopt hafter hended hfirst
    apply (hclaim run _ later hbefore hadopt hafter hended).subset
    refine List.mem_filter.mpr ⟨List.mem_of_mem_take hfirst, ?_⟩
    rw [hkeyless first (List.mem_of_mem_take hfirst)]
    rfl

end SessionRun

end Srnp
