import Srnp.QueueTrace
import Srnp.Lib.Transition

/-! One frame channel under concurrent use. A call of `send` reads `closed_`,
runs its critical section and then spawns a drain or closes the channel, with
steps of other calls and of the drains in between. A drain pops a frame and
starts its write in one step, since nothing suspends it there; the write then
ends well or with an error. `close` may also be called from outside. -/
namespace Srnp
open Std Transition

/-- Where a call of `send` or `close` is. A call that closes the channel
because it found no room remembers the frame it was sending. -/
inductive SendCall (κ β : Type) where
  | idle
  | locking (bytes : β) (key : Option κ)
  | spawning
  | closing (sender : Option Nat)
  | clearing
deriving DecidableEq

structure ChannelRun (κ β : Type) [Ord κ] [TransOrd κ] where
  channel : FrameChannel κ (Sent κ β)
  calls : ThreadId → SendCall κ β
  /-- Drains about to take the next frame. -/
  ready : Nat
  /-- Drains waiting for a write to end. -/
  awaiting : Nat
  /-- Whether a write has ended with an error. -/
  failed : Bool
  sent : List (Sent κ β)
  pushed : List (Sent κ β)
  refused : List (Sent κ β)
  written : List (Sent κ β)
  drops : List (Drop κ β)
  full : Bool
  /-- Frames whose own call of `send` went on to `close`. -/
  closedBy : List Nat

inductive ChannelAction (κ β : Type) where
  | send (thread : ThreadId) (bytes : β) (key : Option κ)
  | lock (thread : ThreadId)
  | spawn (thread : ThreadId)
  | close (thread : ThreadId)
  | shut (thread : ThreadId)
  | clear (thread : ThreadId)
  | drain
  | writeDone
  | writeFail

def Verdict.resume {κ β : Type} (verdict : Verdict) (stamp : Nat) : SendCall κ β :=
  match verdict with
  | .replaced => .idle
  | .queued => .idle
  | .spawn => .spawning
  | .overfull => .closing (some stamp)

def Verdict.pushes : Verdict → Bool
  | .queued => true
  | .spawn => true
  | _ => false

namespace ChannelRun
variable {κ β : Type} [Ord κ] [TransOrd κ]

def initial : ChannelRun κ β :=
  ⟨.initial, fun _ => .idle, 0, 0, false, [], [], [], [], [], false, []⟩

variable [LawfulEqOrd κ]

/-- The critical section of `send`, with what it did to the frames on record. -/
def lock (run : ChannelRun κ β) (thread : ThreadId) (bytes : β) (key : Option κ) :
    ChannelRun κ β :=
  let frame : Sent κ β := ⟨run.sent.length, bytes, key⟩
  let result := run.channel.sendLocked frame key
  let queue := run.channel.outbox.frames
  { run with
    channel := result.1
    calls := Function.update run.calls thread (result.2.resume frame.stamp)
    sent := run.sent ++ [frame]
    pushed := if result.2.pushes then run.pushed ++ [frame] else run.pushed
    refused := if result.2 = .overfull then run.refused ++ [frame] else run.refused
    drops := match run.channel.outbox.evicts key with
      | some victim => run.drops ++ [⟨victim.bytes, frame, queue.map (·.bytes)⟩]
      | none => run.drops
    full := if queue.length < kMaxOutboxFrames then run.full else true }

def step (run : ChannelRun κ β) : ChannelAction κ β → Option (ChannelRun κ β)
  | .send thread bytes key =>
      match run.calls thread with
      | .idle =>
          if run.channel.closed then some run
          else some { run with calls := Function.update run.calls thread (.locking bytes key) }
      | _ => none
  | .lock thread =>
      match run.calls thread with
      | .locking bytes key => some (run.lock thread bytes key)
      | _ => none
  | .spawn thread =>
      match run.calls thread with
      | .spawning => some { run with
          calls := Function.update run.calls thread .idle, ready := run.ready + 1 }
      | _ => none
  | .close thread =>
      match run.calls thread with
      | .idle => some { run with calls := Function.update run.calls thread (.closing none) }
      | _ => none
  | .shut thread =>
      match run.calls thread with
      | .closing sender => some { run with
          channel := { run.channel with closed := true }
          calls := Function.update run.calls thread
            (if run.channel.closed then .idle else .clearing)
          closedBy := run.closedBy ++ sender.toList }
      | _ => none
  | .clear thread =>
      match run.calls thread with
      | .clearing => some { run with
          channel := { run.channel with outbox := run.channel.outbox.clear }
          calls := Function.update run.calls thread .idle }
      | _ => none
  | .drain =>
      if run.ready = 0 then none
      else
        match run.channel.drainLocked with
        | (channel, some next) => some { run with
            channel, ready := run.ready - 1, awaiting := run.awaiting + 1
            written := run.written ++ [next] }
        | (channel, none) => some { run with channel, ready := run.ready - 1 }
  | .writeDone =>
      if run.awaiting = 0 then none
      else some { run with awaiting := run.awaiting - 1, ready := run.ready + 1 }
  | .writeFail =>
      if run.awaiting = 0 then none
      else some { run with
        channel := { run.channel with outbox := run.channel.outbox.clear, writing := false }
        awaiting := run.awaiting - 1, failed := true }

def trace (run : ChannelRun κ β) : QueueTrace κ β :=
  ⟨run.channel.outbox.frames, run.sent, run.pushed, run.refused, run.written, run.drops,
    run.full⟩

/-- Open, with no write ended in error. -/
def Intact (run : ChannelRun κ β) : Prop := run.channel.closed = false ∧ run.failed = false

/-- Moreover no call is about to close the channel. -/
def Open (run : ChannelRun κ β) : Prop :=
  run.Intact ∧ ∀ thread sender, run.calls thread ≠ .closing sender

inductive Move (run : ChannelRun κ β) : ChannelAction κ β → ChannelRun κ β → Prop
  | ignore {thread : ThreadId} {bytes : β} {key : Option κ} (hcall : run.calls thread = .idle)
      (hclosed : run.channel.closed = true) :
      Move run (.send thread bytes key) run
  | send {thread : ThreadId} {bytes : β} {key : Option κ} (hcall : run.calls thread = .idle)
      (hopen : run.channel.closed = false) :
      Move run (.send thread bytes key)
        { run with calls := Function.update run.calls thread (.locking bytes key) }
  | lock {thread : ThreadId} {bytes : β} {key : Option κ}
      (hcall : run.calls thread = .locking bytes key) :
      Move run (.lock thread) (run.lock thread bytes key)
  | spawn {thread : ThreadId} (hcall : run.calls thread = .spawning) :
      Move run (.spawn thread) { run with
        calls := Function.update run.calls thread .idle, ready := run.ready + 1 }
  | close {thread : ThreadId} (hcall : run.calls thread = .idle) :
      Move run (.close thread)
        { run with calls := Function.update run.calls thread (.closing none) }
  | shut {thread : ThreadId} {sender : Option Nat} (hcall : run.calls thread = .closing sender) :
      Move run (.shut thread) { run with
        channel := { run.channel with closed := true }
        calls := Function.update run.calls thread
          (if run.channel.closed then .idle else .clearing)
        closedBy := run.closedBy ++ sender.toList }
  | clear {thread : ThreadId} (hcall : run.calls thread = .clearing) :
      Move run (.clear thread) { run with
        channel := { run.channel with outbox := run.channel.outbox.clear }
        calls := Function.update run.calls thread .idle }
  | stop (hready : run.ready ≠ 0)
      (hstop : run.channel.closed = true ∨ run.channel.outbox.frames = []) :
      Move run .drain { run with
        channel := { run.channel with writing := false }, ready := run.ready - 1 }
  | take {first : Outbound κ (Sent κ β)} {rest : List (Outbound κ (Sent κ β))}
      {outbox : Outbox κ (Sent κ β)} (hready : run.ready ≠ 0)
      (hopen : run.channel.closed = false) (hqueue : run.channel.outbox.frames = first :: rest)
      (hrest : outbox.frames = rest) :
      Move run .drain { run with
        channel := { run.channel with outbox }
        ready := run.ready - 1, awaiting := run.awaiting + 1
        written := run.written ++ [first.bytes] }
  | writeDone (hawaiting : run.awaiting ≠ 0) :
      Move run .writeDone { run with awaiting := run.awaiting - 1, ready := run.ready + 1 }
  | writeFail (hawaiting : run.awaiting ≠ 0) :
      Move run .writeFail { run with
        channel := { run.channel with outbox := run.channel.outbox.clear, writing := false }
        awaiting := run.awaiting - 1, failed := true }

theorem step_move {run after : ChannelRun κ β} {action : ChannelAction κ β}
    (h : run.step action = some after) : run.Move action after := by
  cases action with
  | send thread bytes key =>
    simp only [step] at h
    split at h
    · rename_i hcall
      split at h
      · rename_i hclosed
        cases Option.some.inj h
        exact .ignore hcall hclosed
      · rename_i hopen
        cases Option.some.inj h
        exact .send hcall (Bool.eq_false_iff.mpr hopen)
    · contradiction
  | lock thread =>
    simp only [step] at h
    split at h
    · rename_i hcall
      cases Option.some.inj h
      exact .lock hcall
    · contradiction
  | spawn thread =>
    simp only [step] at h
    split at h
    · rename_i hcall
      cases Option.some.inj h
      exact .spawn hcall
    · contradiction
  | close thread =>
    simp only [step] at h
    split at h
    · rename_i hcall
      cases Option.some.inj h
      exact .close hcall
    · contradiction
  | shut thread =>
    simp only [step] at h
    split at h
    · rename_i hcall
      cases Option.some.inj h
      exact .shut hcall
    · contradiction
  | clear thread =>
    simp only [step] at h
    split at h
    · rename_i hcall
      cases Option.some.inj h
      exact .clear hcall
    · contradiction
  | drain =>
    have hdrains := run.channel.drainLocked_drains
    simp only [step] at h
    split at h
    · contradiction
    · rename_i hready
      generalize run.channel.drainLocked = result at h hdrains
      obtain ⟨channel, next⟩ := result
      cases hdrains with
      | stopped hstop =>
        cases Option.some.inj h
        exact .stop hready hstop
      | taken hopen hqueue hrest =>
        cases Option.some.inj h
        exact .take hready hopen hqueue hrest
  | writeDone =>
    simp only [step] at h
    split at h
    · contradiction
    · rename_i hawaiting
      cases Option.some.inj h
      exact .writeDone hawaiting
  | writeFail =>
    simp only [step] at h
    split at h
    · contradiction
    · rename_i hawaiting
      cases Option.some.inj h
      exact .writeFail hawaiting

/-! ### Refinement -/

def Overwrites (run : ChannelRun κ β) (key : Option κ) : QueueEvent κ β → Prop
  | .overwrite name behind => key = some name ∧
      run.channel.outbox.frames.length = kMaxOutboxFrames ∧
      ∃ node, run.channel.outbox.coalescable[name]? = some node ∧
        ∀ later ∈ behind, later ∈ run.channel.outbox.frames ∧ node < later.node
  | _ => True

theorem lock_trace (run : ChannelRun κ β) (thread : ThreadId) (bytes : β) (key : Option κ) :
    ∃ event, QueueTrace.Step run.trace event (run.lock thread bytes key).trace ∧
      run.Overwrites key event := by
  have hsends := run.channel.sendLocked_sends ⟨run.sent.length, bytes, key⟩ key
  simp only [lock, trace]
  generalize run.channel.sendLocked ⟨run.sent.length, bytes, key⟩ key = result at hsends ⊢
  obtain ⟨channel, verdict⟩ := result
  cases hsends with
  | @replaced name front back old outbox full hevicts hkey hindex hbefore hold hnewest hafter =>
    subst hkey
    refine ⟨.overwrite name back, ?_, rfl, full, old.node, hindex, ?_⟩
    · simp only [hevicts, hafter, full, Nat.lt_irrefl, if_false, Verdict.pushes, reduceCtorEq]
      exact .replaced full hbefore hold hnewest
    · intro later hlater
      have hsorted := run.channel.outbox.sorted
      rw [hbefore, List.pairwise_append, List.pairwise_cons] at hsorted
      refine ⟨?_, hsorted.2.1.1 later hlater⟩
      rw [hbefore]
      exact List.mem_append_right _ (List.mem_cons_of_mem _ hlater)
  | @queued node outbox room hevicts hafter =>
    refine ⟨.send, ?_, trivial⟩
    simp only [hevicts, hafter, room, if_true]
    cases run.channel.writing <;> exact .queued room
  | @evicted front back victim node outbox full hevicts hbefore hfront hkeyed hafter =>
    refine ⟨.send, ?_, trivial⟩
    simp only [hevicts, hafter, full, Nat.lt_irrefl, if_false]
    cases run.channel.writing <;> exact .evicted full hbefore hfront hkeyed
  | overfull full hevicts hkeyless =>
    refine ⟨.send, ?_, trivial⟩
    simp only [hevicts, full, Nat.lt_irrefl, if_false, Verdict.pushes, if_true]
    exact .refused full hkeyless

inductive Effect (run : ChannelRun κ β) : ChannelAction κ β → ChannelRun κ β → Prop
  | same {action : ChannelAction κ β} {after : ChannelRun κ β} (htrace : after.trace = run.trace) :
      Effect run action after
  | locked {thread : ThreadId} {bytes : β} {key : Option κ}
      (hcall : run.calls thread = .locking bytes key) :
      Effect run (.lock thread) (run.lock thread bytes key)
  | popped {action : ChannelAction κ β} {after : ChannelRun κ β}
      (hstep : QueueTrace.Step run.trace .pop after.trace) : Effect run action after
  | lost {action : ChannelAction κ β} {after : ChannelRun κ β}
      (htrace : after.trace = { run.trace with queue := [] })
      (hlost : after.failed = true ∨ ∃ thread, run.calls thread = .clearing ∧
        after.channel.closed = run.channel.closed) : Effect run action after

theorem step_effect {run after : ChannelRun κ β} {action : ChannelAction κ β}
    (h : run.step action = some after) : Effect run action after := by
  cases step_move h with
  | lock hcall => exact .locked hcall
  | @clear thread hcall => exact .lost rfl (Or.inr ⟨thread, hcall, rfl⟩)
  | take _ _ hqueue hrest =>
    refine .popped ?_
    simp only [trace, hrest]
    rw [hqueue]
    exact .popped rfl
  | writeFail => exact .lost rfl (Or.inl rfl)
  | _ => exact .same rfl

structure Accounted (run : ChannelRun κ β) : Prop where
  clearing : ∀ thread, run.calls thread = .clearing → run.channel.closed = true
  refused : ∀ frame ∈ run.refused,
    (∃ thread, run.calls thread = .closing (some frame.stamp)) ∨ frame.stamp ∈ run.closedBy
  closedBy : ∀ stamp ∈ run.closedBy, run.channel.closed = true

omit [LawfulEqOrd κ] in
theorem Accounted.initial : Accounted (initial : ChannelRun κ β) := by
  constructor <;> simp [ChannelRun.initial]

omit [LawfulEqOrd κ] in
theorem Accounted.move {run after : ChannelRun κ β} (h : run.Accounted) {thread : ThreadId}
    {call : SendCall κ β} (hcalls : after.calls = Function.update run.calls thread call)
    (hcall : call ≠ .clearing)
    (hfrom : ∀ stamp, run.calls thread ≠ .closing (some stamp))
    (hrefused : after.refused = run.refused) (hclosedBy : after.closedBy = run.closedBy)
    (hclosed : after.channel.closed = run.channel.closed) : after.Accounted := by
  constructor
  · intro other hother
    rw [hcalls, Function.update_apply] at hother
    split at hother
    · contradiction
    · rw [hclosed]
      exact h.clearing other hother
  · intro frame hframe
    rw [hrefused] at hframe
    rw [hclosedBy]
    rcases h.refused frame hframe with ⟨other, hother⟩ | hmem
    · left
      refine ⟨other, ?_⟩
      rw [hcalls, Function.update_apply]
      split
      · rename_i heq
        rw [heq] at hother
        exact absurd hother (hfrom frame.stamp)
      · exact hother
    · exact Or.inr hmem
  · rw [hclosedBy, hclosed]
    exact h.closedBy

@[simp] theorem closed_lock (run : ChannelRun κ β) (thread : ThreadId) (bytes : β)
    (key : Option κ) :
    (run.lock thread bytes key).channel.closed = run.channel.closed := by
  have hsends := run.channel.sendLocked_sends ⟨run.sent.length, bytes, key⟩ key
  simp only [lock]
  generalize run.channel.sendLocked ⟨run.sent.length, bytes, key⟩ key = result at hsends ⊢
  obtain ⟨channel, verdict⟩ := result
  cases hsends <;> rfl

theorem Accounted.lock {run : ChannelRun κ β} (h : run.Accounted) {thread : ThreadId} {bytes : β}
    {key : Option κ} (hcall : run.calls thread = .locking bytes key) :
    (run.lock thread bytes key).Accounted := by
  have hkept : ∀ frame ∈ run.refused, (∃ other, (run.lock thread bytes key).calls other =
      .closing (some frame.stamp)) ∨ frame.stamp ∈ run.closedBy := by
    intro frame hframe
    rcases h.refused frame hframe with ⟨other, hother⟩ | hmem
    · left
      refine ⟨other, ?_⟩
      have hne : other ≠ thread := by
        rintro rfl
        rw [hcall] at hother
        contradiction
      rw [← hother]
      exact Function.update_of_ne hne _ _
    · exact Or.inr hmem
  constructor
  · intro other hother
    rw [closed_lock]
    by_cases heq : other = thread
    · subst heq
      simp only [ChannelRun.lock, Function.update_self] at hother
      generalize (run.channel.sendLocked ⟨run.sent.length, bytes, key⟩ key).2 = verdict at hother
      cases verdict <;> contradiction
    · exact h.clearing other ((Function.update_of_ne heq _ _).symm.trans hother)
  · intro frame hframe
    simp only [ChannelRun.lock] at hframe
    split at hframe
    · rename_i hoverfull
      rcases List.mem_append.mp hframe with hframe | hframe
      · exact hkept frame hframe
      · left
        refine ⟨thread, ?_⟩
        simp only [ChannelRun.lock, Function.update_self, hoverfull, Verdict.resume]
        rw [List.mem_singleton.mp hframe]
    · exact hkept frame hframe
  · intro stamp hstamp
    rw [closed_lock]
    exact h.closedBy stamp hstamp

omit [LawfulEqOrd κ] in
theorem Accounted.shut {run : ChannelRun κ β} (h : run.Accounted) {thread : ThreadId}
    {sender : Option Nat} (hcall : run.calls thread = .closing sender) :
    Accounted { run with
      channel := { run.channel with closed := true }
      calls := Function.update run.calls thread (if run.channel.closed then .idle else .clearing)
      closedBy := run.closedBy ++ sender.toList } := by
  refine ⟨fun _ _ => rfl, ?_, fun _ _ => rfl⟩
  intro frame hframe
  rcases h.refused frame hframe with ⟨other, hother⟩ | hmem
  · by_cases heq : other = thread
    · right
      rw [heq, hcall] at hother
      cases hother
      exact List.mem_append_right _ (List.mem_singleton_self _)
    · left
      refine ⟨other, ?_⟩
      rw [← hother]
      exact Function.update_of_ne heq _ _
  · exact Or.inr (List.mem_append_left _ hmem)

theorem Accounted.step {run after : ChannelRun κ β} {action : ChannelAction κ β}
    (h : run.Accounted) (hstep : run.step action = some after) : after.Accounted := by
  cases step_move hstep with
  | ignore => exact h
  | send hcall _ => exact h.move rfl (by simp) (by simp [hcall]) rfl rfl rfl
  | lock hcall => exact h.lock hcall
  | spawn hcall => exact h.move rfl (by simp) (by simp [hcall]) rfl rfl rfl
  | close hcall => exact h.move rfl (by simp) (by simp [hcall]) rfl rfl rfl
  | shut hcall => exact h.shut hcall
  | clear hcall => exact h.move rfl (by simp) (by simp [hcall]) rfl rfl rfl
  | _ => exact ⟨h.clearing, h.refused, h.closedBy⟩

theorem intact_of_step {run after : ChannelRun κ β} {action : ChannelAction κ β}
    (hstep : run.step action = some after) (hintact : after.Intact) : run.Intact := by
  cases step_move hstep with
  | lock hcall =>
    rw [Intact, closed_lock] at hintact
    exact hintact
  | shut hcall => exact absurd hintact.1 (by simp)
  | writeFail => exact absurd hintact.2 (by simp)
  | _ => exact hintact

/-- A step after which the channel is intact refines a step of its trace, or
leaves the trace alone. -/
theorem step_refines {run after : ChannelRun κ β} {action : ChannelAction κ β}
    (h : run.Accounted) (hstep : run.step action = some after) (hintact : after.Intact) :
    after.trace = run.trace ∨ ∃ event, QueueTrace.Step run.trace event after.trace ∧
      ((event = .pop ∧ after.sent = run.sent) ∨ ∃ thread bytes key, action = .lock thread ∧
        run.calls thread = .locking bytes key ∧ run.Overwrites key event ∧
        after.sent = run.sent ++ [⟨run.sent.length, bytes, key⟩]) := by
  cases step_effect hstep with
  | same htrace => exact Or.inl htrace
  | @locked thread bytes key hcall =>
    obtain ⟨event, htrace, hover⟩ := run.lock_trace thread bytes key
    exact Or.inr ⟨event, htrace, Or.inr ⟨thread, bytes, key, rfl, hcall, hover, rfl⟩⟩
  | popped htrace => exact Or.inr ⟨.pop, htrace, Or.inl ⟨rfl, htrace.sent_pop⟩⟩
  | lost htrace hlost =>
    rcases hlost with hfailed | ⟨thread, hcall, hclosed⟩
    · rw [hintact.2] at hfailed
      contradiction
    · have hshut := h.clearing thread hcall
      rw [← hclosed, hintact.1] at hshut
      contradiction

/-! ### Runs -/

theorem handled_step {run after : ChannelRun κ β} {action : ChannelAction κ β}
    (h : run.trace.Handled) (hstep : run.step action = some after) : after.trace.Handled := by
  cases step_effect hstep with
  | same htrace =>
    rw [htrace]
    exact h
  | @locked thread bytes key hcall =>
    obtain ⟨event, htrace, _⟩ := run.lock_trace thread bytes key
    exact h.step htrace
  | popped htrace => exact h.step htrace
  | lost htrace _ =>
    rw [htrace]
    exact h

variable [DecidableEq κ]

structure Consistent (run : ChannelRun κ β) : Prop where
  accounted : run.Accounted
  handled : run.trace.Handled
  valid : run.Intact → run.trace.Valid
  control : run.Intact → run.trace.ControlKept
  newest : run.Intact → run.trace.NewestKept
  drops : run.Intact → run.trace.DropsSound

omit [LawfulEqOrd κ] in
theorem Consistent.initial : Consistent (initial : ChannelRun κ β) where
  accounted := .initial
  handled := by
    intro frame hframe
    contradiction
  valid := fun _ => .start
  control := fun _ => .start
  newest := fun _ => .start
  drops := fun _ => .start

theorem Consistent.step {run after : ChannelRun κ β} {action : ChannelAction κ β}
    (h : run.Consistent) (hstep : run.step action = some after) : after.Consistent := by
  have hkept : ∀ P : QueueTrace κ β → Prop, (run.Intact → P run.trace) →
      (∀ event, run.trace.Valid → P run.trace → QueueTrace.Step run.trace event after.trace →
        P after.trace) → after.Intact → P after.trace := by
    intro P hP hPstep hintact
    have hbefore := intact_of_step hstep hintact
    rcases step_refines h.accounted hstep hintact with hsame | ⟨event, htrace, _⟩
    · rw [hsame]
      exact hP hbefore
    · exact hPstep event (h.valid hbefore) (hP hbefore) htrace
  exact
    { accounted := h.accounted.step hstep
      handled := handled_step h.handled hstep
      valid := hkept _ h.valid fun _ hvalid _ htrace => hvalid.step htrace
      control := hkept _ h.control fun _ hvalid hcontrol htrace => hcontrol.step hvalid htrace
      newest := hkept _ h.newest fun _ hvalid hnewest htrace => hnewest.step hvalid htrace
      drops := hkept _ h.drops fun _ hvalid hdrops htrace => hdrops.step hvalid htrace }

theorem Consistent.of_reach {guard : ChannelRun κ β → ChannelAction κ β → Prop}
    {run : ChannelRun κ β} (h : Reach ChannelRun.step guard ChannelRun.initial run) :
    run.Consistent :=
  h.invariant .initial fun _ _ _ hrun _ hstep => hrun.step hstep

omit [LawfulEqOrd κ] in
theorem Consistent.refused_nil {run : ChannelRun κ β} (h : run.Consistent) (hopen : run.Open) :
    run.refused = [] := by
  rw [List.eq_nil_iff_forall_not_mem]
  intro frame hframe
  rcases h.accounted.refused frame hframe with ⟨thread, hcall⟩ | hmem
  · exact hopen.2 thread _ hcall
  · have hclosed := h.accounted.closedBy frame.stamp hmem
    rw [hopen.1.1] at hclosed
    contradiction

end ChannelRun

end Srnp
