import Srnp.QueueTrace
import Srnp.Lib.Transition

/-! A client session: frames wait in `pending_` until a connection comes up.
`connect` adopts the channel and takes the pending frames in one critical
section, and passes them to the channel after it. A call of `send` that locks
the session in between finds the channel and passes its frame at once, ahead of
frames that were queued before it. -/
namespace Srnp
open Transition

def kMaxPendingFrames : Nat := 1024

structure ClientSession (β : Type) where
  closing : Bool
  /-- Whether `channel_` is set. -/
  connected : Bool
  pending : List β

namespace ClientSession
variable {β : Type}

def initial : ClientSession β := ⟨false, false, []⟩

/-- The critical section of `send`, with the frames it passes to the channel. -/
def sendLocked (session : ClientSession β) (frame : β) : ClientSession β × List β :=
  if session.connected then (session, [frame])
  else
    let pending := if session.pending.length ≥ kMaxPendingFrames then session.pending.tail
      else session.pending
    ({ session with pending := pending ++ [frame] }, [])

def discards (session : ClientSession β) : Option β :=
  if session.connected then none
  else if session.pending.length ≥ kMaxPendingFrames then session.pending.head? else none

/-- The critical section of `connect`. A session that is closing has no use for
the channel. -/
def adopt (session : ClientSession β) : Option (ClientSession β × List β) :=
  if session.closing then none
  else some ({ session with connected := true, pending := [] }, session.pending)

/-- The critical section of `close`. -/
def release (session : ClientSession β) : ClientSession β :=
  { session with connected := false, pending := [] }

variable (session : ClientSession β) (frame : β)

theorem sendLocked_closing : (session.sendLocked frame).1.closing = session.closing := by
  unfold sendLocked
  split <;> rfl

theorem sendLocked_connected : (session.sendLocked frame).1.connected = session.connected := by
  unfold sendLocked
  split <;> rfl

variable {session frame} in
theorem mem_sendLocked {queued : β} (h : queued ∈ (session.sendLocked frame).1.pending) :
    queued ∈ session.pending ∨ queued = frame := by
  unfold sendLocked at h
  split at h
  · exact Or.inl h
  · rcases List.mem_append.mp h with hold | hnew
    · left
      split at hold
      · exact List.mem_of_mem_tail hold
      · exact hold
    · exact Or.inr (List.mem_singleton.mp hnew)

end ClientSession

inductive SessionCall (κ β : Type) where
  | idle
  | locking (bytes : β) (key : Option κ)
  | releasing

/-- `run` connects once: it is trying to, passing on what was pending, or done. -/
inductive ConnectPhase where
  | connecting
  | flushing
  | ended
deriving DecidableEq

structure SessionRun (κ β : Type) where
  session : ClientSession (Sent κ β)
  calls : ThreadId → SessionCall κ β
  phase : ConnectPhase
  /-- Taken from `pending_` by `connect`, not yet passed on. -/
  waiting : List (Sent κ β)
  /-- Frames in the order their calls locked the session. -/
  order : List (Sent κ β)
  /-- Frames in the order they were passed to the channel. -/
  passed : List (Sent κ β)
  /-- Frames discarded by the cap on pending frames. -/
  discarded : List Nat
  /-- Frames thrown away by `close`. -/
  cleared : List (Sent κ β)

inductive SessionAction (κ β : Type) where
  | send (thread : ThreadId) (bytes : β) (key : Option κ)
  | lock (thread : ThreadId)
  | adopt
  | flush
  | close (thread : ThreadId)
  | release (thread : ThreadId)

namespace SessionRun
variable {κ β : Type}

def initial : SessionRun κ β :=
  ⟨.initial, fun _ => .idle, .connecting, [], [], [], [], []⟩

def lock (run : SessionRun κ β) (thread : ThreadId) (bytes : β) (key : Option κ) :
    SessionRun κ β :=
  let frame : Sent κ β := ⟨run.order.length, bytes, key⟩
  let result := run.session.sendLocked frame
  { run with
    session := result.1
    calls := Function.update run.calls thread .idle
    order := run.order ++ [frame]
    passed := run.passed ++ result.2
    discarded := run.discarded ++ (run.session.discards.map (·.stamp)).toList }

def step (run : SessionRun κ β) : SessionAction κ β → Option (SessionRun κ β)
  | .send thread bytes key =>
      match run.calls thread with
      | .idle =>
          if run.session.closing then some run
          else some { run with calls := Function.update run.calls thread (.locking bytes key) }
      | _ => none
  | .lock thread =>
      match run.calls thread with
      | .locking bytes key => some (run.lock thread bytes key)
      | _ => none
  | .adopt =>
      match run.phase with
      | .connecting =>
          match run.session.adopt with
          | some (session, waiting) => some { run with session, phase := .flushing, waiting }
          | none => some { run with phase := .ended }
      | _ => none
  | .flush =>
      match run.phase, run.waiting with
      | .flushing, frame :: rest =>
          some { run with waiting := rest, passed := run.passed ++ [frame] }
      | .flushing, [] => some { run with phase := .ended }
      | _, _ => none
  | .close thread =>
      match run.calls thread with
      | .idle => some { run with
          session := { run.session with closing := true }
          calls := Function.update run.calls thread .releasing }
      | _ => none
  | .release thread =>
      match run.calls thread with
      | .releasing => some { run with
          session := run.session.release
          calls := Function.update run.calls thread .idle
          cleared := run.cleared ++ run.session.pending }
      | _ => none

inductive Move (run : SessionRun κ β) : SessionAction κ β → SessionRun κ β → Prop
  | ignore {thread : ThreadId} {bytes : β} {key : Option κ} (hcall : run.calls thread = .idle)
      (hclosing : run.session.closing = true) :
      Move run (.send thread bytes key) run
  | send {thread : ThreadId} {bytes : β} {key : Option κ} (hcall : run.calls thread = .idle)
      (hopen : run.session.closing = false) :
      Move run (.send thread bytes key)
        { run with calls := Function.update run.calls thread (.locking bytes key) }
  | lock {thread : ThreadId} {bytes : β} {key : Option κ}
      (hcall : run.calls thread = .locking bytes key) :
      Move run (.lock thread) (run.lock thread bytes key)
  | adopt (hphase : run.phase = .connecting) (hopen : run.session.closing = false) :
      Move run .adopt { run with
        session := { run.session with connected := true, pending := [] }
        phase := .flushing
        waiting := run.session.pending }
  | abandon (hphase : run.phase = .connecting) (hclosing : run.session.closing = true) :
      Move run .adopt { run with phase := .ended }
  | flush {frame : Sent κ β} {rest : List (Sent κ β)} (hphase : run.phase = .flushing)
      (hwaiting : run.waiting = frame :: rest) :
      Move run .flush { run with waiting := rest, passed := run.passed ++ [frame] }
  | finish (hphase : run.phase = .flushing) (hwaiting : run.waiting = []) :
      Move run .flush { run with phase := .ended }
  | close {thread : ThreadId} (hcall : run.calls thread = .idle) :
      Move run (.close thread) { run with
        session := { run.session with closing := true }
        calls := Function.update run.calls thread .releasing }
  | release {thread : ThreadId} (hcall : run.calls thread = .releasing) :
      Move run (.release thread) { run with
        session := run.session.release
        calls := Function.update run.calls thread .idle
        cleared := run.cleared ++ run.session.pending }

theorem step_move {run after : SessionRun κ β} {action : SessionAction κ β}
    (h : run.step action = some after) : run.Move action after := by
  cases action with
  | send thread bytes key =>
    simp only [step] at h
    split at h
    · rename_i hcall
      split at h
      · rename_i hclosing
        cases Option.some.inj h
        exact .ignore hcall hclosing
      · rename_i hopen
        cases Option.some.inj h
        exact .send hcall (Bool.eq_false_iff.mpr hopen)
    · contradiction
  | lock thread =>
    simp only [step] at h
    split at h
    · rename_i hcall
      cases Option.some.inj h
      exact .lock hcall
    · contradiction
  | adopt =>
    simp only [step] at h
    split at h
    · rename_i hphase
      unfold ClientSession.adopt at h
      by_cases hclosing : run.session.closing = true
      · rw [if_pos hclosing] at h
        cases Option.some.inj h
        exact .abandon hphase hclosing
      · rw [if_neg hclosing] at h
        cases Option.some.inj h
        exact .adopt hphase (Bool.eq_false_iff.mpr hclosing)
    · contradiction
  | flush =>
    simp only [step] at h
    split at h
    · rename_i hphase hwaiting
      cases Option.some.inj h
      exact .flush hphase hwaiting
    · rename_i hphase hwaiting
      cases Option.some.inj h
      exact .finish hphase hwaiting
    · contradiction
  | close thread =>
    simp only [step] at h
    split at h
    · rename_i hcall
      cases Option.some.inj h
      exact .close hcall
    · contradiction
  | release thread =>
    simp only [step] at h
    split at h
    · rename_i hcall
      cases Option.some.inj h
      exact .release hcall
    · contradiction

/-- The frames sent, in order, without those the cap on pending frames discarded. -/
def kept (run : SessionRun κ β) : List (Sent κ β) :=
  run.order.filter fun frame => frame.stamp ∉ run.discarded

/-- Frames reach the channel in the order in which they were sent. -/
def PassedInOrder (run : SessionRun κ β) : Prop := run.passed <+: run.kept

/-- A call of `send` that finds the channel has to wait for the pending frames. -/
def FlushFirst (run : SessionRun κ β) : SessionAction κ β → Prop
  | .lock _ => run.session.connected = true → run.waiting = []
  | _ => True

/-- What is not passed yet follows what is, in order: first what `connect` took,
then what `close` threw away, then what is pending. -/
structure Aligned (run : SessionRun κ β) : Prop where
  stamped : ∀ frame ∈ run.order, frame.stamp < run.order.length
  ascending : run.order.Pairwise fun earlier later => earlier.stamp < later.stamp
  bounded : ∀ stamp ∈ run.discarded, stamp < run.order.length
  split : run.kept = run.passed ++ run.waiting ++ run.cleared ++ run.session.pending
  connecting : run.phase = .connecting → run.waiting = []
  connected : run.session.connected = true → run.session.pending = [] ∧ run.cleared = []
  cleared : run.cleared ≠ [] → run.session.closing = true

theorem Aligned.initial : Aligned (initial : SessionRun κ β) where
  stamped := by simp [SessionRun.initial]
  ascending := List.Pairwise.nil
  bounded := by simp [SessionRun.initial]
  split := rfl
  connecting := fun _ => rfl
  connected := by simp [SessionRun.initial, ClientSession.initial]
  cleared := by simp [SessionRun.initial]

variable {run after : SessionRun κ β}

theorem kept_concat {order : List (Sent κ β)} {discarded : List Nat} {frame : Sent κ β}
    (h : frame.stamp ∉ discarded) :
    (order ++ [frame]).filter (fun sent => sent.stamp ∉ discarded) =
      order.filter (fun sent => sent.stamp ∉ discarded) ++ [frame] := by
  rw [List.filter_append, List.filter_cons_of_pos (by simpa using h)]
  rfl

theorem kept_discard (order : List (Sent κ β)) (discarded : List Nat) (stamp : Nat) :
    order.filter (fun sent => sent.stamp ∉ discarded ++ [stamp]) =
      (order.filter fun sent => sent.stamp ∉ discarded).filter fun sent => sent.stamp ≠ stamp := by
  rw [List.filter_filter]
  apply List.filter_congr
  intro sent _
  by_cases heq : sent.stamp = stamp <;> by_cases hmem : sent.stamp ∈ discarded <;>
    simp [heq, hmem]

theorem Aligned.next_not_discarded (h : run.Aligned) : run.order.length ∉ run.discarded := by
  intro hmem
  exact Nat.lt_irrefl _ (h.bounded _ hmem)

theorem Aligned.lock_split (h : run.Aligned) {thread : ThreadId} {bytes : β} {key : Option κ}
    (hguard : run.session.connected = true → run.waiting = []) :
    (run.lock thread bytes key).kept =
      (run.lock thread bytes key).passed ++ run.waiting ++ run.cleared ++
        (run.lock thread bytes key).session.pending := by
  have hsplit := h.split
  unfold kept at hsplit
  by_cases hconnected : run.session.connected = true
  · obtain ⟨hpending, hcleared⟩ := h.connected hconnected
    simp only [lock, kept, ClientSession.sendLocked, ClientSession.discards, hconnected, if_true,
      Option.map_none, Option.toList_none, List.append_nil]
    rw [kept_concat h.next_not_discarded, hsplit, hguard hconnected, hpending, hcleared]
    simp
  · by_cases hfull : run.session.pending.length ≥ kMaxPendingFrames
    · cases hpending : run.session.pending with
      | nil =>
        rw [hpending] at hfull
        contradiction
      | cons oldest rest =>
        rw [hpending] at hfull hsplit
        have hascending := h.ascending.filter fun sent => sent.stamp ∉ run.discarded
        rw [hsplit] at hascending
        have hmem : oldest ∈ run.order := by
          apply List.mem_of_mem_filter (p := fun sent => sent.stamp ∉ run.discarded)
          rw [hsplit]
          simp
        have hfresh : run.order.length ∉ run.discarded ++ [oldest.stamp] := by
          have hlt := h.stamped oldest hmem
          simp only [List.mem_append, List.mem_singleton, not_or]
          exact ⟨h.next_not_discarded, by omega⟩
        simp only [lock, kept, ClientSession.sendLocked, ClientSession.discards, hconnected,
          hpending, hfull, if_true, List.head?_cons, Option.map_some, Option.toList_some,
          List.tail_cons, List.append_nil, Bool.false_eq_true, if_false]
        rw [kept_concat hfresh, kept_discard, hsplit, Ascending.filter_ne hascending]
        simp
    · simp only [lock, kept, ClientSession.sendLocked, ClientSession.discards, hconnected, hfull,
        Option.map_none, Option.toList_none, List.append_nil, Bool.false_eq_true, if_false]
      rw [kept_concat h.next_not_discarded, hsplit]
      simp

theorem Aligned.discards_lt (h : run.Aligned) {oldest : Sent κ β}
    (holdest : run.session.discards = some oldest) : oldest.stamp < run.order.length := by
  unfold ClientSession.discards at holdest
  split at holdest
  · contradiction
  · split at holdest
    · have hmem := List.mem_of_mem_head? holdest
      apply h.stamped
      apply List.mem_of_mem_filter (p := fun sent => sent.stamp ∉ run.discarded)
      change oldest ∈ run.kept
      rw [h.split]
      exact List.mem_append_right _ hmem
    · contradiction

theorem Aligned.lock (h : run.Aligned) {thread : ThreadId} {bytes : β} {key : Option κ}
    (hguard : run.session.connected = true → run.waiting = []) :
    (run.lock thread bytes key).Aligned := by
  have hconnected : (run.lock thread bytes key).session.connected = run.session.connected := by
    simp only [SessionRun.lock, ClientSession.sendLocked]
    split <;> rfl
  have hclosing : (run.lock thread bytes key).session.closing = run.session.closing := by
    simp only [SessionRun.lock, ClientSession.sendLocked]
    split <;> rfl
  refine ⟨?_, Ascending.concat h.ascending h.stamped, ?_, h.lock_split hguard, h.connecting,
    ?_, ?_⟩
  · intro frame hframe
    change frame.stamp < (run.order ++ [_]).length
    rw [List.length_append, List.length_singleton]
    rcases List.mem_append.mp hframe with hframe | hframe
    · have hlt := h.stamped frame hframe
      omega
    · rw [List.mem_singleton.mp hframe]
      exact Nat.lt_succ_self _
  · intro stamp hstamp
    change stamp < (run.order ++ [_]).length
    rw [List.length_append, List.length_singleton]
    rcases List.mem_append.mp hstamp with hstamp | hstamp
    · have hlt := h.bounded stamp hstamp
      omega
    · obtain ⟨oldest, holdest, rfl⟩ := Option.map_eq_some_iff.mp (Option.mem_toList.mp hstamp)
      have hlt := h.discards_lt holdest
      omega
  · intro hset
    rw [hconnected] at hset
    simp only [SessionRun.lock, ClientSession.sendLocked, hset, if_true]
    exact h.connected hset
  · intro hcleared
    rw [hclosing]
    exact h.cleared hcleared

theorem Aligned.adopt (h : run.Aligned) (hphase : run.phase = .connecting)
    (hclosing : run.session.closing = false) :
    Aligned { run with
      session := { run.session with connected := true, pending := [] }
      phase := .flushing
      waiting := run.session.pending } := by
  have hcleared : run.cleared = [] := by
    by_contra hne
    rw [h.cleared hne] at hclosing
    contradiction
  refine ⟨h.stamped, h.ascending, h.bounded, ?_, ?_, fun _ => ⟨rfl, hcleared⟩, h.cleared⟩
  · change run.kept = run.passed ++ run.session.pending ++ run.cleared ++ []
    rw [h.split, h.connecting hphase, hcleared]
    simp
  · intro hconnecting
    contradiction

theorem Aligned.flush (h : run.Aligned) {frame : Sent κ β} {rest : List (Sent κ β)}
    (hphase : run.phase = .flushing) (hwaiting : run.waiting = frame :: rest) :
    Aligned { run with waiting := rest, passed := run.passed ++ [frame] } := by
  refine ⟨h.stamped, h.ascending, h.bounded, ?_, ?_, h.connected, h.cleared⟩
  · change run.kept = run.passed ++ [frame] ++ rest ++ run.cleared ++ run.session.pending
    rw [h.split, hwaiting]
    simp
  · intro hconnecting
    change run.phase = .connecting at hconnecting
    rw [hphase] at hconnecting
    contradiction

theorem Aligned.release (h : run.Aligned) (hclosing : run.session.closing = true)
    (calls : ThreadId → SessionCall κ β) :
    Aligned { run with
      session := run.session.release
      calls
      cleared := run.cleared ++ run.session.pending } := by
  refine ⟨h.stamped, h.ascending, h.bounded, ?_, h.connecting, ?_, fun _ => hclosing⟩
  · change run.kept = run.passed ++ run.waiting ++ (run.cleared ++ run.session.pending) ++ []
    rw [h.split]
    simp
  · intro hconnected
    contradiction

theorem Aligned.step {action : SessionAction κ β} (h : run.Aligned)
    (hclosing : ∀ thread, run.calls thread = .releasing → run.session.closing = true)
    (hguard : FlushFirst run action) (hstep : run.step action = some after) : after.Aligned := by
  cases step_move hstep with
  | lock => exact h.lock hguard
  | adopt hphase hopen => exact h.adopt hphase hopen
  | abandon hphase =>
    exact ⟨h.stamped, h.ascending, h.bounded, h.split, fun _ => h.connecting hphase, h.connected,
      h.cleared⟩
  | flush hphase hwaiting => exact h.flush hphase hwaiting
  | finish _ hwaiting =>
    exact ⟨h.stamped, h.ascending, h.bounded, h.split, fun _ => hwaiting, h.connected, h.cleared⟩
  | close =>
    exact ⟨h.stamped, h.ascending, h.bounded, h.split, h.connecting, h.connected, fun _ => rfl⟩
  | @release thread hcall => exact h.release (hclosing thread hcall) _
  | _ => exact ⟨h.stamped, h.ascending, h.bounded, h.split, h.connecting, h.connected, h.cleared⟩

theorem releasing_step {action : SessionAction κ β}
    (h : ∀ thread, run.calls thread = .releasing → run.session.closing = true)
    (hstep : run.step action = some after) :
    ∀ thread, after.calls thread = .releasing → after.session.closing = true := by
  have hmove : ∀ moved call other, call ≠ .releasing →
      Function.update run.calls moved call other = .releasing → run.session.closing = true := by
    intro moved call other hcall hother
    rw [Function.update_apply] at hother
    split at hother
    · contradiction
    · exact h other hother
  cases step_move hstep with
  | @send thread => exact fun other => hmove thread _ other (by simp)
  | @lock thread =>
    intro other hother
    simp only [SessionRun.lock, ClientSession.sendLocked]
    split <;> exact hmove thread .idle other (by simp) hother
  | close => exact fun _ _ => rfl
  | @release thread => exact fun other => hmove thread _ other (by simp)
  | _ => exact h

/-- A session that has adopted a channel keeps it until it is closed, and has nothing
to pass on once `connect` is over. -/
structure Connected (run : SessionRun κ β) : Prop where
  adopted : run.phase ≠ .connecting → run.session.closing = false → run.session.connected = true
  flushed : run.phase = .ended → run.session.closing = false → run.waiting = []

theorem Connected.initial : Connected (initial : SessionRun κ β) where
  adopted hphase := absurd rfl hphase
  flushed hphase := by contradiction

theorem Connected.of_closing (h : run.session.closing = true) : run.Connected := by
  constructor
  · intro _ hopen
    rw [h] at hopen
    contradiction
  · intro _ hopen
    rw [h] at hopen
    contradiction

theorem Connected.step {action : SessionAction κ β} (h : run.Connected)
    (hclosing : ∀ thread, run.calls thread = .releasing → run.session.closing = true)
    (hstep : run.step action = some after) : after.Connected := by
  cases step_move hstep with
  | ignore => exact h
  | send => exact ⟨h.adopted, h.flushed⟩
  | @lock thread bytes key =>
    have hsame := run.session.sendLocked_closing ⟨run.order.length, bytes, key⟩
    have hset := run.session.sendLocked_connected ⟨run.order.length, bytes, key⟩
    constructor
    · intro hphase hopen
      exact hset.trans (h.adopted hphase (hsame.symm.trans hopen))
    · intro hphase hopen
      exact h.flushed hphase (hsame.symm.trans hopen)
  | adopt =>
    refine ⟨fun _ _ => rfl, ?_⟩
    intro hphase
    contradiction
  | abandon _ hclosed => exact .of_closing hclosed
  | flush hphase =>
    refine ⟨h.adopted, ?_⟩
    intro hended
    exact absurd (hphase.symm.trans hended) (by decide)
  | finish hphase hwaiting =>
    refine ⟨?_, fun _ _ => hwaiting⟩
    intro _ hopen
    apply h.adopted _ hopen
    rw [hphase]
    decide
  | close => exact .of_closing rfl
  | @release thread hcall => exact .of_closing (hclosing thread hcall)

/-- Where no call of `send` overtakes the flush, connecting keeps the order; once it is
over, an open session has passed on everything. -/
theorem passed_in_order (h : Reach SessionRun.step FlushFirst SessionRun.initial run) :
    run.PassedInOrder ∧
      (run.phase = .ended → run.session.closing = false → run.passed = run.kept) := by
  have hinvariant : (run.Aligned ∧ run.Connected) ∧
      ∀ thread, run.calls thread = .releasing → run.session.closing = true := by
    refine h.invariant (I := fun run => (run.Aligned ∧ run.Connected) ∧
      ∀ thread, run.calls thread = .releasing → run.session.closing = true) ?_ ?_
    · exact ⟨⟨.initial, .initial⟩, by simp [SessionRun.initial]⟩
    · rintro before action next ⟨⟨haligned, hconnected⟩, hclosing⟩ hguard hstep
      exact ⟨⟨haligned.step hclosing hguard hstep, hconnected.step hclosing hstep⟩,
        releasing_step hclosing hstep⟩
  obtain ⟨⟨haligned, hconnected⟩, _⟩ := hinvariant
  constructor
  · refine ⟨run.waiting ++ run.cleared ++ run.session.pending, ?_⟩
    rw [haligned.split]
    simp
  · intro hphase hopen
    have hadopted : run.session.connected = true := by
      apply hconnected.adopted _ hopen
      rw [hphase]
      decide
    obtain ⟨hpending, hcleared⟩ := haligned.connected hadopted
    rw [haligned.split, hconnected.flushed hphase hopen, hpending, hcleared]
    simp

/-! Two frames are queued before the connection comes up, and one after. -/

def queuedThenConnected : List (SessionAction Nat Nat) :=
  [.send 0 10 none, .lock 0, .send 0 11 none, .lock 0, .send 1 12 none, .adopt]

theorem passed_in_order_flushed : ∃ run : SessionRun Nat Nat,
    Reach SessionRun.step FlushFirst SessionRun.initial run ∧
      run.passed.map (·.bytes) = [10, 11, 12] ∧ run.PassedInOrder := by
  let flushed (run : SessionRun Nat Nat) (_ : SessionAction Nat Nat) : Bool := run.waiting.isEmpty
  let flushes (_ : SessionRun Nat Nat) (action : SessionAction Nat Nat) : Bool :=
    match action with
    | .lock _ => false
    | _ => true
  have hflushed : ∀ run action, (flushed run action || flushes run action) →
      FlushFirst run action := by
    intro run action hcheck
    cases action with
    | lock thread =>
      intro _
      rw [Bool.or_false, List.isEmpty_iff] at hcheck
      exact hcheck
    | _ => trivial
  have hrun : ∃ run : SessionRun Nat Nat,
      Reach SessionRun.step FlushFirst SessionRun.initial run ∧
        run.passed.map (·.bytes) = [10, 11, 12] :=
    ⟨_, Reach.of_checked hflushed (queuedThenConnected ++ [.flush, .flush, .lock 1]) rfl, rfl⟩
  obtain ⟨run, hreach, hpassed⟩ := hrun
  exact ⟨run, hreach, hpassed, (passed_in_order hreach).1⟩

/-- The third frame is passed before the two that were queued first. -/
theorem send_overtakes_flush : ∃ run : SessionRun Nat Nat,
    Reach SessionRun.step unguarded SessionRun.initial run ∧
      run.order.map (·.bytes) = [10, 11, 12] ∧ run.passed.map (·.bytes) = [12, 10, 11] ∧
      ¬ run.PassedInOrder := by
  refine ⟨_, Reach.of_run (queuedThenConnected ++ [.lock 1, .flush, .flush])
    (fun _ _ _ => trivial) rfl, rfl, rfl, ?_⟩
  unfold PassedInOrder
  decide

end SessionRun

end Srnp
