import Srnp.ChannelRun
import Srnp.Codec

/-! What a peer that falls behind still receives. Frames without a key are
neither lost nor reordered. An overwrite keeps the place of the frame it
replaces, so at the cap an update can pass a removal of its key that was queued
before it. -/
namespace Srnp
open Std Transition QueueTrace

namespace ChannelRun
variable {κ β : Type} [Ord κ] [TransOrd κ] {run : ChannelRun κ β}

def queued (run : ChannelRun κ β) : List (Sent κ β) := run.channel.outbox.frames.map (·.bytes)

theorem open_of_idle (hintact : run.Intact) (hidle : ∀ thread, run.calls thread = .idle) :
    run.Open := by
  refine ⟨hintact, ?_⟩
  intro thread sender hcall
  rw [hidle thread] at hcall
  contradiction

/-! Frames about one pair, for the runs below. -/

def someKey : PairKey := ⟨1000, [107]⟩

def update (value : UInt8) : Message := .pairUpdate { owner := 1000, key := [107], value := [value] }

def removal : Message := .pairRemoved ⟨1000, [107]⟩

/-- The frame `fanOutRemoval` sends for a key. -/
def removesPair (key : PairKey) (message : Message) : Prop :=
  message = .pairRemoved ⟨key.owner, key.key⟩

/-- A removal and then an update, the first of them written. -/
def inTurn : List (ChannelAction PairKey Message) :=
  [.send 0 removal none, .lock 0, .spawn 0, .send 1 (update 1) (some someKey), .lock 1, .drain]

variable [LawfulEqOrd κ]

/-! ### Control frames -/

/-- A frame without a key is pushed, or its own call of `send` goes on to close
the channel; and while the channel is intact such frames leave in push order. -/
theorem control_frames_kept [DecidableEq κ]
    (h : Reach ChannelRun.step unguarded ChannelRun.initial run) :
    (∀ frame ∈ run.sent, keyless frame →
      frame ∈ run.pushed ∨ (∃ thread, run.calls thread = .closing (some frame.stamp)) ∨
        (frame.stamp ∈ run.closedBy ∧ run.channel.closed = true)) ∧
    (run.Intact → (run.written ++ run.queued).filter keyless = run.pushed.filter keyless) ∧
    (run.Intact → run.full = false → run.written ++ run.queued = run.pushed) := by
  have hrun := Consistent.of_reach h
  refine ⟨?_, ?_, ?_⟩
  · intro frame hframe hkeyless
    rcases hrun.handled frame hframe hkeyless with hpushed | hrefused
    · exact Or.inl hpushed
    · rcases hrun.accounted.refused frame hrefused with hclosing | hclosed
      · exact Or.inr (Or.inl hclosing)
      · exact Or.inr (Or.inr ⟨hclosed, hrun.accounted.closedBy _ hclosed⟩)
  · intro hintact
    exact (hrun.control hintact).order
  · intro hintact hfull
    exact (hrun.control hintact).fifo hfull

theorem control_frames_kept_in_turn : ∃ run : ChannelRun PairKey Message,
    Reach ChannelRun.step unguarded ChannelRun.initial run ∧ run.pushed.length = 2 ∧
      (run.Intact → run.full = false → run.written ++ run.queued = run.pushed) := by
  have hrun : ∃ run : ChannelRun PairKey Message,
      Reach ChannelRun.step unguarded ChannelRun.initial run ∧ run.pushed.length = 2 :=
    ⟨_, Reach.of_run inTurn (fun _ _ _ => trivial) rfl, rfl⟩
  obtain ⟨run, hreach, hlength⟩ := hrun
  exact ⟨run, hreach, hlength, (control_frames_kept hreach).2.2⟩

/-! ### Removals -/

section
variable (removes : κ → β → Prop)

/-- A send at the cap does not overwrite a frame of its key that has a removal
of the key queued behind it. -/
def NeverAhead (run : ChannelRun κ β) : ChannelAction κ β → Prop
  | .lock thread => ∀ bytes name node, run.calls thread = .locking bytes (some name) →
      run.channel.outbox.frames.length = kMaxOutboxFrames →
      run.channel.outbox.coalescable[name]? = some node →
      ∀ later ∈ run.channel.outbox.frames, node < later.node → later.coalesceKey = none →
        ¬ removes name later.bytes.bytes
  | _ => True

variable {removes}

variable (removes) in
/-- Nor does a send lock the outbox with a key of which a removal was refused, while the
call that sent the removal has yet to close the channel. -/
def NeverPast (run : ChannelRun κ β) : ChannelAction κ β → Prop
  | .lock thread => ∀ bytes name, run.calls thread = .locking bytes (some name) →
      ∀ refused ∈ run.refused, (∃ other, run.calls other = .closing (some refused.stamp)) →
        refused.coalesceKey = none → ¬ removes name refused.bytes
  | _ => True

variable (removes) in
def NeverOvertakes (run : ChannelRun κ β) (action : ChannelAction κ β) : Prop :=
  NeverAhead removes run action ∧ NeverPast removes run action

omit [LawfulEqOrd κ] in
theorem notAhead_of_neverAhead {thread : ThreadId} {bytes : β} {key : Option κ}
    {event : QueueEvent κ β} (hguard : NeverAhead removes run (.lock thread))
    (hcall : run.calls thread = .locking bytes key) (hover : run.Overwrites key event) :
    NotAhead removes event := by
  cases event with
  | overwrite name behind =>
    obtain ⟨rfl, hfull, node, hnode, hbehind⟩ := hover
    intro later hlater hkeyless
    obtain ⟨hmem, hlt⟩ := hbehind later hlater
    exact hguard bytes name node hcall hfull hnode later hmem hlt hkeyless
  | _ => trivial

omit [LawfulEqOrd κ] in
/-- In an open channel a call that was refused is yet to close it. -/
theorem not_removes_of_neverPast {thread : ThreadId} {bytes : β} {name : κ}
    (hguard : NeverPast removes run (.lock thread))
    (hcall : run.calls thread = .locking bytes (some name)) (haccounted : run.Accounted)
    (hopen : run.channel.closed = false) {refused : Sent κ β} (hrefused : refused ∈ run.refused)
    (hkeyless : keyless refused) : ¬ removes name refused.bytes := by
  have hnone : refused.coalesceKey = none := Option.isNone_iff_eq_none.mp hkeyless
  rcases haccounted.refused refused hrefused with hclosing | hclosed
  · exact hguard bytes name hcall refused hrefused hclosing hnone
  · rw [haccounted.closedBy _ hclosed] at hopen
    contradiction

/-- The order of updates and removals, among the frames and towards the refused ones. -/
structure OrderKept (removes : κ → β → Prop) (trace : QueueTrace κ β) : Prop where
  kept : RemovalsKept removes trace
  last : RefusedLast removes trace

theorem OrderKept.step {action : ChannelAction κ β} {after : ChannelRun κ β}
    (h : OrderKept removes run.trace) (hvalid : run.trace.Valid) (haccounted : run.Accounted)
    (hguard : NeverOvertakes removes run action) (hstep : run.step action = some after)
    (hintact : after.Intact) : OrderKept removes after.trace := by
  rcases step_refines haccounted hstep hintact with hsame | ⟨event, htrace, hevent⟩
  · rw [hsame]
    exact h
  rcases hevent with ⟨rfl, hsent⟩ | ⟨thread, bytes, key, rfl, hcall, hover, hsent⟩
  · refine ⟨h.kept.step hvalid htrace trivial, h.last.step hvalid htrace ?_⟩
    intro bytes name hnew
    exact absurd (hsent.symm.trans hnew) (by simp [trace])
  · refine ⟨h.kept.step hvalid htrace (notAhead_of_neverAhead hguard.1 hcall hover),
      h.last.step hvalid htrace ?_⟩
    intro other name hnew removal hremoval hkeyless
    have hkey : key = some name := by
      have hlast := List.append_cancel_left (hsent.symm.trans hnew)
      exact congrArg Sent.coalesceKey (List.cons.inj hlast).1
    subst hkey
    exact not_removes_of_neverPast hguard.2 hcall haccounted (intact_of_step hstep hintact).1
      hremoval hkeyless

theorem removals_in_order [DecidableEq κ]
    (h : Reach ChannelRun.step (NeverOvertakes removes) ChannelRun.initial run)
    (hintact : run.Intact) : RemovalsInOrder removes run.trace := by
  have hkept : run.Consistent ∧ (run.Intact → OrderKept removes run.trace) := by
    refine h.invariant (I := fun run => run.Consistent ∧
      (run.Intact → OrderKept removes run.trace)) ⟨.initial, fun _ => ⟨.start, .start⟩⟩ ?_
    rintro before action after ⟨hbefore, horder⟩ hguard hstep
    refine ⟨hbefore.step hstep, ?_⟩
    intro hintact
    have hintact' := intact_of_step hstep hintact
    exact (horder hintact').step (hbefore.valid hintact') hbefore.accounted hguard hstep hintact
  obtain ⟨hrun, horder⟩ := hkept
  exact (horder hintact).kept.inOrder (hrun.control hintact) hrun.handled (horder hintact).last

end

theorem removals_in_order_in_turn : ∃ run : ChannelRun PairKey Message,
    Reach ChannelRun.step (NeverOvertakes removesPair) ChannelRun.initial run ∧
      run.written = [⟨0, removal, none⟩, ⟨1, update 1, some someKey⟩] ∧
      RemovalsInOrder removesPair run.trace := by
  let below (run : ChannelRun PairKey Message) (_ : ChannelAction PairKey Message) : Bool :=
    decide (run.channel.outbox.frames.length < kMaxOutboxFrames) && run.refused.isEmpty
  have hbelow : ∀ run action, below run action → NeverOvertakes removesPair run action := by
    intro run action hcheck
    obtain ⟨hroom, hnone⟩ := Bool.and_eq_true_iff.mp hcheck
    rw [decide_eq_true_iff] at hroom
    rw [List.isEmpty_iff] at hnone
    cases action with
    | lock thread =>
      constructor
      · intro bytes name node _ hfull
        omega
      · intro bytes name _ refused hrefused
        rw [hnone] at hrefused
        contradiction
    | _ => exact ⟨trivial, trivial⟩
  have hrun : ∃ run : ChannelRun PairKey Message,
      Reach ChannelRun.step (NeverOvertakes removesPair) ChannelRun.initial run ∧ run.Intact ∧
        run.written = [⟨0, removal, none⟩, ⟨1, update 1, some someKey⟩] :=
    ⟨_, Reach.of_checked hbelow (inTurn ++ [.writeDone, .drain]) rfl, ⟨rfl, rfl⟩, rfl⟩
  obtain ⟨run, hreach, hintact, hwritten⟩ := hrun
  exact ⟨run, hreach, hwritten, removals_in_order hreach hintact⟩

theorem lock_of_room {thread : ThreadId} {bytes : β} {key : Option κ}
    (room : run.channel.outbox.frames.length < kMaxOutboxFrames)
    (hwriting : run.channel.writing = true) :
    run.lock thread bytes key = { run with
      channel := { run.channel with
        outbox := run.channel.outbox.push room ⟨run.sent.length, bytes, key⟩ key }
      calls := Function.update run.calls thread .idle
      sent := run.sent ++ [⟨run.sent.length, bytes, key⟩]
      pushed := run.pushed ++ [⟨run.sent.length, bytes, key⟩] } := by
  have hroom : run.channel.outbox.makeRoomLocked key ⟨run.sent.length, bytes, key⟩ =
      (run.channel.outbox, false) := by
    rw [Outbox.makeRoomLocked, if_pos room]
  have hevicts : run.channel.outbox.evicts key = none := by
    rw [Outbox.evicts, if_pos room]
  simp only [lock, FrameChannel.sendLocked_of_room hroom room, hevicts, if_pos room, hwriting,
    if_true, Verdict.resume, Verdict.pushes, reduceCtorEq, if_false]

theorem lock_of_index {thread : ThreadId} {bytes : β} {name : κ} {node : Nat}
    (full : run.channel.outbox.frames.length = kMaxOutboxFrames)
    (hindex : run.channel.outbox.coalescable[name]? = some node) :
    run.lock thread bytes (some name) = { run with
      channel := { run.channel with
        outbox := run.channel.outbox.overwrite node ⟨run.sent.length, bytes, some name⟩ }
      calls := Function.update run.calls thread .idle
      sent := run.sent ++ [⟨run.sent.length, bytes, some name⟩]
      full := true } := by
  have room : ¬ run.channel.outbox.frames.length < kMaxOutboxFrames := by omega
  have hfind : ((some name).bind fun key => run.channel.outbox.coalescable[key]?) = some node :=
    hindex
  have hsend : run.channel.sendLocked ⟨run.sent.length, bytes, some name⟩ (some name) =
      ({ run.channel with
        outbox := run.channel.outbox.overwrite node ⟨run.sent.length, bytes, some name⟩ },
        .replaced) := by
    simp only [FrameChannel.sendLocked, Outbox.makeRoomLocked, if_neg room, hfind, if_true]
  have hevicts : run.channel.outbox.evicts (some name) = none := by
    rw [Outbox.evicts, if_neg room, hfind]
  simp only [lock, hsend, hevicts, if_neg room, Verdict.resume, Verdict.pushes, reduceCtorEq,
    if_false, Bool.false_eq_true]

theorem drain_cons {first : Outbound κ (Sent κ β)} {rest : List (Outbound κ (Sent κ β))}
    (hready : run.ready ≠ 0) (hclosed : run.channel.closed = false)
    (hqueue : run.channel.outbox.frames = first :: rest) :
    ∃ outbox, outbox.frames = rest ∧ run.step .drain = some { run with
      channel := { run.channel with outbox }, ready := run.ready - 1
      awaiting := run.awaiting + 1, written := run.written ++ [first.bytes] } := by
  obtain ⟨outbox, hpop, hrest⟩ := Outbox.pop_cons hqueue
  refine ⟨outbox, hrest, ?_⟩
  simp only [ChannelRun.step, hready, if_false, FrameChannel.drainLocked, hclosed, hpop,
    Bool.false_eq_true]

end ChannelRun

/-! ### An outbox at its cap -/

namespace ChannelRun

/-- An update of the key at the front and `count` removals of it behind; the
drain is yet to be spawned, by thread 0. -/
structure Filled (count : Nat) (run : ChannelRun PairKey Message) : Prop where
  intact : run.Intact
  first : run.calls 0 = .spawning
  idle : ∀ thread, thread ≠ 0 → run.calls thread = .idle
  writing : run.channel.writing = true
  queue : ∃ rest, run.channel.outbox.frames = ⟨0, ⟨0, update 1, some someKey⟩, some someKey⟩ :: rest ∧
    rest.length = count ∧ ∀ queued ∈ rest, queued.coalesceKey = none
  index : run.channel.outbox.coalescable[someKey]? = some 0
  written : run.written = []
  sent : run.sent = ⟨0, update 1, some someKey⟩ ::
    (List.range count).map fun i => ⟨i + 1, removal, none⟩

theorem filled_zero : ∃ run, Reach ChannelRun.step unguarded ChannelRun.initial run ∧ Filled 0 run := by
  refine ⟨_, Reach.of_run [.send 0 (update 1) (some someKey), .lock 0] (fun _ _ _ => trivial) rfl, ?_⟩
  constructor
  · exact ⟨rfl, rfl⟩
  · rfl
  · intro thread hthread
    simp [lock, ChannelRun.initial, hthread]
  · rfl
  · exact ⟨[], rfl, rfl, by simp⟩
  · decide
  · rfl
  · rfl

def sending (run : ChannelRun PairKey Message) (bytes : Message) (key : Option PairKey) :
    ChannelRun PairKey Message :=
  { run with calls := Function.update run.calls 1 (.locking bytes key) }

theorem Filled.sends {count : Nat} {run : ChannelRun PairKey Message} (h : Filled count run)
    (bytes : Message) (key : Option PairKey) :
    Reach ChannelRun.step unguarded run ((run.sending bytes key).lock 1 bytes key) := by
  have hidle := h.idle 1 (by decide)
  have hsend : run.step (.send 1 bytes key) = some (run.sending bytes key) := by
    simp only [ChannelRun.step, hidle, h.intact.1]
    rfl
  have hlock : (run.sending bytes key).step (.lock 1) =
      some ((run.sending bytes key).lock 1 bytes key) := by
    simp [ChannelRun.step, sending]
  exact .tail (.tail .refl trivial hsend) trivial hlock

theorem Filled.more {count : Nat} {run : ChannelRun PairKey Message} (h : Filled count run)
    (hcount : count + 1 < kMaxOutboxFrames) :
    ∃ after, Reach ChannelRun.step unguarded run after ∧ Filled (count + 1) after := by
  obtain ⟨rest, hqueue, hlength, hkeyless⟩ := h.queue
  have room : (run.sending removal none).channel.outbox.frames.length < kMaxOutboxFrames := by
    change run.channel.outbox.frames.length < _
    rw [hqueue, List.length_cons, hlength]
    exact hcount
  refine ⟨_, h.sends removal none, ?_⟩
  rw [lock_of_room room h.writing]
  constructor
  · exact h.intact
  · simp [sending, h.first]
  · intro thread hthread
    by_cases hone : thread = 1
    · simp [hone]
    · simp [sending, hone, h.idle thread hthread]
  · exact h.writing
  · refine ⟨rest ++ [⟨run.channel.outbox.nextNode, ⟨run.sent.length, removal, none⟩, none⟩],
      ?_, ?_, ?_⟩
    · simp [sending, hqueue]
    · rw [List.length_append, hlength]
      rfl
    · intro queued hqueued
      rcases List.mem_append.mp hqueued with hqueued | hqueued
      · exact hkeyless queued hqueued
      · rw [List.mem_singleton.mp hqueued]
  · exact h.index
  · exact h.written
  · simp [sending, h.sent, List.range_succ]

theorem filled {count : Nat} (h : count < kMaxOutboxFrames) :
    ∃ run, Reach ChannelRun.step unguarded ChannelRun.initial run ∧ Filled count run := by
  induction count with
  | zero => exact filled_zero
  | succ count ih =>
    obtain ⟨run, hreach, hrun⟩ := ih (Nat.lt_of_succ_lt h)
    obtain ⟨after, hafter, hfilled⟩ := hrun.more h
    exact ⟨after, hreach.trans hafter, hfilled⟩

theorem at_cap : ∃ run, Reach ChannelRun.step unguarded ChannelRun.initial run ∧
    Filled 4095 run ∧ run.channel.outbox.frames.length = kMaxOutboxFrames := by
  obtain ⟨run, hreach, hrun⟩ := filled (show 4095 < kMaxOutboxFrames by decide)
  refine ⟨run, hreach, hrun, ?_⟩
  obtain ⟨rest, hqueue, hlength, _⟩ := hrun.queue
  rw [hqueue, List.length_cons, hlength]
  rfl

/-- The second update takes the place of the first, ahead of every removal. -/
theorem update_written_ahead_of_removal :
    ∃ run : ChannelRun PairKey Message, Reach ChannelRun.step unguarded ChannelRun.initial run ∧
      run.Open ∧ ¬ RemovalsInOrder removesPair run.trace := by
  obtain ⟨run, hreach, hrun, full⟩ := at_cap
  obtain ⟨rest, hqueue, _, _⟩ := hrun.queue
  let newer : Sent PairKey Message := ⟨run.sent.length, update 2, some someKey⟩
  let replaced : ChannelRun PairKey Message := { run with
    channel := { run.channel with outbox := run.channel.outbox.overwrite 0 newer }
    calls := Function.update (run.sending (update 2) (some someKey)).calls 1 .idle
    sent := run.sent ++ [newer]
    full := true }
  have hreplaced : Reach ChannelRun.step unguarded ChannelRun.initial replaced := by
    have hlock : (run.sending (update 2) (some someKey)).lock 1 (update 2) (some someKey) =
        replaced := lock_of_index full hrun.index
    rw [← hlock]
    exact hreach.trans (hrun.sends _ _)
  have hfirst : replaced.calls 0 = .spawning := by
    simp [replaced, sending, hrun.first]
  let spawned : ChannelRun PairKey Message := { replaced with
    calls := Function.update replaced.calls 0 .idle, ready := replaced.ready + 1 }
  have hspawn : replaced.step (.spawn 0) = some spawned := by
    simp only [ChannelRun.step, hfirst, spawned]
  have hfront : spawned.channel.outbox.frames = ⟨0, newer, some someKey⟩ :: rest :=
    Outbox.frames_overwrite (hqueue.trans (List.nil_append _).symm) newer
  have hready : spawned.ready ≠ 0 := Nat.succ_ne_zero _
  have hclosed : spawned.channel.closed = false := hrun.intact.1
  obtain ⟨outbox, _, hdrain⟩ := drain_cons hready hclosed hfront
  refine ⟨_, .tail (.tail hreplaced trivial hspawn) trivial hdrain, ⟨hrun.intact, ?_⟩, ?_⟩
  · intro thread sender hcall
    by_cases hzero : thread = 0
    · simp [spawned, hzero] at hcall
    · by_cases hone : thread = 1
      · simp [spawned, replaced, hone] at hcall
      · simp [spawned, replaced, sending, hzero, hone, hrun.idle thread hzero] at hcall
  · intro horder
    have hremoval : (⟨1, removal, none⟩ : Sent PairKey Message) ∈ run.sent ++ [newer] := by
      rw [hrun.sent]
      exact List.mem_append_left _ (List.mem_cons_of_mem _
        (List.mem_map.mpr ⟨0, List.mem_range.mpr (by decide), rfl⟩))
    have hwritten : run.written ++ [newer] = [] ++ newer :: [] := by
      rw [hrun.written]
    have hiff := horder someKey _ hremoval rfl rfl newer rfl [] [] hwritten
    have hlt : 1 < newer.stamp := by
      change 1 < run.sent.length
      simp [hrun.sent]
    exact List.not_mem_nil (hiff.mpr hlt)

/-- One more removal, and the only update is dropped for it. -/
theorem newest_update_dropped :
    ∃ run : ChannelRun PairKey Message, Reach ChannelRun.step unguarded ChannelRun.initial run ∧
      run.Open ∧ ∃ frame, (run.sent.filter (carries someKey)).getLast? = some frame ∧
        frame ∉ run.queued ∧ frame ∉ run.written := by
  obtain ⟨run, hreach, hrun, full⟩ := at_cap
  obtain ⟨rest, hqueue, _, hkeyless⟩ := hrun.queue
  let sent := run.sending removal none
  have hdropped : (∃ node, (sent.lock 1 removal none).channel.outbox.frames =
        rest ++ [⟨node, ⟨run.sent.length, removal, none⟩, none⟩]) ∧
      (sent.lock 1 removal none).calls = Function.update sent.calls 1 .idle := by
    have hsends := sent.channel.sendLocked_sends ⟨sent.sent.length, removal, none⟩ none
    simp only [lock]
    generalize sent.channel.sendLocked ⟨sent.sent.length, removal, none⟩ none = result at hsends ⊢
    obtain ⟨channel, verdict⟩ := result
    cases hsends with
    | replaced _ _ hkey => contradiction
    | queued room =>
      change run.channel.outbox.frames.length < _ at room
      omega
    | @evicted front back victim node outbox _ _ hbefore hfront hkeyed hafter =>
      have hsplit := hqueue.symm.trans hbefore
      cases front with
      | nil =>
        cases hsplit
        refine ⟨⟨node, hafter⟩, ?_⟩
        change Function.update sent.calls 1
          ((if run.channel.writing then Verdict.queued else Verdict.spawn).resume _) = _
        rw [hrun.writing]
        rfl
      | cons queued front =>
        have hsome := hfront queued List.mem_cons_self
        rw [← (List.cons.inj hsplit).1] at hsome
        contradiction
    | overfull _ _ hnone =>
      have hfirst := hnone _ (hqueue ▸ List.mem_cons_self)
      contradiction
  obtain ⟨⟨node, hframes⟩, hcalls⟩ := hdropped
  have hreached := hreach.trans (hrun.sends removal none)
  have hintact : (sent.lock 1 removal none).Intact := by
    rw [Intact, closed_lock]
    exact hrun.intact
  have hvalid := (Consistent.of_reach hreached).valid hintact
  refine ⟨sent.lock 1 removal none, hreached, ⟨hintact, ?_⟩, ⟨0, update 1, some someKey⟩,
    ?_, ?_, ?_⟩
  · intro thread sender hcall
    rw [hcalls] at hcall
    by_cases hone : thread = 1
    · simp [hone] at hcall
    · by_cases hzero : thread = 0
      · simp [sent, sending, hzero, hrun.first] at hcall
      · simp [sent, sending, hone, hrun.idle thread hzero] at hcall
  · have hcontrol : ∀ list : List Nat, (list.map fun i =>
        (⟨i + 1, removal, none⟩ : Sent PairKey Message)).filter (carries someKey) = [] := by
      intro list
      rw [List.filter_eq_nil_iff]
      intro frame hframe
      obtain ⟨i, _, rfl⟩ := List.mem_map.mp hframe
      simp [carries]
    change ((run.sent ++ [(⟨run.sent.length, removal, none⟩ : Sent PairKey Message)]).filter
      (carries someKey)).getLast? = _
    rw [hrun.sent, List.cons_append, List.filter_cons_of_pos rfl, List.filter_append, hcontrol]
    rfl
  · intro hmem
    obtain ⟨queued, hqueued, hbytes⟩ := List.mem_map.mp hmem
    have hkey := hvalid.keyed queued hqueued
    rw [hframes] at hqueued
    rw [hbytes] at hkey
    rcases List.mem_append.mp hqueued with hqueued | hqueued
    · rw [hkeyless queued hqueued] at hkey
      contradiction
    · rw [List.mem_singleton.mp hqueued] at hkey
      contradiction
  · change _ ∉ run.written
    rw [hrun.written]
    exact List.not_mem_nil

end ChannelRun

end Srnp
