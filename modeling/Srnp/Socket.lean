import Srnp.Drains
import Srnp.ServerLoop

/-! A channel down to the bytes on its socket, and up again to the server that
reads them. A write moves its bytes in as many parts as the socket likes; since
there is one drain, no bytes of another frame come in between. So what a peer
has been sent are the frames that were taken off the outbox, whole and in that
order, with a part of the last. -/
namespace Srnp
open Std Wire Reading Transition

structure SocketRun (κ β σ : Type) [Ord κ] [TransOrd κ] where
  run : ChannelRun κ β
  /-- What is left of the writes that have begun. -/
  inFlight : List (List σ)
  /-- What the socket has taken. -/
  wire : List σ
  /-- The frames whose write began while none had failed. -/
  begun : List (Sent κ β)

inductive SocketAction (κ β : Type) where
  /-- A step of a call of `send` or `close`. -/
  | call (action : ChannelAction κ β)
  | drain
  /-- The socket takes some bytes of a write. -/
  | move (write count : Nat)
  | writeDone (write : Nat)
  | writeFail (write : Nat)

def ChannelAction.calling {κ β : Type} : ChannelAction κ β → Bool
  | .drain => false
  | .writeDone => false
  | .writeFail => false
  | _ => true

namespace SocketRun
variable {κ β σ : Type} [Ord κ] [TransOrd κ]

def initial : SocketRun κ β σ := ⟨.initial, [], [], []⟩

def follow (s : SocketRun κ β σ) (run : ChannelRun κ β) (inFlight : List (List σ)) :
    SocketRun κ β σ :=
  { s with run, inFlight, begun := if run.failed then s.begun else run.written }

variable [LawfulEqOrd κ]

def step (bytes : β → List σ) (s : SocketRun κ β σ) :
    SocketAction κ β → Option (SocketRun κ β σ)
  | .call action =>
      if action.calling then (s.run.step action).map fun run => s.follow run s.inFlight else none
  | .drain => (s.run.step .drain).map fun run =>
      s.follow run (s.inFlight ++
        (run.written.drop s.run.written.length).map fun frame => bytes frame.bytes)
  | .move write count =>
      (s.inFlight[write]?).map fun rest => { s with
        wire := s.wire ++ rest.take count
        inFlight := s.inFlight.set write (rest.drop count) }
  | .writeDone write =>
      match s.inFlight[write]? with
      | some [] => (s.run.step .writeDone).map fun run => s.follow run (s.inFlight.eraseIdx write)
      | _ => none
  | .writeFail write =>
      match s.inFlight[write]? with
      | some _ => (s.run.step .writeFail).map fun run => s.follow run (s.inFlight.eraseIdx write)
      | none => none

/-- A socket that has failed takes nothing more. -/
def Sticky (s : SocketRun κ β σ) : SocketAction κ β → Prop
  | .move _ _ => s.run.failed = false
  | _ => True

def onWire (bytes : β → List σ) (frames : List (Sent κ β)) : List (List σ) :=
  frames.map fun frame => bytes frame.bytes

end SocketRun

/-! ### What a step of the channel does not do -/

namespace ChannelRun
variable {κ β : Type} [Ord κ] [TransOrd κ] [LawfulEqOrd κ]
variable {run after : ChannelRun κ β} {action : ChannelAction κ β}

structure Grows (run after : ChannelRun κ β) : Prop where
  pushed : run.pushed <+: after.pushed
  full : after.full = false → run.full = false
  failed : after.failed = false → run.failed = false

omit [LawfulEqOrd κ] in
theorem Grows.refl : Grows run run := ⟨List.prefix_refl _, id, id⟩

theorem grows (hstep : run.step action = some after) : Grows run after := by
  cases step_move hstep with
  | @lock thread bytes key hcall =>
    refine ⟨?_, ?_, id⟩
    · simp only [lock]
      split
      · exact List.prefix_append _ _
      · exact List.prefix_refl _
    · simp only [lock]
      split
      · exact id
      · intro hfull
        contradiction
  | writeFail =>
    refine ⟨List.prefix_refl _, id, ?_⟩
    intro hfailed
    contradiction
  | _ => exact ⟨List.prefix_refl _, id, id⟩

theorem calling_keeps (hstep : run.step action = some after) (hcalling : action.calling) :
    after.written = run.written ∧ after.awaiting = run.awaiting ∧ after.failed = run.failed := by
  cases step_move hstep with
  | stop => contradiction
  | take => contradiction
  | writeDone => contradiction
  | writeFail => contradiction
  | _ => exact ⟨rfl, rfl, rfl⟩

theorem drain_step (hstep : run.step .drain = some after) : after.failed = run.failed ∧
    (after.written = run.written ∧ after.awaiting = run.awaiting ∨
      ∃ frame, after.written = run.written ++ [frame] ∧ after.awaiting = run.awaiting + 1 ∧
        after.channel.closed = false) := by
  cases step_move hstep with
  | stop => exact ⟨rfl, .inl ⟨rfl, rfl⟩⟩
  | @take first rest outbox _ hopen => exact ⟨rfl, .inr ⟨first.bytes, rfl, rfl, hopen⟩⟩

theorem pushed_sublist (h : Reach ChannelRun.step unguarded initial run) :
    run.pushed.Sublist run.sent := by
  refine h.invariant (I := fun run => run.pushed.Sublist run.sent) (List.Sublist.refl _) ?_
  intro before action after ih _ hstep
  cases step_move hstep with
  | @lock thread bytes key hcall =>
    simp only [lock]
    split
    · exact ih.append (List.Sublist.refl _)
    · exact ih.trans (List.sublist_append_left _ _)
  | _ => exact ih

variable [DecidableEq κ]

/-- Frames taken off the outbox against those that were put there: those
without a key keep their order, those with one that among frames of their key. -/
structure Ordered (frames : List (Sent κ β)) (run : ChannelRun κ β) : Prop where
  keyless : frames.filter QueueTrace.keyless <+: run.pushed.filter QueueTrace.keyless
  keyed : ∀ name, (frames.filter (QueueTrace.carries name)).Pairwise
    fun earlier later => earlier.stamp < later.stamp
  fifo : run.full = false → frames <+: run.pushed

omit [LawfulEqOrd κ] in
theorem Ordered.grows {frames : List (Sent κ β)} (h : Ordered frames run) (hgrows : Grows run after) :
    Ordered frames after where
  keyless := h.keyless.trans (hgrows.pushed.filter _)
  keyed := h.keyed
  fifo hfull := (h.fifo (hgrows.full hfull)).trans hgrows.pushed

theorem Ordered.of_intact (h : Reach ChannelRun.step unguarded initial run) (hintact : run.Intact) :
    Ordered run.written run := by
  have hrun := Consistent.of_reach h
  have hwritten : run.written <+: run.trace.frames := List.prefix_append _ _
  constructor
  · have horder := (hrun.control hintact).order
    change run.trace.frames.filter _ = run.pushed.filter _ at horder
    rw [← horder]
    exact hwritten.filter _
  · intro name
    exact ((hrun.newest hintact).order name).sublist (hwritten.sublist.filter _)
  · intro hfull
    have hfifo : run.trace.frames = run.pushed := (hrun.control hintact).fifo hfull
    rw [← hfifo]
    exact hwritten

end ChannelRun

namespace SocketRun
variable {κ β σ : Type} [Ord κ] [TransOrd κ] [LawfulEqOrd κ] [DecidableEq κ]
variable {bytes : β → List σ} {s after : SocketRun κ β σ} {action : SocketAction κ β}

structure Sound (bytes : β → List σ) (s : SocketRun κ β σ) : Prop where
  reached : Reach ChannelRun.step unguarded ChannelRun.initial s.run
  counted : s.inFlight.length = s.run.awaiting
  current : s.run.failed = false → s.begun = s.run.written
  carried : s.run.failed = false → s.wire ++ s.inFlight.flatten = (onWire bytes s.begun).flatten
  partly : s.wire <+: (onWire bytes s.begun).flatten
  ordered : ChannelRun.Ordered s.begun s.run

theorem Sound.initial : Sound bytes (initial : SocketRun κ β σ) where
  reached := .refl
  counted := rfl
  current _ := rfl
  carried _ := rfl
  partly := List.prefix_refl _
  ordered := ⟨List.prefix_refl _, fun _ => .nil, fun _ => List.prefix_refl _⟩

theorem Sound.follow (h : Sound bytes s) {channel : ChannelAction κ β} {run : ChannelRun κ β}
    (hstep : s.run.step channel = some run) {inFlight : List (List σ)}
    (hwritten : run.written = s.run.written) (hcounted : inFlight.length = run.awaiting)
    (hflat : run.failed = false → inFlight.flatten = s.inFlight.flatten) :
    Sound bytes (s.follow run inFlight) := by
  have hgrows := ChannelRun.grows hstep
  have hbegun : (s.follow run inFlight).begun = s.begun := by
    change (if run.failed then s.begun else run.written) = s.begun
    split
    · rfl
    · rename_i hfailed
      rw [hwritten]
      exact (h.current (hgrows.failed (Bool.eq_false_iff.mpr hfailed))).symm
  constructor
  · exact h.reached.tail trivial hstep
  · exact hcounted
  · intro hfailed
    rw [hbegun, h.current (hgrows.failed hfailed)]
    exact hwritten.symm
  · intro hfailed
    rw [hbegun, ← h.carried (hgrows.failed hfailed)]
    exact congrArg (s.wire ++ ·) (hflat hfailed)
  · rw [hbegun]
    exact h.partly
  · rw [hbegun]
    exact h.ordered.grows hgrows

theorem Sound.take (h : Sound bytes s) {run : ChannelRun κ β} {frame : Sent κ β}
    (hstep : s.run.step .drain = some run) (hfailed : run.failed = s.run.failed)
    (hwritten : run.written = s.run.written ++ [frame])
    (hawaiting : run.awaiting = s.run.awaiting + 1) (hopen : run.channel.closed = false) :
    Sound bytes (s.follow run (s.inFlight ++ [bytes frame.bytes])) := by
  have hreached : Reach ChannelRun.step unguarded ChannelRun.initial run :=
    h.reached.tail trivial hstep
  have hcounted : (s.inFlight ++ [bytes frame.bytes]).length = run.awaiting := by
    rw [List.length_append, h.counted, hawaiting]
    rfl
  cases hbroken : run.failed with
  | true =>
    have hbegun : (s.follow run (s.inFlight ++ [bytes frame.bytes])).begun = s.begun :=
      if_pos hbroken
    refine ⟨hreached, hcounted, ?_, ?_, ?_, ?_⟩
    · intro hnot
      exact absurd (hbroken.symm.trans hnot) (by decide)
    · intro hnot
      exact absurd (hbroken.symm.trans hnot) (by decide)
    · rw [hbegun]
      exact h.partly
    · rw [hbegun]
      exact h.ordered.grows (ChannelRun.grows hstep)
  | false =>
    have hbegun : (s.follow run (s.inFlight ++ [bytes frame.bytes])).begun = run.written :=
      if_neg (Bool.eq_false_iff.mp hbroken)
    have hbefore : s.run.failed = false := hfailed.symm.trans hbroken
    have hcarried : s.wire ++ (s.inFlight ++ [bytes frame.bytes]).flatten =
        (onWire bytes run.written).flatten := by
      rw [List.flatten_append, ← List.append_assoc, h.carried hbefore, h.current hbefore, hwritten]
      simp [onWire]
    refine ⟨hreached, hcounted, fun _ => hbegun, ?_, ?_, ?_⟩
    · intro _
      rw [hbegun]
      exact hcarried
    · rw [hbegun, ← hcarried]
      exact List.prefix_append _ _
    · rw [hbegun]
      exact ChannelRun.Ordered.of_intact hreached ⟨hopen, hbroken⟩

/-- Nothing is in flight but one write. -/
theorem Sound.single (h : Sound bytes s) {write : Nat} {rest : List σ}
    (hwrite : s.inFlight[write]? = some rest) : write = 0 ∧ s.inFlight = [rest] := by
  have hone := (ChannelRun.Driven.of_reach h.reached).awaiting_le
  rw [← h.counted] at hone
  obtain ⟨hwithin, hrest⟩ := List.getElem?_eq_some_iff.mp hwrite
  have hzero : write = 0 := by omega
  subst hzero
  refine ⟨rfl, ?_⟩
  obtain ⟨only, honly⟩ := List.length_eq_one_iff.mp (Nat.le_antisymm hone hwithin)
  rw [honly] at hwrite ⊢
  cases Option.some.inj hwrite
  rfl

theorem Sound.move (h : Sound bytes s) {write count : Nat} {rest : List σ}
    (hwrite : s.inFlight[write]? = some rest) (hworks : s.run.failed = false) :
    Sound bytes { s with
      wire := s.wire ++ rest.take count
      inFlight := s.inFlight.set write (rest.drop count) } := by
  obtain ⟨rfl, honly⟩ := h.single hwrite
  have hcarried := h.carried hworks
  have hmoved : s.wire ++ rest.take count ++ (s.inFlight.set 0 (rest.drop count)).flatten =
      (onWire bytes s.begun).flatten := by
    rw [← hcarried, honly]
    simp
  refine ⟨h.reached, ?_, h.current, fun _ => hmoved, ?_, h.ordered⟩
  · rw [← h.counted, List.length_set]
  · rw [← hmoved]
    exact List.prefix_append _ _

theorem Sound.step (h : Sound bytes s) (hguard : s.Sticky action)
    (hstep : s.step bytes action = some after) : Sound bytes after := by
  cases action with
  | call action =>
    simp only [SocketRun.step] at hstep
    split at hstep
    · rename_i hcalling
      obtain ⟨run, hrun, rfl⟩ := Option.map_eq_some_iff.mp hstep
      obtain ⟨hwritten, hawaiting, _⟩ := ChannelRun.calling_keeps hrun hcalling
      exact h.follow hrun hwritten (h.counted.trans hawaiting.symm) fun _ => rfl
    · contradiction
  | drain =>
    obtain ⟨run, hrun, rfl⟩ := Option.map_eq_some_iff.mp hstep
    obtain ⟨hfailed, ⟨hwritten, hawaiting⟩ | ⟨frame, hwritten, hawaiting, hopen⟩⟩ :=
      ChannelRun.drain_step hrun
    · rw [hwritten, List.drop_length, List.map_nil, List.append_nil]
      exact h.follow hrun hwritten (h.counted.trans hawaiting.symm) fun _ => rfl
    · rw [hwritten, List.drop_left]
      exact h.take hrun hfailed hwritten hawaiting hopen
  | move write count =>
    obtain ⟨rest, hwrite, rfl⟩ := Option.map_eq_some_iff.mp hstep
    exact h.move hwrite hguard
  | writeDone write =>
    simp only [SocketRun.step] at hstep
    split at hstep
    · rename_i hwrite
      obtain ⟨run, hrun, rfl⟩ := Option.map_eq_some_iff.mp hstep
      obtain ⟨rfl, honly⟩ := h.single hwrite
      have hcounted := h.counted
      cases ChannelRun.step_move hrun with
      | writeDone hawaiting =>
        refine h.follow hrun rfl ?_ fun _ => ?_
        · rw [honly] at hcounted ⊢
          change 0 = s.run.awaiting - 1
          rw [← hcounted]
          rfl
        · rw [honly]
          rfl
    · contradiction
  | writeFail write =>
    simp only [SocketRun.step] at hstep
    split at hstep
    · rename_i rest hwrite
      obtain ⟨run, hrun, rfl⟩ := Option.map_eq_some_iff.mp hstep
      obtain ⟨rfl, honly⟩ := h.single hwrite
      have hcounted := h.counted
      cases ChannelRun.step_move hrun with
      | writeFail hawaiting =>
        refine h.follow hrun rfl ?_ ?_
        · rw [honly] at hcounted ⊢
          change 0 = s.run.awaiting - 1
          rw [← hcounted]
          rfl
        · intro hfailed
          contradiction
    · contradiction

theorem Sound.of_reach (h : Reach (SocketRun.step bytes) Sticky SocketRun.initial s) :
    Sound bytes s :=
  h.invariant .initial fun _ _ _ hs hguard hstep => hs.step hguard hstep

end SocketRun

/-! ### From one component to another -/

structure Parcel where
  message : Message
  bytes : Bytes
  framed : message.frameOf = .ok bytes

namespace Parcel

def messages (frames : List (Sent PairKey Parcel)) : List Message :=
  frames.map fun frame => frame.bytes.message

theorem framedEach (frames : List (Sent PairKey Parcel)) :
    Message.Framed (messages frames) (SocketRun.onWire Parcel.bytes frames) := by
  induction frames with
  | nil => exact .nil
  | cons frame rest ih => exact .cons frame.bytes.framed ih

end Parcel

/-- What the bytes that arrived come to at the peer. -/
structure Delivered (s : SocketRun PairKey Parcel UInt8) (received : List (Sent PairKey Parcel)) :
    Prop where
  begun : received <+: s.begun
  keyless : received.filter QueueTrace.keyless <+: s.run.pushed.filter QueueTrace.keyless
  keyed : ∀ name, (received.filter (QueueTrace.carries name)).Pairwise
    fun earlier later => earlier.stamp < later.stamp
  fifo : s.run.full = false → received <+: s.run.pushed
  inOrder : s.run.pushed.Sublist s.run.sent

/-- However many threads send, and wherever the connection stands, the peer has
handled the messages of frames that were taken off the outbox, whole and once
each: those without a key in the order they were sent and without a gap, those
of one key in the order they were sent. Once everything has arrived, that is
every frame without a key and every frame written. -/
theorem delivered {s : SocketRun PairKey Parcel UInt8}
    (h : Reach (SocketRun.step Parcel.bytes) SocketRun.Sticky SocketRun.initial s) {F : Type}
    (others : Nat → Component F → Component F) (clock : Nat → TimePoint)
    (session : ServerSession F) {arrived : Bytes} (harrived : arrived <+: s.wire) :
    ∃ received, Delivered s received ∧
      ((ServerSession.run others clock).run session arrived).state =
        (session.hearAll others clock (Parcel.messages received)).1 ∧
      ((ServerSession.run others clock).run session arrived).reason =
        .after .endOfFile (session.hearAll others clock (Parcel.messages received)).2 ∧
      (s.run.Intact → s.run.queued = [] → s.inFlight = [] → arrived = s.wire →
        received = s.run.written ∧
          received.filter QueueTrace.keyless = s.run.pushed.filter QueueTrace.keyless) := by
  have hsound := SocketRun.Sound.of_reach h
  let pieces := SocketRun.onWire Parcel.bytes s.begun
  let count := ReadLoop.wholeWithin pieces arrived.length
  have htaken : s.begun.take count <+: s.begun := List.take_prefix _ _
  have hcut : arrived = pieces.flatten.take arrived.length :=
    List.prefix_iff_eq_take.mp (harrived.trans hsound.partly)
  have hserved := ServerSession.run_framed others clock session (Parcel.framedEach s.begun)
    arrived.length
  rw [← hcut, Parcel.messages, ← List.map_take] at hserved
  refine ⟨s.begun.take count, ?_, hserved.1, hserved.2, ?_⟩
  · exact
      { begun := htaken
        keyless := (htaken.filter _).trans hsound.ordered.keyless
        keyed := fun name => (hsound.ordered.keyed name).sublist (htaken.sublist.filter _)
        fifo := fun hfull => htaken.trans (hsound.ordered.fifo hfull)
        inOrder := ChannelRun.pushed_sublist hsound.reached }
  · intro hintact hqueued hidle hall
    have hwhole : arrived = pieces.flatten := by
      have hcarried := hsound.carried hintact.2
      rw [hidle, List.flatten_nil, List.append_nil] at hcarried
      exact hall.trans hcarried
    have hcount : count = s.begun.length := by
      change ReadLoop.wholeWithin pieces arrived.length = _
      rw [hwhole, ReadLoop.wholeWithin_flatten]
      exact List.length_map _
    have hwritten : s.begun.take count = s.run.written := by
      rw [hcount, List.take_length, hsound.current hintact.2]
    refine ⟨hwritten, ?_⟩
    have horder := ((ChannelRun.Consistent.of_reach hsound.reached).control hintact).order
    change (s.run.written ++ s.run.queued).filter _ = _ at horder
    rw [hqueued, List.append_nil] at horder
    rw [hwritten]
    exact horder

def Parcel.removal : Parcel where
  message := .pairRemoved ⟨1000, [107]⟩
  bytes := [83, 82, 78, 80, 2, 8, 0, 0, 9, 0, 0, 0, 255, 255, 255, 255,
    232, 3, 0, 0, 1, 0, 0, 0, 107]
  framed := rfl

/-- Two threads send; the socket takes the first frame in two parts and six
bytes of the second. -/
theorem delivered_in_parts : ∃ (s : SocketRun PairKey Parcel UInt8)
    (received : List (Sent PairKey Parcel)), s.wire.length = 31 ∧ Delivered s received ∧
      ((ServerSession.run (fun _ c => c) fun _ => 5).run
        ⟨(.initial 2000 : Component Unit), []⟩ s.wire).state =
          ((ServerSession.mk (.initial 2000) []).hearAll (fun _ c => c) (fun _ => 5)
            (Parcel.messages received)).1 := by
  have hreach : ∃ s : SocketRun PairKey Parcel UInt8, s.wire.length = 31 ∧
      Reach (SocketRun.step Parcel.bytes) SocketRun.Sticky SocketRun.initial s := by
    refine ⟨_, ?_, @Reach.of_checked _ _ _ SocketRun.Sticky _ _ (fun s _ => !s.run.failed) ?_
      [.call (.send 0 .removal none), .call (.send 1 .removal none), .call (.lock 0),
        .call (.spawn 0), .call (.lock 1), .drain, .move 0 20, .move 0 5, .writeDone 0, .drain,
        .move 0 6] rfl⟩
    · rfl
    · intro s action hworks
      cases action with
      | move write count => simpa [SocketRun.Sticky] using hworks
      | _ => trivial
  obtain ⟨s, hlength, hreach⟩ := hreach
  obtain ⟨received, hdelivered, hstate, _⟩ := delivered hreach (fun _ c => c) (fun _ => 5)
    ⟨(.initial 2000 : Component Unit), []⟩ (List.prefix_refl s.wire)
  exact ⟨s, received, hlength, hdelivered, hstate⟩

end Srnp
