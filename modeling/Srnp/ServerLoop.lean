import Srnp.BadFrames
import Srnp.SpanReader
import Srnp.Lib.ReadLoop

/-! The loop of a server session, on the bytes that come off its connection.
Wherever the stream is cut, the messages that arrived as a whole have been
handled and nothing else has; and a frame that is rejected is the last one that
is looked at, whatever follows it. What other threads do to the component
between two frames is a parameter. -/
namespace Srnp
open Std Wire Reading

namespace FrameChannel

theorem asyncRead_steady (count : Nat) : Steady (asyncRead count) := by
  intro stream taken rest h more
  have hlong := asyncRead_ok h
  have hwithin : count ≤ stream.length := by omega
  have hlonger : ¬ (stream ++ more).length < count := by
    rw [List.length_append]
    omega
  change (if stream.length < count then _ else _) = _ at h
  rw [if_neg (Nat.not_lt.mpr hwithin)] at h
  cases Except.ok.inj h
  change (if (stream ++ more).length < count then _ else _) = _
  rw [if_neg hlonger, List.take_append_of_le_length hwithin, List.drop_append_of_le_length hwithin]
  rfl

theorem read_steady : Steady read := by
  refine (asyncRead_steady kHeaderSize).bind fun headerBytes => ?_
  cases decodeHeader headerBytes with
  | error error => exact Steady.fail _
  | ok header =>
    change Steady (readPayload header)
    unfold readPayload
    split
    · exact (asyncRead_steady _).result _
    · exact Steady.pure _

theorem read_accepted {stream rest headerBytes : Bytes} {header : FrameHeader}
    (hheader : (asyncRead kHeaderSize).run stream = .ok (headerBytes, rest))
    (hdecode : decodeHeader headerBytes = .ok header) :
    read.run stream = (readPayload header).run rest := by
  rw [read, StateT.run_bind, hheader]
  simp only [bind, Except.bind, hdecode]

theorem read_rejected {stream rest headerBytes : Bytes} {error : DecodeError}
    (hheader : (asyncRead kHeaderSize).run stream = .ok (headerBytes, rest))
    (hdecode : decodeHeader headerBytes = .error error) :
    read.run stream = .error (.malformed error) := by
  rw [read, StateT.run_bind, hheader]
  simp only [bind, Except.bind, hdecode]
  rfl

theorem asyncRead_error {count : Nat} {stream : Bytes} {error : ReadError}
    (h : (asyncRead count).run stream = .error error) : error = .endOfFile := by
  by_cases hshort : stream.length < count
  · rw [asyncRead_short hshort] at h
    exact (Except.error.inj h).symm
  · change (if stream.length < count then _ else _) = _ at h
    rw [if_neg hshort] at h
    contradiction

theorem readPayload_error {header : FrameHeader} {stream : Bytes} {error : ReadError}
    (h : (readPayload header).run stream = .error error) : error = .endOfFile := by
  unfold readPayload at h
  split at h
  · rw [StateT.run_bind] at h
    cases hpayload : (asyncRead header.payloadLength.toNat).run stream with
    | error early =>
      rw [hpayload] at h
      cases Except.error.inj h
      exact asyncRead_error hpayload
    | ok payload =>
      rw [hpayload] at h
      contradiction
  · contradiction

theorem read_malformed {stream : Bytes} {error : DecodeError}
    (h : read.run stream = .error (.malformed error)) (more : Bytes) :
    read.run (stream ++ more) = .error (.malformed error) := by
  cases hheader : (asyncRead kHeaderSize).run stream with
  | error early =>
    rw [read, StateT.run_bind, hheader] at h
    have hmalformed : early = .malformed error := Except.error.inj h
    have heof := asyncRead_error hheader
    rw [hmalformed] at heof
    contradiction
  | ok taken =>
    obtain ⟨headerBytes, rest⟩ := taken
    have hlonger := asyncRead_steady _ _ _ _ hheader more
    cases hdecode : decodeHeader headerBytes with
    | error found =>
      rw [read_rejected hheader hdecode] at h
      rw [read_rejected hlonger hdecode]
      exact h
    | ok header =>
      rw [read_accepted hheader hdecode] at h
      have heof := readPayload_error h
      contradiction

end FrameChannel

/-- A connection to the server, with what each of its frames came to so far. -/
structure ServerSession (F : Type) where
  component : Component F
  served : List (Entered F) := []

namespace ServerSession
variable {F : Type} (others : Nat → Component F → Component F) (clock : Nat → TimePoint)

def found (session : ServerSession F) : Component F :=
  others session.served.length session.component

def turn (session : ServerSession F) (entered : Entered F) : ServerSession F :=
  ⟨entered.component, session.served ++ [entered]⟩

def todo (session : ServerSession F) : List (Action F) := session.served.flatMap (·.todo)

def handle (frame : Frame) (session : ServerSession F) :
    ServerSession F × Except DecodeError Unit :=
  let now := clock session.served.length
  (session.turn ((session.found others).serve frame now),
    (session.found others).serveExit frame now)

/-- `run`, with the channel's `read` and the handler. -/
def run : ReadLoop UInt8 ReadError Frame (ServerSession F) DecodeError where
  reader := FrameChannel.read
  shorter := FrameChannel.read_shorter
  handle := handle others clock

def hear (message : Message) (session : ServerSession F) :
    ServerSession F × Except DecodeError Unit :=
  let now := clock session.served.length
  (session.turn ((session.found others).handle message now),
    (session.found others).handleExit message now)

def hearAll (session : ServerSession F) : List Message → ServerSession F × Except DecodeError Unit
  | [] => (session, .ok ())
  | message :: rest =>
      match session.hear others clock message with
      | (next, .error error) => (next, .error error)
      | (next, .ok ()) => next.hearAll rest

section
variable {others clock} {session : ServerSession F}

theorem handle_decoded {frame : Frame} {message : Message} (h : frame.decode = .ok message) :
    handle others clock frame session = hear others clock message session := by
  simp only [handle, hear, Component.serveExit_decoded h, Component.serve, Component.receive_eq, h]
  rfl

theorem handleAll_decoded {frames : List Frame} {messages : List Message}
    (h : List.Forall₂ (fun (frame : Frame) message => frame.decode = .ok message) frames messages)
    (session : ServerSession F) :
    (run others clock).handleAll session frames = session.hearAll others clock messages := by
  induction h generalizing session with
  | nil => rfl
  | @cons frame message frames messages hdecode _ ih =>
    have hturn : (run others clock).handle frame session = hear others clock message session :=
      handle_decoded hdecode
    rw [ReadLoop.handleAll, hearAll, hturn]
    rcases hear others clock message session with ⟨next, exit⟩
    cases exit with
    | error error => rfl
    | ok done => exact ih next

end

end ServerSession

def Message.Framed : List Message → List Bytes → Prop :=
  List.Forall₂ fun message bytes => message.frameOf = .ok bytes

namespace Message.Framed
variable {messages : List Message} {pieces : List Bytes}

theorem frames (h : Framed messages pieces) : ∃ frames : List Frame,
    List.Forall₂ (Reads FrameChannel.read) pieces frames ∧
      List.Forall₂ (fun (frame : Frame) message => frame.decode = .ok message) frames messages := by
  induction h with
  | nil => exact ⟨[], .nil, .nil⟩
  | cons hframe _ ih =>
    obtain ⟨frames, hreads, hdecoded⟩ := ih
    obtain ⟨frame, hread, hdecode⟩ := Message.decode_sent hframe
    exact ⟨frame :: frames, .cons hread hreads, .cons hdecode hdecoded⟩

theorem truncated (h : Framed messages pieces) : ∀ piece ∈ pieces, ∀ cut < piece.length,
    FrameChannel.read.run (piece.take cut) = .error .endOfFile := by
  induction h with
  | nil => exact List.forall_mem_nil _
  | @cons message piece _ _ hframe _ ih =>
    refine List.forall_mem_cons.mpr ⟨?_, ih⟩
    intro cut hcut
    obtain ⟨payload, _, hpayload⟩ := Except.bind_eq_ok hframe
    exact FrameChannel.read_truncated message.type_ne_invalid hpayload hcut

theorem fits (h : Framed messages pieces) : ∀ message ∈ messages, message.fits := by
  induction h with
  | nil => exact List.forall_mem_nil _
  | @cons message piece _ _ hframe _ ih =>
    refine List.forall_mem_cons.mpr ⟨?_, ih⟩
    unfold Message.fits
    rw [hframe]
    rfl

end Message.Framed

theorem Message.exists_framed {messages : List Message} (h : ∀ message ∈ messages, message.fits) :
    ∃ pieces, Framed messages pieces := by
  induction messages with
  | nil => exact ⟨[], .nil⟩
  | cons message rest ih =>
    obtain ⟨bytes, hframe⟩ := message.ok_of_fits (h message List.mem_cons_self)
    obtain ⟨pieces, hpieces⟩ := ih fun other hother => h other (List.mem_cons_of_mem _ hother)
    exact ⟨bytes :: pieces, .cons hframe hpieces⟩

namespace Component
variable {F : Type}

def AllFramable (c : Component F) : Prop :=
  ∀ key shown, c.space.view key = some shown → Framable key shown

theorem AllFramable.handle {c : Component F} (h : c.AllFramable) {message : Message}
    (hfits : message.fits) (now : TimePoint) : (c.handle message now).component.AllFramable := by
  refine @framable_enter F c (.handle message) now ?_ ?_ h
  · nofun
  · intro other hother _
    cases hother
    exact hfits

theorem AllFramable.handleExit {c : Component F} (h : c.AllFramable) {message : Message}
    (hfits : message.fits) (now : TimePoint) : c.handleExit message now = .ok () := by
  by_cases hother : ∀ subscription, message ≠ .subscription subscription
  · exact handleExit_ok hfits hother
  · push Not at hother
    obtain ⟨subscription, rfl⟩ := hother
    change sendEachExit (c.toSend subscription now) = .ok ()
    rw [sendEachExit_ok_iff]
    intro pair hpair
    rw [pairUpdate_fits_iff]
    have howes := (mem_toSend c).mp hpair
    apply h pair.pairKey (pair.value, pair.type)
    rw [PairSpace.view_eq_held, show c.space.held pair.pairKey = some pair from howes.held]
    rfl

end Component

namespace ServerSession
variable {F : Type} {others : Nat → Component F → Component F} {clock : Nat → TimePoint}

/-- A store from which everything can be framed lets no handler throw. -/
theorem hearAll_ok (hothers : ∀ turn c, c.AllFramable → (others turn c).AllFramable)
    {messages : List Message} (hfits : ∀ message ∈ messages, message.fits)
    {session : ServerSession F} (h : session.component.AllFramable) :
    (session.hearAll others clock messages).2 = .ok () ∧
      (session.hearAll others clock messages).1.served.length =
        session.served.length + messages.length := by
  induction messages generalizing session with
  | nil => exact ⟨rfl, rfl⟩
  | cons message rest ih =>
    have hmessage := hfits message List.mem_cons_self
    have hfound : (session.found others).AllFramable := hothers _ _ h
    have hexit := hfound.handleExit hmessage (clock session.served.length)
    have hnext := hfound.handle hmessage (clock session.served.length)
    rw [hearAll, hear, hexit]
    have hlater := @ih (fun other hother => hfits other (List.mem_cons_of_mem _ hother))
      (session.turn ((session.found others).handle message (clock session.served.length))) hnext
    refine ⟨hlater.1, hlater.2.trans ?_⟩
    rw [turn, List.length_append, List.length_singleton, List.length_cons]
    omega

theorem run_framed (others : Nat → Component F → Component F) (clock : Nat → TimePoint)
    (session : ServerSession F) {messages : List Message} {pieces : List Bytes}
    (hpieces : Message.Framed messages pieces) (cut : Nat) :
    ((ServerSession.run others clock).run session (pieces.flatten.take cut)).state =
        (session.hearAll others clock (messages.take (ReadLoop.wholeWithin pieces cut))).1 ∧
      ((ServerSession.run others clock).run session (pieces.flatten.take cut)).reason =
        .after .endOfFile
          (session.hearAll others clock (messages.take (ReadLoop.wholeWithin pieces cut))).2 := by
  obtain ⟨frames, hreads, hdecoded⟩ := hpieces.frames
  have hall := (ServerSession.run others clock).run_cut hreads hpieces.truncated rfl cut session
  have hsame : (ServerSession.run others clock).handleAll session
      (frames.take (ReadLoop.wholeWithin pieces cut)) =
        session.hearAll others clock (messages.take (ReadLoop.wholeWithin pieces cut)) :=
    ServerSession.handleAll_decoded (List.forall₂_take _ hdecoded) session
  rw [hsame] at hall
  exact ⟨hall.1, hall.2⟩

end ServerSession

namespace ServerSession
variable {F : Type} {others : Nat → Component F → Component F} {clock : Nat → TimePoint}

theorem run_prefix (session : ServerSession F) (arrived : Bytes) :
    session.served <+: ((run others clock).run session arrived).state.served := by
  refine (run others clock).run_keeps (I := fun after => session.served <+: after.served) ?_
    session arrived (List.prefix_refl _)
  intro frame before hbefore
  exact hbefore.trans (List.prefix_append _ _)

end ServerSession

/-- What the server has done for the bytes that arrived stays done, whatever
follows them. A connection that a header, a frame or a handler has ended does
nothing more; any other goes on from where it is. -/
theorem served_in_pieces {F : Type} (others : Nat → Component F → Component F)
    (clock : Nat → TimePoint) (session : ServerSession F) (arrived more : Bytes) :
    let before := (ServerSession.run others clock).run session arrived
    let after := (ServerSession.run others clock).run session (arrived ++ more)
    before.state.served <+: after.state.served ∧
      (before.reason = .unread .endOfFile →
        after = (ServerSession.run others clock).run before.state (before.rest ++ more)) ∧
      (before.reason ≠ .unread .endOfFile →
        after.state = before.state ∧ after.reason = before.reason) := by
  intro before after
  have hover : before.reason ≠ .unread .endOfFile →
      after = ⟨before.state, before.reason, before.rest ++ more⟩ := by
    intro hreason
    cases hfound : before.reason with
    | thrown error => exact ReadLoop.run_final FrameChannel.read_steady more hfound
    | unread error =>
      cases error with
      | endOfFile => exact absurd hfound hreason
      | malformed error =>
        exact ReadLoop.run_final_unread FrameChannel.read_steady hfound
          (fun _ => FrameChannel.read_malformed) more
  by_cases hreason : before.reason = .unread .endOfFile
  · have hresumed : after =
        (ServerSession.run others clock).run before.state (before.rest ++ more) :=
      ReadLoop.run_resume FrameChannel.read_steady more hreason
    refine ⟨?_, fun _ => hresumed, fun hnot => absurd hreason hnot⟩
    rw [hresumed]
    exact ServerSession.run_prefix before.state (before.rest ++ more)
  · have hsame := hover hreason
    refine ⟨?_, fun heof => absurd heof hreason, fun _ => ?_⟩
    · rw [hsame]
    · rw [hsame]
      exact ⟨rfl, rfl⟩

/-- A header that is rejected, or a frame that no handler can decode. -/
def FrameChannel.Rejected (bytes : Bytes) : Prop :=
  (∃ error, read.run bytes = .error (.malformed error)) ∨
    ∃ frame rest error, read.run bytes = .ok (frame, rest) ∧ frame.decode = .error error

end Srnp
