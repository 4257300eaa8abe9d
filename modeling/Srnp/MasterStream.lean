import Srnp.Directory
import Srnp.ServerLoop

/-! The link to the master on the bytes that come off it. The server's
constructor waits for the reply to its greeting and throws if there is none;
then a loop reads updates. Wherever the stream is cut, the component knows what
the frames say that arrived as a whole, and the constructor has thrown if not
even the welcome did. -/
namespace Srnp
open Std Wire Reading Transition LastWrite

namespace MasterLink
variable {F : Type}

/-- What `registerWithMaster` reads after a header. The type is checked before
the payload is read. -/
def readWelcome (size : Nat) (header : FrameHeader) : Reader UInt8 ReadError MasterMessage :=
  if header.type ≠ .masterMessage then
    throw (.malformed ⟨"expected the master's reply, got something else"⟩)
  else do
    let payload ← FrameChannel.asyncRead header.payloadLength.toNat
    match (Format.masterMessage size).decodePayload payload with
    | .error error => throw (.malformed error)
    | .ok message => pure message

def readReply (size : Nat) : Reader UInt8 ReadError MasterMessage := do
  let headerBytes ← FrameChannel.asyncRead kHeaderSize
  match decodeHeader headerBytes with
  | .error error => throw (.malformed error)
  | .ok header => readWelcome size header

def handle (frame : Frame) (link : MasterLink F) : MasterLink F × Except DecodeError Unit :=
  if frame.header.type ≠ .updateComponents then
    (link, .error ⟨"the master sent an unexpected message type"⟩)
  else
    match Format.updateComponents.decodePayload frame.payload with
    | .error error => (link, .error error)
    | .ok update => ({ link with client := link.client.told (link.swapped (.update update)) }, .ok ())

def run : ReadLoop UInt8 ReadError Frame (MasterLink F) DecodeError where
  reader := FrameChannel.read
  shorter := FrameChannel.read_shorter
  handle := handle

def welcomed (link : MasterLink F) (welcome : MasterMessage) : MasterLink F :=
  { link with client := link.client.told (link.swapped (.welcome welcome)), registered := true }

/-- The server's constructor, and the loop it starts. -/
def attend (size : Nat) (link : MasterLink F) (stream : Bytes) :
    Except ReadError (Looped UInt8 ReadError (MasterLink F) DecodeError) := do
  let (welcome, rest) ← (readReply size).run stream
  pure (run.run (link.welcomed welcome) rest)

end MasterLink

def MasterFrame.Framed : List MasterFrame → List Bytes → Prop :=
  List.Forall₂ fun message bytes => message.frameOf = .ok bytes

theorem MasterFrame.exists_framed {frames : List MasterFrame}
    (h : ∀ message ∈ frames, message.fits) : ∃ pieces, Framed frames pieces := by
  induction frames with
  | nil => exact ⟨[], .nil⟩
  | cons message rest ih =>
    obtain ⟨bytes, hframe⟩ := MasterFrame.ok_of_fits (h message List.mem_cons_self)
    obtain ⟨pieces, hpieces⟩ := ih fun other hother => h other (List.mem_cons_of_mem _ hother)
    exact ⟨bytes :: pieces, .cons hframe hpieces⟩

namespace Courteous
variable {size : Nat} {own : OwnerId} {frames : List MasterFrame}

theorem legible (h : Courteous size own frames) : ∀ message ∈ frames, message.Legible size := by
  induction h with
  | silent => exact List.forall_mem_nil _
  | welcome hlegible hnodup hown => exact List.forall_mem_singleton.mpr hlegible
  | update hfront hsome hfits hother hturn ih =>
    intro message hmem
    rcases List.mem_append.mp hmem with hold | hnew
    · exact ih message hold
    · cases List.mem_singleton.mp hnew
      exact hfits

theorem shape (h : Courteous size own frames) (hsome : frames ≠ []) :
    ∃ (infos : List ComponentInfo) (updates : List UpdateComponents),
      frames = .welcome ⟨own, infos⟩ :: updates.map .update := by
  induction h with
  | silent => exact absurd rfl hsome
  | @welcome infos hlegible hnodup hown => exact ⟨infos, [], rfl⟩
  | @update front update hfront hspoken hfits hother hturn ih =>
    obtain ⟨infos, updates, rfl⟩ := ih hspoken
    refine ⟨infos, updates ++ [update], ?_⟩
    rw [List.map_append]
    rfl

end Courteous

/-! ### The reply -/

namespace MasterLink
variable {F : Type} {size : Nat} {link : MasterLink F} {bytes rest : Bytes}
variable {welcome : MasterMessage}

theorem readReply_accepted {stream headerBytes : Bytes} {header : FrameHeader}
    (hheader : (FrameChannel.asyncRead kHeaderSize).run stream = .ok (headerBytes, rest))
    (hdecode : decodeHeader headerBytes = .ok header) :
    (readReply size).run stream = (readWelcome size header).run rest := by
  rw [readReply, StateT.run_bind, hheader]
  simp only [bind, Except.bind, hdecode]

theorem readReply_header {header : FrameHeader} (htype : header.type = .masterMessage)
    (hlength : header.payloadLength.toNat ≤ kMaxPayload) (rest : Bytes) :
    (readReply size).run (encodeHeader header ++ rest) = (readWelcome size header).run rest := by
  have hheader := FrameChannel.asyncRead_reads (encodeHeader header) rest
  rw [encodeHeader_length] at hheader
  refine readReply_accepted hheader (decodeHeader_encodeHeader ?_ hlength)
  rw [htype]
  decide

section
variable (hlegible : (MasterFrame.welcome welcome).Legible size)
  (hframe : (MasterFrame.welcome welcome).frameOf = .ok bytes)

include hlegible hframe in
theorem readReply_reads : Reads (readReply size) bytes welcome := by
  obtain ⟨payload, hpayload, hbytes⟩ := Except.bind_eq_ok hframe
  obtain ⟨hshort, rfl⟩ := frame_eq_ok hbytes
  have hlength := length_toNat hshort
  have hdecode := @Format.decodePayload_of_reads _ (Format.masterMessage size) _ _
    (masterMessage_reads hlegible.2 hpayload)
  intro rest
  rw [List.append_assoc, readReply_header rfl (hlength.trans_le hshort), readWelcome,
    if_neg (by simp [MasterFrame.type]), StateT.run_bind]
  have hread := FrameChannel.asyncRead_reads payload rest
  rw [← hlength] at hread
  dsimp only
  rw [hread]
  simp only [bind, Except.bind, hdecode]
  rfl

include hframe in
theorem readReply_truncated {cut : Nat} (hcut : cut < bytes.length) :
    (readReply size).run (bytes.take cut) = .error .endOfFile := by
  obtain ⟨payload, hpayload, hbytes⟩ := Except.bind_eq_ok hframe
  obtain ⟨hshort, rfl⟩ := frame_eq_ok hbytes
  have hlength := length_toNat hshort
  have hheader := encodeHeader_length
    ⟨(MasterFrame.welcome welcome).type, UInt32.ofNat payload.length, -1⟩
  rw [List.length_append, hheader] at hcut
  rw [List.take_append, hheader]
  by_cases hearly : cut < kHeaderSize
  · rw [readReply, StateT.run_bind, FrameChannel.asyncRead_short]
    · rfl
    · rw [List.length_append, List.length_take, List.length_take, hheader]
      omega
  · rw [List.take_of_length_le (hheader.trans_le (Nat.le_of_not_lt hearly)),
      readReply_header rfl (hlength.trans_le hshort), readWelcome,
      if_neg (by simp [MasterFrame.type]), StateT.run_bind, FrameChannel.asyncRead_short]
    · rfl
    · dsimp only
      rw [hlength, List.length_take]
      omega

end

/-! ### The loop -/

def Carries (frame : Frame) (update : UpdateComponents) : Prop :=
  frame.header.type = .updateComponents ∧
    Format.updateComponents.decodePayload frame.payload = .ok update

theorem handle_carried {frame : Frame} {update : UpdateComponents} (h : Carries frame update)
    (link : MasterLink F) : link.handle frame =
      ({ link with client := link.client.told (link.swapped (.update update)) }, .ok ()) := by
  unfold handle
  rw [if_neg fun hother => hother h.1]
  simp only [h.2]

theorem carries_update {update : UpdateComponents}
    (hframe : (MasterFrame.update update).frameOf = .ok bytes) :
    (∃ frame, Reads FrameChannel.read bytes frame ∧ Carries frame update) ∧
      ∀ cut < bytes.length, FrameChannel.read.run (bytes.take cut) = .error .endOfFile := by
  have htype : (MasterFrame.update update).type ≠ .invalid := by
    intro h
    contradiction
  obtain ⟨payload, hpayload, hbytes⟩ := Except.bind_eq_ok hframe
  constructor
  · exact ⟨_, FrameChannel.read_reads htype hbytes, rfl,
      Format.decodePayload_of_reads (updateComponents_reads hpayload)⟩
  · intro cut hcut
    exact FrameChannel.read_truncated htype hbytes hcut

theorem carries_updates {updates : List UpdateComponents} {pieces : List Bytes}
    (h : MasterFrame.Framed (updates.map .update) pieces) :
    (∃ frames, List.Forall₂ (Reads FrameChannel.read) pieces frames ∧
      List.Forall₂ Carries frames updates) ∧
    ∀ piece ∈ pieces, ∀ cut < piece.length,
      FrameChannel.read.run (piece.take cut) = .error .endOfFile := by
  induction updates generalizing pieces with
  | nil =>
    cases h
    exact ⟨⟨[], .nil, .nil⟩, List.forall_mem_nil _⟩
  | cons update rest ih =>
    obtain ⟨piece, others, hpiece, hothers, rfl⟩ := List.forall₂_cons_left_iff.mp h
    obtain ⟨⟨frame, hread, hcarries⟩, hshort⟩ := carries_update hpiece
    obtain ⟨⟨frames, hreads, hall⟩, hrest⟩ := ih hothers
    exact ⟨⟨frame :: frames, .cons hread hreads, .cons hcarries hall⟩,
      List.forall_mem_cons.mpr ⟨hshort, hrest⟩⟩

theorem Knows.handleAll {masterIp : Bytes} {own : OwnerId} {front : List MasterFrame}
    (h : Knows masterIp own front link) (hsome : front ≠ []) {frames : List Frame}
    {updates : List UpdateComponents} (hcarries : List.Forall₂ Carries frames updates) :
    ((run : ReadLoop _ _ _ (MasterLink F) _).handleAll link frames).2 = .ok () ∧
      Knows masterIp own (front ++ updates.map .update)
        ((run : ReadLoop _ _ _ (MasterLink F) _).handleAll link frames).1 := by
  induction hcarries generalizing link front with
  | nil =>
    rw [List.map_nil, List.append_nil]
    exact ⟨rfl, h⟩
  | @cons frame update frames updates hframe _ ih =>
    have hturn : (run : ReadLoop _ _ _ (MasterLink F) _).handle frame link = _ :=
      handle_carried hframe link
    have hregistered : link.registered = true := h.registered.mpr hsome
    have hnext := @Knows.told _ _ _ _ _ (.update update) h (h.owner hsome)
    rw [← hregistered] at hnext
    have hrest := ih hnext (by simp)
    rw [ReadLoop.handleAll, hturn, List.map_cons]
    rw [List.append_assoc] at hrest
    exact hrest

/-- Wherever the stream of a link is cut, the constructor has thrown if the
welcome is not there as a whole; and otherwise the loop has handled what is, and
waits for more. -/
theorem attend_cut {own : OwnerId} {frames : List MasterFrame} (h : Courteous size own frames)
    (hsome : frames ≠ []) {pieces : List Bytes} (hpieces : MasterFrame.Framed frames pieces)
    (masterIp : Bytes) (cut : Nat) :
    (ReadLoop.wholeWithin pieces cut = 0 →
      attend size (.initial masterIp : MasterLink F) (pieces.flatten.take cut) =
        .error .endOfFile) ∧
    (0 < ReadLoop.wholeWithin pieces cut → ∃ ended,
      attend size (.initial masterIp : MasterLink F) (pieces.flatten.take cut) = .ok ended ∧
        ended.reason = .unread .endOfFile ∧
        Knows masterIp own (frames.take (ReadLoop.wholeWithin pieces cut)) ended.state) := by
  obtain ⟨infos, updates, rfl⟩ := h.shape hsome
  have hlegible := h.legible _ List.mem_cons_self
  obtain ⟨first, rest, hfirst, hrest, rfl⟩ := List.forall₂_cons_left_iff.mp hpieces
  rw [List.flatten_cons, List.take_append, ReadLoop.wholeWithin]
  by_cases hwhole : first.length ≤ cut
  · rw [if_pos hwhole]
    refine ⟨fun hnone => absurd hnone (Nat.succ_ne_zero _), fun _ => ?_⟩
    rw [List.take_of_length_le hwhole, List.take_succ_cons]
    obtain ⟨⟨decoded, hreads, hcarries⟩, hshort⟩ := carries_updates hrest
    have hwelcomed : Knows masterIp own [.welcome ⟨own, infos⟩]
        ((.initial masterIp : MasterLink F).welcomed ⟨own, infos⟩) :=
      (Knows.initial masterIp own).told rfl
    have hall := (run : ReadLoop _ _ _ (MasterLink F) _).run_cut hreads hshort rfl
      (cut - first.length) ((.initial masterIp : MasterLink F).welcomed ⟨own, infos⟩)
    have hknows := hwelcomed.handleAll (List.cons_ne_nil _ _)
      (List.forall₂_take (ReadLoop.wholeWithin rest (cut - first.length)) hcarries)
    refine ⟨_, by rw [attend, readReply_reads hlegible hfirst]; rfl, ?_, ?_⟩
    · rw [hall.2, hknows.1]
      rfl
    · rw [hall.1, ← List.map_take]
      exact hknows.2
  · rw [if_neg hwhole]
    refine ⟨fun _ => ?_, fun hpositive => absurd hpositive (Nat.lt_irrefl 0)⟩
    have hcut : cut < first.length := Nat.lt_of_not_le hwhole
    rw [show cut - first.length = 0 by omega, List.take_zero, List.append_nil, attend,
      readReply_truncated hfirst hcut]
    rfl

end MasterLink

theorem MasterFrame.Legible.fits {size : Nat} {message : MasterFrame}
    (h : message.Legible size) : message.fits := by
  cases message with
  | welcome message => exact h.1
  | update message => exact h

namespace MembershipRun
variable {F : Type} {draw : UInt32 → OwnerId} {size : Nat} {masterIp place : Nat → Bytes}
variable {ports : Nat → UInt16} {run : MembershipRun F} {number : Nat}

/-- Of a link of the master, whatever it said so far and however much of it has
arrived, the component knows what the frames say that arrived as a whole; if
not even the welcome did, its server is not constructed. -/
theorem attends_in_pieces (hrange : MasterHub.InRange draw)
    (hreach : Reach (step draw size) (Greeted size ports place) (initial masterIp) run)
    (hsome : (run.hub.links number).sent ≠ []) :
    ∃ pieces, MasterFrame.Framed (run.hub.links number).sent pieces ∧ ∀ cut,
      (ReadLoop.wholeWithin pieces cut = 0 →
        MasterLink.attend size (.initial (masterIp number) : MasterLink F)
          (pieces.flatten.take cut) = .error .endOfFile) ∧
      (0 < ReadLoop.wholeWithin pieces cut → ∃ ended,
        MasterLink.attend size (.initial (masterIp number) : MasterLink F)
            (pieces.flatten.take cut) = .ok ended ∧
          ended.reason = .unread .endOfFile ∧
          MasterLink.Knows (masterIp number) (run.hub.links number).owner
            ((run.hub.links number).sent.take (ReadLoop.wholeWithin pieces cut))
            ended.state) := by
  obtain ⟨htelling, _⟩ := telling_of_reach hrange hreach
  have hcourteous := htelling.courteous number
  obtain ⟨pieces, hpieces⟩ := MasterFrame.exists_framed
    fun message hmem => (hcourteous.legible message hmem).fits
  exact ⟨pieces, hpieces, MasterLink.attend_cut hcourteous hsome hpieces (masterIp number)⟩

/-- A link with a welcome and an update on it. -/
theorem attends_in_pieces_two : ∃ run : MembershipRun Unit,
    (run.hub.links 0).sent ≠ [] ∧
    ∃ pieces, MasterFrame.Framed (run.hub.links 0).sent pieces ∧ ∀ cut,
      (ReadLoop.wholeWithin pieces cut = 0 →
        MasterLink.attend 72 (.initial [49] : MasterLink Unit) (pieces.flatten.take cut) =
          .error .endOfFile) ∧
      (0 < ReadLoop.wholeWithin pieces cut → ∃ ended,
        MasterLink.attend 72 (.initial [49] : MasterLink Unit) (pieces.flatten.take cut) =
            .ok ended ∧
          ended.reason = .unread .endOfFile ∧
          MasterLink.Knows [49] (run.hub.links 0).owner
            ((run.hub.links 0).sent.take (ReadLoop.wholeWithin pieces cut)) ended.state) := by
  obtain ⟨run, hreach, _, hflight, _⟩ := greeted_two
  have hsome : (run.hub.links 0).sent ≠ [] := by
    intro hnone
    rw [inFlight, hnone, List.drop_nil] at hflight
    contradiction
  exact ⟨run, hsome, attends_in_pieces inRange_3061 hreach hsome⟩

end MembershipRun

end Srnp
