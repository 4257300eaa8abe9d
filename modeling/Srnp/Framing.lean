import Srnp.RoundTrip

/-! Frames on a stream of bytes. A read takes a header and then as many bytes as
the header says, so what is read back stays in step with what was written. -/
namespace Srnp
open Wire Reading

structure Frame where
  header : FrameHeader
  payload : Bytes

inductive ReadError where
  | endOfFile
  | malformed (error : DecodeError)

namespace FrameChannel

/-- `asio::async_read`: the bytes asked for, or an error. -/
def asyncRead (count : Nat) : Reader UInt8 ReadError Bytes := fun stream =>
  if stream.length < count then throw .endOfFile
  else pure (stream.take count, stream.drop count)

/-- The second half of `read`: nothing is awaited for an empty payload. -/
def readPayload (header : FrameHeader) : Reader UInt8 ReadError Frame :=
  if 0 < header.payloadLength.toNat then do
    let payload ← asyncRead header.payloadLength.toNat
    pure ⟨header, payload⟩
  else pure ⟨header, []⟩

def read : Reader UInt8 ReadError Frame := do
  let headerBytes ← asyncRead kHeaderSize
  match decodeHeader headerBytes with
  | .error error => throw (.malformed error)
  | .ok header => readPayload header

theorem asyncRead_ok {count : Nat} {stream rest taken : Bytes}
    (h : (asyncRead count).run stream = .ok (taken, rest)) : stream.length = count + rest.length := by
  change (if stream.length < count then _ else _) = _ at h
  split at h
  · contradiction
  · rename_i hlong
    cases Except.ok.inj h
    rw [List.length_drop]
    omega

theorem readPayload_ok {header : FrameHeader} {stream rest : Bytes} {frame : Frame}
    (h : (readPayload header).run stream = .ok (frame, rest)) : rest.length ≤ stream.length := by
  unfold readPayload at h
  split at h
  · obtain ⟨⟨payload, last⟩, hpayload, hlast⟩ := Except.bind_eq_ok h
    have htail := asyncRead_ok hpayload
    cases Except.ok.inj hlast
    omega
  · cases Except.ok.inj h
    exact Nat.le_refl _

theorem read_shorter {stream rest : Bytes} {frame : Frame}
    (h : read.run stream = .ok (frame, rest)) : rest.length < stream.length := by
  rw [read, StateT.run_bind] at h
  obtain ⟨⟨headerBytes, tail⟩, hheader, hrest⟩ := Except.bind_eq_ok h
  have hlength := asyncRead_ok hheader
  have hsixteen : kHeaderSize = 16 := rfl
  dsimp only at hrest
  split at hrest
  · contradiction
  · have htail := readPayload_ok hrest
    omega

def readAll (stream : Bytes) : List Frame × ReadError × Bytes :=
  match h : read.run stream with
  | .error error => ([], error, stream)
  | .ok (frame, rest) =>
      have := read_shorter h
      let others := readAll rest
      (frame :: others.1, others.2)
termination_by stream.length

theorem readAll_error {stream : Bytes} {error : ReadError} (h : read.run stream = .error error) :
    readAll stream = ([], error, stream) := by
  rw [readAll]
  split
  · rename_i found hfound
    rw [h] at hfound
    cases hfound
    rfl
  · rename_i hfound
    rw [h] at hfound
    contradiction

theorem readAll_of_reads {bytes : Bytes} {frame : Frame} (h : Reads read bytes frame)
    (rest : Bytes) :
    readAll (bytes ++ rest) = (frame :: (readAll rest).1, (readAll rest).2) := by
  rw [readAll]
  split
  · rename_i hfound
    rw [h rest] at hfound
    contradiction
  · rename_i hfound
    rw [h rest] at hfound
    cases hfound
    rfl

theorem asyncRead_reads (bytes : Bytes) : Reads (asyncRead bytes.length) bytes bytes := by
  intro rest
  have hlong : ¬ (bytes ++ rest).length < bytes.length := by
    rw [List.length_append]
    omega
  change (if (bytes ++ rest).length < bytes.length then _ else _) = _
  rw [if_neg hlong, List.take_left, List.drop_left]
  rfl

theorem asyncRead_short {count : Nat} {stream : Bytes} (h : stream.length < count) :
    (asyncRead count).run stream = .error .endOfFile := by
  change (if stream.length < count then _ else _) = _
  rw [if_pos h]
  rfl

section
variable {header : FrameHeader} {payload : Bytes}

theorem readPayload_reads (h : header.payloadLength.toNat = payload.length) :
    Reads (readPayload header) payload ⟨header, payload⟩ := by
  unfold readPayload
  rw [h]
  split
  · exact (asyncRead_reads payload).result _
  · rename_i hempty
    rw [List.eq_nil_of_length_eq_zero (Nat.eq_zero_of_not_pos hempty)]
    exact Reads.pure _

theorem readPayload_short {stream : Bytes} (h : stream.length < header.payloadLength.toNat) :
    (readPayload header).run stream = .error .endOfFile := by
  have hpositive : 0 < header.payloadLength.toNat := by omega
  rw [readPayload, if_pos hpositive, StateT.run_bind, asyncRead_short h]
  rfl

theorem read_header (htype : header.type ≠ .invalid)
    (hlength : header.payloadLength.toNat ≤ kMaxPayload) (rest : Bytes) :
    read.run (encodeHeader header ++ rest) = (readPayload header).run rest := by
  have hheader := asyncRead_reads (encodeHeader header) rest
  rw [encodeHeader_length] at hheader
  rw [read, StateT.run_bind, hheader]
  change StateT.run (match decodeHeader (encodeHeader header) with | _ => _) rest = _
  rw [decodeHeader_encodeHeader htype hlength]

end

def framed (type : MessageType) (payload : Bytes) : Frame :=
  ⟨⟨type, UInt32.ofNat payload.length, -1⟩, payload⟩

variable {type : MessageType} {payload bytes : Bytes}

theorem read_reads (htype : type ≠ .invalid) (h : frame type payload = .ok bytes) :
    Reads read bytes (framed type payload) := by
  obtain ⟨hshort, rfl⟩ := frame_eq_ok h
  have hlength := length_toNat hshort
  intro rest
  rw [List.append_assoc, read_header htype (hlength.trans_le hshort)]
  exact readPayload_reads hlength rest

theorem read_truncated (htype : type ≠ .invalid) (h : frame type payload = .ok bytes) {cut : Nat}
    (hcut : cut < bytes.length) : read.run (bytes.take cut) = .error .endOfFile := by
  obtain ⟨hshort, rfl⟩ := frame_eq_ok h
  have hlength := length_toNat hshort
  have hheader := encodeHeader_length ⟨type, UInt32.ofNat payload.length, -1⟩
  rw [List.length_append, hheader] at hcut
  rw [List.take_append, hheader]
  by_cases hearly : cut < kHeaderSize
  · rw [read, StateT.run_bind, asyncRead_short]
    · rfl
    · rw [List.length_append, List.length_take, List.length_take, hheader]
      omega
  · have hwhole : (encodeHeader ⟨type, UInt32.ofNat payload.length, -1⟩).length ≤ cut := by
      omega
    rw [List.take_of_length_le hwhole, read_header htype (hlength.trans_le hshort)]
    apply readPayload_short
    change _ < (UInt32.ofNat payload.length).toNat
    rw [hlength, List.length_take]
    omega

/-! ### Streams -/

def sent : List (MessageType × Bytes) → Except DecodeError Bytes :=
  writeEach fun message => frame message.1 message.2

def wholeBefore : List (MessageType × Bytes) → Nat → List (MessageType × Bytes)
  | [], _ => []
  | message :: rest, cut =>
      if kHeaderSize + message.2.length ≤ cut then
        message :: wholeBefore rest (cut - (kHeaderSize + message.2.length))
      else []

def framedEach (messages : List (MessageType × Bytes)) : List Frame :=
  messages.map fun message => framed message.1 message.2

theorem frame_length (h : frame type payload = .ok bytes) :
    bytes.length = kHeaderSize + payload.length := by
  obtain ⟨_, rfl⟩ := frame_eq_ok h
  rw [List.length_append, encodeHeader_length]

theorem readAll_nil : readAll [] = ([], .endOfFile, []) :=
  readAll_error rfl

theorem readAll_sent {messages : List (MessageType × Bytes)}
    (htypes : ∀ message ∈ messages, message.1 ≠ .invalid) {stream : Bytes}
    (h : sent messages = .ok stream) :
    readAll stream = (framedEach messages, .endOfFile, []) := by
  induction messages generalizing stream with
  | nil =>
    cases Except.ok.inj h
    exact readAll_nil
  | cons message rest ih =>
    obtain ⟨first, hfirst, hothers⟩ := Except.bind_eq_ok h
    obtain ⟨others, hrest, hall⟩ := Except.bind_eq_ok hothers
    cases Except.ok.inj hall
    have hread := read_reads (htypes message List.mem_cons_self) hfirst
    rw [readAll_of_reads hread,
      ih (fun other hother => htypes other (List.mem_cons_of_mem _ hother)) hrest]
    rfl

theorem readAll_cut {messages : List (MessageType × Bytes)}
    (htypes : ∀ message ∈ messages, message.1 ≠ .invalid) {stream : Bytes}
    (h : sent messages = .ok stream) (cut : Nat) :
    (readAll (stream.take cut)).1 = framedEach (wholeBefore messages cut) ∧
      (readAll (stream.take cut)).2.1 = .endOfFile := by
  induction messages generalizing stream cut with
  | nil =>
    cases Except.ok.inj h
    rw [List.take_nil, readAll_nil]
    exact ⟨rfl, rfl⟩
  | cons message rest ih =>
    obtain ⟨first, hfirst, hothers⟩ := Except.bind_eq_ok h
    obtain ⟨others, hrest, hall⟩ := Except.bind_eq_ok hothers
    cases Except.ok.inj hall
    have htype := htypes message List.mem_cons_self
    have hlength := frame_length hfirst
    unfold wholeBefore
    rw [← hlength, List.take_append]
    split
    · rename_i hwhole
      have htail := ih (fun other hother => htypes other (List.mem_cons_of_mem _ hother)) hrest
        (cut - first.length)
      rw [List.take_of_length_le hwhole, readAll_of_reads (read_reads htype hfirst)]
      exact ⟨congrArg (framed message.1 message.2 :: ·) htail.1, htail.2⟩
    · rename_i hwithin
      have hcut : cut < first.length := Nat.lt_of_not_le hwithin
      have hnone : cut - first.length = 0 := by omega
      rw [hnone, List.take_zero, List.append_nil, readAll_error (read_truncated htype hfirst hcut)]
      exact ⟨rfl, rfl⟩

theorem sent_ok {messages : List (MessageType × Bytes)}
    (h : ∀ message ∈ messages, message.2.length ≤ kMaxPayload) :
    ∃ stream, sent messages = .ok stream := by
  induction messages with
  | nil => exact ⟨[], rfl⟩
  | cons message rest ih =>
    obtain ⟨others, hothers⟩ := ih fun other hother => h other (List.mem_cons_of_mem _ hother)
    have hshort : ¬ kMaxPayload < message.2.length :=
      Nat.not_lt.mpr (h message List.mem_cons_self)
    have hframe : frame message.1 message.2 =
        .ok (encodeHeader (framed message.1 message.2).header ++ message.2) := by
      rw [frame, if_neg hshort]
      rfl
    refine ⟨encodeHeader (framed message.1 message.2).header ++ message.2 ++ others, ?_⟩
    change (frame message.1 message.2 >>= fun first => sent rest >>= fun others =>
      pure (first ++ others)) = _
    rw [hframe, hothers]
    rfl

/-- What is read back from a stream of frames, whole or cut short. -/
theorem stream_read_back {messages : List (MessageType × Bytes)}
    (htypes : ∀ message ∈ messages, message.1 ≠ .invalid)
    (hlengths : ∀ message ∈ messages, message.2.length ≤ kMaxPayload) :
    ∃ stream, sent messages = .ok stream ∧
      readAll stream = (framedEach messages, .endOfFile, []) ∧
      ∀ cut, (readAll (stream.take cut)).1 = framedEach (wholeBefore messages cut) ∧
        (readAll (stream.take cut)).2.1 = .endOfFile := by
  obtain ⟨stream, hstream⟩ := sent_ok hlengths
  exact ⟨stream, hstream, readAll_sent htypes hstream, readAll_cut htypes hstream⟩

/-- An empty payload, then one of a byte: cut in the second frame, the first is
still read. -/
theorem stream_read_back_two : ∃ stream,
    sent [(.indicatePresence, []), (.pair, [7])] = .ok stream ∧
      (readAll stream).1 = [framed .indicatePresence [], framed .pair [7]] ∧
      (readAll (stream.take 32)).1 = [framed .indicatePresence []] := by
  obtain ⟨stream, hstream, hall, hcut⟩ :=
    @stream_read_back [(.indicatePresence, []), (.pair, [7])] (by decide) (by decide)
  refine ⟨stream, hstream, ?_, (hcut 32).1⟩
  rw [hall]
  rfl

end FrameChannel

end Srnp
