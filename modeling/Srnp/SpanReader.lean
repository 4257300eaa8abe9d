import Srnp.RoundTrip
import Srnp.Lib.Cursor

/-! The reader as it is: an offset into the payload that every read checks and
then advances. It does what the readers of lists do and touches nothing outside
of the payload, and the formats are such that neither a part of a payload nor a
payload with more behind it is decoded. -/
namespace Srnp
open Wire Reading Cursor

abbrev SpanReader (T : Type) := CursorReader DecodeError T

namespace SpanReader
variable (span : Span UInt8)

def take (count : UInt64) : SpanReader Bytes := span.take ⟨"message ended early"⟩ count

def integer (width : UInt64) : SpanReader Nat := do
  let raw ← take span width
  pure (fromLittleEndian raw)

def u8 : SpanReader UInt8 := do pure (UInt8.ofNat (← integer span 1))
def u32 : SpanReader UInt32 := do pure (UInt32.ofNat (← integer span 4))
def i32 : SpanReader Int32 := do pure (UInt32.ofNat (← integer span 4)).toInt32
def i64 : SpanReader Int64 := do pure (UInt64.ofNat (← integer span 8)).toInt64
def boolean : SpanReader Bool := do pure ((← u8 span) ≠ 0)

def string : SpanReader Bytes := do
  let length ← u32 span
  take span length.toUInt64

def readEnum {E : Type} (ofCode : UInt8 → Option E) : SpanReader E := do
  match ofCode (← u8 span) with
  | none => throwing ⟨"enum value out of range"⟩
  | some value => pure value

def decodePair : SpanReader Pair := do
  let owner ← i32 span
  let key ← string span
  let value ← string span
  let type ← readEnum span PairType.ofCode
  let writeTime ← i64 span
  let expiryTime ← i64 span
  pure ⟨owner, key, value, type, writeTime, expiryTime⟩

def decodeSubscription : SpanReader Subscription := do
  let key ← string span
  let ownerId ← i32 span
  let subscriber ← i32 span
  let registering ← boolean span
  pure ⟨key, ownerId, subscriber, registering⟩

def decodeRemovePairRequest : SpanReader RemovePairRequest := do
  let owner ← i32 span
  let key ← string span
  pure ⟨owner, key⟩

def decodeIndicatePresence : SpanReader IndicatePresence := do
  let port ← string span
  let forceOwnerId ← boolean span
  let ownerId ← i32 span
  pure ⟨port, forceOwnerId, ownerId⟩

def decodeComponentInfo : SpanReader ComponentInfo := do
  let owner ← i32 span
  let ip ← string span
  let port ← string span
  pure ⟨owner, ip, port⟩

def decodeUpdateComponents : SpanReader UpdateComponents := do
  let operation ← readEnum span UpdateOperation.ofCode
  let component ← decodeComponentInfo span
  pure ⟨operation, component⟩

def decodeMasterMessage (size : Nat) : SpanReader MasterMessage := do
  let owner ← i32 span
  let count ← u32 span
  if kMaxPayload / size < count.toNat then throwing ⟨"implausible component count"⟩
  else do
    let allComponents ← Cursor.repeated (decodeComponentInfo span) count.toNat
    pure ⟨owner, allComponents⟩

/-- `decodePayload`, with `exhausted` for what may not be left. -/
def decodePayload {T : Type} (decode : SpanReader T) : Except (Fault DecodeError) T := do
  let (message, offset) ← decode.run 0
  if offset = span.size then pure message
  else throw (.thrown ⟨"message had unexpected trailing bytes"⟩)

/-! ### In step with the readers of lists -/

variable {span}

theorem take_follows {count : UInt64} (h : count.toNat < 2 ^ 63) :
    span.Follows (take span count) (Reader.take count.toNat) :=
  Span.Follows.take h fun _ => rfl

theorem integer_follows {width : UInt64} (h : width.toNat < 2 ^ 63) :
    span.Follows (integer span width) (Reader.integer width.toNat) :=
  (take_follows h).result fromLittleEndian

theorem u8_follows : span.Follows (u8 span) Reader.u8 :=
  (@integer_follows span 1 (by decide)).result _

theorem u32_follows : span.Follows (u32 span) Reader.u32 :=
  (@integer_follows span 4 (by decide)).result _

theorem i32_follows : span.Follows (i32 span) Reader.i32 :=
  (@integer_follows span 4 (by decide)).result _

theorem i64_follows : span.Follows (i64 span) Reader.i64 :=
  (@integer_follows span 8 (by decide)).result _

theorem boolean_follows : span.Follows (boolean span) Reader.boolean :=
  u8_follows.result _

theorem string_follows : span.Follows (string span) Reader.string := by
  refine u32_follows.bind fun length => ?_
  have hlength : length.toUInt64.toNat = length.toNat := UInt32.toNat_toUInt64 length
  have hsmall := length.toNat_lt
  rw [← hlength]
  apply take_follows
  omega

theorem readEnum_follows {E : Type} (ofCode : UInt8 → Option E) :
    span.Follows (readEnum span ofCode) (Srnp.readEnum ofCode) := by
  refine u8_follows.bind fun code => ?_
  cases ofCode code with
  | none => exact Span.Follows.fail _
  | some value => exact Span.Follows.pure value

theorem decodePair_follows : span.Follows (decodePair span) Srnp.decodePair :=
  i32_follows.bind fun _ => string_follows.bind fun _ => string_follows.bind fun _ =>
    (readEnum_follows _).bind fun _ => i64_follows.bind fun _ => i64_follows.result _

theorem decodeSubscription_follows :
    span.Follows (decodeSubscription span) Srnp.decodeSubscription :=
  string_follows.bind fun _ => i32_follows.bind fun _ => i32_follows.bind fun _ =>
    boolean_follows.result _

theorem decodeRemovePairRequest_follows :
    span.Follows (decodeRemovePairRequest span) Srnp.decodeRemovePairRequest :=
  i32_follows.bind fun _ => string_follows.result _

theorem decodeIndicatePresence_follows :
    span.Follows (decodeIndicatePresence span) Srnp.decodeIndicatePresence :=
  string_follows.bind fun _ => boolean_follows.bind fun _ => i32_follows.result _

theorem decodeComponentInfo_follows :
    span.Follows (decodeComponentInfo span) Srnp.decodeComponentInfo :=
  i32_follows.bind fun _ => string_follows.bind fun _ => string_follows.result _

theorem decodeUpdateComponents_follows :
    span.Follows (decodeUpdateComponents span) Srnp.decodeUpdateComponents :=
  (readEnum_follows _).bind fun _ => decodeComponentInfo_follows.result _

theorem decodeMasterMessage_follows (size : Nat) :
    span.Follows (decodeMasterMessage span size) (Srnp.decodeMasterMessage size) := by
  refine i32_follows.bind fun owner => u32_follows.bind fun count => ?_
  split
  · exact Span.Follows.fail _
  · exact (decodeComponentInfo_follows.repeated count.toNat).result _

theorem decodePayload_follows {T : Type} {format : Format T} {decode : SpanReader T}
    (h : span.Follows decode format.decode) :
    decodePayload span decode = (format.decodePayload span.content).mapError .thrown := by
  have hstart := h 0 (Nat.zero_le _)
  have hwhole : span.content.drop (0 : UInt64).toNat = span.content := rfl
  rw [hwhole] at hstart
  unfold decodePayload Format.decodePayload
  cases hread : format.decode.run span.content with
  | error error =>
    rw [hread] at hstart
    dsimp only at hstart
    rw [hstart]
    rfl
  | ok read =>
    obtain ⟨message, rest⟩ := read
    rw [hread] at hstart
    obtain ⟨offset, hhere, hwithin, hrest⟩ := hstart
    rw [hhere]
    change (if offset = span.size then _ else _) = Except.mapError _ (if rest.isEmpty then _ else _)
    have hend : offset = span.size ↔ rest.isEmpty := by
      rw [← UInt64.toNat_inj, span.size_toNat, List.isEmpty_iff, ← hrest, List.drop_eq_nil_iff]
      omega
    by_cases hempty : rest.isEmpty
    · rw [if_pos (hend.mpr hempty), if_pos hempty]
      rfl
    · rw [if_neg (mt hend.mp hempty), if_neg hempty]
      rfl

end SpanReader

/-! ### Parts of payloads, and payloads with more behind them -/

namespace Wire

theorem take_steady (count : Nat) : Steady (Reader.take count) := by
  intro bytes taken rest h more
  change (if bytes.length < count then _ else _) = _ at h
  split at h
  · contradiction
  · rename_i hlong
    cases Except.ok.inj h
    change (if (bytes ++ more).length < count then _ else _) = _
    have hlonger : ¬ (bytes ++ more).length < count := by
      rw [List.length_append]
      omega
    have hwithin : count ≤ bytes.length := Nat.not_lt.mp hlong
    rw [if_neg hlonger, List.take_append_of_le_length hwithin,
      List.drop_append_of_le_length hwithin]
    rfl

theorem integer_steady (width : Nat) : Steady (Reader.integer width) :=
  (take_steady width).result _

theorem u8_steady : Steady Reader.u8 := (integer_steady 1).result _
theorem u32_steady : Steady Reader.u32 := (integer_steady 4).result _
theorem i32_steady : Steady Reader.i32 := (integer_steady 4).result _
theorem i64_steady : Steady Reader.i64 := (integer_steady 8).result _
theorem boolean_steady : Steady Reader.boolean := u8_steady.result _

theorem string_steady : Steady Reader.string :=
  u32_steady.bind fun length => take_steady length.toNat

end Wire

theorem readEnum_steady {E : Type} (ofCode : UInt8 → Option E) : Steady (readEnum ofCode) := by
  refine u8_steady.bind fun code => ?_
  cases ofCode code with
  | none => exact Steady.fail _
  | some value => exact Steady.pure value

theorem decodePair_steady : Steady decodePair :=
  i32_steady.bind fun _ => string_steady.bind fun _ => string_steady.bind fun _ =>
    (readEnum_steady _).bind fun _ => i64_steady.bind fun _ => i64_steady.result _

theorem decodeSubscription_steady : Steady decodeSubscription :=
  string_steady.bind fun _ => i32_steady.bind fun _ => i32_steady.bind fun _ =>
    boolean_steady.result _

theorem decodeRemovePairRequest_steady : Steady decodeRemovePairRequest :=
  i32_steady.bind fun _ => string_steady.result _

theorem decodeIndicatePresence_steady : Steady decodeIndicatePresence :=
  string_steady.bind fun _ => boolean_steady.bind fun _ => i32_steady.result _

theorem decodeComponentInfo_steady : Steady decodeComponentInfo :=
  i32_steady.bind fun _ => string_steady.bind fun _ => string_steady.result _

theorem decodeUpdateComponents_steady : Steady decodeUpdateComponents :=
  (readEnum_steady _).bind fun _ => decodeComponentInfo_steady.result _

theorem decodeMasterMessage_steady (size : Nat) : Steady (decodeMasterMessage size) := by
  refine i32_steady.bind fun owner => u32_steady.bind fun count => ?_
  split
  · exact Steady.fail _
  · exact (decodeComponentInfo_steady.repeated count.toNat).result _

namespace Format

def componentInfo : Format ComponentInfo := ⟨encodeComponentInfo, decodeComponentInfo⟩

/-- Neither a proper part of a payload nor a payload with more behind it is
decoded, and whatever is decoded, nothing outside of it is touched. -/
structure Guarded {T : Type} (format : Format T) (decode : Span UInt8 → SpanReader T)
    (valid : T → Prop) : Prop where
  truncated : ∀ message payload, valid message → format.encode message = .ok payload →
    ∀ cut, cut <+: payload → cut ≠ payload → ∃ error, format.decodePayload cut = .error error
  extended : ∀ message payload, valid message → format.encode message = .ok payload →
    ∀ more, more ≠ [] → ∃ error, format.decodePayload (payload ++ more) = .error error
  within : ∀ span, SpanReader.decodePayload span (decode span) ≠ .error .outside
  agrees : ∀ span, SpanReader.decodePayload span (decode span) =
    (format.decodePayload span.content).mapError .thrown

section
variable {T : Type} {format : Format T}

theorem Guarded.of_reads {decode : Span UInt8 → SpanReader T} {valid : T → Prop}
    (hreads : ∀ message payload, valid message → format.encode message = .ok payload →
      Reads format.decode payload message)
    (hsteady : Steady format.decode)
    (hfollows : ∀ span : Span UInt8, span.Follows (decode span) format.decode) :
    format.Guarded decode valid := by
  refine ⟨?_, ?_, ?_, fun span => SpanReader.decodePayload_follows (hfollows span)⟩
  · intro message payload hvalid hencode cut hcut hproper
    cases hdecode : format.decodePayload cut with
    | error error => exact ⟨error, rfl⟩
    | ok other =>
      have hwhole := hsteady.whole (hreads message payload hvalid hencode) hcut
        (decodePayload_ok hdecode)
      contradiction
  · intro message payload hvalid hencode more hmore
    refine ⟨⟨"message had unexpected trailing bytes"⟩, ?_⟩
    unfold decodePayload
    rw [hreads message payload hvalid hencode more]
    change (if more.isEmpty then _ else _) = _
    rw [if_neg (mt List.isEmpty_iff.mp hmore)]
    rfl
  · intro span
    rw [SpanReader.decodePayload_follows (hfollows span)]
    cases format.decodePayload span.content <;> simp [Except.mapError]

end

theorem payloads_guarded (size : Nat) :
    pair.Guarded SpanReader.decodePair (fun _ => True) ∧
      subscription.Guarded SpanReader.decodeSubscription (fun _ => True) ∧
      removePairRequest.Guarded SpanReader.decodeRemovePairRequest (fun _ => True) ∧
      indicatePresence.Guarded SpanReader.decodeIndicatePresence (fun _ => True) ∧
      componentInfo.Guarded SpanReader.decodeComponentInfo (fun _ => True) ∧
      updateComponents.Guarded SpanReader.decodeUpdateComponents (fun _ => True) ∧
      (masterMessage size).Guarded (SpanReader.decodeMasterMessage · size) fun message =>
        message.allComponents.length ≤ kMaxPayload / size := by
  refine ⟨?_, ?_, ?_, ?_, ?_, ?_, ?_⟩
  · exact .of_reads (fun _ _ _ => pair_reads) decodePair_steady
      fun span => SpanReader.decodePair_follows
  · exact .of_reads (fun _ _ _ => subscription_reads) decodeSubscription_steady
      fun span => SpanReader.decodeSubscription_follows
  · exact .of_reads (fun _ _ _ => removePairRequest_reads) decodeRemovePairRequest_steady
      fun span => SpanReader.decodeRemovePairRequest_follows
  · exact .of_reads (fun _ _ _ => indicatePresence_reads) decodeIndicatePresence_steady
      fun span => SpanReader.decodeIndicatePresence_follows
  · exact .of_reads (fun _ _ _ => componentInfo_reads) decodeComponentInfo_steady
      fun span => SpanReader.decodeComponentInfo_follows
  · exact .of_reads (fun _ _ _ => updateComponents_reads) decodeUpdateComponents_steady
      fun span => SpanReader.decodeUpdateComponents_follows
  · exact .of_reads (fun _ _ => masterMessage_reads) (decodeMasterMessage_steady size)
      fun span => SpanReader.decodeMasterMessage_follows size

end Format

end Srnp
