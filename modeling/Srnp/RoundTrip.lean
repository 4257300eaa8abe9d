import Srnp.Reader

/-! What a frame carries is what was put into it. Each reader is shown to take
exactly the bytes its writer put down, whatever follows them; the readers of
whole messages are chains of these, and a frame is a header and a message. -/
namespace Srnp
open Wire Reading

namespace Wire

theorem fromLittleEndian_littleEndian (width value : Nat) :
    fromLittleEndian (littleEndian width value) = value % 256 ^ width := by
  induction width generalizing value with
  | zero => simp [littleEndian, fromLittleEndian, Nat.mod_one]
  | succ width ih =>
    have hbyte : (UInt8.ofNat value).toNat = value % 256 := rfl
    rw [littleEndian, fromLittleEndian, ih, hbyte, Nat.pow_succ', Nat.mod_mul]

theorem take_reads (bytes : Bytes) : Reads (Reader.take bytes.length) bytes bytes := by
  intro rest
  have hlong : ¬ (bytes ++ rest).length < bytes.length := by
    rw [List.length_append]
    omega
  change (if (bytes ++ rest).length < bytes.length then _ else _) = _
  rw [if_neg hlong, List.take_left, List.drop_left]
  rfl

theorem integer_reads {width value : Nat} (h : value < 256 ^ width) :
    Reads (Reader.integer width) (littleEndian width value) value := by
  have htake := take_reads (littleEndian width value)
  rw [littleEndian_length] at htake
  have hread := htake.result fromLittleEndian
  rw [fromLittleEndian_littleEndian, Nat.mod_eq_of_lt h] at hread
  exact hread

theorem u8_reads (value : UInt8) : Reads Reader.u8 (Writer.u8 value) value := by
  have hlt : value.toNat < 256 ^ 1 := value.toNat_lt
  have hread := (integer_reads hlt).result UInt8.ofNat
  rw [UInt8.ofNat_toNat] at hread
  exact hread

theorem u16_reads (value : UInt16) : Reads Reader.u16 (Writer.u16 value) value := by
  have hlt : value.toNat < 256 ^ 2 := value.toNat_lt
  have hread := (integer_reads hlt).result UInt16.ofNat
  rw [UInt16.ofNat_toNat] at hread
  exact hread

theorem u32_reads (value : UInt32) : Reads Reader.u32 (Writer.u32 value) value := by
  have hlt : value.toNat < 256 ^ 4 := value.toNat_lt
  have hread := (integer_reads hlt).result UInt32.ofNat
  rw [UInt32.ofNat_toNat] at hread
  exact hread

theorem i32_reads (value : Int32) : Reads Reader.i32 (Writer.i32 value) value := by
  have hlt : value.toUInt32.toNat < 256 ^ 4 := value.toUInt32.toNat_lt
  have hread := (integer_reads hlt).result fun raw => (UInt32.ofNat raw).toInt32
  rw [UInt32.ofNat_toNat] at hread
  exact hread

theorem i64_reads (value : Int64) : Reads Reader.i64 (Writer.i64 value) value := by
  have hlt : value.toUInt64.toNat < 256 ^ 8 := value.toUInt64.toNat_lt
  have hread := (integer_reads hlt).result fun raw => (UInt64.ofNat raw).toInt64
  rw [UInt64.ofNat_toNat] at hread
  exact hread

theorem boolean_reads (value : Bool) : Reads Reader.boolean (Writer.boolean value) value := by
  have hread := (u8_reads (if value then 1 else 0)).result fun raw => decide (raw ≠ 0)
  cases value <;> exact hread

theorem length_toNat {length : Nat} (h : length ≤ kMaxPayload) :
    (UInt32.ofNat length).toNat = length := by
  apply Nat.mod_eq_of_lt
  unfold kMaxPayload at h
  omega

theorem string_reads {value written : Bytes} (h : Writer.string value = .ok written) :
    Reads Reader.string written value := by
  have hshort : value.length ≤ kMaxPayload := by
    by_contra hlong
    rw [Writer.string_of_gt (Nat.lt_of_not_le hlong)] at h
    contradiction
  rw [Writer.string_of_le hshort] at h
  cases Except.ok.inj h
  refine (u32_reads (UInt32.ofNat value.length)).bind ?_
  rw [length_toNat hshort]
  exact take_reads value

end Wire

theorem readEnum_reads {E : Type} {ofCode : UInt8 → Option E} {code : UInt8} {value : E}
    (h : ofCode code = some value) : Reads (readEnum ofCode) (Writer.u8 code) value := by
  refine (u8_reads code).conclude ?_
  rw [h]
  exact Reads.pure value

theorem PairType.ofCode_code (type : PairType) : PairType.ofCode type.code = some type := by
  cases type <;> rfl

theorem UpdateOperation.ofCode_code (operation : UpdateOperation) :
    UpdateOperation.ofCode operation.code = some operation := by
  cases operation <;> rfl

theorem MessageType.ofCode_code (type : MessageType) :
    MessageType.ofCode type.code = some type := by
  cases type <;> rfl

theorem pair_reads {pair : Pair} {written : Bytes} (h : encodePair pair = .ok written) :
    Reads decodePair written pair := by
  obtain ⟨key, hkey, hrest⟩ := Except.bind_eq_ok h
  obtain ⟨value, hvalue, hall⟩ := Except.bind_eq_ok hrest
  cases Except.ok.inj hall
  simp only [List.append_assoc]
  exact (i32_reads _).bind <| (string_reads hkey).bind <| (string_reads hvalue).bind <|
    (readEnum_reads pair.type.ofCode_code).bind <| (i64_reads _).bind <| (i64_reads _).result _

theorem subscription_reads {message : Subscription} {written : Bytes}
    (h : encodeSubscription message = .ok written) :
    Reads decodeSubscription written message := by
  obtain ⟨key, hkey, hall⟩ := Except.bind_eq_ok h
  cases Except.ok.inj hall
  simp only [List.append_assoc]
  exact (string_reads hkey).bind <| (i32_reads _).bind <| (i32_reads _).bind <|
    (boolean_reads _).result _

theorem removePairRequest_reads {message : RemovePairRequest} {written : Bytes}
    (h : encodeRemovePairRequest message = .ok written) :
    Reads decodeRemovePairRequest written message := by
  obtain ⟨key, hkey, hall⟩ := Except.bind_eq_ok h
  cases Except.ok.inj hall
  exact (i32_reads _).bind <| (string_reads hkey).result _

theorem indicatePresence_reads {message : IndicatePresence} {written : Bytes}
    (h : encodeIndicatePresence message = .ok written) :
    Reads decodeIndicatePresence written message := by
  obtain ⟨port, hport, hall⟩ := Except.bind_eq_ok h
  cases Except.ok.inj hall
  simp only [List.append_assoc]
  exact (string_reads hport).bind <| (boolean_reads _).bind <| (i32_reads _).result _

theorem componentInfo_reads {message : ComponentInfo} {written : Bytes}
    (h : encodeComponentInfo message = .ok written) :
    Reads decodeComponentInfo written message := by
  obtain ⟨ip, hip, hrest⟩ := Except.bind_eq_ok h
  obtain ⟨port, hport, hall⟩ := Except.bind_eq_ok hrest
  cases Except.ok.inj hall
  simp only [List.append_assoc]
  exact (i32_reads _).bind <| (string_reads hip).bind <| (string_reads hport).result _

theorem updateComponents_reads {message : UpdateComponents} {written : Bytes}
    (h : encodeUpdateComponents message = .ok written) :
    Reads decodeUpdateComponents written message := by
  obtain ⟨component, hcomponent, hall⟩ := Except.bind_eq_ok h
  cases Except.ok.inj hall
  exact (readEnum_reads message.operation.ofCode_code).bind <|
    (componentInfo_reads hcomponent).result _

theorem masterMessage_reads {message : MasterMessage} {written : Bytes} {size : Nat}
    (hcount : message.allComponents.length ≤ kMaxPayload / size)
    (h : encodeMasterMessage message = .ok written) :
    Reads (decodeMasterMessage size) written message := by
  obtain ⟨components, hcomponents, hall⟩ := Except.bind_eq_ok h
  cases Except.ok.inj hall
  have hplausible : message.allComponents.length ≤ kMaxPayload :=
    hcount.trans (Nat.div_le_self _ _)
  simp only [List.append_assoc]
  refine (i32_reads _).bind <| (u32_reads _).bind ?_
  rw [length_toNat hplausible, if_neg (Nat.not_lt.mpr hcount)]
  exact (Reads.repeated (fun _ _ => componentInfo_reads) hcomponents).result _

/-! ### Frames -/

theorem encodeHeader_length (header : FrameHeader) :
    (encodeHeader header).length = kHeaderSize := by
  simp only [encodeHeader, List.length_append, Writer.u32_length, Writer.u8_length,
    Writer.u16_length, Writer.i32_length]
  rfl

theorem readType_reads {type : MessageType} (h : type ≠ .invalid) :
    Reads readType (Writer.u8 type.code) type := by
  refine (u8_reads type.code).conclude ?_
  rw [MessageType.ofCode_code]
  cases type with
  | invalid => contradiction
  | _ => exact Reads.pure _

theorem header_reads {header : FrameHeader} (htype : header.type ≠ .invalid)
    (hlength : header.payloadLength.toNat ≤ kMaxPayload) :
    Reads readHeader (encodeHeader header) header := by
  simp only [encodeHeader, List.append_assoc]
  refine (u32_reads kMagic).bind ?_
  rw [if_neg (fun h => h rfl)]
  refine (u8_reads kVersion).bind ?_
  rw [if_neg (fun h => h rfl)]
  refine (readType_reads htype).bind <| (u16_reads 0).bind <| (u32_reads _).bind ?_
  rw [if_neg (Nat.not_lt.mpr hlength)]
  exact (i32_reads _).result _

theorem decodeHeader_encodeHeader {header : FrameHeader} (htype : header.type ≠ .invalid)
    (hlength : header.payloadLength.toNat ≤ kMaxPayload) :
    decodeHeader (encodeHeader header) = .ok header := by
  have hread := header_reads htype hlength []
  rw [List.append_nil] at hread
  rw [decodeHeader, encodeHeader_length, if_neg (fun h => h rfl), hread]
  rfl

theorem frame_eq_ok {type : MessageType} {payload bytes : Bytes} {subscriber : Int32}
    (h : frame type payload subscriber = .ok bytes) :
    payload.length ≤ kMaxPayload ∧
      bytes = encodeHeader ⟨type, UInt32.ofNat payload.length, subscriber⟩ ++ payload := by
  unfold frame at h
  split at h
  · contradiction
  · rename_i hshort
    exact ⟨Nat.not_lt.mp hshort, (Except.ok.inj h).symm⟩

theorem header_of_frame {type : MessageType} {payload bytes : Bytes} {subscriber : Int32}
    (h : frame type payload subscriber = .ok bytes) :
    bytes.take kHeaderSize = encodeHeader ⟨type, UInt32.ofNat payload.length, subscriber⟩ ∧
      bytes.drop kHeaderSize = payload := by
  obtain ⟨_, rfl⟩ := frame_eq_ok h
  rw [← encodeHeader_length ⟨type, UInt32.ofNat payload.length, subscriber⟩]
  exact ⟨List.take_left, List.drop_left⟩

namespace Format

/-- A message that can be framed comes back from its frame. -/
def RoundTrips {T : Type} (format : Format T) (valid : T → Prop) : Prop :=
  ∀ type message bytes, type ≠ .invalid → valid message → format.frameOf type message = .ok bytes →
    ∃ header, decodeHeader (bytes.take kHeaderSize) = .ok header ∧ header.type = type ∧
      header.subscriber = -1 ∧
      header.payloadLength.toNat = (bytes.drop kHeaderSize).length ∧
      format.decodePayload (bytes.drop kHeaderSize) = .ok message

theorem decodePayload_of_reads {T : Type} {format : Format T} {message : T} {payload : Bytes}
    (h : Reads format.decode payload message) : format.decodePayload payload = .ok message := by
  have hread := h []
  rw [List.append_nil] at hread
  rw [decodePayload, hread]
  rfl

theorem decodePayload_ok {T : Type} {format : Format T} {payload : Bytes} {message : T}
    (h : format.decodePayload payload = .ok message) :
    format.decode.run payload = .ok (message, []) := by
  obtain ⟨⟨read, rest⟩, hread, hlast⟩ := Except.bind_eq_ok h
  dsimp only at hlast
  split at hlast
  · rename_i hempty
    cases Except.ok.inj hlast
    rw [hread, List.isEmpty_iff.mp hempty]
  · contradiction

theorem RoundTrips.of_reads {T : Type} {format : Format T} {valid : T → Prop}
    (h : ∀ message payload, valid message → format.encode message = .ok payload →
      Reads format.decode payload message) : format.RoundTrips valid := by
  intro type message bytes htype hvalid hframe
  obtain ⟨payload, hpayload, hbytes⟩ := Except.bind_eq_ok hframe
  obtain ⟨hhead, htail⟩ := header_of_frame hbytes
  have hlength := length_toNat (frame_eq_ok hbytes).1
  rw [hhead, htail]
  refine ⟨_, decodeHeader_encodeHeader htype ?_, rfl, rfl, hlength, ?_⟩
  · rw [hlength]
    exact (frame_eq_ok hbytes).1
  · exact decodePayload_of_reads (h message payload hvalid hpayload)

theorem updateComponents_round_trips : updateComponents.RoundTrips fun _ => True :=
  .of_reads fun _ _ _ => updateComponents_reads

theorem masterMessage_round_trips (size : Nat) : (masterMessage size).RoundTrips fun message =>
    message.allComponents.length ≤ kMaxPayload / size :=
  .of_reads fun _ _ => masterMessage_reads

theorem frames_round_trip (size : Nat) :
    pair.RoundTrips (fun _ => True) ∧ subscription.RoundTrips (fun _ => True) ∧
      removePairRequest.RoundTrips (fun _ => True) ∧
      indicatePresence.RoundTrips (fun _ => True) ∧
      updateComponents.RoundTrips (fun _ => True) ∧
      (masterMessage size).RoundTrips fun message =>
        message.allComponents.length ≤ kMaxPayload / size :=
  ⟨.of_reads fun _ _ _ => pair_reads, .of_reads fun _ _ _ => subscription_reads,
    .of_reads fun _ _ _ => removePairRequest_reads,
    .of_reads fun _ _ _ => indicatePresence_reads,
    .of_reads fun _ _ _ => updateComponents_reads, .of_reads fun _ _ => masterMessage_reads⟩

theorem frames_round_trip_subscribing : ∃ bytes header,
    subscription.frameOf .subscription ⟨[107], 1000, 2000, true⟩ = .ok bytes ∧
      decodeHeader (bytes.take kHeaderSize) = .ok header ∧ header.type = .subscription ∧
      subscription.decodePayload (bytes.drop kHeaderSize) = .ok ⟨[107], 1000, 2000, true⟩ := by
  obtain ⟨header, hheader, htype, _, _, hmessage⟩ :=
    (frames_round_trip 72).2.1 .subscription ⟨[107], 1000, 2000, true⟩ _ (by decide) trivial rfl
  exact ⟨_, header, rfl, hheader, htype, hmessage⟩

end Format

end Srnp
