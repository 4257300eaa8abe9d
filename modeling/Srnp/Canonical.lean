import Srnp.RoundTrip

/-! Payloads that are accepted and what they decode to. A payload is what the
encoder makes of the message it decodes to, except that a flag is read as true
from any byte but zero and written as one. In the other direction every message
that can be framed is decoded again, except for a welcome of so many components
that their count is taken for a corrupt one. -/
namespace Srnp
open Wire Reading

namespace Wire

theorem Writer.string_size {value written : Bytes} (h : Writer.string value = .ok written) :
    written.length = value.length + 4 := by
  unfold Writer.string at h
  split at h
  · contradiction
  · cases Except.ok.inj h
    rw [List.length_append, Writer.u32_length, Nat.add_comm]

theorem littleEndian_fromLittleEndian (bytes : Bytes) :
    littleEndian bytes.length (fromLittleEndian bytes) = bytes := by
  induction bytes with
  | nil => rfl
  | cons byte rest ih =>
    have hlow : (byte.toNat + 256 * fromLittleEndian rest) % 256 = byte.toNat := by
      have hbyte : byte.toNat < 256 := byte.toNat_lt
      omega
    have hhigh : (byte.toNat + 256 * fromLittleEndian rest) / 256 = fromLittleEndian rest := by
      have hbyte : byte.toNat < 256 := byte.toNat_lt
      omega
    rw [List.length_cons, fromLittleEndian, littleEndian, hhigh, ih, ← UInt8.ofNat_mod_size]
    change UInt8.ofNat (_ % 256) :: rest = _
    rw [hlow, UInt8.ofNat_toNat]

theorem fromLittleEndian_lt (bytes : Bytes) : fromLittleEndian bytes < 256 ^ bytes.length := by
  induction bytes with
  | nil => exact Nat.zero_lt_one
  | cons byte rest ih =>
    have hbyte : byte.toNat < 256 := byte.toNat_lt
    rw [List.length_cons, fromLittleEndian, Nat.pow_succ]
    omega

namespace Reader
variable {bytes rest : Bytes}

theorem take_taken {count : Nat} {taken : Bytes} (h : (take count).run bytes = .ok (taken, rest)) :
    bytes = taken ++ rest ∧ taken.length = count := by
  change (if bytes.length < count then _ else _) = _ at h
  split at h
  · contradiction
  · rename_i hlong
    cases Except.ok.inj h
    refine ⟨(List.take_append_drop count bytes).symm, ?_⟩
    rw [List.length_take]
    omega

theorem integer_taken {width value : Nat} (h : (integer width).run bytes = .ok (value, rest)) :
    bytes = littleEndian width value ++ rest ∧ value < 256 ^ width := by
  obtain ⟨raw, middle, hraw, hlast⟩ := Reader.run_bind_ok h
  cases Except.ok.inj hlast
  obtain ⟨hbytes, hlength⟩ := take_taken hraw
  rw [← hlength, littleEndian_fromLittleEndian]
  exact ⟨hbytes, fromLittleEndian_lt raw⟩

theorem u8_taken {value : UInt8} (h : u8.run bytes = .ok (value, rest)) :
    bytes = Writer.u8 value ++ rest := by
  obtain ⟨raw, middle, hraw, hlast⟩ := Reader.run_bind_ok h
  cases Except.ok.inj hlast
  obtain ⟨hbytes, hsmall⟩ := integer_taken hraw
  rw [Writer.u8, UInt8.toNat_ofNat_of_lt' hsmall]
  exact hbytes

theorem u32_taken {value : UInt32} (h : u32.run bytes = .ok (value, rest)) :
    bytes = Writer.u32 value ++ rest := by
  obtain ⟨raw, middle, hraw, hlast⟩ := Reader.run_bind_ok h
  cases Except.ok.inj hlast
  obtain ⟨hbytes, hsmall⟩ := integer_taken hraw
  rw [Writer.u32, UInt32.toNat_ofNat_of_lt' hsmall]
  exact hbytes

theorem i32_taken {value : Int32} (h : i32.run bytes = .ok (value, rest)) :
    bytes = Writer.i32 value ++ rest := by
  obtain ⟨raw, middle, hraw, hlast⟩ := Reader.run_bind_ok h
  cases Except.ok.inj hlast
  obtain ⟨hbytes, hsmall⟩ := integer_taken hraw
  rw [Writer.i32, UInt32.toUInt32_toInt32, UInt32.toNat_ofNat_of_lt' hsmall]
  exact hbytes

theorem i64_taken {value : Int64} (h : i64.run bytes = .ok (value, rest)) :
    bytes = Writer.i64 value ++ rest := by
  obtain ⟨raw, middle, hraw, hlast⟩ := Reader.run_bind_ok h
  cases Except.ok.inj hlast
  obtain ⟨hbytes, hsmall⟩ := integer_taken hraw
  rw [Writer.i64, UInt64.toUInt64_toInt64, UInt64.toNat_ofNat_of_lt' hsmall]
  exact hbytes

theorem boolean_taken {value : Bool} (h : boolean.run bytes = .ok (value, rest)) :
    ∃ flag, bytes = flag :: rest ∧ value = decide (flag ≠ 0) := by
  obtain ⟨flag, middle, hflag, hlast⟩ := Reader.run_bind_ok h
  cases Except.ok.inj hlast
  have hbytes := u8_taken hflag
  have hwritten : Writer.u8 flag = [flag] := by
    simp [Writer.u8, littleEndian]
  rw [hwritten] at hbytes
  exact ⟨flag, hbytes, rfl⟩

theorem string_taken {value : Bytes} (hshort : bytes.length ≤ kMaxPayload)
    (h : string.run bytes = .ok (value, rest)) :
    ∃ written, Writer.string value = .ok written ∧ bytes = written ++ rest := by
  obtain ⟨length, middle, hlength, hvalue⟩ := Reader.run_bind_ok h
  have hbytes := u32_taken hlength
  obtain ⟨hmiddle, hcount⟩ := take_taken hvalue
  have hle : value.length ≤ kMaxPayload := by
    rw [hbytes, hmiddle] at hshort
    simp only [List.length_append] at hshort
    omega
  refine ⟨_, Writer.string_of_le hle, ?_⟩
  rw [hbytes, hmiddle, hcount, UInt32.ofNat_toNat, List.append_assoc]

end Reader

end Wire

/-! ### Messages -/

theorem readEnum_taken {E : Type} {ofCode : UInt8 → Option E} {code : E → UInt8}
    (hcode : ∀ raw value, ofCode raw = some value → code value = raw) {bytes rest : Bytes}
    {value : E} (h : (readEnum ofCode).run bytes = .ok (value, rest)) :
    bytes = Writer.u8 (code value) ++ rest := by
  obtain ⟨raw, middle, hraw, hlast⟩ := Reader.run_bind_ok h
  split at hlast
  · contradiction
  · rename_i read hread
    cases Except.ok.inj hlast
    rw [hcode raw _ hread]
    exact Reader.u8_taken hraw

theorem PairType.code_ofCode (raw : UInt8) (type : PairType) (h : PairType.ofCode raw = some type) :
    type.code = raw := by
  unfold PairType.ofCode at h
  have hfound := List.find?_some h
  exact of_decide_eq_true hfound

theorem UpdateOperation.code_ofCode (raw : UInt8) (operation : UpdateOperation)
    (h : UpdateOperation.ofCode raw = some operation) : operation.code = raw := by
  unfold UpdateOperation.ofCode at h
  have hfound := List.find?_some h
  exact of_decide_eq_true hfound

theorem decodePair_canonical : Canonical decodePair encodePair kMaxPayload := by
  intro payload pair rest hshort h
  obtain ⟨owner, afterOwner, howner, h⟩ := Reader.run_bind_ok h
  obtain ⟨key, afterKey, hkey, h⟩ := Reader.run_bind_ok h
  obtain ⟨value, afterValue, hvalue, h⟩ := Reader.run_bind_ok h
  obtain ⟨type, afterType, htype, h⟩ := Reader.run_bind_ok h
  obtain ⟨writeTime, afterWrite, hwrite, h⟩ := Reader.run_bind_ok h
  obtain ⟨expiryTime, afterExpiry, hexpiry, h⟩ := Reader.run_bind_ok h
  cases Except.ok.inj h
  rw [Reader.i32_taken howner, List.length_append] at hshort
  obtain ⟨keyBytes, hkeyWritten, rfl⟩ := Reader.string_taken (by omega) hkey
  rw [List.length_append] at hshort
  obtain ⟨valueBytes, hvalueWritten, rfl⟩ := Reader.string_taken (by omega) hvalue
  refine ⟨_, by simp only [encodePair, hkeyWritten, hvalueWritten]; rfl, ?_⟩
  rw [Reader.i32_taken howner, readEnum_taken PairType.code_ofCode htype,
    Reader.i64_taken hwrite, Reader.i64_taken hexpiry]
  simp only [List.append_assoc]

theorem decodeRemovePairRequest_canonical :
    Canonical decodeRemovePairRequest encodeRemovePairRequest kMaxPayload := by
  intro payload request rest hshort h
  obtain ⟨owner, afterOwner, howner, h⟩ := Reader.run_bind_ok h
  obtain ⟨key, afterKey, hkey, h⟩ := Reader.run_bind_ok h
  cases Except.ok.inj h
  rw [Reader.i32_taken howner, List.length_append] at hshort
  obtain ⟨keyBytes, hkeyWritten, rfl⟩ := Reader.string_taken (by omega) hkey
  refine ⟨_, by simp only [encodeRemovePairRequest, hkeyWritten]; rfl, ?_⟩
  rw [Reader.i32_taken howner, List.append_assoc]

theorem decodeComponentInfo_canonical :
    Canonical decodeComponentInfo encodeComponentInfo kMaxPayload := by
  intro payload message rest hshort h
  obtain ⟨owner, afterOwner, howner, h⟩ := Reader.run_bind_ok h
  obtain ⟨ip, afterIp, hip, h⟩ := Reader.run_bind_ok h
  obtain ⟨port, afterPort, hport, h⟩ := Reader.run_bind_ok h
  cases Except.ok.inj h
  rw [Reader.i32_taken howner, List.length_append] at hshort
  obtain ⟨ipBytes, hipWritten, rfl⟩ := Reader.string_taken (by omega) hip
  rw [List.length_append] at hshort
  obtain ⟨portBytes, hportWritten, rfl⟩ := Reader.string_taken (by omega) hport
  refine ⟨_, by simp only [encodeComponentInfo, hipWritten, hportWritten]; rfl, ?_⟩
  rw [Reader.i32_taken howner]
  simp only [List.append_assoc]

theorem decodeUpdateComponents_canonical :
    Canonical decodeUpdateComponents encodeUpdateComponents kMaxPayload := by
  intro payload message rest hshort h
  obtain ⟨operation, afterOperation, hoperation, h⟩ := Reader.run_bind_ok h
  obtain ⟨component, afterComponent, hcomponent, h⟩ := Reader.run_bind_ok h
  cases Except.ok.inj h
  rw [readEnum_taken UpdateOperation.code_ofCode hoperation, List.length_append] at hshort
  obtain ⟨componentBytes, hwritten, rfl⟩ :=
    decodeComponentInfo_canonical afterOperation component rest (by omega) hcomponent
  refine ⟨_, by simp only [encodeUpdateComponents, hwritten]; rfl, ?_⟩
  rw [readEnum_taken UpdateOperation.code_ofCode hoperation, List.append_assoc]

theorem decodeMasterMessage_canonical (size : Nat) :
    Canonical (decodeMasterMessage size) encodeMasterMessage kMaxPayload := by
  intro payload message rest hshort h
  obtain ⟨owner, afterOwner, howner, h⟩ := Reader.run_bind_ok h
  obtain ⟨count, afterCount, hcount, h⟩ := Reader.run_bind_ok h
  split at h
  · contradiction
  obtain ⟨components, afterComponents, hcomponents, h⟩ := Reader.run_bind_ok h
  cases Except.ok.inj h
  rw [Reader.i32_taken howner, Reader.u32_taken hcount] at hshort ⊢
  simp only [List.length_append] at hshort
  obtain ⟨componentBytes, hwritten, rfl⟩ := decodeComponentInfo_canonical.repeated count.toNat
    afterCount components rest (by omega) hcomponents
  refine ⟨_, by simp only [encodeMasterMessage, hwritten]; rfl, ?_⟩
  simp only [repeated_length hcomponents, UInt32.ofNat_toNat, List.append_assoc]

theorem decodeSubscription_taken {payload rest : Bytes} {message : Subscription}
    (hshort : payload.length ≤ kMaxPayload)
    (h : decodeSubscription.run payload = .ok (message, rest)) :
    ∃ key flag, Writer.string message.key = .ok key ∧
      message.registering = decide (flag ≠ 0) ∧
      payload = key ++ Writer.i32 message.ownerId ++ Writer.i32 message.subscriber ++
        flag :: rest := by
  obtain ⟨key, afterKey, hkey, h⟩ := Reader.run_bind_ok h
  obtain ⟨ownerId, afterOwner, howner, h⟩ := Reader.run_bind_ok h
  obtain ⟨subscriber, afterSubscriber, hsubscriber, h⟩ := Reader.run_bind_ok h
  obtain ⟨registering, afterFlag, hflag, h⟩ := Reader.run_bind_ok h
  cases Except.ok.inj h
  obtain ⟨keyBytes, hkeyWritten, rfl⟩ := Reader.string_taken hshort hkey
  obtain ⟨flag, hafter, rfl⟩ := Reader.boolean_taken hflag
  refine ⟨keyBytes, flag, hkeyWritten, rfl, ?_⟩
  rw [Reader.i32_taken howner, Reader.i32_taken hsubscriber, hafter]
  simp only [List.append_assoc]

theorem decodeIndicatePresence_taken {payload rest : Bytes} {message : IndicatePresence}
    (hshort : payload.length ≤ kMaxPayload)
    (h : decodeIndicatePresence.run payload = .ok (message, rest)) :
    ∃ port flag, Writer.string message.port = .ok port ∧
      message.forceOwnerId = decide (flag ≠ 0) ∧
      payload = port ++ flag :: (Writer.i32 message.ownerId ++ rest) := by
  obtain ⟨port, afterPort, hport, h⟩ := Reader.run_bind_ok h
  obtain ⟨forceOwnerId, afterFlag, hflag, h⟩ := Reader.run_bind_ok h
  obtain ⟨ownerId, afterOwner, howner, h⟩ := Reader.run_bind_ok h
  cases Except.ok.inj h
  obtain ⟨portBytes, hportWritten, rfl⟩ := Reader.string_taken hshort hport
  obtain ⟨flag, hafter, rfl⟩ := Reader.boolean_taken hflag
  refine ⟨portBytes, flag, hportWritten, rfl, ?_⟩
  rw [hafter, Reader.i32_taken howner]

/-- The byte with so many bytes behind it is zero or one. -/
def FlagInRange (behind : Nat) (payload : Bytes) : Prop :=
  ∃ flag, payload[payload.length - (behind + 1)]? = some flag ∧ flag ≤ 1

theorem flagInRange_iff (front back : Bytes) (flag : UInt8) :
    FlagInRange back.length (front ++ flag :: back) ↔ flag ≤ 1 := by
  have hplace : (front ++ flag :: back).length - (back.length + 1) = front.length := by
    simp only [List.length_append, List.length_cons]
    omega
  have hflag : (front ++ flag :: back)[front.length]? = some flag := by
    simp
  unfold FlagInRange
  rw [hplace, hflag]
  constructor
  · rintro ⟨found, hfound, hsmall⟩
    rw [Option.some.inj hfound]
    exact hsmall
  · intro hsmall
    exact ⟨flag, rfl, hsmall⟩

theorem boolean_rewritten (flag : UInt8) :
    Writer.boolean (decide (flag ≠ 0)) = [flag] ↔ flag ≤ 1 := by
  by_cases hzero : flag = 0
  · rw [hzero]
    decide
  · have hone : Writer.boolean (decide (flag ≠ 0)) = [1] := by
      rw [decide_eq_true hzero]
      rfl
    rw [hone, List.cons.injEq, UInt8.le_iff_toNat_le, ← UInt8.toNat_inj]
    rw [← UInt8.toNat_inj] at hzero
    change (1 = flag.toNat ∧ [] = []) ↔ flag.toNat ≤ 1
    change ¬ flag.toNat = 0 at hzero
    constructor
    · intro h
      omega
    · intro h
      exact ⟨by omega, rfl⟩

namespace Format

/-- A payload is what the encoder makes of the message it decodes to exactly if
its flag is in range, so no message has two such payloads. -/
structure Exact {T : Type} (format : Format T) (inRange : Bytes → Prop) : Prop where
  reencodes : ∀ payload message, payload.length ≤ kMaxPayload →
    format.decodePayload payload = .ok message →
    (format.encode message = .ok payload ↔ inRange payload)
  distinct : ∀ payload other message, payload.length ≤ kMaxPayload →
    other.length ≤ kMaxPayload → format.decodePayload payload = .ok message →
    format.decodePayload other = .ok message → inRange payload → inRange other → payload = other

def Rejects {T : Type} (format : Format T) (front : Bytes → Prop) (last : UInt8) : Prop :=
  ∀ before code more, front before → last < code →
    ∃ error, format.decodePayload (before ++ code :: more) = .error error

section
variable {T : Type} {format : Format T}

theorem Exact.of_reencodes {inRange : Bytes → Prop}
    (h : ∀ payload message, payload.length ≤ kMaxPayload →
      format.decode.run payload = .ok (message, []) →
      (format.encode message = .ok payload ↔ inRange payload)) : format.Exact inRange := by
  refine ⟨fun payload message hshort hread => h payload message hshort (decodePayload_ok hread), ?_⟩
  intro payload other message hpayload hother hread hreadOther hin hinOther
  have hfirst := (h payload message hpayload (decodePayload_ok hread)).mpr hin
  have hsecond := (h other message hother (decodePayload_ok hreadOther)).mpr hinOther
  exact Except.ok.inj (hfirst.symm.trans hsecond)

theorem Exact.of_canonical (h : Canonical format.decode format.encode kMaxPayload) :
    format.Exact fun _ => True := by
  apply Exact.of_reencodes
  intro payload message hshort hread
  obtain ⟨written, hwritten, hpayload⟩ := h payload message [] hshort hread
  rw [List.append_nil] at hpayload
  rw [hwritten, hpayload]
  exact iff_of_true rfl trivial

theorem decodePayload_error {payload : Bytes} {error : DecodeError}
    (h : format.decode.run payload = .error error) :
    format.decodePayload payload = .error error := by
  rw [decodePayload, h]
  rfl

end

theorem subscription_exact : subscription.Exact (FlagInRange 0) := by
  apply Exact.of_reencodes
  intro payload message hshort hread
  obtain ⟨key, flag, hkey, hflag, rfl⟩ := decodeSubscription_taken hshort hread
  have hencode : subscription.encode message = .ok (key ++ Writer.i32 message.ownerId ++
      Writer.i32 message.subscriber ++ Writer.boolean message.registering) := by
    simp only [subscription, encodeSubscription, hkey]
    rfl
  rw [hencode, Except.ok.injEq, List.append_cancel_left_eq, hflag, boolean_rewritten]
  exact (flagInRange_iff _ [] flag).symm

theorem indicatePresence_exact : indicatePresence.Exact (FlagInRange 4) := by
  apply Exact.of_reencodes
  intro payload message hshort hread
  obtain ⟨port, flag, hport, hflag, rfl⟩ := decodeIndicatePresence_taken hshort hread
  rw [List.append_nil]
  have hencode : indicatePresence.encode message = .ok (port ++
      (Writer.boolean message.forceOwnerId ++ Writer.i32 message.ownerId)) := by
    simp only [indicatePresence, encodeIndicatePresence, hport]
    change Except.ok _ = Except.ok _
    rw [List.append_assoc]
  have hcons : flag :: Writer.i32 message.ownerId = [flag] ++ Writer.i32 message.ownerId := rfl
  have hinRange := flagInRange_iff port (Writer.i32 message.ownerId) flag
  rw [Writer.i32_length] at hinRange
  rw [hencode, Except.ok.injEq, List.append_cancel_left_eq, hinRange, hcons,
    List.append_cancel_right_eq, hflag, boolean_rewritten]

theorem readEnum_rejects {E : Type} {ofCode : UInt8 → Option E} {code : UInt8}
    (h : ofCode code = none) (more : Bytes) :
    (readEnum ofCode).run (code :: more) = .error ⟨"enum value out of range"⟩ := by
  have hwritten : Writer.u8 code = [code] := by
    simp [Writer.u8, littleEndian]
  have hread := u8_reads code
  rw [hwritten] at hread
  apply hread.fails
  rw [h]
  rfl

theorem pairType_past_last {code : UInt8} (h : 3 < code) : PairType.ofCode code = none := by
  apply List.find?_eq_none.mpr
  intro type _ hcode
  rw [decide_eq_true_iff] at hcode
  rw [← hcode] at h
  cases type <;> exact absurd h (by decide)

theorem updateOperation_past_last {code : UInt8} (h : 1 < code) :
    UpdateOperation.ofCode code = none := by
  apply List.find?_eq_none.mpr
  intro operation _ hcode
  rw [decide_eq_true_iff] at hcode
  rw [← hcode] at h
  cases operation <;> exact absurd h (by decide)

def BeforeType (before : Bytes) : Prop :=
  ∃ owner key value keyBytes valueBytes, Writer.string key = .ok keyBytes ∧
    Writer.string value = .ok valueBytes ∧ before = Writer.i32 owner ++ (keyBytes ++ valueBytes)

theorem pair_rejects : pair.Rejects BeforeType 3 := by
  rintro _ code more ⟨owner, key, value, keyBytes, valueBytes, hkey, hvalue, rfl⟩ hpast
  refine ⟨⟨"enum value out of range"⟩, decodePayload_error ?_⟩
  simp only [List.append_assoc]
  apply (i32_reads owner).fails
  apply (string_reads hkey).fails
  apply (string_reads hvalue).fails
  rw [StateT.run_bind, readEnum_rejects (pairType_past_last hpast)]
  rfl

theorem updateComponents_rejects : updateComponents.Rejects (· = []) 1 := by
  rintro _ code more rfl hpast
  refine ⟨⟨"enum value out of range"⟩, decodePayload_error ?_⟩
  change (decodeUpdateComponents).run (code :: more) = _
  rw [decodeUpdateComponents, StateT.run_bind,
    readEnum_rejects (updateOperation_past_last hpast)]
  rfl

/-- Only the two flags of the formats have more than one spelling. -/
theorem payloads_canonical_iff (size : Nat) :
    pair.Exact (fun _ => True) ∧ subscription.Exact (FlagInRange 0) ∧
      removePairRequest.Exact (fun _ => True) ∧ indicatePresence.Exact (FlagInRange 4) ∧
      updateComponents.Exact (fun _ => True) ∧ (masterMessage size).Exact (fun _ => True) ∧
      pair.Rejects BeforeType 3 ∧ updateComponents.Rejects (· = []) 1 :=
  ⟨.of_canonical decodePair_canonical, subscription_exact,
    .of_canonical decodeRemovePairRequest_canonical, indicatePresence_exact,
    .of_canonical decodeUpdateComponents_canonical,
    .of_canonical (decodeMasterMessage_canonical size), pair_rejects, updateComponents_rejects⟩

/-- Component 2000 subscribes to the pair of component 1000, with a two for its flag. -/
theorem flag_two_accepted :
    ¬ ∀ payload message, payload.length ≤ kMaxPayload →
      subscription.decodePayload payload = .ok message →
      subscription.encode message = .ok payload := by
  intro hclaim
  have hencoded := hclaim [1, 0, 0, 0, 107, 232, 3, 0, 0, 208, 7, 0, 0, 2]
    ⟨[107], 1000, 2000, true⟩ (by decide) rfl
  have hcanonical : subscription.encode ⟨[107], 1000, 2000, true⟩ =
      .ok [1, 0, 0, 0, 107, 232, 3, 0, 0, 208, 7, 0, 0, 1] := rfl
  rw [hcanonical] at hencoded
  exact absurd (Except.ok.inj hencoded) (by decide)

end Format

/-! ### How many components a welcome may name -/

theorem encodeComponentInfo_size {message : ComponentInfo} {written : Bytes}
    (h : encodeComponentInfo message = .ok written) :
    written.length = message.ip.length + message.port.length + 12 := by
  obtain ⟨ip, hip, hrest⟩ := Except.bind_eq_ok h
  obtain ⟨port, hport, hall⟩ := Except.bind_eq_ok hrest
  cases Except.ok.inj hall
  simp only [List.length_append, Writer.i32_length, Writer.string_size hip,
    Writer.string_size hport]
  omega

theorem writeEach_size {components : List ComponentInfo} {written : Bytes}
    (h : writeEach encodeComponentInfo components = .ok written) :
    12 * components.length ≤ written.length := by
  induction components generalizing written with
  | nil => exact Nat.zero_le _
  | cons component rest ih =>
    obtain ⟨first, hfirst, hothers⟩ := Except.bind_eq_ok h
    obtain ⟨others, hrest, hall⟩ := Except.bind_eq_ok hothers
    cases Except.ok.inj hall
    have hcomponent := encodeComponentInfo_size hfirst
    have hlater := ih hrest
    rw [List.length_append, List.length_cons]
    omega

theorem masterMessage_refused {message : MasterMessage} {written : Bytes} {size : Nat}
    (hshort : written.length ≤ kMaxPayload) (h : encodeMasterMessage message = .ok written)
    (hcount : kMaxPayload / size < message.allComponents.length) :
    (decodeMasterMessage size).run written = .error ⟨"implausible component count"⟩ := by
  obtain ⟨components, hcomponents, hall⟩ := Except.bind_eq_ok h
  cases Except.ok.inj hall
  have hsize := writeEach_size hcomponents
  have hfits : message.allComponents.length ≤ kMaxPayload := by
    simp only [List.length_append] at hshort
    omega
  simp only [List.append_assoc]
  apply (i32_reads message.owner).fails
  apply (u32_reads _).fails
  rw [length_toNat hfits, if_pos hcount]
  rfl

namespace Format

/-- `sizeof(ComponentInfo)` on a 64-bit host with libstdc++. -/
def kComponentInfoSize : Nat := 72

/-- A welcome that the master can frame is read back exactly if it names no more
components than would fit in a payload at their size in memory. -/
theorem welcome_readable_iff {message : MasterMessage} {bytes : Bytes}
    (h : (masterMessage kComponentInfoSize).frameOf .masterMessage message = .ok bytes) :
    (masterMessage kComponentInfoSize).decodePayload (bytes.drop kHeaderSize) = .ok message ↔
      message.allComponents.length ≤ kMaxPayload / kComponentInfoSize := by
  obtain ⟨payload, hpayload, hbytes⟩ := Except.bind_eq_ok h
  rw [(header_of_frame hbytes).2]
  constructor
  · intro hread
    by_contra hlong
    have hrefused := masterMessage_refused (frame_eq_ok hbytes).1 hpayload (Nat.lt_of_not_le hlong)
    have hfails : (masterMessage kComponentInfoSize).decodePayload payload = .error _ :=
      decodePayload_error hrefused
    rw [hfails] at hread
    contradiction
  · intro hcount
    exact decodePayload_of_reads (masterMessage_reads hcount hpayload)

theorem welcome_readable_one : ∃ bytes,
    (masterMessage kComponentInfoSize).frameOf .masterMessage
        ⟨1001, [⟨1000, [104], [56]⟩]⟩ = .ok bytes ∧
      (masterMessage kComponentInfoSize).decodePayload (bytes.drop kHeaderSize) =
        .ok ⟨1001, [⟨1000, [104], [56]⟩]⟩ :=
  ⟨_, rfl, (welcome_readable_iff rfl).mpr (by decide)⟩

theorem writeEach_replicate (owner : OwnerId) (count : Nat) : ∃ written,
    writeEach encodeComponentInfo (List.replicate count ⟨owner, [], []⟩) = .ok written ∧
      written.length = 12 * count := by
  induction count with
  | zero => exact ⟨[], rfl, rfl⟩
  | succ count ih =>
    obtain ⟨others, hothers, hlength⟩ := ih
    refine ⟨Writer.i32 owner ++ Writer.u32 0 ++ Writer.u32 0 ++ others, ?_, ?_⟩
    · have hfirst : encodeComponentInfo ⟨owner, [], []⟩ =
          .ok (Writer.i32 owner ++ Writer.u32 0 ++ Writer.u32 0) := rfl
      rw [List.replicate_succ, writeEach, hothers, hfirst]
      rfl
    · simp only [List.length_append, Writer.i32_length, Writer.u32_length, hlength]
      omega

theorem frame_ok {payload : Bytes} (type : MessageType) (subjectOwner : OwnerId)
    (hshort : payload.length ≤ kMaxPayload) : ∃ bytes,
    frame type payload subjectOwner = .ok bytes :=
  ⟨_, if_neg (Nat.not_lt.mpr hshort)⟩

theorem unaddressed_refused {count : Nat} (hmany : kMaxPayload / kComponentInfoSize < count)
    (hfits : 8 + 12 * count ≤ kMaxPayload) : ∃ message bytes,
    (masterMessage kComponentInfoSize).frameOf .masterMessage message = .ok bytes ∧
      (masterMessage kComponentInfoSize).decodePayload (bytes.drop kHeaderSize) =
        .error ⟨"implausible component count"⟩ := by
  obtain ⟨components, hcomponents, hlength⟩ := writeEach_replicate 1000 count
  generalize hlist : List.replicate count (⟨1000, [], []⟩ : ComponentInfo) = all at hcomponents ⊢
  have hall : all.length = count := by rw [← hlist, List.length_replicate]
  have hpayload : encodeMasterMessage ⟨1001, all⟩ =
      .ok (Writer.i32 1001 ++ Writer.u32 (UInt32.ofNat all.length) ++ components) := by
    rw [encodeMasterMessage, hcomponents]
    rfl
  have hshort : (Writer.i32 1001 ++ Writer.u32 (UInt32.ofNat all.length) ++
      components).length ≤ kMaxPayload := by
    simp only [List.length_append, Writer.i32_length, Writer.u32_length, hlength]
    omega
  obtain ⟨bytes, hbytes⟩ := frame_ok .masterMessage (-1) hshort
  have hencoded : (masterMessage kComponentInfoSize).encode ⟨1001, all⟩ = .ok _ := hpayload
  refine ⟨⟨1001, all⟩, bytes, by rw [frameOf, hencoded]; exact hbytes, ?_⟩
  rw [(header_of_frame hbytes).2]
  exact decodePayload_error
    (masterMessage_refused hshort hpayload (by rwa [hall]))

/-- One component more than the decoder takes for plausible makes a payload of
less than three megabytes. -/
theorem framed_welcome_refused :
    ¬ ∀ message bytes,
      (masterMessage kComponentInfoSize).frameOf .masterMessage message = .ok bytes →
      (masterMessage kComponentInfoSize).decodePayload (bytes.drop kHeaderSize) =
        .ok message := by
  intro hclaim
  obtain ⟨message, bytes, hframe, hrefused⟩ :=
    @unaddressed_refused 233017 (by decide) (by decide)
  have hread := hclaim message bytes hframe
  rw [hrefused] at hread
  contradiction

end Format

end Srnp
