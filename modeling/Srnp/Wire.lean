import Srnp.Pair

/-! The byte format of a frame: a sixteen-byte header, then the payload. Both
the length of a single string and that of a whole payload are limited, and a
writer that would pass either limit throws instead. -/
namespace Srnp.Wire

/-- Thrown with the text the source gives it. -/
structure DecodeError where
  what : String
deriving DecidableEq, Repr

def kMagic : UInt32 := 0x504E5253
def kVersion : UInt8 := 2
def kMaxPayload : Nat := 16 * 1024 * 1024

inductive MessageType where
  | invalid
  | subscription
  | pair
  | pairUpdate
  | indicatePresence
  | masterMessage
  | updateComponents
  | removePair
  | pairRemoved
deriving DecidableEq, Repr

def MessageType.code : MessageType → UInt8
  | .invalid => 0
  | .subscription => 1
  | .pair => 2
  | .pairUpdate => 3
  | .indicatePresence => 4
  | .masterMessage => 5
  | .updateComponents => 6
  | .removePair => 7
  | .pairRemoved => 8

structure FrameHeader where
  type : MessageType := .invalid
  payloadLength : UInt32 := 0
  subscriber : Int32 := -1

/-- The `width` low bytes of a value, least significant first. -/
def littleEndian : Nat → Nat → Bytes
  | 0, _ => []
  | width + 1, value => UInt8.ofNat value :: littleEndian width (value / 256)

@[simp] theorem littleEndian_length (width value : Nat) :
    (littleEndian width value).length = width := by
  induction width generalizing value with
  | zero => rfl
  | succ width ih => simp [littleEndian, ih]

namespace Writer

def u8 (value : UInt8) : Bytes := littleEndian 1 value.toNat
def u16 (value : UInt16) : Bytes := littleEndian 2 value.toNat
def u32 (value : UInt32) : Bytes := littleEndian 4 value.toNat
def i32 (value : Int32) : Bytes := littleEndian 4 value.toUInt32.toNat
def i64 (value : Int64) : Bytes := littleEndian 8 value.toUInt64.toNat
def boolean (value : Bool) : Bytes := u8 (if value then 1 else 0)

def string (value : Bytes) : Except DecodeError Bytes :=
  if kMaxPayload < value.length then throw ⟨"string too long to encode"⟩
  else pure (u32 (UInt32.ofNat value.length) ++ value)

@[simp] theorem u8_length (value : UInt8) : (u8 value).length = 1 := littleEndian_length _ _
@[simp] theorem i32_length (value : Int32) : (i32 value).length = 4 := littleEndian_length _ _
@[simp] theorem i64_length (value : Int64) : (i64 value).length = 8 := littleEndian_length _ _
@[simp] theorem u16_length (value : UInt16) : (u16 value).length = 2 := littleEndian_length _ _
@[simp] theorem u32_length (value : UInt32) : (u32 value).length = 4 := littleEndian_length _ _

theorem string_of_le {value : Bytes} (h : value.length ≤ kMaxPayload) :
    string value = .ok (u32 (UInt32.ofNat value.length) ++ value) := by
  unfold string
  rw [if_neg (Nat.not_lt.mpr h)]
  rfl

theorem string_of_gt {value : Bytes} (h : kMaxPayload < value.length) :
    string value = .error ⟨"string too long to encode"⟩ := by
  unfold string
  rw [if_pos h]
  rfl

end Writer

def encodeHeader (header : FrameHeader) : Bytes :=
  Writer.u32 kMagic ++ Writer.u8 kVersion ++ Writer.u8 header.type.code ++ Writer.u16 0 ++
    Writer.u32 header.payloadLength ++ Writer.i32 header.subscriber

def frame (type : MessageType) (payload : Bytes) (subscriber : Int32 := -1) :
    Except DecodeError Bytes :=
  if kMaxPayload < payload.length then throw ⟨"payload is over the limit"⟩
  else pure (encodeHeader ⟨type, UInt32.ofNat payload.length, subscriber⟩ ++ payload)

theorem frame_isOk (type : MessageType) (payload : Bytes) (subscriber : Int32) :
    (frame type payload subscriber).isOk = decide (payload.length ≤ kMaxPayload) := by
  unfold frame
  by_cases h : kMaxPayload < payload.length
  · rw [if_pos h, decide_eq_false (Nat.not_le.mpr h)]
    rfl
  · rw [if_neg h, decide_eq_true (Nat.not_lt.mp h)]
    rfl

end Srnp.Wire
