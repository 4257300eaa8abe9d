import Srnp.MasterMessages

/-! Reading messages back out of bytes. Every read is bounds-checked and what is
read must be consumed exactly, so a message either comes back as it was written
or the payload is refused. -/
namespace Srnp
open Wire Reading

namespace Wire

def kHeaderSize : Nat := 16

def fromLittleEndian : Bytes → Nat
  | [] => 0
  | byte :: rest => byte.toNat + 256 * fromLittleEndian rest

namespace Reader

def take (count : Nat) : Reader UInt8 DecodeError Bytes := fun bytes =>
  if bytes.length < count then throw ⟨"message ended early"⟩
  else pure (bytes.take count, bytes.drop count)

def integer (width : Nat) : Reader UInt8 DecodeError Nat := do
  let raw ← take width
  pure (fromLittleEndian raw)

def u8 : Reader UInt8 DecodeError UInt8 := do pure (UInt8.ofNat (← integer 1))
def u16 : Reader UInt8 DecodeError UInt16 := do pure (UInt16.ofNat (← integer 2))
def u32 : Reader UInt8 DecodeError UInt32 := do pure (UInt32.ofNat (← integer 4))
def i32 : Reader UInt8 DecodeError Int32 := do pure (UInt32.ofNat (← integer 4)).toInt32
def i64 : Reader UInt8 DecodeError Int64 := do pure (UInt64.ofNat (← integer 8)).toInt64
def boolean : Reader UInt8 DecodeError Bool := do pure ((← u8) ≠ 0)

def string : Reader UInt8 DecodeError Bytes := do
  let length ← u32
  take length.toNat

end Reader

def MessageType.ofCode (code : UInt8) : Option MessageType :=
  [.invalid, .subscription, .pair, .pairUpdate, .indicatePresence, .masterMessage,
    .updateComponents, .removePair, .pairRemoved].find? fun type => type.code = code

/-- Zero names no message. -/
def readType : Reader UInt8 DecodeError MessageType := do
  let code ← Reader.u8
  match MessageType.ofCode code with
  | none => throw ⟨s!"unknown message type {code}"⟩
  | some .invalid => throw ⟨s!"unknown message type {code}"⟩
  | some type => pure type

/-- `decodeHeader`, on a span that has been found to be of the right size. -/
def readHeader : Reader UInt8 DecodeError FrameHeader := do
  let magic ← Reader.u32
  if magic ≠ kMagic then throw ⟨"not an SRNP frame"⟩
  let version ← Reader.u8
  if version ≠ kVersion then throw ⟨s!"unsupported protocol version {version}"⟩
  let type ← readType
  let _ ← Reader.u16
  let length ← Reader.u32
  if kMaxPayload < length.toNat then
    throw ⟨s!"payload of {length} bytes is over the limit"⟩
  let subscriber ← Reader.i32
  pure ⟨type, length, subscriber⟩

def decodeHeader (bytes : Bytes) : Except DecodeError FrameHeader :=
  if bytes.length ≠ kHeaderSize then throw ⟨"header is the wrong size"⟩
  else do
    let (header, _) ← readHeader.run bytes
    pure header

end Wire

/-- How one kind of message is written and read. -/
structure Format (T : Type) where
  encode : T → Except DecodeError Bytes
  decode : Reader UInt8 DecodeError T

namespace Format
variable {T : Type} (format : Format T)

def frameOf (type : MessageType) (message : T) (subscriber : Int32 := -1) :
    Except DecodeError Bytes := do
  let payload ← format.encode message
  frame type payload subscriber

def decodePayload (payload : Bytes) : Except DecodeError T := do
  let (message, rest) ← format.decode.run payload
  if rest.isEmpty then pure message else throw ⟨"message had unexpected trailing bytes"⟩

end Format

def PairType.ofCode (code : UInt8) : Option PairType :=
  [.invalid, .string, .bytes, .metaPair].find? fun type => type.code = code

def UpdateOperation.ofCode (code : UInt8) : Option UpdateOperation :=
  [.add, .remove].find? fun operation => operation.code = code

def readEnum {E : Type} (ofCode : UInt8 → Option E) : Reader UInt8 DecodeError E := do
  match ofCode (← Reader.u8) with
  | none => throw ⟨"enum value out of range"⟩
  | some value => pure value

def decodePair : Reader UInt8 DecodeError Pair := do
  let owner ← Reader.i32
  let key ← Reader.string
  let value ← Reader.string
  let type ← readEnum PairType.ofCode
  let writeTime ← Reader.i64
  let expiryTime ← Reader.i64
  pure ⟨owner, key, value, type, writeTime, expiryTime⟩

def decodeSubscription : Reader UInt8 DecodeError Subscription := do
  let key ← Reader.string
  let ownerId ← Reader.i32
  let subscriber ← Reader.i32
  let registering ← Reader.boolean
  pure ⟨key, ownerId, subscriber, registering⟩

def decodeRemovePairRequest : Reader UInt8 DecodeError RemovePairRequest := do
  let owner ← Reader.i32
  let key ← Reader.string
  pure ⟨owner, key⟩

def decodeIndicatePresence : Reader UInt8 DecodeError IndicatePresence := do
  let port ← Reader.string
  let forceOwnerId ← Reader.boolean
  let ownerId ← Reader.i32
  pure ⟨port, forceOwnerId, ownerId⟩

def decodeComponentInfo : Reader UInt8 DecodeError ComponentInfo := do
  let owner ← Reader.i32
  let ip ← Reader.string
  let port ← Reader.string
  pure ⟨owner, ip, port⟩

def decodeUpdateComponents : Reader UInt8 DecodeError UpdateComponents := do
  let operation ← readEnum UpdateOperation.ofCode
  let component ← decodeComponentInfo
  pure ⟨operation, component⟩

/-- `size` is `sizeof(ComponentInfo)`, which depends on the host. -/
def decodeMasterMessage (size : Nat) : Reader UInt8 DecodeError MasterMessage := do
  let owner ← Reader.i32
  let count ← Reader.u32
  if kMaxPayload / size < count.toNat then throw ⟨"implausible component count"⟩
  let allComponents ← repeated decodeComponentInfo count.toNat
  pure ⟨owner, allComponents⟩

namespace Format

def pair : Format Pair := ⟨encodePair, decodePair⟩
def subscription : Format Subscription := ⟨encodeSubscription, decodeSubscription⟩
def removePairRequest : Format RemovePairRequest :=
  ⟨encodeRemovePairRequest, decodeRemovePairRequest⟩
def indicatePresence : Format IndicatePresence :=
  ⟨encodeIndicatePresence, decodeIndicatePresence⟩
def updateComponents : Format UpdateComponents :=
  ⟨encodeUpdateComponents, decodeUpdateComponents⟩
def masterMessage (size : Nat) : Format MasterMessage :=
  ⟨encodeMasterMessage, decodeMasterMessage size⟩

end Format

end Srnp
