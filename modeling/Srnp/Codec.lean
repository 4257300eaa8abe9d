import Srnp.Wire

/-! The messages that components exchange and how they are encoded. Which
messages can be framed at all is decided by their encoded size alone. -/
namespace Srnp
open Wire LastWrite

structure Subscription where
  key : Bytes
  ownerId : OwnerId
  subscriber : OwnerId
  registering : Bool := true
deriving DecidableEq, Repr

/-- Names the pair to delete. Sent to the owner, then on to its subscribers. -/
structure RemovePairRequest where
  owner : OwnerId
  key : Bytes
deriving DecidableEq, Repr

def RemovePairRequest.pairKey (request : RemovePairRequest) : PairKey :=
  ⟨request.owner, request.key⟩

def kWildcardKey : Bytes := [42]

def PairType.code : PairType → UInt8
  | .invalid => 0
  | .string => 1
  | .bytes => 2
  | .metaPair => 3

/-- The frames one component sends another, with their decoded payloads. -/
inductive Message where
  | subscription (message : Subscription)
  | pair (pair : Pair)
  | pairUpdate (pair : Pair)
  | removePair (request : RemovePairRequest)
  | pairRemoved (request : RemovePairRequest)
deriving DecidableEq, Repr

def encodePair (pair : Pair) : Except DecodeError Bytes := do
  let key ← Writer.string pair.key
  let value ← Writer.string pair.value
  pure (Writer.i32 pair.owner ++ key ++ value ++ Writer.u8 pair.type.code ++
    Writer.i64 pair.writeTime ++ Writer.i64 pair.expiryTime)

def encodeSubscription (message : Subscription) : Except DecodeError Bytes := do
  let key ← Writer.string message.key
  pure (key ++ Writer.i32 message.ownerId ++ Writer.i32 message.subscriber ++
    Writer.boolean message.registering)

def encodeRemovePairRequest (message : RemovePairRequest) : Except DecodeError Bytes := do
  let key ← Writer.string message.key
  pure (Writer.i32 message.owner ++ key)

namespace Message

def type : Message → MessageType
  | .subscription _ => .subscription
  | .pair _ => .pair
  | .pairUpdate _ => .pairUpdate
  | .removePair _ => .removePair
  | .pairRemoved _ => .pairRemoved

def encode : Message → Except DecodeError Bytes
  | .subscription message => encodeSubscription message
  | .pair pushed => encodePair pushed
  | .pairUpdate update => encodePair update
  | .removePair request => encodeRemovePairRequest request
  | .pairRemoved request => encodeRemovePairRequest request

def frameOf (message : Message) : Except DecodeError Bytes := do
  let payload ← message.encode
  frame message.type payload

def fits (message : Message) : Bool := message.frameOf.isOk

/-- Only `fanOutPair` tags a frame as last-value-wins, with the pair it carries. -/
def coalesceKey : Message → Option PairKey
  | .pairUpdate update => some update.pairKey
  | _ => none

/-- What applying a frame from the owner of a pair does to a copy of it. -/
def write : Message → Option (Write PairKey Shown)
  | .pairUpdate update => some update.write
  | .pairRemoved request => some (.remove request.pairKey)
  | _ => none

end Message

theorem encodePair_size (pair : Pair) :
    (∃ bytes, encodePair pair = .ok bytes ∧
      bytes.length = pair.key.length + pair.value.length + 29) ∨
    ((∃ error, encodePair pair = .error error) ∧
      kMaxPayload < pair.key.length + pair.value.length) := by
  by_cases hkey : pair.key.length ≤ kMaxPayload
  · by_cases hvalue : pair.value.length ≤ kMaxPayload
    · left
      refine ⟨_, by simp only [encodePair, Writer.string_of_le hkey, Writer.string_of_le hvalue]; rfl, ?_⟩
      simp only [List.length_append, Writer.i32_length, Writer.i64_length, Writer.u8_length,
        Writer.u32_length]
      omega
    · right
      refine ⟨⟨_, by
        simp only [encodePair, Writer.string_of_le hkey,
          Writer.string_of_gt (Nat.lt_of_not_le hvalue)]; rfl⟩, ?_⟩
      omega
  · right
    refine ⟨⟨_, by simp only [encodePair, Writer.string_of_gt (Nat.lt_of_not_le hkey)]; rfl⟩, ?_⟩
    omega

theorem encodeRemovePairRequest_size (request : RemovePairRequest) :
    (∃ bytes, encodeRemovePairRequest request = .ok bytes ∧
      bytes.length = request.key.length + 8) ∨
    ((∃ error, encodeRemovePairRequest request = .error error) ∧
      kMaxPayload < request.key.length) := by
  by_cases hkey : request.key.length ≤ kMaxPayload
  · left
    refine ⟨_, by simp only [encodeRemovePairRequest, Writer.string_of_le hkey]; rfl, ?_⟩
    simp only [List.length_append, Writer.i32_length, Writer.u32_length]
    omega
  · right
    refine ⟨⟨_, by
      simp only [encodeRemovePairRequest, Writer.string_of_gt (Nat.lt_of_not_le hkey)]; rfl⟩, ?_⟩
    omega

theorem encodeSubscription_size (message : Subscription) :
    (∃ bytes, encodeSubscription message = .ok bytes ∧
      bytes.length = message.key.length + 13) ∨
    ((∃ error, encodeSubscription message = .error error) ∧
      kMaxPayload < message.key.length) := by
  by_cases hkey : message.key.length ≤ kMaxPayload
  · left
    refine ⟨_, by simp only [encodeSubscription, Writer.string_of_le hkey]; rfl, ?_⟩
    simp only [List.length_append, Writer.i32_length, Writer.u32_length, Writer.boolean,
      Writer.u8_length]
    omega
  · right
    refine ⟨⟨_, by
      simp only [encodeSubscription, Writer.string_of_gt (Nat.lt_of_not_le hkey)]; rfl⟩, ?_⟩
    omega

/-- A message whose encoding either has a known size or fails for being even
larger is framed exactly when that size is within the limit. -/
theorem framed_iff_of_size {encoded : Except DecodeError Bytes} (type : MessageType)
    {content overhead : Nat}
    (h : (∃ bytes, encoded = .ok bytes ∧ bytes.length = content + overhead) ∨
      ((∃ error, encoded = .error error) ∧ kMaxPayload < content)) :
    (encoded.bind fun payload => frame type payload).isOk ↔
      content + overhead ≤ kMaxPayload := by
  rcases h with ⟨bytes, rfl, hlength⟩ | ⟨⟨error, rfl⟩, hlarge⟩
  · change (frame type bytes).isOk = true ↔ _
    rw [frame_isOk, decide_eq_true_iff, hlength]
  · change (false = true) ↔ _
    constructor
    · intro h
      contradiction
    · omega

theorem Message.ok_of_fits {message : Message} (h : message.fits) :
    ∃ bytes, message.frameOf = .ok bytes := by
  unfold Message.fits at h
  cases hframe : message.frameOf with
  | error error => simp [hframe, Except.isOk, Except.toBool] at h
  | ok bytes => exact ⟨bytes, rfl⟩

theorem Message.error_of_too_large {message : Message} (h : message.fits = false) :
    ∃ error, message.frameOf = .error error := by
  unfold Message.fits at h
  cases hframe : message.frameOf with
  | error error => exact ⟨error, rfl⟩
  | ok bytes => simp [hframe, Except.isOk, Except.toBool] at h

theorem fits_iff_of_size {message : Message} {content overhead : Nat}
    (h : (∃ bytes, message.encode = .ok bytes ∧ bytes.length = content + overhead) ∨
      ((∃ error, message.encode = .error error) ∧ kMaxPayload < content)) :
    message.fits ↔ content + overhead ≤ kMaxPayload :=
  framed_iff_of_size message.type h

theorem pairUpdate_fits_iff (pair : Pair) :
    (Message.pairUpdate pair).fits ↔
      pair.key.length + pair.value.length + 29 ≤ kMaxPayload :=
  fits_iff_of_size (encodePair_size pair)

theorem subscription_fits_iff (message : Subscription) :
    (Message.subscription message).fits ↔ message.key.length + 13 ≤ kMaxPayload :=
  fits_iff_of_size (encodeSubscription_size message)

theorem pair_fits_iff (pair : Pair) :
    (Message.pair pair).fits ↔ pair.key.length + pair.value.length + 29 ≤ kMaxPayload :=
  fits_iff_of_size (encodePair_size pair)

theorem pairRemoved_fits_iff (request : RemovePairRequest) :
    (Message.pairRemoved request).fits ↔ request.key.length + 8 ≤ kMaxPayload :=
  fits_iff_of_size (encodeRemovePairRequest_size request)

theorem removePair_fits_iff (request : RemovePairRequest) :
    (Message.removePair request).fits ↔ request.key.length + 8 ≤ kMaxPayload :=
  fits_iff_of_size (encodeRemovePairRequest_size request)

end Srnp
