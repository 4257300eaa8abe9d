import Srnp.Framing
import Srnp.Forwarding

/-! A frame at the server that it was sent to, and what a write from another
component comes to there. The server reads the frame, decodes the payload and
takes the pair for its own; from then on it does what the client does for a
local write, only that the callbacks run first and the lock is given up
earlier. -/
namespace Srnp
open Std Wire Reading

namespace Component
variable {F : Type} (c : Component F)

/-- `ServerSession::handle`, with the decoding that each handler begins with. -/
def receive (frame : Frame) (now : TimePoint) : Except DecodeError (Entered F) :=
  match frame.header.type with
  | .pair => do
      let pair ← Format.pair.decodePayload frame.payload
      pure (c.handleIncomingPair pair now)
  | .pairUpdate => do
      let pair ← Format.pair.decodePayload frame.payload
      pure (c.handlePairUpdate pair now)
  | .subscription => do
      let message ← Format.subscription.decodePayload frame.payload
      pure (c.handleSubscription message now)
  | .removePair => do
      let message ← Format.removePairRequest.decodePayload frame.payload
      pure (c.handleRemovePair message)
  | .pairRemoved => do
      let message ← Format.removePairRequest.decodePayload frame.payload
      pure (c.handlePairRemoved message)
  | _ => throw ⟨"a server cannot handle this message type"⟩

end Component

def Frame.decode (frame : Frame) : Except DecodeError Message :=
  match frame.header.type with
  | .pair => .pair <$> Format.pair.decodePayload frame.payload
  | .pairUpdate => .pairUpdate <$> Format.pair.decodePayload frame.payload
  | .subscription => .subscription <$> Format.subscription.decodePayload frame.payload
  | .removePair => .removePair <$> Format.removePairRequest.decodePayload frame.payload
  | .pairRemoved => .pairRemoved <$> Format.removePairRequest.decodePayload frame.payload
  | _ => throw ⟨"a server cannot handle this message type"⟩

theorem Component.receive_eq {F : Type} (c : Component F) (frame : Frame) (now : TimePoint) :
    c.receive frame now = (c.handle · now) <$> frame.decode := by
  unfold receive Frame.decode
  split
  · cases Format.pair.decodePayload frame.payload <;> rfl
  · cases Format.pair.decodePayload frame.payload <;> rfl
  · cases Format.subscription.decodePayload frame.payload <;> rfl
  · cases Format.removePairRequest.decodePayload frame.payload <;> rfl
  · cases Format.removePairRequest.decodePayload frame.payload <;> rfl
  · rfl

theorem Message.type_ne_invalid (message : Message) : message.type ≠ .invalid := by
  cases message <;> simp [Message.type]

theorem Message.decode_sent {message : Message} {bytes : Bytes} (h : message.frameOf = .ok bytes) :
    ∃ frame, Reads FrameChannel.read bytes frame ∧ frame.decode = .ok message := by
  obtain ⟨payload, hpayload, hframe⟩ := Except.bind_eq_ok h
  refine ⟨_, FrameChannel.read_reads message.type_ne_invalid hframe, ?_⟩
  cases message with
  | subscription message =>
    have hdecode := @Format.decodePayload_of_reads _ Format.subscription _ _
      (subscription_reads hpayload)
    simp only [Frame.decode, FrameChannel.framed, Message.type, hdecode]
    rfl
  | pair pair =>
    have hdecode := @Format.decodePayload_of_reads _ Format.pair _ _ (pair_reads hpayload)
    simp only [Frame.decode, FrameChannel.framed, Message.type, hdecode]
    rfl
  | pairUpdate pair =>
    have hdecode := @Format.decodePayload_of_reads _ Format.pair _ _ (pair_reads hpayload)
    simp only [Frame.decode, FrameChannel.framed, Message.type, hdecode]
    rfl
  | removePair request =>
    have hdecode := @Format.decodePayload_of_reads _ Format.removePairRequest _ _
      (removePairRequest_reads hpayload)
    simp only [Frame.decode, FrameChannel.framed, Message.type, hdecode]
    rfl
  | pairRemoved request =>
    have hdecode := @Format.decodePayload_of_reads _ Format.removePairRequest _ _
      (removePairRequest_reads hpayload)
    simp only [Frame.decode, FrameChannel.framed, Message.type, hdecode]
    rfl

theorem Component.receive_sent {F : Type} (c : Component F) {message : Message} {bytes : Bytes}
    (h : message.frameOf = .ok bytes) (now : TimePoint) :
    ∃ frame, Reads FrameChannel.read bytes frame ∧
      c.receive frame now = .ok (c.handle message now) := by
  obtain ⟨frame, hread, hdecode⟩ := Message.decode_sent h
  refine ⟨frame, hread, ?_⟩
  rw [c.receive_eq, hdecode]
  rfl

/-! ### Up to write times -/

def Pair.untimed (pair : Pair) : Pair := { pair with writeTime := 0 }

def Message.untimed : Message → Message
  | .pair pushed => .pair pushed.untimed
  | .pairUpdate update => .pairUpdate update.untimed
  | message => message

def PairEntry.untimed {F : Type} (entry : PairEntry F) : PairEntry F :=
  { entry with pair := entry.pair.untimed }

def PairSpace.untimed {F : Type} (space : PairSpace F) : PairSpace F :=
  { space with
    pairs := space.pairs.map fun _ entry => entry.untimed
    keyed := by
      intro key found h
      rw [ExtTreeMap.getElem?_map, Option.map_eq_some_iff] at h
      obtain ⟨entry, hentry, rfl⟩ := h
      exact space.keyed key entry hentry }

def Component.untimed {F : Type} (c : Component F) : Component F :=
  { c with space := c.space.untimed }

def Action.callbacks {F : Type} : Action F → List (F × Pair)
  | .call callback snapshot => [(callback, snapshot.untimed)]
  | .post snapshot callbacks => callbacks.map (·, snapshot.untimed)
  | _ => []

/-- Two calls leave the same component, send the same frames to the same
subscribers in the same order, and run the same callbacks on the same pair in
the same order, up to write times. -/
structure SameEffect {F : Type} (left right : Entered F) : Prop where
  component : left.component.untimed = right.component.untimed
  frames : (Component.parcels left.todo).map (fun parcel => (parcel.1, parcel.2.untimed)) =
    (Component.parcels right.todo).map (fun parcel => (parcel.1, parcel.2.untimed))
  callbacks : left.todo.flatMap Action.callbacks = right.todo.flatMap Action.callbacks

namespace PairSpace
variable {F : Type} (space : PairSpace F)

theorem find_untimed (key : PairKey) :
    space.untimed.find key = (space.find key).map PairEntry.untimed :=
  ExtTreeMap.getElem?_map

theorem untimed_put {entry other : PairEntry F} (h : entry.untimed = other.untimed) :
    (space.put entry).untimed = (space.put other).untimed := by
  have hkey : entry.pair.pairKey = other.pair.pairKey := by
    change entry.untimed.pair.pairKey = other.untimed.pair.pairKey
    rw [h]
  have hpairs : (space.put entry).untimed.pairs = (space.put other).untimed.pairs := by
    apply ExtTreeMap.ext_getElem?
    intro key
    have hleft := (space.put entry).find_untimed key
    have hright := (space.put other).find_untimed key
    rw [find_put] at hleft hright
    rw [hkey] at hleft
    change (space.put entry).untimed.find key = (space.put other).untimed.find key
    rw [hleft, hright]
    split
    · exact congrArg some h
    · rfl
  simp only [untimed] at hpairs ⊢
  congr 1

theorem addPair_untimed (pair : Pair) (now later : TimePoint) :
    (space.addPair pair now).2.untimed = (space.addPair pair later).2.untimed := by
  unfold addPair
  split <;> rfl

theorem addPair_space_untimed (pair : Pair) (now later : TimePoint) :
    (space.addPair pair now).1.untimed = (space.addPair pair later).1.untimed := by
  rw [addPair_eq_put, space.addPair_eq_put pair later]
  exact space.untimed_put (space.addPair_untimed pair now later)

theorem addPair_callbacks (pair : Pair) (now later : TimePoint) :
    (space.addPair pair now).1.callbacksFor (space.addPair pair now).2 =
      (space.addPair pair later).1.callbacksFor (space.addPair pair later).2 := by
  unfold addPair callbacksFor universalCallbacks
  split <;> rfl

end PairSpace

namespace Component
variable {F : Type} (c : Component F)

theorem callbacks_calls (callbacks : List F) (snapshot : Pair) :
    (callbacks.map fun callback => Action.call callback snapshot).flatMap Action.callbacks =
      callbacks.map (·, snapshot.untimed) := by
  induction callbacks with
  | nil => rfl
  | cons callback rest ih => exact congrArg ((callback, snapshot.untimed) :: ·) ih

theorem callbacks_sends (message : Message) (ids : List OwnerId) :
    (ids.map fun subscriber => (.send subscriber message : Action F)).flatMap
      Action.callbacks = [] := by
  induction ids with
  | nil => rfl
  | cons id rest ih => exact ih

theorem callbacks_notifyLocal (snapshot : Pair) (callbacks : List F) :
    (notifyLocal snapshot callbacks).flatMap Action.callbacks =
      callbacks.map (·, snapshot.untimed) := by
  unfold notifyLocal
  split
  · rename_i hnone
    rw [List.isEmpty_iff.mp hnone]
    rfl
  · exact List.append_nil _

theorem setPair_todo (hready : c.ready) (key value : Bytes) (type : PairType) (now : TimePoint)
    (hfits : (Message.pairUpdate { owner := c.owner, key, value, type }).fits) :
    let added := c.space.addPair { owner := c.owner, key, value, type } now
    (c.setPair key value type now).todo =
      (added.2.subscribers.ids.map fun subscriber => .send subscriber (.pairUpdate added.2.pair)) ++
        .unlock :: notifyLocal added.2.pair (added.1.callbacksFor added.2) := by
  simp only [setPair, hready, if_true, fanOutThen]
  rw [fanOutUnlessEmpty_fits (addPair_fits hfits)]

theorem setPair_same_effect (hready : c.ready) (key value : Bytes) (type : PairType)
    (now later : TimePoint)
    (hfits : (Message.pairUpdate { owner := c.owner, key, value, type }).fits) :
    SameEffect (c.setPair key value type now)
      (c.handle (.pair { owner := c.owner, key, value, type }) later) := by
  have hlocal := c.setPair_todo hready key value type now hfits
  have hremote := @handlePairUpdate_todo F c { owner := c.owner, key, value, type } later hfits
  have hentry := c.space.addPair_untimed { owner := c.owner, key, value, type } now later
  have hpair : (c.space.addPair { owner := c.owner, key, value, type } now).2.pair.untimed =
      (c.space.addPair { owner := c.owner, key, value, type } later).2.pair.untimed :=
    congrArg PairEntry.pair hentry
  refine ⟨?_, ?_, ?_⟩
  · rw [setPair, if_pos hready]
    exact congrArg (fun space => { c with space })
      (c.space.addPair_space_untimed { owner := c.owner, key, value, type } now later)
  · change List.map _ (parcels (c.setPair key value type now).todo) = List.map _ (parcels
      (c.enter (.handle (.pairUpdate { owner := c.owner, key, value, type })) later).todo)
    rw [hlocal, hremote]
    simp only [parcels_append, parcels_sends, parcels_calls, parcels_unlock, parcels_notifyLocal,
      List.append_nil, List.nil_append, List.map_map, PairSpace.addPair_subscribers]
    apply List.map_congr_left
    intro subscriber _
    exact congrArg (fun pair => (subscriber, Message.pairUpdate pair)) hpair
  · change List.flatMap _ (c.setPair key value type now).todo = List.flatMap _
      (c.enter (.handle (.pairUpdate { owner := c.owner, key, value, type })) later).todo
    rw [hlocal, hremote, List.flatMap_append, List.flatMap_append, callbacks_calls,
      callbacks_sends, callbacks_sends, List.flatMap_cons, callbacks_notifyLocal, hpair,
      c.space.addPair_callbacks _ now later, List.append_nil]
    rfl

theorem removePair_same_effect (hready : c.ready) (key : Bytes) (now : TimePoint)
    (hfits : (Message.pairRemoved ⟨c.owner, key⟩).fits) :
    SameEffect (c.removePair key) (c.handle (.removePair ⟨c.owner, key⟩) now) := by
  simp only [removePair, hready, if_true, handle, handleRemovePair, ne_eq, not_true, if_false]
  cases hfind : c.space.find (RemovePairRequest.pairKey ⟨c.owner, key⟩) with
  | none => exact ⟨rfl, rfl, rfl⟩
  | some entry =>
    refine ⟨rfl, ?_, ?_⟩
    · dsimp only
      rw [parcels_fanOutThen _ _ rfl rfl, parcels_fanOutThen _ _ rfl rfl]
    · dsimp only [fanOutThen]
      rw [fanOutUnlessEmpty_fits hfits]
      simp only [List.flatMap_append, callbacks_sends]
      rfl

end Component

def written : Component Unit :=
  ((Component.initial 1000).enter (.handle (.subscription ⟨[107], 1000, 2000, true⟩)) 1).component

end Srnp
