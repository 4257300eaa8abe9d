import Srnp.AllOrNothing
import Srnp.LateSubscriber

/-! What ends a connection. The server reads frames until a handler throws, and
takes the frame for a bad one then. A handler also throws where it cannot frame
what it has to send on, and only a subscription asks it for pairs other than
the one it has just decoded. -/
namespace Srnp
open Std Wire Reading LastWrite Transition

/-! ### The size of what was decoded -/

namespace Wire.Reader
variable {bytes rest : Bytes}

theorem take_ok {count : Nat} {taken : Bytes} (h : (take count).run bytes = .ok (taken, rest)) :
    taken.length = count ∧ bytes.length = count + rest.length := by
  change (if bytes.length < count then _ else _) = _ at h
  split at h
  · contradiction
  · cases Except.ok.inj h
    rw [List.length_take, List.length_drop]
    omega

/-- A reader that takes the same number of bytes whatever it reads. -/
def Fixed {T : Type} (reader : Reader UInt8 DecodeError T) (width : Nat) : Prop :=
  ∀ bytes value rest, reader.run bytes = .ok (value, rest) → bytes.length = width + rest.length

theorem Fixed.result {S T : Type} {reader : Reader UInt8 DecodeError S} {width : Nat}
    (h : Fixed reader width) (f : S → T) : Fixed (reader >>= fun read => pure (f read)) width := by
  intro bytes value rest hread
  obtain ⟨first, middle, hfirst, hlast⟩ := Reader.run_bind_ok hread
  cases Except.ok.inj hlast
  exact h _ _ _ hfirst

theorem integer_fixed (width : Nat) : Fixed (integer width) width := by
  intro bytes value rest hread
  obtain ⟨raw, middle, hraw, hlast⟩ := Reader.run_bind_ok hread
  cases Except.ok.inj hlast
  exact (take_ok hraw).2

theorem i32_fixed : Fixed i32 4 := (integer_fixed 4).result _
theorem i64_fixed : Fixed i64 8 := (integer_fixed 8).result _

theorem string_ok {value : Bytes} (h : string.run bytes = .ok (value, rest)) :
    bytes.length = 4 + value.length + rest.length := by
  obtain ⟨length, middle, hlength, hvalue⟩ := Reader.run_bind_ok h
  have hprefix := (integer_fixed 4).result UInt32.ofNat bytes length middle hlength
  have htaken := take_ok hvalue
  omega

end Wire.Reader

theorem readEnum_fixed {E : Type} (ofCode : UInt8 → Option E) :
    Reader.Fixed (readEnum ofCode) 1 := by
  intro bytes value rest hread
  obtain ⟨code, middle, hcode, hlast⟩ := Reader.run_bind_ok hread
  have hone := (Reader.integer_fixed 1).result UInt8.ofNat bytes code middle hcode
  split at hlast
  · contradiction
  · cases Except.ok.inj hlast
    exact hone

theorem decodePair_length {payload : Bytes} {pair : Pair}
    (h : Format.pair.decodePayload payload = .ok pair) :
    payload.length = pair.key.length + pair.value.length + 29 := by
  have hread : decodePair.run payload = .ok (pair, []) := Format.decodePayload_ok h
  obtain ⟨owner, afterOwner, howner, hread⟩ := Reader.run_bind_ok hread
  obtain ⟨key, afterKey, hkey, hread⟩ := Reader.run_bind_ok hread
  obtain ⟨value, afterValue, hvalue, hread⟩ := Reader.run_bind_ok hread
  obtain ⟨type, afterType, htype, hread⟩ := Reader.run_bind_ok hread
  obtain ⟨writeTime, afterWrite, hwrite, hread⟩ := Reader.run_bind_ok hread
  obtain ⟨expiryTime, afterExpiry, hexpiry, hread⟩ := Reader.run_bind_ok hread
  cases Except.ok.inj hread
  have hownerSize := Reader.i32_fixed _ _ _ howner
  have hkeySize := Reader.string_ok hkey
  have hvalueSize := Reader.string_ok hvalue
  have htypeSize := readEnum_fixed _ _ _ _ htype
  have hwriteSize := Reader.i64_fixed _ _ _ hwrite
  have hexpirySize := Reader.i64_fixed _ _ _ hexpiry
  rw [List.length_nil] at hexpirySize
  dsimp only
  omega

theorem decodeRemovePairRequest_length {payload : Bytes} {request : RemovePairRequest}
    (h : Format.removePairRequest.decodePayload payload = .ok request) :
    payload.length = request.key.length + 8 := by
  have hread : decodeRemovePairRequest.run payload = .ok (request, []) :=
    Format.decodePayload_ok h
  obtain ⟨owner, afterOwner, howner, hread⟩ := Reader.run_bind_ok hread
  obtain ⟨key, afterKey, hkey, hread⟩ := Reader.run_bind_ok hread
  cases Except.ok.inj hread
  have hownerSize := Reader.i32_fixed _ _ _ howner
  have hkeySize := Reader.string_ok hkey
  rw [List.length_nil] at hkeySize
  dsimp only
  omega

namespace FrameChannel

theorem decodeHeader_limit {bytes : Bytes} {header : FrameHeader}
    (h : decodeHeader bytes = .ok header) : header.payloadLength.toNat ≤ kMaxPayload := by
  unfold decodeHeader at h
  split at h
  · contradiction
  obtain ⟨⟨read, rest⟩, hread, hlast⟩ := Except.bind_eq_ok h
  cases Except.ok.inj hlast
  obtain ⟨magic, _, _, hread⟩ := Reader.run_bind_ok hread
  split at hread
  · contradiction
  obtain ⟨version, _, _, hread⟩ := Reader.run_bind_ok hread
  split at hread
  · contradiction
  obtain ⟨type, _, _, hread⟩ := Reader.run_bind_ok hread
  obtain ⟨reserved, _, _, hread⟩ := Reader.run_bind_ok hread
  obtain ⟨length, _, _, hread⟩ := Reader.run_bind_ok hread
  split at hread
  · contradiction
  rename_i hshort
  obtain ⟨subscriber, _, _, hread⟩ := Reader.run_bind_ok hread
  cases Except.ok.inj hread
  exact Nat.not_lt.mp hshort

theorem read_limit {stream rest : Bytes} {frame : Frame}
    (h : read.run stream = .ok (frame, rest)) : frame.payload.length ≤ kMaxPayload := by
  obtain ⟨headerBytes, tail, hheader, h⟩ := Reader.run_bind_ok h
  split at h
  · contradiction
  rename_i header hdecode
  have hlimit := decodeHeader_limit hdecode
  unfold readPayload at h
  split at h
  · obtain ⟨payload, last, hpayload, hlast⟩ := Reader.run_bind_ok h
    cases Except.ok.inj hlast
    change (if tail.length < header.payloadLength.toNat then _ else _) = _ at hpayload
    split at hpayload
    · contradiction
    · cases Except.ok.inj hpayload
      exact (List.length_take_le _ _).trans hlimit
  · cases Except.ok.inj h
    exact Nat.zero_le _

end FrameChannel

namespace Frame

def Incoming (frame : Frame) : Prop :=
  ∃ stream rest, FrameChannel.read.run stream = .ok (frame, rest)

/-- Its type is not one a server handles, or its payload is rejected. -/
def Bad (frame : Frame) : Prop :=
  match frame.header.type with
  | .pair | .pairUpdate => ∃ error, Format.pair.decodePayload frame.payload = .error error
  | .subscription => ∃ error, Format.subscription.decodePayload frame.payload = .error error
  | .removePair | .pairRemoved =>
      ∃ error, Format.removePairRequest.decodePayload frame.payload = .error error
  | _ => True

theorem bad_iff {frame : Frame} : frame.Bad ↔ ∃ error, frame.decode = .error error := by
  have hmap : ∀ {T : Type} (f : T → Message) (decoded : Except DecodeError T),
      (∃ error, decoded = .error error) ↔ ∃ error, f <$> decoded = .error error := by
    intro T f decoded
    cases decoded with
    | error error => exact iff_of_true ⟨error, rfl⟩ ⟨error, rfl⟩
    | ok value =>
      constructor
      · rintro ⟨error, herror⟩
        contradiction
      · rintro ⟨error, herror⟩
        contradiction
  unfold Bad decode
  cases frame.header.type with
  | pair => exact hmap _ _
  | pairUpdate => exact hmap _ _
  | subscription => exact hmap _ _
  | removePair => exact hmap _ _
  | pairRemoved => exact hmap _ _
  | _ => exact iff_of_true trivial ⟨_, rfl⟩

theorem decode_fits {frame : Frame} (hincoming : frame.Incoming) {message : Message}
    (h : frame.decode = .ok message) (hpairs : ∀ subscription, message ≠ .subscription subscription) :
    message.fits := by
  obtain ⟨stream, rest, hread⟩ := hincoming
  have hlimit := FrameChannel.read_limit hread
  have hmap : ∀ {T : Type} {f : T → Message} {decoded : Except DecodeError T},
      f <$> decoded = .ok message → ∃ value, decoded = .ok value ∧ message = f value := by
    intro T f decoded hmapped
    cases decoded with
    | error error => contradiction
    | ok value => exact ⟨value, rfl, (Except.ok.inj hmapped).symm⟩
  unfold decode at h
  split at h
  · obtain ⟨pair, hpair, rfl⟩ := hmap h
    rw [pair_fits_iff, ← decodePair_length hpair]
    exact hlimit
  · obtain ⟨pair, hpair, rfl⟩ := hmap h
    rw [pairUpdate_fits_iff, ← decodePair_length hpair]
    exact hlimit
  · obtain ⟨subscription, _, rfl⟩ := hmap h
    exact absurd rfl (hpairs subscription)
  · obtain ⟨request, hrequest, rfl⟩ := hmap h
    rw [removePair_fits_iff, ← decodeRemovePairRequest_length hrequest]
    exact hlimit
  · obtain ⟨request, hrequest, rfl⟩ := hmap h
    rw [pairRemoved_fits_iff, ← decodeRemovePairRequest_length hrequest]
    exact hlimit
  · contradiction

end Frame

/-! ### How a handler ends -/

namespace Component
variable {F : Type} (c : Component F)

def toSend (message : Subscription) (now : TimePoint) : List Pair :=
  if message.key ≠ kWildcardKey ∧ message.ownerId ≠ c.owner then []
  else if message.subscriber = c.owner then []
  else if message.registering then
    if message.key = kWildcardKey then
      c.ownPairs (c.space.addSubscriptionToAll message.subscriber)
    else
      let key : PairKey := ⟨message.ownerId, message.key⟩
      currentPair (c.space.addSubscription key message.subscriber now) key
  else []

def sendEachExit (pairs : List Pair) : Except DecodeError Unit :=
  pairs.forM fun pair => do
    let _ ← (Message.pairUpdate pair).frameOf
    pure ()

def applyAndNotifyExit (pair : Pair) (now : TimePoint) : Except DecodeError Unit := do
  let entry := (c.space.addPair pair now).2
  let _ ← (fanOutUnlessEmpty (.pairUpdate entry.pair) entry.subscribers :
    Except DecodeError (List (Action F)))
  pure ()

def handleRemovePairExit (request : RemovePairRequest) : Except DecodeError Unit :=
  if request.owner ≠ c.owner then pure ()
  else
    match c.space.find request.pairKey with
    | none => pure ()
    | some entry => do
        let _ ← (fanOutUnlessEmpty (.pairRemoved request) entry.subscribers :
          Except DecodeError (List (Action F)))
        pure ()

/-- Whether the handler of a message returns, where no callback throws. -/
def handleExit (message : Message) (now : TimePoint) : Except DecodeError Unit :=
  match message with
  | .pair pair => c.applyAndNotifyExit { pair with owner := c.owner } now
  | .pairUpdate pair => c.applyAndNotifyExit pair now
  | .subscription message => sendEachExit (c.toSend message now)
  | .removePair request => c.handleRemovePairExit request
  | .pairRemoved _ => pure ()

def serveExit (frame : Frame) (now : TimePoint) : Except DecodeError Unit := do
  let message ← frame.decode
  c.handleExit message now

def serve (frame : Frame) (now : TimePoint) : Entered F :=
  match c.receive frame now with
  | .error _ => c.idle
  | .ok entered => entered

/-- The handler throws for a bad frame only, and before it has done anything. -/
structure ThrowsOnlyIfBad (frame : Frame) (now : TimePoint) : Prop where
  bad : ∀ error, c.serveExit frame now = .error error → frame.Bad
  untouched : ∀ error, c.serveExit frame now = .error error →
    (c.serve frame now).component.space = c.space ∧
      (c.serve frame now).todo.flatMap c.hands = []

structure Owes (message : Subscription) (pair : Pair) : Prop where
  registering : message.registering
  addressed : message.key = kWildcardKey ∨ message.ownerId = c.owner
  foreign : message.subscriber ≠ c.owner
  own : pair.owner = c.owner
  covers : message.covers pair.pairKey
  held : c.getPair pair.pairKey = some pair

theorem mem_toSend {message : Subscription} {now : TimePoint} {pair : Pair} :
    pair ∈ c.toSend message now ↔ c.Owes message pair := by
  have howes : c.Owes message pair ↔ ((message.key = kWildcardKey ∨ message.ownerId = c.owner) ∧
      message.subscriber ≠ c.owner ∧ message.registering ∧ pair.owner = c.owner ∧
      message.covers pair.pairKey ∧ c.space.held pair.pairKey = some pair) :=
    ⟨fun ⟨hregistering, haddressed, hforeign, hown, hcovers, hheld⟩ =>
      ⟨haddressed, hforeign, hregistering, hown, hcovers, hheld⟩,
      fun ⟨haddressed, hforeign, hregistering, hown, hcovers, hheld⟩ =>
        ⟨hregistering, haddressed, hforeign, hown, hcovers, hheld⟩⟩
  rw [howes]
  unfold toSend
  by_cases hforeign : message.subscriber = c.owner
  · simp [hforeign]
  by_cases hregistering : message.registering
  · by_cases hwildcard : message.key = kWildcardKey
    · simp only [hwildcard, hforeign, hregistering, ne_eq, not_true, false_and, if_false, if_true,
        not_false_iff, true_or, true_and, mem_ownPairs, PairSpace.held_addSubscriptionToAll,
        Subscription.covers]
    · by_cases howner : message.ownerId = c.owner
      · simp only [hwildcard, howner, hforeign, hregistering, ne_eq, not_true, and_false, if_false,
          if_true, not_false_iff, or_true, true_and, mem_currentPair,
          PairSpace.held_addSubscription, Subscription.covers, false_or]
        constructor
        · intro hheld
          have hkey := PairSpace.held_pairKey hheld
          have hown : pair.owner = c.owner := congrArg PairKey.owner hkey
          have hname : pair.key = message.key := congrArg PairKey.key hkey
          refine ⟨hown, ⟨hown.symm, hname.symm⟩, ?_⟩
          rw [hkey]
          exact hheld
        · rintro ⟨_, ⟨hown, hname⟩, hheld⟩
          rw [hown, hname]
          exact hheld
      · simp [hwildcard, howner]
  · simp [hregistering]

theorem handleSubscription_todo (message : Subscription) (now : TimePoint) :
    (c.handleSubscription message now).todo =
      sendEach (c.toSend message now) message.subscriber := by
  unfold handleSubscription toSend
  split
  · rfl
  split
  · rfl
  split
  · split <;> rfl
  split <;> rfl

theorem sendEachExit_ok_iff (pairs : List Pair) :
    sendEachExit pairs = .ok () ↔ ∀ pair ∈ pairs, (Message.pairUpdate pair).fits := by
  induction pairs with
  | nil => exact iff_of_true rfl (List.forall_mem_nil _)
  | cons pair rest ih =>
    have hstep : sendEachExit (pair :: rest) =
        (Message.pairUpdate pair).frameOf >>= fun _ => sendEachExit rest := by
      change ((Message.pairUpdate pair).frameOf >>= fun _ => pure ()) >>=
        (fun _ => sendEachExit rest) = _
      cases (Message.pairUpdate pair).frameOf <;> rfl
    rw [List.forall_mem_cons, ← ih, hstep]
    unfold Message.fits
    cases (Message.pairUpdate pair).frameOf with
    | error error =>
      constructor
      · intro hthrown
        contradiction
      · intro hfits
        exact absurd hfits.1 Bool.false_ne_true
    | ok bytes => exact (and_iff_right rfl).symm

section
variable {c} {frame : Frame} {now : TimePoint}

/-- A handler other than that of a subscription sends on what it has decoded,
so that it never throws. -/
theorem handleExit_ok {message : Message} (hfits : message.fits)
    (hother : ∀ subscription, message ≠ .subscription subscription) :
    c.handleExit message now = .ok () := by
  cases message with
  | pair pair =>
    have hpair := (pair_fits_iff pair).mp hfits
    have hupdate : (Message.pairUpdate { pair with owner := c.owner }).fits :=
      (pairUpdate_fits_iff _).mpr hpair
    simp only [handleExit, applyAndNotifyExit]
    rw [fanOutUnlessEmpty_fits (addPair_fits hupdate)]
    rfl
  | pairUpdate pair =>
    simp only [handleExit, applyAndNotifyExit]
    rw [fanOutUnlessEmpty_fits (addPair_fits hfits)]
    rfl
  | subscription subscription => exact absurd rfl (hother subscription)
  | removePair request =>
    have hrequest := (removePair_fits_iff request).mp hfits
    simp only [handleExit, handleRemovePairExit]
    split
    · rfl
    split
    · rfl
    · rw [fanOutUnlessEmpty_fits ((pairRemoved_fits_iff request).mpr hrequest)]
      rfl
  | pairRemoved request => rfl

theorem serveExit_decoded {message : Message} (hdecode : frame.decode = .ok message) :
    c.serveExit frame now = c.handleExit message now := by
  unfold serveExit
  rw [hdecode]
  rfl

theorem ThrowsOnlyIfBad.of_ok (h : c.serveExit frame now = .ok ()) :
    c.ThrowsOnlyIfBad frame now := by
  constructor
  · intro error herror
    rw [h] at herror
    contradiction
  · intro error herror
    rw [h] at herror
    contradiction

theorem ThrowsOnlyIfBad.of_bad {error : DecodeError} (h : frame.decode = .error error) :
    c.ThrowsOnlyIfBad frame now := by
  constructor
  · intro _ _
    exact Frame.bad_iff.mpr ⟨error, h⟩
  · intro _ _
    unfold serve
    rw [c.receive_eq, h]
    exact ⟨rfl, rfl⟩

theorem throwsOnlyIfBad_iff (hincoming : frame.Incoming) :
    c.ThrowsOnlyIfBad frame now ↔ ∀ message, frame.decode = .ok (.subscription message) →
      ∀ pair, c.Owes message pair →
        pair.key.length + pair.value.length + 29 ≤ kMaxPayload := by
  cases hdecode : frame.decode with
  | error error =>
    refine iff_of_true (.of_bad hdecode) ?_
    intro message hmessage
    contradiction
  | ok message =>
    by_cases hother : ∀ subscription, message ≠ .subscription subscription
    · have hexit : c.handleExit message now = .ok () :=
        handleExit_ok (Frame.decode_fits hincoming hdecode hother) hother
      refine iff_of_true (.of_ok ((serveExit_decoded hdecode).trans hexit)) ?_
      intro subscription hsubscription
      exact absurd (Except.ok.inj hsubscription) (hother subscription)
    · push Not at hother
      obtain ⟨subscription, rfl⟩ := hother
      have hexit : c.serveExit frame now = sendEachExit (c.toSend subscription now) :=
        serveExit_decoded hdecode
      have hfit : c.serveExit frame now = .ok () ↔ ∀ pair, c.Owes subscription pair →
          pair.key.length + pair.value.length + 29 ≤ kMaxPayload := by
        rw [hexit, sendEachExit_ok_iff]
        simp only [mem_toSend, pairUpdate_fits_iff]
      constructor
      · intro honly message hmessage
        cases hmessage
        rw [← hfit]
        cases hthrown : c.serveExit frame now with
        | ok done => rfl
        | error error =>
          obtain ⟨_, hbad⟩ := Frame.bad_iff.mp (honly.bad error hthrown)
          rw [hdecode] at hbad
          contradiction
      · intro hall
        exact .of_ok (hfit.mpr (hall subscription rfl))

end

/-! ### Runs -/

def Framable (key : PairKey) (shown : Shown) : Prop :=
  key.key.length + shown.1.length + 29 ≤ kMaxPayload

theorem framable_write {pair : Pair}
    (h : pair.key.length + pair.value.length + 29 ≤ kMaxPayload) (shown : Shown)
    (hshown : pair.write.value = some shown) : Framable pair.write.key shown := by
  rw [Pair.write_value, Pair.shown] at hshown
  split at hshown
  · contradiction
  · rw [Pair.write_key, ← Option.some.inj hshown]
    exact h

theorem framable_enter {call : Call F} (now : TimePoint)
    (hcall : ∀ key value type, call = .setPair key value type →
      key.length + value.length + 29 ≤ kMaxPayload)
    (hmessage : ∀ message, call = .handle message →
      (∀ subscription, message ≠ .subscription subscription) → message.fits)
    (h : ∀ key shown, c.space.view key = some shown → Framable key shown) :
    ∀ key shown, (c.enter call now).component.space.view key = some shown →
      Framable key shown := by
  rw [c.enter_view]
  refine Store.replay_forall h ?_
  intro write hwrite shown hshown
  rw [List.mem_append, Option.mem_toList, Option.mem_toList] at hwrite
  rcases hwrite with hwrite | hwrite
  · unfold ownWrite at hwrite
    split at hwrite
    · rename_i key value type
      split at hwrite
      · cases Option.some.inj hwrite
        exact framable_write (hcall key value type rfl) shown hshown
      · contradiction
    · split at hwrite
      · cases Option.some.inj hwrite
        contradiction
      · contradiction
    · split at hwrite
      · cases Option.some.inj hwrite
        contradiction
      · contradiction
    · rename_i pair
      cases Option.some.inj hwrite
      have hfits := hmessage (.pair pair) rfl (by simp)
      exact @framable_write { pair with owner := c.owner } ((pair_fits_iff pair).mp hfits) shown
        hshown
    · split at hwrite
      · cases Option.some.inj hwrite
        contradiction
      · contradiction
    · contradiction
  · unfold Call.received at hwrite
    split at hwrite
    · rename_i message
      unfold Message.write at hwrite
      split at hwrite
      · rename_i pair
        cases Option.some.inj hwrite
        have hfits := hmessage (.pairUpdate pair) rfl (by simp)
        exact framable_write ((pairUpdate_fits_iff pair).mp hfits) shown hshown
      · cases Option.some.inj hwrite
        contradiction
      · contradiction
    · contradiction

end Component

namespace Node
variable {F : Type}

def FromPeers (_ : Node F) : NodeAction F → Prop
  | .enter _ (.handle message) _ => ∃ frame : Frame, frame.Incoming ∧ frame.decode = .ok message
  | _ => True

def FramablePublishes (node : Node F) (action : NodeAction F) : Prop :=
  node.FromPeers action ∧ match action with
  | .enter _ (.setPair key value _) _ => key.length + value.length + 29 ≤ kMaxPayload
  | _ => True

theorem framable_of_reach {owner : OwnerId} {node : Node F}
    (h : Reach Node.step FramablePublishes (.quiet (.initial owner)) node) (key : PairKey)
    (shown : Shown) (hshown : node.component.space.view key = some shown) :
    Component.Framable key shown := by
  refine h.invariant (I := fun node : Node F => ∀ key shown,
    node.component.space.view key = some shown → Component.Framable key shown) ?_ ?_ key shown hshown
  · intro key shown hshown
    have hnone : (Component.initial owner : Component F).space.view key = none := by
      simp [Component.initial, PairSpace.view, PairSpace.find, PairSpace.empty]
    exact absurd (hnone.symm.trans hshown) (by simp)
  · intro before action after ih hguard hstep
    rcases step_cases hstep with ⟨thread, call, now, rfl, _, _, rfl⟩ |
      ⟨thread, first, rest, rfl, _, rfl⟩ | ⟨thread, rfl, rfl⟩
    · refine before.component.framable_enter now ?_ ?_ ih
      · rintro key value type rfl
        exact hguard.2
      · rintro message rfl hother
        obtain ⟨frame, hincoming, hdecode⟩ := hguard.1
        exact Frame.decode_fits hincoming hdecode hother
    · intro key shown hshown
      apply ih
      rw [← perform_component before first]
      exact hshown
    · exact ih

end Node

/-- A connection is ended without a bad frame exactly by a subscription that is
owed a pair too large to frame; none is, as long as every pair published can be
framed. -/
theorem only_bad_frames_throw {F : Type} :
    (∀ (c : Component F) (frame : Frame) (now : TimePoint), frame.Incoming →
      (c.ThrowsOnlyIfBad frame now ↔ ∀ message, frame.decode = .ok (.subscription message) →
        ∀ pair, c.Owes message pair →
          pair.key.length + pair.value.length + 29 ≤ kMaxPayload)) ∧
    ∀ (owner : OwnerId) (node : Node F),
      Reach Node.step Node.FramablePublishes (.quiet (.initial owner)) node →
      ∀ frame now, frame.Incoming → node.component.ThrowsOnlyIfBad frame now := by
  refine ⟨fun c frame now hincoming => Component.throwsOnlyIfBad_iff hincoming, ?_⟩
  intro owner node hreach frame now hincoming
  rw [Component.throwsOnlyIfBad_iff hincoming]
  intro message _ pair howes
  apply Node.framable_of_reach hreach pair.pairKey (pair.value, pair.type)
  rw [PairSpace.view_eq_held, show node.component.space.held pair.pairKey = some pair from howes.held]
  rfl

theorem Message.exists_incoming {message : Message} (h : message.fits) :
    ∃ frame : Frame, frame.Incoming ∧ frame.decode = .ok message := by
  obtain ⟨bytes, hframe⟩ := message.ok_of_fits h
  obtain ⟨frame, hread, hdecode⟩ := Message.decode_sent hframe
  exact ⟨frame, ⟨_, [], hread []⟩, hdecode⟩

/-- Component 1000 publishes a small pair; 2000 subscribes to it. -/
theorem only_bad_frames_throw_joining : ∃ (node : Node Unit) (frame : Frame),
    node.component.getPair ⟨1000, [107]⟩ = some ⟨1000, [107], [1], .string, 5, 0⟩ ∧
      frame.decode = .ok (.subscription Node.joining) ∧ node.component.ThrowsOnlyIfBad frame 6 ∧
      ∀ pair, node.component.Owes Node.joining pair →
        pair.key.length + pair.value.length + 29 ≤ kMaxPayload := by
  obtain ⟨frame, hincoming, hdecode⟩ :=
    Message.exists_incoming ((subscription_fits_iff Node.joining).mpr (by decide))
  have hreach : Reach Node.step Node.FramablePublishes (.quiet (.initial 1000 : Component Unit))
      ((Node.quiet (.initial 1000)).enter 0 (.setPair [107] [1] .string) 5) :=
    .tail (a := .enter 0 (.setPair [107] [1] .string) 5) .refl ⟨trivial, by decide⟩ rfl
  have hthrows := only_bad_frames_throw.2 1000 _ hreach frame 6 hincoming
  exact ⟨_, frame, by decide, hdecode, hthrows,
    (only_bad_frames_throw.1 _ frame 6 hincoming).mp hthrows Node.joining hdecode⟩

theorem Component.owes_published {F : Type} (c : Component F) (hready : c.ready)
    (key value : Bytes) (type : PairType) (htype : type ≠ .invalid) (now : TimePoint)
    (subscriber : OwnerId) (hforeign : subscriber ≠ c.owner) :
    ∃ pair, pair.value = value ∧
      (c.setPair key value type now).component.Owes ⟨key, c.owner, subscriber, true⟩ pair := by
  let published : Pair := { owner := c.owner, key, value, type }
  let pair := (c.space.addPair published now).2.pair
  have howner : (c.setPair key value type now).component.owner = c.owner :=
    c.enter_owner (.setPair key value type) now
  have hkey : pair.pairKey = ⟨c.owner, key⟩ := c.space.addPair_pairKey published now
  have hown : pair.owner = c.owner := congrArg PairKey.owner hkey
  have hname : pair.key = key := congrArg PairKey.key hkey
  refine ⟨pair, c.space.addPair_value published now, ⟨rfl, Or.inr howner.symm, ?_, ?_,
    Or.inr ⟨hown.symm, hname.symm⟩, ?_⟩⟩
  · rw [howner]
    exact hforeign
  · rw [howner]
    exact hown
  · unfold getPair
    have hsame : published.pairKey = ⟨c.owner, key⟩ := rfl
    rw [c.setPair_space, if_pos hready, hkey, PairSpace.copyOf_addPair, if_pos hsame,
      Option.filter_eq_some_iff, decide_eq_true_iff]
    refine ⟨rfl, ?_⟩
    rw [c.space.addPair_type published now]
    exact htype

/-- Nobody is subscribed when component 1000 publishes a value as long as a
frame; 2000 then loses its connection for subscribing to it. -/
theorem subscriber_of_large_pair_dropped :
    ¬ ∀ (node : Node Unit), Reach Node.step Node.FromPeers (.quiet (.initial 1000)) node →
      ∀ frame now, frame.Incoming → node.component.ThrowsOnlyIfBad frame now := by
  intro hclaim
  let large : Bytes := List.replicate kMaxPayload 97
  have hreach : Reach Node.step Node.FromPeers (.quiet (.initial 1000 : Component Unit))
      ((Node.quiet (.initial 1000)).enter 0 (.setPair [107] large .string) 1) :=
    .tail (a := .enter 0 (.setPair [107] large .string) 1) .refl trivial rfl
  obtain ⟨frame, hincoming, hdecode⟩ :=
    Message.exists_incoming ((subscription_fits_iff Node.joining).mpr (by decide))
  have hthrows := hclaim _ hreach frame 2 hincoming
  rw [Component.throwsOnlyIfBad_iff hincoming] at hthrows
  obtain ⟨pair, hvalue, howes⟩ := (Component.initial 1000 : Component Unit).owes_published rfl
    [107] large .string (by decide) 1 2000 (by decide)
  have hsmall := hthrows Node.joining hdecode pair howes
  rw [hvalue, List.length_replicate] at hsmall
  omega

end Srnp
