import Srnp.ClientSession
import Srnp.Codec

/-! What the result of a remote call is worth. `setRemotePair` and
`removeRemotePair` return true once they have found a session and framed the
message. Whether the session keeps the frame is decided below: the session
drops it when it is closing, the channel when it is closed, and a channel that
is full of frames that must stay is closed instead of taking another one. -/
namespace Srnp
open Std Transition

namespace FrameChannel
variable {κ β : Type} [Ord κ] [TransOrd κ]

def close (channel : FrameChannel κ β) : FrameChannel κ β :=
  if channel.closed then channel
  else { channel with closed := true, outbox := channel.outbox.clear }

variable [LawfulEqOrd κ]

/-- A call of `send` that nothing comes in between of. The drain that it may
spawn is left to run later. -/
def send (channel : FrameChannel κ β) (frame : β) (key : Option κ) : FrameChannel κ β :=
  if channel.closed then channel
  else
    match channel.sendLocked frame key with
    | (channel, .overfull) => channel.close
    | (channel, _) => channel

end FrameChannel

/-- A client session together with its channel. The channel is still there when
`close` has taken it out of the session. -/
structure Link (κ β : Type) [Ord κ] [TransOrd κ] where
  session : ClientSession (Sent κ β)
  channel : FrameChannel κ (Sent κ β)
  /-- Taken from `pending_` by `connect`, not yet passed on. -/
  waiting : List (Sent κ β)

namespace Link
variable {κ β : Type} [Ord κ] [TransOrd κ]

def initial : Link κ β := ⟨.initial, .initial, []⟩

/-- The frame is in `pending_`, in the outbox, or on its way between the two. -/
def Has (link : Link κ β) (frame : Sent κ β) : Prop :=
  frame ∈ link.session.pending ∨ frame ∈ link.waiting ∨
    ∃ queued ∈ link.channel.outbox.frames, queued.bytes = frame

/-- A frame with the stamp is in `pending_`, or in the outbox of a channel that
is open. -/
def Accepted (link : Link κ β) (stamp : Nat) : Prop :=
  (∃ frame ∈ link.session.pending, frame.stamp = stamp) ∨
    (link.channel.closed = false ∧
      ∃ queued ∈ link.channel.outbox.frames, queued.bytes.stamp = stamp)

/-- The session has a place for a frame that may not be dropped. -/
def Takes (link : Link κ β) : Prop :=
  link.session.closing = false ∧ (link.session.connected = true →
    link.channel.closed = false ∧ (link.channel.outbox.frames.length < kMaxOutboxFrames ∨
      ∃ queued ∈ link.channel.outbox.frames, queued.coalesceKey ≠ none))

variable [LawfulEqOrd κ]

def send (link : Link κ β) (frame : Sent κ β) : Link κ β :=
  if link.session.closing then link
  else
    let (session, passed) := link.session.sendLocked frame
    { link with
      session
      channel := passed.foldl (fun channel sent => channel.send sent sent.coalesceKey)
        link.channel }

def adopt (link : Link κ β) : Link κ β :=
  match link.session.adopt with
  | none => link
  | some (session, waiting) => { session, channel := .initial, waiting }

def flush (link : Link κ β) : Link κ β :=
  match link.waiting with
  | [] => link
  | frame :: rest =>
      { link with waiting := rest, channel := link.channel.send frame frame.coalesceKey }

end Link

/-- The sessions of a client. A call that has looked a session up holds on to it
when it leaves the map. -/
structure Links where
  sessions : ExtTreeMap OwnerId Nat
  links : Nat → Link PairKey Bytes
  created : Nat
  /-- How many frames have been sent. -/
  sent : Nat

inductive LinksAction where
  | addSession (owner : OwnerId)
  /-- Out of the map, to be closed after that. -/
  | forget (owner : OwnerId)
  | forgetAll
  /-- `closing_` is set. -/
  | beginClose (session : Nat)
  | release (session : Nat)
  | closeChannel (session : Nat)
  | adopt (session : Nat)
  | flush (session : Nat)
  | send (session : Nat) (message : Message) (key : Option PairKey)
  | drain (session : Nat)
  | writeFail (session : Nat)

namespace Links

def initial : Links := ⟨∅, fun _ => .initial, 0, 0⟩

def sessionFor (client : Links) (owner : OwnerId) : Option Nat := client.sessions[owner]?

def setLink (client : Links) (session : Nat) (link : Link PairKey Bytes) : Links :=
  { client with links := Function.update client.links session link }

def send (client : Links) (session : Nat) (bytes : Bytes) (key : Option PairKey) : Links :=
  { client.setLink session ((client.links session).send ⟨client.sent, bytes, key⟩) with
    sent := client.sent + 1 }

def remoteCall (client : Links) (found : Option Nat) (message : Message) :
    Except Wire.DecodeError (Links × Bool) :=
  match found with
  | none => pure (client, false)
  | some session => do
      let bytes ← message.frameOf
      pure (client.send session bytes none, true)

def setRemotePair (client : Links) (found : Option Nat) (owner : OwnerId) (key value : Bytes)
    (type : PairType) : Except Wire.DecodeError (Links × Bool) :=
  client.remoteCall found (.pair { owner, key, value, type })

/-- For an owner other than ourselves. -/
def removeRemotePair (client : Links) (found : Option Nat) (owner : OwnerId) (key : Bytes) :
    Except Wire.DecodeError (Links × Bool) :=
  client.remoteCall found (.removePair ⟨owner, key⟩)

def step (client : Links) : LinksAction → Option Links
  | .addSession owner =>
      some { client.setLink client.created .initial with
        sessions := client.sessions.insert owner client.created, created := client.created + 1 }
  | .forget owner => some { client with sessions := client.sessions.erase owner }
  | .forgetAll => some { client with sessions := ∅ }
  | .beginClose session =>
      if client.sessions.toList.all fun entry => entry.2 ≠ session then
        some (client.setLink session { client.links session with
          session := { (client.links session).session with closing := true } })
      else none
  | .release session =>
      if (client.links session).session.closing then
        some (client.setLink session { client.links session with
          session := (client.links session).session.release })
      else none
  | .closeChannel session =>
      if (client.links session).session.closing ∧
          (client.links session).session.connected = false then
        some (client.setLink session { client.links session with
          channel := (client.links session).channel.close })
      else none
  | .adopt session =>
      if session < client.created ∧ (client.links session).session.connected = false then
        some (client.setLink session (client.links session).adopt)
      else none
  | .flush session => some (client.setLink session (client.links session).flush)
  | .send session message key =>
      match message.frameOf with
      | .ok bytes =>
          if session < client.created then some (client.send session bytes key) else none
      | .error _ => none
  | .drain session =>
      if (client.links session).channel.writing then
        some (client.setLink session { client.links session with
          channel := (client.links session).channel.drainLocked.1 })
      else none
  | .writeFail session =>
      if (client.links session).channel.writing then
        some (client.setLink session { client.links session with
          channel := { (client.links session).channel with
            outbox := (client.links session).channel.outbox.clear, writing := false } })
      else none

/-- What the call returns is true only if the frame was accepted. -/
def Honest (client : Links) (found : Option Nat)
    (call : Except Wire.DecodeError (Links × Bool)) : Prop :=
  ∀ after, call = .ok (after, true) →
    ∃ session, found = some session ∧ (after.links session).Accepted client.sent

end Links

/-! ### What a channel makes of a frame -/

namespace FrameChannel
variable {κ β : Type} [Ord κ] [TransOrd κ] (channel : FrameChannel κ β)

theorem mem_close {queued : Outbound κ β} (h : queued ∈ channel.close.outbox.frames) :
    queued ∈ channel.outbox.frames := by
  unfold close at h
  split at h
  · exact h
  · contradiction

theorem closed_close : channel.close.closed = true := by
  unfold close
  split
  · rename_i hclosed
    exact hclosed
  · rfl

variable [LawfulEqOrd κ]

theorem mem_send {frame : β} {key : Option κ} {queued : Outbound κ β}
    (h : queued ∈ (channel.send frame key).outbox.frames) :
    queued.bytes = frame ∨ ∃ old ∈ channel.outbox.frames, old.bytes = queued.bytes := by
  have hlocked := @mem_sendLocked κ β _ _ _ channel frame key queued
  unfold send at h
  split at h
  · exact Or.inr ⟨queued, h, rfl⟩
  · split at h
    · rename_i after heq
      rw [heq] at hlocked
      exact hlocked (mem_close after h)
    · rename_i after verdict _ heq
      rw [heq] at hlocked
      exact hlocked h

theorem send_keyless (frame : β) :
    ((channel.send frame none).closed = false ∧
        ∃ queued ∈ (channel.send frame none).outbox.frames, queued.bytes = frame) ↔
      channel.closed = false ∧ (channel.outbox.frames.length < kMaxOutboxFrames ∨
        ∃ queued ∈ channel.outbox.frames, queued.coalesceKey ≠ none) := by
  cases hclosed : channel.closed with
  | true =>
    have hsame : channel.send frame none = channel := by
      rw [send, if_pos hclosed]
    rw [hsame, hclosed]
    simp
  | false =>
    have hsends := channel.sendLocked_sends frame none
    unfold send
    rw [hclosed, if_neg Bool.false_ne_true]
    generalize channel.sendLocked frame none = result at hsends
    obtain ⟨after, verdict⟩ := result
    cases hsends with
    | replaced full hevicts hkey => contradiction
    | @queued node outbox room hevicts hafter =>
      refine iff_of_true ?_ ⟨rfl, Or.inl room⟩
      have hmem : ⟨node, frame, none⟩ ∈ outbox.frames := by
        rw [hafter]
        exact List.mem_append_right _ List.mem_cons_self
      cases channel.writing <;> exact ⟨hclosed, _, hmem, rfl⟩
    | @evicted front back victim node outbox full hevicts hbefore hfront hkeyed hafter =>
      refine iff_of_true ?_ ⟨rfl, Or.inr ⟨victim, ?_, ?_⟩⟩
      · have hmem : ⟨node, frame, none⟩ ∈ outbox.frames := by
          rw [hafter]
          exact List.mem_append_right _ List.mem_cons_self
        cases channel.writing <;> exact ⟨hclosed, _, hmem, rfl⟩
      · rw [hbefore]
        exact List.mem_append_right _ List.mem_cons_self
      · exact Option.isSome_iff_ne_none.mp hkeyed
    | overfull full hevicts hkeyless =>
      constructor
      · rintro ⟨hopen, _⟩
        exact absurd ((closed_close _).symm.trans hopen) Bool.noConfusion
      · rintro ⟨_, hroom | ⟨queued, hqueued, hkeyed⟩⟩
        · omega
        · exact absurd (hkeyless queued hqueued) hkeyed

end FrameChannel

namespace Link
variable {κ β : Type} [Ord κ] [TransOrd κ] {link : Link κ β}

theorem has_adopt {other : Sent κ β} (h : link.adopt.Has other) : link.Has other := by
  unfold adopt ClientSession.adopt at h
  split at h
  · exact h
  · rename_i session waiting hadopt
    split at hadopt
    · contradiction
    · cases hadopt
      rcases h with hpending | hwaiting | ⟨queued, hqueued, _⟩
      · contradiction
      · exact Or.inl hwaiting
      · contradiction

variable [LawfulEqOrd κ]

theorem has_send {frame other : Sent κ β} (h : (link.send frame).Has other) :
    other = frame ∨ link.Has other := by
  unfold send at h
  split at h
  · exact Or.inr h
  rcases h with hpending | hwaiting | ⟨queued, hqueued, rfl⟩
  · rcases ClientSession.mem_sendLocked hpending with hold | hnew
    · exact Or.inr (Or.inl hold)
    · exact Or.inl hnew
  · exact Or.inr (Or.inr (Or.inl hwaiting))
  · cases hconnected : link.session.connected with
    | false =>
      simp only [ClientSession.sendLocked, hconnected, Bool.false_eq_true, if_false] at hqueued
      exact Or.inr (Or.inr (Or.inr ⟨queued, hqueued, rfl⟩))
    | true =>
      simp only [ClientSession.sendLocked, hconnected, if_true] at hqueued
      rcases link.channel.mem_send hqueued with hnew | hold
      · exact Or.inl hnew
      · exact Or.inr (Or.inr (Or.inr hold))

theorem has_flush {other : Sent κ β} (h : link.flush.Has other) : link.Has other := by
  unfold flush at h
  split at h
  · exact h
  · rename_i frame rest hwaiting
    rcases h with hpending | hrest | ⟨queued, hqueued, rfl⟩
    · exact Or.inl hpending
    · refine Or.inr (Or.inl ?_)
      rw [hwaiting]
      exact List.mem_cons_of_mem frame hrest
    · rcases link.channel.mem_send hqueued with hnew | hold
      · refine Or.inr (Or.inl ?_)
        rw [hwaiting, hnew]
        exact List.mem_cons_self
      · exact Or.inr (Or.inr hold)

/-- A new frame that may not be dropped is accepted exactly if the session has
a place for it. -/
theorem send_accepted {frame : Sent κ β} (hkey : frame.coalesceKey = none)
    (hfresh : ∀ old, link.Has old → old.stamp ≠ frame.stamp) :
    (link.send frame).Accepted frame.stamp ↔ link.Takes := by
  have hpending : ¬ ∃ old ∈ link.session.pending, old.stamp = frame.stamp := by
    rintro ⟨old, hold, hstamp⟩
    exact hfresh old (Or.inl hold) hstamp
  by_cases hclosing : link.session.closing = true
  · have hsame : link.send frame = link := by
      rw [send, if_pos hclosing]
    rw [hsame]
    constructor
    · rintro (hqueued | ⟨_, queued, hqueued, hstamp⟩)
      · exact absurd hqueued hpending
      · exact absurd hstamp (hfresh queued.bytes (Or.inr (Or.inr ⟨queued, hqueued, rfl⟩)))
    · intro htakes
      rw [htakes.1] at hclosing
      contradiction
  · have hopen : link.session.closing = false := Bool.eq_false_iff.mpr hclosing
    unfold send Takes
    rw [if_neg hclosing, hopen]
    cases hconnected : link.session.connected with
    | false =>
      simp only [ClientSession.sendLocked, hconnected, Bool.false_eq_true, if_false]
      refine iff_of_true (Or.inl ⟨frame, ?_, rfl⟩) ⟨trivial, fun h => by contradiction⟩
      exact List.mem_append_right _ List.mem_cons_self
    | true =>
      simp only [ClientSession.sendLocked, hconnected, if_true, List.foldl_cons, List.foldl_nil,
        hkey, true_and, forall_const]
      rw [← link.channel.send_keyless frame]
      constructor
      · rintro (hqueued | ⟨hchannel, queued, hqueued, hstamp⟩)
        · exact absurd hqueued hpending
        · refine ⟨hchannel, queued, hqueued, ?_⟩
          rcases link.channel.mem_send hqueued with hnew | ⟨old, hold, hsame⟩
          · exact hnew
          · rw [← hsame] at hstamp
            exact absurd hstamp (hfresh old.bytes (Or.inr (Or.inr ⟨old, hold, rfl⟩)))
      · rintro ⟨hchannel, queued, hqueued, hbytes⟩
        exact Or.inr ⟨hchannel, queued, hqueued, congrArg Sent.stamp hbytes⟩

end Link

/-! ### Runs -/

namespace Links
variable {client after : Links}

theorem links_send (session : Nat) (bytes : Bytes) (key : Option PairKey) :
    (client.send session bytes key).links session =
      (client.links session).send ⟨client.sent, bytes, key⟩ :=
  Function.update_self session _ client.links

def Stamped (client : Links) : Prop :=
  ∀ session frame, (client.links session).Has frame → frame.stamp < client.sent

theorem Stamped.setLink (h : client.Stamped) {session : Nat} {link : Link PairKey Bytes}
    (hlink : ∀ frame, link.Has frame → frame.stamp < client.sent) :
    (client.setLink session link).Stamped := by
  intro other frame hhas
  change (Function.update client.links session link other).Has frame at hhas
  by_cases heq : other = session
  · rw [heq, Function.update_self] at hhas
    exact hlink frame hhas
  · rw [Function.update_of_ne heq] at hhas
    exact h other frame hhas

theorem not_has_initial (frame : Sent PairKey Bytes) : ¬ Link.initial.Has frame := by
  rintro (hpending | hwaiting | ⟨queued, hqueued, _⟩)
  · contradiction
  · contradiction
  · contradiction

theorem Stamped.send (h : client.Stamped) (session : Nat) (bytes : Bytes) (key : Option PairKey) :
    (client.send session bytes key).Stamped := by
  intro other frame hhas
  change (Function.update client.links session _ other).Has frame at hhas
  change frame.stamp < client.sent + 1
  by_cases heq : other = session
  · rw [heq, Function.update_self] at hhas
    rcases Link.has_send hhas with hnew | hold
    · rw [hnew]
      exact Nat.lt_succ_self _
    · exact Nat.lt_succ_of_lt (h session frame hold)
  · rw [Function.update_of_ne heq] at hhas
    exact Nat.lt_succ_of_lt (h other frame hhas)

theorem Stamped.step {action : LinksAction} (h : client.Stamped)
    (hstep : client.step action = some after) : after.Stamped := by
  cases action with
  | addSession owner =>
    cases Option.some.inj hstep
    exact h.setLink fun frame hhas => absurd hhas (not_has_initial frame)
  | forget owner =>
    cases Option.some.inj hstep
    exact h
  | forgetAll =>
    cases Option.some.inj hstep
    exact h
  | beginClose session =>
    simp only [Links.step] at hstep
    split at hstep
    · cases Option.some.inj hstep
      exact h.setLink fun frame hhas => h session frame hhas
    · contradiction
  | release session =>
    simp only [Links.step] at hstep
    split at hstep
    · cases Option.some.inj hstep
      refine h.setLink fun frame hhas => h session frame ?_
      rcases hhas with hpending | hlater
      · contradiction
      · exact Or.inr hlater
    · contradiction
  | closeChannel session =>
    simp only [Links.step] at hstep
    split at hstep
    · cases Option.some.inj hstep
      refine h.setLink fun frame hhas => h session frame ?_
      rcases hhas with hpending | hwaiting | ⟨queued, hqueued, hsame⟩
      · exact Or.inl hpending
      · exact Or.inr (Or.inl hwaiting)
      · exact Or.inr (Or.inr ⟨queued, FrameChannel.mem_close _ hqueued, hsame⟩)
    · contradiction
  | adopt session =>
    simp only [Links.step] at hstep
    split at hstep
    · cases Option.some.inj hstep
      exact h.setLink fun frame hhas => h session frame (Link.has_adopt hhas)
    · contradiction
  | flush session =>
    cases Option.some.inj hstep
    exact h.setLink fun frame hhas => h session frame (Link.has_flush hhas)
  | send session message key =>
    simp only [Links.step] at hstep
    split at hstep
    · rename_i bytes _
      split at hstep
      · cases Option.some.inj hstep
        exact h.send session bytes key
      · contradiction
    · contradiction
  | drain session =>
    simp only [Links.step] at hstep
    split at hstep
    · cases Option.some.inj hstep
      refine h.setLink fun frame hhas => h session frame ?_
      have hdrains := (client.links session).channel.drainLocked_drains
      generalize (client.links session).channel.drainLocked = result at hhas hdrains
      obtain ⟨channel, next⟩ := result
      rcases hhas with hpending | hwaiting | ⟨queued, hqueued, rfl⟩
      · exact Or.inl hpending
      · exact Or.inr (Or.inl hwaiting)
      · refine Or.inr (Or.inr ⟨queued, ?_, rfl⟩)
        cases hdrains with
        | stopped hstop => exact hqueued
        | taken hopen hbefore hafter =>
          dsimp only at hqueued
          rw [hafter] at hqueued
          rw [hbefore]
          exact List.mem_cons_of_mem _ hqueued
    · contradiction
  | writeFail session =>
    simp only [Links.step] at hstep
    split at hstep
    · cases Option.some.inj hstep
      refine h.setLink fun frame hhas => h session frame ?_
      rcases hhas with hpending | hwaiting | ⟨queued, hqueued, _⟩
      · exact Or.inl hpending
      · exact Or.inr (Or.inl hwaiting)
      · contradiction
    · contradiction

theorem Stamped.of_reach {start : Links} (h : start.Stamped)
    (hreach : Reach Links.step unguarded start client) : client.Stamped :=
  hreach.invariant (I := Stamped) h fun _ _ _ hbefore _ hstep => hbefore.step hstep

theorem Stamped.initial : Stamped Links.initial :=
  fun _ frame hhas => absurd hhas (not_has_initial frame)

theorem remoteCall_honest_iff (h : client.Stamped) (found : Option Nat) {message : Message}
    (hfits : message.fits) :
    client.Honest found (client.remoteCall found message) ↔
      ∀ session, found = some session → (client.links session).Takes := by
  cases found with
  | none =>
    constructor
    · intro _ session hsession
      contradiction
    · intro _ after hcall
      exact absurd (congrArg Prod.snd (Except.ok.inj hcall)) Bool.false_ne_true
  | some session =>
    obtain ⟨bytes, hframe⟩ := message.ok_of_fits hfits
    have hcall : client.remoteCall (some session) message =
        .ok (client.send session bytes none, true) := by
      simp only [remoteCall, hframe]
      rfl
    have hlink := @links_send client session bytes none
    have haccepted : ((client.links session).send ⟨client.sent, bytes, none⟩).Accepted
        client.sent ↔ (client.links session).Takes :=
      Link.send_accepted rfl fun old hold => (h session old hold).ne
    rw [hcall]
    constructor
    · intro honest other hother
      obtain ⟨_, hsame, hplaced⟩ := honest _ rfl
      cases hsame
      cases hother
      rw [hlink] at hplaced
      exact haccepted.mp hplaced
    · intro htakes after hafter
      cases Except.ok.inj hafter
      refine ⟨session, rfl, ?_⟩
      rw [hlink]
      exact haccepted.mpr (htakes session rfl)

/-- The session was looked up at some point before. The result of the call is
true for a frame that is nowhere exactly if the session it found has no place
for the frame. -/
theorem remote_calls_honest_iff {earlier client : Links}
    (hearlier : Reach step unguarded initial earlier)
    (hlater : Reach step unguarded earlier client) (owner : OwnerId) (key : Bytes) :
    (∀ value type, (Message.pair { owner, key, value, type }).fits →
      (client.Honest (earlier.sessionFor owner)
          (client.setRemotePair (earlier.sessionFor owner) owner key value type) ↔
        ∀ session, earlier.sessionFor owner = some session → (client.links session).Takes)) ∧
    ((Message.removePair ⟨owner, key⟩).fits →
      (client.Honest (earlier.sessionFor owner)
          (client.removeRemotePair (earlier.sessionFor owner) owner key) ↔
        ∀ session, earlier.sessionFor owner = some session → (client.links session).Takes)) := by
  have hstamped : client.Stamped := (Stamped.initial.of_reach hearlier).of_reach hlater
  constructor
  · intro value type hfits
    exact remoteCall_honest_iff hstamped _ hfits
  · intro hfits
    exact remoteCall_honest_iff hstamped _ hfits

def connecting2000 : List LinksAction := [.addSession 2000, .adopt 0]

theorem remote_calls_honest_connected : ∃ client : Links,
    Reach step unguarded initial client ∧ client.sessionFor 2000 = some 0 ∧
      client.Honest (client.sessionFor 2000)
        (client.setRemotePair (client.sessionFor 2000) 2000 [107] [1] .string) ∧
      client.Honest (client.sessionFor 2000)
        (client.removeRemotePair (client.sessionFor 2000) 2000 [107]) := by
  have hrun : ∃ client : Links, Reach step unguarded initial client ∧
      client.sessionFor 2000 = some 0 ∧ (client.links 0).Takes := by
    refine ⟨_, Reach.of_run connecting2000 (fun _ _ _ => trivial) rfl, rfl, rfl, ?_⟩
    intro _
    exact ⟨rfl, Or.inl (by decide)⟩
  obtain ⟨client, hreach, hfound, htakes⟩ := hrun
  have hplace : ∀ session, client.sessionFor 2000 = some session →
      (client.links session).Takes := by
    intro session hsession
    rw [hfound] at hsession
    cases hsession
    exact htakes
  have hhonest := remote_calls_honest_iff hreach .refl 2000 [107]
  exact ⟨client, hreach, hfound,
    (hhonest.1 [1] .string ((pair_fits_iff _).mpr (by decide))).mpr hplace,
    (hhonest.2 ((removePair_fits_iff _).mpr (by decide))).mpr hplace⟩

structure Clogged (count : Nat) (client : Links) : Prop where
  found : client.sessionFor 2000 = some 0
  created : 0 < client.created
  closing : (client.links 0).session.closing = false
  connected : (client.links 0).session.connected = true
  isOpen : (client.links 0).channel.closed = false
  queued : (client.links 0).channel.outbox.frames.length = count
  keyless : ∀ queued ∈ (client.links 0).channel.outbox.frames, queued.coalesceKey = none

def clogging : Message := .removePair ⟨2000, [107]⟩

theorem clogged {count : Nat} (h : count ≤ kMaxOutboxFrames) :
    ∃ client, Reach step unguarded initial client ∧ Clogged count client := by
  have hfits : clogging.fits := (removePair_fits_iff _).mpr (by decide)
  obtain ⟨bytes, hframe⟩ := clogging.ok_of_fits hfits
  induction count with
  | zero =>
    refine ⟨_, Reach.of_run connecting2000 (fun _ _ _ => trivial) rfl, rfl, Nat.zero_lt_one, rfl,
      rfl, rfl, rfl, ?_⟩
    intro queued hqueued
    contradiction
  | succ count ih =>
    obtain ⟨client, hreach, hclogged⟩ := ih (Nat.le_of_succ_le h)
    have hstep : client.step (.send 0 clogging none) = some (client.send 0 bytes none) := by
      simp only [step, hframe]
      rw [if_pos hclogged.created]
    have hlink := @links_send client 0 bytes none
    have hsession : ((client.links 0).send ⟨client.sent, bytes, none⟩) = { client.links 0 with
        channel := (client.links 0).channel.send ⟨client.sent, bytes, none⟩ none } := by
      simp only [Link.send, ClientSession.sendLocked, hclogged.closing, hclogged.connected,
        Bool.false_eq_true, if_false, if_true, List.foldl_cons, List.foldl_nil]
    have hroom : (client.links 0).channel.outbox.frames.length < kMaxOutboxFrames := by
      rw [hclogged.queued]
      exact h
    have hsends := (client.links 0).channel.sendLocked_sends ⟨client.sent, bytes, none⟩ none
    have hchannel : ∃ node,
        ((client.links 0).channel.send ⟨client.sent, bytes, none⟩ none).closed = false ∧
        ((client.links 0).channel.send ⟨client.sent, bytes, none⟩ none).outbox.frames =
          (client.links 0).channel.outbox.frames ++ [⟨node, ⟨client.sent, bytes, none⟩, none⟩] := by
      unfold FrameChannel.send
      rw [hclogged.isOpen, if_neg Bool.false_ne_true]
      generalize (client.links 0).channel.sendLocked ⟨client.sent, bytes, none⟩ none = result
        at hsends ⊢
      obtain ⟨channel, verdict⟩ := result
      cases hsends with
      | replaced full => omega
      | @queued node outbox room hevicts hafter =>
        refine ⟨node, ?_⟩
        cases (client.links 0).channel.writing <;> exact ⟨hclogged.isOpen, hafter⟩
      | evicted full => omega
      | overfull full => omega
    obtain ⟨node, hopen, hframes⟩ := hchannel
    refine ⟨_, .tail hreach trivial hstep, ?_⟩
    constructor
    · exact hclogged.found
    · exact hclogged.created
    · rw [hlink, hsession]
      exact hclogged.closing
    · rw [hlink, hsession]
      exact hclogged.connected
    · rw [hlink, hsession]
      exact hopen
    · rw [hlink, hsession]
      dsimp only
      rw [hframes, List.length_append, hclogged.queued]
      rfl
    · rw [hlink, hsession]
      intro queued hqueued
      dsimp only at hqueued
      rw [hframes] at hqueued
      rcases List.mem_append.mp hqueued with hold | hnew
      · exact hclogged.keyless queued hold
      · rw [List.mem_singleton.mp hnew]

/-- The peer has stopped reading. The call closes the channel and returns true. -/
theorem dropped_frame_reported :
    ¬ ∀ client : Links, Reach step unguarded initial client → ∀ owner key value type,
      (Message.pair { owner, key, value, type }).fits →
      client.Honest (client.sessionFor owner)
        (client.setRemotePair (client.sessionFor owner) owner key value type) := by
  intro hclaim
  obtain ⟨client, hreach, hclogged⟩ := clogged (Nat.le_refl kMaxOutboxFrames)
  have hfits : (Message.pair { owner := 2000, key := [107], value := [1], type := .string }).fits :=
    (pair_fits_iff _).mpr (by decide)
  have hhonest := hclaim client hreach 2000 [107] [1] .string hfits
  have htakes := (remoteCall_honest_iff (Stamped.initial.of_reach hreach) _ hfits).mp hhonest 0
    hclogged.found
  rcases (htakes.2 hclogged.connected).2 with hroom | ⟨queued, hqueued, hkeyed⟩
  · rw [hclogged.queued] at hroom
    exact Nat.lt_irrefl _ hroom
  · exact hkeyed (hclogged.keyless queued hqueued)

end Links

end Srnp
