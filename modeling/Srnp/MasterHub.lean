import Srnp.FromChars
import Srnp.MasterMessages
import Srnp.Lib.Probing
import Srnp.Lib.Transition

/-! The master. It hands out owner ids and tells every component of the others.
A session greets, is registered, and serves until its connection ends or
something throws; then it cleans up after itself, unless its owner id is still
the one that stands for none. The random number a port leads to is a parameter. -/
namespace Srnp
open Std Transition

inductive MasterFrame where
  | welcome (message : MasterMessage)
  | update (message : UpdateComponents)

namespace MasterFrame

def encode : MasterFrame → Except Wire.DecodeError Bytes
  | .welcome message => encodeMasterMessage message
  | .update message => encodeUpdateComponents message

def type : MasterFrame → Wire.MessageType
  | .welcome _ => .masterMessage
  | .update _ => .updateComponents

def frameOf (message : MasterFrame) : Except Wire.DecodeError Bytes := do
  let payload ← message.encode
  Wire.frame message.type payload

def fits (message : MasterFrame) : Bool := message.frameOf.isOk

end MasterFrame

/-- `run` reads the greeting, waits for the end of the connection, has caught
an exception, or is over. -/
inductive HubPhase where
  | greeting
  | serving
  | leaving
  | done
deriving DecidableEq

structure MasterHubSession where
  owner : OwnerId := kAnyOwner
  port : Bytes := []
  phase : HubPhase := .greeting
  /-- Frames passed to the channel, in order. -/
  sent : List MasterFrame := []

/-- Sessions are numbered; the map has the number where the source has a pointer. -/
structure MasterHub where
  sessions : ExtTreeMap OwnerId Nat
  links : Nat → MasterHubSession

/-- The number that a port is read as, 0 if there is none or if it is no `int`. -/
def fromChars (text : Bytes) : Int := (fromCharsInto text 0).value.toInt

namespace MasterHub

def initial : MasterHub := ⟨∅, fun _ => {}⟩

def setLink (hub : MasterHub) (number : Nat) (link : MasterHubSession) : MasterHub :=
  { hub with links := Function.update hub.links number link }

def setPhase (hub : MasterHub) (number : Nat) (phase : HubPhase) : MasterHub :=
  hub.setLink number { hub.links number with phase }

def send (hub : MasterHub) (number : Nat) (message : MasterFrame) : MasterHub :=
  hub.setLink number
    { hub.links number with sent := (hub.links number).sent ++ [message] }

def room (candidate : OwnerId) : Nat := (2147483647 - candidate.toInt).toNat

/-- `draw` seeds the generator and draws from the distribution. There is no id
if the candidate would have to be stepped past the largest `int`. -/
def makeOwnerId (hub : MasterHub) (draw : UInt32 → OwnerId) (port : Bytes) : Option OwnerId :=
  let candidate := draw (UInt32.ofInt (fromChars port))
  Probing.probe (· + 1) hub.sessions.contains (room candidate) candidate

/-- Everyone who registered so far. `address` is what the sockets give as their
remote end just now. -/
def everyone (hub : MasterHub) (address : Nat → Bytes) : List ComponentInfo :=
  hub.sessions.toList.map fun other =>
    ⟨other.1, address other.2, (hub.links other.2).port⟩

def registerComponent (hub : MasterHub) (draw : UInt32 → OwnerId) (address : Nat → Bytes)
    (number : Nat) (presence : IndicatePresence) : Option (MasterMessage × MasterHub) :=
  let chosen := if presence.forceOwnerId ∧ presence.ownerId ∉ hub.sessions then
      some presence.ownerId
    else hub.makeOwnerId draw presence.port
  chosen.map fun owner =>
    (⟨owner, hub.everyone address⟩, { hub with sessions := hub.sessions.insertIfNew owner number })

def removeComponent (hub : MasterHub) (owner : OwnerId) : MasterHub :=
  { hub with sessions := hub.sessions.erase owner }

def targets (hub : MasterHub) (update : UpdateComponents) : List Nat :=
  (hub.sessions.toList.filter fun other => other.1 ≠ update.component.owner).map (·.2)

def sendToAll (hub : MasterHub) (update : UpdateComponents) :
    Except Wire.DecodeError MasterHub := do
  let _ ← (MasterFrame.update update).frameOf
  pure ((hub.targets update).foldl (fun hub number => hub.send number (.update update)) hub)

/-- `MasterHubSession::run` from the greeting to the next read, or to the
exception that takes the place of it. -/
def introduce (hub : MasterHub) (draw : UInt32 → OwnerId) (address : Nat → Bytes) (number : Nat)
    (presence : IndicatePresence) : Option MasterHub := do
  let (welcome, hub) ← hub.registerComponent draw address number presence
  let hub := hub.setLink number
    { hub.links number with owner := welcome.owner, port := presence.port }
  if (MasterFrame.welcome welcome).fits then
    let hub := hub.send number (.welcome welcome)
    match hub.sendToAll ⟨.add, ⟨welcome.owner, address number, presence.port⟩⟩ with
    | .error _ => pure (hub.setPhase number .leaving)
    | .ok hub => pure (hub.setPhase number .serving)
  else pure (hub.setPhase number .leaving)

/-- The end of `run`, after the exception that always ends it. -/
def finish (hub : MasterHub) (number : Nat) : MasterHub :=
  let owner := (hub.links number).owner
  let cleaned := if owner ≠ kAnyOwner then
      let removed := hub.removeComponent owner
      match removed.sendToAll ⟨.remove, ⟨owner, [], []⟩⟩ with
      | .error _ => removed
      | .ok told => told
    else hub
  cleaned.setPhase number .done

end MasterHub

inductive HubAction where
  | introduce (number : Nat) (presence : IndicatePresence) (address : Nat → Bytes)
  | finish (number : Nat)

/-- A session that ends without having introduced itself runs the same end. -/
def MasterHub.step (draw : UInt32 → OwnerId) (hub : MasterHub) : HubAction → Option MasterHub
  | .introduce number presence address =>
      if (hub.links number).phase = .greeting then hub.introduce draw address number presence
      else none
  | .finish number =>
      if (hub.links number).phase = .done then none else some (hub.finish number)

/-! ### Frames that can be built -/

theorem encodeUpdateComponents_size (message : UpdateComponents) :
    (∃ bytes, encodeUpdateComponents message = .ok bytes ∧
      bytes.length = message.component.ip.length + message.component.port.length + 13) ∨
    ((∃ error, encodeUpdateComponents message = .error error) ∧
      Wire.kMaxPayload < message.component.ip.length + message.component.port.length) := by
  by_cases hip : message.component.ip.length ≤ Wire.kMaxPayload
  · by_cases hport : message.component.port.length ≤ Wire.kMaxPayload
    · left
      refine ⟨_, by
        simp only [encodeUpdateComponents, encodeComponentInfo, Wire.Writer.string_of_le hip,
          Wire.Writer.string_of_le hport]
        rfl, ?_⟩
      simp only [List.length_append, Wire.Writer.i32_length, Wire.Writer.u32_length,
        Wire.Writer.u8_length]
      omega
    · right
      refine ⟨⟨_, by
        simp only [encodeUpdateComponents, encodeComponentInfo, Wire.Writer.string_of_le hip,
          Wire.Writer.string_of_gt (Nat.lt_of_not_le hport)]
        rfl⟩, ?_⟩
      omega
  · right
    refine ⟨⟨_, by
      simp only [encodeUpdateComponents, encodeComponentInfo,
        Wire.Writer.string_of_gt (Nat.lt_of_not_le hip)]
      rfl⟩, ?_⟩
    omega

theorem MasterFrame.ok_of_fits {message : MasterFrame} (h : message.fits) :
    ∃ bytes, message.frameOf = .ok bytes := by
  unfold MasterFrame.fits at h
  cases hframe : message.frameOf with
  | error error => simp [hframe, Except.isOk, Except.toBool] at h
  | ok bytes => exact ⟨bytes, rfl⟩

theorem update_fits_iff (message : UpdateComponents) :
    (MasterFrame.update message).fits ↔
      message.component.ip.length + message.component.port.length + 13 ≤ Wire.kMaxPayload :=
  framed_iff_of_size _ (encodeUpdateComponents_size message)

theorem remove_fits (owner : OwnerId) : (MasterFrame.update ⟨.remove, ⟨owner, [], []⟩⟩).fits :=
  (update_fits_iff _).mpr (by change 13 ≤ Wire.kMaxPayload; decide)

/-! ### Owner ids -/

namespace MasterHub
variable {draw : UInt32 → OwnerId} {hub after : MasterHub} {number : Nat}

/-- The standard distribution keeps to its bounds. -/
def InRange (draw : UInt32 → OwnerId) : Prop := ∀ seed, 1000 ≤ draw seed ∧ draw seed ≤ 10000

theorem toInt_succ {candidate : OwnerId} (h : candidate.toInt < 2147483647) :
    (candidate + 1).toInt = candidate.toInt + 1 := by
  rw [Int32.toInt_add]
  have hlow := candidate.le_toInt
  have hone : (1 : OwnerId).toInt = 1 := by decide
  rw [hone]
  exact Int.bmod_eq_of_le (by omega) (by omega)

theorem toInt_steps {candidate : OwnerId} {steps : Nat} (h : steps ≤ room candidate) :
    ((· + 1)^[steps] candidate).toInt = candidate.toInt + steps := by
  unfold room at h
  induction steps with
  | zero => simp
  | succ steps ih =>
    rw [Function.iterate_succ_apply', toInt_succ, ih (by omega)]
    · omega
    · rw [ih (by omega)]
      omega

theorem makeOwnerId_fresh {port : Bytes} {owner : OwnerId}
    (h : hub.makeOwnerId draw port = some owner) : owner ∉ hub.sessions := by
  have hfree := (Probing.probe_some h).1
  rw [← ExtTreeMap.contains_iff_mem, hfree]
  exact Bool.false_ne_true

theorem makeOwnerId_ge (hrange : InRange draw) {port : Bytes} {owner : OwnerId}
    (h : hub.makeOwnerId draw port = some owner) : 1000 ≤ owner := by
  obtain ⟨_, steps, hsteps, rfl⟩ := Probing.probe_some h
  have hlow := Int32.le_iff_toInt_le.mp (hrange (UInt32.ofInt (fromChars port))).1
  rw [Int32.le_iff_toInt_le, toInt_steps hsteps]
  omega

theorem makeOwnerId_exists (hrange : InRange draw)
    (hfew : hub.sessions.size < 2147483648 - 10001) (port : Bytes) :
    ∃ owner, hub.makeOwnerId draw port = some owner := by
  have hhigh := Int32.le_iff_toInt_le.mp (hrange (UInt32.ofInt (fromChars port))).2
  have hbound : (10000 : OwnerId).toInt = 10000 := by decide
  rw [hbound] at hhigh
  have hkeys : ∀ owner, hub.sessions.contains owner = true → owner ∈ hub.sessions.keys :=
    fun _ => ExtTreeMap.mem_keys.mpr
  refine Probing.probe_isSome hkeys ?_ ?_
  · refine List.Nodup.map_on ?_ List.nodup_range
    intro first hfirst second hsecond heq
    rw [List.mem_range, Nat.lt_succ_iff] at hfirst hsecond
    have hints := congrArg Int32.toInt heq
    rw [toInt_steps hfirst, toInt_steps hsecond] at hints
    omega
  · rw [ExtTreeMap.length_keys]
    unfold room
    omega

theorem registerComponent_eq {address : Nat → Bytes} {presence : IndicatePresence}
    {welcome : MasterMessage}
    (h : hub.registerComponent draw address number presence = some (welcome, after)) :
    welcome.owner ∉ hub.sessions ∧
      (if presence.forceOwnerId ∧ presence.ownerId ∉ hub.sessions then
        welcome.owner = presence.ownerId
      else hub.makeOwnerId draw presence.port = some welcome.owner) ∧
      welcome.allComponents = hub.everyone address ∧
      after = { hub with sessions := hub.sessions.insertIfNew welcome.owner number } := by
  unfold registerComponent at h
  obtain ⟨owner, howner, hpair⟩ := Option.map_eq_some_iff.mp h
  obtain ⟨rfl, rfl⟩ := Prod.mk.inj hpair
  split at howner
  · rename_i hforced
    cases Option.some.inj howner
    exact ⟨hforced.2, by rw [if_pos hforced], rfl, rfl⟩
  · rename_i hfree
    exact ⟨makeOwnerId_fresh howner, by rw [if_neg hfree]; exact howner, rfl, rfl⟩

/-! ### Telling everyone -/

@[simp] theorem sessions_setLink (link : MasterHubSession) :
    (hub.setLink number link).sessions = hub.sessions := rfl

@[simp] theorem sessions_setPhase (phase : HubPhase) :
    (hub.setPhase number phase).sessions = hub.sessions := rfl

theorem links_setLink (link : MasterHubSession) (other : Nat) :
    (hub.setLink number link).links other =
      if other = number then link else hub.links other := by
  simp [setLink, Function.update_apply]

theorem foldl_send (hub : MasterHub) (message : MasterFrame) (numbers : List Nat) (other : Nat) :
    (numbers.foldl (fun hub number => hub.send number message) hub).sessions = hub.sessions ∧
    (numbers.foldl (fun hub number => hub.send number message) hub).links other =
      { hub.links other with
        sent := (hub.links other).sent ++ List.replicate (numbers.count other) message } := by
  induction numbers generalizing hub with
  | nil => simp
  | cons first rest ih =>
    obtain ⟨hsessions, hlinks⟩ := ih (hub.send first message)
    rw [List.foldl_cons, hsessions, hlinks]
    refine ⟨rfl, ?_⟩
    by_cases heq : other = first
    · subst heq
      rw [send, links_setLink, if_pos rfl, List.count_cons_self, List.replicate_succ]
      simp
    · rw [send, links_setLink, if_neg heq, List.count_cons_of_ne (Ne.symm heq)]

def Filed (hub : MasterHub) : Prop :=
  ∀ owner number, hub.sessions[owner]? = some number → (hub.links number).owner = owner

/-- Every session on the map is filed under the id it was welcomed with, and
every session between its registration and its end is on the map. -/
structure Exact (hub : MasterHub) : Prop where
  stored : ∀ owner number, hub.sessions[owner]? = some number →
    (hub.links number).owner = owner ∧ (hub.links number).phase ≠ .greeting
  present : ∀ number, (hub.links number).phase = .serving ∨ (hub.links number).phase = .leaving →
    hub.sessions[(hub.links number).owner]? = some number
  greeting : ∀ number, (hub.links number).phase = .greeting →
    (hub.links number).owner = kAnyOwner ∧ (hub.links number).sent = []
  welcomed : ∀ number welcome, .welcome welcome ∈ (hub.links number).sent →
    welcome.owner = (hub.links number).owner

theorem Exact.initial : initial.Exact where
  stored owner number h := by simp [MasterHub.initial] at h
  present number h := by simp [MasterHub.initial] at h
  greeting _ _ := ⟨rfl, rfl⟩
  welcomed number welcome h := by simp [MasterHub.initial] at h

def share (hub : MasterHub) (update : UpdateComponents) (number : Nat) : List MasterFrame :=
  if hub.sessions[(hub.links number).owner]? = some number ∧
    (hub.links number).owner ≠ update.component.owner then [.update update] else []

theorem Exact.filed (h : hub.Exact) : hub.Filed := fun owner number hfind =>
  (h.stored owner number hfind).1

theorem mem_targets (h : hub.Filed) {update : UpdateComponents} :
    number ∈ hub.targets update ↔ hub.sessions[(hub.links number).owner]? = some number ∧
      (hub.links number).owner ≠ update.component.owner := by
  unfold targets
  constructor
  · intro hmem
    obtain ⟨⟨owner, found⟩, hentry, rfl⟩ := List.mem_map.mp hmem
    obtain ⟨hentry, hother⟩ := List.mem_filter.mp hentry
    have hfind := ExtTreeMap.mem_toList_iff_getElem?_eq_some.mp hentry
    rw [h owner found hfind]
    exact ⟨hfind, of_decide_eq_true hother⟩
  · rintro ⟨hfind, hother⟩
    refine List.mem_map.mpr ⟨((hub.links number).owner, number), ?_, rfl⟩
    exact List.mem_filter.mpr
      ⟨ExtTreeMap.mem_toList_iff_getElem?_eq_some.mpr hfind, decide_eq_true hother⟩

theorem targets_nodup (h : hub.Filed) (update : UpdateComponents) :
    (hub.targets update).Nodup := by
  unfold targets
  refine List.pairwise_map.mpr (List.Pairwise.filter _ ?_)
  refine List.Pairwise.imp_of_mem ?_ (ExtTreeMap.distinct_keys_toList (t := hub.sessions))
  rintro ⟨first, number⟩ ⟨second, other⟩ hfirst hsecond hdistinct heq
  have hnumber := h first number (ExtTreeMap.mem_toList_iff_getElem?_eq_some.mp hfirst)
  have hother := h second other (ExtTreeMap.mem_toList_iff_getElem?_eq_some.mp hsecond)
  apply hdistinct
  have hsame : first = second := by
    rw [← hnumber, ← hother, show number = other from heq]
  rw [hsame]
  exact ReflOrd.compare_self

theorem sendToAll_ok (h : hub.Filed) {update : UpdateComponents}
    (hfits : (MasterFrame.update update).fits) :
    ∃ told, hub.sendToAll update = .ok told ∧ told.sessions = hub.sessions ∧
      ∀ number, told.links number =
        { hub.links number with
          sent := (hub.links number).sent ++ hub.share update number } := by
  have hshare : ∀ number, List.replicate ((hub.targets update).count number)
      (MasterFrame.update update) = hub.share update number := by
    intro number
    unfold share
    split
    · rename_i hmem
      rw [List.count_eq_one_of_mem (targets_nodup h update) ((mem_targets h).mpr hmem)]
      rfl
    · rename_i hnot
      rw [List.count_eq_zero_of_not_mem (fun hmem => hnot ((mem_targets h).mp hmem))]
      rfl
  obtain ⟨bytes, hframe⟩ := MasterFrame.ok_of_fits hfits
  unfold sendToAll
  rw [hframe]
  refine ⟨_, rfl, (foldl_send _ _ _ 0).1, ?_⟩
  intro number
  rw [(foldl_send _ _ _ number).2, hshare]

theorem sendToAll_error (hub : MasterHub) {update : UpdateComponents}
    (hlarge : (MasterFrame.update update).fits = false) :
    ∃ error, hub.sendToAll update = .error error := by
  unfold sendToAll
  cases hframe : (MasterFrame.update update).frameOf with
  | error error => exact ⟨error, rfl⟩
  | ok bytes => simp [MasterFrame.fits, hframe, Except.isOk, Except.toBool] at hlarge

/-! ### What the two halves of `run` do -/

def welcomeOf (hub : MasterHub) (address : Nat → Bytes) (owner : OwnerId) : MasterFrame :=
  .welcome ⟨owner, hub.everyone address⟩

def additionOf (address : Nat → Bytes) (number : Nat) (presence : IndicatePresence)
    (owner : OwnerId) : UpdateComponents :=
  ⟨.add, ⟨owner, address number, presence.port⟩⟩

def announces (hub : MasterHub) (address : Nat → Bytes) (number : Nat)
    (presence : IndicatePresence) (owner : OwnerId) : Bool :=
  (hub.welcomeOf address owner).fits &&
    (MasterFrame.update (additionOf address number presence owner)).fits

structure Introduced (hub : MasterHub) (draw : UInt32 → OwnerId) (address : Nat → Bytes)
    (number : Nat) (presence : IndicatePresence) (owner : OwnerId) (after : MasterHub) :
    Prop where
  fresh : owner ∉ hub.sessions
  chosen : if presence.forceOwnerId ∧ presence.ownerId ∉ hub.sessions then
      owner = presence.ownerId
    else hub.makeOwnerId draw presence.port = some owner
  sessions : ∀ id : OwnerId, after.sessions[id]? =
    if owner = id then some number else hub.sessions[id]?
  self : after.links number = { hub.links number with
    owner
    port := presence.port
    phase := if hub.announces address number presence owner then .serving else .leaving
    sent := (hub.links number).sent ++
      if (hub.welcomeOf address owner).fits then [hub.welcomeOf address owner] else [] }
  others : ∀ other, other ≠ number → after.links other = { hub.links other with
    sent := (hub.links other).sent ++
      if hub.announces address number presence owner ∧
        hub.sessions[(hub.links other).owner]? = some other then
        [.update (additionOf address number presence owner)] else [] }

def registered (hub : MasterHub) (number : Nat) (presence : IndicatePresence)
    (owner : OwnerId) : MasterHub :=
  setLink { hub with sessions := hub.sessions.insertIfNew owner number } number
    { hub.links number with owner, port := presence.port }

theorem sessions_registered {presence : IndicatePresence} {owner : OwnerId}
    (hfresh : owner ∉ hub.sessions) (id : OwnerId) :
    (hub.registered number presence owner).sessions[id]? =
      if owner = id then some number else hub.sessions[id]? := by
  simp only [registered, sessions_setLink, ExtTreeMap.getElem?_insertIfNew,
    LawfulEqOrd.compare_eq_iff_eq]
  exact if_congr (and_iff_left hfresh) rfl rfl

theorem filed_registered (h : hub.Exact) (hgreeting : (hub.links number).phase = .greeting)
    {presence : IndicatePresence} {owner : OwnerId} (hfresh : owner ∉ hub.sessions) :
    (hub.registered number presence owner).Filed := by
  intro id other hfind
  rw [sessions_registered hfresh] at hfind
  rw [registered, links_setLink]
  split at hfind
  · rename_i heq
    cases Option.some.inj hfind
    rw [if_pos rfl]
    exact heq
  · obtain ⟨howner, hphase⟩ := h.stored id other hfind
    rw [if_neg]
    · exact howner
    · rintro rfl
      exact hphase hgreeting

theorem links_send (message : MasterFrame) (other : Nat) :
    (hub.send number message).links other = if other = number then
      { hub.links number with sent := (hub.links number).sent ++ [message] }
    else hub.links other := links_setLink _ other

theorem Filed.send (h : hub.Filed) (message : MasterFrame) : (hub.send number message).Filed := by
  intro owner other hfind
  rw [links_send]
  split
  · rename_i heq
    subst heq
    exact h owner other hfind
  · exact h owner other hfind

theorem introduce_cases {address : Nat → Bytes} {presence : IndicatePresence}
    (hstep : hub.introduce draw address number presence = some after) :
    ∃ owner, owner ∉ hub.sessions ∧
      (if presence.forceOwnerId ∧ presence.ownerId ∉ hub.sessions then owner = presence.ownerId
      else hub.makeOwnerId draw presence.port = some owner) ∧
      if (hub.welcomeOf address owner).fits then
        match ((hub.registered number presence owner).send number
          (hub.welcomeOf address owner)).sendToAll (additionOf address number presence owner) with
        | .error _ => after = ((hub.registered number presence owner).send number
            (hub.welcomeOf address owner)).setPhase number .leaving
        | .ok told => after = told.setPhase number .serving
      else after = (hub.registered number presence owner).setPhase number .leaving := by
  unfold introduce at hstep
  obtain ⟨⟨welcome, joined⟩, hregister, hrest⟩ := Option.bind_eq_some_iff.mp hstep
  obtain ⟨hfresh, hchosen, hall, rfl⟩ := registerComponent_eq hregister
  obtain ⟨owner, components⟩ := welcome
  cases hall
  refine ⟨owner, hfresh, hchosen, ?_⟩
  change (if (hub.welcomeOf address owner).fits then _ else _) = some after at hrest
  split
  · rename_i hwelcome
    rw [if_pos hwelcome] at hrest
    change (match ((hub.registered number presence owner).send number
      (hub.welcomeOf address owner)).sendToAll (additionOf address number presence owner) with
      | .error _ => _
      | .ok hub => _) = some after at hrest
    split at hrest
    · exact (Option.some.inj hrest).symm
    · exact (Option.some.inj hrest).symm
  · rename_i hwelcome
    rw [if_neg hwelcome] at hrest
    exact (Option.some.inj hrest).symm

theorem links_registered (presence : IndicatePresence) (owner : OwnerId) (other : Nat) :
    (hub.registered number presence owner).links other = if other = number then
      { hub.links number with owner, port := presence.port }
    else hub.links other := links_setLink _ other

theorem share_addition {presence : IndicatePresence} {owner : OwnerId} {address : Nat → Bytes}
    (hfresh : owner ∉ hub.sessions) (message : MasterFrame) (other : Nat) :
    ((hub.registered number presence owner).send number message).share
      (additionOf address number presence owner) other =
    if other ≠ number ∧ hub.sessions[(hub.links other).owner]? = some other then
      [.update (additionOf address number presence owner)] else [] := by
  refine if_congr ?_ rfl rfl
  change (hub.registered number presence owner).sessions[_]? = _ ∧ _ ≠ owner ↔ _
  rw [sessions_registered hfresh, links_send, links_registered, links_registered]
  by_cases heq : other = number
  · simp [heq]
  · have howner : hub.sessions[(hub.links other).owner]? = some other →
        (hub.links other).owner ≠ owner := by
      rintro hfind rfl
      exact hfresh (ExtTreeMap.getElem?_eq_some_iff.mp hfind).1
    rw [if_neg heq, if_neg heq]
    constructor
    · rintro ⟨hfind, hother⟩
      rw [if_neg (Ne.symm hother)] at hfind
      exact ⟨heq, hfind⟩
    · rintro ⟨_, hfind⟩
      rw [if_neg (Ne.symm (howner hfind))]
      exact ⟨hfind, howner hfind⟩

theorem introduce_spec (h : hub.Exact) (hgreeting : (hub.links number).phase = .greeting)
    {address : Nat → Bytes} {presence : IndicatePresence}
    (hstep : hub.introduce draw address number presence = some after) :
    ∃ owner, hub.Introduced draw address number presence owner after := by
  obtain ⟨owner, hfresh, hchosen, hafter⟩ := introduce_cases hstep
  have hsessions := @sessions_registered hub number presence owner hfresh
  have hlinks := @links_registered hub number presence owner
  have hfiled := @filed_registered hub number h hgreeting presence owner hfresh
  refine ⟨owner, ?_⟩
  by_cases hwelcome : (hub.welcomeOf address owner).fits
  · rw [if_pos hwelcome] at hafter
    by_cases hadd : (MasterFrame.update (additionOf address number presence owner)).fits
    · have hboth : hub.announces address number presence owner = true := by
        rw [announces, hwelcome, hadd]
        rfl
      obtain ⟨told, htold, hsame, hshares⟩ :=
        sendToAll_ok (hfiled.send (hub.welcomeOf address owner)) hadd
      rw [htold] at hafter
      subst hafter
      refine ⟨hfresh, hchosen, ?_, ?_, ?_⟩
      · intro id
        rw [sessions_setPhase, hsame]
        exact hsessions id
      · rw [setPhase, links_setLink, if_pos rfl, hshares, share_addition hfresh, links_send,
          if_pos rfl, hlinks, if_pos rfl, hboth]
        simp [hwelcome]
      · intro other hother
        rw [setPhase, links_setLink, if_neg hother, hshares, share_addition hfresh, links_send,
          if_neg hother, hlinks, if_neg hother, hboth]
        simp [hother]
    · have hnot : hub.announces address number presence owner = false := by
        rw [announces, hwelcome, Bool.eq_false_iff.mpr hadd]
        rfl
      obtain ⟨error, herror⟩ := sendToAll_error
        ((hub.registered number presence owner).send number (hub.welcomeOf address owner))
        (Bool.eq_false_iff.mpr hadd)
      rw [herror] at hafter
      subst hafter
      refine ⟨hfresh, hchosen, hsessions, ?_, ?_⟩
      · rw [setPhase, links_setLink, if_pos rfl, links_send, if_pos rfl, hlinks, if_pos rfl, hnot]
        simp [hwelcome]
      · intro other hother
        rw [setPhase, links_setLink, if_neg hother, links_send, if_neg hother, hlinks,
          if_neg hother, hnot]
        simp
  · have hnot : hub.announces address number presence owner = false := by
      rw [announces, Bool.eq_false_iff.mpr hwelcome]
      rfl
    rw [if_neg hwelcome] at hafter
    subst hafter
    refine ⟨hfresh, hchosen, hsessions, ?_, ?_⟩
    · rw [setPhase, links_setLink, if_pos rfl, hlinks, if_pos rfl, hnot]
      simp [hwelcome]
    · intro other hother
      rw [setPhase, links_setLink, if_neg hother, hlinks, if_neg hother, hnot]
      simp

structure Finished (hub : MasterHub) (number : Nat) (after : MasterHub) : Prop where
  sessions : ∀ id : OwnerId, after.sessions[id]? =
    if (hub.links number).owner ≠ kAnyOwner ∧ (hub.links number).owner = id then none
    else hub.sessions[id]?
  self : after.links number = { hub.links number with phase := .done }
  others : ∀ other, other ≠ number → after.links other = { hub.links other with
    sent := (hub.links other).sent ++
      if (hub.links number).owner ≠ kAnyOwner ∧
        hub.sessions[(hub.links other).owner]? = some other ∧
        (hub.links other).owner ≠ (hub.links number).owner then
        [.update ⟨.remove, ⟨(hub.links number).owner, [], []⟩⟩] else [] }

theorem sessions_removeComponent (owner id : OwnerId) :
    (hub.removeComponent owner).sessions[id]? =
      if owner = id then none else hub.sessions[id]? := by
  simp only [removeComponent, ExtTreeMap.getElem?_erase, LawfulEqOrd.compare_eq_iff_eq]

theorem Filed.removeComponent (h : hub.Filed) (owner : OwnerId) :
    (hub.removeComponent owner).Filed := by
  intro id other hfind
  rw [sessions_removeComponent] at hfind
  split at hfind
  · contradiction
  · exact h id other hfind

/-- The departed is no longer on the map, so everyone who is gets a copy. -/
theorem share_removal (owner : OwnerId) (other : Nat) :
    (hub.removeComponent owner).share ⟨.remove, ⟨owner, [], []⟩⟩ other =
      if hub.sessions[(hub.links other).owner]? = some other ∧ (hub.links other).owner ≠ owner then
        [.update ⟨.remove, ⟨owner, [], []⟩⟩] else [] := by
  refine if_congr ?_ rfl rfl
  change (hub.removeComponent owner).sessions[(hub.links other).owner]? = _ ∧
    (hub.links other).owner ≠ owner ↔ _
  rw [sessions_removeComponent]
  constructor
  · rintro ⟨hfind, hother⟩
    rw [if_neg (Ne.symm hother)] at hfind
    exact ⟨hfind, hother⟩
  · rintro ⟨hfind, hother⟩
    rw [if_neg (Ne.symm hother)]
    exact ⟨hfind, hother⟩

theorem finish_spec (h : hub.Filed) (number : Nat) : hub.Finished number (hub.finish number) := by
  by_cases howner : (hub.links number).owner = kAnyOwner
  · have hfinish : hub.finish number = hub.setPhase number .done := by
      simp only [finish, howner, ne_eq, not_true_eq_false, if_false]
    rw [hfinish]
    refine ⟨?_, ?_, ?_⟩
    · intro id
      rw [sessions_setPhase, if_neg fun hne => hne.1 howner]
    · rw [setPhase, links_setLink, if_pos rfl]
    · intro other hother
      rw [setPhase, links_setLink, if_neg hother, if_neg fun hne => hne.1 howner, List.append_nil]
  · obtain ⟨told, htold, hsame, hshares⟩ :=
      sendToAll_ok (h.removeComponent (hub.links number).owner)
        (remove_fits (hub.links number).owner)
    have hfinish : hub.finish number = told.setPhase number .done := by
      simp only [finish, ne_eq, howner, not_false_eq_true, if_true, htold]
    have hkept : ∀ other, (hub.removeComponent (hub.links number).owner).links other =
        hub.links other := fun _ => rfl
    rw [hfinish]
    refine ⟨?_, ?_, ?_⟩
    · intro id
      rw [sessions_setPhase, hsame, sessions_removeComponent]
      simp only [ne_eq, howner, not_false_eq_true, true_and]
    · rw [setPhase, links_setLink, if_pos rfl, hshares, share_removal, hkept]
      simp
    · intro other hother
      rw [setPhase, links_setLink, if_neg hother, hshares, share_removal, hkept]
      simp only [ne_eq, howner, not_false_eq_true, true_and]

theorem step_cases (h : hub.Exact) {action : HubAction}
    (hstep : step draw hub action = some after) :
    (∃ number presence address owner, action = .introduce number presence address ∧
      (hub.links number).phase = .greeting ∧
      hub.Introduced draw address number presence owner after) ∨
    (∃ number, action = .finish number ∧ (hub.links number).phase ≠ .done ∧
      hub.Finished number after) := by
  cases action with
  | introduce number presence address =>
    left
    simp only [step] at hstep
    split at hstep
    · rename_i hgreeting
      obtain ⟨owner, hintroduced⟩ := introduce_spec h hgreeting hstep
      exact ⟨number, presence, address, owner, rfl, hgreeting, hintroduced⟩
    · contradiction
  | finish number =>
    right
    simp only [step] at hstep
    split at hstep
    · contradiction
    · rename_i hopen
      cases Option.some.inj hstep
      exact ⟨number, rfl, hopen, finish_spec h.filed number⟩

end MasterHub

end Srnp
