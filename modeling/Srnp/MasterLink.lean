import Srnp.MasterHub
import Srnp.ClientRun
import Srnp.RoundTrip

/-! The component's end of the link to the master. The server's constructor
reads the first frame, a loop the others. Whatever is not the frame expected
there ends the link. What a component knows of the others is what the frames it
heard say last of each. -/
namespace Srnp
open Std Wire LastWrite

/-- "127.0.0.1" -/
def kLoopback : Bytes := [49, 50, 55, 46, 48, 46, 48, 46, 49]

structure MasterLink (F : Type) where
  masterIp : Bytes
  client : Component F
  /-- The reply to our greeting has been read. -/
  registered : Bool := false

namespace MasterLink
variable {F : Type}

def initial (masterIp : Bytes) : MasterLink F := { masterIp, client := .constructed }

/-- The master sees loopback addresses for components on its own host. -/
def reachable (link : MasterLink F) (info : ComponentInfo) : ComponentInfo :=
  if info.ip = kLoopback then { info with ip := link.masterIp } else info

def registerWithMaster (size : Nat) (link : MasterLink F) (bytes : Bytes) :
    Except DecodeError MasterMessage := do
  let header ← decodeHeader (bytes.take kHeaderSize)
  if header.type ≠ .masterMessage then
    throw ⟨"expected the master's reply, got something else"⟩
  let message ← (Format.masterMessage size).decodePayload (bytes.drop kHeaderSize)
  pure { message with allComponents := message.allComponents.map link.reachable }

def readUpdate (link : MasterLink F) (bytes : Bytes) : Except DecodeError UpdateComponents := do
  let header ← decodeHeader (bytes.take kHeaderSize)
  if header.type ≠ .updateComponents then
    throw ⟨"the master sent an unexpected message type"⟩
  let update ← Format.updateComponents.decodePayload (bytes.drop kHeaderSize)
  pure { update with component := link.reachable update.component }

def hear (size : Nat) (link : MasterLink F) (bytes : Bytes) :
    Except DecodeError (MasterLink F) :=
  if link.registered then do
    let update ← link.readUpdate bytes
    pure { link with client := (link.client.onComponentUpdate update).component }
  else do
    let welcome ← link.registerWithMaster size bytes
    pure { link with client := (link.client.onWelcome welcome).component, registered := true }

def hearAll (size : Nat) (link : MasterLink F) (frames : List MasterFrame) :
    Except DecodeError (MasterLink F) :=
  frames.foldlM (fun link message => do link.hear size (← message.frameOf)) link

end MasterLink

namespace MasterFrame

def news : MasterFrame → List (Write OwnerId Unit)
  | .welcome message => message.allComponents.map fun info => .put info.owner ()
  | .update ⟨.add, info⟩ => [.put info.owner ()]
  | .update ⟨.remove, info⟩ => [.remove info.owner]

/-- A component can make out what was sent. Beyond `kMaxPayload / size` the
count of a welcome is taken for a corrupt one. -/
def Legible (size : Nat) : MasterFrame → Prop
  | .welcome message => (MasterFrame.welcome message).fits ∧
      message.allComponents.length ≤ kMaxPayload / size
  | .update message => (MasterFrame.update message).fits

end MasterFrame

def roster (frames : List MasterFrame) : Store OwnerId Unit :=
  Store.replay (fun _ => none) (frames.flatMap (·.news))

def Component.roster {F : Type} (c : Component F) : Store OwnerId Unit := fun id =>
  (c.components[id]?).map fun _ => ()

namespace Component
variable {F : Type} (c : Component F)

theorem roster_eq_some {id : OwnerId} : c.roster id = some () ↔ id ∈ c.components := by
  unfold roster
  rw [ExtTreeMap.mem_iff_isSome_getElem?]
  cases c.components[id]? with
  | none => simp
  | some info => simp

theorem roster_addSession (info : ComponentInfo) :
    (c.addSession info).component.roster = c.roster.apply (.put info.owner ()) := by
  funext id
  rw [Store.apply_put_eq]
  simp only [roster, addSession, ExtTreeMap.getElem?_insert, LawfulEqOrd.compare_eq_iff_eq]
  split
  · rfl
  · rfl

theorem roster_removeSession (owner : OwnerId) :
    (c.removeSession owner).component.roster = c.roster.apply (.remove owner) := by
  funext id
  rw [Store.apply_remove_eq]
  simp only [roster, removeSession, ExtTreeMap.getElem?_erase, LawfulEqOrd.compare_eq_iff_eq]
  split
  · rfl
  · rfl

theorem roster_onWelcome (welcome : MasterMessage) :
    (c.onWelcome welcome).component.roster =
      c.roster.replay (MasterFrame.welcome welcome).news := by
  have hjoined : ∀ (infos : List ComponentInfo) (c : Component F),
      (infos.foldl (fun c info => (c.addSession info).component) c).roster =
        c.roster.replay (infos.map fun info => .put info.owner ()) := by
    intro infos
    induction infos with
    | nil => exact fun _ => rfl
    | cons first rest ih =>
      intro c
      rw [List.foldl_cons, ih, roster_addSession]
      rfl
  exact hjoined welcome.allComponents { c with owner := welcome.owner }

theorem roster_onComponentUpdate (update : UpdateComponents) :
    (c.onComponentUpdate update).component.roster =
      c.roster.replay (MasterFrame.update update).news := by
  obtain ⟨operation, info⟩ := update
  cases operation with
  | add => exact c.roster_addSession info
  | remove => exact c.roster_removeSession info.owner

end Component

namespace MasterLink
variable {F : Type} {size : Nat} {link : MasterLink F}

theorem owner_reachable (info : ComponentInfo) : (link.reachable info).owner = info.owner := by
  unfold reachable
  split <;> rfl

theorem news_reachable (infos : List ComponentInfo) (owner : OwnerId) :
    (MasterFrame.welcome ⟨owner, infos.map link.reachable⟩).news =
      (MasterFrame.welcome ⟨owner, infos⟩).news := by
  simp only [MasterFrame.news, List.map_map]
  refine List.map_congr_left ?_
  intro info _
  exact congrArg (Write.put · ()) (owner_reachable info)

theorem hear_welcome {welcome : MasterMessage} {bytes : Bytes}
    (hlegible : (MasterFrame.welcome welcome).Legible size)
    (hframe : (MasterFrame.welcome welcome).frameOf = .ok bytes) (hnew : link.registered = false) :
    ∃ after, link.hear size bytes = .ok after ∧ after.registered ∧
      after.client.roster = link.client.roster.replay (MasterFrame.welcome welcome).news := by
  obtain ⟨header, hheader, htype, _, _, hpayload⟩ :=
    Format.masterMessage_round_trips size .masterMessage welcome bytes (by decide)
      hlegible.2 hframe
  obtain ⟨type, payloadLength, subscriber⟩ := header
  cases htype
  refine ⟨{ link with
    client := (link.client.onWelcome
      { welcome with allComponents := welcome.allComponents.map link.reachable }).component
    registered := true }, ?_, rfl, ?_⟩
  · simp only [hear, hnew, registerWithMaster, hheader, hpayload]
    rfl
  · rw [Component.roster_onWelcome, news_reachable]

theorem hear_update (size : Nat) {update : UpdateComponents} {bytes : Bytes}
    (hframe : (MasterFrame.update update).frameOf = .ok bytes) (hold : link.registered) :
    ∃ after, link.hear size bytes = .ok after ∧ after.registered ∧
      after.client.roster = link.client.roster.replay (MasterFrame.update update).news := by
  obtain ⟨header, hheader, htype, _, _, hpayload⟩ :=
    Format.updateComponents_round_trips .updateComponents update bytes (by decide)
      trivial hframe
  obtain ⟨type, payloadLength, subscriber⟩ := header
  cases htype
  refine ⟨{ link with
    client := (link.client.onComponentUpdate
      { update with component := link.reachable update.component }).component }, ?_, hold, ?_⟩
  · simp only [hear, hold, readUpdate, hheader, hpayload]
    rfl
  · rw [Component.roster_onComponentUpdate]
    obtain ⟨operation, info⟩ := update
    cases operation with
    | add => simp only [MasterFrame.news, owner_reachable]
    | remove => simp only [MasterFrame.news, owner_reachable]

theorem hearAll_cons (message : MasterFrame) (rest : List MasterFrame) :
    link.hearAll size (message :: rest) =
      (message.frameOf >>= link.hear size) >>= fun next => next.hearAll size rest := rfl

theorem hearAll_append (first second : List MasterFrame) :
    link.hearAll size (first ++ second) =
      link.hearAll size first >>= fun next => next.hearAll size second := List.foldlM_append

theorem hearAll_updates (size : Nat) (updates : List UpdateComponents) (hold : link.registered)
    (hfits : ∀ update ∈ updates, (MasterFrame.update update).fits) :
    ∃ after, link.hearAll size (updates.map .update) = .ok after ∧
      after.client.roster =
        link.client.roster.replay ((updates.map MasterFrame.update).flatMap (·.news)) := by
  induction updates generalizing link with
  | nil => exact ⟨link, rfl, rfl⟩
  | cons first rest ih =>
    obtain ⟨bytes, hframe⟩ := MasterFrame.ok_of_fits (hfits first List.mem_cons_self)
    obtain ⟨next, hnext, hregistered, hroster⟩ := hear_update size hframe hold
    obtain ⟨after, hafter, hrest⟩ := ih hregistered
      fun update hmem => hfits update (List.mem_cons_of_mem first hmem)
    refine ⟨after, ?_, ?_⟩
    · rw [List.map_cons, hearAll_cons, hframe]
      change link.hear size bytes >>= _ = _
      rw [hnext]
      exact hafter
    · rw [List.map_cons, List.flatMap_cons, Store.replay_append, ← hroster]
      exact hrest

end MasterLink

/-- The frames of a link as a component expects them: the welcome first, then
updates, all of which it can make out. -/
def Orderly (size : Nat) (frames : List MasterFrame) : Prop :=
  ∃ (welcome : MasterMessage) (updates : List UpdateComponents),
    frames = .welcome welcome :: updates.map .update ∧
    ∀ message ∈ frames, message.Legible size

theorem Orderly.append {size : Nat} {frames : List MasterFrame} (h : Orderly size frames)
    {update : UpdateComponents} (hfits : (MasterFrame.update update).fits) :
    Orderly size (frames ++ [.update update]) := by
  obtain ⟨welcome, updates, rfl, hlegible⟩ := h
  refine ⟨welcome, updates ++ [update], ?_, ?_⟩
  · rw [List.map_append]
    rfl
  · intro message hmem
    rcases List.mem_append.mp hmem with hmem | hmem
    · exact hlegible message hmem
    · cases List.mem_singleton.mp hmem
      exact hfits

theorem MasterLink.hearAll_orderly {F : Type} {size : Nat} {link : MasterLink F}
    {frames : List MasterFrame} (h : Orderly size frames) (hnew : link.registered = false) :
    ∃ after, link.hearAll size frames = .ok after ∧
      after.client.roster = link.client.roster.replay (frames.flatMap (·.news)) := by
  obtain ⟨welcome, updates, rfl, hlegible⟩ := h
  have hwelcome := hlegible (.welcome welcome) List.mem_cons_self
  obtain ⟨bytes, hframe⟩ := MasterFrame.ok_of_fits hwelcome.1
  obtain ⟨next, hnext, hregistered, hroster⟩ := hear_welcome hwelcome hframe hnew
  have hfits : ∀ update ∈ updates, (MasterFrame.update update).fits := by
    intro update hmem
    exact hlegible (.update update) (List.mem_cons_of_mem _ (List.mem_map_of_mem hmem))
  obtain ⟨after, hafter, hrest⟩ := hearAll_updates size updates hregistered hfits
  refine ⟨after, ?_, ?_⟩
  · rw [hearAll_cons, hframe]
    change link.hear size bytes >>= _ = _
    rw [hnext]
    exact hafter
  · rw [List.flatMap_cons, Store.replay_append, ← hroster]
    exact hrest

end Srnp
