import Srnp.Node
import Srnp.Subscribers

/-! A network of components, one for every owner id. A component acts through
its public calls and through the frames that reach it. Frames that were handed
to a session may be handled in any order, or not at all. Every frame carries
the number of the public call it goes back to; the code has no such number. -/
namespace Srnp
open Std LastWrite Transition

structure Envelope where
  recipient : OwnerId
  message : Message
  cause : Option Nat
deriving DecidableEq

/-- A public call, and the component as the call found it. -/
structure Origin (F : Type) where
  component : Component F
  call : Call F

structure Network (F : Type) where
  nodes : OwnerId → Node F
  /-- The public call each thread last worked for. -/
  causes : OwnerId → ThreadId → Option Nat
  issued : List (Origin F)
  /-- Frames not handled yet. -/
  flight : List Envelope
  /-- Every frame ever handed to a session. -/
  sent : List Envelope

inductive NetworkAction (F : Type) where
  | call (owner : OwnerId) (thread : ThreadId) (call : Call F) (now : TimePoint)
  | advance (owner : OwnerId) (thread : ThreadId)
  | throw (owner : OwnerId) (thread : ThreadId)
  | deliver (index : Nat) (thread : ThreadId) (now : TimePoint)
  | lose (index : Nat)

def Call.isPublic {F : Type} : Call F → Bool
  | .handle _ => false
  | _ => true

def Node.outgoing {F : Type} (node : Node F) (thread : ThreadId) : List (OwnerId × Message) :=
  match node.todo thread with
  | [] => []
  | first :: _ => node.component.hands first

namespace Network
variable {F : Type}

def initial : Network F :=
  ⟨fun owner => Node.quiet (.initial owner), fun _ _ => none, [], [], []⟩

def setNode (net : Network F) (owner : OwnerId) (node : Node F) : Network F :=
  { net with nodes := Function.update net.nodes owner node }

def assign (net : Network F) (owner : OwnerId) (thread : ThreadId) (node : Node F)
    (cause : Option Nat) : Network F :=
  { net.setNode owner node with
    causes := Function.update net.causes owner
      (Function.update (net.causes owner) thread cause) }

def outgoing (net : Network F) (owner : OwnerId) (thread : ThreadId) : List Envelope :=
  ((net.nodes owner).outgoing thread).map fun parcel =>
    ⟨parcel.1, parcel.2, net.causes owner thread⟩

def step (net : Network F) : NetworkAction F → Option (Network F)
  | .call owner thread call now =>
      if call.isPublic then
        ((net.nodes owner).step (.enter thread call now)).map fun node =>
          { net.assign owner thread node (some net.issued.length) with
            issued := net.issued ++ [⟨(net.nodes owner).component, call⟩] }
      else none
  | .advance owner thread =>
      ((net.nodes owner).step (.advance thread)).map fun node =>
        { net.setNode owner node with
          flight := net.flight ++ net.outgoing owner thread
          sent := net.sent ++ net.outgoing owner thread }
  | .throw owner thread => ((net.nodes owner).step (.throw thread)).map (net.setNode owner)
  | .deliver index thread now =>
      net.flight[index]?.bind fun envelope =>
        ((net.nodes envelope.recipient).step (.enter thread (.handle envelope.message) now)).map
          fun node =>
            { net.assign envelope.recipient thread node envelope.cause with
              flight := net.flight.eraseIdx index }
  | .lose index => some { net with flight := net.flight.eraseIdx index }

inductive Move (net : Network F) : NetworkAction F → Network F → Prop
  | call {owner : OwnerId} {thread : ThreadId} {call : Call F} {now : TimePoint}
      (hpublic : call.isPublic) (hidle : (net.nodes owner).todo thread = []) :
      Move net (.call owner thread call now)
        { net.assign owner thread ((net.nodes owner).enter thread call now)
            (some net.issued.length) with
          issued := net.issued ++ [⟨(net.nodes owner).component, call⟩] }
  | advance {owner : OwnerId} {thread : ThreadId} {first : Action F} {rest : List (Action F)}
      (htodo : (net.nodes owner).todo thread = first :: rest) :
      Move net (.advance owner thread)
        { net.setNode owner ((net.nodes owner).advance thread first rest) with
          flight := net.flight ++ net.outgoing owner thread
          sent := net.sent ++ net.outgoing owner thread }
  | throw {owner : OwnerId} {thread : ThreadId} :
      Move net (.throw owner thread) (net.setNode owner
        { net.nodes owner with
          todo := Function.update (net.nodes owner).todo thread [] })
  | deliver {index : Nat} {thread : ThreadId} {now : TimePoint} {envelope : Envelope}
      (hflight : net.flight[index]? = some envelope)
      (hidle : (net.nodes envelope.recipient).todo thread = []) :
      Move net (.deliver index thread now)
        { net.assign envelope.recipient thread
            ((net.nodes envelope.recipient).enter thread (.handle envelope.message) now)
            envelope.cause with
          flight := net.flight.eraseIdx index }
  | lose {index : Nat} :
      Move net (.lose index) { net with flight := net.flight.eraseIdx index }

theorem step_move {net next : Network F} {action : NetworkAction F}
    (h : net.step action = some next) : net.Move action next := by
  cases action with
  | call owner thread call now =>
    simp only [step] at h
    split at h
    · rename_i hpublic
      obtain ⟨node, hnode, rfl⟩ := Option.map_eq_some_iff.mp h
      rcases Node.step_cases hnode with ⟨_, _, _, haction, hidle, _, rfl⟩ |
        ⟨_, _, _, haction, _⟩ | ⟨_, haction, _⟩
      · cases haction
        exact .call hpublic hidle
      · contradiction
      · contradiction
    · contradiction
  | advance owner thread =>
    obtain ⟨node, hnode, rfl⟩ := Option.map_eq_some_iff.mp h
    rcases Node.step_cases hnode with ⟨_, _, _, haction, _⟩ |
      ⟨_, first, rest, haction, htodo, rfl⟩ | ⟨_, haction, _⟩
    · contradiction
    · cases haction
      exact .advance htodo
    · contradiction
  | throw owner thread =>
    obtain ⟨node, hnode, rfl⟩ := Option.map_eq_some_iff.mp h
    rcases Node.step_cases hnode with ⟨_, _, _, haction, _⟩ | ⟨_, _, _, haction, _⟩ |
      ⟨_, haction, rfl⟩
    · contradiction
    · contradiction
    · cases haction
      exact .throw
  | deliver index thread now =>
    obtain ⟨envelope, hflight, hstep⟩ := Option.bind_eq_some_iff.mp h
    obtain ⟨node, hnode, rfl⟩ := Option.map_eq_some_iff.mp hstep
    rcases Node.step_cases hnode with ⟨_, _, _, haction, hidle, _, rfl⟩ |
      ⟨_, _, _, haction, _⟩ | ⟨_, haction, _⟩
    · cases haction
      exact .deliver hflight hidle
    · contradiction
    · contradiction
  | lose index =>
    cases Option.some.inj h
    exact .lose

theorem outgoing_cons (net : Network F) {owner : OwnerId} {thread : ThreadId} {first : Action F}
    {rest : List (Action F)} (h : (net.nodes owner).todo thread = first :: rest) :
    net.outgoing owner thread = ((net.nodes owner).component.hands first).map fun parcel =>
      ⟨parcel.1, parcel.2, net.causes owner thread⟩ := by
  simp only [outgoing, Node.outgoing, h]

end Network

end Srnp
