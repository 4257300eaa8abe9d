import Srnp.Network

/-! What a component holds for its own pairs is what its callers have made of
them, as long as nobody sends it updates of its own pairs. The owner's fan-out
never does, for a component is in none of its own lists. A component that
handles an update forwards it to its wildcard subscribers, though, and the
owner may be one of them. -/
namespace Srnp
open Std LastWrite Transition

namespace Network
variable {F : Type}

/-- The updates of a pair are handled by components that its owner has no
wildcard subscription with. -/
def NoEcho (net : Network F) : NetworkAction F → Prop
  | .deliver index _ _ => ∀ envelope ∈ net.flight[index]?, ∀ pair,
      envelope.message = .pairUpdate pair →
        pair.owner ∉ (net.nodes envelope.recipient).component.space.uSubscribers
  | _ => True

/-- A component's own pairs show what the writes applied at it have made of
them, and no frame about a pair is on its way to the owner of that pair. -/
def OwnerIntegrity (net : Network F) : Prop :=
  (∀ owner key, key.owner = owner → (net.nodes owner).component.space.view key =
    Store.replay (fun _ => none) (net.nodes owner).writes key) ∧
  ∀ envelope ∈ net.flight, ∀ key, envelope.message.target = some key →
    key.owner ≠ envelope.recipient

end Network

structure Node.Sound {F : Type} (owner : OwnerId) (node : Node F) : Prop where
  identity : node.component.owner = owner
  regular : node.component.Regular
  owed : ∀ thread, ∀ parcel ∈ Component.parcels (node.todo thread), Addressed parcel
  own : ∀ key, key.owner = owner →
    node.component.space.view key = Store.replay (fun _ => none) node.writes key

namespace Node
variable {F : Type} {owner : OwnerId} {node : Node F}

theorem Sound.quiet (owner : OwnerId) : Sound owner (Node.quiet (.initial owner) : Node F) := by
  refine ⟨rfl, .initial owner, ?_, ?_⟩
  · intro thread parcel hparcel
    contradiction
  · intro key _
    simp [Node.quiet, Component.initial, PairSpace.view, PairSpace.find, PairSpace.empty]

theorem Sound.enter (h : Sound owner node) {thread : ThreadId} {call : Call F} {now : TimePoint}
    (hecho : ∀ pair, call = .handle (.pairUpdate pair) →
      pair.owner ∉ node.component.space.uSubscribers)
    (hforeign : ∀ write, call.received = some write → write.key.owner ≠ owner) :
    Sound owner (node.enter thread call now) := by
  refine ⟨(node.component.enter_owner call now).trans h.identity, h.regular.enter call now,
    ?_, ?_⟩
  · intro other
    simp only [Node.enter, Function.update_apply]
    split
    · exact h.regular.addressed_enter hecho
    · exact h.owed other
  · intro key hkey
    change (node.component.enter call now).component.space.view key = _
    rw [node.component.enter_view, Store.replay_append, replay_foreign]
    · simp only [Node.enter, Store.replay_append]
      exact Store.replay_congr (h.own key hkey) _
    · intro write hwrite
      rw [hkey]
      exact hforeign write (Option.mem_toList.mp hwrite)

theorem parcels_resume (node : Node F) (first : Action F) (rest : List (Action F)) :
    ∀ parcel ∈ Component.parcels (node.resume first rest),
      parcel.2.target = none ∨ parcel ∈ Component.parcels rest := by
  intro parcel hparcel
  cases first with
  | sendAll words registering =>
    rw [resume, Component.parcels_append] at hparcel
    rcases List.mem_append.mp hparcel with hnew | hrest
    · left
      obtain ⟨action, haction, hsome⟩ := List.mem_filterMap.mp hnew
      obtain ⟨session, _, rfl⟩ := List.mem_map.mp haction
      cases Option.some.inj hsome
      rfl
    · exact Or.inr hrest
  | _ => exact Or.inr hparcel

theorem mem_parcels_tail {first : Action F} {rest : List (Action F)} {parcel : OwnerId × Message}
    (h : parcel ∈ Component.parcels rest) : parcel ∈ Component.parcels (first :: rest) := by
  rw [Component.parcels_cons]
  exact List.mem_append_right _ h

theorem Sound.advance (h : Sound owner node) {thread : ThreadId} {first : Action F}
    {rest : List (Action F)} (htodo : node.todo thread = first :: rest) :
    Sound owner (node.advance thread first rest) := by
  have hcomponent : (node.advance thread first rest).component = node.component :=
    perform_component node first
  have hwrites : (node.advance thread first rest).writes = node.writes :=
    perform_writes node first
  refine ⟨?_, ?_, ?_, ?_⟩
  · rw [hcomponent]
    exact h.identity
  · rw [hcomponent]
    exact h.regular
  · intro other parcel hparcel
    simp only [Node.advance, Function.update_apply] at hparcel
    split at hparcel
    · rcases parcels_resume node first rest parcel hparcel with hnone | hrest
      · exact Component.addressed_of_untargeted hnone
      · apply h.owed thread
        rw [htodo]
        exact mem_parcels_tail hrest
    · exact h.owed other parcel hparcel
  · rw [hcomponent, hwrites]
    exact h.own

theorem Sound.throw (h : Sound owner node) (thread : ThreadId) :
    Sound owner { node with todo := Function.update node.todo thread [] } := by
  refine ⟨h.identity, h.regular, ?_, h.own⟩
  intro other parcel hparcel
  simp only [Function.update_apply] at hparcel
  split at hparcel
  · contradiction
  · exact h.owed other parcel hparcel

end Node

namespace Network
variable {F : Type} {net next : Network F}

structure Sound (net : Network F) : Prop where
  nodes : ∀ owner, Node.Sound owner (net.nodes owner)
  flight : ∀ envelope ∈ net.flight, Addressed (envelope.recipient, envelope.message)

theorem Sound.initial : Sound (Network.initial : Network F) := by
  refine ⟨fun owner => Node.Sound.quiet owner, ?_⟩
  intro envelope henvelope
  contradiction

theorem Sound.update (h : Sound net) {owner : OwnerId} {node : Node F}
    (hnode : Node.Sound owner node) (other : OwnerId) :
    Node.Sound other (Function.update net.nodes owner node other) := by
  rw [Function.update_apply]
  split
  · rename_i heq
    rw [heq]
    exact hnode
  · exact h.nodes other

theorem Sound.outgoing (h : Sound net) (owner : OwnerId) (thread : ThreadId) :
    ∀ envelope ∈ net.outgoing owner thread, Addressed (envelope.recipient, envelope.message) := by
  intro envelope henvelope
  obtain ⟨parcel, hparcel, rfl⟩ := List.mem_map.mp henvelope
  unfold Node.outgoing at hparcel
  split at hparcel
  · contradiction
  · rename_i first rest htodo
    apply (h.nodes owner).owed thread
    have hall : parcel ∈ ((net.nodes owner).todo thread).flatMap
        (net.nodes owner).component.hands := by
      rw [htodo, List.flatMap_cons]
      exact List.mem_append_left _ hparcel
    exact (Component.hands_sublist _ _).subset hall

theorem Sound.received (h : Sound net) {envelope : Envelope} (hmem : envelope ∈ net.flight) :
    ∀ write, (Call.handle envelope.message : Call F).received = some write →
      write.key.owner ≠ envelope.recipient := by
  intro write hwrite
  apply h.flight envelope hmem
  rw [envelope.message.target_eq]
  exact Option.map_eq_some_iff.mpr ⟨write, hwrite, rfl⟩

theorem Sound.move {action : NetworkAction F} (h : Sound net) (hguard : NoEcho net action)
    (hmove : net.Move action next) : Sound next := by
  cases hmove with
  | @call owner thread call now hpublic hidle =>
    have hhandle : ∀ message, call ≠ .handle message := by
      rintro message rfl
      contradiction
    refine ⟨h.update ((h.nodes owner).enter ?_ ?_), h.flight⟩
    · intro pair hcall
      exact absurd hcall (hhandle _)
    · intro write hwrite
      cases call with
      | handle message => exact absurd rfl (hhandle message)
      | _ => contradiction
  | @advance owner thread first rest htodo =>
    refine ⟨h.update ((h.nodes owner).advance htodo), ?_⟩
    intro envelope henvelope
    rcases List.mem_append.mp henvelope with hold | hnew
    · exact h.flight envelope hold
    · exact h.outgoing owner thread envelope hnew
  | throw => exact ⟨h.update ((h.nodes _).throw _), h.flight⟩
  | @deliver index thread now envelope hflight hidle =>
    have hmem : envelope ∈ net.flight := List.mem_of_getElem? hflight
    refine ⟨h.update ((h.nodes envelope.recipient).enter ?_ (h.received hmem)), ?_⟩
    · intro pair hcall
      injection hcall with hmessage
      exact hguard envelope hflight pair hmessage
    · intro other hother
      exact h.flight other (List.mem_of_mem_eraseIdx hother)
  | lose =>
    refine ⟨h.nodes, ?_⟩
    intro other hother
    exact h.flight other (List.mem_of_mem_eraseIdx hother)

theorem Sound.of_reach (hreach : Reach Network.step NoEcho Network.initial net) : Sound net :=
  hreach.invariant .initial fun _ _ _ h hguard hstep => h.move hguard (step_move hstep)

theorem owner_integrity (hreach : Reach Network.step NoEcho Network.initial net) :
    net.OwnerIntegrity := by
  have hsound := Sound.of_reach hreach
  constructor
  · intro owner
    exact (hsound.nodes owner).own
  · exact hsound.flight

/-! Components 1000 and 2000 know each other; 2000 subscribes to all that 1000
has, and in the second run 1000 also to all that 2000 has. -/

def acquainted : List (NetworkAction Unit) :=
  [.call 1000 0 (.addSession ⟨2000, [], []⟩) 0, .call 2000 0 (.addSession ⟨1000, [], []⟩) 0,
    .call 2000 0 (.registerSubscription 1000 kWildcardKey) 1, .advance 2000 0, .deliver 0 0 2]

def bothWays : List (NetworkAction Unit) :=
  acquainted ++
    [.call 1000 0 (.registerSubscription 2000 kWildcardKey) 1, .advance 1000 0, .deliver 0 0 2]

def publishing : List (NetworkAction Unit) :=
  [.call 1000 0 (.setPair [107] [1] .string) 3, .advance 1000 0, .advance 1000 0, .deliver 0 0 4]

/-- Component 2000 sends the update back; 1000 handles it after a newer publish. -/
def echoing : List (NetworkAction Unit) :=
  bothWays ++ publishing ++
    [.advance 2000 0, .call 1000 0 (.setPair [107] [2] .string) 5, .advance 1000 0,
      .advance 1000 0, .deliver 0 0 6]

def echoFree (net : Network Unit) : NetworkAction Unit → Bool
  | .deliver index _ _ =>
      match net.flight[index]? with
      | some ⟨recipient, .pairUpdate pair, _⟩ =>
          pair.owner ∉ (net.nodes recipient).component.space.uSubscribers
      | _ => true
  | _ => true

theorem noEcho_of_echoFree (net : Network Unit) (action : NetworkAction Unit)
    (h : echoFree net action) : NoEcho net action := by
  cases action with
  | deliver index thread now =>
    rintro ⟨recipient, message, cause⟩ henvelope pair rfl
    have hflight : net.flight[index]? = some ⟨recipient, .pairUpdate pair, cause⟩ := henvelope
    simp only [echoFree, hflight] at h
    exact of_decide_eq_true h
  | _ => trivial

theorem owner_integrity_publish : ∃ net : Network Unit,
    Reach Network.step NoEcho Network.initial net ∧
      ((net.nodes 2000).component.getPair ⟨1000, [107]⟩).isSome ∧ net.OwnerIntegrity := by
  have hrun : ∃ net : Network Unit, Reach Network.step NoEcho Network.initial net ∧
      ((net.nodes 2000).component.getPair ⟨1000, [107]⟩).isSome := by
    refine ⟨_, Reach.of_checked noEcho_of_echoFree (acquainted ++ publishing) rfl, ?_⟩
    decide
  obtain ⟨net, hreach, hsome⟩ := hrun
  exact ⟨net, hreach, hsome, owner_integrity hreach⟩

/-- The owner's newer value is overwritten by the older one that came back. -/
theorem stale_echo_applied : ∃ net : Network Unit,
    Reach Network.step unguarded Network.initial net ∧ ¬ net.OwnerIntegrity ∧
      ((net.nodes 1000).component.getPair ⟨1000, [107]⟩).map (·.value) = some [1] ∧
      (net.nodes 1000).writes =
        [.put ⟨1000, [107]⟩ ([1], .string), .put ⟨1000, [107]⟩ ([2], .string)] := by
  refine ⟨_, Reach.of_run echoing (fun _ _ _ => trivial) rfl, ?_, ?_, ?_⟩
  · intro hintegrity
    have hown := hintegrity.1 1000 ⟨1000, [107]⟩ rfl
    revert hown
    decide
  · decide
  · decide

end Network

end Srnp
