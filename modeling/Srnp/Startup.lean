import Srnp.CommandLine
import Srnp.MasterStream

/-! The node of a process comes and goes as a whole. `initialize` makes its parts
one after the other and takes them down again where the server cannot be
constructed, so that a call either finds a node that has its owner id, or none. -/
namespace Srnp
open Std Wire Reading Transition

/-- What there is of a node. What is in the pair space is part of the client here. -/
structure KernelInstance (F : Type) where
  pairSpace : Bool := false
  ioContext : Bool := false
  client : Option (Component F) := none
  server : Option OwnerId := none

/-- What a process is started in: its environment variables, the port that its
server is given, and what comes of connecting to an address and greeting whoever
is there. That is an error, or the bytes that the other end sends. -/
structure Surroundings where
  masterIp : Option Bytes
  masterPort : Option Bytes
  ourPort : UInt16
  /-- What the decoder takes for the size of a component. -/
  size : Nat
  connecting : Bytes → Bytes → IndicatePresence → Except Bytes Bytes

namespace KernelInstance
variable {F : Type}

def ok (kernel : KernelInstance F) : Bool := kernel.client.isSome

def shutdown (_ : KernelInstance F) : KernelInstance F := {}

/-- The server's constructor, up to the loops it starts. -/
def construct (world : Surroundings) (masterIp masterPort : Bytes) (desiredOwnerId : OwnerId)
    (client : Component F) : Except StartFailure (OwnerId × Component F) :=
  match world.connecting masterIp masterPort (MasterLink.presence world.ourPort desiredOwnerId) with
  | .error what => .error (.socket what)
  | .ok stream =>
      match (MasterLink.readReply world.size).run stream with
      | .error error => .error (.reading error)
      | .ok (welcome, _) =>
          let link : MasterLink F := { masterIp, client }
          .ok (welcome.owner, (link.welcomed welcome).client)

def initializeNode (kernel : KernelInstance F) (world : Surroundings) (masterIp masterPort : Bytes)
    (desiredOwnerId : OwnerId) : Except InitError Unit × KernelInstance F :=
  if kernel.ok then (.error .alreadyRunning, kernel)
  else
    let begun := { kernel with
      pairSpace := true
      ioContext := true
      client := some .constructed }
    match construct world masterIp masterPort desiredOwnerId .constructed with
    | .error failure => (.error (.unreachable masterIp masterPort failure), begun.shutdown)
    | .ok (owner, client) =>
        let served := { begun with client := some client, server := some owner }
        if client.ready then (.ok (), served) else (.error .neverWelcomed, served.shutdown)

def initializeWith (kernel : KernelInstance F) (world : Surroundings) (argv : List Bytes) :
    Except InitError Unit × KernelInstance F :=
  match initializeFromArguments world.masterIp world.masterPort argv with
  | .error error => (.error error, kernel)
  | .ok (masterIp, masterPort, desiredOwnerId, _) =>
      kernel.initializeNode world masterIp masterPort desiredOwnerId

def enter (kernel : KernelInstance F) (call : Call F) (now : TimePoint) :
    Except InitError Unit × KernelInstance F :=
  match kernel.client with
  | none => (.error .notRunning, kernel)
  | some client => (.ok (), { kernel with client := some (client.enter call now).component })

def getOwnerID (kernel : KernelInstance F) : Except InitError OwnerId :=
  match kernel.client with
  | none => .error .notRunning
  | some client => .ok client.owner

end KernelInstance

inductive KernelAction (F : Type) where
  | initializeNode (world : Surroundings) (masterIp masterPort : Bytes) (desiredOwnerId : OwnerId)
  | initializeWith (world : Surroundings) (argv : List Bytes)
  | shutdown
  /-- A call of the program, or one that arrives at the node. -/
  | enter (call : Call F) (now : TimePoint)

namespace KernelInstance
variable {F : Type} {kernel : KernelInstance F}

/-- Exceptions are caught. -/
def step (kernel : KernelInstance F) : KernelAction F → Option (KernelInstance F)
  | .initializeNode world masterIp masterPort desiredOwnerId =>
      some (kernel.initializeNode world masterIp masterPort desiredOwnerId).2
  | .initializeWith world argv => some (kernel.initializeWith world argv).2
  | .shutdown => some kernel.shutdown
  | .enter call now => some (kernel.enter call now).2

/-- There is all of a node or nothing of it. -/
structure Whole (kernel : KernelInstance F) : Prop where
  pairSpace : kernel.pairSpace = kernel.ok
  ioContext : kernel.ioContext = kernel.ok
  server : kernel.server = kernel.client.map (·.owner)
  ready : ∀ client, kernel.client = some client → client.ready

theorem Whole.none : ({} : KernelInstance F).Whole where
  pairSpace := rfl
  ioContext := rfl
  server := rfl
  ready client h := by contradiction

theorem Whole.empty (h : kernel.Whole) (hnone : kernel.ok = false) : kernel = {} := by
  obtain ⟨hspace, hio, hserver, _⟩ := h
  rw [hnone] at hspace hio
  cases hclient : kernel.client with
  | none =>
    rw [hclient] at hserver
    obtain ⟨pairSpace, ioContext, client, server⟩ := kernel
    cases hspace
    cases hio
    cases hclient
    cases hserver
    rfl
  | some client =>
    rw [ok, hclient] at hnone
    contradiction

/-! ### Starting -/

def Answers (world : Surroundings) (masterIp masterPort : Bytes) (desiredOwnerId : OwnerId)
    (welcome : MasterMessage) : Prop :=
  ∃ stream rest, world.connecting masterIp masterPort
      (MasterLink.presence world.ourPort desiredOwnerId) = .ok stream ∧
    (MasterLink.readReply world.size).run stream = .ok (welcome, rest)

section
variable {world : Surroundings} {masterIp masterPort : Bytes} {desiredOwnerId : OwnerId}

theorem Answers.unique {first second : MasterMessage}
    (hfirst : Answers world masterIp masterPort desiredOwnerId first)
    (hsecond : Answers world masterIp masterPort desiredOwnerId second) : first = second := by
  obtain ⟨stream, rest, hstream, hreply⟩ := hfirst
  obtain ⟨stream', rest', hstream', hreply'⟩ := hsecond
  rw [hstream] at hstream'
  cases hstream'
  rw [hreply] at hreply'
  cases hreply'
  rfl

theorem answers_cut_iff {bytes more : Bytes} {welcome : MasterMessage} {cut : Nat}
    (hlegible : (MasterFrame.welcome welcome).Legible world.size)
    (hframe : (MasterFrame.welcome welcome).frameOf = .ok bytes)
    (hstream : world.connecting masterIp masterPort
      (MasterLink.presence world.ourPort desiredOwnerId) = .ok ((bytes ++ more).take cut)) :
    (∃ welcome, Answers world masterIp masterPort desiredOwnerId welcome) ↔ bytes.length ≤ cut := by
  constructor
  · rintro ⟨other, stream, rest, heq, hreply⟩
    by_contra hshort
    rw [hstream] at heq
    cases heq
    rw [List.take_append_of_le_length (by omega),
      MasterLink.readReply_truncated hframe (by omega)] at hreply
    contradiction
  · intro hlong
    refine ⟨welcome, _, more.take (cut - bytes.length), hstream, ?_⟩
    rw [List.take_append, List.take_of_length_le hlong]
    exact MasterLink.readReply_reads hlegible hframe _

/-- The client has been told before the server is there. -/
theorem construct_cases (F : Type) (world : Surroundings) (masterIp masterPort : Bytes)
    (desiredOwnerId : OwnerId) :
    (∃ welcome client, Answers world masterIp masterPort desiredOwnerId welcome ∧
      construct world masterIp masterPort desiredOwnerId (.constructed : Component F) =
        .ok (welcome.owner, client) ∧ client.owner = welcome.owner ∧ client.ready = true) ∨
    ((∀ welcome, ¬Answers world masterIp masterPort desiredOwnerId welcome) ∧ ∃ failure,
      construct world masterIp masterPort desiredOwnerId (.constructed : Component F) =
        .error failure) := by
  unfold construct Answers
  cases hstream : world.connecting masterIp masterPort
      (MasterLink.presence world.ourPort desiredOwnerId) with
  | error what =>
    refine .inr ⟨?_, _, rfl⟩
    rintro welcome ⟨stream, rest, heq, _⟩
    contradiction
  | ok stream =>
    cases hreply : (MasterLink.readReply world.size).run stream with
    | error error =>
      refine .inr ⟨?_, .reading error, ?_⟩
      · rintro welcome ⟨stream', rest, heq, hwelcome⟩
        cases heq
        rw [hreply] at hwelcome
        contradiction
      · simp only [hreply]
    | ok reply =>
      obtain ⟨welcome, rest⟩ := reply
      have hpaired : (Component.constructed : Component F).Paired := fun id => by
        simp [Component.constructed, Component.initial]
      let link : MasterLink F := { masterIp, client := .constructed }
      obtain ⟨_, howner, _⟩ := Component.told_spec hpaired (link.swapped (.welcome welcome))
      refine .inl ⟨welcome, (link.welcomed welcome).client, ⟨stream, rest, rfl, hreply⟩, ?_,
        howner, rfl⟩
      simp only [hreply]
      rfl

end

theorem Whole.initializeNode (h : kernel.Whole) (world : Surroundings) (masterIp masterPort : Bytes)
    (desiredOwnerId : OwnerId) :
    (∃ welcome client, kernel.ok = false ∧
      Answers world masterIp masterPort desiredOwnerId welcome ∧ client.owner = welcome.owner ∧
      client.ready = true ∧ kernel.initializeNode world masterIp masterPort desiredOwnerId =
        (.ok (), ⟨true, true, some client, some welcome.owner⟩)) ∨
    ((kernel.ok = true ∨ ∀ welcome, ¬Answers world masterIp masterPort desiredOwnerId welcome) ∧
      ∃ error, error ≠ .neverWelcomed ∧
        kernel.initializeNode world masterIp masterPort desiredOwnerId = (.error error, kernel)) := by
  unfold KernelInstance.initializeNode
  cases hok : kernel.ok with
  | true => exact .inr ⟨.inl rfl, .alreadyRunning, InitError.noConfusion, rfl⟩
  | false =>
    have hempty := h.empty hok
    obtain ⟨welcome, client, hanswers, hconstruct, howner, hready⟩ | ⟨hnone, failure, hconstruct⟩ :=
      construct_cases F world masterIp masterPort desiredOwnerId
    · refine .inl ⟨welcome, client, rfl, hanswers, howner, hready, ?_⟩
      rw [if_neg Bool.false_ne_true, hconstruct]
      exact if_pos hready
    · refine .inr ⟨.inr hnone, .unreachable masterIp masterPort failure, InitError.noConfusion, ?_⟩
      rw [if_neg Bool.false_ne_true, hconstruct, hempty]
      rfl

theorem Whole.started (h : kernel.Whole) (world : Surroundings) (masterIp masterPort : Bytes)
    (desiredOwnerId : OwnerId) :
    (kernel.initializeNode world masterIp masterPort desiredOwnerId).2.Whole := by
  obtain ⟨welcome, client, _, _, howner, hready, heq⟩ | ⟨_, error, _, heq⟩ :=
    h.initializeNode world masterIp masterPort desiredOwnerId
  · rw [heq]
    refine ⟨rfl, rfl, congrArg some howner.symm, ?_⟩
    intro other hother
    cases hother
    exact hready
  · rw [heq]
    exact h

theorem Whole.step (h : kernel.Whole) {action : KernelAction F} {after : KernelInstance F}
    (hstep : kernel.step action = some after) : after.Whole := by
  cases action with
  | initializeNode world masterIp masterPort desiredOwnerId =>
    cases hstep
    exact h.started world masterIp masterPort desiredOwnerId
  | initializeWith world argv =>
    cases hstep
    unfold initializeWith
    split
    · exact h
    · exact h.started _ _ _ _
  | shutdown =>
    cases hstep
    exact .none
  | enter call now =>
    cases hstep
    unfold KernelInstance.enter
    split
    · exact h
    · rename_i client hclient
      have hok : kernel.ok = true := by
        rw [ok, hclient]
        rfl
      refine ⟨h.pairSpace.trans hok, h.ioContext.trans hok, ?_, ?_⟩
      · rw [h.server, hclient]
        exact congrArg some (client.enter_owner call now).symm
      · intro other hother
        cases hother
        exact (client.enter_identity call now).2.trans (h.ready client hclient)

theorem whole (hreach : Reach step unguarded {} kernel) : kernel.Whole :=
  hreach.invariant .none fun _ _ _ h _ hstep => h.step hstep

theorem getOwnerID_error_iff :
    kernel.getOwnerID = .error .notRunning ↔ kernel.ok = false := by
  unfold getOwnerID ok
  cases kernel.client with
  | none => exact iff_of_true rfl rfl
  | some client =>
    refine iff_of_false ?_ Bool.noConfusion
    intro h
    contradiction

/-- What a call that starts a node comes to, where `answers` holds of what its master
answers with. It returns exactly if there is no node in the process and there is an
answer, with the owner id of the answer; where it throws it leaves all as it was, and
the wait for an owner id is never what fails. -/
structure AllOrNothing (kernel : KernelInstance F)
    (outcome : Except InitError Unit × KernelInstance F) (answers : MasterMessage → Prop) :
    Prop where
  whole : outcome.2.Whole
  failed : ∀ error, outcome.1 = .error error → error ≠ .neverWelcomed ∧ outcome.2 = kernel
  started : outcome.1 = .ok () ↔
    kernel.getOwnerID = .error .notRunning ∧ ∃ welcome, answers welcome
  owner : ∀ welcome, outcome.1 = .ok () → answers welcome →
    outcome.2.getOwnerID = .ok welcome.owner

theorem Whole.allOrNothing (h : kernel.Whole) (world : Surroundings) (masterIp masterPort : Bytes)
    (desiredOwnerId : OwnerId) :
    kernel.AllOrNothing (kernel.initializeNode world masterIp masterPort desiredOwnerId)
      (Answers world masterIp masterPort desiredOwnerId) := by
  have hwhole := h.started world masterIp masterPort desiredOwnerId
  obtain ⟨welcome, client, hok, hanswers, howner, _, heq⟩ | ⟨hnot, error, herror, heq⟩ :=
    h.initializeNode world masterIp masterPort desiredOwnerId
  · rw [heq] at hwhole ⊢
    refine ⟨hwhole, ?_, ?_, ?_⟩
    · intro other hother
      contradiction
    · exact iff_of_true rfl ⟨getOwnerID_error_iff.mpr hok, welcome, hanswers⟩
    · intro other _ hother
      rw [hother.unique hanswers]
      exact congrArg Except.ok howner
  · rw [heq] at hwhole ⊢
    refine ⟨hwhole, ?_, ?_, ?_⟩
    · intro other hother
      cases hother
      exact ⟨herror, rfl⟩
    · refine iff_of_false (fun hstarted => by contradiction) ?_
      rintro ⟨hnone, welcome, hanswers⟩
      rcases hnot with hrunning | hsilent
      · rw [getOwnerID_error_iff, hrunning] at hnone
        contradiction
      · exact hsilent welcome hanswers
    · intro welcome hstarted
      contradiction

/-- The arguments are good, and the master they lead to answers with this welcome. -/
def AnswersArguments (world : Surroundings) (argv : List Bytes) (welcome : MasterMessage) : Prop :=
  ∃ masterIp masterPort desiredOwnerId name,
    initializeFromArguments world.masterIp world.masterPort argv =
      .ok (masterIp, masterPort, desiredOwnerId, name) ∧
    Answers world masterIp masterPort desiredOwnerId welcome

theorem Whole.allOrNothing_arguments (h : kernel.Whole) (world : Surroundings)
    (argv : List Bytes) :
    kernel.AllOrNothing (kernel.initializeWith world argv) (AnswersArguments world argv) := by
  unfold initializeWith AnswersArguments
  cases hargv : initializeFromArguments world.masterIp world.masterPort argv with
  | error error =>
    refine ⟨h, ?_, ?_, ?_⟩
    · intro other hother
      cases hother
      refine ⟨?_, rfl⟩
      rintro rfl
      exact initialize_not_welcome hargv
    · refine iff_of_false (fun hstarted => by contradiction) ?_
      rintro ⟨_, _, _, _, _, _, hgood, _⟩
      contradiction
    · intro welcome hstarted
      contradiction
  | ok given =>
    obtain ⟨masterIp, masterPort, desiredOwnerId, name⟩ := given
    have hnode := h.allOrNothing world masterIp masterPort desiredOwnerId
    have hsame : ∀ welcome, (∃ ip port desired other, Except.ok (masterIp, masterPort,
          desiredOwnerId, name) = (.ok (ip, port, desired, other) : Except InitError _) ∧
        Answers world ip port desired welcome) ↔
        Answers world masterIp masterPort desiredOwnerId welcome := by
      intro welcome
      constructor
      · rintro ⟨_, _, _, _, hgiven, hanswers⟩
        cases hgiven
        exact hanswers
      · intro hanswers
        exact ⟨_, _, _, _, rfl, hanswers⟩
    simp only [hsame]
    exact hnode

/-- Both forms of `initialize` start a whole node or change nothing, and a connection
that is lost early starts one exactly if all of the welcome has arrived. -/
theorem all_or_nothing (hreach : Reach step unguarded {} kernel) (world : Surroundings) :
    (∀ masterIp masterPort desiredOwnerId, kernel.AllOrNothing
      (kernel.initializeNode world masterIp masterPort desiredOwnerId)
      (Answers world masterIp masterPort desiredOwnerId)) ∧
    (∀ argv, kernel.AllOrNothing (kernel.initializeWith world argv)
      (AnswersArguments world argv)) ∧
    ∀ masterIp masterPort desiredOwnerId welcome bytes more cut,
      (MasterFrame.welcome welcome).Legible world.size →
      (MasterFrame.welcome welcome).frameOf = .ok bytes →
      world.connecting masterIp masterPort (MasterLink.presence world.ourPort desiredOwnerId) =
        .ok ((bytes ++ more).take cut) →
      ((kernel.initializeNode world masterIp masterPort desiredOwnerId).1 = .ok () ↔
        kernel.getOwnerID = .error .notRunning ∧ bytes.length ≤ cut) := by
  have h := whole hreach
  refine ⟨h.allOrNothing world, h.allOrNothing_arguments world, ?_⟩
  intro masterIp masterPort desiredOwnerId welcome bytes more cut hlegible hframe hstream
  rw [(h.allOrNothing world masterIp masterPort desiredOwnerId).started,
    answers_cut_iff hlegible hframe hstream]

theorem all_or_nothing_1000 : ∃ world : Surroundings,
    (initializeWith ({} : KernelInstance Unit) world [[118]]).1 = .ok () ∧
      (initializeWith ({} : KernelInstance Unit) world [[118]]).2.getOwnerID = .ok 1000 := by
  have hlegible : (MasterFrame.welcome ⟨1000, []⟩).Legible 72 := ⟨by decide, by decide⟩
  obtain ⟨bytes, hframe⟩ := MasterFrame.ok_of_fits hlegible.1
  let world : Surroundings := ⟨some [49], some [50], 5000, 72, fun _ _ _ => .ok bytes⟩
  have hanswers : AnswersArguments world [[118]] ⟨1000, []⟩ := by
    refine ⟨[49], [50], kAnyOwner, [118], rfl, bytes, [], rfl, ?_⟩
    rw [← List.append_nil bytes]
    exact MasterLink.readReply_reads hlegible hframe []
  obtain ⟨_, hstarts, _⟩ :=
    all_or_nothing (.refl : Reach step unguarded ({} : KernelInstance Unit) {}) world
  have hstarted := (hstarts [[118]]).started.mpr ⟨rfl, _, hanswers⟩
  exact ⟨world, hstarted, (hstarts [[118]]).owner _ hstarted hanswers⟩

end KernelInstance

end Srnp
