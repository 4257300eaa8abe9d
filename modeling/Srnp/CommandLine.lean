import Srnp.Framing
import Srnp.MetaValue

/-! The two command lines with an owner id in them. A program hands its
arguments to the node, which looks for `--owner-id` anywhere among them; the
viewer takes them as options with a value each. Both read the id with
`std::from_chars`, but the node looks at the error code and the viewer at the
end pointer. -/
namespace Srnp

/-- "--owner-id" -/
def kOwnerIdOption : Bytes := [45, 45, 111, 119, 110, 101, 114, 45, 105, 100]

/-- What the exception says that keeps a server from being constructed: an error
of a socket, or that of a read. -/
inductive StartFailure where
  | socket (what : Bytes)
  | reading (error : ReadError)

inductive InitError where
  /-- "this process already has a running SRNP node" -/
  | alreadyRunning
  /-- "could not reach the master at {}:{} ({})" -/
  | unreachable (masterIp masterPort : Bytes) (failure : StartFailure)
  /-- "the master never sent us an owner id" -/
  | neverWelcomed
  /-- "set SRNP_MASTER_IP and SRNP_MASTER_PORT before starting a node" -/
  | noMaster
  /-- "--owner-id needs a number after it" -/
  | noNumber
  /-- "--owner-id got \"{}\", which is not a number" -/
  | notANumber (value : Bytes)
  /-- "no SRNP node is running. Call initialize() first" -/
  | notRunning

def desiredOwnerId : List Bytes → OwnerId → Except InitError OwnerId
  | [], desired => .ok desired
  | argument :: rest, desired =>
      if argument ≠ kOwnerIdOption then desiredOwnerId rest desired
      else
        match rest.head? with
        | none => .error .noNumber
        | some value =>
            let result := fromCharsInto value desired
            if result.ec ≠ .ok then .error (.notANumber value)
            else desiredOwnerId rest result.value

/-- What `initialize` hands on: the two ends of the master's address, the id and
the name of the node. -/
def initializeFromArguments (masterIp masterPort : Option Bytes) (argv : List Bytes) :
    Except InitError (Bytes × Bytes × OwnerId × Bytes) := do
  match masterIp, masterPort with
  | some ip, some port =>
      let id ← desiredOwnerId argv.tail kAnyOwner
      pure (ip, port, id, argv.headD [115, 114, 110, 112])
  | _, _ => throw .noMaster

namespace Gui

/-- "--master-ip" -/
def kMasterIpOption : Bytes := [45, 45, 109, 97, 115, 116, 101, 114, 45, 105, 112]

/-- "--master-port" -/
def kMasterPortOption : Bytes := [45, 45, 109, 97, 115, 116, 101, 114, 45, 112, 111, 114, 116]

/-- "--help" and "-h" -/
def isHelp (argument : Bytes) : Bool := argument = [45, 45, 104, 101, 108, 112] ∨ argument = [45, 104]

structure Options where
  /-- "127.0.0.1" -/
  masterIp : Bytes := [49, 50, 55, 46, 48, 46, 48, 46, 49]
  /-- "12321" -/
  masterPort : Bytes := [49, 50, 51, 50, 49]
  ownerId : OwnerId := kAnyOwner
deriving DecidableEq

/-- The loop over the arguments. An option that is last asks for help or lacks
its value, and neither gives options. -/
def parseOptions : List Bytes → Options → Option Options
  | [], options => some options
  | [_], _ => none
  | argument :: value :: rest, options =>
      if isHelp argument then none
      else if argument = kMasterIpOption then parseOptions rest { options with masterIp := value }
      else if argument = kMasterPortOption then
        parseOptions rest { options with masterPort := value }
      else if argument = kOwnerIdOption then
        let result := fromCharsInto value options.ownerId
        if result.rest ≠ [] then none
        else parseOptions rest { options with ownerId := result.value }
      else none

def parseArguments (masterIp masterPort : Option Bytes) (argv : List Bytes) : Option Options :=
  let defaults : Options := {}
  parseOptions argv.tail { defaults with
    masterIp := masterIp.getD defaults.masterIp
    masterPort := masterPort.getD defaults.masterPort }

end Gui

/-! ### What is read as an id -/

def ReadsAs (text : Bytes) (id : OwnerId) : Prop :=
  ∃ number rest, Numeral text number rest ∧ InIntRange number ∧ Int32.ofInt number = id

theorem ReadsAs.fromChars {text : Bytes} {id : OwnerId} (h : ReadsAs text id) (desired : OwnerId) :
    (fromCharsInto text desired).ec = .ok ∧ (fromCharsInto text desired).value = id := by
  obtain ⟨number, rest, hnumeral, hrange, rfl⟩ := h
  rw [hnumeral.fromChars, if_pos hrange]
  exact ⟨rfl, rfl⟩

theorem readsAs_of_ok {text : Bytes} {desired : OwnerId} (h : (fromCharsInto text desired).ec = .ok) :
    ReadsAs text (fromCharsInto text desired).value := by
  obtain ⟨number, rest, hnumeral⟩ | hnone := fromCharsInto_cases text
  · rw [hnumeral.fromChars] at h ⊢
    split at h
    · rename_i hrange
      rw [if_pos hrange]
      exact ⟨number, rest, hnumeral, hrange, rfl⟩
    · contradiction
  · rw [hnone] at h
    contradiction

theorem not_readsAs_option {text : Bytes} (h : text.take 2 = [45, 45]) (id : OwnerId) :
    ¬ReadsAs text id := by
  rintro ⟨number, rest, hnumeral, _⟩
  cases hnumeral with
  | @positive digits _ hsome hdigits _ =>
    cases digits with
    | nil => contradiction
    | cons byte digits =>
      have hbyte := hdigits byte List.mem_cons_self
      rw [List.cons_append, List.take_succ_cons] at h
      cases (List.cons.inj h).1
      contradiction
  | @negative digits _ hsome hdigits _ =>
    cases digits with
    | nil => contradiction
    | cons byte digits =>
      have hbyte := hdigits byte List.mem_cons_self
      simp only [List.cons_append, List.take_succ_cons] at h
      cases (List.cons.inj (List.cons.inj h).2).1
      contradiction

/-! ### The node -/

def Numbered (arguments : List Bytes) : Prop :=
  ∀ front back, arguments = front ++ kOwnerIdOption :: back →
    ∃ value tail id, back = value :: tail ∧ ReadsAs value id

def LastNumber (arguments : List Bytes) (desired id : OwnerId) : Prop :=
  (kOwnerIdOption ∉ arguments ∧ id = desired) ∨
    ∃ front value tail, arguments = front ++ kOwnerIdOption :: value :: tail ∧
      kOwnerIdOption ∉ value :: tail ∧ ReadsAs value id

section
variable {argument : Bytes} {rest : List Bytes} {desired id : OwnerId}

theorem numbered_cons (hother : argument ≠ kOwnerIdOption) :
    Numbered (argument :: rest) ↔ Numbered rest := by
  constructor
  · intro h front back heq
    apply h (argument :: front) back
    rw [heq, List.cons_append]
  · intro h front back heq
    cases front with
    | nil => exact absurd (List.cons.inj heq).1 hother
    | cons first front => exact h front back (List.cons.inj heq).2

theorem numbered_option {value : Bytes} {tail : List Bytes} :
    Numbered (kOwnerIdOption :: value :: tail) ↔
      (∃ id, ReadsAs value id) ∧ Numbered (value :: tail) := by
  constructor
  · intro h
    constructor
    · obtain ⟨_, _, id, heq, hreads⟩ := h [] _ rfl
      cases heq
      exact ⟨id, hreads⟩
    · intro front back heq
      apply h (kOwnerIdOption :: front) back
      rw [heq, List.cons_append]
  · rintro ⟨⟨id, hreads⟩, h⟩ front back heq
    cases front with
    | nil =>
      cases heq
      exact ⟨value, tail, id, rfl, hreads⟩
    | cons first front => exact h front back (List.cons.inj heq).2

theorem lastNumber_cons (hother : argument ≠ kOwnerIdOption) :
    LastNumber (argument :: rest) desired id ↔ LastNumber rest desired id := by
  refine or_congr ?_ ?_
  · rw [List.mem_cons, not_or]
    constructor
    · rintro ⟨⟨_, hnone⟩, hid⟩
      exact ⟨hnone, hid⟩
    · rintro ⟨hnone, hid⟩
      exact ⟨⟨fun heq => hother heq.symm, hnone⟩, hid⟩
  · constructor
    · rintro ⟨front, value, tail, heq, hlast, hreads⟩
      cases front with
      | nil => exact absurd (List.cons.inj heq).1 hother
      | cons first front => exact ⟨front, value, tail, (List.cons.inj heq).2, hlast, hreads⟩
    · rintro ⟨front, value, tail, rfl, hlast, hreads⟩
      exact ⟨argument :: front, value, tail, rfl, hlast, hreads⟩

theorem lastNumber_option {value : Bytes} {tail : List Bytes} {read : OwnerId}
    (hread : ReadsAs value read) :
    LastNumber (kOwnerIdOption :: value :: tail) desired id ↔
      LastNumber (value :: tail) read id := by
  have hunique : ∀ id, ReadsAs value id → id = read := by
    intro id hreads
    rw [← (hreads.fromChars desired).2, (hread.fromChars desired).2]
  constructor
  · rintro (⟨hnone, _⟩ | ⟨front, value', tail', heq, hlast, hreads⟩)
    · exact absurd List.mem_cons_self hnone
    · cases front with
      | nil =>
        cases heq
        exact .inl ⟨hlast, hunique id hreads⟩
      | cons first front => exact .inr ⟨front, value', tail', (List.cons.inj heq).2, hlast, hreads⟩
  · rintro (⟨hnone, rfl⟩ | ⟨front, value', tail', heq, hlast, hreads⟩)
    · exact .inr ⟨[], value, tail, rfl, hnone, hread⟩
    · refine .inr ⟨kOwnerIdOption :: front, value', tail', ?_, hlast, hreads⟩
      rw [heq, List.cons_append]

end

theorem desiredOwnerId_option (value : Bytes) (tail : List Bytes) (desired : OwnerId) :
    (∃ read, ReadsAs value read ∧ desiredOwnerId (kOwnerIdOption :: value :: tail) desired =
      desiredOwnerId (value :: tail) read) ∨
    ((∀ id, ¬ReadsAs value id) ∧ desiredOwnerId (kOwnerIdOption :: value :: tail) desired =
      .error (.notANumber value)) := by
  by_cases hok : (fromCharsInto value desired).ec = .ok
  · left
    refine ⟨_, readsAs_of_ok hok, ?_⟩
    rw [desiredOwnerId, if_neg (not_not.mpr rfl)]
    simp only [List.head?_cons, hok, ne_eq, not_true, if_false]
  · right
    refine ⟨fun id hreads => hok (hreads.fromChars desired).1, ?_⟩
    rw [desiredOwnerId, if_neg (not_not.mpr rfl)]
    simp only [List.head?_cons, ne_eq, hok, not_false_eq_true, if_true]

theorem desiredOwnerId_ok_iff (arguments : List Bytes) (desired id : OwnerId) :
    desiredOwnerId arguments desired = .ok id ↔
      Numbered arguments ∧ LastNumber arguments desired id := by
  induction arguments generalizing desired with
  | nil =>
    have hnumbered : Numbered [] := by
      intro front back heq
      simp at heq
    have hlast : LastNumber [] desired id ↔ id = desired := by
      simp [LastNumber]
    rw [hlast, desiredOwnerId, Except.ok.injEq, eq_comm]
    exact (and_iff_right hnumbered).symm
  | cons argument rest ih =>
    by_cases hother : argument = kOwnerIdOption
    · subst hother
      cases rest with
      | nil =>
        refine iff_of_false ?_ ?_
        · intro heq
          contradiction
        · rintro ⟨hnumbered, _⟩
          obtain ⟨value, tail, _, heq, _⟩ := hnumbered [] [] rfl
          contradiction
      | cons value tail =>
        obtain ⟨read, hread, heq⟩ | ⟨hnone, heq⟩ := desiredOwnerId_option value tail desired
        · have hnumber : ∃ id, ReadsAs value id := ⟨read, hread⟩
          rw [heq, ih, numbered_option, lastNumber_option hread, and_iff_right hnumber]
        · rw [heq, numbered_option]
          refine iff_of_false ?_ ?_
          · intro herror
            contradiction
          · rintro ⟨⟨⟨id, hreads⟩, _⟩, _⟩
            exact hnone id hreads
    · rw [desiredOwnerId, if_pos hother, ih, numbered_cons hother, lastNumber_cons hother]

theorem initializeFromArguments_ok_iff (masterIp masterPort : Option Bytes) (argv : List Bytes)
    (ip port name : Bytes) (id : OwnerId) :
    initializeFromArguments masterIp masterPort argv = .ok (ip, port, id, name) ↔
      masterIp = some ip ∧ masterPort = some port ∧ name = argv.headD [115, 114, 110, 112] ∧
        desiredOwnerId argv.tail kAnyOwner = .ok id := by
  unfold initializeFromArguments
  cases masterIp with
  | none =>
    refine iff_of_false ?_ ?_
    · intro herror
      contradiction
    · rintro ⟨hip, _⟩
      contradiction
  | some masterIp =>
    cases masterPort with
    | none =>
      refine iff_of_false ?_ ?_
      · intro herror
        contradiction
      · rintro ⟨_, hport, _⟩
        contradiction
    | some masterPort =>
      cases hdesired : desiredOwnerId argv.tail kAnyOwner with
      | error error =>
        refine iff_of_false ?_ ?_
        · intro herror
          contradiction
        · rintro ⟨_, _, _, hok⟩
          contradiction
      | ok read =>
        change (Except.ok (masterIp, masterPort, read, argv.headD [115, 114, 110, 112]) :
          Except InitError _) = _ ↔ _
        simp only [Except.ok.injEq, Prod.mk.injEq, Option.some_inj]
        constructor
        · rintro ⟨rfl, rfl, rfl, rfl⟩
          exact ⟨rfl, rfl, rfl, rfl⟩
        · rintro ⟨rfl, rfl, rfl, rfl⟩
          exact ⟨rfl, rfl, rfl, rfl⟩

/-- A node starts with these arguments exactly if the master's address is set and
each `--owner-id` has a number after it that is an `int`, whatever follows the
number. It asks for the last of them. -/
theorem initialize_accepts_iff (masterIp masterPort : Option Bytes) (argv : List Bytes)
    (ip port name : Bytes) (id : OwnerId) :
    initializeFromArguments masterIp masterPort argv = .ok (ip, port, id, name) ↔
      masterIp = some ip ∧ masterPort = some port ∧ name = argv.headD [115, 114, 110, 112] ∧
        Numbered argv.tail ∧ LastNumber argv.tail kAnyOwner id := by
  rw [initializeFromArguments_ok_iff, desiredOwnerId_ok_iff]

theorem desiredOwnerId_not_welcome (arguments : List Bytes) (desired : OwnerId) :
    desiredOwnerId arguments desired ≠ .error .neverWelcomed := by
  induction arguments generalizing desired with
  | nil =>
    intro h
    cases h
  | cons argument rest ih =>
    unfold desiredOwnerId
    split
    · exact ih desired
    split
    · intro h
      cases h
    dsimp only
    split
    · intro h
      cases h
    · exact ih _

theorem initialize_not_welcome {masterIp masterPort : Option Bytes} {argv : List Bytes} :
    initializeFromArguments masterIp masterPort argv ≠ .error .neverWelcomed := by
  unfold initializeFromArguments
  split
  · intro h
    cases hdesired : desiredOwnerId argv.tail kAnyOwner with
    | error error =>
      rw [hdesired] at h
      cases h
      exact desiredOwnerId_not_welcome _ _ hdesired
    | ok id =>
      rw [hdesired] at h
      contradiction
  · intro h
    cases h

/-! ### The viewer -/

namespace Gui

def settings : List Bytes → List (Bytes × Bytes)
  | argument :: value :: rest => (argument, value) :: settings rest
  | _ => []

def Shared (setting : Bytes × Bytes) : Prop :=
  setting.2 ≠ kOwnerIdOption ∧ (setting.1 = kOwnerIdOption → ∃ id, ReadsAs setting.2 id)

theorem parseOptions_cons {argument value : Bytes} {rest : List Bytes} {options read : Options}
    (h : parseOptions (argument :: value :: rest) options = some read) :
    argument.take 2 = [45, 45] ∧ ∃ next, parseOptions rest next = some read ∧
      (argument ≠ kOwnerIdOption → next.ownerId = options.ownerId) ∧
      (argument = kOwnerIdOption → (fromCharsInto value options.ownerId).rest = [] ∧
        next.ownerId = (fromCharsInto value options.ownerId).value) := by
  rw [parseOptions] at h
  split at h
  · contradiction
  split at h
  · rename_i hip
    subst hip
    refine ⟨rfl, _, h, fun _ => rfl, fun hoption => ?_⟩
    exact absurd hoption (by decide)
  split at h
  · rename_i hport
    subst hport
    refine ⟨rfl, _, h, fun _ => rfl, fun hoption => ?_⟩
    exact absurd hoption (by decide)
  split at h
  · rename_i hoption
    subst hoption
    dsimp only at h
    split at h
    · contradiction
    · rename_i hrest
      exact ⟨rfl, _, h, fun hother => absurd rfl hother, fun _ => ⟨not_not.mp hrest, rfl⟩⟩
  · contradiction

theorem head_option {arguments : List Bytes} {options read : Options}
    (h : parseOptions arguments options = some read) (id : OwnerId) (value : Bytes)
    (hvalue : arguments.head? = some value) : ¬ReadsAs value id := by
  match arguments with
  | [] => contradiction
  | [_] => contradiction
  | argument :: _ :: _ =>
    cases Option.some.inj hvalue
    exact not_readsAs_option (parseOptions_cons h).1 id

end Gui

theorem desired_agrees {arguments : List Bytes} {options read : Gui.Options}
    (h : Gui.parseOptions arguments options = some read) :
    ((∃ id, desiredOwnerId arguments options.ownerId = .ok id) ↔
      ∀ setting ∈ Gui.settings arguments, Gui.Shared setting) ∧
    ∀ id, desiredOwnerId arguments options.ownerId = .ok id → id = read.ownerId := by
  induction arguments using Gui.settings.induct generalizing options with
  | case1 argument value rest ih =>
    obtain ⟨_, next, hnext, hkept, hread⟩ := Gui.parseOptions_cons h
    obtain ⟨hrest, hsame⟩ := ih hnext
    rw [Gui.settings, List.forall_mem_cons]
    by_cases hoption : argument = kOwnerIdOption
    · subst hoption
      obtain ⟨_, hvalue⟩ := hread rfl
      obtain ⟨number, hreads, heq⟩ | ⟨hnone, heq⟩ :=
        desiredOwnerId_option value rest options.ownerId
      · have hother : value ≠ kOwnerIdOption := by
          rintro rfl
          exact not_readsAs_option rfl number hreads
        have hnumber : number = next.ownerId := by
          rw [hvalue, (hreads.fromChars options.ownerId).2]
        have hshared : Gui.Shared (kOwnerIdOption, value) := ⟨hother, fun _ => ⟨number, hreads⟩⟩
        rw [heq, desiredOwnerId, if_pos hother, hnumber, and_iff_right hshared]
        exact ⟨hrest, hsame⟩
      · rw [heq]
        refine ⟨iff_of_false ?_ ?_, ?_⟩
        · rintro ⟨id, herror⟩
          contradiction
        · rintro ⟨⟨_, hnumber⟩, _⟩
          obtain ⟨id, hreads⟩ := hnumber rfl
          exact hnone id hreads
        · intro id herror
          contradiction
    · rw [desiredOwnerId, if_pos hoption]
      by_cases hvalue : value = kOwnerIdOption
      · -- The node takes the value for an option, and what comes next is none of its numbers.
        have hfails : ∀ id, desiredOwnerId (value :: rest) options.ownerId ≠ .ok id := by
          intro id hok
          obtain ⟨hnumbered, _⟩ := (desiredOwnerId_ok_iff _ _ _).mp hok
          obtain ⟨following, tail, number, rfl, hreads⟩ := hnumbered [] rest (by rw [hvalue]; rfl)
          exact Gui.head_option hnext number following rfl hreads
        refine ⟨iff_of_false ?_ ?_, fun id hok => absurd hok (hfails id)⟩
        · rintro ⟨id, hok⟩
          exact hfails id hok
        · rintro ⟨⟨hother, _⟩, _⟩
          exact hother hvalue
      · have hshared : Gui.Shared (argument, value) :=
          ⟨hvalue, fun heq => absurd heq hoption⟩
        rw [desiredOwnerId, if_pos hvalue, ← hkept hoption, and_iff_right hshared]
        exact ⟨hrest, hsame⟩
  | case2 arguments hother =>
    match arguments with
    | [] =>
      cases Option.some.inj h
      refine ⟨iff_of_true ⟨_, rfl⟩ ?_, ?_⟩
      · intro setting hsetting
        simp [Gui.settings] at hsetting
      · intro id hok
        cases hok
        rfl
    | [_] => contradiction
    | argument :: value :: rest => exact absurd rfl (hother argument value rest)

/-- Of arguments that the viewer takes, a node takes those that have an `int`
after each `--owner-id` and no value that is called `--owner-id`; and then both
have read the same id. -/
theorem owner_ids_agree {masterIp masterPort : Bytes} {argv : List Bytes} {read : Gui.Options}
    (h : Gui.parseArguments masterIp masterPort argv = some read) :
    ((∃ result, initializeFromArguments masterIp masterPort argv = .ok result) ↔
      ∀ setting ∈ Gui.settings argv.tail, Gui.Shared setting) ∧
    ∀ ip port id name, initializeFromArguments masterIp masterPort argv = .ok (ip, port, id, name) →
      id = read.ownerId := by
  obtain ⟨hiff, hsame⟩ := desired_agrees h
  constructor
  · rw [← hiff]
    constructor
    · rintro ⟨⟨ip, port, id, name⟩, hok⟩
      obtain ⟨_, _, _, hread⟩ := (initializeFromArguments_ok_iff _ _ _ _ _ _ _).mp hok
      exact ⟨id, hread⟩
    · rintro ⟨id, hid⟩
      exact ⟨_, (initializeFromArguments_ok_iff _ _ _ _ _ _ _).mpr ⟨rfl, rfl, rfl, hid⟩⟩
  · intro ip port id name hok
    obtain ⟨_, _, _, hread⟩ := (initializeFromArguments_ok_iff _ _ _ _ _ _ _).mp hok
    exact hsame id hread

/-- `viewer --owner-id 12 --master-ip 1`, with an address of two digits in the environment. -/
theorem owner_ids_agree_12 : ∃ ip port name,
    initializeFromArguments (some [48]) (some [49])
      [[118], kOwnerIdOption, [49, 50], Gui.kMasterIpOption, [49]] = .ok (ip, port, 12, name) := by
  have h : Gui.parseArguments (some [48]) (some [49])
      [[118], kOwnerIdOption, [49, 50], Gui.kMasterIpOption, [49]] =
      some ⟨[49], [49], 12⟩ := by
    decide
  obtain ⟨hiff, hsame⟩ := owner_ids_agree h
  have hshared : ∀ setting ∈ Gui.settings [kOwnerIdOption, [49, 50], Gui.kMasterIpOption, [49]],
      Gui.Shared setting := by
    intro setting hsetting
    simp only [Gui.settings, List.mem_cons, List.not_mem_nil, or_false] at hsetting
    obtain rfl | rfl := hsetting
    · exact ⟨by decide, fun _ => ⟨12, @readsAs_of_ok [49, 50] 0 rfl⟩⟩
    · exact ⟨by decide, fun heq => absurd heq (by decide)⟩
  obtain ⟨⟨ip, port, id, name⟩, hok⟩ := hiff.mpr hshared
  cases hsame ip port id name hok
  exact ⟨ip, port, name, hok⟩

end Srnp
