import Srnp.MasterLink
import Srnp.OwnerIds

/-! The master run by one thread, and the components at the other ends of its
links. A component that has heard all that was sent to it knows of everyone on
the map but itself: it was welcomed with those who were there, and told of each
change since. One registration escapes, that of a component which takes the id
that stands for none and then cannot be announced. A welcome that lists more
components than its reader takes for plausible is not understood. -/
namespace Srnp
open Std Transition LastWrite

namespace MasterHub
variable {draw : UInt32 → OwnerId} {hub joined after : MasterHub} {number : Nat}

/-- `introduce`, with the end of `run` at once where something was thrown: the
thread takes up nothing else in between. -/
def register (hub : MasterHub) (draw : UInt32 → OwnerId) (address : Nat → Bytes) (number : Nat)
    (presence : IndicatePresence) : Option MasterHub := do
  let joined ← hub.step draw (.introduce number presence address)
  pure (if (joined.links number).phase = .leaving then joined.finish number else joined)

end MasterHub

structure MembershipRun (F : Type) where
  hub : MasterHub
  /-- The far ends of the links. -/
  links : Nat → MasterLink F
  /-- How many frames each of them has heard. -/
  heard : Nat → Nat

inductive MembershipAction where
  | register (number : Nat) (presence : IndicatePresence) (address : Nat → Bytes)
  | disconnect (number : Nat)
  | hear (number : Nat)

namespace MembershipRun
variable {F : Type}

def initial (masterIp : Nat → Bytes) : MembershipRun F :=
  ⟨.initial, fun number => .initial (masterIp number), fun _ => 0⟩

def inFlight (run : MembershipRun F) (number : Nat) : List MasterFrame :=
  (run.hub.links number).sent.drop (run.heard number)

def step (draw : UInt32 → OwnerId) (size : Nat) (run : MembershipRun F) :
    MembershipAction → Option (MembershipRun F)
  | .register number presence address =>
      (run.hub.register draw address number presence).map fun hub => { run with hub }
  | .disconnect number => (run.hub.step draw (.finish number)).map fun hub => { run with hub }
  | .hear number =>
      match run.inFlight number with
      | [] => none
      | message :: _ =>
          match (run.links number).hearAll size [message] with
          | .error _ => none
          | .ok link => some { run with
              links := Function.update run.links number link
              heard := Function.update run.heard number (run.heard number + 1) }

/-- A component that takes the id that stands for none can be announced, and a
welcome that is sent lists no more components than its reader allows. -/
def Announced (size : Nat) (run : MembershipRun F) : MembershipAction → Prop
  | .register number presence address =>
      (run.hub.TakesAny presence → run.hub.announces address number presence kAnyOwner) ∧
      ∀ owner, run.hub.announces address number presence owner →
        run.hub.sessions.size ≤ Wire.kMaxPayload / size
  | _ => True

end MembershipRun

/-! ### What a link says -/

/-- A link whose frames come as they should and leave `known` on the roster. -/
structure Conveys (size : Nat) (frames : List MasterFrame) (known : OwnerId → Prop) : Prop where
  orderly : Orderly size frames
  known : ∀ id, roster frames id = some () ↔ known id

section
variable {size : Nat} {frames : List MasterFrame} {known : OwnerId → Prop}

theorem roster_append (message : MasterFrame) :
    roster (frames ++ [message]) = (roster frames).replay message.news := by
  rw [roster, List.flatMap_append, Store.replay_append, List.flatMap_singleton]
  rfl

theorem Conveys.congr (h : Conveys size frames known) {others : OwnerId → Prop}
    (heq : ∀ id, known id ↔ others id) : Conveys size frames others :=
  ⟨h.orderly, fun id => (h.known id).trans (heq id)⟩

theorem Conveys.add (h : Conveys size frames known) {info : ComponentInfo}
    (hfits : (MasterFrame.update ⟨.add, info⟩).fits) :
    Conveys size (frames ++ [.update ⟨.add, info⟩]) fun id => id = info.owner ∨ known id := by
  refine ⟨h.orderly.append hfits, ?_⟩
  intro id
  rw [roster_append, ← h.known id]
  change (roster frames).apply (.put info.owner ()) id = some () ↔ _
  rw [Store.apply_put_eq]
  split
  · rename_i heq
    exact ⟨fun _ => .inl heq.symm, fun _ => rfl⟩
  · rename_i hne
    exact ⟨.inr, fun hor => hor.resolve_left (Ne.symm hne)⟩

theorem Conveys.remove (h : Conveys size frames known) (owner : OwnerId) :
    Conveys size (frames ++ [.update ⟨.remove, ⟨owner, [], []⟩⟩])
      fun id => id ≠ owner ∧ known id := by
  refine ⟨h.orderly.append (remove_fits owner), ?_⟩
  intro id
  rw [roster_append, ← h.known id]
  change (roster frames).apply (.remove owner) id = some () ↔ _
  rw [Store.apply_remove_eq]
  split
  · rename_i heq
    exact ⟨nofun, fun hand => absurd heq.symm hand.1⟩
  · rename_i hne
    exact ⟨fun hknown => ⟨Ne.symm hne, hknown⟩, And.right⟩

end

namespace MasterHub
variable {draw : UInt32 → OwnerId} {hub joined after : MasterHub} {number other : Nat}
variable {size : Nat} {address : Nat → Bytes} {presence : IndicatePresence} {owner : OwnerId}

theorem owners_everyone (hub : MasterHub) (address : Nat → Bytes) :
    (hub.everyone address).map (·.owner) = hub.sessions.keys := by
  rw [everyone, List.map_map, ← ExtTreeMap.map_fst_toList_eq_keys]
  rfl

theorem conveys_welcome (hfits : (hub.welcomeOf address owner).fits)
    (hfew : hub.sessions.size ≤ Wire.kMaxPayload / size) :
    Conveys size [hub.welcomeOf address owner] fun id => id ∈ hub.sessions := by
  refine ⟨⟨⟨owner, hub.everyone address⟩, [], rfl, ?_⟩, ?_⟩
  · intro message hmem
    cases List.mem_singleton.mp hmem
    refine ⟨hfits, ?_⟩
    rw [everyone, List.length_map, ExtTreeMap.length_toList]
    exact hfew
  · intro id
    have hnews : (hub.welcomeOf address owner).news =
        hub.sessions.keys.map fun put => .put put () := by
      rw [← owners_everyone hub address, List.map_map]
      rfl
    rw [roster, List.flatMap_singleton, hnews, Store.replay_puts]
    simp [ExtTreeMap.mem_keys]

theorem Introduced.mem_sessions (h : hub.Introduced draw address number presence owner after)
    (id : OwnerId) : id ∈ after.sessions ↔ id = owner ∨ id ∈ hub.sessions := by
  rw [ExtTreeMap.mem_iff_isSome_getElem?, ExtTreeMap.mem_iff_isSome_getElem?, h.sessions]
  by_cases heq : owner = id
  · simp [heq]
  · rw [if_neg heq]
    simp [Ne.symm heq]

theorem Finished.mem_sessions (h : hub.Finished number after) (id : OwnerId) :
    id ∈ after.sessions ↔
      ¬ ((hub.links number).owner ≠ kAnyOwner ∧ (hub.links number).owner = id) ∧
        id ∈ hub.sessions := by
  rw [ExtTreeMap.mem_iff_isSome_getElem?, ExtTreeMap.mem_iff_isSome_getElem?, h.sessions]
  split
  · rename_i hgone
    exact ⟨nofun, fun hand => absurd hgone hand.1⟩
  · rename_i hkept
    simp only [hkept, not_false_eq_true, true_and]

theorem Finished.conveys (h : hub.Finished number after) (hexact : hub.Exact)
    (hopen : (hub.links number).phase ≠ .done) (hother : other ≠ number)
    (hserving : (hub.links other).phase = .serving) {known : OwnerId → Prop}
    (hconveys : Conveys size (hub.links other).sent known) :
    Conveys size (after.links other).sent fun id =>
      ¬ ((hub.links number).owner ≠ kAnyOwner ∧ (hub.links number).owner = id) ∧ known id := by
  rw [h.others other hother]
  dsimp only
  by_cases howner : (hub.links number).owner = kAnyOwner
  · rw [if_neg fun hne => hne.1 howner, List.append_nil]
    refine hconveys.congr ?_
    intro id
    simp [howner]
  · have hfind := hexact.present other (.inl hserving)
    have hdistinct : (hub.links other).owner ≠ (hub.links number).owner := by
      intro heq
      have hself := hexact.open_present hopen howner
      rw [← heq, hfind] at hself
      exact hother (Option.some.inj hself)
    rw [if_pos ⟨howner, hfind, hdistinct⟩]
    refine (hconveys.remove _).congr ?_
    intro id
    simp only [ne_eq, howner, not_false_eq_true, true_and, eq_comm]

/-! ### Every link conveys the map -/

/-- Everyone registered was welcomed first, and every open link conveys who
else there is. -/
structure Agreed (size : Nat) (hub : MasterHub) : Prop where
  sound : hub.Exact
  settled : ∀ number, (hub.links number).phase ≠ .leaving
  opened : ∀ (id : OwnerId) number, hub.sessions[id]? = some number →
    ∃ welcome rest, (hub.links number).sent = .welcome welcome :: rest
  conveys : ∀ number, (hub.links number).phase = .serving →
    Conveys size (hub.links number).sent fun id =>
      id ∈ hub.sessions ∧ id ≠ (hub.links number).owner

theorem Agreed.initial : Agreed size initial where
  sound := .initial
  settled number h := by cases h
  opened id number h := by simp [MasterHub.initial] at h
  conveys number h := by cases h

theorem Agreed.announced (h : hub.Agreed size) (hgreeting : (hub.links number).phase = .greeting)
    (hjoin : hub.Introduced draw address number presence owner after)
    (hannounces : hub.announces address number presence owner)
    (hfew : hub.sessions.size ≤ Wire.kMaxPayload / size) : after.Agreed size := by
  obtain ⟨hwelcome, hadd⟩ := Bool.and_eq_true_iff.mp hannounces
  have hself := hjoin.self
  rw [(h.sound.greeting number hgreeting).2, if_pos hannounces, if_pos hwelcome,
    List.nil_append] at hself
  refine ⟨h.sound.introduced hgreeting hjoin, ?_, ?_, ?_⟩
  · intro other hleaving
    by_cases heq : other = number
    · subst heq
      rw [hself] at hleaving
      contradiction
    · rw [(hjoin.kept heq).2] at hleaving
      exact h.settled other hleaving
  · intro id other hfind
    by_cases heq : other = number
    · subst heq
      rw [hself]
      exact ⟨_, _, rfl⟩
    · rw [hjoin.sessions] at hfind
      split at hfind
      · exact absurd (Option.some.inj hfind).symm heq
      · obtain ⟨welcome, rest, hsent⟩ := h.opened id other hfind
        rw [hjoin.others other heq]
        dsimp only
        rw [hsent]
        exact ⟨_, _, rfl⟩
  · intro other hserving
    by_cases heq : other = number
    · subst heq
      rw [hself]
      refine (conveys_welcome hwelcome hfew).congr ?_
      intro id
      rw [hjoin.mem_sessions]
      constructor
      · intro hmem
        refine ⟨.inr hmem, ?_⟩
        rintro rfl
        exact hjoin.fresh hmem
      · rintro ⟨hmem, hother⟩
        exact hmem.resolve_left hother
    · rw [(hjoin.kept heq).2] at hserving
      have hfind := h.sound.present other (.inl hserving)
      have howner : (hub.links other).owner ≠ owner := by
        rintro rfl
        exact hjoin.fresh (ExtTreeMap.getElem?_eq_some_iff.mp hfind).1
      rw [(hjoin.kept heq).1, hjoin.others other heq]
      dsimp only
      rw [if_pos ⟨hannounces, hfind⟩]
      refine ((h.conveys other hserving).add hadd).congr ?_
      intro id
      rw [hjoin.mem_sessions]
      constructor
      · rintro (rfl | ⟨hmem, hother⟩)
        · exact ⟨.inl rfl, Ne.symm howner⟩
        · exact ⟨.inr hmem, hother⟩
      · rintro ⟨rfl | hmem, hother⟩
        · exact .inl rfl
        · exact .inr ⟨hmem, hother⟩

theorem Agreed.finished (h : hub.Agreed size) (hopen : (hub.links number).phase ≠ .done)
    (hfinish : hub.Finished number after) : after.Agreed size := by
  have hdone : (after.links number).phase = .done := by rw [hfinish.self]
  refine ⟨h.sound.finished hopen hfinish, ?_, ?_, ?_⟩
  · intro other hleaving
    by_cases heq : other = number
    · subst heq
      rw [hdone] at hleaving
      contradiction
    · rw [(hfinish.kept other).2 heq] at hleaving
      exact h.settled other hleaving
  · intro id other hfind
    rw [hfinish.sessions] at hfind
    split at hfind
    · contradiction
    · obtain ⟨welcome, rest, hsent⟩ := h.opened id other hfind
      by_cases heq : other = number
      · subst heq
        rw [hfinish.self]
        exact ⟨welcome, rest, hsent⟩
      · rw [hfinish.others other heq]
        dsimp only
        rw [hsent]
        exact ⟨_, _, rfl⟩
  · intro other hserving
    have heq : other ≠ number := by
      rintro rfl
      rw [hdone] at hserving
      contradiction
    rw [(hfinish.kept other).2 heq] at hserving
    refine (hfinish.conveys h.sound hopen heq hserving (h.conveys other hserving)).congr ?_
    intro id
    rw [hfinish.mem_sessions, (hfinish.kept other).1, and_assoc]

/-- A component that is not announced is off the map again at once, and the
others, who were never told of it, are told that it left. -/
theorem Agreed.unannounced (h : hub.Agreed size)
    (hgreeting : (hub.links number).phase = .greeting)
    (hjoin : hub.Introduced draw address number presence owner joined)
    (hsilent : hub.announces address number presence owner = false)
    (howner : owner ≠ kAnyOwner) (hfinish : joined.Finished number after) :
    after.Agreed size := by
  have hjoined := h.sound.introduced hgreeting hjoin
  have hself : (joined.links number).owner = owner ∧ (joined.links number).phase = .leaving := by
    rw [hjoin.self, hsilent]
    exact ⟨rfl, rfl⟩
  have hopen : (joined.links number).phase ≠ .done := by
    rw [hself.2]
    exact nofun
  have hquiet : ∀ other, other ≠ number → joined.links other = hub.links other := by
    intro other hother
    rw [hjoin.others other hother, hsilent]
    simp
  have hback : ∀ id : OwnerId, after.sessions[id]? = hub.sessions[id]? := by
    intro id
    rw [hfinish.sessions, hself.1, hjoin.sessions]
    by_cases heq : owner = id
    · subst heq
      rw [if_pos ⟨howner, rfl⟩]
      exact (ExtTreeMap.getElem?_eq_none hjoin.fresh).symm
    · rw [if_neg fun hand => heq hand.2, if_neg heq]
  have hmem : ∀ id : OwnerId, id ∈ after.sessions ↔ id ∈ hub.sessions := by
    intro id
    rw [ExtTreeMap.mem_iff_isSome_getElem?, ExtTreeMap.mem_iff_isSome_getElem?, hback]
  have hdone : (after.links number).phase = .done := by rw [hfinish.self]
  refine ⟨hjoined.finished hopen hfinish, ?_, ?_, ?_⟩
  · intro other hleaving
    by_cases heq : other = number
    · subst heq
      rw [hdone] at hleaving
      contradiction
    · rw [(hfinish.kept other).2 heq, hquiet other heq] at hleaving
      exact h.settled other hleaving
  · intro id other hfind
    rw [hback] at hfind
    have heq : other ≠ number := by
      rintro rfl
      exact (h.sound.stored id other hfind).2 hgreeting
    obtain ⟨welcome, rest, hsent⟩ := h.opened id other hfind
    rw [hfinish.others other heq, hquiet other heq]
    dsimp only
    rw [hsent]
    exact ⟨_, _, rfl⟩
  · intro other hserving
    have heq : other ≠ number := by
      rintro rfl
      rw [hdone] at hserving
      contradiction
    rw [(hfinish.kept other).2 heq] at hserving
    have hbefore := hserving
    rw [hquiet other heq] at hbefore
    have hconveys := h.conveys other hbefore
    rw [← hquiet other heq] at hconveys
    refine (hfinish.conveys hjoined hopen heq hserving hconveys).congr ?_
    intro id
    rw [hmem, (hfinish.kept other).1, hself.1]
    constructor
    · exact And.right
    · rintro ⟨hthere, hother⟩
      refine ⟨?_, hthere, hother⟩
      rintro ⟨_, rfl⟩
      exact hjoin.fresh hthere

theorem Introduced.sent_grows (h : hub.Introduced draw address number presence owner after)
    (other : Nat) : (hub.links other).sent <+: (after.links other).sent := by
  by_cases heq : other = number
  · subst heq
    rw [h.self]
    exact List.prefix_append _ _
  · rw [h.others other heq]
    exact List.prefix_append _ _

theorem Finished.sent_grows (h : hub.Finished number after) (other : Nat) :
    (hub.links other).sent <+: (after.links other).sent := by
  by_cases heq : other = number
  · subst heq
    rw [h.self]
  · rw [h.others other heq]
    exact List.prefix_append _ _

theorem Agreed.register (h : hub.Agreed size) (hrange : InRange draw)
    (hany : hub.TakesAny presence → hub.announces address number presence kAnyOwner)
    (hfew : ∀ owner, hub.announces address number presence owner →
      hub.sessions.size ≤ Wire.kMaxPayload / size)
    (hstep : hub.register draw address number presence = some after) :
    after.Agreed size ∧ ∀ other, (hub.links other).sent <+: (after.links other).sent := by
  obtain ⟨joined, hjoin, hafter⟩ := Option.bind_eq_some_iff.mp hstep
  cases Option.some.inj hafter
  have hjoined := h.sound.preserved hjoin
  obtain ⟨_, _, _, owner, heq, hgreeting, hintroduced⟩ | ⟨_, heq, _⟩ := step_cases h.sound hjoin
  · cases heq
    by_cases hannounces : hub.announces address number presence owner
    · have hserving : (joined.links number).phase ≠ .leaving := by
        rw [hintroduced.self, if_pos hannounces]
        exact nofun
      rw [if_neg hserving]
      exact ⟨h.announced hgreeting hintroduced hannounces (hfew owner hannounces),
        hintroduced.sent_grows⟩
    · have hleaving : (joined.links number).phase = .leaving := by
        rw [hintroduced.self, if_neg hannounces]
      have howner : owner ≠ kAnyOwner := by
        rintro rfl
        exact hannounces (hany ((hintroduced.takesAny_iff hrange).mpr rfl))
      have hfinish := finish_spec hjoined.filed number
      rw [if_pos hleaving]
      exact ⟨h.unannounced hgreeting hintroduced (Bool.eq_false_iff.mpr hannounces) howner hfinish,
        fun other => (hintroduced.sent_grows other).trans (hfinish.sent_grows other)⟩
  · cases heq

theorem Agreed.disconnect (h : hub.Agreed size)
    (hstep : hub.step draw (.finish number) = some after) :
    after.Agreed size ∧ ∀ other, (hub.links other).sent <+: (after.links other).sent := by
  obtain ⟨_, _, _, _, heq, _⟩ | ⟨_, heq, hopen, hfinish⟩ := step_cases h.sound hstep
  · cases heq
  · cases heq
    exact ⟨h.finished hopen hfinish, hfinish.sent_grows⟩

end MasterHub

/-! ### Every component follows -/

namespace MembershipRun
variable {F : Type} {draw : UInt32 → OwnerId} {size : Nat} {masterIp : Nat → Bytes}
variable {run after : MembershipRun F} {number : Nat}

structure Following (size : Nat) (masterIp : Nat → Bytes) (run : MembershipRun F) : Prop where
  agreed : run.hub.Agreed size
  heard : ∀ number, run.heard number ≤ (run.hub.links number).sent.length
  links : ∀ number, (MasterLink.initial (masterIp number)).hearAll size
    ((run.hub.links number).sent.take (run.heard number)) = .ok (run.links number)

theorem Following.initial : (initial masterIp : MembershipRun F).Following size masterIp where
  agreed := .initial
  heard _ := Nat.zero_le _
  links _ := rfl

theorem Following.grow (h : run.Following size masterIp) {hub : MasterHub}
    (hagreed : hub.Agreed size)
    (hgrows : ∀ number, (run.hub.links number).sent <+: (hub.links number).sent) :
    ({ run with hub } : MembershipRun F).Following size masterIp where
  agreed := hagreed
  heard number := (h.heard number).trans (hgrows number).length_le
  links number := by
    obtain ⟨more, hmore⟩ := hgrows number
    have htake : (hub.links number).sent.take (run.heard number) =
        (run.hub.links number).sent.take (run.heard number) := by
      rw [← hmore, List.take_append_of_le_length (h.heard number)]
    dsimp only
    rw [htake]
    exact h.links number

theorem Following.hear (h : run.Following size masterIp)
    (hstep : run.step draw size (.hear number) = some after) :
    after.Following size masterIp := by
  simp only [step] at hstep
  split at hstep
  · contradiction
  · rename_i message rest hflight
    split at hstep
    · contradiction
    · rename_i link hlink
      cases Option.some.inj hstep
      have hnext : (run.hub.links number).sent.take (run.heard number + 1) =
          (run.hub.links number).sent.take (run.heard number) ++ [message] := by
        rw [List.take_add]
        change _ ++ (run.inFlight number).take 1 = _
        rw [hflight]
        rfl
      have hroom : run.heard number < (run.hub.links number).sent.length := by
        apply Nat.lt_of_not_le
        intro hall
        have hnone : run.inFlight number = [] := List.drop_eq_nil_of_le hall
        rw [hflight] at hnone
        contradiction
      refine ⟨h.agreed, ?_, ?_⟩
      · intro other
        by_cases heq : other = number
        · subst heq
          simp only [Function.update_self]
          exact hroom
        · simp only [Function.update_of_ne heq]
          exact h.heard other
      · intro other
        by_cases heq : other = number
        · subst heq
          simp only [Function.update_self]
          rw [hnext, MasterLink.hearAll_append, h.links other]
          exact hlink
        · simp only [Function.update_of_ne heq]
          exact h.links other

theorem Following.step (h : run.Following size masterIp) (hrange : MasterHub.InRange draw)
    {action : MembershipAction} (hguard : run.Announced size action)
    (hstep : run.step draw size action = some after) : after.Following size masterIp := by
  cases action with
  | register number presence address =>
    obtain ⟨hub, hhub, rfl⟩ := Option.map_eq_some_iff.mp hstep
    obtain ⟨hagreed, hgrows⟩ := h.agreed.register hrange hguard.1 hguard.2 hhub
    exact h.grow hagreed hgrows
  | disconnect number =>
    obtain ⟨hub, hhub, rfl⟩ := Option.map_eq_some_iff.mp hstep
    obtain ⟨hagreed, hgrows⟩ := h.agreed.disconnect hhub
    exact h.grow hagreed hgrows
  | hear number => exact h.hear hstep

/-- What is in flight to an open link brings the component up to the map. -/
theorem Following.catches_up (h : run.Following size masterIp)
    (hserving : (run.hub.links number).phase = .serving) :
    ∃ link, (run.links number).hearAll size (run.inFlight number) = .ok link ∧
      ∀ id, id ∈ link.client.components ↔
        id ∈ run.hub.sessions ∧ id ≠ (run.hub.links number).owner := by
  have hconveys := h.agreed.conveys number hserving
  obtain ⟨link, hlink, hroster⟩ :=
    (MasterLink.hearAll_orderly hconveys.orderly rfl :
      ∃ link, (MasterLink.initial (F := F) (masterIp number)).hearAll size
        (run.hub.links number).sent = .ok link ∧ _)
  refine ⟨link, ?_, ?_⟩
  · rw [← List.take_append_drop (run.heard number) (run.hub.links number).sent,
      MasterLink.hearAll_append, h.links number] at hlink
    exact hlink
  · intro id
    rw [← Component.roster_eq_some, hroster, ← hconveys.known id]
    rfl

theorem membership_agrees (hrange : MasterHub.InRange draw)
    (hreach : Reach (step draw size) (Announced size) (initial masterIp) run) {owner : OwnerId}
    (hfind : run.hub.sessions[owner]? = some number) :
    (∃ components, (run.hub.links number).sent.head? = some (.welcome ⟨owner, components⟩)) ∧
    ((run.hub.links number).phase = .serving →
      ∃ link, (run.links number).hearAll size (run.inFlight number) = .ok link ∧
        ∀ id, id ∈ link.client.components ↔ id ∈ run.hub.sessions ∧ id ≠ owner) := by
  have hfollowing : run.Following size masterIp :=
    hreach.invariant .initial fun _ _ _ h hguard hstep => h.step hrange hguard hstep
  have howner := hfollowing.agreed.sound.filed owner number hfind
  refine ⟨?_, ?_⟩
  · obtain ⟨⟨id, components⟩, rest, hsent⟩ := hfollowing.agreed.opened owner number hfind
    have hid := hfollowing.agreed.sound.welcomed number ⟨id, components⟩
      (by rw [hsent]; exact List.mem_cons_self)
    cases hid.trans howner
    rw [hsent]
    exact ⟨components, rfl⟩
  · intro hserving
    rw [← howner]
    exact hfollowing.catches_up hserving

def joining : List MembershipAction :=
  [.register 0 ⟨[53, 48, 48, 48], false, kAnyOwner⟩ fun _ => [], .hear 0,
    .register 1 ⟨[53, 48, 48, 48], false, kAnyOwner⟩ fun _ => []]

def unforced (run : MembershipRun F) : MembershipAction → Bool
  | .register _ presence _ => !presence.forceOwnerId && run.hub.sessions.size ≤ 1000
  | _ => true

theorem announced_of_unforced (run : MembershipRun F) (action : MembershipAction)
    (h : run.unforced action) : run.Announced 72 action := by
  cases action with
  | register number presence address =>
    obtain ⟨hfree, hfew⟩ := Bool.and_eq_true_iff.mp h
    refine ⟨?_, ?_⟩
    · intro hany
      rw [hany.1] at hfree
      contradiction
    · intro _ _
      exact (of_decide_eq_true hfew).trans (by decide)
  | disconnect number => exact trivial
  | hear number => exact trivial

theorem membership_agrees_two : ∃ run : MembershipRun Unit,
    run.hub.sessions[(3061 : OwnerId)]? = some 0 ∧ run.hub.sessions.keys = [3061, 3062] ∧
    (run.inFlight 0).length = 1 ∧
    ∃ link, (run.links 0).hearAll 72 (run.inFlight 0) = .ok link ∧
      ∀ id, id ∈ link.client.components ↔ id ∈ run.hub.sessions ∧ id ≠ 3061 := by
  obtain ⟨run, hrun, hfind, hkeys, hflight, hserving⟩ : ∃ run : MembershipRun Unit,
      Transition.run (checked (step (fun _ => 3061) 72) unforced) (initial fun _ => []) joining =
        some run ∧ run.hub.sessions[(3061 : OwnerId)]? = some 0 ∧
      run.hub.sessions.keys = [3061, 3062] ∧ (run.inFlight 0).length = 1 ∧
      (run.hub.links 0).phase = .serving :=
    ⟨_, rfl, by decide, by decide, by decide, by decide⟩
  have hreach := Reach.of_checked announced_of_unforced joining hrun
  have hagrees := membership_agrees (fun _ => ⟨by decide, by decide⟩) hreach hfind
  exact ⟨run, hfind, hkeys, hflight, hagrees.2 hserving⟩

end MembershipRun

/-! ### The registration nobody hears of -/

theorem encodeIndicatePresence_of_le {message : IndicatePresence}
    (h : message.port.length ≤ Wire.kMaxPayload) :
    ∃ bytes, encodeIndicatePresence message = .ok bytes ∧
      bytes.length = message.port.length + 9 := by
  refine ⟨_, by simp only [encodeIndicatePresence, Wire.Writer.string_of_le h]; rfl, ?_⟩
  simp only [List.length_append, Wire.Writer.i32_length, Wire.Writer.u32_length,
    Wire.Writer.boolean, Wire.Writer.u8_length]
  omega

namespace MasterHub
variable {draw : UInt32 → OwnerId} {hub : MasterHub} {number : Nat}
variable {address : Nat → Bytes} {presence : IndicatePresence}

theorem introduce_exists (draw : UInt32 → OwnerId) (address : Nat → Bytes) (number : Nat)
    (hany : hub.TakesAny presence) :
    ∃ after, hub.introduce draw address number presence = some after := by
  have hforced : presence.forceOwnerId ∧ presence.ownerId ∉ hub.sessions :=
    ⟨hany.1, hany.2.1 ▸ hany.2.2⟩
  unfold introduce registerComponent
  rw [if_pos hforced]
  dsimp only [Option.map_some, Option.bind_some, bind]
  split
  · split
    · exact ⟨_, rfl⟩
    · exact ⟨_, rfl⟩
  · exact ⟨_, rfl⟩

theorem Exact.register_silently (h : hub.Exact) (hrange : InRange draw)
    (hgreeting : (hub.links number).phase = .greeting) (hany : hub.TakesAny presence)
    (hsilent : hub.announces address number presence kAnyOwner = false) :
    ∃ after, hub.register draw address number presence = some after ∧
      kAnyOwner ∈ after.sessions ∧
      (∀ (id : OwnerId) other, hub.sessions[id]? = some other →
        after.sessions[id]? = some other) ∧
      ∀ other, other ≠ number → after.links other = hub.links other := by
  obtain ⟨joined, hjoin⟩ := introduce_exists draw address number hany
  have hstep : hub.step draw (.introduce number presence address) = some joined := by
    simp only [step, if_pos hgreeting, hjoin]
  have hjoined := h.preserved hstep
  obtain ⟨owner, hintroduced⟩ := introduce_spec h hgreeting hjoin
  cases (hintroduced.takesAny_iff hrange).mp hany
  have hself : (joined.links number).owner = kAnyOwner ∧
      (joined.links number).phase = .leaving := by
    rw [hintroduced.self, hsilent]
    exact ⟨rfl, rfl⟩
  have hfinish := finish_spec hjoined.filed number
  have hkept : ∀ id : OwnerId, (joined.finish number).sessions[id]? = joined.sessions[id]? := by
    intro id
    rw [hfinish.sessions, if_neg fun hne => hne.1 hself.1]
  refine ⟨joined.finish number, ?_, ?_, ?_, ?_⟩
  · rw [register, hstep]
    change some (if (joined.links number).phase = .leaving then _ else _) = _
    rw [if_pos hself.2]
  · rw [ExtTreeMap.mem_iff_isSome_getElem?, hkept, hintroduced.sessions, if_pos rfl]
    rfl
  · intro id other hfind
    rw [hkept, hintroduced.sessions, if_neg]
    · exact hfind
    · rintro rfl
      exact hany.2.2 (ExtTreeMap.getElem?_eq_some_iff.mp hfind).1
  · intro other hother
    rw [hfinish.others other hother, hintroduced.others other hother, hsilent]
    simp [hself.1]

end MasterHub

namespace MembershipRun

theorem splits_of_port {port : Bytes} (hlength : port.length = Wire.kMaxPayload - 9) :
    ∃ (presence : IndicatePresence) (payload : Bytes)
    (run : MembershipRun Unit) (link : MasterLink Unit),
    encodeIndicatePresence presence = .ok payload ∧ payload.length ≤ Wire.kMaxPayload ∧
    Format.indicatePresence.decodePayload payload = .ok presence ∧
    Reach (step (fun _ => 3061) 72) unguarded (initial fun _ => []) run ∧
    run.hub.sessions[(3061 : OwnerId)]? = some 0 ∧ (run.hub.links 0).phase = .serving ∧
    kAnyOwner ∈ run.hub.sessions ∧ (run.links 0).hearAll 72 (run.inFlight 0) = .ok link ∧
    kAnyOwner ∉ link.client.components := by
  have hroom : 9 ≤ Wire.kMaxPayload := by decide
  obtain ⟨first, hfirst, hfind, hserving, hfree, hgreeting⟩ : ∃ first : MembershipRun Unit,
      step (fun _ => 3061) 72 (initial fun _ => [])
        (.register 0 ⟨[53, 48, 48, 48], false, kAnyOwner⟩ fun _ => []) = some first ∧
      first.hub.sessions[(3061 : OwnerId)]? = some 0 ∧
      (first.hub.links 0).phase = .serving ∧ kAnyOwner ∉ first.hub.sessions ∧
      (first.hub.links 1).phase = .greeting :=
    ⟨_, rfl, by decide, by decide, by decide, by decide⟩
  have hrange : MasterHub.InRange fun _ => 3061 := fun _ =>
    ⟨show (1000 : OwnerId) ≤ 3061 by decide, show (3061 : OwnerId) ≤ 10000 by decide⟩
  have hfollowing : first.Following 72 fun _ => [] :=
    Following.initial.step hrange (announced_of_unforced _ _ (by decide)) hfirst
  obtain ⟨link, hlink, hknows⟩ := hfollowing.catches_up hserving
  obtain ⟨payload, hpayload, hsize⟩ : ∃ payload,
      encodeIndicatePresence ⟨port, true, kAnyOwner⟩ = .ok payload ∧
        payload.length = port.length + 9 := by
    apply encodeIndicatePresence_of_le
    rw [hlength]
    exact Nat.sub_le _ _
  have hsilent : first.hub.announces (fun _ => []) 1 ⟨port, true, kAnyOwner⟩ kAnyOwner = false := by
    apply Bool.eq_false_iff.mpr
    intro hannounces
    have hfits := (update_fits_iff _).mp (Bool.and_eq_true_iff.mp hannounces).2
    simp only [MasterHub.additionOf, List.length_nil, hlength] at hfits
    omega
  obtain ⟨hub, hhub, hthere, hsessions, hlinks⟩ := hfollowing.agreed.sound.register_silently hrange
    hgreeting ⟨rfl, rfl, hfree⟩ hsilent
  have hsecond : first.step (fun _ => 3061) 72
      (.register 1 ⟨port, true, kAnyOwner⟩ fun _ => []) = some { first with hub } := by
    simp only [step, hhub, Option.map_some]
  refine ⟨⟨port, true, kAnyOwner⟩, payload, { first with hub }, link, hpayload, ?_,
    Format.decodePayload_of_reads (indicatePresence_reads hpayload),
    .tail (.tail .refl trivial hfirst) trivial hsecond, hsessions 3061 0 hfind, ?_, hthere, ?_, ?_⟩
  · rw [hsize, hlength, Nat.sub_add_cancel hroom]
  · rw [hlinks 0 (by decide)]
    exact hserving
  · simp only [inFlight, hlinks 0 (by decide)]
    exact hlink
  · intro hmem
    exact hfree ((hknows kAnyOwner).mp hmem).1

/-- A greeting of the largest size there is, with a port so long that nobody can
be told of it: the component stays on the map, the others never hear of it. -/
theorem membership_splits : ∃ (presence : IndicatePresence) (payload : Bytes)
    (run : MembershipRun Unit) (link : MasterLink Unit),
    encodeIndicatePresence presence = .ok payload ∧ payload.length ≤ Wire.kMaxPayload ∧
    Format.indicatePresence.decodePayload payload = .ok presence ∧
    Reach (step (fun _ => 3061) 72) unguarded (initial fun _ => []) run ∧
    run.hub.sessions[(3061 : OwnerId)]? = some 0 ∧ (run.hub.links 0).phase = .serving ∧
    kAnyOwner ∈ run.hub.sessions ∧ (run.links 0).hearAll 72 (run.inFlight 0) = .ok link ∧
    kAnyOwner ∉ link.client.components :=
  splits_of_port (List.length_replicate (a := 0))

end MembershipRun

end Srnp
