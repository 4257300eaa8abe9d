import Srnp.MasterHub
import Srnp.RoundTrip

/-! Owner ids over the life of the master. Each session that registered and has
not ended is on the map under the id it was welcomed with, and only there, so
that the end of one never takes another off. The end leaves the map alone where
the id is the one that stands for none: a component that asked for it stays. -/
namespace Srnp
open Std Transition

namespace MasterHub
variable {draw : UInt32 → OwnerId} {hub after : MasterHub} {number other : Nat}

/-! ### Sessions that are not part of a step -/

section
variable {address : Nat → Bytes} {presence : IndicatePresence} {owner : OwnerId}

theorem Introduced.kept (h : hub.Introduced draw address number presence owner after)
    (hother : other ≠ number) :
    (after.links other).owner = (hub.links other).owner ∧
      (after.links other).phase = (hub.links other).phase := by
  rw [h.others other hother]
  exact ⟨rfl, rfl⟩

theorem Finished.kept (h : hub.Finished number after) (other : Nat) :
    (after.links other).owner = (hub.links other).owner ∧
      (other ≠ number → (after.links other).phase = (hub.links other).phase) := by
  by_cases heq : other = number
  · subst heq
    rw [h.self]
    exact ⟨rfl, fun hne => absurd rfl hne⟩
  · rw [h.others other heq]
    exact ⟨rfl, fun _ => rfl⟩

theorem Introduced.welcome_sent (h : hub.Introduced draw address number presence owner after)
    (hother : other ≠ number) {welcome : MasterMessage}
    (hsent : .welcome welcome ∈ (after.links other).sent) :
    .welcome welcome ∈ (hub.links other).sent := by
  rw [h.others other hother, List.mem_append] at hsent
  rcases hsent with hsent | hsent
  · exact hsent
  · split at hsent
    · cases List.mem_singleton.mp hsent
    · contradiction

theorem Finished.welcome_sent (h : hub.Finished number after) {welcome : MasterMessage}
    (hsent : .welcome welcome ∈ (after.links other).sent) :
    .welcome welcome ∈ (hub.links other).sent := by
  by_cases heq : other = number
  · subst heq
    rwa [h.self] at hsent
  · rw [h.others other heq, List.mem_append] at hsent
    rcases hsent with hsent | hsent
    · exact hsent
    · split at hsent
      · cases List.mem_singleton.mp hsent
      · contradiction

/-! ### The map over a run -/

theorem Exact.open_present (h : hub.Exact) (hopen : (hub.links number).phase ≠ .done)
    (howner : (hub.links number).owner ≠ kAnyOwner) :
    hub.sessions[(hub.links number).owner]? = some number := by
  cases hphase : (hub.links number).phase with
  | greeting => exact absurd (h.greeting number hphase).1 howner
  | serving => exact h.present number (.inl hphase)
  | leaving => exact h.present number (.inr hphase)
  | done => exact absurd hphase hopen

theorem Exact.introduced (h : hub.Exact) (hgreeting : (hub.links number).phase = .greeting)
    (hstep : hub.Introduced draw address number presence owner after) : after.Exact where
  stored id other hfind := by
    rw [hstep.sessions] at hfind
    split at hfind
    · rename_i heq
      cases Option.some.inj hfind
      rw [hstep.self]
      refine ⟨heq, ?_⟩
      dsimp only
      split <;> exact nofun
    · obtain ⟨howner, hphase⟩ := h.stored id other hfind
      have hother : other ≠ number := by
        rintro rfl
        exact hphase hgreeting
      rw [(hstep.kept hother).1, (hstep.kept hother).2]
      exact ⟨howner, hphase⟩
  present other hphase := by
    rw [hstep.sessions]
    by_cases hother : other = number
    · subst hother
      rw [hstep.self, if_pos rfl]
    · rw [(hstep.kept hother).2] at hphase
      rw [(hstep.kept hother).1]
      have hfind := h.present other hphase
      rw [if_neg]
      · exact hfind
      · intro heq
        apply hstep.fresh
        rw [heq]
        exact (ExtTreeMap.getElem?_eq_some_iff.mp hfind).1
  greeting other hphase := by
    have hother : other ≠ number := by
      rintro rfl
      rw [hstep.self] at hphase
      dsimp only at hphase
      split at hphase <;> contradiction
    rw [(hstep.kept hother).2] at hphase
    rw [hstep.others other hother]
    obtain ⟨howner, hsent⟩ := h.greeting other hphase
    refine ⟨howner, ?_⟩
    dsimp only
    rw [hsent, if_neg]
    · rfl
    · rintro ⟨_, hfind⟩
      exact (h.stored _ other hfind).2 hphase
  welcomed other welcome hsent := by
    by_cases hother : other = number
    · subst hother
      rw [hstep.self] at hsent ⊢
      dsimp only at hsent ⊢
      rw [(h.greeting other hgreeting).2, List.nil_append] at hsent
      split at hsent
      · cases List.mem_singleton.mp hsent
        rfl
      · contradiction
    · rw [(hstep.kept hother).1]
      exact h.welcomed other welcome (hstep.welcome_sent hother hsent)

theorem Exact.finished (h : hub.Exact) (hopen : (hub.links number).phase ≠ .done)
    (hstep : hub.Finished number after) : after.Exact where
  stored id other hfind := by
    rw [hstep.sessions] at hfind
    split at hfind
    · contradiction
    · obtain ⟨howner, hphase⟩ := h.stored id other hfind
      refine ⟨(hstep.kept other).1.trans howner, ?_⟩
      by_cases hother : other = number
      · subst hother
        rw [hstep.self]
        exact nofun
      · rw [(hstep.kept other).2 hother]
        exact hphase
  present other hphase := by
    have hother : other ≠ number := by
      rintro rfl
      rw [hstep.self] at hphase
      rcases hphase with hphase | hphase <;> contradiction
    rw [(hstep.kept other).2 hother] at hphase
    have hfind := h.present other hphase
    rw [(hstep.kept other).1, hstep.sessions, if_neg]
    · exact hfind
    · rintro ⟨howner, hsame⟩
      have hself := h.open_present hopen howner
      rw [hsame, hfind] at hself
      exact hother (Option.some.inj hself)
  greeting other hphase := by
    have hother : other ≠ number := by
      rintro rfl
      rw [hstep.self] at hphase
      contradiction
    rw [(hstep.kept other).2 hother] at hphase
    rw [hstep.others other hother]
    obtain ⟨howner, hsent⟩ := h.greeting other hphase
    refine ⟨howner, ?_⟩
    dsimp only
    rw [hsent, if_neg]
    · rfl
    · rintro ⟨_, hfind, _⟩
      exact (h.stored _ other hfind).2 hphase
  welcomed other welcome hsent := by
    rw [(hstep.kept other).1]
    exact h.welcomed other welcome (hstep.welcome_sent hsent)

theorem Exact.preserved (h : hub.Exact) {action : HubAction}
    (hstep : step draw hub action = some after) : after.Exact := by
  obtain ⟨number, presence, address, owner, _, hgreeting, hintroduced⟩ |
    ⟨number, _, hopen, hfinished⟩ := step_cases h hstep
  · exact h.introduced hgreeting hintroduced
  · exact h.finished hopen hfinished

theorem exact_of_reach {guard : MasterHub → HubAction → Prop} {start : MasterHub}
    (hstart : start.Exact) (hreach : Reach (step draw) guard start hub) : hub.Exact :=
  hreach.invariant hstart fun _ _ _ h _ hstep => h.preserved hstep

end

/-- Given an id by `registerComponent`, with its end still to come. -/
def Registered (hub : MasterHub) (number : Nat) : Prop :=
  (hub.links number).phase = .serving ∨ (hub.links number).phase = .leaving

theorem Exact.welcomed_present (h : hub.Exact) {welcome : MasterMessage}
    (hsent : .welcome welcome ∈ (hub.links number).sent)
    (hopen : (hub.links number).phase ≠ .done) :
    hub.sessions[welcome.owner]? = some number := by
  rw [h.welcomed number welcome hsent]
  cases hphase : (hub.links number).phase with
  | greeting =>
    rw [(h.greeting number hphase).2] at hsent
    contradiction
  | serving => exact h.present number (.inl hphase)
  | leaving => exact h.present number (.inr hphase)
  | done => exact absurd hphase hopen

theorem owner_ids_unique (hrange : InRange draw)
    (hreach : Reach (step draw) unguarded initial hub)
    (hfew : hub.sessions.size < 2147483648 - 10001) :
    (∀ port, ∃ owner, hub.makeOwnerId draw port = some owner ∧ 1000 ≤ owner ∧
      owner ∉ hub.sessions) ∧
    (∀ (owner : OwnerId) number, hub.sessions[owner]? = some number →
      (hub.links number).owner = owner ∧
      ∀ welcome, .welcome welcome ∈ (hub.links number).sent → welcome.owner = owner) ∧
    (∀ number, hub.Registered number → hub.sessions[(hub.links number).owner]? = some number) ∧
    (∀ number welcome, .welcome welcome ∈ (hub.links number).sent →
      (hub.links number).phase ≠ .done → hub.sessions[welcome.owner]? = some number) ∧
    (∀ first second, hub.Registered first → hub.Registered second →
      (hub.links first).owner = (hub.links second).owner → first = second) ∧
    (∀ (owner other : OwnerId) first second, hub.sessions[owner]? = some first →
      hub.sessions[other]? = some second → (owner = other ↔ first = second)) ∧
    (∀ number after, step draw hub (.finish number) = some after →
      ∀ (owner : OwnerId) other, other ≠ number → hub.sessions[owner]? = some other →
        after.sessions[owner]? = some other) := by
  have hexact := exact_of_reach Exact.initial hreach
  refine ⟨?_, ?_, hexact.present, ?_, ?_, ?_, ?_⟩
  · intro port
    obtain ⟨owner, howner⟩ := makeOwnerId_exists hrange hfew port
    exact ⟨owner, howner, makeOwnerId_ge hrange howner, makeOwnerId_fresh howner⟩
  · intro owner number hfind
    have howner := hexact.filed owner number hfind
    refine ⟨howner, ?_⟩
    intro welcome hsent
    rw [hexact.welcomed number welcome hsent, howner]
  · intro number welcome hsent hopen
    exact hexact.welcomed_present hsent hopen
  · intro first second hfirst hsecond hsame
    have hfind := hexact.present second hsecond
    rw [← hsame, hexact.present first hfirst] at hfind
    exact Option.some.inj hfind
  · intro owner other first second hfirst hsecond
    constructor
    · rintro rfl
      rw [hfirst] at hsecond
      exact Option.some.inj hsecond
    · rintro rfl
      rw [← hexact.filed owner first hfirst, ← hexact.filed other first hsecond]
  · intro number after hstep owner other hother hfind
    obtain ⟨_, _, _, _, heq, _⟩ | ⟨finished, heq, hopen, hfinished⟩ := step_cases hexact hstep
    · cases heq
    · cases heq
      rw [hfinished.sessions, if_neg]
      · exact hfind
      · rintro ⟨howner, rfl⟩
        have hself := hexact.open_present hopen howner
        rw [hfind] at hself
        exact hother (Option.some.inj hself)

/-- Two components on one port, which leads to 3061. -/
def company : List HubAction :=
  [.introduce 0 ⟨[53, 48, 48, 48], false, kAnyOwner⟩ fun _ => [],
    .introduce 1 ⟨[53, 48, 48, 48], false, kAnyOwner⟩ fun _ => []]

theorem owner_ids_unique_two : ∃ hub owner, run (step fun _ => 3061) initial company = some hub ∧
    hub.makeOwnerId (fun _ => 3061) [53, 48, 48, 48] = some owner ∧ 1000 ≤ owner ∧
    owner ∉ hub.sessions ∧ hub.sessions[(3062 : OwnerId)]? = some 1 ∧
    (hub.links 1).owner = 3062 := by
  obtain ⟨hub, hrun⟩ : ∃ hub, run (step fun _ => 3061) initial company = some hub :=
    Option.isSome_iff_exists.mp (by decide)
  have hmap : (run (step fun _ => 3061) initial company).map
      (fun hub => (hub.sessions.size, hub.sessions[(3062 : OwnerId)]?)) = some (2, some 1) := by
    decide
  rw [hrun] at hmap
  obtain ⟨hsize, hsecond⟩ := Prod.mk.inj (Option.some.inj hmap)
  have hfew : hub.sessions.size < 2147483648 - 10001 := by
    rw [hsize]
    decide
  have hreach : Reach (step fun _ => 3061) unguarded initial hub :=
    .of_run company (fun _ _ _ => trivial) hrun
  obtain ⟨hfree, hstored, _⟩ :=
    owner_ids_unique (fun _ => ⟨by decide, by decide⟩) hreach hfew
  obtain ⟨owner, howner, hlow, hfresh⟩ := hfree [53, 48, 48, 48]
  exact ⟨hub, owner, hrun, howner, hlow, hfresh, hsecond, (hstored 3062 1 hsecond).1⟩

/-! ### What the end of a session leaves on the map -/

/-- Asking for the id that stands for none, and getting it. -/
def TakesAny (hub : MasterHub) (presence : IndicatePresence) : Prop :=
  presence.forceOwnerId ∧ presence.ownerId = kAnyOwner ∧ kAnyOwner ∉ hub.sessions

theorem Introduced.takesAny_iff (hrange : InRange draw)
    {address : Nat → Bytes} {presence : IndicatePresence} {owner : OwnerId}
    (h : hub.Introduced draw address number presence owner after) :
    hub.TakesAny presence ↔ owner = kAnyOwner := by
  have hchosen := h.chosen
  split at hchosen
  · rename_i hforced
    subst hchosen
    constructor
    · exact fun hany => hany.2.1
    · intro hany
      exact ⟨hforced.1, hany, hany ▸ hforced.2⟩
  · rename_i hfree
    have hlow := makeOwnerId_ge hrange hchosen
    constructor
    · rintro ⟨hforce, hany, habsent⟩
      exact absurd ⟨hforce, hany ▸ habsent⟩ hfree
    · rintro rfl
      exact absurd hlow (by decide)

theorem Exact.step_other (h : hub.Exact) {action : HubAction}
    (hstep : step draw hub action = some after) (hother : action ≠ .finish number)
    (hintroduced : (hub.links number).phase ≠ .greeting) :
    (after.links number).owner = (hub.links number).owner ∧
      (after.links number).phase = (hub.links number).phase := by
  obtain ⟨first, presence, address, owner, _, hgreeting, hfirst⟩ |
    ⟨first, rfl, _, hfirst⟩ := step_cases h hstep
  · apply hfirst.kept
    rintro rfl
    exact hintroduced hgreeting
  · refine ⟨(hfirst.kept number).1, (hfirst.kept number).2 ?_⟩
    rintro rfl
    exact hother rfl

def Unlisted (hub : MasterHub) (number : Nat) : Prop :=
  ∀ id : OwnerId, hub.sessions[id]? ≠ some number

/-- Whoever is registered after a step was told in it that `owner` is gone. -/
def Told (before after : MasterHub) (owner : OwnerId) : Prop :=
  ∀ (id : OwnerId) other, after.sessions[id]? = some other →
    (after.links other).sent =
      (before.links other).sent ++ [.update ⟨.remove, ⟨owner, [], []⟩⟩]

theorem Finished.unlisted (h : hub.Exact) (hfinish : hub.Finished number after)
    (howner : (hub.links number).owner ≠ kAnyOwner) : after.Unlisted number := by
  intro id hfind
  rw [hfinish.sessions] at hfind
  split at hfind
  · contradiction
  · rename_i hother
    exact hother ⟨howner, h.filed id number hfind⟩

theorem Finished.told (h : hub.Exact) (hfinish : hub.Finished number after)
    (howner : (hub.links number).owner ≠ kAnyOwner) :
    hub.Told after (hub.links number).owner := by
  intro id other hfind
  rw [hfinish.sessions] at hfind
  split at hfind
  · contradiction
  · rename_i hkept
    have hfiled := h.filed id other hfind
    have hdistinct : (hub.links number).owner ≠ id := fun heq => hkept ⟨howner, heq⟩
    have hother : other ≠ number := by
      rintro rfl
      exact hdistinct hfiled
    rw [hfinish.others other hother, hfiled, if_pos ⟨howner, hfind, Ne.symm hdistinct⟩]

theorem Finished.still_listed (hfinish : hub.Finished number after)
    (howner : (hub.links number).owner = kAnyOwner) {id : OwnerId}
    (hfind : hub.sessions[id]? = some number) : after.sessions[id]? = some number := by
  rw [hfinish.sessions, if_neg fun hne => hne.1 howner]
  exact hfind

theorem Unlisted.preserved (h : hub.Exact) (hover : (hub.links number).phase = .done)
    (hunlisted : hub.Unlisted number) {action : HubAction}
    (hstep : step draw hub action = some after) :
    (after.links number).phase = .done ∧ after.Unlisted number := by
  obtain ⟨first, presence, address, owner, _, hgreeting, hfirst⟩ |
    ⟨first, _, hopen, hfirst⟩ := step_cases h hstep
  · have hother : number ≠ first := by
      rintro rfl
      rw [hover] at hgreeting
      contradiction
    refine ⟨(hfirst.kept hother).2.trans hover, ?_⟩
    intro id hfind
    rw [hfirst.sessions] at hfind
    split at hfind
    · exact hother (Option.some.inj hfind).symm
    · exact hunlisted id hfind
  · have hother : number ≠ first := by
      rintro rfl
      exact hopen hover
    refine ⟨((hfirst.kept number).2 hother).trans hover, ?_⟩
    intro id hfind
    rw [hfirst.sessions] at hfind
    split at hfind
    · contradiction
    · exact hunlisted id hfind

theorem Unlisted.forever (h : hub.Exact) (hover : (hub.links number).phase = .done)
    (hunlisted : hub.Unlisted number) (hreach : Reach (step draw) unguarded hub after) :
    after.Unlisted number := by
  have hall : after.Exact ∧ (after.links number).phase = .done ∧ after.Unlisted number := by
    refine hreach.invariant (I := fun hub => hub.Exact ∧ (hub.links number).phase = .done ∧
      hub.Unlisted number) ⟨h, hover, hunlisted⟩ ?_
    rintro before action next ⟨hexact, hdone, hnowhere⟩ _ hstep
    exact ⟨hexact.preserved hstep, hnowhere.preserved hexact hdone hstep⟩
  exact hall.2.2

variable {joined before : MasterHub} {address : Nat → Bytes} {presence : IndicatePresence}

theorem Exact.until_end (h : joined.Exact)
    (hregistered : (joined.links number).phase = .serving ∨
      (joined.links number).phase = .leaving)
    (hmeanwhile : Reach (step draw) (fun _ action => action ≠ .finish number) joined before) :
    before.Exact ∧ (before.links number).owner = (joined.links number).owner ∧
      ((before.links number).phase = .serving ∨ (before.links number).phase = .leaving) := by
  refine hmeanwhile.invariant (I := fun hub => hub.Exact ∧
    (hub.links number).owner = (joined.links number).owner ∧
    ((hub.links number).phase = .serving ∨ (hub.links number).phase = .leaving))
    ⟨h, rfl, hregistered⟩ ?_
  rintro hub action after ⟨hexact, howner, hphase⟩ hother hstep
  have hintroduced : (hub.links number).phase ≠ .greeting := by
    intro hgreeting
    rw [hgreeting] at hphase
    rcases hphase with hphase | hphase <;> contradiction
  obtain ⟨hsame, hsamePhase⟩ := hexact.step_other hstep hother hintroduced
  rw [hsame, hsamePhase]
  exact ⟨hexact.preserved hstep, howner, hphase⟩

theorem no_ghosts_iff (hrange : InRange draw) (hreach : Reach (step draw) unguarded initial hub)
    (hjoin : step draw hub (.introduce number presence address) = some joined)
    (hmeanwhile : Reach (step draw) (fun _ action => action ≠ .finish number) joined before)
    (hend : step draw before (.finish number) = some after) :
    ((∀ later, Reach (step draw) unguarded after later → later.Unlisted number) ∧
      ∃ owner, joined.sessions[owner]? = some number ∧ before.Told after owner) ↔
    ¬ hub.TakesAny presence := by
  have hexact := exact_of_reach Exact.initial hreach
  have hjoined := hexact.preserved hjoin
  obtain ⟨_, _, _, owner, heq, hgreeting, hintroduced⟩ | ⟨_, heq, _, _⟩ := step_cases hexact hjoin
  · cases heq
    have hphase : (joined.links number).phase = .serving ∨
        (joined.links number).phase = .leaving := by
      rw [hintroduced.self]
      dsimp only
      split
      · exact .inl rfl
      · exact .inr rfl
    have howner : (joined.links number).owner = owner := by rw [hintroduced.self]
    obtain ⟨hbefore, hkept, hopen⟩ := hjoined.until_end hphase hmeanwhile
    have hfinish : before.Finished number after := by
      obtain ⟨_, _, _, _, heq, _⟩ | ⟨_, heq, _, hfinish⟩ := step_cases hbefore hend
      · cases heq
      · cases heq
        exact hfinish
    rw [hintroduced.takesAny_iff hrange, ← howner, ← hkept]
    constructor
    · rintro ⟨hgone, _⟩ hany
      exact hgone after .refl _ (hfinish.still_listed hany (hbefore.present number hopen))
    · intro hany
      refine ⟨?_, ?_⟩
      · intro later hlater
        refine (hfinish.unlisted hbefore hany).forever (hbefore.preserved hend) ?_ hlater
        rw [hfinish.self]
      · refine ⟨(joined.links number).owner, hjoined.present number hphase, ?_⟩
        rw [← hkept]
        exact hfinish.told hbefore hany
  · cases heq

def visit : List HubAction :=
  [.introduce 0 ⟨[53, 48, 48, 48], false, kAnyOwner⟩ fun _ => [],
    .introduce 1 ⟨[53, 48, 48, 48], true, 4242⟩ fun _ => [], .finish 1]

theorem no_ghosts_iff_two : ∃ after, run (step fun _ => 3061) initial visit = some after ∧
    after.sessions.keys = [3061] ∧
    (∀ later, Reach (step fun _ => 3061) unguarded after later → later.Unlisted 1) ∧
    ∃ (joined : MasterHub) (owner : OwnerId), joined.sessions[owner]? = some 1 ∧
      joined.Told after owner := by
  obtain ⟨after, hrun⟩ : ∃ after, run (step fun _ => 3061) initial visit = some after :=
    Option.isSome_iff_exists.mp (by decide)
  have hkeys : (run (step fun _ => 3061) initial visit).map (fun hub => hub.sessions.keys) =
      some [3061] := by
    decide
  rw [hrun] at hkeys
  refine ⟨after, hrun, Option.some.inj hkeys, ?_⟩
  unfold visit at hrun
  rw [run_cons] at hrun
  obtain ⟨hub, hfirst, hrun⟩ := Option.bind_eq_some_iff.mp hrun
  rw [run_cons] at hrun
  obtain ⟨joined, hjoin, hrun⟩ := Option.bind_eq_some_iff.mp hrun
  rw [run_cons] at hrun
  obtain ⟨ended, hend, hrun⟩ := Option.bind_eq_some_iff.mp hrun
  cases Option.some.inj hrun
  obtain ⟨hgone, htold⟩ := (no_ghosts_iff (fun _ => ⟨by decide, by decide⟩)
    (.tail .refl trivial hfirst) hjoin .refl hend).mpr fun hany => absurd hany.2.1 (by decide)
  exact ⟨hgone, joined, htold⟩

/-- Whoever asks for the id -1 while it is free stays on the map. -/
theorem ghost_stays : ∃ payload hub joined after,
    encodeIndicatePresence ⟨[53, 48, 48, 48], true, kAnyOwner⟩ = .ok payload ∧
    Format.indicatePresence.decodePayload payload = .ok ⟨[53, 48, 48, 48], true, kAnyOwner⟩ ∧
    step (fun _ => 3061) initial (.introduce 0 ⟨[53, 48, 48, 48], false, kAnyOwner⟩ fun _ => []) =
      some hub ∧
    step (fun _ => 3061) hub (.introduce 1 ⟨[53, 48, 48, 48], true, kAnyOwner⟩ fun _ => []) =
      some joined ∧
    step (fun _ => 3061) joined (.finish 1) = some after ∧
    after.sessions[kAnyOwner]? = some 1 ∧
    (after.links 0).sent.length = (joined.links 0).sent.length :=
  ⟨_, _, _, _, rfl, by decide, rfl, rfl, rfl, by decide, by decide⟩

end MasterHub

end Srnp
