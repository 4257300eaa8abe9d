import Srnp.OwnerIds

/-! Ids that are stable. The generator is seeded from the port, so that a
component that comes back on its port is given the id it had. It is the first
one that is free from the drawn one on, so this takes that those it was stepped
past at first are still there. -/
namespace Srnp.MasterHub
open Std Transition

variable {draw : UInt32 → OwnerId} {hub later joined after : MasterHub} {number again : Nat}
  {address address' : Nat → Bytes} {presence presence' : IndicatePresence}

/-- The same port leads to the same id as long as nobody who had one has left. -/
theorem makeOwnerId_again (hkept : ∀ id, id ∈ hub.sessions → id ∈ later.sessions)
    {port : Bytes} {owner : OwnerId} (h : hub.makeOwnerId draw port = some owner)
    (hfree : owner ∉ later.sessions) : later.makeOwnerId draw port = some owner := by
  refine Probing.probe_again ?_ h ?_
  · intro id htaken
    rw [ExtTreeMap.contains_iff_mem] at htaken ⊢
    exact hkept id htaken
  · rw [Bool.eq_false_iff, Ne, ExtTreeMap.contains_iff_mem]
    exact hfree

theorem Exact.entry_stays (h : hub.Exact) {action : HubAction}
    (hstep : step draw hub action = some after) {id : OwnerId}
    (hentry : hub.sessions[id]? = some number) (hother : action ≠ .finish number) :
    after.sessions[id]? = some number := by
  obtain ⟨_, _, _, owner, rfl, _, hintroduced⟩ | ⟨ended, rfl, hopen, hfinished⟩ :=
    step_cases h hstep
  · rw [hintroduced.sessions, if_neg]
    · exact hentry
    · rintro rfl
      exact hintroduced.fresh (ExtTreeMap.mem_iff_isSome_getElem?.mpr (by rw [hentry]; rfl))
  · rw [hfinished.sessions, if_neg]
    · exact hentry
    · rintro ⟨howner, rfl⟩
      rw [h.open_present hopen howner] at hentry
      cases Option.some.inj hentry
      exact hother rfl

def NobodyLeaves (hub : MasterHub) (_ : MasterHub) (action : HubAction) : Prop :=
  ∀ (id : OwnerId) number, hub.sessions[id]? = some number → action ≠ .finish number

theorem Exact.entries_stay {start : MasterHub} (h : start.Exact) (hub : MasterHub)
    (hstart : ∀ (id : OwnerId) number, hub.sessions[id]? = some number →
      start.sessions[id]? = some number)
    (hmeanwhile : Reach (step draw) hub.NobodyLeaves start later) :
    later.Exact ∧ ∀ (id : OwnerId) number, hub.sessions[id]? = some number →
      later.sessions[id]? = some number := by
  refine hmeanwhile.invariant (I := fun later => later.Exact ∧
    ∀ (id : OwnerId) number, hub.sessions[id]? = some number →
      later.sessions[id]? = some number) ⟨h, hstart⟩ ?_
  rintro before action after ⟨hexact, hkept⟩ hguard hstep
  refine ⟨hexact.preserved hstep, ?_⟩
  intro id number hentry
  exact hexact.entry_stays hstep (hkept id number hentry) (hguard id number hentry)

theorem Introduced.by_port {owner : OwnerId}
    (h : hub.Introduced draw address number presence owner after)
    (hforce : presence.forceOwnerId = false) :
    hub.makeOwnerId draw presence.port = some owner := by
  have hchosen := h.chosen
  rw [hforce, if_neg fun hforced => Bool.false_ne_true hforced.1] at hchosen
  exact hchosen

/-- A component that comes back on its port has its id again exactly if nobody
has it by then, whoever came and left in between, provided that nobody has left
who was there before it came first. -/
theorem restart_keeps_id (hreach : Reach (step draw) unguarded initial hub)
    (hforce : presence.forceOwnerId = false) (hforce' : presence'.forceOwnerId = false)
    (hport : presence'.port = presence.port)
    (hjoin : step draw hub (.introduce number presence address) = some joined)
    (hmeanwhile : Reach (step draw) hub.NobodyLeaves joined later)
    (hagain : step draw later (.introduce again presence' address') = some after) :
    (after.links again).owner = (joined.links number).owner ↔
      (joined.links number).owner ∉ later.sessions := by
  have hexact := exact_of_reach Exact.initial hreach
  obtain ⟨_, _, _, owner, heq, _, hfirst⟩ | ⟨_, heq, _, _⟩ := step_cases hexact hjoin
  · cases heq
    have hnever : ∀ (id : OwnerId) other, hub.sessions[id]? = some other →
        joined.sessions[id]? = some other := by
      intro id other hentry
      refine hexact.entry_stays hjoin hentry ?_
      intro heq
      contradiction
    obtain ⟨hlater, hkept⟩ := (hexact.preserved hjoin).entries_stay hub hnever hmeanwhile
    obtain ⟨_, _, _, owner', heq, _, hsecond⟩ | ⟨_, heq, _, _⟩ := step_cases hlater hagain
    · cases heq
      have howner : (joined.links number).owner = owner := by rw [hfirst.self]
      have howner' : (after.links again).owner = owner' := by rw [hsecond.self]
      rw [howner, howner']
      constructor
      · rintro rfl
        exact hsecond.fresh
      · intro hfree
        have hmap : ∀ id, id ∈ hub.sessions → id ∈ later.sessions := by
          intro id hid
          obtain ⟨other, hentry⟩ :=
            Option.isSome_iff_exists.mp (ExtTreeMap.mem_iff_isSome_getElem?.mp hid)
          rw [ExtTreeMap.mem_iff_isSome_getElem?, hkept id other hentry]
          rfl
        have hdrawn := makeOwnerId_again hmap (hfirst.by_port hforce) hfree
        rw [← hport, hsecond.by_port hforce'] at hdrawn
        exact Option.some.inj hdrawn
    · cases heq
  · cases heq

def onPort : IndicatePresence := ⟨[53, 48, 48, 48], false, kAnyOwner⟩

/-- Another component takes the next id before this one leaves and comes back. -/
theorem restart_keeps_id_3062 : ∃ hub joined later after,
    step (fun _ => 3061) hub (.introduce 1 onPort fun _ => []) = some joined ∧
    step (fun _ => 3061) later (.introduce 3 onPort fun _ => []) = some after ∧
    (joined.links 1).owner = 3062 ∧ (after.links 3).owner = (joined.links 1).owner := by
  let draw : UInt32 → OwnerId := fun _ => 3061
  let arrive (number : Nat) : HubAction := .introduce number onPort fun _ => []
  obtain ⟨hub, hhub⟩ : ∃ hub, step draw initial (arrive 0) = some hub :=
    Option.isSome_iff_exists.mp (by decide)
  have hrun : (run (step draw) initial [arrive 0, arrive 1, arrive 2, .finish 1, arrive 3]).isSome ∧
      (run (step draw) initial [arrive 0, arrive 1]).map
        (fun hub => (hub.links 1).owner) = some 3062 ∧
      (run (step draw) initial [arrive 0, arrive 1, arrive 2, .finish 1]).map
        (fun hub => hub.sessions.contains 3062) = some false := by
    decide
  obtain ⟨hall, howner, hfree⟩ := hrun
  obtain ⟨end', hend⟩ := Option.isSome_iff_exists.mp hall
  simp only [run_cons, hhub, Option.bind_some] at hend howner hfree
  obtain ⟨joined, hjoin, hend⟩ := Option.bind_eq_some_iff.mp hend
  obtain ⟨busy, hbusy, hend⟩ := Option.bind_eq_some_iff.mp hend
  obtain ⟨later, hlater, hend⟩ := Option.bind_eq_some_iff.mp hend
  obtain ⟨after, hafter, _⟩ := Option.bind_eq_some_iff.mp hend
  rw [hjoin] at howner hfree
  simp only [Option.bind_some, hbusy, hlater, run_nil, Option.map_some, Option.some_inj]
    at howner hfree
  have hreach : Reach (step draw) unguarded initial hub := .tail .refl trivial hhub
  have hguard : ∀ (action : HubAction) (state : MasterHub), action ≠ .finish 0 →
      hub.NobodyLeaves state action := by
    intro action state hother id number hentry
    obtain ⟨_, _, _, owner, heq, _, hfirst⟩ | ⟨_, heq, _, _⟩ := step_cases .initial hhub
    · cases heq
      rw [hfirst.sessions] at hentry
      split at hentry
      · cases Option.some.inj hentry
        exact hother
      · simp [initial] at hentry
    · cases heq
  have hmeanwhile : Reach (step draw) hub.NobodyLeaves joined later :=
    .tail (.tail .refl (hguard (arrive 2) _ HubAction.noConfusion) hbusy)
      (hguard (.finish 1) _ (by simp)) hlater
  refine ⟨hub, joined, later, after, hjoin, hafter, howner, ?_⟩
  refine (restart_keeps_id hreach rfl rfl rfl hjoin hmeanwhile hafter).mpr ?_
  rw [howner, ← ExtTreeMap.contains_iff_mem, hfree]
  exact Bool.false_ne_true

end Srnp.MasterHub
