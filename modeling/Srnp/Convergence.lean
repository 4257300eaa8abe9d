import Srnp.Mesh

/-! What becomes of a mesh in which no one publishes any more. Handling an
update puts nothing new on its way, so in the end everything has been handled;
then every subscriber shows what the owners show, in whatever order it was. -/
namespace Srnp
open Std LastWrite Transition

namespace Mesh
variable {F : Type} {nodes : OwnerId → Component F} {mesh after settled : Mesh F}
variable {owner subscriber : OwnerId}

def Delivering (_ : Mesh F) : MeshAction F → Prop
  | .publish .. => False
  | _ => True

def Quiet (mesh : Mesh F) : Prop := ∀ owner subscriber, mesh.inFlight owner subscriber = []

theorem Delivering.calm {action : MeshAction F} (h : mesh.Delivering action) :
    mesh.Calm action := by
  cases action with
  | publish => exact absurd h id
  | drain => trivial
  | deliver => trivial

def load (mesh : Mesh F) (owner subscriber : OwnerId) : Nat :=
  2 * (mesh.channels owner subscriber).outbox.frames.length +
    (mesh.wires owner subscriber).length

structure Moved (owner subscriber : OwnerId) (mesh after : Mesh F) : Prop where
  log : after.log = mesh.log
  others : ∀ other recipient, (other, recipient) ≠ (owner, subscriber) →
    after.inFlight other recipient = mesh.inFlight other recipient

theorem Moved.refl : Moved owner subscriber mesh mesh := ⟨rfl, fun _ _ _ => rfl⟩

theorem Moved.trans (first : Moved owner subscriber mesh after)
    (second : Moved owner subscriber after settled) : Moved owner subscriber mesh settled := by
  refine ⟨second.log.trans first.log, ?_⟩
  intro other recipient hother
  rw [second.others other recipient hother, first.others other recipient hother]

theorem Sound.drains (h : Sound nodes mesh)
    (hsome : (mesh.channels owner subscriber).outbox.frames ≠ []) :
    ∃ after, mesh.step (.drain owner subscriber) = some after ∧
      Moved owner subscriber mesh after ∧
      after.load owner subscriber < mesh.load owner subscriber := by
  have hopen := (h.linked owner subscriber).connected
  have hdrains := (mesh.channels owner subscriber).drainLocked_drains
  generalize hresult : (mesh.channels owner subscriber).drainLocked = result at hdrains
  obtain ⟨channel, next⟩ := result
  cases hdrains with
  | stopped hstop =>
    rcases hstop with hclosed | hnone
    · rw [hopen] at hclosed
      contradiction
    · exact absurd hnone hsome
  | @taken first rest outbox _ hqueue hrest =>
    refine ⟨mesh.drained owner subscriber (mesh.channels owner subscriber).drainLocked, rfl, ?_⟩
    rw [hresult]
    refine ⟨⟨rfl, ?_⟩, ?_⟩
    · intro other recipient hother
      by_cases hsame : other = owner
      · subst hsame
        have hend : recipient ≠ subscriber := by
          rintro rfl
          exact hother rfl
        simp [drained, inFlight, hend]
      · simp [drained, inFlight, hsame]
    · simp only [load, drained, Function.update_self, hqueue, hrest, List.length_cons,
        List.length_append, Option.toList_some, List.length_nil]
      omega

theorem Sound.delivers (h : Sound nodes mesh) {message : Message} {rest : List Message}
    (hwire : mesh.wires owner subscriber = message :: rest) :
    ∃ after, mesh.step (.deliver owner subscriber 0) = some after ∧
      Moved owner subscriber mesh after ∧
      after.load owner subscriber < mesh.load owner subscriber := by
  have hchannels := h.delivered_channels hwire 0
  refine ⟨mesh.delivered owner subscriber rest
    ((mesh.nodes subscriber).enter (.handle message) 0), by simp only [Mesh.step, hwire], ?_⟩
  refine ⟨⟨rfl, ?_⟩, ?_⟩
  · intro other recipient hother
    rw [inFlight, inFlight, hchannels]
    by_cases hsame : other = owner
    · subst hsame
      have hend : recipient ≠ subscriber := by
        rintro rfl
        exact hother rfl
      simp [delivered, hend]
    · simp [delivered, pass, hsame]
  · simp only [load, hchannels, hwire]
    simp [delivered]

/-- Whatever is on its way on one link can be handled, whatever the others do. -/
theorem Sound.settle_link (hready : Ready nodes) (h : Sound nodes mesh)
    (owner subscriber : OwnerId) :
    ∃ settled, Reach Mesh.step Delivering mesh settled ∧ Sound nodes settled ∧
      Moved owner subscriber mesh settled ∧ settled.inFlight owner subscriber = [] := by
  induction hload : mesh.load owner subscriber using Nat.strong_induction_on
    generalizing mesh with
  | h bound ih =>
    subst hload
    have honward : ∀ action after, mesh.Delivering action → mesh.step action = some after →
        Moved owner subscriber mesh after →
        after.load owner subscriber < mesh.load owner subscriber →
        ∃ settled, Reach Mesh.step Delivering mesh settled ∧ Sound nodes settled ∧
          Moved owner subscriber mesh settled ∧ settled.inFlight owner subscriber = [] := by
      intro action after hdelivering hstep hmoved hless
      obtain ⟨settled, hreach, hsound, hrest, hnone⟩ :=
        ih _ hless (h.step hready hdelivering.calm hstep) rfl
      have hfirst : Reach Mesh.step Delivering mesh after := .tail .refl hdelivering hstep
      exact ⟨settled, hfirst.trans hreach, hsound, hmoved.trans hrest, hnone⟩
    cases hwire : mesh.wires owner subscriber with
    | cons message rest =>
      obtain ⟨after, hstep, hmoved, hless⟩ := h.delivers hwire
      exact honward (.deliver owner subscriber 0) after trivial hstep hmoved hless
    | nil =>
      by_cases hnone : (mesh.channels owner subscriber).outbox.frames = []
      · refine ⟨mesh, .refl, h, .refl, ?_⟩
        rw [inFlight, hwire, hnone]
        rfl
      · obtain ⟨after, hstep, hmoved, hless⟩ := h.drains hnone
        exact honward (.drain owner subscriber) after trivial hstep hmoved hless

theorem Sound.settle (hready : Ready nodes) (h : Sound nodes mesh)
    (links : List (OwnerId × OwnerId)) :
    ∃ settled, Reach Mesh.step Delivering mesh settled ∧
      ∀ link ∈ links, settled.inFlight link.1 link.2 = [] := by
  suffices hall : ∃ settled, Reach Mesh.step Delivering mesh settled ∧ Sound nodes settled ∧
      ∀ link ∈ links, settled.inFlight link.1 link.2 = [] by
    obtain ⟨settled, hreach, _, hnone⟩ := hall
    exact ⟨settled, hreach, hnone⟩
  induction links with
  | nil => exact ⟨mesh, .refl, h, List.forall_mem_nil _⟩
  | cons first rest ih =>
    obtain ⟨front, hfront, hsound, hrest⟩ := ih
    obtain ⟨settled, hreach, hsettled, hmoved, hnone⟩ :=
      hsound.settle_link hready first.1 first.2
    refine ⟨settled, hfront.trans hreach, hsettled, ?_⟩
    intro link hlink
    by_cases hsame : link = first
    · rw [hsame]
      exact hnone
    · rw [hmoved.others link.1 link.2 hsame]
      exact hrest link ((List.mem_cons.mp hlink).resolve_left hsame)

theorem log_delivering (reach : Reach Mesh.step Delivering mesh settled) :
    settled.log = mesh.log := by
  induction reach with
  | refl => rfl
  | @tail before after action _ hdelivering hstep ih =>
    rw [← ih]
    cases action with
    | publish => exact absurd hdelivering id
    | drain =>
      cases Option.some.inj hstep
      rfl
    | deliver publisher recipient now =>
      simp only [Mesh.step] at hstep
      split at hstep
      · contradiction
      · cases Option.some.inj hstep
        rfl

/-- There are finitely many ids. -/
instance : Finite OwnerId :=
  have hfin : Function.Injective fun id : OwnerId => id.toBitVec.toFin := by
    intro first second heq
    exact Int32.toBitVec_inj.mp (BitVec.toFin_inj.mp heq)
  Finite.of_injective _ hfin

theorem Sound.settles (hsound : Sound nodes mesh) (hready : Ready nodes) :
    ∃ settled, Reach Mesh.step Delivering mesh settled ∧ settled.Quiet := by
  obtain ⟨links, hlinks⟩ := Finite.exists_univ_list (OwnerId × OwnerId)
  obtain ⟨settled, hreach, hnone⟩ := hsound.settle hready links
  exact ⟨settled, hreach, fun owner subscriber => hnone (owner, subscriber) (hlinks.2 _)⟩

theorem shows_settled (hready : Ready nodes)
    (reach : Reach Mesh.step Mesh.Calm (Mesh.start nodes) mesh)
    (hreach : Reach Mesh.step Delivering mesh settled) (hquiet : settled.Quiet)
    {owner subscriber : OwnerId} (hother : subscriber ≠ owner) :
    Shows nodes owner subscriber settled mesh := by
  intro key hinterest
  have hsound := Sound.of_reach hready reach
  have hcalm : Reach Mesh.step Mesh.Calm mesh settled :=
    hreach.mono fun _ _ hdelivering => hdelivering.calm
  have hsettled := Sound.of_reach hready (reach.trans hcalm)
  have hshows := hsettled.shows_all hother (hquiet owner subscriber) key hinterest
  have hbefore := (hsound.keeps owner).own key hinterest.1
  have hafter := (hsettled.keeps owner).own key hinterest.1
  rw [log_delivering hreach, ← hbefore, PairSpace.view_eq_held, PairSpace.view_eq_held]
    at hafter
  exact hshows.trans hafter

/-- Calm, and this pair is not written. -/
def Spares (key : PairKey) (mesh : Mesh F) (action : MeshAction F) : Prop :=
  mesh.Calm action ∧ ∀ owner call now, action = .publish owner call now →
    ∀ write, ((mesh.nodes owner).enter call now).write = some write → write.key ≠ key

theorem Delivering.spares {action : MeshAction F} (h : mesh.Delivering action) (key : PairKey) :
    mesh.Spares key action := by
  refine ⟨h.calm, ?_⟩
  rintro owner call now rfl
  exact absurd h id

theorem log_spared {key : PairKey} (reach : Reach Mesh.step (Spares key) mesh after)
    (owner : OwnerId) :
    ∃ writes, after.log owner = mesh.log owner ++ writes ∧ ∀ write ∈ writes, write.key ≠ key := by
  induction reach with
  | refl => exact ⟨[], (List.append_nil _).symm, List.forall_mem_nil _⟩
  | @tail before after action _ hspares hstep ih =>
    obtain ⟨writes, hlog, hother⟩ := ih
    cases action with
    | publish publisher call now =>
      cases Option.some.inj hstep
      by_cases hsame : owner = publisher
      · subst hsame
        refine ⟨writes ++ ((before.nodes owner).enter call now).write.toList, ?_, ?_⟩
        · rw [← List.append_assoc, ← hlog]
          exact Function.update_self _ _ _
        · intro write hwrite
          rcases List.mem_append.mp hwrite with hold | hnew
          · exact hother write hold
          · exact hspares.2 owner call now rfl write (Option.mem_toList.mp hnew)
      · refine ⟨writes, ?_, hother⟩
        rw [← hlog]
        exact Function.update_of_ne hsame _ _
    | drain =>
      cases Option.some.inj hstep
      exact ⟨writes, hlog, hother⟩
    | deliver publisher recipient now =>
      simp only [Mesh.step] at hstep
      split at hstep
      · contradiction
      · cases Option.some.inj hstep
        exact ⟨writes, hlog, hother⟩

theorem view_spared (hready : Ready nodes)
    (first : Reach Mesh.step Mesh.Calm (Mesh.start nodes) mesh) {key : PairKey}
    (second : Reach Mesh.step (Spares key) mesh after) :
    (after.nodes key.owner).space.view key = (mesh.nodes key.owner).space.view key := by
  have hcalm := second.mono fun _ _ hspares => hspares.1
  have hbefore := ((Sound.of_reach hready first).keeps key.owner).own key rfl
  have hafter := ((Sound.of_reach hready (first.trans hcalm)).keeps key.owner).own key rfl
  obtain ⟨writes, hlog, hother⟩ := log_spared second key.owner
  have hnone : writesAt key writes = [] := by
    rw [writesAt, List.filter_eq_nil_iff]
    intro write hwrite
    simpa using hother write hwrite
  rw [hbefore, hafter, hlog, Store.replay_append, Store.replay_at, hnone]
  rfl

end Mesh

end Srnp
