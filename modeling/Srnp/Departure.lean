import Srnp.Standing
import Srnp.Forwarding

/-! What is left of a component that went away. The master's announcement ends
the session and takes the component off the membership list; the subscriber
lists are in the pair space, which the announcement does not reach. -/
namespace Srnp
open Std LastWrite Transition

def Call.registers {F : Type} (id : OwnerId) : Call F → Prop
  | .handle (.subscription message) => message.registering ∧ message.subscriber = id
  | _ => False

namespace Component
variable {F : Type} (c : Component F) (id : OwnerId)

def Absent : Prop :=
  id ∉ c.space.uSubscribers ∧
    ∀ key entry, c.space.find key = some entry → id ∉ entry.subscribers

def LeavesAlone : Prop :=
  ∀ (call : Call F) (now : TimePoint), ¬ call.registers id →
    ∀ parcel ∈ parcels (c.enter call now).todo, parcel.1 = id → parcel.2.target = none

/-- From the announcement that `left` is gone until it subscribes again, it is
in no list and is owed nothing. -/
def Forgets (left : ComponentInfo) : Prop :=
  ∀ later, Reach next (fun _ step => ¬ step.1.registers left.owner)
      (c.onComponentUpdate ⟨.remove, left⟩).component later →
    later.Absent left.owner ∧ later.LeavesAlone left.owner

variable {c id}

theorem absent_iff : c.Absent id ↔ c.standing id = .none := by
  have hfields : c.standing id = .none ↔
      id ∉ c.space.uSubscribers ∧ ∀ key, id ∉ c.space.subscribersOf key := by
    simp [standing, Standing.none, funext_iff]
  rw [hfields]
  constructor
  · rintro ⟨huniversal, hlisted⟩
    refine ⟨huniversal, fun key => ?_⟩
    unfold PairSpace.subscribersOf
    split
    · rename_i entry hfind
      exact hlisted key entry hfind
    · exact huniversal
  · rintro ⟨huniversal, hlisted⟩
    refine ⟨huniversal, fun key entry hfind => ?_⟩
    rw [← PairSpace.subscribersOf_of_find hfind]
    exact hlisted key

theorem Absent.enter (h : c.Absent id) {call : Call F} (hcall : ¬ call.registers id)
    (now : TimePoint) : (c.enter call now).component.Absent id := by
  rw [absent_iff] at h ⊢
  by_cases hown : ∃ message, call = .handle (.subscription message) ∧ message.subscriber = id
  · obtain ⟨message, rfl, hsubscriber⟩ := hown
    apply standing_cancel h
    by_contra hregistering
    exact hcall ⟨Bool.not_eq_false _ ▸ hregistering, hsubscriber⟩
  · rw [standing_enter_other (h ▸ Standing.none_coherent), h]
    rintro message rfl hid
    exact hown ⟨message, rfl, hid.symm⟩

theorem Absent.not_listed (h : c.Absent id) (key : PairKey) :
    id ∉ c.space.subscribersOf key :=
  of_decide_eq_false (congrFun (congrArg Standing.listed (absent_iff.mp h)) key)

theorem Absent.leavesAlone (h : c.Absent id) : c.LeavesAlone id := by
  rintro call now hcall ⟨recipient, message⟩ hparcel rfl
  cases htarget : message.target with
  | none => rfl
  | some key =>
    cases tells_enter call now _ hparcel key htarget with
    | write _ hmember => exact absurd hmember (h.not_listed key)
    | update hmember => exact absurd hmember (h.not_listed _)
    | subscription hregistering _ _ => exact absurd ⟨hregistering, rfl⟩ hcall

theorem absent_onComponentUpdate (update : UpdateComponents) :
    (c.onComponentUpdate update).component.Absent id ↔ c.Absent id := by
  have hspace : (c.onComponentUpdate update).component.space = c.space := by
    unfold onComponentUpdate
    split <;> rfl
  simp only [Absent, hspace]

theorem Forgets.absent {left : ComponentInfo} (h : c.Forgets left) : c.Absent left.owner :=
  (absent_onComponentUpdate _).mp (h _ .refl).1

theorem Absent.forgets {left : ComponentInfo} (h : c.Absent left.owner) : c.Forgets left := by
  intro later hreach
  have habsent : later.Absent left.owner := by
    refine hreach.invariant (I := fun c => c.Absent left.owner) ((absent_onComponentUpdate _).mpr h) ?_
    rintro before ⟨call, now⟩ after hbefore hcall hstep
    cases Option.some.inj hstep
    exact hbefore.enter hcall now
  exact ⟨habsent, habsent.leavesAlone⟩

/-- A component forgets one that left exactly if it was not listing it when the
announcement came. -/
theorem forgets_departed_iff (c : Component F) (left : ComponentInfo) :
    c.Forgets left ↔ c.Absent left.owner :=
  ⟨Forgets.absent, Absent.forgets⟩

/-- A subscriber leaves, and its owner id is given to a newcomer that asks for
nothing. The next publish is sent to the newcomer. -/
theorem departed_still_told :
    ∃ c later : Component Unit,
      Reach Component.next unguarded (Component.initial 1000) c ∧
      Reach Component.next (fun _ step => ¬ step.1.registers 2000)
        (c.onComponentUpdate ⟨.remove, ⟨2000, [], []⟩⟩).component later ∧
      ¬ later.Absent 2000 ∧
      ((later.enter (.setPair [107] [1] .string) 0).todo.flatMap later.hands).map (·.1) = [2000] ∧
      ¬ c.Forgets ⟨2000, [], []⟩ := by
  let subscribing : Call Unit := .handle (.subscription ⟨[107], 1000, 2000, true⟩)
  let c : Component Unit := ((Component.initial 1000).enter subscribing 0).component
  let later := ((c.onComponentUpdate ⟨.remove, ⟨2000, [], []⟩⟩).component.enter
    (.addSession ⟨2000, [], []⟩) 0).component
  have hlisted : 2000 ∈ c.space.subscribersOf ⟨1000, [107]⟩ := by decide
  have hstill : 2000 ∈ later.space.subscribersOf ⟨1000, [107]⟩ := by decide
  refine ⟨c, later, .tail .refl trivial (a := (subscribing, 0)) rfl, ?_, ?_, ?_, ?_⟩
  · exact .tail .refl (fun h => h) (a := (.addSession ⟨2000, [], []⟩, 0)) rfl
  · exact fun h => h.not_listed _ hstill
  · decide
  · exact fun h => h.absent.not_listed _ hlisted

end Component

end Srnp
