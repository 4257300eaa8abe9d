import Srnp.CallbackOrder
import Srnp.RemoteWrite

/-! A publish that fails. `setPair` changes the store first and encodes the
frame for the subscribers afterwards, so a pair that is too large to frame
leaves by an exception with the store already changed. -/
namespace Srnp
open Std Transition

namespace PairSpace
variable {F : Type} {space : PairSpace F}

theorem put_of_find {key : PairKey} {entry : PairEntry F} (h : space.find key = some entry) :
    space.put entry = space := by
  have hpairs : (space.put entry).pairs = space.pairs := by
    apply ExtTreeMap.ext_getElem?
    intro other
    change (space.put entry).find other = space.find other
    rw [find_put]
    split
    · rename_i heq
      rw [← heq, pairKey_of_find h, h]
    · rfl
  cases space
  simp only [put] at hpairs ⊢
  congr 1

theorem addPair_eq_self_iff (pair : Pair) (now : TimePoint) :
    (space.addPair pair now).1 = space ↔
      ∃ held, space.copyOf pair.pairKey = some held ∧ held.value = pair.value ∧
        held.type = pair.type ∧ held.writeTime = now := by
  constructor
  · intro hsame
    have hcopy := space.copyOf_addPair pair now pair.pairKey
    rw [hsame, if_pos rfl] at hcopy
    refine ⟨_, hcopy, space.addPair_value pair now, space.addPair_type pair now, ?_⟩
    unfold addPair
    split <;> rfl
  · rintro ⟨held, hcopy, hvalue, htype, htime⟩
    obtain ⟨entry, hfind, rfl⟩ := Option.map_eq_some_iff.mp hcopy
    have hentry : (space.addPair pair now).2 = entry := by
      unfold addPair
      rw [hfind]
      dsimp only
      rw [← hvalue, ← htype, ← htime]
    rw [addPair_eq_put, hentry]
    exact put_of_find hfind

end PairSpace

namespace Component
variable {F : Type} (c : Component F)

/-- How a call of `setPair` ends: it returns, or a frame that cannot be encoded throws. -/
def setPairExit (key value : Bytes) (type : PairType) (now : TimePoint) :
    Except Wire.DecodeError Bool :=
  if c.ready then do
    let entry := (c.space.addPair { owner := c.owner, key, value, type } now).2
    let _ ← (fanOutUnlessEmpty (.pairUpdate entry.pair) entry.subscribers :
      Except Wire.DecodeError (List (Action F)))
    pure true
  else pure false

/-- An exception leaves nothing behind, and a publish that returns true has been handed to every
subscriber whose session is known. -/
structure AllOrNothing (key value : Bytes) (type : PairType) (now : TimePoint) : Prop where
  thrown : ∀ error, c.setPairExit key value type now = .error error →
    let entered := c.setPair key value type now
    entered.component.space = c.space ∧ entered.todo.flatMap c.hands = [] ∧
      pending entered.todo = []
  returned : c.setPairExit key value type now = .ok true →
    let update := (c.space.addPair { owner := c.owner, key, value, type } now).2
    ∀ subscriber ∈ update.subscribers, c.sessions.contains subscriber →
      (subscriber, .pairUpdate update.pair) ∈
        (c.setPair key value type now).todo.flatMap c.hands

section
variable {c} {key value : Bytes} (type : PairType) (now : TimePoint)

theorem setPairExit_small (hready : c.ready)
    (hsmall : c.space.subscribersOf ⟨c.owner, key⟩ = .empty ∨
      key.length + value.length + 29 ≤ Wire.kMaxPayload) :
    c.setPairExit key value type now = .ok true := by
  unfold setPairExit
  rw [if_pos hready]
  rcases hsmall with hnobody | hsmall
  · dsimp only
    rw [PairSpace.addPair_subscribers, Pair.pairKey, hnobody]
    rfl
  · have hfits := (pairUpdate_fits_iff { owner := c.owner, key, value, type }).mpr hsmall
    dsimp only
    rw [fanOutUnlessEmpty_fits (addPair_fits hfits)]
    rfl

theorem setPair_too_large (hready : c.ready)
    (hsome : c.space.subscribersOf ⟨c.owner, key⟩ ≠ .empty)
    (hlarge : ¬ key.length + value.length + 29 ≤ Wire.kMaxPayload) :
    (∃ error, c.setPairExit key value type now = .error error) ∧
      (c.setPair key value type now).todo = [.unlock] := by
  let added := c.space.addPair { owner := c.owner, key, value, type } now
  have hkey : added.2.pair.pairKey = ⟨c.owner, key⟩ := c.space.addPair_pairKey _ now
  have hfits : (Message.pairUpdate added.2.pair).fits = false := by
    rw [Bool.eq_false_iff, Ne, pairUpdate_fits_iff]
    have hlength := congrArg (fun named : PairKey => named.key.length) hkey
    simp only [Pair.pairKey] at hlength
    rw [hlength, PairSpace.addPair_value]
    exact hlarge
  have hlisted : added.2.subscribers ≠ .empty := by
    rw [PairSpace.addPair_subscribers]
    exact hsome
  obtain ⟨error, herror⟩ : ∃ error,
      fanOutUnlessEmpty (F := F) (.pairUpdate added.2.pair) added.2.subscribers =
        .error error := by
    rcases fanOutUnlessEmpty_too_large (F := F) hfits added.2.subscribers with herror | hempty
    · exact herror
    · unfold fanOutUnlessEmpty at hempty
      split at hempty
      · rename_i hnone
        exact absurd (SubscriberList.ext (List.isEmpty_iff.mp hnone)) hlisted
      · obtain ⟨bytes, hframe, _⟩ := Reading.Except.bind_eq_ok hempty
        obtain ⟨error, herror⟩ := Message.error_of_too_large hfits
        rw [herror] at hframe
        contradiction
  refine ⟨⟨error, ?_⟩, ?_⟩
  · unfold setPairExit
    rw [if_pos hready]
    dsimp only
    rw [herror]
    rfl
  · simp only [setPair, hready, if_true, fanOutThen]
    rw [herror]

theorem setPair_space_eq_iff (hready : c.ready) :
    (c.setPair key value type now).component.space = c.space ↔
      ∃ held, c.space.copyOf ⟨c.owner, key⟩ = some held ∧ held.value = value ∧
        held.type = type ∧ held.writeTime = now := by
  rw [setPair_space, if_pos hready]
  exact PairSpace.addPair_eq_self_iff { owner := c.owner, key, value, type } now

theorem mem_hands_setPair (hready : c.ready)
    (hsmall : key.length + value.length + 29 ≤ Wire.kMaxPayload) {subscriber : OwnerId}
    (hmember : subscriber ∈ c.space.subscribersOf ⟨c.owner, key⟩)
    (hsession : c.sessions.contains subscriber) :
    (subscriber, .pairUpdate (c.space.addPair { owner := c.owner, key, value, type } now).2.pair) ∈
      (c.setPair key value type now).todo.flatMap c.hands := by
  have hfits := (pairUpdate_fits_iff { owner := c.owner, key, value, type }).mpr hsmall
  let update : Message :=
    .pairUpdate (c.space.addPair { owner := c.owner, key, value, type } now).2.pair
  rw [c.setPair_todo hready key value type now hfits]
  refine List.mem_flatMap.mpr ⟨.send subscriber update, ?_, ?_⟩
  · refine List.mem_append_left _ (List.mem_map.mpr ⟨subscriber, ?_, rfl⟩)
    rw [PairSpace.addPair_subscribers]
    exact hmember
  · simp only [hands, hsession, if_true]
    exact List.mem_singleton_self _

end

end Component

/-- A publish is all or nothing exactly if nobody is subscribed, or the pair can be framed, or the
store has the very same pair already, down to the time of writing. -/
theorem setPair_all_or_nothing {F : Type} {c : Component F} (hready : c.ready) (key value : Bytes)
    (type : PairType) (now : TimePoint) :
    c.AllOrNothing key value type now ↔
      c.space.subscribersOf ⟨c.owner, key⟩ = .empty ∨
        key.length + value.length + 29 ≤ Wire.kMaxPayload ∨
        ∃ held, c.space.copyOf ⟨c.owner, key⟩ = some held ∧ held.value = value ∧
          held.type = type ∧ held.writeTime = now := by
  by_cases hnobody : c.space.subscribersOf ⟨c.owner, key⟩ = .empty
  · have hexit : c.setPairExit key value type now = .ok true :=
      Component.setPairExit_small type now hready (Or.inl hnobody)
    refine iff_of_true ⟨?_, ?_⟩ (Or.inl hnobody)
    · intro error herror
      rw [hexit] at herror
      contradiction
    · intro _ update subscriber hmember
      rw [PairSpace.addPair_subscribers] at hmember
      change subscriber ∈ c.space.subscribersOf ⟨c.owner, key⟩ at hmember
      rw [hnobody] at hmember
      exact absurd hmember (SubscriberList.not_mem_empty subscriber)
  by_cases hsmall : key.length + value.length + 29 ≤ Wire.kMaxPayload
  · have hexit := Component.setPairExit_small type now hready (Or.inr hsmall)
    refine iff_of_true ⟨?_, ?_⟩ (Or.inr (Or.inl hsmall))
    · intro error herror
      rw [hexit] at herror
      contradiction
    · intro _ update subscriber hmember hsession
      rw [PairSpace.addPair_subscribers] at hmember
      exact Component.mem_hands_setPair type now hready hsmall hmember hsession
  · obtain ⟨⟨error, hexit⟩, htodo⟩ :=
      Component.setPair_too_large type now hready hnobody hsmall
    rw [or_iff_right hnobody, or_iff_right hsmall, ← Component.setPair_space_eq_iff type now hready]
    constructor
    · intro h
      exact (h.thrown error hexit).1
    · intro hspace
      refine ⟨?_, ?_⟩
      · intro _ _
        dsimp only
        rw [htodo]
        exact ⟨hspace, rfl, rfl⟩
      · intro hreturned
        rw [hexit] at hreturned
        contradiction

theorem written_subscribed : written.space.subscribersOf ⟨written.owner, [107]⟩ ≠ .empty := by
  intro hnobody
  have hlisted : (written.space.subscribersOf ⟨written.owner, [107]⟩).ids = [2000] := rfl
  rw [hnobody] at hlisted
  contradiction

theorem setPair_all_or_nothing_subscribed :
    written.AllOrNothing [107] [7] .string 5 ∧
      written.space.subscribersOf ⟨written.owner, [107]⟩ ≠ .empty :=
  ⟨(setPair_all_or_nothing rfl [107] [7] .string 5).mpr (Or.inr (Or.inl (by decide))),
    written_subscribed⟩

/-- Component 2000 is subscribed to the pair, and the value published is as long as a frame. -/
theorem large_publish_half_done :
    ¬ ∀ (node : Node Unit), Reach Node.step unguarded (.quiet (.initial 1000)) node →
      node.component.ready →
        ∀ key value type now, node.component.AllOrNothing key value type now := by
  intro hclaim
  have hrun : ∃ node : Node Unit, Reach Node.step unguarded (.quiet (.initial 1000)) node ∧
      node.component = written :=
    ⟨_, .tail (a := .enter 0 (.handle (.subscription ⟨[107], 1000, 2000, true⟩)) 1) .refl trivial
      rfl, rfl⟩
  obtain ⟨node, hreach, hcomponent⟩ := hrun
  have hwhole := hclaim node hreach (hcomponent ▸ rfl) [107]
    (List.replicate Wire.kMaxPayload 97) .string 2
  rw [hcomponent] at hwhole
  have hlarge : ¬ ([107] : Bytes).length +
      (List.replicate Wire.kMaxPayload (97 : UInt8)).length + 29 ≤ Wire.kMaxPayload := by
    rw [List.length_replicate]
    omega
  obtain ⟨⟨error, hexit⟩, _⟩ :=
    Component.setPair_too_large .string 2 rfl written_subscribed hlarge
  obtain ⟨held, hcopy, hvalue, _⟩ :=
    (Component.setPair_space_eq_iff .string 2 rfl).mp (hwhole.thrown error hexit).1
  have hempty : written.space.copyOf ⟨written.owner, [107]⟩ =
      some { PairSpace.placeholder ⟨1000, [107]⟩ with writeTime := 1 } := rfl
  rw [hempty] at hcopy
  rw [← Option.some.inj hcopy] at hvalue
  have hlength : ([] : Bytes).length = (List.replicate Wire.kMaxPayload (97 : UInt8)).length :=
    congrArg List.length hvalue
  rw [List.length_replicate] at hlength
  exact absurd hlength (by decide)

end Srnp
