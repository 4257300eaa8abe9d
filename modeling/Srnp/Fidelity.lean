import Srnp.RemoteWrite

/-! A copy against the pair it was made from. The frame carries every field of
the pair; the subscriber then stamps its own clock on the copy, and keeps the
expiry time of an entry it already had. -/
namespace Srnp
open Std Wire Reading

namespace PairSpace
variable {F : Type} (space : PairSpace F)

theorem held_addPair {pair : Pair} (h : pair.type ≠ .invalid) (now : TimePoint) :
    (space.addPair pair now).1.held pair.pairKey = some (space.addPair pair now).2.pair := by
  rw [held_eq_some, addPair_type]
  refine ⟨h, _, ?_, rfl⟩
  rw [addPair_eq_put, find_put, addPair_pairKey, if_pos rfl]

@[simp] theorem addPair_writeTime (pair : Pair) (now : TimePoint) :
    (space.addPair pair now).2.pair.writeTime = now := by
  unfold addPair
  split <;> rfl

theorem addPair_expiryTime (pair : Pair) (now : TimePoint) :
    (space.addPair pair now).2.pair.expiryTime = pair.expiryTime ↔
      ∀ entry, space.find pair.pairKey = some entry → entry.pair.expiryTime = pair.expiryTime := by
  unfold addPair
  cases space.find pair.pairKey <;> simp

end PairSpace

theorem Pair.eq_iff {left right : Pair} : left = right ↔ left.pairKey = right.pairKey ∧
    left.value = right.value ∧ left.type = right.type ∧ left.writeTime = right.writeTime ∧
      left.expiryTime = right.expiryTime := by
  cases left
  cases right
  simp only [Pair.mk.injEq, Pair.pairKey, PairKey.mk.injEq]
  tauto

/-- What is shown always arrives; the copy is the pair itself when the subscriber's clock reads
the pair's write time and no entry of another expiry time is in the way. -/
theorem replicated_faithfully_iff {F : Type} (c : Component F) {pair : Pair}
    (htype : pair.type ≠ .invalid) {bytes : Bytes}
    (hframe : (Message.pairUpdate pair).frameOf = .ok bytes) (now : TimePoint) :
    ∃ frame entered copy, Reads FrameChannel.read bytes frame ∧
      c.receive frame now = .ok entered ∧
      entered.component.getPair pair.pairKey = some copy ∧
      (copy.owner = pair.owner ∧ copy.key = pair.key ∧ copy.value = pair.value ∧
        copy.type = pair.type ∧ copy.writeTime = now) ∧
      (copy = pair ↔ now = pair.writeTime ∧ ∀ entry, c.space.find pair.pairKey = some entry →
        entry.pair.expiryTime = pair.expiryTime) := by
  obtain ⟨frame, hread, hreceive⟩ := c.receive_sent hframe now
  have hkey := c.space.addPair_pairKey pair now
  refine ⟨frame, _, (c.space.addPair pair now).2.pair, hread, hreceive,
    c.space.held_addPair htype now, ?_, ?_⟩
  · exact ⟨congrArg PairKey.owner hkey, congrArg PairKey.key hkey, by simp, by simp, by simp⟩
  · rw [Pair.eq_iff, c.space.addPair_expiryTime]
    simp

theorem replicated_faithfully_in_time : ∃ bytes frame entered,
    (Message.pairUpdate { owner := 1000, key := [107], value := [1], writeTime := 5 }).frameOf =
        .ok bytes ∧ Reads FrameChannel.read bytes frame ∧
      (Component.initial 2000 : Component Unit).receive frame 5 = .ok entered ∧
      entered.component.getPair ⟨1000, [107]⟩ =
        some { owner := 1000, key := [107], value := [1], writeTime := 5 } := by
  obtain ⟨frame, entered, copy, hread, hreceive, hcopy, _, hiff⟩ :=
    @replicated_faithfully_iff Unit (.initial 2000)
      { owner := 1000, key := [107], value := [1], writeTime := 5 } (by decide) _ rfl 5
  refine ⟨_, frame, entered, rfl, hread, hreceive, ?_⟩
  rw [← hiff.mpr ⟨rfl, by decide⟩]
  exact hcopy

def publisher : Component Unit :=
  ((Component.initial 1000).enter (.setPair [107] [1] .string) 5).component

/-- The owner's pair was written at 5; the copy that lands at 7 says it was written at 7. -/
theorem copy_restamped : ∃ pair bytes frame entered copy,
    publisher.getPair ⟨1000, [107]⟩ = some pair ∧ pair.writeTime = 5 ∧
      (Message.pairUpdate pair).frameOf = .ok bytes ∧ Reads FrameChannel.read bytes frame ∧
      (Component.initial 2000 : Component Unit).receive frame 7 = .ok entered ∧
      entered.component.getPair ⟨1000, [107]⟩ = some copy ∧ copy.writeTime = 7 ∧ copy ≠ pair := by
  let pair : Pair := { owner := 1000, key := [107], value := [1], writeTime := 5 }
  obtain ⟨bytes, hframe⟩ : ∃ bytes, (Message.pairUpdate pair).frameOf = .ok bytes := ⟨_, rfl⟩
  obtain ⟨frame, hread, hreceive⟩ :=
    (Component.initial 2000 : Component Unit).receive_sent hframe 7
  refine ⟨pair, bytes, frame, _, { pair with writeTime := 7 }, ?_, rfl, hframe, hread, hreceive, ?_,
    rfl, by decide⟩
  · decide
  · decide

end Srnp
