import Srnp.ChannelRun

/-! The index into the outbox over whole runs of a channel. An entry of
`coalescable_` is an iterator, good for as long as its node is queued. A node
that has left the outbox never comes back, since numbers are not given out
twice; so an iterator that leads to a queued node leads to the node it was made
for. -/
namespace Srnp
open Std Transition

namespace Outbox
variable {κ β : Type} [Ord κ] [TransOrd κ]

def nodes (box : Outbox κ β) : List Nat := box.frames.map (·.node)

structure Renews (before after : Outbox κ β) : Prop where
  nextNode : before.nextNode ≤ after.nextNode
  nodes : ∀ node ∈ after.nodes, node ∈ before.nodes ∨ before.nextNode ≤ node

variable {box after last : Outbox κ β}

theorem Renews.refl (box : Outbox κ β) : box.Renews box :=
  ⟨Nat.le_refl _, fun _ => Or.inl⟩

theorem Renews.trans (first : box.Renews after) (second : after.Renews last) :
    box.Renews last := by
  refine ⟨first.nextNode.trans second.nextNode, ?_⟩
  intro node hnode
  rcases second.nodes node hnode with hkept | hnew
  · exact first.nodes node hkept
  · exact Or.inr (first.nextNode.trans hnew)

theorem Renews.of_subset (hnext : after.nextNode = box.nextNode) (h : after.nodes ⊆ box.nodes) :
    box.Renews after :=
  ⟨Nat.le_of_eq hnext.symm, fun _ hnode => Or.inl (h hnode)⟩

theorem lt_nextNode {node : Nat} (h : node ∈ box.nodes) : node < box.nextNode := by
  obtain ⟨queued, hqueued, rfl⟩ := List.mem_map.mp h
  exact box.fresh queued hqueued

theorem Renews.overwrite (box : Outbox κ β) (node : Nat) (bytes : β) :
    box.Renews (box.overwrite node bytes) := by
  refine .of_subset rfl ?_
  intro other hother
  obtain ⟨queued, hqueued, rfl⟩ := List.mem_map.mp hother
  obtain ⟨old, hold, rfl⟩ := List.mem_map.mp hqueued
  refine List.mem_map.mpr ⟨old, hold, ?_⟩
  split <;> rfl

theorem Renews.clear (box : Outbox κ β) : box.Renews box.clear :=
  .of_subset rfl (List.nil_subset _)

variable [LawfulEqOrd κ]

theorem Renews.push (box : Outbox κ β) (room : box.frames.length < kMaxOutboxFrames) (bytes : β)
    (key : Option κ) : box.Renews (box.push room bytes key) := by
  refine ⟨Nat.le_succ _, ?_⟩
  intro node hnode
  rw [Outbox.nodes, frames_push, List.map_append] at hnode
  rcases List.mem_append.mp hnode with hold | hnew
  · exact Or.inl hold
  · exact Or.inr (Nat.le_of_eq (List.mem_singleton.mp hnew).symm)

theorem Renews.erase (box : Outbox κ β) (victim : Outbound κ β) (member : victim ∈ box.frames) :
    box.Renews (box.erase victim member) :=
  .of_subset rfl (List.map_subset _ (List.filter_subset_self _))

theorem Renews.dropOldest (box : Outbox κ β) : box.Renews box.dropOldest := by
  unfold Outbox.dropOldest
  split
  · exact .erase box _ _
  · exact .refl box

theorem Renews.pop {bytes : β} (h : box.pop = some (bytes, after)) : box.Renews after := by
  unfold Outbox.pop at h
  split at h
  · contradiction
  · cases Option.some.inj h
    exact .erase box _ _

theorem Renews.makeRoomLocked (box : Outbox κ β) (key : Option κ) (frame : β) :
    box.Renews (box.makeRoomLocked key frame).1 := by
  unfold Outbox.makeRoomLocked
  split
  · exact .refl box
  · split
    · exact .overwrite box _ frame
    · exact .dropOldest box

end Outbox

namespace FrameChannel
variable {κ β : Type} [Ord κ] [TransOrd κ] [LawfulEqOrd κ]
open Outbox

theorem renews_sendLocked (channel : FrameChannel κ β) (frame : β) (key : Option κ) :
    channel.outbox.Renews (channel.sendLocked frame key).1.outbox := by
  have hroom := Renews.makeRoomLocked channel.outbox key frame
  unfold sendLocked
  generalize channel.outbox.makeRoomLocked key frame = result at hroom
  obtain ⟨outbox, replaced⟩ := result
  dsimp only
  split
  · exact hroom
  · split
    · have hpush := hroom.trans (.push outbox ‹_› frame key)
      split <;> exact hpush
    · exact hroom

theorem renews_drainLocked (channel : FrameChannel κ β) :
    channel.outbox.Renews channel.drainLocked.1.outbox := by
  unfold drainLocked
  split
  · exact .refl _
  · split
    · exact .pop ‹_›
    · exact .refl _

omit [LawfulEqOrd κ] in
theorem Sends.newest {channel after : FrameChannel κ β} {frame : β} {key : Option κ}
    {verdict : Verdict} (h : channel.Sends frame key after verdict)
    (hverdict : verdict = .replaced) :
    ∃ name front old back, key = some name ∧
      channel.outbox.coalescable[name]? = some old.node ∧
      channel.outbox.frames = front ++ old :: back ∧ old.coalesceKey = some name ∧
      (∀ later ∈ back, later.coalesceKey ≠ some name) ∧
      after.outbox.frames = front ++ { old with bytes := frame } :: back := by
  cases h with
  | replaced full hevicts hkey hindex hbefore hold hnewest hafter =>
    exact ⟨_, _, _, _, hkey, hindex, hbefore, hold, hnewest, hafter⟩
  | queued => split at hverdict <;> contradiction
  | evicted => split at hverdict <;> contradiction
  | overfull => contradiction

end FrameChannel

theorem ChannelRun.renews_step {κ β : Type} [Ord κ] [TransOrd κ] [LawfulEqOrd κ]
    {run after : ChannelRun κ β} {action : ChannelAction κ β}
    (h : run.step action = some after) : run.channel.outbox.Renews after.channel.outbox := by
  cases action with
  | lock thread =>
    simp only [step] at h
    split at h
    · cases Option.some.inj h
      exact run.channel.renews_sendLocked _ _
    · contradiction
  | drain =>
    have hdrain := run.channel.renews_drainLocked
    simp only [step] at h
    split at h
    · contradiction
    · generalize run.channel.drainLocked = result at h hdrain
      obtain ⟨channel, next⟩ := result
      cases next <;> (cases Option.some.inj h; exact hdrain)
  | clear thread =>
    cases step_move h
    exact .clear _
  | writeFail =>
    cases step_move h
    exact .clear _
  | send | spawn | close | shut | writeDone => cases step_move h <;> exact .refl _

/-- A run of a channel, with the nodes that have left its outbox. -/
structure NodeRun (κ β : Type) [Ord κ] [TransOrd κ] where
  run : ChannelRun κ β
  gone : List Nat

namespace NodeRun
variable {κ β : Type} [Ord κ] [TransOrd κ]

def initial : NodeRun κ β := ⟨.initial, []⟩

variable [LawfulEqOrd κ]

/-- Popped, dropped or cleared, a node that was queued before a step and is not after it has gone. -/
def step (state : NodeRun κ β) (action : ChannelAction κ β) : Option (NodeRun κ β) :=
  (state.run.step action).map fun after =>
    ⟨after, state.gone ++ state.run.channel.outbox.nodes.filter
      (· ∉ after.channel.outbox.nodes)⟩

/-- What has gone was queued once and is not any more. -/
structure Retired (state : NodeRun κ β) : Prop where
  old : ∀ node ∈ state.gone, node < state.run.channel.outbox.nextNode
  gone : ∀ node ∈ state.gone, node ∉ state.run.channel.outbox.nodes

theorem Retired.step {state after : NodeRun κ β} {action : ChannelAction κ β}
    (h : state.Retired) (hstep : state.step action = some after) : after.Retired := by
  obtain ⟨next, hnext, rfl⟩ := Option.map_eq_some_iff.mp hstep
  have hrenews := ChannelRun.renews_step hnext
  constructor
  · intro node hnode
    rcases List.mem_append.mp hnode with hgone | hleft
    · exact Nat.lt_of_lt_of_le (h.old node hgone) hrenews.nextNode
    · exact Nat.lt_of_lt_of_le (Outbox.lt_nextNode (List.mem_of_mem_filter hleft))
        hrenews.nextNode
  · intro node hnode hqueued
    rcases List.mem_append.mp hnode with hgone | hleft
    · rcases hrenews.nodes node hqueued with hkept | hnew
      · exact h.gone node hgone hkept
      · exact Nat.lt_irrefl _ (Nat.lt_of_lt_of_le (h.old node hgone) hnew)
    · have hout := (List.mem_filter.mp hleft).2
      rw [decide_eq_true_iff] at hout
      exact hout hqueued

theorem Retired.of_reach {state : NodeRun κ β}
    (h : Reach NodeRun.step unguarded NodeRun.initial state) :
    state.Retired :=
  h.invariant ⟨by simp [NodeRun.initial], by simp [NodeRun.initial]⟩ fun _ _ _ hstate _ hstep =>
    hstate.step hstep

/-- In every run the outbox is within its cap, an entry of the index leads to the last frame queued
for its key and never to one that has gone, and what is overwritten is such a frame. -/
theorem outbox_index_sound {state : NodeRun κ β} (h : Reach step unguarded initial state) :
    let channel := state.run.channel
    channel.outbox.frames.length ≤ kMaxOutboxFrames ∧
    (∀ (key : κ) (node : Nat), channel.outbox.coalescable[key]? = some node →
      node ∉ state.gone ∧
      ∃ front queued back, channel.outbox.frames = front ++ queued :: back ∧
        queued.node = node ∧ queued.coalesceKey = some key ∧
        ∀ later ∈ back, later.coalesceKey ≠ some key) ∧
    ∀ frame key, (channel.sendLocked frame key).2 = .replaced →
      ∃ name front old back, key = some name ∧
        channel.outbox.coalescable[name]? = some old.node ∧
        channel.outbox.frames = front ++ old :: back ∧ old.coalesceKey = some name ∧
        (∀ later ∈ back, later.coalesceKey ≠ some name) ∧
        (channel.sendLocked frame key).1.outbox.frames =
          front ++ { old with bytes := frame } :: back := by
  intro channel
  refine ⟨channel.outbox.bounded, ?_, ?_⟩
  · intro key node hindex
    obtain ⟨queued, hqueued, rfl, hkey, hnewest⟩ := channel.outbox.indexed key node hindex
    refine ⟨?_, ?_⟩
    · intro hgone
      exact (Retired.of_reach h).gone _ hgone (List.mem_map_of_mem hqueued)
    · obtain ⟨front, back, hsplit⟩ := List.append_of_mem hqueued
      refine ⟨front, queued, back, hsplit, rfl, hkey, ?_⟩
      intro later hlater hsame
      have hsorted := channel.outbox.sorted
      rw [hsplit, List.pairwise_append, List.pairwise_cons] at hsorted
      have hlt := hsorted.2.1.1 later hlater
      have hle := hnewest later (by rw [hsplit]; simp [hlater]) hsame
      omega
  · intro frame key hreplaced
    exact (channel.sendLocked_sends frame key).newest hreplaced

/-! A frame is taken by a drain before the next one for its key is queued. -/

def popped : List (ChannelAction Nat Nat) :=
  [.send 0 10 (some 1), .lock 0, .spawn 0, .drain, .send 0 11 (some 1), .lock 0]

theorem outbox_index_sound_popped : ∃ state : NodeRun Nat Nat,
    Reach step unguarded initial state ∧ state.gone = [0] ∧
      state.run.channel.outbox.coalescable[1]? = some 1 ∧
      ∃ front queued back, state.run.channel.outbox.frames = front ++ queued :: back ∧
        queued.node = 1 ∧ queued.coalesceKey = some 1 ∧
        ∀ later ∈ back, later.coalesceKey ≠ some 1 := by
  have hrun : ∃ state : NodeRun Nat Nat, Reach step unguarded initial state ∧
      state.gone = [0] ∧ state.run.channel.outbox.coalescable[1]? = some 1 :=
    ⟨_, Reach.of_run popped (fun _ _ _ => trivial) rfl, rfl, rfl⟩
  obtain ⟨state, hreach, hgone, hindex⟩ := hrun
  exact ⟨state, hreach, hgone, hindex, ((outbox_index_sound hreach).2.1 1 1 hindex).2⟩

end NodeRun

end Srnp
