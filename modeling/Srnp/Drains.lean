import Srnp.Backpressure

/-! The flag of a channel against the drains that are really there: those about
to take a frame, those waiting for a write, and those a call of `send` has
still to spawn. There is one of them while the flag is set and none otherwise,
and the flag is set while an open channel has a frame to write. -/
namespace Srnp
open Std Transition

namespace ChannelRun
variable {κ β : Type} [Ord κ] [TransOrd κ]

def spawners (calls : ThreadId → SendCall κ β) : Set ThreadId := {thread | calls thread = .spawning}

noncomputable def drains (run : ChannelRun κ β) : ℕ∞ :=
  (run.ready + run.awaiting : Nat) + (spawners run.calls).encard

omit [Ord κ] [TransOrd κ] in
theorem spawners_update {calls : ThreadId → SendCall κ β} {thread : ThreadId}
    {call : SendCall κ β} (hbefore : calls thread ≠ .spawning) (hafter : call ≠ .spawning) :
    spawners (Function.update calls thread call) = spawners calls := by
  ext other
  simp only [spawners, Set.mem_ofPred_eq, Function.update_apply]
  split
  · rename_i heq
    rw [heq]
    exact iff_of_false hafter hbefore
  · rfl

omit [Ord κ] [TransOrd κ] in
theorem encard_spawners_commit {calls : ThreadId → SendCall κ β} {thread : ThreadId}
    (hcall : calls thread ≠ .spawning) :
    (spawners (Function.update calls thread .spawning)).encard = (spawners calls).encard + 1 := by
  have hinsert : spawners (Function.update calls thread .spawning) =
      insert thread (spawners calls) := by
    ext other
    simp only [spawners, Set.mem_ofPred_eq, Set.mem_insert_iff, Function.update_apply]
    split <;> simp [*]
  rw [hinsert, Set.encard_insert_of_notMem (s := spawners calls) hcall]

omit [Ord κ] [TransOrd κ] in
theorem encard_spawners_spawn {calls : ThreadId → SendCall κ β} {thread : ThreadId}
    {call : SendCall κ β} (hcall : calls thread = .spawning) (hafter : call ≠ .spawning) :
    (spawners (Function.update calls thread call)).encard + 1 = (spawners calls).encard := by
  have hdiff : spawners (Function.update calls thread call) = spawners calls \ {thread} := by
    ext other
    simp only [spawners, Set.mem_ofPred_eq, Set.mem_sdiff, Set.mem_singleton_iff,
      Function.update_apply]
    split <;> simp [*]
  rw [hdiff, Set.encard_sdiff_singleton_add_one (s := spawners calls) hcall]

/-- The flag counts the drains, and an open channel with a frame to write has it set. -/
structure Driven (run : ChannelRun κ β) : Prop where
  counted : run.drains = if run.channel.writing then 1 else 0
  awake : run.channel.closed = false → run.channel.outbox.frames ≠ [] → run.channel.writing = true

namespace Driven
variable {run : ChannelRun κ β}

theorem initial : Driven (initial : ChannelRun κ β) := by
  constructor
  · simp [drains, spawners, ChannelRun.initial, FrameChannel.initial]
  · intro _ hframes
    exact absurd rfl hframes

theorem last (h : run.Driven) {left : ℕ∞} (hone : run.drains = left + 1) :
    run.channel.writing = true ∧ left = 0 := by
  have hcounted := h.counted
  rw [hone] at hcounted
  split at hcounted
  · rename_i hwriting
    exact ⟨hwriting, by simpa using hcounted⟩
  · exact absurd hcounted (by simp)

theorem same {after : ChannelRun κ β} (h : run.Driven) (hchannel : after.channel = run.channel)
    (hdrains : after.drains = run.drains) : after.Driven := by
  constructor
  · rw [hdrains, hchannel]
    exact h.counted
  · rw [hchannel]
    exact h.awake

theorem move {after : ChannelRun κ β} (h : run.Driven) {thread : ThreadId}
    {call : SendCall κ β} (hcalls : after.calls = Function.update run.calls thread call)
    (hbefore : run.calls thread ≠ .spawning) (hafter : call ≠ .spawning)
    (hready : after.ready = run.ready) (hawaiting : after.awaiting = run.awaiting)
    (hwriting : after.channel.writing = run.channel.writing)
    (hawake : after.channel.closed = false → after.channel.outbox.frames ≠ [] →
      run.channel.closed = false ∧ run.channel.outbox.frames ≠ []) : after.Driven := by
  constructor
  · rw [drains, hcalls, spawners_update hbefore hafter, hready, hawaiting, hwriting]
    exact h.counted
  · intro hopen hframes
    rw [hwriting]
    exact h.awake (hawake hopen hframes).1 (hawake hopen hframes).2

theorem stopped {after : ChannelRun κ β} (h : run.Driven) (hone : run.drains = after.drains + 1)
    (hwriting : after.channel.writing = false)
    (hidle : after.channel.closed = true ∨ after.channel.outbox.frames = []) : after.Driven := by
  constructor
  · rw [hwriting, (h.last hone).2]
    rfl
  · intro hopen hframes
    rcases hidle with hclosed | hnil
    · rw [hopen] at hclosed
      contradiction
    · exact absurd hnil hframes

/-- A call that queued a frame spawns a drain exactly when the flag was not set. -/
theorem pushed (h : run.Driven) {thread : ThreadId} {after : ChannelRun κ β}
    (hcall : run.calls thread ≠ .spawning) {verdict : Verdict} {stamp : Nat}
    (hverdict : verdict = if run.channel.writing then .queued else .spawn)
    (hcalls : after.calls = Function.update run.calls thread (verdict.resume stamp))
    (hready : after.ready = run.ready) (hawaiting : after.awaiting = run.awaiting)
    (hwriting : after.channel.writing = true) : after.Driven := by
  refine ⟨?_, fun _ _ => hwriting⟩
  have hcounted := h.counted
  rw [drains, hcalls, hready, hawaiting, hwriting]
  rw [drains] at hcounted
  cases hflag : run.channel.writing with
  | true =>
    rw [hflag] at hverdict hcounted
    rw [hverdict, if_pos rfl, spawners_update hcall (by simp [Verdict.resume])]
    exact hcounted
  | false =>
    rw [hflag] at hverdict hcounted
    rw [hverdict, if_neg (by simp), Verdict.resume, encard_spawners_commit hcall, ← add_assoc,
      hcounted]
    rfl

variable [LawfulEqOrd κ]

theorem lock (h : run.Driven) {thread : ThreadId} {bytes : β} {key : Option κ}
    (hcall : run.calls thread = .locking bytes key) : (run.lock thread bytes key).Driven := by
  have hspawning : run.calls thread ≠ .spawning := by simp [hcall]
  have hsends := run.channel.sendLocked_sends ⟨run.sent.length, bytes, key⟩ key
  simp only [ChannelRun.lock]
  generalize run.channel.sendLocked ⟨run.sent.length, bytes, key⟩ key = result at hsends ⊢
  obtain ⟨channel, verdict⟩ := result
  cases hsends with
  | replaced full hevicts hkey hindex hbefore hold hnewest hafter =>
    refine h.move rfl hspawning (by simp [Verdict.resume]) rfl rfl rfl ?_
    intro hopen _
    refine ⟨hopen, ?_⟩
    rw [hbefore]
    simp
  | queued room hevicts hafter => exact h.pushed hspawning rfl rfl rfl rfl rfl
  | evicted full hevicts hbefore hfront hkeyed hafter =>
    exact h.pushed hspawning rfl rfl rfl rfl rfl
  | overfull =>
    exact h.move rfl hspawning (by simp [Verdict.resume]) rfl rfl rfl fun hopen hframes =>
      ⟨hopen, hframes⟩

theorem step {after : ChannelRun κ β} {action : ChannelAction κ β} (h : run.Driven)
    (hstep : run.step action = some after) : after.Driven := by
  cases step_move hstep with
  | ignore => exact h
  | send hcall _ => exact h.move rfl (by simp [hcall]) (by simp) rfl rfl rfl fun ho hf => ⟨ho, hf⟩
  | lock hcall => exact h.lock hcall
  | @spawn thread hcall =>
    refine h.same rfl ?_
    have hidle : (.idle : SendCall κ β) ≠ .spawning := by simp
    have hone := encard_spawners_spawn hcall hidle
    simp only [drains]
    rw [← hone, add_comm (Set.encard _) 1, ← add_assoc]
    push_cast
    ring
  | close hcall => exact h.move rfl (by simp [hcall]) (by simp) rfl rfl rfl fun ho hf => ⟨ho, hf⟩
  | shut hcall =>
    refine h.move rfl (by simp [hcall]) (by split <;> simp) rfl rfl rfl ?_
    intro hopen
    contradiction
  | clear hcall =>
    refine h.move rfl (by simp [hcall]) (by simp) rfl rfl rfl ?_
    intro _ hframes
    exact absurd rfl hframes
  | stop hready hstop =>
    refine h.stopped ?_ rfl hstop
    simp only [drains]
    have hpred : run.ready + run.awaiting = run.ready - 1 + run.awaiting + 1 := by omega
    rw [hpred]
    push_cast
    ring
  | take hready hopen hqueue hrest =>
    have hdrains : run.ready - 1 + (run.awaiting + 1) = run.ready + run.awaiting := by omega
    constructor
    · simp only [drains, hdrains]
      exact h.counted
    · intro _ _
      exact h.awake hopen (by simp [hqueue])
  | writeDone hawaiting =>
    refine h.same rfl ?_
    have hdrains : run.ready + 1 + (run.awaiting - 1) = run.ready + run.awaiting := by omega
    simp only [drains, hdrains]
  | writeFail hawaiting =>
    refine h.stopped ?_ rfl (Or.inr rfl)
    simp only [drains]
    have hpred : run.ready + run.awaiting = run.ready + (run.awaiting - 1) + 1 := by omega
    rw [hpred]
    push_cast
    ring

theorem of_reach {guard : ChannelRun κ β → ChannelAction κ β → Prop}
    (h : Reach ChannelRun.step guard ChannelRun.initial run) : run.Driven :=
  h.invariant .initial fun _ _ _ hrun _ hstep => hrun.step hstep

omit [LawfulEqOrd κ] in
theorem awaiting_le (h : run.Driven) : run.awaiting ≤ 1 := by
  have hle : run.drains ≤ 1 := by
    rw [h.counted]
    split <;> simp
  have hwaiting : ((run.ready + run.awaiting : Nat) : ℕ∞) ≤ 1 := le_self_add.trans hle
  have hnat : run.ready + run.awaiting ≤ 1 := by exact_mod_cast hwaiting
  omega

end Driven

variable [LawfulEqOrd κ]

/-- As many drains run or are about to be spawned as `writing_` says, so at most one write is in
flight, and an open channel with a frame to write has one. -/
theorem one_drain {run : ChannelRun κ β}
    (h : Reach ChannelRun.step unguarded ChannelRun.initial run) :
    run.drains = (if run.channel.writing then 1 else 0) ∧ run.awaiting ≤ 1 ∧
    (run.channel.closed = false → run.channel.outbox.frames ≠ [] →
      0 < run.ready ∨ 0 < run.awaiting ∨ ∃ thread, run.calls thread = .spawning) := by
  have hdriven := Driven.of_reach h
  have hle : run.drains ≤ 1 := by
    rw [hdriven.counted]
    split <;> simp
  refine ⟨hdriven.counted, ?_, ?_⟩
  · have hawaiting : ((run.ready + run.awaiting : Nat) : ℕ∞) ≤ 1 := le_self_add.trans hle
    have hnat : run.ready + run.awaiting ≤ 1 := by exact_mod_cast hawaiting
    omega
  · intro hopen hframes
    by_contra hnone
    push Not at hnone
    have hcounted := hdriven.counted
    have hspawners : spawners run.calls = ∅ := by
      ext thread
      exact iff_of_false (hnone.2.2 thread) (Set.notMem_empty thread)
    rw [hdriven.awake hopen hframes, drains, hspawners, Set.encard_empty,
      Nat.le_zero.mp hnone.1, Nat.le_zero.mp hnone.2.1] at hcounted
    simp at hcounted

theorem one_drain_in_turn : ∃ run : ChannelRun PairKey Message,
    Reach ChannelRun.step unguarded ChannelRun.initial run ∧
      (run.channel.closed = false ∧ run.channel.outbox.frames ≠ []) ∧ run.drains = 1 ∧
      (0 < run.ready ∨ 0 < run.awaiting ∨ ∃ thread, run.calls thread = .spawning) := by
  have hrun : ∃ run : ChannelRun PairKey Message,
      Reach ChannelRun.step unguarded ChannelRun.initial run ∧
        (run.channel.closed = false ∧ run.channel.outbox.frames ≠ []) ∧
        run.channel.writing = true := by
    refine ⟨_, Reach.of_run inTurn (fun _ _ _ => trivial) rfl, ⟨rfl, ?_⟩, rfl⟩
    let waiting : Outbound PairKey (Sent PairKey Message) :=
      ⟨1, ⟨1, update 1, some someKey⟩, some someKey⟩
    exact List.cons_ne_nil waiting []
  obtain ⟨run, hreach, hwaiting, hwriting⟩ := hrun
  have hdrain := one_drain hreach
  refine ⟨run, hreach, hwaiting, ?_, hdrain.2.2 hwaiting.1 hwaiting.2⟩
  rw [hdrain.1, hwriting]
  rfl

end ChannelRun

end Srnp
