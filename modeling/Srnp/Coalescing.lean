import Srnp.Backpressure

/-! The index of a queue against the frames it stands for. Below the cap a key
may have several frames in the queue and the index one entry, which goes with
the first of them to leave. The index covers the queue as long as no keyed
frame leaves while a later one of its key still waits. Of the frames of a key the
newest survives, unless it is dropped as the oldest keyed one of a full outbox. -/
namespace Srnp
open Std Transition QueueTrace

def Outbound.Lone {κ β : Type} (queued : Outbound κ β) (frames : List (Outbound κ β)) : Prop :=
  ∀ key, queued.coalesceKey = some key → ∀ other ∈ frames, other.coalesceKey = some key →
    other = queued

namespace Outbox
variable {κ β : Type} [Ord κ] [TransOrd κ]

def Waiting (box : Outbox κ β) (key : κ) : Prop :=
  ∃ queued ∈ box.frames, queued.coalesceKey = some key

/-- The index has an entry for the key exactly when a frame of it is queued. -/
def CoveredAt (box : Outbox κ β) (key : κ) : Prop :=
  box.coalescable[key]?.isSome ↔ box.Waiting key

def Covered (box : Outbox κ β) : Prop := ∀ key, box.CoveredAt key

theorem Covered.empty : (empty : Outbox κ β).Covered := by
  intro key
  simp [CoveredAt, Waiting, Outbox.empty]

theorem Covered.clear (box : Outbox κ β) : box.clear.Covered := Covered.empty

variable [LawfulEqOrd κ]

theorem coveredAt_push {box : Outbox κ β} (room : box.frames.length < kMaxOutboxFrames)
    (bytes : β) (pushed : Option κ) (key : κ) :
    (box.push room bytes pushed).CoveredAt key ↔ pushed = some key ∨ box.CoveredAt key := by
  cases pushed with
  | none => simp [CoveredAt, Waiting, push]
  | some other =>
    by_cases hsame : other = key
    · simp [CoveredAt, Waiting, push, hsame]
    · simp [CoveredAt, Waiting, push, hsame, ExtTreeMap.getElem?_insert]

omit [LawfulEqOrd κ] in
theorem coveredAt_overwrite (box : Outbox κ β) (node : Nat) (bytes : β) (key : κ) :
    (box.overwrite node bytes).CoveredAt key ↔ box.CoveredAt key := by
  have hkey : ∀ queued : Outbound κ β,
      (if queued.node = node then { queued with bytes } else queued).coalesceKey =
        queued.coalesceKey := by
    intro queued
    split <;> rfl
  simp only [CoveredAt, Waiting, overwrite, List.mem_map, exists_exists_and_eq_and, hkey]

theorem coveredAt_erase {box : Outbox κ β} {victim : Outbound κ β} (member : victim ∈ box.frames)
    {key : κ} (h : box.CoveredAt key) :
    (box.erase victim member).CoveredAt key ↔ (victim.coalesceKey = some key →
      ∀ other ∈ box.frames, other.coalesceKey = some key → other = victim) := by
  have hkept : ∀ other ∈ box.frames, (other ∈ (box.erase victim member).frames ↔ other ≠ victim) := by
    intro other hother
    change other ∈ box.frames.filter _ ↔ _
    rw [List.mem_filter, decide_eq_true_iff]
    refine ⟨?_, fun hne => ⟨hother, ?_⟩⟩
    · rintro ⟨_, hnode⟩ rfl
      exact hnode rfl
    · intro hnode
      exact hne (Ascending.eq_of_measure box.sorted hother member hnode)
  have hsubset : ∀ other ∈ (box.erase victim member).frames, other ∈ box.frames :=
    fun other hother => List.mem_of_mem_filter hother
  by_cases hkey : victim.coalesceKey = some key
  · have hindex : (box.erase victim member).coalescable[key]? = none := by
      simp [erase, hkey]
    simp only [CoveredAt, hindex, Option.isSome_none, Bool.false_eq_true, false_iff, hkey,
      true_implies]
    constructor
    · intro hnone other hother hsame
      by_contra hne
      exact hnone ⟨other, (hkept other hother).mpr hne, hsame⟩
    · rintro hlone ⟨other, hother, hsame⟩
      have hmem := hsubset other hother
      exact (hkept other hmem).mp hother (hlone other hmem hsame)
  · have hindex : (box.erase victim member).coalescable[key]? = box.coalescable[key]? := by
      cases hvictim : victim.coalesceKey with
      | none => simp [erase, hvictim]
      | some erased =>
        have hne : erased ≠ key := by
          rintro rfl
          exact hkey hvictim
        simp [erase, hvictim, ExtTreeMap.getElem?_erase, hne]
    have hwaiting : (box.erase victim member).Waiting key ↔ box.Waiting key := by
      constructor
      · rintro ⟨other, hother, hsame⟩
        exact ⟨other, hsubset other hother, hsame⟩
      · rintro ⟨other, hother, hsame⟩
        refine ⟨other, (hkept other hother).mpr ?_, hsame⟩
        rintro rfl
        exact hkey hsame
    simp only [CoveredAt, hindex, hwaiting, hkey, false_implies, iff_true]
    exact h

theorem covered_erase {box : Outbox κ β} {victim : Outbound κ β} (member : victim ∈ box.frames)
    (h : box.Covered) : (box.erase victim member).Covered ↔ victim.Lone box.frames :=
  forall_congr' fun key => coveredAt_erase member (h key)

theorem pop_erase {box : Outbox κ β} {first : Outbound κ β} {rest : List (Outbound κ β)}
    (h : box.frames = first :: rest) :
    ∃ member, box.pop = some (first.bytes, box.erase first member) := by
  refine ⟨h ▸ List.mem_cons_self, ?_⟩
  unfold pop
  split
  · rename_i heq
    rw [h] at heq
    contradiction
  · rename_i head tail heq
    have hfirst : head = first := by
      rw [h] at heq
      exact (List.cons.inj heq).1.symm
    subst hfirst
    rfl

theorem dropOldest_erase {box : Outbox κ β} {victim : Outbound κ β}
    (h : box.oldestKeyed = some victim) : ∃ member, box.dropOldest = box.erase victim member := by
  refine ⟨List.mem_of_find?_eq_some h, ?_⟩
  unfold dropOldest
  split
  · rename_i oldest holdest
    have hsame : oldest = victim := Option.some.inj (holdest.symm.trans h)
    subst hsame
    rfl
  · rename_i hnone
    rw [h] at hnone
    contradiction

def EvictsLone (box : Outbox κ β) (key : Option κ) : Prop :=
  ∀ victim, box.evicts key = some victim → victim.Lone box.frames

def PopsLone (box : Outbox κ β) : Prop :=
  ∀ first, box.frames.head? = some first → first.Lone box.frames

omit [LawfulEqOrd κ] in
theorem unindexed_of_evicts {box : Outbox κ β} {key : κ} {victim : Outbound κ β}
    (h : box.evicts (some key) = some victim) : box.coalescable[key]? = none := by
  unfold evicts at h
  split at h
  · contradiction
  · rw [Option.bind_some] at h
    split at h
    · contradiction
    · assumption

end Outbox

namespace FrameChannel
variable {κ β : Type} [Ord κ] [TransOrd κ] [LawfulEqOrd κ] {channel : FrameChannel κ β}

open Outbox

theorem covered_sendLocked (h : channel.outbox.Covered) (frame : β) (key : Option κ) :
    (channel.sendLocked frame key).1.outbox.Covered ↔ channel.outbox.EvictsLone key := by
  by_cases room : channel.outbox.frames.length < kMaxOutboxFrames
  · have hroom : channel.outbox.makeRoomLocked key frame = (channel.outbox, false) := by
      rw [makeRoomLocked, if_pos room]
    have hevicts : channel.outbox.evicts key = none := by
      rw [evicts, if_pos room]
    rw [sendLocked_of_room hroom room, EvictsLone, hevicts]
    refine iff_of_true ?_ (by simp)
    intro name
    exact (coveredAt_push room frame key name).mpr (Or.inr (h name))
  have full : channel.outbox.frames.length = kMaxOutboxFrames :=
    Nat.le_antisymm channel.outbox.bounded (Nat.le_of_not_lt room)
  cases hindex : key.bind fun name => channel.outbox.coalescable[name]? with
  | some node =>
    have hsend : channel.sendLocked frame key =
        ({ channel with outbox := channel.outbox.overwrite node frame }, .replaced) := by
      simp only [sendLocked, makeRoomLocked, if_neg room, hindex, if_true]
    have hevicts : channel.outbox.evicts key = none := by
      rw [evicts, if_neg room, hindex]
    rw [hsend, EvictsLone, hevicts]
    refine iff_of_true ?_ (by simp)
    intro name
    exact (coveredAt_overwrite _ node frame name).mpr (h name)
  | none =>
    have hroom : channel.outbox.makeRoomLocked key frame = (channel.outbox.dropOldest, false) := by
      rw [makeRoomLocked, if_neg room, hindex]
    have hevicts : channel.outbox.evicts key = channel.outbox.oldestKeyed := by
      rw [evicts, if_neg room, hindex]
    rw [EvictsLone, hevicts]
    rcases channel.outbox.frames_dropOldest with
      ⟨front, victim, back, hsplit, hfront, hkeyed, hvictim, hdropped⟩ | ⟨_, hnone, hsame⟩
    · have hlength : channel.outbox.dropOldest.frames.length < kMaxOutboxFrames := by
        rw [hsplit] at full
        rw [hdropped]
        simp only [List.length_append, List.length_cons] at full ⊢
        omega
      obtain ⟨member, herase⟩ := dropOldest_erase hvictim
      have hpushed : ∀ name, (channel.sendLocked frame key).1.outbox.CoveredAt name ↔
          key = some name ∨ (channel.outbox.erase victim member).CoveredAt name := by
        intro name
        rw [sendLocked_of_room hroom hlength, ← herase]
        exact coveredAt_push hlength frame key name
      constructor
      · intro hcovered found heq name hname
        cases Option.some.inj (hvictim.symm.trans heq)
        rcases (hpushed name).mp (hcovered name) with hkey | herased
        · rw [hkey, Option.bind_some] at hindex
          have hwaiting := (h name).mpr ⟨victim, member, hname⟩
          rw [hindex] at hwaiting
          contradiction
        · exact (coveredAt_erase member (h name)).mp herased hname
      · intro hlone name
        exact (hpushed name).mpr (Or.inr ((covered_erase member h).mpr (hlone victim hvictim) name))
    · have hsend : channel.sendLocked frame key = (channel, .overfull) := by
        simp only [sendLocked, hroom, Bool.false_eq_true, if_false, hsame, dif_neg room]
      rw [hsend, hnone]
      exact iff_of_true h (by simp)

theorem covered_drainLocked (h : channel.outbox.Covered) :
    channel.drainLocked.1.outbox.Covered ↔
      (channel.closed = false → channel.outbox.PopsLone) := by
  cases hclosed : channel.closed with
  | true =>
    rw [drainLocked, if_pos hclosed]
    exact iff_of_true h (by simp)
  | false =>
    rw [drainLocked, if_neg (by simp [hclosed])]
    cases hqueue : channel.outbox.frames with
    | nil =>
      rw [pop_nil hqueue]
      refine iff_of_true h ?_
      intro _ first hfirst
      rw [hqueue] at hfirst
      contradiction
    | cons first rest =>
      obtain ⟨member, hpop⟩ := pop_erase hqueue
      rw [hpop]
      have herased := covered_erase member h
      constructor
      · intro hcovered _ found hfound
        rw [hqueue] at hfound
        cases Option.some.inj hfound
        exact herased.mp hcovered
      · intro hlone
        exact herased.mpr (hlone rfl first (by rw [hqueue]; rfl))

def OverwritesNewest (channel : FrameChannel κ β) (frame : β) (key : κ) : Prop :=
  ∃ front old back, channel.outbox.frames = front ++ old :: back ∧
    old.coalesceKey = some key ∧ (∀ later ∈ back, later.coalesceKey ≠ some key) ∧
    (channel.sendLocked frame (some key)).1.outbox.frames =
      front ++ { old with bytes := frame } :: back

theorem OverwritesNewest.of_waiting (full : channel.outbox.frames.length = kMaxOutboxFrames)
    {key : κ} (hcovered : channel.outbox.CoveredAt key) (hwaiting : channel.outbox.Waiting key)
    (frame : β) : channel.OverwritesNewest frame key := by
  have hindexed := hcovered.mpr hwaiting
  have hsends := channel.sendLocked_sends frame (some key)
  unfold OverwritesNewest
  generalize channel.sendLocked frame (some key) = result at hsends ⊢
  obtain ⟨after, verdict⟩ := result
  have hevicts : channel.outbox.evicts (some key) = none := by
    obtain ⟨node, hnode⟩ := Option.isSome_iff_exists.mp hindexed
    rw [evicts, if_neg (by omega), Option.bind_some, hnode]
  cases hsends with
  | replaced full hnone hkey hindex hbefore hold hnewest hafter =>
    cases hkey
    exact ⟨_, _, _, hbefore, hold, hnewest, hafter⟩
  | queued room => omega
  | evicted full hvictim =>
    rw [hevicts] at hvictim
    contradiction
  | overfull full hnone hkeyless =>
    obtain ⟨queued, hqueued, hkey⟩ := hwaiting
    rw [hkeyless queued hqueued] at hkey
    contradiction

end FrameChannel

namespace ChannelRun
variable {κ β : Type} [Ord κ] [TransOrd κ] [LawfulEqOrd κ] {run : ChannelRun κ β}

open Outbox

/-- No keyed frame is taken or dropped while another of its key is queued. -/
def TakesLone (run : ChannelRun κ β) : ChannelAction κ β → Prop
  | .lock thread => ∀ bytes key, run.calls thread = .locking bytes key →
      run.channel.outbox.EvictsLone key
  | .drain => run.channel.closed = false → run.channel.outbox.PopsLone
  | _ => True

/-- From a covered queue a step keeps the index exactly when it takes no frame too early. -/
theorem covered_step (h : run.channel.outbox.Covered) {action : ChannelAction κ β}
    {after : ChannelRun κ β} (hstep : run.step action = some after) :
    after.channel.outbox.Covered ↔ run.TakesLone action := by
  cases action with
  | lock thread =>
    simp only [ChannelRun.step] at hstep
    split at hstep
    · rename_i bytes key hcall
      cases Option.some.inj hstep
      refine (FrameChannel.covered_sendLocked h _ key).trans ?_
      constructor
      · intro hlone bytes' key' hcall'
        rw [hcall] at hcall'
        cases hcall'
        exact hlone
      · intro hlone
        exact hlone bytes key hcall
    · contradiction
  | drain =>
    have hdrain := FrameChannel.covered_drainLocked h
    simp only [ChannelRun.step] at hstep
    split at hstep
    · contradiction
    · generalize run.channel.drainLocked = result at hstep hdrain
      obtain ⟨channel, next⟩ := result
      cases next <;> cases Option.some.inj hstep <;> exact hdrain
  | clear =>
    cases step_move hstep
    exact iff_of_true (Covered.clear _) trivial
  | writeFail =>
    cases step_move hstep
    exact iff_of_true (Covered.clear _) trivial
  | _ =>
    refine iff_of_true ?_ trivial
    cases step_move hstep <;> exact h

theorem covered_of_reach (h : Reach ChannelRun.step TakesLone ChannelRun.initial run) :
    run.channel.outbox.Covered :=
  h.invariant (I := fun run => run.channel.outbox.Covered) Covered.empty
    fun _ _ _ hcovered hguard hstep => (covered_step hcovered hstep).mpr hguard

/-- While no frame leaves ahead of another of its key, the index covers the queue, and at the cap
a send overwrites the newest frame of its key; the first frame that does leave so ends it. -/
theorem waiting_key_overwritten (h : Reach ChannelRun.step TakesLone ChannelRun.initial run) :
    (∀ key, run.channel.outbox.coalescable[key]?.isSome ↔
      ∃ queued ∈ run.channel.outbox.frames, queued.coalesceKey = some key) ∧
    (run.channel.outbox.frames.length = kMaxOutboxFrames → ∀ key frame,
      (∃ queued ∈ run.channel.outbox.frames, queued.coalesceKey = some key) →
      run.channel.OverwritesNewest frame key) ∧
    (∀ action after, run.step action = some after →
      (after.channel.outbox.Covered ↔ run.TakesLone action)) := by
  have hcovered := covered_of_reach h
  refine ⟨hcovered, ?_, ?_⟩
  · intro full key frame hwaiting
    exact .of_waiting full (hcovered key) hwaiting frame
  · intro action after hstep
    exact covered_step hcovered hstep

/-! ### The newest frame of a key -/

/-- Given up for a later frame, as the oldest keyed frame of a full outbox. -/
def GaveUp (run : ChannelRun κ β) (frame : Sent κ β) : Prop :=
  ∃ drop ∈ run.drops, drop.victim = frame ∧ Drop.OldestOfFull drop ∧
    drop.sender ∈ run.sent ∧ frame.stamp < drop.sender.stamp

/-- No frame of the key that displaced the victim was waiting. -/
def NoneWaiting (drop : Drop κ β) : Prop :=
  ∀ key, drop.sender.coalesceKey = some key → ∀ frame ∈ drop.queue, frame.coalesceKey ≠ some key

theorem noneWaiting_lock (hvalid : run.trace.Valid) (hcovered : run.channel.outbox.Covered)
    (h : ∀ drop ∈ run.drops, NoneWaiting drop) (thread : ThreadId) (bytes : β) (key : Option κ) :
    ∀ drop ∈ (run.lock thread bytes key).drops, NoneWaiting drop := by
  intro drop hdrop
  simp only [lock] at hdrop
  split at hdrop
  · rename_i victim hvictim
    rcases List.mem_append.mp hdrop with hdrop | hdrop
    · exact h drop hdrop
    · rw [List.mem_singleton.mp hdrop]
      intro name hname frame hframe hsame
      obtain ⟨queued, hqueued, rfl⟩ := List.mem_map.mp hframe
      change key = some name at hname
      rw [hname] at hvictim
      have hwaiting : run.channel.outbox.Waiting name :=
        ⟨queued, hqueued, (hvalid.keyed queued hqueued).symm.trans hsame⟩
      have hindexed := (hcovered name).mpr hwaiting
      rw [unindexed_of_evicts hvictim] at hindexed
      contradiction
  · exact h drop hdrop

theorem noneWaiting_step {action : ChannelAction κ β} {after : ChannelRun κ β}
    (hvalid : run.trace.Valid) (hcovered : run.channel.outbox.Covered)
    (h : ∀ drop ∈ run.drops, NoneWaiting drop) (hstep : run.step action = some after) :
    ∀ drop ∈ after.drops, NoneWaiting drop := by
  cases step_move hstep with
  | lock => exact noneWaiting_lock hvalid hcovered h _ _ _
  | _ => exact h

section
variable [DecidableEq κ]

theorem noneWaiting (h : Reach ChannelRun.step TakesLone ChannelRun.initial run)
    (hintact : run.Intact) : ∀ drop ∈ run.drops, NoneWaiting drop := by
  have hkept : (run.Consistent ∧ run.channel.outbox.Covered) ∧
      (run.Intact → ∀ drop ∈ run.drops, NoneWaiting drop) := by
    refine h.invariant (I := fun run => (run.Consistent ∧ run.channel.outbox.Covered) ∧
      (run.Intact → ∀ drop ∈ run.drops, NoneWaiting drop))
      ⟨⟨.initial, .empty⟩, by simp [ChannelRun.initial]⟩ ?_
    rintro before action after ⟨⟨hbefore, hcovered⟩, hdrops⟩ hguard hstep
    refine ⟨⟨hbefore.step hstep, (covered_step hcovered hstep).mpr hguard⟩, ?_⟩
    intro hintact
    have hintact' := intact_of_step hstep hintact
    exact noneWaiting_step (hbefore.valid hintact') hcovered (hdrops hintact') hstep
  exact hkept.2 hintact

omit [LawfulEqOrd κ] in
theorem le_last (hvalid : run.trace.Valid) {name : κ} {frame : Sent κ β}
    (hlast : (run.sent.filter (carries name)).getLast? = some frame) {later : Sent κ β}
    (hlater : later ∈ run.sent) (hcarries : carries name later) : later.stamp ≤ frame.stamp :=
  Ascending.le_of_getLast? (hvalid.ascending.filter (carries name)) hlast later
    (List.mem_filter.mpr ⟨hlater, hcarries⟩)

omit [LawfulEqOrd κ] in
/-- What became of the last frame of a key: of the four fates of a frame, a refusal would
still be to close the channel, and no later frame has replaced it. -/
theorem fate_of_last (hrun : run.Consistent) (hopen : run.Open) {name : κ} {frame : Sent κ β}
    (hlast : (run.sent.filter (carries name)).getLast? = some frame) :
    frame ∈ run.queued ∨ frame ∈ run.written ∨ run.GaveUp frame := by
  have hmem := List.mem_filter.mp (List.mem_of_getLast? hlast)
  rcases (hrun.newest hopen.1).newest name frame hmem.1 hmem.2 with
    hframe | hdrop | hrefused | ⟨later, hlater, hcarries, hlt⟩
  · rcases List.mem_append.mp hframe with hwritten | hqueued
    · exact Or.inr (Or.inl hwritten)
    · exact Or.inl hqueued
  · obtain ⟨drop, hdrop, hvictim⟩ := List.mem_map.mp hdrop
    obtain ⟨hsender, hlt⟩ := (hrun.drops hopen.1).later drop hdrop
    rw [hvictim] at hlt
    exact Or.inr (Or.inr ⟨drop, hdrop, hvictim, (hrun.drops hopen.1).oldest drop hdrop,
      hsender, hlt⟩)
  · have hnone : run.refused = [] := hrun.refused_nil hopen
    change frame ∈ run.refused at hrefused
    rw [hnone] at hrefused
    contradiction
  · have hle := le_last (hrun.valid hopen.1) hlast hlater hcarries
    omega

omit [LawfulEqOrd κ] in
theorem last_written (hrun : run.Consistent) (hintact : run.Intact) {name : κ}
    {frame : Sent κ β} (hlast : (run.sent.filter (carries name)).getLast? = some frame)
    (hempty : run.queued = []) (hwritten : frame ∈ run.written) :
    (run.written.filter (carries name)).getLast? = some frame := by
  have hmem := List.mem_filter.mp (List.mem_of_getLast? hlast)
  have hvalid := hrun.valid hintact
  have hframes : run.trace.frames = run.written := by
    change run.written ++ run.queued = run.written
    rw [hempty, List.append_nil]
  have horder := (hrun.newest hintact).order name
  rw [hframes] at horder
  apply Ascending.getLast?_of_greatest horder (List.mem_filter.mpr ⟨hwritten, hmem.2⟩)
  intro other hother
  obtain ⟨hother, hcarries⟩ := List.mem_filter.mp hother
  apply le_last hvalid hlast _ hcarries
  apply hvalid.known
  rw [hframes]
  exact hother

/-- The last frame sent for a key is queued, written or given up; once the
outbox is drained, it is the last one written unless it was given up. Where no frame
leaves ahead of another of its key, it is given up only for a frame of a key that
has none waiting. -/
theorem newest_survives (h : Reach ChannelRun.step unguarded ChannelRun.initial run)
    (hopen : run.Open) {name : κ} {frame : Sent κ β}
    (hlast : (run.sent.filter (carries name)).getLast? = some frame) :
    (frame ∈ run.queued ∨ frame ∈ run.written ∨ run.GaveUp frame) ∧
      (run.queued = [] → ¬ run.GaveUp frame →
        (run.written.filter (carries name)).getLast? = some frame) ∧
      (Reach ChannelRun.step TakesLone ChannelRun.initial run →
        ∀ drop ∈ run.drops, NoneWaiting drop) := by
  have hrun := Consistent.of_reach h
  have hfate := fate_of_last hrun hopen hlast
  refine ⟨hfate, ?_, fun hlone => noneWaiting hlone hopen.1⟩
  intro hempty hkept
  apply last_written hrun hopen.1 hlast hempty
  rcases hfate with hqueued | hwritten | hgaveUp
  · rw [hempty] at hqueued
    contradiction
  · exact hwritten
  · exact absurd hgaveUp hkept

end

theorem newest_survives_in_turn : ∃ run : ChannelRun PairKey Message,
    Reach ChannelRun.step unguarded ChannelRun.initial run ∧
      (⟨1, update 1, some someKey⟩ ∈ run.queued ∨ ⟨1, update 1, some someKey⟩ ∈ run.written ∨
        run.GaveUp ⟨1, update 1, some someKey⟩) := by
  have hrun : ∃ run : ChannelRun PairKey Message,
      Reach ChannelRun.step unguarded ChannelRun.initial run ∧ run.Intact ∧
        (∀ thread, run.calls thread = .idle) ∧
        (run.sent.filter (carries someKey)).getLast? = some ⟨1, update 1, some someKey⟩ := by
    refine ⟨_, Reach.of_run inTurn (fun _ _ _ => trivial) rfl, ⟨rfl, rfl⟩, ?_, rfl⟩
    intro thread
    match thread with
    | 0 => rfl
    | 1 => rfl
    | thread + 2 => rfl
  obtain ⟨run, hreach, hintact, hidle, hlast⟩ := hrun
  exact ⟨run, hreach, (newest_survives hreach (open_of_idle hintact hidle) hlast).1⟩

/-! ### An outbox at its cap -/

structure Steady (run : ChannelRun PairKey Message) : Prop where
  idle : run.calls 1 = .idle
  isOpen : run.channel.closed = false
  writing : run.channel.writing = true

theorem Steady.push {run : ChannelRun PairKey Message} (h : run.Steady)
    (hroom : run.channel.outbox.frames.length < kMaxOutboxFrames) :
    ∃ after queued, Reach ChannelRun.step TakesLone run after ∧ after.Steady ∧
      after.channel.outbox.coalescable = run.channel.outbox.coalescable ∧
      after.channel.outbox.frames = run.channel.outbox.frames ++ [queued] := by
  have hsend : run.step (.send 1 removal none) = some (run.sending removal none) := by
    simp only [ChannelRun.step, h.idle, h.isOpen]
    rfl
  have hlock : (run.sending removal none).step (.lock 1) =
      some ((run.sending removal none).lock 1 removal none) := by
    simp [ChannelRun.step, sending]
  have room : (run.sending removal none).channel.outbox.frames.length < kMaxOutboxFrames := hroom
  have hguard : (run.sending removal none).TakesLone (.lock 1) := by
    intro bytes key _ victim hvictim
    rw [Outbox.evicts, if_pos room] at hvictim
    contradiction
  rw [lock_of_room room h.writing] at hlock
  have hfirst : Reach ChannelRun.step TakesLone run (run.sending removal none) :=
    Reach.refl.tail (by trivial) hsend
  refine ⟨_, _, hfirst.tail hguard hlock, ⟨?_, h.isOpen, h.writing⟩, rfl, rfl⟩
  exact Function.update_self (f := (run.sending removal none).calls) 1 _

theorem Steady.fill (count : Nat) {run : ChannelRun PairKey Message} (h : run.Steady)
    (hroom : run.channel.outbox.frames.length + count ≤ kMaxOutboxFrames) :
    ∃ after, Reach ChannelRun.step TakesLone run after ∧
      after.channel.outbox.coalescable = run.channel.outbox.coalescable ∧
      ∃ rest, rest.length = count ∧
        after.channel.outbox.frames = run.channel.outbox.frames ++ rest := by
  induction count generalizing run with
  | zero => exact ⟨run, .refl, rfl, [], rfl, (List.append_nil _).symm⟩
  | succ count ih =>
    obtain ⟨next, queued, hnext, hsteady, hindex, hframes⟩ := h.push (by omega)
    have hleft : next.channel.outbox.frames.length + count ≤ kMaxOutboxFrames := by
      rw [hframes, List.length_append, List.length_singleton]
      omega
    obtain ⟨after, hafter, hsame, rest, hlength, hrest⟩ := ih hsteady hleft
    refine ⟨after, hnext.trans hafter, hsame.trans hindex, queued :: rest, ?_, ?_⟩
    · rw [List.length_cons, hlength]
    · rw [hrest, hframes, List.append_assoc, List.singleton_append]

theorem waiting_key_overwritten_at_cap : ∃ run : ChannelRun PairKey Message,
    Reach ChannelRun.step TakesLone ChannelRun.initial run ∧
      run.channel.outbox.frames.length = kMaxOutboxFrames ∧
      run.channel.OverwritesNewest ⟨4096, update 2, some someKey⟩ someKey := by
  have hrun : ∃ run : ChannelRun PairKey Message,
      Reach ChannelRun.step TakesLone ChannelRun.initial run ∧ run.Steady ∧
        run.channel.outbox.frames = [⟨0, ⟨0, update 1, some someKey⟩, some someKey⟩] := by
    let below (run : ChannelRun PairKey Message) : ChannelAction PairKey Message → Bool
      | .drain => false
      | _ => run.channel.outbox.frames.length < kMaxOutboxFrames
    have hbelow : ∀ run action, below run action → run.TakesLone action := by
      intro run action hroom
      cases action with
      | lock thread =>
        intro bytes key _ victim hvictim
        rw [Outbox.evicts, if_pos (decide_eq_true_iff.mp hroom)] at hvictim
        contradiction
      | drain => contradiction
      | _ => trivial
    exact ⟨_, Reach.of_checked hbelow [.send 0 (update 1) (some someKey), .lock 0] rfl,
      ⟨rfl, rfl, rfl⟩, rfl⟩
  obtain ⟨run, hreach, hsteady, hqueue⟩ := hrun
  obtain ⟨after, hafter, _, rest, hlength, hframes⟩ := hsteady.fill 4095 (by rw [hqueue]; decide)
  rw [hqueue] at hframes
  have full : after.channel.outbox.frames.length = kMaxOutboxFrames := by
    rw [hframes, List.length_append, hlength]
    rfl
  have hreached := hreach.trans hafter
  refine ⟨after, hreached, full, ?_⟩
  apply (waiting_key_overwritten hreached).2.1 full
  refine ⟨⟨0, ⟨0, update 1, some someKey⟩, some someKey⟩, ?_, rfl⟩
  rw [hframes]
  exact List.mem_append_left _ List.mem_cons_self

def otherKey : PairKey := ⟨1000, [106]⟩

def otherUpdate : Message := .pairUpdate { owner := 1000, key := [106], value := [0] }

/-- An update of the key is written while a newer one waits behind an update of another key. -/
def passedOver : List (ChannelAction PairKey Message) :=
  [.send 0 (update 1) (some someKey), .lock 0, .spawn 0,
    .send 1 otherUpdate (some otherKey), .lock 1, .send 1 (update 2) (some someKey), .lock 1, .drain]

/-- At the cap the next update of the key drops the other key's, although one of its own waits. -/
theorem waiting_key_drops_another :
    ∃ run : ChannelRun PairKey Message, Reach ChannelRun.step unguarded ChannelRun.initial run ∧
      run.channel.outbox.frames.length = kMaxOutboxFrames ∧
      run.channel.outbox.Waiting someKey ∧ run.channel.outbox.coalescable[someKey]? = none ∧
      ∃ other ∈ run.channel.outbox.frames, other.coalesceKey = some otherKey ∧ ∀ frame,
        other ∉ (run.channel.sendLocked frame (some someKey)).1.outbox.frames ∧
          ¬ run.channel.OverwritesNewest frame someKey := by
  let other : Outbound PairKey (Sent PairKey Message) :=
    ⟨1, ⟨1, otherUpdate, some otherKey⟩, some otherKey⟩
  let newer : Outbound PairKey (Sent PairKey Message) :=
    ⟨2, ⟨2, update 2, some someKey⟩, some someKey⟩
  have hdistinct : some otherKey ≠ some someKey := by decide
  have hrun : ∃ run : ChannelRun PairKey Message,
      Reach ChannelRun.step unguarded ChannelRun.initial run ∧ run.Steady ∧
        run.channel.outbox.coalescable[someKey]? = none ∧
        run.channel.outbox.frames = [other, newer] :=
    ⟨_, Reach.of_run passedOver (fun _ _ _ => trivial) rfl, ⟨rfl, rfl, rfl⟩, by decide, rfl⟩
  obtain ⟨run, hreach, hsteady, hindex, hqueue⟩ := hrun
  obtain ⟨after, hafter, hsame, rest, hlength, hframes⟩ := hsteady.fill 4094 (by rw [hqueue]; decide)
  rw [hqueue] at hframes
  rw [← hsame] at hindex
  have full : after.channel.outbox.frames.length = kMaxOutboxFrames := by
    rw [hframes, List.length_append, hlength]
    rfl
  have hother : other ∈ after.channel.outbox.frames := by
    rw [hframes]
    exact List.mem_cons_self
  refine ⟨after, hreach.trans (hafter.mono fun _ _ _ => trivial), full, ⟨newer, ?_, rfl⟩, hindex,
    other, hother, rfl, ?_⟩
  · rw [hframes]
    exact List.mem_cons_of_mem _ List.mem_cons_self
  intro frame
  have hdropped : other ∉ (after.channel.sendLocked frame (some someKey)).1.outbox.frames := by
    have hsends := after.channel.sendLocked_sends frame (some someKey)
    generalize after.channel.sendLocked frame (some someKey) = result at hsends ⊢
    obtain ⟨channel, verdict⟩ := result
    cases hsends with
    | replaced _ _ hkey hold =>
      cases hkey
      rw [hindex] at hold
      contradiction
    | queued room => omega
    | @evicted front back victim node outbox _ _ hbefore hfront hkeyed hdrop =>
      have hsplit := hframes.symm.trans hbefore
      cases front with
      | nil =>
        have hsorted := after.channel.outbox.sorted
        rw [hbefore, List.nil_append, List.pairwise_cons] at hsorted
        cases hsplit
        intro hmem
        change other ∈ outbox.frames at hmem
        rw [hdrop] at hmem
        rcases List.mem_append.mp hmem with hmem | hmem
        · exact Nat.lt_irrefl _ (hsorted.1 other hmem)
        · have hkey := congrArg Outbound.coalesceKey (List.mem_singleton.mp hmem)
          exact absurd hkey hdistinct
      | cons queued front =>
        have hsome := hfront queued List.mem_cons_self
        rw [← (List.cons.inj hsplit).1] at hsome
        contradiction
    | overfull _ _ hnone =>
      have hkey := hnone other hother
      contradiction
  refine ⟨hdropped, ?_⟩
  rintro ⟨front, old, back, hbefore, hkey, _, hover⟩
  apply hdropped
  rw [hbefore] at hother
  rw [hover]
  rcases List.mem_append.mp hother with hmem | hmem
  · exact List.mem_append_left _ hmem
  · rcases List.mem_cons.mp hmem with heq | hmem
    · rw [← heq] at hkey
      exact absurd hkey hdistinct
    · exact List.mem_append_right _ (List.mem_cons_of_mem _ hmem)

end ChannelRun

end Srnp
