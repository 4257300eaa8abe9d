import Srnp.Pair
import Srnp.Lib.Ascending

/-! A frame channel: the frames queued for one peer and the flag of its drain.
The outbox is a list whose nodes keep their identity, since `coalescable_`
holds iterators into it; a node is a number here, given out in increasing
order. The fields of the outbox say that it is within its cap and that every
iterator of the index is the newest queued frame of its key. -/
namespace Srnp
open Std

/-- How many frames to hold for a peer that has stopped reading. -/
def kMaxOutboxFrames : Nat := 4096

structure Outbound (κ β : Type) where
  node : Nat
  bytes : β
  coalesceKey : Option κ
deriving DecidableEq

structure Outbox (κ β : Type) [Ord κ] [TransOrd κ] where
  frames : List (Outbound κ β)
  coalescable : ExtTreeMap κ Nat
  nextNode : Nat
  bounded : frames.length ≤ kMaxOutboxFrames
  fresh : ∀ queued ∈ frames, queued.node < nextNode
  sorted : frames.Pairwise fun earlier later => earlier.node < later.node
  indexed : ∀ (key : κ) (node : Nat), coalescable[key]? = some node →
    ∃ queued ∈ frames, queued.node = node ∧ queued.coalesceKey = some key ∧
      ∀ other ∈ frames, other.coalesceKey = some key → other.node ≤ node

namespace Outbox
variable {κ β : Type} [Ord κ] [TransOrd κ]

def empty : Outbox κ β where
  frames := []
  coalescable := ∅
  nextNode := 0
  bounded := Nat.zero_le _
  fresh := by simp
  sorted := List.Pairwise.nil
  indexed := by simp

variable [LawfulEqOrd κ]

/-- `push_back`, and the index follows the key to the new node. -/
def push (box : Outbox κ β) (room : box.frames.length < kMaxOutboxFrames) (bytes : β)
    (key : Option κ) : Outbox κ β where
  frames := box.frames ++ [⟨box.nextNode, bytes, key⟩]
  coalescable := match key with
    | some key => box.coalescable.insert key box.nextNode
    | none => box.coalescable
  nextNode := box.nextNode + 1
  bounded := by
    rw [List.length_append, List.length_singleton]
    omega
  fresh := by
    intro queued hqueued
    rcases List.mem_append.mp hqueued with hold | hnew
    · have hlt := box.fresh queued hold
      omega
    · rw [List.mem_singleton.mp hnew]
      exact Nat.lt_succ_self _
  sorted := Ascending.concat box.sorted box.fresh
  indexed := by
    intro found node hnode
    have hold : ∀ node, key ≠ some found → box.coalescable[found]? = some node →
        ∃ queued ∈ box.frames ++ [⟨box.nextNode, bytes, key⟩], queued.node = node ∧
          queued.coalesceKey = some found ∧
          ∀ other ∈ box.frames ++ [⟨box.nextNode, bytes, key⟩],
            other.coalesceKey = some found → other.node ≤ node := by
      intro node hkey hnode
      obtain ⟨queued, hqueued, heq, hfound, hnewest⟩ := box.indexed found node hnode
      refine ⟨queued, List.mem_append_left _ hqueued, heq, hfound, ?_⟩
      intro other hother hsame
      rcases List.mem_append.mp hother with hother | hother
      · exact hnewest other hother hsame
      · rw [List.mem_singleton.mp hother] at hsame
        contradiction
    cases key with
    | none => exact hold node (by simp) hnode
    | some key =>
      simp only [ExtTreeMap.getElem?_insert] at hnode
      split at hnode
      · rename_i hsame
        cases Option.some.inj hnode
        have hsame := LawfulEqOrd.eq_of_compare hsame
        refine ⟨⟨box.nextNode, bytes, some key⟩, by simp, rfl, congrArg some hsame, ?_⟩
        intro other hother _
        rcases List.mem_append.mp hother with hother | hother
        · exact Nat.le_of_lt (box.fresh other hother)
        · rw [List.mem_singleton.mp hother]
      · rename_i hother
        apply hold node _ hnode
        intro heq
        apply hother
        rw [Option.some.inj heq]
        exact ReflOrd.compare_self

/-- Move a new value into a node that is still queued. -/
def overwrite (box : Outbox κ β) (node : Nat) (bytes : β) : Outbox κ β :=
  let replace (queued : Outbound κ β) : Outbound κ β :=
    if queued.node = node then { queued with bytes } else queued
  have hnode : ∀ queued, (replace queued).node = queued.node := by
    intro queued
    simp only [replace]
    split <;> rfl
  have hkey : ∀ queued, (replace queued).coalesceKey = queued.coalesceKey := by
    intro queued
    simp only [replace]
    split <;> rfl
  { box with
    frames := box.frames.map replace
    bounded := by
      rw [List.length_map]
      exact box.bounded
    fresh := by
      intro queued hqueued
      obtain ⟨old, hold, rfl⟩ := List.mem_map.mp hqueued
      rw [hnode]
      exact box.fresh old hold
    sorted := by
      rw [List.pairwise_map]
      exact box.sorted.imp fun hlt => by rwa [hnode, hnode]
    indexed := by
      intro key found hfound
      obtain ⟨queued, hqueued, heq, hsame, hnewest⟩ := box.indexed key found hfound
      refine ⟨replace queued, List.mem_map_of_mem hqueued, ?_, ?_, ?_⟩
      · rw [hnode]
        exact heq
      · rw [hkey]
        exact hsame
      · intro other hother hsame
        obtain ⟨old, hold, rfl⟩ := List.mem_map.mp hother
        rw [hkey] at hsame
        rw [hnode]
        exact hnewest old hold hsame }

/-- Take a node out of the queue, and its key out of the index even where the
index has moved on to a later node. -/
def erase (box : Outbox κ β) (victim : Outbound κ β) (member : victim ∈ box.frames) :
    Outbox κ β where
  frames := box.frames.filter fun queued => queued.node ≠ victim.node
  coalescable := match victim.coalesceKey with
    | some key => box.coalescable.erase key
    | none => box.coalescable
  nextNode := box.nextNode
  bounded := Nat.le_trans (List.length_filter_le _ _) box.bounded
  fresh := by
    intro queued hqueued
    exact box.fresh queued (List.mem_of_mem_filter hqueued)
  sorted := box.sorted.filter _
  indexed := by
    intro key node hnode
    have hkept : box.coalescable[key]? = some node ∧ victim.coalesceKey ≠ some key := by
      cases hvictim : victim.coalesceKey with
      | none =>
        rw [hvictim] at hnode
        exact ⟨hnode, by simp⟩
      | some erased =>
        rw [hvictim] at hnode
        simp only [ExtTreeMap.getElem?_erase] at hnode
        split at hnode
        · contradiction
        · rename_i hother
          refine ⟨hnode, ?_⟩
          intro heq
          apply hother
          rw [Option.some.inj heq]
          exact ReflOrd.compare_self
    obtain ⟨queued, hqueued, heq, hsame, hnewest⟩ := box.indexed key node hkept.1
    refine ⟨queued, ?_, heq, hsame, ?_⟩
    · rw [List.mem_filter, decide_eq_true_iff]
      refine ⟨hqueued, ?_⟩
      intro hvictim
      apply hkept.2
      rw [← Ascending.eq_of_measure box.sorted hqueued member hvictim]
      exact hsame
    · intro other hother
      exact hnewest other (List.mem_of_mem_filter hother)

def oldestKeyed (box : Outbox κ β) : Option (Outbound κ β) :=
  box.frames.find? fun queued => queued.coalesceKey.isSome

def dropOldest (box : Outbox κ β) : Outbox κ β :=
  match h : box.oldestKeyed with
  | some oldest => box.erase oldest (List.mem_of_find?_eq_some h)
  | none => box

def pop (box : Outbox κ β) : Option (β × Outbox κ β) :=
  match h : box.frames with
  | [] => none
  | first :: _ => some (first.bytes, box.erase first (by rw [h]; exact List.mem_cons_self))

def clear (box : Outbox κ β) : Outbox κ β :=
  { (empty : Outbox κ β) with
    nextNode := box.nextNode
    fresh := by simp [empty] }

/-! What the operations do to the queue. -/

theorem frames_erase {box : Outbox κ β} {front back : List (Outbound κ β)}
    {victim : Outbound κ β} (member : victim ∈ box.frames)
    (h : box.frames = front ++ victim :: back) :
    (box.erase victim member).frames = front ++ back := by
  have hsorted := box.sorted
  rw [h] at hsorted
  change box.frames.filter _ = _
  rw [h]
  exact Ascending.filter_ne hsorted

omit [LawfulEqOrd κ] in
theorem frames_overwrite {box : Outbox κ β} {front back : List (Outbound κ β)}
    {old : Outbound κ β} (h : box.frames = front ++ old :: back) (bytes : β) :
    (box.overwrite old.node bytes).frames = front ++ { old with bytes } :: back := by
  have hsorted := box.sorted
  rw [h, List.pairwise_append, List.pairwise_cons] at hsorted
  obtain ⟨_, ⟨hback, _⟩, hfront⟩ := hsorted
  have hsame : ∀ list : List (Outbound κ β), (∀ queued ∈ list, queued.node ≠ old.node) →
      (list.map fun queued => if queued.node = old.node then { queued with bytes } else queued) =
        list := by
    intro list hlist
    rw [List.map_congr_left (g := id), List.map_id]
    intro queued hqueued
    rw [if_neg (hlist queued hqueued)]
    rfl
  change box.frames.map _ = _
  rw [h, List.map_append, List.map_cons, hsame front, hsame back, if_pos rfl]
  · intro queued hqueued
    have hlt := hback queued hqueued
    omega
  · intro queued hqueued
    have hlt := hfront queued hqueued old List.mem_cons_self
    omega

theorem frames_dropOldest (box : Outbox κ β) :
    (∃ front victim back, box.frames = front ++ victim :: back ∧
      (∀ queued ∈ front, queued.coalesceKey = none) ∧ victim.coalesceKey.isSome ∧
      box.oldestKeyed = some victim ∧ box.dropOldest.frames = front ++ back) ∨
    ((∀ queued ∈ box.frames, queued.coalesceKey = none) ∧ box.oldestKeyed = none ∧
      box.dropOldest = box) := by
  unfold dropOldest
  split
  · rename_i victim hvictim
    left
    obtain ⟨hkeyed, front, back, hsplit, hfront⟩ := List.find?_eq_some_iff_append.mp hvictim
    refine ⟨front, victim, back, hsplit, ?_, hkeyed, hvictim, frames_erase _ hsplit⟩
    intro queued hqueued
    have hnone := hfront queued hqueued
    simpa using hnone
  · rename_i hnone
    right
    refine ⟨?_, hnone, rfl⟩
    intro queued hqueued
    have hkeyless := List.find?_eq_none.mp hnone queued hqueued
    simpa using hkeyless

theorem pop_nil {box : Outbox κ β} (h : box.frames = []) : box.pop = none := by
  unfold pop
  split
  · rfl
  · rename_i heq
    rw [h] at heq
    contradiction

theorem pop_cons {box : Outbox κ β} {first : Outbound κ β} {rest : List (Outbound κ β)}
    (h : box.frames = first :: rest) :
    ∃ after, box.pop = some (first.bytes, after) ∧ after.frames = rest := by
  unfold pop
  split
  · rename_i heq
    rw [h] at heq
    contradiction
  · rename_i head tail heq
    have hfirst : head = first := by
      rw [h] at heq
      exact (List.cons.inj heq).1.symm
    subst hfirst
    exact ⟨_, rfl, frames_erase _ (h.trans (List.nil_append _).symm)⟩

@[simp] theorem frames_push (box : Outbox κ β) (room : box.frames.length < kMaxOutboxFrames)
    (bytes : β) (key : Option κ) :
    (box.push room bytes key).frames = box.frames ++ [⟨box.nextNode, bytes, key⟩] := rfl

/-- True if the frame found a home. -/
def makeRoomLocked (box : Outbox κ β) (key : Option κ) (frame : β) : Outbox κ β × Bool :=
  if box.frames.length < kMaxOutboxFrames then (box, false)
  else
    match key.bind fun key => box.coalescable[key]? with
    | some node => (box.overwrite node frame, true)
    | none => (box.dropOldest, false)

def evicts (box : Outbox κ β) (key : Option κ) : Option (Outbound κ β) :=
  if box.frames.length < kMaxOutboxFrames then none
  else
    match key.bind fun key => box.coalescable[key]? with
    | some _ => none
    | none => box.oldestKeyed

end Outbox

/-- How the critical section of `send` ends: the frame replaced a queued one,
was queued for the running drain, was queued for a drain yet to be spawned, or
found the outbox full of frames that must stay. -/
inductive Verdict where
  | replaced
  | queued
  | spawn
  | overfull
deriving DecidableEq

structure FrameChannel (κ β : Type) [Ord κ] [TransOrd κ] where
  outbox : Outbox κ β
  writing : Bool
  closed : Bool

namespace FrameChannel
variable {κ β : Type} [Ord κ] [TransOrd κ]

def initial : FrameChannel κ β := ⟨.empty, false, false⟩

variable [LawfulEqOrd κ]

def sendLocked (channel : FrameChannel κ β) (frame : β) (key : Option κ) :
    FrameChannel κ β × Verdict :=
  let (outbox, replaced) := channel.outbox.makeRoomLocked key frame
  if replaced then ({ channel with outbox }, .replaced)
  else if room : outbox.frames.length < kMaxOutboxFrames then
    let outbox := outbox.push room frame key
    if channel.writing then ({ channel with outbox }, .queued)
    else ({ channel with outbox, writing := true }, .spawn)
  else ({ channel with outbox }, .overfull)

/-- The critical section of one turn of `drainOutbox`. -/
def drainLocked (channel : FrameChannel κ β) : FrameChannel κ β × Option β :=
  if channel.closed then ({ channel with writing := false }, none)
  else
    match channel.outbox.pop with
    | some (next, outbox) => ({ channel with outbox }, some next)
    | none => ({ channel with writing := false }, none)

inductive Sends (channel : FrameChannel κ β) (frame : β) (key : Option κ) :
    FrameChannel κ β → Verdict → Prop
  | replaced {name : κ} {front back : List (Outbound κ β)} {old : Outbound κ β}
      {outbox : Outbox κ β} (full : channel.outbox.frames.length = kMaxOutboxFrames)
      (hevicts : channel.outbox.evicts key = none) (hkey : key = some name)
      (hindex : channel.outbox.coalescable[name]? = some old.node)
      (hbefore : channel.outbox.frames = front ++ old :: back)
      (hold : old.coalesceKey = some name)
      (hnewest : ∀ later ∈ back, later.coalesceKey ≠ some name)
      (hafter : outbox.frames = front ++ { old with bytes := frame } :: back) :
      Sends channel frame key { channel with outbox } .replaced
  | queued {node : Nat} {outbox : Outbox κ β}
      (room : channel.outbox.frames.length < kMaxOutboxFrames)
      (hevicts : channel.outbox.evicts key = none)
      (hafter : outbox.frames = channel.outbox.frames ++ [⟨node, frame, key⟩]) :
      Sends channel frame key { channel with outbox, writing := true }
        (if channel.writing then .queued else .spawn)
  | evicted {front back : List (Outbound κ β)} {victim : Outbound κ β} {node : Nat}
      {outbox : Outbox κ β} (full : channel.outbox.frames.length = kMaxOutboxFrames)
      (hevicts : channel.outbox.evicts key = some victim)
      (hbefore : channel.outbox.frames = front ++ victim :: back)
      (hfront : ∀ queued ∈ front, queued.coalesceKey = none)
      (hkeyed : victim.coalesceKey.isSome)
      (hafter : outbox.frames = front ++ back ++ [⟨node, frame, key⟩]) :
      Sends channel frame key { channel with outbox, writing := true }
        (if channel.writing then .queued else .spawn)
  | overfull (full : channel.outbox.frames.length = kMaxOutboxFrames)
      (hevicts : channel.outbox.evicts key = none)
      (hkeyless : ∀ queued ∈ channel.outbox.frames, queued.coalesceKey = none) :
      Sends channel frame key channel .overfull

theorem sendLocked_of_room {channel : FrameChannel κ β} {frame : β} {key : Option κ}
    {outbox : Outbox κ β} (hroom : channel.outbox.makeRoomLocked key frame = (outbox, false))
    (room : outbox.frames.length < kMaxOutboxFrames) :
    channel.sendLocked frame key =
      ({ channel with outbox := outbox.push room frame key, writing := true },
        if channel.writing then .queued else .spawn) := by
  obtain ⟨box, writing, closed⟩ := channel
  simp only [sendLocked, hroom, Bool.false_eq_true, if_false, dif_pos room]
  cases writing <;> rfl

theorem sendLocked_sends (channel : FrameChannel κ β) (frame : β) (key : Option κ) :
    channel.Sends frame key (channel.sendLocked frame key).1 (channel.sendLocked frame key).2 := by
  by_cases room : channel.outbox.frames.length < kMaxOutboxFrames
  · have hroom : channel.outbox.makeRoomLocked key frame = (channel.outbox, false) := by
      rw [Outbox.makeRoomLocked, if_pos room]
    have hevicts : channel.outbox.evicts key = none := by
      rw [Outbox.evicts, if_pos room]
    rw [sendLocked_of_room hroom room]
    exact .queued room hevicts rfl
  have full : channel.outbox.frames.length = kMaxOutboxFrames :=
    Nat.le_antisymm channel.outbox.bounded (Nat.le_of_not_lt room)
  cases hindex : key.bind fun name => channel.outbox.coalescable[name]? with
  | some node =>
    have hroom : channel.outbox.makeRoomLocked key frame =
        (channel.outbox.overwrite node frame, true) := by
      rw [Outbox.makeRoomLocked, if_neg room, hindex]
    obtain ⟨name, rfl, hname⟩ := Option.bind_eq_some_iff.mp hindex
    obtain ⟨old, hmem, rfl, hold, hnewest⟩ := channel.outbox.indexed name node hname
    obtain ⟨front, back, hsplit⟩ := List.append_of_mem hmem
    have hsend : channel.sendLocked frame (some name) =
        ({ channel with outbox := channel.outbox.overwrite old.node frame }, .replaced) := by
      simp only [sendLocked, hroom, if_true]
    have hevicts : channel.outbox.evicts (some name) = none := by
      rw [Outbox.evicts, if_neg room, hindex]
    rw [hsend]
    refine .replaced full hevicts rfl hname hsplit hold ?_ (Outbox.frames_overwrite hsplit frame)
    intro later hlater hsame
    have hsorted := channel.outbox.sorted
    rw [hsplit, List.pairwise_append, List.pairwise_cons] at hsorted
    have hlt := hsorted.2.1.1 later hlater
    have hle := hnewest later (by rw [hsplit]; simp [hlater]) hsame
    omega
  | none =>
    have hroom : channel.outbox.makeRoomLocked key frame = (channel.outbox.dropOldest, false) := by
      rw [Outbox.makeRoomLocked, if_neg room, hindex]
    have hevicts : channel.outbox.evicts key = channel.outbox.oldestKeyed := by
      rw [Outbox.evicts, if_neg room, hindex]
    rcases channel.outbox.frames_dropOldest with
      ⟨front, victim, back, hsplit, hfront, hkeyed, hvictim, hdropped⟩ | ⟨hkeyless, hnone, hsame⟩
    · have hlength : channel.outbox.dropOldest.frames.length < kMaxOutboxFrames := by
        rw [hsplit] at full
        rw [hdropped]
        simp only [List.length_append, List.length_cons] at full ⊢
        omega
      have hpushed : (channel.outbox.dropOldest.push hlength frame key).frames =
          front ++ back ++ [⟨channel.outbox.dropOldest.nextNode, frame, key⟩] := by
        rw [Outbox.frames_push, hdropped]
      rw [sendLocked_of_room hroom hlength]
      exact .evicted full (hevicts.trans hvictim) hsplit hfront hkeyed hpushed
    · have hsend : channel.sendLocked frame key = (channel, .overfull) := by
        simp only [sendLocked, hroom, Bool.false_eq_true, if_false, hsame, dif_neg room]
      rw [hsend]
      exact .overfull full (hevicts.trans hnone) hkeyless

theorem mem_sendLocked (channel : FrameChannel κ β) {frame : β} {key : Option κ}
    {queued : Outbound κ β} (h : queued ∈ (channel.sendLocked frame key).1.outbox.frames) :
    queued.bytes = frame ∨ ∃ old ∈ channel.outbox.frames, old.bytes = queued.bytes := by
  have hsends := channel.sendLocked_sends frame key
  generalize channel.sendLocked frame key = result at h hsends
  obtain ⟨after, verdict⟩ := result
  cases hsends with
  | replaced full hevicts hkey hindex hbefore hold hnewest hafter =>
    dsimp only at h
    rw [hafter] at h
    rw [hbefore]
    rcases List.mem_append.mp h with hfront | hrest
    · exact Or.inr ⟨queued, List.mem_append_left _ hfront, rfl⟩
    · rcases List.mem_cons.mp hrest with hnew | hback
      · rw [hnew]
        exact Or.inl rfl
      · exact Or.inr ⟨queued, List.mem_append_right _ (List.mem_cons_of_mem _ hback), rfl⟩
  | queued room hevicts hafter =>
    dsimp only at h
    rw [hafter] at h
    rcases List.mem_append.mp h with hold | hnew
    · exact Or.inr ⟨queued, hold, rfl⟩
    · rw [List.mem_singleton.mp hnew]
      exact Or.inl rfl
  | evicted full hevicts hbefore hfront hkeyed hafter =>
    dsimp only at h
    rw [hafter] at h
    rw [hbefore]
    rcases List.mem_append.mp h with hold | hnew
    · rcases List.mem_append.mp hold with hfront | hback
      · exact Or.inr ⟨queued, List.mem_append_left _ hfront, rfl⟩
      · exact Or.inr ⟨queued, List.mem_append_right _ (List.mem_cons_of_mem _ hback), rfl⟩
    · rw [List.mem_singleton.mp hnew]
      exact Or.inl rfl
  | overfull full hevicts hkeyless => exact Or.inr ⟨queued, h, rfl⟩

inductive Drains (channel : FrameChannel κ β) : FrameChannel κ β → Option β → Prop
  | stopped (h : channel.closed = true ∨ channel.outbox.frames = []) :
      Drains channel { channel with writing := false } none
  | taken {first : Outbound κ β} {rest : List (Outbound κ β)} {outbox : Outbox κ β}
      (hopen : channel.closed = false) (hbefore : channel.outbox.frames = first :: rest)
      (hafter : outbox.frames = rest) :
      Drains channel { channel with outbox } (some first.bytes)

theorem drainLocked_drains (channel : FrameChannel κ β) :
    channel.Drains channel.drainLocked.1 channel.drainLocked.2 := by
  by_cases hclosed : channel.closed = true
  · rw [drainLocked, if_pos hclosed]
    exact .stopped (Or.inl hclosed)
  · rw [drainLocked, if_neg hclosed]
    cases hqueue : channel.outbox.frames with
    | nil =>
      rw [Outbox.pop_nil hqueue]
      exact .stopped (Or.inr hqueue)
    | cons first rest =>
      obtain ⟨outbox, hpop, hrest⟩ := Outbox.pop_cons hqueue
      rw [hpop]
      exact .taken (Bool.eq_false_iff.mpr hclosed) hqueue hrest

end FrameChannel

end Srnp
