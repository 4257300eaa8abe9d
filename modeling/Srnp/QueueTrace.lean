import Srnp.FrameChannel

/-! What a frame channel does to the frames of one connection, without its
threads and its index: frames are sent, one at a time, and leave from the
front. Every frame carries the number of frames sent before it, so that two
frames with the same bytes are still told apart. -/
namespace Srnp

structure Sent (κ β : Type) where
  stamp : Nat
  bytes : β
  coalesceKey : Option κ
deriving DecidableEq

/-- A keyed frame that was given up for a later one. -/
structure Drop (κ β : Type) where
  victim : Sent κ β
  sender : Sent κ β
  queue : List (Sent κ β)

structure QueueTrace (κ β : Type) where
  queue : List (Outbound κ (Sent κ β))
  sent : List (Sent κ β)
  pushed : List (Sent κ β)
  refused : List (Sent κ β)
  written : List (Sent κ β)
  drops : List (Drop κ β)
  /-- Whether a send has found the outbox at its cap. -/
  full : Bool

/-- An overwrite names the key and the frames behind the one overwritten. -/
inductive QueueEvent (κ β : Type) where
  | send
  | overwrite (name : κ) (behind : List (Outbound κ (Sent κ β)))
  | pop

namespace QueueTrace
variable {κ β : Type}

def start : QueueTrace κ β := ⟨[], [], [], [], [], [], false⟩

def next (trace : QueueTrace κ β) (bytes : β) (key : Option κ) : Sent κ β :=
  ⟨trace.sent.length, bytes, key⟩

/-- Everything written so far, then everything that is still to be. -/
def frames (trace : QueueTrace κ β) : List (Sent κ β) :=
  trace.written ++ trace.queue.map (·.bytes)

inductive Step (trace : QueueTrace κ β) : QueueEvent κ β → QueueTrace κ β → Prop
  | replaced {bytes : β} {name : κ} {front back : List (Outbound κ (Sent κ β))}
      {old : Outbound κ (Sent κ β)} (full : trace.queue.length = kMaxOutboxFrames)
      (hbefore : trace.queue = front ++ old :: back) (hold : old.coalesceKey = some name)
      (hnewest : ∀ later ∈ back, later.coalesceKey ≠ some name) :
      Step trace (.overwrite name back) { trace with
        queue := front ++ { old with bytes := trace.next bytes (some name) } :: back
        sent := trace.sent ++ [trace.next bytes (some name)]
        full := true }
  | queued {bytes : β} {key : Option κ} {node : Nat}
      (room : trace.queue.length < kMaxOutboxFrames) :
      Step trace .send { trace with
        queue := trace.queue ++ [⟨node, trace.next bytes key, key⟩]
        sent := trace.sent ++ [trace.next bytes key]
        pushed := trace.pushed ++ [trace.next bytes key] }
  | evicted {bytes : β} {key : Option κ} {front back : List (Outbound κ (Sent κ β))}
      {victim : Outbound κ (Sent κ β)} {node : Nat}
      (full : trace.queue.length = kMaxOutboxFrames)
      (hbefore : trace.queue = front ++ victim :: back)
      (hfront : ∀ queued ∈ front, queued.coalesceKey = none)
      (hkeyed : victim.coalesceKey.isSome) :
      Step trace .send { trace with
        queue := front ++ back ++ [⟨node, trace.next bytes key, key⟩]
        sent := trace.sent ++ [trace.next bytes key]
        pushed := trace.pushed ++ [trace.next bytes key]
        drops := trace.drops ++
          [⟨victim.bytes, trace.next bytes key, trace.queue.map (·.bytes)⟩]
        full := true }
  | refused {bytes : β} {key : Option κ} (full : trace.queue.length = kMaxOutboxFrames)
      (hkeyless : ∀ queued ∈ trace.queue, queued.coalesceKey = none) :
      Step trace .send { trace with
        sent := trace.sent ++ [trace.next bytes key]
        refused := trace.refused ++ [trace.next bytes key]
        full := true }
  | popped {first : Outbound κ (Sent κ β)} {rest : List (Outbound κ (Sent κ β))}
      (h : trace.queue = first :: rest) :
      Step trace .pop { trace with queue := rest, written := trace.written ++ [first.bytes] }

theorem frames_split {trace : QueueTrace κ β} {front back : List (Outbound κ (Sent κ β))}
    {middle : Outbound κ (Sent κ β)} (h : trace.queue = front ++ middle :: back) :
    trace.frames =
      (trace.written ++ front.map (·.bytes)) ++ middle.bytes :: back.map (·.bytes) := by
  simp [frames, h]

theorem frames_queued (trace : QueueTrace κ β) (last : Outbound κ (Sent κ β))
    (sent pushed : List (Sent κ β)) :
    frames { trace with queue := trace.queue ++ [last], sent := sent, pushed := pushed } =
      trace.frames ++ [last.bytes] := by
  simp [frames]

theorem frames_evicted (trace : QueueTrace κ β) (front back : List (Outbound κ (Sent κ β)))
    (last : Outbound κ (Sent κ β)) (sent pushed : List (Sent κ β)) (drops : List (Drop κ β)) :
    frames { trace with
      queue := front ++ back ++ [last], sent := sent, pushed := pushed, drops := drops
      full := true } =
        ((trace.written ++ front.map (·.bytes)) ++ back.map (·.bytes)) ++ [last.bytes] := by
  simp [frames]

theorem evicted_sublist {trace : QueueTrace κ β} {front back : List (Outbound κ (Sent κ β))}
    {victim : Outbound κ (Sent κ β)} (h : trace.queue = front ++ victim :: back) :
    List.Sublist ((trace.written ++ front.map (·.bytes)) ++ back.map (·.bytes)) trace.frames := by
  rw [frames_split h]
  exact List.Sublist.append_left (List.sublist_cons_self _ _) _

theorem frames_popped {trace : QueueTrace κ β} {first : Outbound κ (Sent κ β)}
    {rest : List (Outbound κ (Sent κ β))} (h : trace.queue = first :: rest) :
    frames { trace with queue := rest, written := trace.written ++ [first.bytes] } =
      trace.frames := by
  simp [frames, h]

theorem Step.sent_pop {trace after : QueueTrace κ β} (h : Step trace .pop after) :
    after.sent = trace.sent := by
  cases h
  rfl

/-- Stamps count the frames sent, and only frames that were sent are about. -/
structure Valid (trace : QueueTrace κ β) : Prop where
  keyed : ∀ queued ∈ trace.queue, queued.bytes.coalesceKey = queued.coalesceKey
  stamped : ∀ frame ∈ trace.sent, frame.stamp < trace.sent.length
  ascending : trace.sent.Pairwise fun earlier later => earlier.stamp < later.stamp
  known : ∀ frame ∈ trace.frames, frame ∈ trace.sent

theorem Valid.start : Valid (start : QueueTrace κ β) := by
  constructor <;> simp [QueueTrace.start, frames]

variable {trace after : QueueTrace κ β} {event : QueueEvent κ β}

theorem Valid.stamp_lt (h : Valid trace) {frame : Sent κ β} (hframe : frame ∈ trace.frames)
    (bytes : β) (key : Option κ) : frame.stamp < (trace.next bytes key).stamp :=
  h.stamped frame (h.known frame hframe)

theorem stamped_next (hstamped : ∀ frame ∈ trace.sent, frame.stamp < trace.sent.length)
    (bytes : β) (key : Option κ) :
    ∀ frame ∈ trace.sent ++ [trace.next bytes key],
      frame.stamp < (trace.sent ++ [trace.next bytes key]).length := by
  intro frame hframe
  rw [List.length_append, List.length_singleton]
  rcases List.mem_append.mp hframe with hold | hnew
  · have hlt := hstamped frame hold
    omega
  · rw [List.mem_singleton.mp hnew]
    exact Nat.lt_succ_self _

theorem Valid.step (h : Valid trace) (hstep : Step trace event after) : Valid after := by
  have hsent : ∀ frame ∈ trace.frames, ∀ extra, frame ∈ trace.sent ++ [extra] := by
    intro frame hframe extra
    exact List.mem_append_left _ (h.known frame hframe)
  cases hstep with
  | @replaced bytes name front back old full hbefore hold hnewest =>
    have hframes := frames_split hbefore
    constructor
    · intro queued hqueued
      have hkeyed := h.keyed queued
      rw [hbefore] at hkeyed
      rcases List.mem_append.mp hqueued with hfront | hback
      · exact hkeyed (List.mem_append_left _ hfront)
      · rcases List.mem_cons.mp hback with rfl | hback
        · exact hold.symm
        · exact hkeyed (List.mem_append_right _ (List.mem_cons_of_mem _ hback))
    · exact stamped_next h.stamped bytes (some name)
    · exact Ascending.concat h.ascending h.stamped
    · intro frame hframe
      rw [frames_split rfl] at hframe
      rcases List.mem_append.mp hframe with hfront | hback
      · exact hsent frame (by rw [hframes]; exact List.mem_append_left _ hfront) _
      · rcases List.mem_cons.mp hback with rfl | hback
        · exact List.mem_append_right _ (List.mem_singleton_self _)
        · exact hsent frame (by
            rw [hframes]
            exact List.mem_append_right _ (List.mem_cons_of_mem _ hback)) _
  | @queued bytes key node room =>
    constructor
    · intro queued hqueued
      rcases List.mem_append.mp hqueued with hold | hnew
      · exact h.keyed queued hold
      · rw [List.mem_singleton.mp hnew]
        rfl
    · exact stamped_next h.stamped bytes key
    · exact Ascending.concat h.ascending h.stamped
    · intro frame hframe
      rw [frames_queued] at hframe
      rcases List.mem_append.mp hframe with hold | hnew
      · exact hsent frame hold _
      · exact List.mem_append_right _ hnew
  | @evicted bytes key front back victim node full hbefore hfront hkeyed =>
    constructor
    · intro queued hqueued
      have hkeyed := h.keyed queued
      rw [hbefore] at hkeyed
      rcases List.mem_append.mp hqueued with hold | hnew
      · rcases List.mem_append.mp hold with hfront | hback
        · exact hkeyed (List.mem_append_left _ hfront)
        · exact hkeyed (List.mem_append_right _ (List.mem_cons_of_mem _ hback))
      · rw [List.mem_singleton.mp hnew]
        rfl
    · exact stamped_next h.stamped bytes key
    · exact Ascending.concat h.ascending h.stamped
    · intro frame hframe
      rw [frames_evicted] at hframe
      rcases List.mem_append.mp hframe with hold | hnew
      · exact hsent frame ((evicted_sublist hbefore).subset hold) _
      · exact List.mem_append_right _ hnew
  | @refused bytes key full hkeyless =>
    refine ⟨h.keyed, stamped_next h.stamped bytes key, Ascending.concat h.ascending h.stamped, ?_⟩
    intro frame hframe
    exact hsent frame hframe _
  | @popped first rest hqueue =>
    refine ⟨?_, h.stamped, h.ascending, ?_⟩
    · intro queued hqueued
      exact h.keyed queued (by rw [hqueue]; exact List.mem_cons_of_mem _ hqueued)
    · rw [frames_popped hqueue]
      exact h.known

/-! ### Control frames -/

def keyless (frame : Sent κ β) : Bool := frame.coalesceKey.isNone

def Handled (trace : QueueTrace κ β) : Prop :=
  ∀ frame ∈ trace.sent, keyless frame → frame ∈ trace.pushed ∨ frame ∈ trace.refused

/-- Frames without a key leave in the order they were pushed, and so do all
frames as long as no send has met the cap. -/
structure ControlKept (trace : QueueTrace κ β) : Prop where
  order : trace.frames.filter keyless = trace.pushed.filter keyless
  fifo : trace.full = false → trace.frames = trace.pushed

theorem ControlKept.start : ControlKept (start : QueueTrace κ β) := by
  constructor <;> simp [QueueTrace.start, frames]

theorem not_keyless {frame : Sent κ β} (h : frame.coalesceKey.isSome) : ¬ keyless frame = true := by
  rw [keyless, Option.isNone_iff_eq_none]
  intro hnone
  rw [hnone] at h
  contradiction

theorem Handled.step (h : Handled trace) (hstep : Step trace event after) : Handled after := by
  have hpush : ∀ new : Sent κ β, ∀ frame ∈ trace.sent ++ [new], keyless frame →
      frame ∈ trace.pushed ++ [new] ∨ frame ∈ trace.refused := by
    intro new frame hframe hkeyless
    rcases List.mem_append.mp hframe with hold | hnew
    · rcases h frame hold hkeyless with hpushed | hrefused
      · exact Or.inl (List.mem_append_left _ hpushed)
      · exact Or.inr hrefused
    · exact Or.inl (List.mem_append_right _ hnew)
  cases hstep with
  | replaced =>
    intro frame hframe hkeyless
    rcases List.mem_append.mp hframe with hframe | hframe
    · exact h frame hframe hkeyless
    · rw [List.mem_singleton.mp hframe] at hkeyless
      contradiction
  | queued => exact hpush _
  | evicted => exact hpush _
  | refused =>
    intro frame hframe hkeyless
    rcases List.mem_append.mp hframe with hframe | hframe
    · rcases h frame hframe hkeyless with hpushed | hrefused
      · exact Or.inl hpushed
      · exact Or.inr (List.mem_append_left _ hrefused)
    · exact Or.inr (List.mem_append_right _ hframe)
  | popped => exact h

theorem ControlKept.step (h : ControlKept trace) (hvalid : Valid trace)
    (hstep : Step trace event after) : ControlKept after := by
  cases hstep with
  | @replaced bytes name front back old full hbefore hold hnewest =>
    have hnew : ¬ keyless (trace.next bytes (some name)) = true := not_keyless rfl
    have hkeyed : ¬ keyless old.bytes = true := by
      apply not_keyless
      rw [hvalid.keyed old (by simp [hbefore]), hold]
      rfl
    constructor
    · have horder := h.order
      rw [frames_split hbefore, List.filter_append, List.filter_cons_of_neg hkeyed] at horder
      rw [frames_split rfl, List.filter_append, List.filter_cons_of_neg hnew]
      exact horder
    · intro hfull
      contradiction
  | @queued bytes key node room =>
    constructor
    · rw [frames_queued, List.filter_append, List.filter_append, h.order]
    · intro hfull
      rw [frames_queued, h.fifo hfull]
  | @evicted bytes key front back victim node full hbefore hfront hkeyed =>
    have hgone : ¬ keyless victim.bytes = true := by
      apply not_keyless
      rw [hvalid.keyed victim (by simp [hbefore])]
      exact hkeyed
    constructor
    · have horder := h.order
      rw [frames_split hbefore, List.filter_append, List.filter_cons_of_neg hgone] at horder
      rw [frames_evicted, List.filter_append, List.filter_append, horder, ← List.filter_append]
    · intro hfull
      contradiction
  | @refused bytes key full hkeyless =>
    refine ⟨h.order, ?_⟩
    intro hfull
    contradiction
  | @popped first rest hqueue =>
    constructor
    · rw [frames_popped hqueue]
      exact h.order
    · rw [frames_popped hqueue]
      exact h.fifo

/-! ### The newest frame of a key -/

section
variable [DecidableEq κ]

def carries (name : κ) (frame : Sent κ β) : Bool := frame.coalesceKey = some name

theorem order_append {list : List (Sent κ β)} {new : Sent κ β} (name : κ)
    (h : (list.filter (carries name)).Pairwise fun earlier later => earlier.stamp < later.stamp)
    (hnew : ∀ frame ∈ list, frame.stamp < new.stamp) :
    ((list ++ [new]).filter (carries name)).Pairwise
      fun earlier later => earlier.stamp < later.stamp := by
  rw [List.filter_append, List.pairwise_append]
  refine ⟨h, (List.pairwise_singleton _ _).filter _, ?_⟩
  intro earlier hearlier later hlater
  rw [List.mem_singleton.mp (List.mem_of_mem_filter hlater)]
  exact hnew earlier (List.mem_of_mem_filter hearlier)

theorem order_replace {front back : List (Sent κ β)} {old new : Sent κ β} {name : κ} (other : κ)
    (h : ((front ++ old :: back).filter (carries other)).Pairwise
      fun earlier later => earlier.stamp < later.stamp)
    (hold : carries name old) (hnew : carries name new)
    (hfront : ∀ frame ∈ front, frame.stamp < new.stamp)
    (hback : ∀ frame ∈ back, ¬ carries name frame) :
    ((front ++ new :: back).filter (carries other)).Pairwise
      fun earlier later => earlier.stamp < later.stamp := by
  rw [List.filter_append] at h
  by_cases hname : name = other
  · subst hname
    have hnone : back.filter (carries name) = [] := List.filter_eq_nil_iff.mpr hback
    have happend := order_append name (List.pairwise_append.mp h).1 hfront
    rw [List.filter_append, List.filter_cons_of_pos hnew, hnone]
    rwa [List.filter_append, List.filter_cons_of_pos hnew] at happend
  · have hother : ∀ frame : Sent κ β, carries name frame → ¬ carries other frame = true := by
      intro frame hcarries hsame
      rw [carries, decide_eq_true_iff] at hcarries hsame
      exact hname (Option.some.inj (hcarries.symm.trans hsame))
    rw [List.filter_cons_of_neg (hother old hold)] at h
    rw [List.filter_append, List.filter_cons_of_neg (hother new hnew)]
    exact h

def Kept (trace : QueueTrace κ β) (name : κ) (frame : Sent κ β) : Prop :=
  frame ∈ trace.frames ∨ frame ∈ trace.drops.map (·.victim) ∨ frame ∈ trace.refused ∨
    ∃ later ∈ trace.sent, carries name later ∧ frame.stamp < later.stamp

theorem Kept.mono {name : κ} {frame : Sent κ β} (h : Kept trace name frame)
    (hframes : frame ∈ trace.frames → Kept after name frame)
    (hdrops : trace.drops ⊆ after.drops) (hrefused : trace.refused ⊆ after.refused)
    (hsent : trace.sent ⊆ after.sent) : Kept after name frame := by
  rcases h with hframe | hdrop | hrefuse | ⟨later, hlater, hcarries, hlt⟩
  · exact hframes hframe
  · exact Or.inr (Or.inl (List.map_subset _ hdrops hdrop))
  · exact Or.inr (Or.inr (Or.inl (hrefused hrefuse)))
  · exact Or.inr (Or.inr (Or.inr ⟨later, hsent hlater, hcarries, hlt⟩))

/-- What is left of a key is in the order it was sent, and the newest of it is
left unless it was dropped or refused. -/
structure NewestKept (trace : QueueTrace κ β) : Prop where
  order : ∀ name, (trace.frames.filter (carries name)).Pairwise
    fun earlier later => earlier.stamp < later.stamp
  newest : ∀ name, ∀ frame ∈ trace.sent, carries name frame → Kept trace name frame

theorem NewestKept.start : NewestKept (start : QueueTrace κ β) := by
  constructor <;> simp [QueueTrace.start, frames]

theorem NewestKept.replaced (h : NewestKept trace) {front back : List (Sent κ β)}
    {old new : Sent κ β} {name : κ} (hframes : trace.frames = front ++ old :: back)
    (hafter : after.frames = front ++ new :: back) (hsent : after.sent = trace.sent ++ [new])
    (hdrops : after.drops = trace.drops) (hrefused : after.refused = trace.refused)
    (hold : carries name old) (hnew : carries name new)
    (hback : ∀ frame ∈ back, ¬ carries name frame)
    (hstamp : ∀ frame ∈ trace.frames, frame.stamp < new.stamp) : NewestKept after := by
  constructor
  · intro other
    have horder := h.order other
    rw [hframes] at horder
    rw [hafter]
    apply order_replace other horder hold hnew _ hback
    intro frame hframe
    exact hstamp frame (by rw [hframes]; exact List.mem_append_left _ hframe)
  · intro other frame hframe hcarries
    have hmem : new ∈ after.frames := by
      rw [hafter]
      exact List.mem_append_right _ List.mem_cons_self
    rw [hsent] at hframe
    rcases List.mem_append.mp hframe with hframe | hframe
    · apply (h.newest other frame hframe hcarries).mono
      · intro hin
        have hlt := hstamp frame hin
        rw [hframes] at hin
        rcases List.mem_append.mp hin with hfront | hin
        · exact Or.inl (by rw [hafter]; exact List.mem_append_left _ hfront)
        · rcases List.mem_cons.mp hin with rfl | hin
          · have hname : other = name := by
              rw [carries, decide_eq_true_iff] at hold hcarries
              exact Option.some.inj (hcarries.symm.trans hold)
            subst hname
            refine Or.inr (Or.inr (Or.inr ⟨new, ?_, hnew, hlt⟩))
            rw [hsent]
            exact List.mem_append_right _ (List.mem_singleton_self _)
          · refine Or.inl ?_
            rw [hafter]
            exact List.mem_append_right _ (List.mem_cons_of_mem _ hin)
      · rw [hdrops]
        exact List.Subset.refl _
      · rw [hrefused]
        exact List.Subset.refl _
      · rw [hsent]
        exact List.subset_append_left _ _
    · rw [List.mem_singleton.mp hframe]
      exact Or.inl hmem

theorem NewestKept.step (h : NewestKept trace) (hvalid : Valid trace)
    (hstep : Step trace event after) : NewestKept after := by
  cases hstep with
  | @replaced bytes name front back old full hbefore hold hnewest =>
    have hcarries : ∀ queued ∈ trace.queue, (carries name queued.bytes ↔
        queued.coalesceKey = some name) := by
      intro queued hqueued
      rw [carries, decide_eq_true_iff, hvalid.keyed queued hqueued]
    refine h.replaced (frames_split hbefore) (frames_split rfl) rfl rfl rfl
      ((hcarries old (by simp [hbefore])).mpr hold) ?_ ?_ ?_
    · simp [carries, next]
    · intro frame hframe
      obtain ⟨queued, hqueued, rfl⟩ := List.mem_map.mp hframe
      rw [hcarries queued (by simp [hbefore, hqueued])]
      exact hnewest queued hqueued
    · intro frame hframe
      exact hvalid.stamp_lt hframe bytes (some name)
  | @queued bytes key node room =>
    constructor
    · intro name
      rw [frames_queued]
      apply order_append name (h.order name)
      intro frame hframe
      exact hvalid.stamp_lt hframe bytes key
    · intro name frame hframe hcarries
      rcases List.mem_append.mp hframe with hframe | hframe
      · refine (h.newest name frame hframe hcarries).mono ?_ (List.Subset.refl _)
          (List.Subset.refl _) (List.subset_append_left _ _)
        intro hin
        exact Or.inl (by rw [frames_queued]; exact List.mem_append_left _ hin)
      · exact Or.inl (by rw [frames_queued]; exact List.mem_append_right _ hframe)
  | @evicted bytes key front back victim node full hbefore hfront hkeyed =>
    have hsublist := evicted_sublist hbefore
    constructor
    · intro name
      rw [frames_evicted]
      apply order_append name ((h.order name).sublist (hsublist.filter _))
      intro frame hframe
      exact hvalid.stamp_lt (hsublist.subset hframe) bytes key
    · intro name frame hframe hcarries
      rcases List.mem_append.mp hframe with hframe | hframe
      · refine (h.newest name frame hframe hcarries).mono ?_ (List.subset_append_left _ _)
          (List.Subset.refl _) (List.subset_append_left _ _)
        intro hin
        rw [frames_split hbefore] at hin
        rcases List.mem_append.mp hin with hin | hin
        · refine Or.inl ?_
          rw [frames_evicted]
          exact List.mem_append_left _ (List.mem_append_left _ hin)
        · rcases List.mem_cons.mp hin with rfl | hin
          · refine Or.inr (Or.inl ?_)
            simp
          · refine Or.inl ?_
            rw [frames_evicted]
            exact List.mem_append_left _ (List.mem_append_right _ hin)
      · exact Or.inl (by rw [frames_evicted]; exact List.mem_append_right _ hframe)
  | @refused bytes key full hkeyless =>
    refine ⟨h.order, ?_⟩
    intro name frame hframe hcarries
    rcases List.mem_append.mp hframe with hframe | hframe
    · exact (h.newest name frame hframe hcarries).mono Or.inl (List.Subset.refl _)
        (List.subset_append_left _ _) (List.subset_append_left _ _)
    · exact Or.inr (Or.inr (Or.inl (List.mem_append_right _ hframe)))
  | @popped first rest hqueue =>
    constructor
    · intro name
      rw [frames_popped hqueue]
      exact h.order name
    · intro name frame hframe hcarries
      refine (h.newest name frame hframe hcarries).mono ?_ (List.Subset.refl _)
        (List.Subset.refl _) (List.Subset.refl _)
      intro hin
      exact Or.inl (by rw [frames_popped hqueue]; exact hin)

end

/-! ### Drops -/

/-- The victim was the oldest keyed frame of a queue at its cap. -/
def Drop.OldestOfFull (drop : Drop κ β) : Prop :=
  drop.queue.length = kMaxOutboxFrames ∧
    drop.queue.find? (fun frame => !keyless frame) = some drop.victim

structure DropsSound (trace : QueueTrace κ β) : Prop where
  oldest : ∀ drop ∈ trace.drops, Drop.OldestOfFull drop
  later : ∀ drop ∈ trace.drops, drop.sender ∈ trace.sent ∧ drop.victim.stamp < drop.sender.stamp

theorem DropsSound.start : DropsSound (start : QueueTrace κ β) := by
  constructor <;> simp [QueueTrace.start]

theorem DropsSound.mono (h : DropsSound trace) (hdrops : after.drops = trace.drops)
    (hsent : trace.sent ⊆ after.sent) : DropsSound after := by
  constructor
  · rw [hdrops]
    exact h.oldest
  · rw [hdrops]
    intro drop hdrop
    obtain ⟨hsender, hlt⟩ := h.later drop hdrop
    exact ⟨hsent hsender, hlt⟩

theorem DropsSound.step (h : DropsSound trace) (hvalid : Valid trace)
    (hstep : Step trace event after) : DropsSound after := by
  cases hstep with
  | replaced => exact h.mono rfl (List.subset_append_left _ _)
  | queued => exact h.mono rfl (List.subset_append_left _ _)
  | refused => exact h.mono rfl (List.subset_append_left _ _)
  | popped => exact h.mono rfl (List.Subset.refl _)
  | @evicted bytes key front back victim node full hbefore hfront hkeyed =>
    have hkey : ∀ queued ∈ trace.queue, keyless queued.bytes = queued.coalesceKey.isNone := by
      intro queued hqueued
      rw [keyless, hvalid.keyed queued hqueued]
    have hnew : Drop.OldestOfFull
        ⟨victim.bytes, trace.next bytes key, trace.queue.map (·.bytes)⟩ := by
      refine ⟨by simpa using full, ?_⟩
      have hgone : keyless victim.bytes = false := by
        rw [hkey victim (by simp [hbefore])]
        simpa [Option.isSome_iff_ne_none] using hkeyed
      rw [List.find?_eq_some_iff_append]
      refine ⟨by simp [hgone], front.map (·.bytes), back.map (·.bytes), by simp [hbefore], ?_⟩
      intro frame hframe
      obtain ⟨queued, hqueued, rfl⟩ := List.mem_map.mp hframe
      rw [hkey queued (by simp [hbefore, hqueued]), hfront queued hqueued]
      rfl
    constructor
    · intro drop hdrop
      rcases List.mem_append.mp hdrop with hdrop | hdrop
      · exact h.oldest drop hdrop
      · rw [List.mem_singleton.mp hdrop]
        exact hnew
    · intro drop hdrop
      rcases List.mem_append.mp hdrop with hdrop | hdrop
      · obtain ⟨hsender, hlt⟩ := h.later drop hdrop
        exact ⟨List.mem_append_left _ hsender, hlt⟩
      · rw [List.mem_singleton.mp hdrop]
        refine ⟨List.mem_append_right _ (List.mem_singleton_self _), ?_⟩
        apply hvalid.stamp_lt
        rw [frames_split hbefore]
        exact List.mem_append_right _ List.mem_cons_self

/-! ### Updates and removals of one key -/

section
variable (removes : κ → β → Prop)

/-- One of the frames carries a key and the other, without a key, removes it. -/
def Conflict (left right : Sent κ β) : Prop :=
  ∃ name, (left.coalesceKey = some name ∧ right.coalesceKey = none ∧ removes name right.bytes) ∨
    (right.coalesceKey = some name ∧ left.coalesceKey = none ∧ removes name left.bytes)

def RemovalsKept (trace : QueueTrace κ β) : Prop :=
  trace.frames.Pairwise fun earlier later =>
    Conflict removes earlier later → earlier.stamp < later.stamp

/-- No removal of the key waits behind the frame that is overwritten. -/
def NotAhead : QueueEvent κ β → Prop
  | .overwrite name behind =>
      ∀ later ∈ behind, later.coalesceKey = none → ¬ removes name later.bytes.bytes
  | _ => True

/-- The updates there are of a key were sent before any removal of it was refused. -/
def RefusedLast (trace : QueueTrace κ β) : Prop :=
  ∀ removal ∈ trace.refused, keyless removal → ∀ name, removes name removal.bytes →
    ∀ update ∈ trace.frames, update.coalesceKey = some name → update.stamp < removal.stamp

/-- A removal is written before an update of its key exactly when it was sent
before it. -/
def RemovalsInOrder (trace : QueueTrace κ β) : Prop :=
  ∀ name, ∀ removal ∈ trace.sent, keyless removal → removes name removal.bytes →
    ∀ update, update.coalesceKey = some name →
      ∀ before after, trace.written = before ++ update :: after →
        (removal ∈ before ↔ removal.stamp < update.stamp)

variable {removes}

theorem RemovalsKept.start : RemovalsKept removes (start : QueueTrace κ β) :=
  List.Pairwise.nil

theorem removalsKept_append {list : List (Sent κ β)} {new : Sent κ β}
    (h : list.Pairwise fun earlier later =>
      Conflict removes earlier later → earlier.stamp < later.stamp)
    (hnew : ∀ frame ∈ list, frame.stamp < new.stamp) :
    (list ++ [new]).Pairwise fun earlier later =>
      Conflict removes earlier later → earlier.stamp < later.stamp := by
  rw [List.pairwise_append]
  refine ⟨h, List.pairwise_singleton _ _, ?_⟩
  intro earlier hearlier later hlater _
  rw [List.mem_singleton.mp hlater]
  exact hnew earlier hearlier

theorem RemovalsKept.step (h : RemovalsKept removes trace) (hvalid : Valid trace)
    (hstep : Step trace event after) (hguard : NotAhead removes event) :
    RemovalsKept removes after := by
  cases hstep with
  | @replaced bytes name front back old full hbefore hold hnewest =>
    have hframes := frames_split hbefore
    rw [RemovalsKept, hframes, List.pairwise_append, List.pairwise_cons] at h
    obtain ⟨hfront, ⟨_, hback⟩, hacross⟩ := h
    rw [RemovalsKept, frames_split rfl, List.pairwise_append, List.pairwise_cons]
    refine ⟨hfront, ⟨?_, hback⟩, ?_⟩
    · intro later hlater hconflict
      obtain ⟨queued, hqueued, rfl⟩ := List.mem_map.mp hlater
      have hkey := hvalid.keyed queued (by simp [hbefore, hqueued])
      obtain ⟨other, ⟨hname, hnone, hremoves⟩ | ⟨_, hnone, _⟩⟩ := hconflict
      · cases Option.some.inj hname
        rw [hkey] at hnone
        exact absurd hremoves (hguard queued hqueued hnone)
      · contradiction
    · intro earlier hearlier later hlater hconflict
      rcases List.mem_cons.mp hlater with rfl | hlater
      · apply hvalid.stamp_lt
        rw [hframes]
        exact List.mem_append_left _ hearlier
      · exact hacross earlier hearlier later (List.mem_cons_of_mem _ hlater) hconflict
  | @queued bytes key node room =>
    rw [RemovalsKept, frames_queued]
    apply removalsKept_append h
    intro frame hframe
    exact hvalid.stamp_lt hframe bytes key
  | @evicted bytes key front back victim node full hbefore hfront hkeyed =>
    have hsublist := evicted_sublist hbefore
    rw [RemovalsKept, frames_evicted]
    apply removalsKept_append (h.sublist hsublist)
    intro frame hframe
    exact hvalid.stamp_lt (hsublist.subset hframe) bytes key
  | refused => exact h
  | @popped first rest hqueue =>
    rw [RemovalsKept, frames_popped hqueue]
    exact h

theorem RefusedLast.start : RefusedLast removes (start : QueueTrace κ β) := by
  intro removal hremoval
  contradiction

/-- A step that refuses nothing keeps it, if no update comes in behind a refused removal. -/
theorem RefusedLast.mono (h : RefusedLast removes trace) (new : Sent κ β)
    (hrefused : after.refused = trace.refused) (hframes : after.frames ⊆ new :: trace.frames)
    (hnew : ∀ name, new.coalesceKey = some name →
      ∀ removal ∈ trace.refused, keyless removal → ¬ removes name removal.bytes) :
    RefusedLast removes after := by
  intro removal hremoval hkeyless name hremoves update hupdate hname
  rw [hrefused] at hremoval
  rcases List.mem_cons.mp (hframes hupdate) with rfl | hold
  · exact absurd hremoves (hnew name hname removal hremoval hkeyless)
  · exact h removal hremoval hkeyless name hremoves update hold hname

theorem RefusedLast.step (h : RefusedLast removes trace) (hvalid : Valid trace)
    (hstep : Step trace event after)
    (hguard : ∀ bytes name, after.sent = trace.sent ++ [trace.next bytes (some name)] →
      ∀ removal ∈ trace.refused, keyless removal → ¬ removes name removal.bytes) :
    RefusedLast removes after := by
  cases hstep with
  | @replaced bytes name front back old full hbefore hold hnewest =>
    refine h.mono (trace.next bytes (some name)) rfl ?_ ?_
    · rw [frames_split hbefore, frames_split rfl]
      grind
    · intro other hother
      cases hother
      exact hguard bytes name rfl
  | @queued bytes key node room =>
    refine h.mono (trace.next bytes key) rfl ?_ ?_
    · rw [frames_queued]
      grind
    · rintro name rfl
      exact hguard bytes name rfl
  | @evicted bytes key front back victim node full hbefore hfront hkeyed =>
    refine h.mono (trace.next bytes key) rfl ?_ ?_
    · rw [frames_evicted, frames_split hbefore]
      grind
    · rintro name rfl
      exact hguard bytes name rfl
  | @refused bytes key full hkeyless =>
    intro removal hremoval hnone name hremoves update hupdate hname
    rcases List.mem_append.mp hremoval with hremoval | hremoval
    · exact h removal hremoval hnone name hremoves update hupdate hname
    · rw [List.mem_singleton.mp hremoval]
      exact hvalid.stamp_lt hupdate bytes key
  | @popped first rest hqueue =>
    intro removal hremoval hnone name hremoves update hupdate hname
    rw [frames_popped hqueue] at hupdate
    exact h removal hremoval hnone name hremoves update hupdate hname

theorem ControlKept.mem_frames (h : ControlKept trace) (hhandled : Handled trace)
    {frame : Sent κ β} (hframe : frame ∈ trace.sent) (hkeyless : keyless frame)
    (hrefused : frame ∉ trace.refused) : frame ∈ trace.frames := by
  have hpushed : frame ∈ trace.pushed :=
    (hhandled frame hframe hkeyless).resolve_right hrefused
  have hmem : frame ∈ trace.pushed.filter keyless := List.mem_filter.mpr ⟨hpushed, hkeyless⟩
  rw [← h.order] at hmem
  exact List.mem_of_mem_filter hmem

/-- Where no removal was passed in the queue, and none after it was refused, order among
the frames is order among the sends. -/
theorem RemovalsKept.inOrder (h : RemovalsKept removes trace) (hcontrol : ControlKept trace)
    (hhandled : Handled trace) (hlast : RefusedLast removes trace) :
    RemovalsInOrder removes trace := by
  intro name removal hremoval hkeyless hremoves update hupdate before rest hwritten
  have hnone : removal.coalesceKey = none := Option.isNone_iff_eq_none.mp hkeyless
  have hframes : trace.frames = before ++ update :: (rest ++ trace.queue.map (·.bytes)) := by
    rw [frames, hwritten, List.append_assoc, List.cons_append]
  rw [RemovalsKept, hframes, List.pairwise_append, List.pairwise_cons] at h
  obtain ⟨_, ⟨hlater, _⟩, hacross⟩ := h
  constructor
  · intro hbefore
    exact hacross removal hbefore update List.mem_cons_self
      ⟨name, Or.inr ⟨hupdate, hnone, hremoves⟩⟩
  · intro hlt
    have hmem : removal ∈ trace.frames := by
      apply hcontrol.mem_frames hhandled hremoval hkeyless
      intro hrefused
      have hgt := hlast removal hrefused hkeyless name hremoves update (by simp [hframes]) hupdate
      omega
    rw [hframes] at hmem
    rcases List.mem_append.mp hmem with hbefore | hrest
    · exact hbefore
    · rcases List.mem_cons.mp hrest with rfl | hrest
      · omega
      · have hgt := hlater removal hrest ⟨name, Or.inl ⟨hupdate, hnone, hremoves⟩⟩
        omega

end

end QueueTrace

end Srnp
