import Srnp.ChannelRun
import Srnp.ClientSession

/-! The life of a client session, with the channels it makes. Calls of `send`
and `close` and the coroutine `run` take turns on `channel_mutex_`; a call of
`send` holds it while the channel takes the frame, and `close` and the flush of
`connect` pass on to the channel after they have given it up. Once a call of
`close` has returned, no channel may be left open behind it. -/
namespace Srnp
open Std Transition

def runThread : ThreadId := 0

inductive LifeCall (κ β : Type) where
  | idle
  /-- Past the check of `closing_`. -/
  | locking (frame : Sent κ β)
  /-- In the channel's `send`, with `channel_mutex_` held. -/
  | sending (channel : Nat)
  /-- Past the store to `closing_`. -/
  | taking
  /-- In the channel's `close`, with `channel_mutex_` given up. -/
  | closing (channel : Nat)

def LifeCall.closes {κ β : Type} : LifeCall κ β → Bool
  | .taking => true
  | .closing _ => true
  | _ => false

/-- Where `run` is. A channel that is made is adopted or closed, and one that is
adopted is first given what was pending. -/
inductive LifePhase (κ β : Type) where
  | checking
  | connecting
  | adopting (channel : Nat)
  | discarding (channel : Nat)
  | flushing (channel : Nat) (waiting : List (Sent κ β))
  | replaying
  | ended

def LifePhase.early {κ β : Type} : LifePhase κ β → Bool
  | .checking => true
  | .connecting => true
  | .adopting _ => true
  | .discarding _ => true
  | _ => false

def LifePhase.replays {κ β : Type} : LifePhase κ β → Bool
  | .replaying => true
  | _ => false

structure SessionLife (κ β : Type) [Ord κ] [TransOrd κ] where
  session : ClientSession (Sent κ β)
  /-- The channel `channel_` points to, if the session is connected. -/
  current : Nat
  /-- The holder of `channel_mutex_`. -/
  mutex : Option ThreadId
  channels : Nat → ChannelRun κ (Sent κ β)
  created : Nat
  calls : ThreadId → LifeCall κ β
  phase : LifePhase κ β
  /-- How many calls of `send` have begun. -/
  begun : Nat
  /-- Those that began after a call of `close` had returned. -/
  late : List Nat
  /-- Whether a call of `close` has returned. -/
  returned : Bool

inductive LifeAction (κ β : Type) where
  | send (thread : ThreadId) (bytes : β) (key : Option κ)
  | lock (thread : ThreadId)
  | unlock (thread : ThreadId)
  | close (thread : ThreadId)
  | take (thread : ThreadId)
  | closed (thread : ThreadId)
  | check
  | fail
  | connect
  | adopt
  | discarded
  | flush
  | replayed
  | channel (index : Nat) (action : ChannelAction κ (Sent κ β))

def ChannelAction.inner {κ β : Type} : ChannelAction κ β → Bool
  | .send .. => false
  | .close _ => false
  | _ => true

namespace ChannelRun
variable {κ β : Type} [Ord κ] [TransOrd κ]

/-- The channel is closed, or the thread is in `close` and about to close it. -/
def Shut (run : ChannelRun κ β) (thread : ThreadId) : Prop :=
  run.channel.closed = true ∨ ∃ sender, run.calls thread = .closing sender

/-- The frame with the stamp is in the outbox, or about to be put there. -/
def Given {γ : Type} (run : ChannelRun κ (Sent γ β)) (stamp : Nat) : Prop :=
  (∃ queued ∈ run.channel.outbox.frames, queued.bytes.bytes.stamp = stamp) ∨
    ∃ thread bytes key, run.calls thread = .locking bytes key ∧ bytes.stamp = stamp

section
variable {run after : ChannelRun κ β} {thread : ThreadId}

theorem Shut.keep (h : run.Shut thread)
    (hclosed : run.channel.closed = true → after.channel.closed = true)
    (hcalls : ∀ sender, run.calls thread = .closing sender →
      after.calls thread = .closing sender) : after.Shut thread := by
  rcases h with hshut | ⟨sender, hcall⟩
  · exact Or.inl (hclosed hshut)
  · exact Or.inr ⟨sender, hcalls sender hcall⟩

theorem Shut.done (h : run.Shut thread) (hidle : run.calls thread = .idle) :
    run.channel.closed = true := by
  rcases h with hclosed | ⟨sender, hcall⟩
  · exact hclosed
  · rw [hidle] at hcall
    contradiction

theorem closing_update {other : ThreadId} {call : SendCall κ β}
    (h : ∀ sender, run.calls thread ≠ .closing sender) (sender : Option Nat)
    (hother : run.calls other = .closing sender) :
    Function.update run.calls thread call other = .closing sender := by
  have hne : other ≠ thread := by
    rintro rfl
    exact h sender hother
  rw [Function.update_of_ne hne]
  exact hother

theorem locking_update {other : ThreadId} {call : SendCall κ β}
    (h : ∀ bytes key, call ≠ .locking bytes key) (bytes : β) (key : Option κ)
    (hother : Function.update run.calls thread call other = .locking bytes key) :
    run.calls other = .locking bytes key := by
  by_cases heq : other = thread
  · subst heq
    rw [Function.update_self] at hother
    exact absurd hother (h bytes key)
  · rwa [Function.update_of_ne heq] at hother

theorem Given.back {γ : Type} {run after : ChannelRun κ (Sent γ β)} {stamp : Nat}
    (h : after.Given stamp)
    (houtbox : ∀ queued ∈ after.channel.outbox.frames, queued ∈ run.channel.outbox.frames)
    (hcalls : ∀ thread bytes key, after.calls thread = .locking bytes key →
      run.calls thread = .locking bytes key) : run.Given stamp := by
  rcases h with ⟨queued, hqueued, hstamp⟩ | ⟨thread, bytes, key, hcall, hstamp⟩
  · exact Or.inl ⟨queued, houtbox queued hqueued, hstamp⟩
  · exact Or.inr ⟨thread, bytes, key, hcalls thread bytes key hcall, hstamp⟩

variable [LawfulEqOrd κ] {action : ChannelAction κ β}

theorem Shut.step (h : run.Shut thread) (hstep : run.step action = some after) :
    after.Shut thread := by
  cases step_move hstep with
  | ignore hcall hclosed => exact h
  | send hcall hopen => exact h.keep id (closing_update (by simp [hcall]))
  | lock hcall =>
    refine h.keep ?_ (closing_update (by simp [hcall]))
    rw [closed_lock]
    exact id
  | spawn hcall => exact h.keep id (closing_update (by simp [hcall]))
  | close hcall => exact h.keep id (closing_update (by simp [hcall]))
  | shut hcall => exact Or.inl rfl
  | clear hcall => exact h.keep id (closing_update (by simp [hcall]))
  | stop hready hstop => exact h
  | take hready hopen hqueue hrest => exact h
  | writeDone hawaiting => exact h
  | writeFail hawaiting => exact h

theorem closed_step (hstep : run.step action = some after) (h : run.channel.closed = true) :
    after.channel.closed = true := by
  cases step_move hstep with
  | lock hcall =>
    rw [closed_lock]
    exact h
  | shut hcall => rfl
  | _ => exact h

theorem shut_of_close (hstep : run.step (.close thread) = some after) : after.Shut thread := by
  cases step_move hstep with
  | close hcall => exact Or.inr ⟨none, Function.update_self ..⟩

theorem queued_lock {bytes : β} {key : Option κ} {queued : Outbound κ (Sent κ β)}
    (h : queued ∈ (run.lock thread bytes key).channel.outbox.frames) :
    queued.bytes.bytes = bytes ∨
      ∃ old ∈ run.channel.outbox.frames, old.bytes = queued.bytes := by
  rcases run.channel.mem_sendLocked h with hnew | hold
  · exact Or.inl (congrArg Sent.bytes hnew)
  · exact Or.inr hold

theorem Given.step {γ : Type} {run after : ChannelRun κ (Sent γ β)}
    {action : ChannelAction κ (Sent γ β)} {stamp : Nat} (h : after.Given stamp)
    (hstep : run.step action = some after) :
    run.Given stamp ∨ ∃ thread bytes key, action = .send thread bytes key ∧ bytes.stamp = stamp := by
  cases step_move hstep with
  | ignore hcall hclosed => exact Or.inl h
  | @send thread bytes key hcall hopen =>
    rcases h with hqueued | ⟨other, otherBytes, otherKey, hother, hstamp⟩
    · exact Or.inl (Or.inl hqueued)
    · change Function.update run.calls thread (.locking bytes key) other = _ at hother
      by_cases heq : other = thread
      · rw [heq, Function.update_self] at hother
        cases hother
        exact Or.inr ⟨thread, bytes, key, rfl, hstamp⟩
      · rw [Function.update_of_ne heq] at hother
        exact Or.inl (Or.inr ⟨other, otherBytes, otherKey, hother, hstamp⟩)
  | @lock thread bytes key hcall =>
    left
    rcases h with ⟨queued, hqueued, hstamp⟩ | ⟨other, otherBytes, otherKey, hother, hstamp⟩
    · rcases queued_lock hqueued with hnew | ⟨old, hold, hsame⟩
      · rw [hnew] at hstamp
        exact Or.inr ⟨thread, bytes, key, hcall, hstamp⟩
      · rw [← hsame] at hstamp
        exact Or.inl ⟨old, hold, hstamp⟩
    · refine Or.inr ⟨other, otherBytes, otherKey, ?_, hstamp⟩
      refine locking_update ?_ otherBytes otherKey hother
      intro _ _
      unfold Verdict.resume
      split <;> simp
  | spawn hcall => exact Or.inl (h.back (fun _ => id) fun _ => locking_update (by simp))
  | close hcall => exact Or.inl (h.back (fun _ => id) fun _ => locking_update (by simp))
  | shut hcall =>
    refine Or.inl (h.back (fun _ => id) fun _ => locking_update ?_)
    intro _ _
    split <;> simp
  | clear hcall =>
    exact Or.inl (h.back (fun _ hqueued => by contradiction) fun _ => locking_update (by simp))
  | stop hready hstop => exact Or.inl h
  | take hready hopen hqueue hrest =>
    refine Or.inl (h.back ?_ fun _ _ _ => id)
    intro queued hqueued
    dsimp only at hqueued
    rw [hrest] at hqueued
    rw [hqueue]
    exact List.mem_cons_of_mem _ hqueued
  | writeDone hawaiting => exact Or.inl h
  | writeFail hawaiting =>
    exact Or.inl (h.back (fun _ hqueued => by contradiction) fun _ _ _ => id)

end

end ChannelRun

namespace SessionLife
variable {κ β : Type} [Ord κ] [TransOrd κ]

def initial : SessionLife κ β :=
  ⟨.initial, 0, none, fun _ => .initial, 0, fun _ => .idle, .checking, 0, [], false⟩

def setChannel (run : SessionLife κ β) (index : Nat) (channel : ChannelRun κ (Sent κ β)) :
    SessionLife κ β :=
  { run with channels := Function.update run.channels index channel }

def setCall (run : SessionLife κ β) (thread : ThreadId) (call : LifeCall κ β) : SessionLife κ β :=
  { run with calls := Function.update run.calls thread call }

def begin (run : SessionLife κ β) (thread : ThreadId) (bytes : β) (key : Option κ) :
    SessionLife κ β :=
  let next := { run with
    begun := run.begun + 1
    late := if run.returned then run.late ++ [run.begun] else run.late }
  if run.session.closing then next else next.setCall thread (.locking ⟨run.begun, bytes, key⟩)

section
variable [LawfulEqOrd κ]

def step (run : SessionLife κ β) : LifeAction κ β → Option (SessionLife κ β)
  | .send thread bytes key =>
      match run.calls thread with
      | .idle =>
          if thread ≠ runThread ∨ run.phase.replays then some (run.begin thread bytes key) else none
      | _ => none
  | .lock thread =>
      match run.calls thread, run.mutex with
      | .locking frame, none =>
          if run.session.connected then do
            let channel ← (run.channels run.current).step (.send thread frame frame.coalesceKey)
            some { (run.setChannel run.current channel).setCall thread (.sending run.current) with
              mutex := some thread }
          else
            some { run.setCall thread .idle with session := (run.session.sendLocked frame).1 }
      | _, _ => none
  | .unlock thread =>
      match run.calls thread with
      | .sending index =>
          match (run.channels index).calls thread with
          | .idle => some { run.setCall thread .idle with mutex := none }
          | _ => none
      | _ => none
  | .close thread =>
      match run.calls thread with
      | .idle =>
          if thread ≠ runThread then
            some { run.setCall thread .taking with session := { run.session with closing := true } }
          else none
      | _ => none
  | .take thread =>
      match run.calls thread, run.mutex with
      | .taking, none =>
          if run.session.connected then do
            let channel ← (run.channels run.current).step (.close thread)
            some { (run.setChannel run.current channel).setCall thread (.closing run.current) with
              session := run.session.release }
          else
            some { run.setCall thread .idle with session := run.session.release, returned := true }
      | _, _ => none
  | .closed thread =>
      match run.calls thread with
      | .closing index =>
          match (run.channels index).calls thread with
          | .idle => some { run.setCall thread .idle with returned := true }
          | _ => none
      | _ => none
  | .check =>
      match run.phase with
      | .checking =>
          some { run with phase := if run.session.closing then .ended else .connecting }
      | _ => none
  | .fail =>
      match run.phase with
      | .connecting => some { run with phase := .checking }
      | _ => none
  | .connect =>
      match run.phase with
      | .connecting => some { run.setChannel run.created .initial with
          created := run.created + 1, phase := .adopting run.created }
      | _ => none
  | .adopt =>
      match run.phase, run.mutex with
      | .adopting index, none =>
          match run.session.adopt with
          | none => do
              let channel ← (run.channels index).step (.close runThread)
              some { run.setChannel index channel with
                mutex := some runThread, phase := .discarding index }
          | some (session, waiting) =>
              some { run with session, current := index, phase := .flushing index waiting }
      | _, _ => none
  | .discarded =>
      match run.phase with
      | .discarding index =>
          match (run.channels index).calls runThread with
          | .idle => some { run with mutex := none, phase := .checking }
          | _ => none
      | _ => none
  | .flush =>
      match run.phase with
      | .flushing index (frame :: rest) => do
          let channel ← (run.channels index).step (.send runThread frame frame.coalesceKey)
          some { run.setChannel index channel with phase := .flushing index rest }
      | .flushing index [] =>
          match (run.channels index).calls runThread with
          | .idle => some { run with phase := .replaying }
          | _ => none
      | _ => none
  | .replayed =>
      match run.phase, run.calls runThread with
      | .replaying, .idle => some { run with phase := .ended }
      | _, _ => none
  | .channel index action =>
      if index < run.created ∧ action.inner then do
        let channel ← (run.channels index).step action
        some (run.setChannel index channel)
      else none

inductive Move (run : SessionLife κ β) : LifeAction κ β → SessionLife κ β → Prop
  | begin {thread : ThreadId} {bytes : β} {key : Option κ} (hcall : run.calls thread = .idle) :
      Move run (.send thread bytes key) (run.begin thread bytes key)
  | queue {thread : ThreadId} {frame : Sent κ β} (hcall : run.calls thread = .locking frame)
      (hunconnected : run.session.connected = false) :
      Move run (.lock thread)
        { run.setCall thread .idle with session := (run.session.sendLocked frame).1 }
  | pass {thread : ThreadId} {frame : Sent κ β} {channel : ChannelRun κ (Sent κ β)}
      (hcall : run.calls thread = .locking frame)
      (hchannel : (run.channels run.current).step (.send thread frame frame.coalesceKey) =
        some channel) :
      Move run (.lock thread)
        { (run.setChannel run.current channel).setCall thread (.sending run.current) with
          mutex := some thread }
  | passed {thread : ThreadId} {index : Nat} (hcall : run.calls thread = .sending index) :
      Move run (.unlock thread) { run.setCall thread .idle with mutex := none }
  | close {thread : ThreadId} (hcall : run.calls thread = .idle) :
      Move run (.close thread)
        { run.setCall thread .taking with session := { run.session with closing := true } }
  | take {thread : ThreadId} {channel : ChannelRun κ (Sent κ β)}
      (hcall : run.calls thread = .taking)
      (hchannel : (run.channels run.current).step (.close thread) = some channel) :
      Move run (.take thread)
        { (run.setChannel run.current channel).setCall thread (.closing run.current) with
          session := run.session.release }
  | takeNothing {thread : ThreadId} (hcall : run.calls thread = .taking)
      (hunconnected : run.session.connected = false) :
      Move run (.take thread)
        { run.setCall thread .idle with session := run.session.release, returned := true }
  | closed {thread : ThreadId} {index : Nat} (hcall : run.calls thread = .closing index)
      (hdone : (run.channels index).calls thread = .idle) :
      Move run (.closed thread) { run.setCall thread .idle with returned := true }
  | check (hphase : run.phase = .checking) :
      Move run .check
        { run with phase := if run.session.closing then .ended else .connecting }
  | fail (hphase : run.phase = .connecting) : Move run .fail { run with phase := .checking }
  | connect (hphase : run.phase = .connecting) :
      Move run .connect { run.setChannel run.created .initial with
        created := run.created + 1, phase := .adopting run.created }
  | adopt {index : Nat} (hphase : run.phase = .adopting index)
      (hopen : run.session.closing = false) :
      Move run .adopt { run with
        session := { run.session with connected := true, pending := [] }
        current := index, phase := .flushing index run.session.pending }
  | discard {index : Nat} {channel : ChannelRun κ (Sent κ β)}
      (hphase : run.phase = .adopting index)
      (hchannel : (run.channels index).step (.close runThread) = some channel) :
      Move run .adopt { run.setChannel index channel with
        mutex := some runThread, phase := .discarding index }
  | discarded {index : Nat} (hphase : run.phase = .discarding index)
      (hdone : (run.channels index).calls runThread = .idle) :
      Move run .discarded { run with mutex := none, phase := .checking }
  | flush {index : Nat} {frame : Sent κ β} {rest : List (Sent κ β)}
      {channel : ChannelRun κ (Sent κ β)} (hphase : run.phase = .flushing index (frame :: rest))
      (hchannel : (run.channels index).step (.send runThread frame frame.coalesceKey) =
        some channel) :
      Move run .flush { run.setChannel index channel with phase := .flushing index rest }
  | flushed {index : Nat} (hphase : run.phase = .flushing index []) :
      Move run .flush { run with phase := .replaying }
  | replayed (hphase : run.phase = .replaying) : Move run .replayed { run with phase := .ended }
  | channel {index : Nat} {action : ChannelAction κ (Sent κ β)}
      {channel : ChannelRun κ (Sent κ β)} (hinner : action.inner)
      (hchannel : (run.channels index).step action = some channel) :
      Move run (.channel index action) (run.setChannel index channel)

theorem step_move {run after : SessionLife κ β} {action : LifeAction κ β}
    (h : run.step action = some after) : run.Move action after := by
  cases action with
  | send thread bytes key =>
    simp only [step] at h
    split at h
    · rename_i hcall
      split at h
      · cases Option.some.inj h
        exact .begin hcall
      · contradiction
    · contradiction
  | lock thread =>
    simp only [step] at h
    split at h
    · rename_i frame hcall _
      split at h
      · obtain ⟨channel, hchannel, h⟩ := Option.bind_eq_some_iff.mp h
        cases Option.some.inj h
        exact .pass hcall hchannel
      · rename_i hunconnected
        cases Option.some.inj h
        exact .queue hcall (Bool.eq_false_iff.mpr hunconnected)
    · contradiction
  | unlock thread =>
    simp only [step] at h
    split at h
    · rename_i index hcall
      split at h
      · cases Option.some.inj h
        exact .passed hcall
      · contradiction
    · contradiction
  | close thread =>
    simp only [step] at h
    split at h
    · rename_i hcall
      split at h
      · cases Option.some.inj h
        exact .close hcall
      · contradiction
    · contradiction
  | take thread =>
    simp only [step] at h
    split at h
    · rename_i hcall _
      split at h
      · obtain ⟨channel, hchannel, h⟩ := Option.bind_eq_some_iff.mp h
        cases Option.some.inj h
        exact .take hcall hchannel
      · rename_i hunconnected
        cases Option.some.inj h
        exact .takeNothing hcall (Bool.eq_false_iff.mpr hunconnected)
    · contradiction
  | closed thread =>
    simp only [step] at h
    split at h
    · rename_i index hcall
      split at h
      · rename_i hdone
        cases Option.some.inj h
        exact .closed hcall hdone
      · contradiction
    · contradiction
  | check =>
    simp only [step] at h
    split at h
    · rename_i hphase
      cases Option.some.inj h
      exact .check hphase
    · contradiction
  | fail =>
    simp only [step] at h
    split at h
    · rename_i hphase
      cases Option.some.inj h
      exact .fail hphase
    · contradiction
  | connect =>
    simp only [step] at h
    split at h
    · rename_i hphase
      cases Option.some.inj h
      exact .connect hphase
    · contradiction
  | adopt =>
    simp only [step] at h
    split at h
    · rename_i index hphase _
      unfold ClientSession.adopt at h
      by_cases hclosing : run.session.closing = true
      · rw [if_pos hclosing] at h
        obtain ⟨channel, hchannel, h⟩ := Option.bind_eq_some_iff.mp h
        cases Option.some.inj h
        exact .discard hphase hchannel
      · rw [if_neg hclosing] at h
        cases Option.some.inj h
        exact .adopt hphase (Bool.eq_false_iff.mpr hclosing)
    · contradiction
  | discarded =>
    simp only [step] at h
    split at h
    · rename_i index hphase
      split at h
      · rename_i hdone
        cases Option.some.inj h
        exact .discarded hphase hdone
      · contradiction
    · contradiction
  | flush =>
    simp only [step] at h
    split at h
    · rename_i index frame rest hphase
      obtain ⟨channel, hchannel, h⟩ := Option.bind_eq_some_iff.mp h
      cases Option.some.inj h
      exact .flush hphase hchannel
    · rename_i index hphase
      split at h
      · cases Option.some.inj h
        exact .flushed hphase
      · contradiction
    · contradiction
  | replayed =>
    simp only [step] at h
    split at h
    · rename_i hphase _
      cases Option.some.inj h
      exact .replayed hphase
    · contradiction
  | channel index action =>
    simp only [step] at h
    split at h
    · rename_i hinner
      obtain ⟨channel, hchannel, h⟩ := Option.bind_eq_some_iff.mp h
      cases Option.some.inj h
      exact .channel hinner.2 hchannel
    · contradiction

end

/-! ### Who closes a channel -/

/-- The channel is closed, or somebody is about to close it or to look whether
it has to be closed. -/
def Held (run : SessionLife κ β) (index : Nat) : Prop :=
  (run.channels index).channel.closed = true ∨
    (run.session.connected = true ∧ run.current = index) ∨
    (∃ thread, run.calls thread = .closing index ∧ (run.channels index).Shut thread) ∨
    run.phase = .adopting index ∨
    (run.phase = .discarding index ∧ (run.channels index).Shut runThread)

/-- While a session that is closing is still connected, some call of `close` has
yet to take the channel. -/
structure Kept (run : SessionLife κ β) : Prop where
  returned : run.returned = true → run.session.closing = true
  closes : ∀ thread, (run.calls thread).closes = true → run.session.closing = true
  taken : run.session.closing = true → run.session.connected = true →
    ∃ thread, run.calls thread = .taking
  early : run.phase.early = true → run.session.connected = false
  held : ∀ index < run.created, run.Held index

section
variable {run after : SessionLife κ β}

theorem calls_kept {thread other : ThreadId} {call kept : LifeCall κ β}
    (hthread : run.calls thread ≠ kept) (hother : run.calls other = kept) :
    Function.update run.calls thread call other = kept := by
  have hne : other ≠ thread := by
    rintro rfl
    exact hthread hother
  rw [Function.update_of_ne hne]
  exact hother

theorem Kept.initial : Kept (initial : SessionLife κ β) where
  returned h := by contradiction
  closes _ h := by contradiction
  taken h := by contradiction
  early _ := rfl
  held _ h := absurd h (Nat.not_lt_zero _)

theorem Kept.setCall (h : run.Kept) {thread : ThreadId} (call : LifeCall κ β)
    (hold : (run.calls thread).closes = false) (hnew : call.closes = false) :
    (run.setCall thread call).Kept := by
  have hthread : ∀ kept : LifeCall κ β, kept.closes = true → run.calls thread ≠ kept := by
    rintro kept hcloses rfl
    rw [hold] at hcloses
    contradiction
  refine ⟨h.returned, ?_, ?_, h.early, ?_⟩
  · intro other hcloses
    change (Function.update run.calls thread call other).closes = true at hcloses
    by_cases heq : other = thread
    · rw [heq, Function.update_self, hnew] at hcloses
      contradiction
    · rw [Function.update_of_ne heq] at hcloses
      exact h.closes other hcloses
  · intro hclosing hconnected
    obtain ⟨other, htaking⟩ := h.taken hclosing hconnected
    exact ⟨other, calls_kept (hthread _ rfl) htaking⟩
  · intro index hindex
    rcases h.held index hindex with hclosed | hsession | ⟨other, hcall, hshut⟩ | hphase
    · exact Or.inl hclosed
    · exact Or.inr (Or.inl hsession)
    · exact Or.inr (Or.inr (Or.inl ⟨other, calls_kept (hthread _ rfl) hcall, hshut⟩))
    · exact Or.inr (Or.inr (Or.inr hphase))

theorem Kept.setSession (h : run.Kept) {session : ClientSession (Sent κ β)}
    (hclosing : session.closing = run.session.closing)
    (hconnected : session.connected = run.session.connected) :
    Kept { run with session } := by
  refine ⟨?_, ?_, ?_, ?_, ?_⟩
  · rw [hclosing]
    exact h.returned
  · rw [hclosing]
    exact h.closes
  · rw [hclosing, hconnected]
    exact h.taken
  · rw [hconnected]
    exact h.early
  · intro index hindex
    unfold Held
    rw [hconnected]
    exact h.held index hindex

theorem Kept.setPhase (h : run.Kept) {phase : LifePhase κ β}
    (hearly : phase.early = true → run.phase.early = true)
    (hadopting : ∀ index, run.phase ≠ .adopting index)
    (hdiscarding : ∀ index, run.phase ≠ .discarding index) : Kept { run with phase } := by
  refine ⟨h.returned, h.closes, h.taken, fun hphase => h.early (hearly hphase), ?_⟩
  intro index hindex
  rcases h.held index hindex with hclosed | hsession | hcloser | hphase | ⟨hphase, _⟩
  · exact Or.inl hclosed
  · exact Or.inr (Or.inl hsession)
  · exact Or.inr (Or.inr (Or.inl hcloser))
  · exact absurd hphase (hadopting index)
  · exact absurd hphase (hdiscarding index)

end

section
variable [LawfulEqOrd κ] {run after : SessionLife κ β} {index : Nat}
  {channel : ChannelRun κ (Sent κ β)} {action : ChannelAction κ (Sent κ β)}

theorem Held.setChannel {other : Nat} (h : run.Held other)
    (hstep : (run.channels index).step action = some channel) :
    (run.setChannel index channel).Held other := by
  by_cases heq : other = index
  · subst heq
    have hchannel : (run.setChannel other channel).channels other = channel :=
      Function.update_self ..
    unfold Held
    rw [hchannel]
    rcases h with hclosed | hsession | ⟨thread, hcall, hshut⟩ | hphase | ⟨hphase, hshut⟩
    · exact Or.inl (ChannelRun.closed_step hstep hclosed)
    · exact Or.inr (Or.inl hsession)
    · exact Or.inr (Or.inr (Or.inl ⟨thread, hcall, hshut.step hstep⟩))
    · exact Or.inr (Or.inr (Or.inr (Or.inl hphase)))
    · exact Or.inr (Or.inr (Or.inr (Or.inr ⟨hphase, hshut.step hstep⟩)))
  · have hchannel : (run.setChannel index channel).channels other = run.channels other :=
      Function.update_of_ne heq _ _
    unfold Held
    rw [hchannel]
    exact h

theorem Kept.setChannel (h : run.Kept) (hstep : (run.channels index).step action = some channel) :
    (run.setChannel index channel).Kept :=
  ⟨h.returned, h.closes, h.taken, h.early, fun other hother => (h.held other hother).setChannel hstep⟩

theorem Kept.step {action : LifeAction κ β} (h : run.Kept) (hstep : run.step action = some after) :
    after.Kept := by
  cases step_move hstep with
  | @begin thread bytes key hcall =>
    have hnext : Kept { run with
        begun := run.begun + 1
        late := if run.returned then run.late ++ [run.begun] else run.late } :=
      ⟨h.returned, h.closes, h.taken, h.early, h.held⟩
    unfold begin
    dsimp only
    split
    · exact hnext
    · exact hnext.setCall _ (by simp [hcall, LifeCall.closes]) rfl
  | @queue thread frame hcall hunconnected =>
    have hnext := h.setCall .idle (by rw [hcall]; rfl) rfl
    exact hnext.setSession (run.session.sendLocked_closing frame)
      (run.session.sendLocked_connected frame)
  | pass hcall hchannel =>
    have hnext := (h.setChannel hchannel).setCall (.sending run.current)
      (by change (run.calls _).closes = false; rw [hcall]; rfl) rfl
    exact ⟨hnext.returned, hnext.closes, hnext.taken, hnext.early, hnext.held⟩
  | passed hcall =>
    have hnext := h.setCall .idle (by rw [hcall]; rfl) rfl
    exact ⟨hnext.returned, hnext.closes, hnext.taken, hnext.early, hnext.held⟩
  | @close thread hcall =>
    refine ⟨fun _ => rfl, fun _ _ => rfl, fun _ _ => ⟨thread, Function.update_self ..⟩, h.early, ?_⟩
    intro index hindex
    rcases h.held index hindex with hclosed | hsession | ⟨other, hother, hshut⟩ | hphase
    · exact Or.inl hclosed
    · exact Or.inr (Or.inl hsession)
    · exact Or.inr (Or.inr (Or.inl ⟨other, calls_kept (by simp [hcall]) hother, hshut⟩))
    · exact Or.inr (Or.inr (Or.inr hphase))
  | @take thread channel hcall hchannel =>
    have hclosing : run.session.closing = true := h.closes thread (by rw [hcall]; rfl)
    refine ⟨fun _ => hclosing, fun _ _ => hclosing, fun _ hconnected => by contradiction,
      fun _ => rfl, ?_⟩
    intro index hindex
    have hstepped := (h.held index hindex).setChannel hchannel
    rcases hstepped with hclosed | ⟨_, hcurrent⟩ | ⟨other, hother, hshut⟩ | hphase
    · exact Or.inl hclosed
    · refine Or.inr (Or.inr (Or.inl ⟨thread, ?_, ?_⟩))
      · rw [← hcurrent]
        exact Function.update_self ..
      · rw [← hcurrent]
        change ChannelRun.Shut (Function.update run.channels run.current channel run.current) thread
        rw [Function.update_self]
        exact ChannelRun.shut_of_close hchannel
    · have hthread : run.calls thread ≠ .closing index := by
        simp [hcall]
      exact Or.inr (Or.inr (Or.inl ⟨other, calls_kept hthread hother, hshut⟩))
    · exact Or.inr (Or.inr (Or.inr hphase))
  | @takeNothing thread hcall hunconnected =>
    have hclosing : run.session.closing = true := h.closes thread (by rw [hcall]; rfl)
    refine ⟨fun _ => hclosing, fun _ _ => hclosing, fun _ hconnected => by contradiction,
      fun _ => rfl, ?_⟩
    intro index hindex
    rcases h.held index hindex with hclosed | ⟨hconnected, _⟩ | ⟨other, hother, hshut⟩ | hphase
    · exact Or.inl hclosed
    · rw [hunconnected] at hconnected
      contradiction
    · exact Or.inr (Or.inr (Or.inl ⟨other, calls_kept (by simp [hcall]) hother, hshut⟩))
    · exact Or.inr (Or.inr (Or.inr hphase))
  | @closed thread index hcall hdone =>
    have hclosing : run.session.closing = true := h.closes thread (by rw [hcall]; rfl)
    refine ⟨fun _ => hclosing, fun _ _ => hclosing, ?_, h.early, ?_⟩
    · intro _ hconnected
      obtain ⟨other, htaking⟩ := h.taken hclosing hconnected
      exact ⟨other, calls_kept (by simp [hcall]) htaking⟩
    · intro other hother
      rcases h.held other hother with hclosed | hsession | ⟨closer, hcloser, hshut⟩ | hphase
      · exact Or.inl hclosed
      · exact Or.inr (Or.inl hsession)
      · by_cases heq : closer = thread
        · subst heq
          have hsame : index = other := LifeCall.closing.inj (hcall.symm.trans hcloser)
          subst hsame
          exact Or.inl (hshut.done hdone)
        · exact Or.inr (Or.inr (Or.inl
            ⟨closer, (Function.update_of_ne heq ..).trans hcloser, hshut⟩))
      · exact Or.inr (Or.inr (Or.inr hphase))
  | check hphase =>
    exact h.setPhase (fun _ => by rw [hphase]; rfl) (by simp [hphase]) (by simp [hphase])
  | fail hphase =>
    exact h.setPhase (fun _ => by rw [hphase]; rfl) (by simp [hphase]) (by simp [hphase])
  | connect hphase =>
    refine ⟨h.returned, h.closes, h.taken, fun _ => h.early (by rw [hphase]; rfl), ?_⟩
    intro index hindex
    by_cases hnew : index = run.created
    · exact Or.inr (Or.inr (Or.inr (Or.inl (congrArg LifePhase.adopting hnew.symm))))
    · have hchannel : Function.update run.channels run.created .initial index =
          run.channels index := Function.update_of_ne hnew ..
      unfold Held SessionLife.setChannel
      dsimp only
      rw [hchannel]
      have hold : index < run.created := by
        dsimp only at hindex
        omega
      rcases h.held index hold with hclosed | hsession | hcloser | hadopting | ⟨hdiscarding, _⟩
      · exact Or.inl hclosed
      · exact Or.inr (Or.inl hsession)
      · exact Or.inr (Or.inr (Or.inl hcloser))
      · rw [hphase] at hadopting
        contradiction
      · rw [hphase] at hdiscarding
        contradiction
  | @adopt index hphase hopen =>
    refine ⟨h.returned, h.closes, fun hclosing => ?_, fun hearly => by contradiction, ?_⟩
    · rw [hopen] at hclosing
      contradiction
    · intro other hother
      rcases h.held other hother with hclosed | ⟨hconnected, _⟩ | hcloser | hadopting | ⟨hdiscarding, _⟩
      · exact Or.inl hclosed
      · rw [h.early (by rw [hphase]; rfl)] at hconnected
        contradiction
      · exact Or.inr (Or.inr (Or.inl hcloser))
      · exact Or.inr (Or.inl ⟨rfl, LifePhase.adopting.inj (hphase.symm.trans hadopting)⟩)
      · rw [hphase] at hdiscarding
        contradiction
  | @discard index channel hphase hchannel =>
    have hnext := h.setChannel hchannel
    refine ⟨h.returned, h.closes, h.taken, fun _ => h.early (by rw [hphase]; rfl), ?_⟩
    intro other hother
    rcases hnext.held other hother with hclosed | hsession | hcloser | hadopting | ⟨hdiscarding, _⟩
    · exact Or.inl hclosed
    · exact Or.inr (Or.inl hsession)
    · exact Or.inr (Or.inr (Or.inl hcloser))
    · have hsame : index = other := LifePhase.adopting.inj (hphase.symm.trans hadopting)
      subst hsame
      refine Or.inr (Or.inr (Or.inr (Or.inr ⟨rfl, ?_⟩)))
      change ChannelRun.Shut (Function.update run.channels index channel index) runThread
      rw [Function.update_self]
      exact ChannelRun.shut_of_close hchannel
    · exact absurd (hphase.symm.trans hdiscarding) (by simp)
  | @discarded index hphase hdone =>
    refine ⟨h.returned, h.closes, h.taken, fun _ => h.early (by rw [hphase]; rfl), ?_⟩
    intro other hother
    rcases h.held other hother with hclosed | hsession | hcloser | hadopting | ⟨hdiscarding, hshut⟩
    · exact Or.inl hclosed
    · exact Or.inr (Or.inl hsession)
    · exact Or.inr (Or.inr (Or.inl hcloser))
    · rw [hphase] at hadopting
      contradiction
    · have hsame : index = other := LifePhase.discarding.inj (hphase.symm.trans hdiscarding)
      subst hsame
      exact Or.inl (hshut.done hdone)
  | @flush index frame rest channel hphase hchannel =>
    have hflushing : (run.setChannel index channel).phase = .flushing index (frame :: rest) := hphase
    exact (h.setChannel hchannel).setPhase (fun hearly => by contradiction)
      (by simp [hflushing]) (by simp [hflushing])
  | flushed hphase =>
    exact h.setPhase (fun hearly => by contradiction) (by simp [hphase]) (by simp [hphase])
  | replayed hphase =>
    exact h.setPhase (fun hearly => by contradiction) (by simp [hphase]) (by simp [hphase])
  | channel hinner hchannel => exact h.setChannel hchannel

end

/-! ### Where a frame has got to -/

/-- The frame with the stamp has not been dropped by the check of `closing_`. -/
def Given (run : SessionLife κ β) (stamp : Nat) : Prop :=
  (∃ thread frame, run.calls thread = .locking frame ∧ frame.stamp = stamp) ∨
    (∃ frame ∈ run.session.pending, frame.stamp = stamp) ∨
    (∃ index waiting, run.phase = .flushing index waiting ∧ ∃ frame ∈ waiting, frame.stamp = stamp) ∨
    ∃ index, (run.channels index).Given stamp

section
variable {run after : SessionLife κ β} {stamp : Nat}

theorem locking_setCall {thread other : ThreadId} {call : LifeCall κ β}
    (h : ∀ frame, call ≠ .locking frame) (frame : Sent κ β)
    (hother : Function.update run.calls thread call other = .locking frame) :
    run.calls other = .locking frame := by
  by_cases heq : other = thread
  · rw [heq, Function.update_self] at hother
    exact absurd hother (h frame)
  · rwa [Function.update_of_ne heq] at hother

theorem Given.back (h : after.Given stamp)
    (hcalls : ∀ thread frame, after.calls thread = .locking frame →
      run.calls thread = .locking frame)
    (hpending : ∀ frame ∈ after.session.pending, frame.stamp = stamp → run.Given stamp)
    (hphase : ∀ index waiting, after.phase = .flushing index waiting →
      ∀ frame ∈ waiting, frame.stamp = stamp → run.Given stamp)
    (hchannels : ∀ index, (after.channels index).Given stamp → run.Given stamp) :
    run.Given stamp := by
  rcases h with ⟨thread, frame, hcall, hstamp⟩ | ⟨frame, hframe, hstamp⟩ |
    ⟨index, waiting, hwaiting, frame, hframe, hstamp⟩ | ⟨index, hchannel⟩
  · exact Or.inl ⟨thread, frame, hcalls thread frame hcall, hstamp⟩
  · exact hpending frame hframe hstamp
  · exact hphase index waiting hwaiting frame hframe hstamp
  · exact hchannels index hchannel

variable (run) in
theorem given_pending (frame : Sent κ β) (hframe : frame ∈ run.session.pending)
    (hstamp : frame.stamp = stamp) : run.Given stamp :=
  Or.inr (Or.inl ⟨frame, hframe, hstamp⟩)

variable (run) in
theorem given_waiting (index : Nat) (waiting : List (Sent κ β))
    (hphase : run.phase = .flushing index waiting) (frame : Sent κ β) (hframe : frame ∈ waiting)
    (hstamp : frame.stamp = stamp) : run.Given stamp :=
  Or.inr (Or.inr (Or.inl ⟨index, waiting, hphase, frame, hframe, hstamp⟩))

variable (run) in
theorem given_channel (index : Nat) (h : (run.channels index).Given stamp) : run.Given stamp :=
  Or.inr (Or.inr (Or.inr ⟨index, h⟩))

structure Punctual (run : SessionLife κ β) : Prop where
  given : ∀ stamp, run.Given stamp → stamp < run.begun ∧ stamp ∉ run.late
  late : ∀ stamp ∈ run.late, stamp < run.begun

theorem Punctual.initial : Punctual (initial : SessionLife κ β) where
  given := by
    rintro stamp (⟨thread, frame, hcall, _⟩ | ⟨frame, hframe, _⟩ | ⟨index, waiting, hwaiting, _⟩ |
      ⟨index, ⟨queued, hqueued, _⟩ | ⟨thread, bytes, key, hcall, _⟩⟩)
    · contradiction
    · contradiction
    · contradiction
    · contradiction
    · contradiction
  late stamp h := by contradiction

variable [LawfulEqOrd κ]

theorem Given.setChannel {index : Nat} {channel : ChannelRun κ (Sent κ β)}
    {action : ChannelAction κ (Sent κ β)}
    (hstep : (run.channels index).step action = some channel)
    (hsend : ∀ thread frame key, action = .send thread frame key → frame.stamp = stamp →
      run.Given stamp) (other : Nat)
    (h : (Function.update run.channels index channel other).Given stamp) : run.Given stamp := by
  by_cases heq : other = index
  · rw [heq, Function.update_self] at h
    rcases h.step hstep with hbefore | ⟨thread, frame, key, haction, hstamp⟩
    · exact run.given_channel index hbefore
    · exact hsend thread frame key haction hstamp
  · rw [Function.update_of_ne heq] at h
    exact run.given_channel other h

theorem Given.step {action : LifeAction κ β} (h : after.Given stamp)
    (hstep : run.step action = some after) :
    run.Given stamp ∨ (stamp = run.begun ∧ run.session.closing = false ∧
      after.begun = run.begun + 1) := by
  cases step_move hstep with
  | @begin thread bytes key hcall =>
    unfold begin at h ⊢
    dsimp only at h ⊢
    split at h
    · exact Or.inl h
    · rename_i hopen
      rw [if_neg hopen]
      rcases h with ⟨other, frame, hother, hstamp⟩ | hrest
      · change Function.update run.calls thread _ other = _ at hother
        by_cases heq : other = thread
        · rw [heq, Function.update_self] at hother
          cases hother
          exact Or.inr ⟨hstamp.symm, Bool.eq_false_iff.mpr hopen, rfl⟩
        · rw [Function.update_of_ne heq] at hother
          exact Or.inl (Or.inl ⟨other, frame, hother, hstamp⟩)
      · exact Or.inl (Or.inr hrest)
  | @queue thread frame hcall hunconnected =>
    left
    refine h.back (fun _ => locking_setCall (by simp)) ?_ run.given_waiting
      run.given_channel
    intro queued hqueued hstamp
    rcases ClientSession.mem_sendLocked hqueued with hold | hnew
    · exact run.given_pending queued hold hstamp
    · rw [hnew] at hstamp
      exact Or.inl ⟨thread, frame, hcall, hstamp⟩
  | @pass thread frame channel hcall hchannel =>
    left
    refine h.back (fun _ => locking_setCall (by simp)) run.given_pending
      run.given_waiting (Given.setChannel hchannel ?_)
    intro sender sent key haction hstamp
    cases haction
    exact Or.inl ⟨thread, frame, hcall, hstamp⟩
  | passed hcall =>
    exact Or.inl (h.back (fun _ => locking_setCall (by simp)) run.given_pending
      run.given_waiting run.given_channel)
  | close hcall =>
    exact Or.inl (h.back (fun _ => locking_setCall (by simp)) run.given_pending
      run.given_waiting run.given_channel)
  | take hcall hchannel =>
    exact Or.inl (h.back (fun _ => locking_setCall (by simp)) (fun _ hframe => by contradiction)
      run.given_waiting (Given.setChannel hchannel (by simp)))
  | takeNothing hcall hunconnected =>
    exact Or.inl (h.back (fun _ => locking_setCall (by simp)) (fun _ hframe => by contradiction)
      run.given_waiting run.given_channel)
  | closed hcall hdone =>
    exact Or.inl (h.back (fun _ => locking_setCall (by simp)) run.given_pending
      run.given_waiting run.given_channel)
  | check hphase =>
    refine Or.inl (h.back (fun _ _ => id) run.given_pending ?_ run.given_channel)
    intro index waiting hwaiting
    dsimp only at hwaiting
    split at hwaiting <;> contradiction
  | fail hphase =>
    exact Or.inl (h.back (fun _ _ => id) run.given_pending
      (fun _ _ hwaiting => by contradiction) run.given_channel)
  | connect hphase =>
    refine Or.inl (h.back (fun _ _ => id) run.given_pending
      (fun _ _ hwaiting => by contradiction) ?_)
    intro index hchannel
    change (Function.update run.channels run.created .initial index).Given stamp at hchannel
    by_cases heq : index = run.created
    · rw [heq, Function.update_self] at hchannel
      rcases hchannel with ⟨queued, hqueued, _⟩ | ⟨thread, bytes, key, hcall, _⟩
      · contradiction
      · contradiction
    · rw [Function.update_of_ne heq] at hchannel
      exact run.given_channel index hchannel
  | adopt hphase hopen =>
    refine Or.inl (h.back (fun _ _ => id) (fun _ hframe => by contradiction) ?_
      run.given_channel)
    intro index waiting hwaiting frame hframe hstamp
    cases hwaiting
    exact run.given_pending frame hframe hstamp
  | discard hphase hchannel =>
    exact Or.inl (h.back (fun _ _ => id) run.given_pending
      (fun _ _ hwaiting => by contradiction) (Given.setChannel hchannel (by simp)))
  | discarded hphase hdone =>
    exact Or.inl (h.back (fun _ _ => id) run.given_pending
      (fun _ _ hwaiting => by contradiction) run.given_channel)
  | @flush index frame rest channel hphase hchannel =>
    left
    refine h.back (fun _ _ => id) run.given_pending ?_ (Given.setChannel hchannel ?_)
    · intro other waiting hwaiting queued hqueued hstamp
      cases hwaiting
      exact run.given_waiting index _ hphase queued (List.mem_cons_of_mem frame hqueued) hstamp
    · intro sender sent key haction hstamp
      cases haction
      exact run.given_waiting index _ hphase frame List.mem_cons_self hstamp
  | flushed hphase =>
    exact Or.inl (h.back (fun _ _ => id) run.given_pending
      (fun _ _ hwaiting => by contradiction) run.given_channel)
  | replayed hphase =>
    exact Or.inl (h.back (fun _ _ => id) run.given_pending
      (fun _ _ hwaiting => by contradiction) run.given_channel)
  | channel hinner hchannel =>
    refine Or.inl (h.back (fun _ _ => id) run.given_pending run.given_waiting
      (Given.setChannel hchannel ?_))
    intro sender sent key haction _
    rw [haction] at hinner
    contradiction

theorem begun_step {action : LifeAction κ β} (hstep : run.step action = some after) :
    (after.begun = run.begun ∧ after.late = run.late) ∨ (after.begun = run.begun + 1 ∧
      after.late = if run.returned then run.late ++ [run.begun] else run.late) := by
  cases step_move hstep with
  | begin hcall =>
    right
    unfold begin
    dsimp only
    split <;> exact ⟨rfl, rfl⟩
  | _ => exact Or.inl ⟨rfl, rfl⟩

theorem Punctual.step {action : LifeAction κ β} (h : run.Punctual) (hkept : run.Kept)
    (hstep : run.step action = some after) : after.Punctual := by
  have hbegun := begun_step hstep
  constructor
  · intro stamp hgiven
    rcases hgiven.step hstep with hbefore | ⟨rfl, hopen, hnew⟩
    · obtain ⟨hlt, hpunctual⟩ := h.given stamp hbefore
      rcases hbegun with ⟨hsame, hlate⟩ | ⟨hmore, hlate⟩
      · rw [hsame, hlate]
        exact ⟨hlt, hpunctual⟩
      · rw [hmore, hlate]
        refine ⟨Nat.lt_succ_of_lt hlt, ?_⟩
        split
        · rw [List.mem_append, List.mem_singleton]
          rintro (hold | hlast)
          · exact hpunctual hold
          · omega
        · exact hpunctual
    · have hnever : run.returned = false := by
        rw [Bool.eq_false_iff]
        intro hreturned
        rw [hkept.returned hreturned] at hopen
        contradiction
      have hlate : after.late = run.late := by
        rcases hbegun with ⟨_, hlate⟩ | ⟨_, hlate⟩
        · exact hlate
        · rw [hlate, hnever]
          rfl
      rw [hnew, hlate]
      refine ⟨Nat.lt_succ_self _, ?_⟩
      intro hmem
      exact Nat.lt_irrefl _ (h.late _ hmem)
  · intro stamp hmem
    rcases hbegun with ⟨hsame, hlate⟩ | ⟨hmore, hlate⟩
    · rw [hlate] at hmem
      rw [hsame]
      exact h.late stamp hmem
    · rw [hmore]
      rw [hlate] at hmem
      split at hmem
      · rcases List.mem_append.mp hmem with hold | hlast
        · exact Nat.lt_succ_of_lt (h.late stamp hold)
        · rw [List.mem_singleton.mp hlast]
          exact Nat.lt_succ_self _
      · exact Nat.lt_succ_of_lt (h.late stamp hmem)

/-- Once `close` has returned and `run` has ended, every channel there was is
closed; and no frame sent from then on is in any outbox, at any time. -/
theorem nothing_left_open (hreach : Reach step unguarded initial run) :
    (run.returned = true → (∀ thread, (run.calls thread).closes = false) → run.phase = .ended →
      (∀ index < run.created, (run.channels index).channel.closed = true) ∧
        run.session.connected = false) ∧
    ∀ index, ∀ queued ∈ (run.channels index).channel.outbox.frames,
      queued.bytes.bytes.stamp ∉ run.late := by
  have hinvariant : run.Kept ∧ run.Punctual :=
    hreach.invariant (I := fun run => run.Kept ∧ run.Punctual) ⟨Kept.initial, Punctual.initial⟩
      fun _ _ _ h _ hstep => ⟨h.1.step hstep, h.2.step h.1 hstep⟩
  obtain ⟨hkept, hpunctual⟩ := hinvariant
  constructor
  · intro hreturned hnone hended
    have hunconnected : run.session.connected = false := by
      rw [Bool.eq_false_iff]
      intro hconnected
      obtain ⟨thread, htaking⟩ := hkept.taken (hkept.returned hreturned) hconnected
      have hcloses := hnone thread
      rw [htaking] at hcloses
      contradiction
    refine ⟨?_, hunconnected⟩
    intro index hindex
    rcases hkept.held index hindex with hclosed | ⟨hconnected, _⟩ | ⟨thread, hcall, _⟩ |
      hadopting | ⟨hdiscarding, _⟩
    · exact hclosed
    · rw [hunconnected] at hconnected
      contradiction
    · have hcloses := hnone thread
      rw [hcall] at hcloses
      contradiction
    · rw [hended] at hadopting
      contradiction
    · rw [hended] at hdiscarding
      contradiction
  · intro index queued hqueued
    exact (hpunctual.given _ (run.given_channel index (Or.inl ⟨queued, hqueued, rfl⟩))).2

end

/-- The session is closed between its connection coming up and the adoption. One
frame is sent before that, another one after. -/
def closedWhileConnecting : List (LifeAction PairKey Bytes) :=
  [.check, .send 1 [1] none, .connect, .lock 1, .close 2, .take 2, .send 1 [2] none, .adopt,
    .channel 0 (.shut 0), .channel 0 (.clear 0), .discarded, .check]

theorem nothing_left_open_discarded : ∃ run : SessionLife PairKey Bytes,
    Reach step unguarded initial run ∧ run.created = 1 ∧ run.late = [1] ∧
      (run.channels 0).channel.closed = true ∧ run.session.connected = false ∧
      ∀ index, ∀ queued ∈ (run.channels index).channel.outbox.frames,
        queued.bytes.bytes.stamp ∉ run.late := by
  have hrun : ∃ run : SessionLife PairKey Bytes, Reach step unguarded initial run ∧
      run.created = 1 ∧ run.late = [1] ∧ run.returned = true ∧ run.phase = .ended ∧
      ∀ thread, (run.calls thread).closes = false := by
    refine ⟨_, Reach.of_run closedWhileConnecting (fun _ _ _ => trivial) rfl, rfl, rfl, rfl, rfl, ?_⟩
    intro thread
    match thread with
    | 0 => rfl
    | 1 => rfl
    | 2 => rfl
    | thread + 3 => rfl
  obtain ⟨run, hreach, hcreated, hlate, hreturned, hended, hnone⟩ := hrun
  obtain ⟨hclosed, hpunctual⟩ := nothing_left_open hreach
  obtain ⟨hall, hunconnected⟩ := hclosed hreturned hnone hended
  exact ⟨run, hreach, hcreated, hlate, hall 0 (by rw [hcreated]; exact Nat.zero_lt_one),
    hunconnected, hpunctual⟩

end SessionLife

end Srnp
