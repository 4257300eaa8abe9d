import Srnp.Node

/-! The order of changes against the order of frames. A component's own pairs
have four writers: `setPair`, `removePair` and the handlers of `Pair` and
`RemovePair`. The two local ones fan out under the lock of the pair space. The
two handlers fan out after releasing it, so a write to the same key may be
applied and announced between their change and their frame. Where no write to
the key falls into that gap, a subscriber is told of the changes in order. -/
namespace Srnp
open Std LastWrite Transition

namespace Node
variable {F : Type}

def WritersOnly (_ : Node F) : NodeAction F → Prop
  | .enter _ call _ => call.writes
  | _ => True

/-- A write to `key` is applied only when no thread owes `subscriber` a frame
about it, and can be framed; no callback throws ahead of such a frame. -/
def InTurn (subscriber : OwnerId) (key : PairKey) (node : Node F) : NodeAction F → Prop
  | .enter _ call _ => call.writes ∧
      ((node.component.ownWrite call).map (·.key) = some key →
        call.announceable ∧ node.Settled subscriber key)
  | .advance _ => True
  | .throw thread => node.owed subscriber key thread = []

/-- The frames handed to `subscriber` are those of the first changes to `key`,
in order; once nothing is owed, they are those of all its changes, and the last
of them says what the space shows. -/
def ToldInOrder (node : Node F) (subscriber : OwnerId) (key : PairKey) : Prop :=
  node.handedTo subscriber key <+: node.changesTo subscriber key ∧
    (node.Settled subscriber key →
      node.handedTo subscriber key = node.changesTo subscriber key) ∧
    (node.Settled subscriber key → ∀ last,
      (node.handedTo subscriber key).getLast? = some last → node.Describes key last)

/-- What is `due` to a subscriber about `key` has been handed over or is owed by
one thread, and ends with what the space shows. -/
structure Turns (subscriber : OwnerId) (key : PairKey) (due : List (OwnerId × Message))
    (node : Node F) : Prop where
  session : node.component.sessions.contains subscriber
  member : subscriber ∈ node.component.space.subscribersOf key
  holder : ∃ thread, (∀ other, other ≠ thread → node.owed subscriber key other = []) ∧
    due = node.handedTo subscriber key ++ node.owed subscriber key thread
  current : ∀ last, due.getLast? = some last → node.Describes key last

end Node

namespace Node
variable {F : Type} {subscriber : OwnerId} {key : PairKey} {due : List (OwnerId × Message)}
  {node : Node F}

theorem view_enter_writes (thread : ThreadId) {call : Call F} (h : call.writes)
    (now : TimePoint) :
    (node.enter thread call now).component.space.view =
      node.component.space.view.replay (node.component.ownWrite call).toList :=
  node.component.view_enter_writes h now

theorem sessions_enter_writes (thread : ThreadId) {call : Call F} (h : call.writes)
    (now : TimePoint) :
    (node.enter thread call now).component.sessions = node.component.sessions := by
  obtain ⟨space, hspace⟩ := node.component.enter_writes_frame h now
  simp only [enter, hspace]

theorem Turns.quiet {c : Component F} (hsession : c.sessions.contains subscriber)
    (hmember : subscriber ∈ c.space.subscribersOf key) :
    Turns subscriber key [] (Node.quiet c) where
  session := hsession
  member := hmember
  holder := ⟨0, fun _ _ => rfl, rfl⟩
  current := by
    intro last hlast
    contradiction

theorem Turns.frame {next : Node F} (h : Turns subscriber key due node)
    (hsession : next.component.sessions = node.component.sessions)
    (hmember : subscriber ∈ next.component.space.subscribersOf key)
    (howed : ∀ other, next.owed subscriber key other = node.owed subscriber key other)
    (hhanded : next.handed = node.handed)
    (hview : next.component.space.view key = node.component.space.view key) :
    Turns subscriber key due next where
  session := by
    rw [hsession]
    exact h.session
  member := hmember
  holder := by
    obtain ⟨thread, hothers, hsplit⟩ := h.holder
    refine ⟨thread, ?_, ?_⟩
    · intro other hother
      rw [howed, hothers other hother]
    · rw [howed, handedTo, hhanded]
      exact hsplit
  current := by
    intro last hlast
    have hdescribes := h.current last hlast
    rwa [Describes, ← hview] at hdescribes

theorem changesTo_enter (thread : ThreadId) (call : Call F) (now : TimePoint) :
    (node.enter thread call now).changesTo subscriber key =
      node.changesTo subscriber key ++
        ((node.component.enter call now).change.toList.map (subscriber, ·)).filter
          (Concerns subscriber key) := by
  simp only [changesTo, enter, List.map_append, List.filter_append]

/-- Before its next write a settled key has been told all that is due. -/
theorem Turns.settled (h : Turns subscriber key due node)
    (hsettled : node.Settled subscriber key) : node.handedTo subscriber key = due := by
  obtain ⟨thread, _, hsplit⟩ := h.holder
  rw [hsplit, hsettled thread, List.append_nil]

structure Turns.Next (subscriber : OwnerId) (key : PairKey) (due : List (OwnerId × Message))
    (node next : Node F) (extra : List (OwnerId × Message)) : Prop where
  changes : next.changesTo subscriber key = node.changesTo subscriber key ++ extra
  turns : Turns subscriber key (due ++ extra) next
  view : extra = [] → next.component.space.view key = node.component.space.view key

theorem Turns.enter_same (h : Turns subscriber key due node) {thread : ThreadId} {call : Call F}
    {now : TimePoint} (hwrites : call.writes) {message : Message}
    (hwrote : node.component.Wrote call (node.component.enter call now) message)
    (htarget : message.target = some key) (hfits : message.fits)
    (hsettled : node.Settled subscriber key) :
    Turns.Next subscriber key due node (node.enter thread call now) [(subscriber, message)] := by
  have howed : ∀ other, (node.enter thread call now).owed subscriber key other =
      if other = thread then [(subscriber, message)] else [] := by
    intro other
    rw [owed_enter, hwrote.parcels, announced_concerns _ hfits htarget h.member, hsettled]
  constructor
  · rw [changesTo_enter, hwrote.change]
    simp [Concerns, htarget]
  · constructor
    · rw [sessions_enter_writes thread hwrites]
      exact h.session
    · exact node.component.mem_subscribersOf_enter_writes hwrites now h.member
    · refine ⟨thread, ?_, ?_⟩
      · intro other hother
        rw [howed, if_neg hother]
      · rw [howed, if_pos rfl, ← h.settled hsettled]
        rfl
    · intro last hlast
      rw [List.getLast?_concat] at hlast
      cases Option.some.inj hlast
      obtain ⟨write, hwrite, hkey⟩ := Option.map_eq_some_iff.mp (message.target_eq ▸ htarget)
      have hview : (node.enter thread call now).component.space.view = _ :=
        view_enter_writes thread hwrites now
      rw [← hwrote.write, hwrite] at hview
      simp only [Describes, hwrite, hview, Option.map_some, Option.toList_some,
        Store.replay_cons, Store.replay_nil, Store.apply_same hkey]
  · intro hnothing
    contradiction

theorem Turns.enter_other (h : Turns subscriber key due node) {thread : ThreadId} {call : Call F}
    {now : TimePoint} (hidle : node.todo thread = []) (hwrites : call.writes)
    (howed : (Component.parcels (node.component.enter call now).todo).filter
      (Concerns subscriber key) = [])
    (hchange : ∀ message, (node.component.enter call now).change = some message →
      message.target ≠ some key)
    (hview : (node.enter thread call now).component.space.view key =
      node.component.space.view key) :
    Turns.Next subscriber key due node (node.enter thread call now) [] := by
  constructor
  · rw [changesTo_enter]
    cases hmessage : (node.component.enter call now).change with
    | none => simp
    | some message => simp [Concerns, hchange message hmessage]
  · rw [List.append_nil]
    apply h.frame (sessions_enter_writes thread hwrites now)
      (node.component.mem_subscribersOf_enter_writes hwrites now h.member) _ rfl hview
    intro other
    rw [owed_enter, howed]
    split
    · rename_i heq
      rw [heq, owed_of_idle hidle]
    · rfl
  · intro _
    exact hview

theorem Turns.enter (h : Turns subscriber key due node) {thread : ThreadId} {call : Call F}
    {now : TimePoint} (hidle : node.todo thread = [])
    (hguard : InTurn subscriber key node (.enter thread call now)) :
    ∃ extra, Turns.Next subscriber key due node (node.enter thread call now) extra := by
  obtain ⟨hwrites, hturn⟩ := hguard
  rcases node.component.enter_writes hwrites now with hnothing | ⟨message, hwrote⟩
  · refine ⟨[], h.enter_other hidle hwrites ?_ ?_ ?_⟩
    · simp [hnothing, Component.idle]
    · simp [hnothing, Component.idle]
    · simp [Node.enter, hnothing, Component.idle]
  · by_cases htarget : message.target = some key
    · have hkey : (node.component.ownWrite call).map (·.key) = some key := by
        rw [← hwrote.write, ← message.target_eq, htarget]
      obtain ⟨hannounceable, hsettled⟩ := hturn hkey
      have hfits := hwrote.fits hwrites hannounceable
      exact ⟨_, h.enter_same hwrites hwrote htarget hfits hsettled⟩
    · refine ⟨[], h.enter_other hidle hwrites ?_ ?_ ?_⟩
      · rw [hwrote.parcels]
        exact announced_elsewhere _ subscriber htarget
      · intro changed hchanged
        rw [hwrote.change] at hchanged
        cases Option.some.inj hchanged
        exact htarget
      · rw [view_enter_writes thread hwrites, ← hwrote.write]
        exact message.replay_elsewhere htarget _

theorem Turns.advance (h : Turns subscriber key due node) {thread : ThreadId}
    {first : Action F} {rest : List (Action F)} (htodo : node.todo thread = first :: rest) :
    Turns.Next subscriber key due node (node.advance thread first rest) [] := by
  have hcons := owed_cons htodo subscriber key
  have hhanded := handedTo_advance node thread first rest h.session key
  have hcomponent : (node.advance thread first rest).component = node.component :=
    perform_component node first
  obtain ⟨holder, hothers, hsplit⟩ := h.holder
  constructor
  · simp only [changesTo, Node.advance, perform_changes, List.append_nil]
  · rw [List.append_nil]
    constructor
    · rw [hcomponent]
      exact h.session
    · rw [hcomponent]
      exact h.member
    · refine ⟨holder, ?_, ?_⟩
      · intro other hother
        have hempty := hothers other hother
        rw [owed_advance]
        split
        · rename_i heq
          rw [heq, hcons, List.append_eq_nil_iff] at hempty
          exact hempty.2
        · exact hempty
      · rw [hsplit, hhanded, owed_advance, List.append_assoc]
        split
        · rename_i heq
          rw [heq, hcons]
        · rename_i hother
          have hempty := hothers thread (Ne.symm hother)
          rw [hcons, List.append_eq_nil_iff] at hempty
          rw [hempty.1, List.nil_append]
    · intro last hlast
      have hdescribes := h.current last hlast
      rwa [Describes, hcomponent]
  · intro _
    rw [hcomponent]

theorem Turns.step {action : NodeAction F} {next : Node F} (h : Turns subscriber key due node)
    (hguard : InTurn subscriber key node action) (hstep : node.step action = some next) :
    ∃ extra, Turns.Next subscriber key due node next extra := by
  rcases step_cases hstep with ⟨thread, call, now, rfl, hidle, _, rfl⟩ |
    ⟨thread, first, rest, rfl, htodo, rfl⟩ | ⟨thread, rfl, rfl⟩
  · exact h.enter hidle hguard
  · exact ⟨[], h.advance htodo⟩
  · refine ⟨[], (List.append_nil _).symm, ?_, fun _ => rfl⟩
    rw [List.append_nil]
    refine h.frame rfl h.member ?_ rfl rfl
    intro other
    by_cases heq : other = thread
    · subst heq
      change node.owed subscriber key other = [] at hguard
      rw [hguard]
      simp [owed]
    · simp [owed, heq]

theorem Turns.of_reach {c : Component F} (hmember : subscriber ∈ c.space.subscribersOf key)
    (hsession : c.sessions.contains subscriber)
    (hreach : Reach Node.step (InTurn subscriber key) (Node.quiet c) node) :
    Turns subscriber key (node.changesTo subscriber key) node ∧
      (node.changesTo subscriber key = [] →
        node.component.space.view key = c.space.view key) := by
  refine hreach.invariant (I := fun node =>
    Turns subscriber key (node.changesTo subscriber key) node ∧
      (node.changesTo subscriber key = [] →
        node.component.space.view key = c.space.view key)) ⟨.quiet hsession hmember, fun _ => rfl⟩ ?_
  rintro before action after ⟨hturns, hsame⟩ hguard hstep
  obtain ⟨extra, hnext⟩ := hturns.step hguard hstep
  rw [hnext.changes]
  refine ⟨hnext.turns, ?_⟩
  intro hnone
  obtain ⟨hbefore, hextra⟩ := List.append_eq_nil_iff.mp hnone
  exact (hnext.view hextra).trans (hsame hbefore)

/-- As long as every write to `key` waits its turn, a subscriber of `key` is
told of its changes in the order they were applied; and if there was none, the
space shows what it did at the start. -/
theorem told_in_order {c : Component F} (hmember : subscriber ∈ c.space.subscribersOf key)
    (hsession : c.sessions.contains subscriber)
    (hreach : Reach Node.step (InTurn subscriber key) (Node.quiet c) node) :
    node.ToldInOrder subscriber key ∧
      (node.changesTo subscriber key = [] →
        node.component.space.view key = c.space.view key) := by
  obtain ⟨hturns, hsame⟩ := Turns.of_reach hmember hsession hreach
  refine ⟨⟨?_, hturns.settled, ?_⟩, hsame⟩
  · obtain ⟨thread, _, hsplit⟩ := hturns.holder
    exact ⟨_, hsplit.symm⟩
  · intro hsettled last hlast
    rw [hturns.settled hsettled] at hlast
    exact hturns.current last hlast

/-! A component 1000 with one connected subscriber 2000 of its key `"k"`. -/

def watched : Component Unit :=
  ((((Component.initial 1000).enter (.addSession ⟨2000, [], []⟩) 0).component).enter
    (.handle (.subscription { key := [107], ownerId := 1000, subscriber := 2000 })) 0).component

/-- A local publish, fanned out under the lock. -/
theorem told_in_order_setPair : ∃ node : Node Unit,
    Reach Node.step (InTurn 2000 ⟨1000, [107]⟩) (Node.quiet watched) node ∧
      node.handed = [(2000, .pairUpdate ⟨1000, [107], [1], .string, 5, 0⟩)] ∧
      node.ToldInOrder 2000 ⟨1000, [107]⟩ := by
  have hmember : 2000 ∈ watched.space.subscribersOf ⟨1000, [107]⟩ := by decide
  have hsession : watched.sessions.contains 2000 := by decide
  have hguard : InTurn 2000 ⟨1000, [107]⟩ (Node.quiet watched)
      (.enter 0 (.setPair [107] [1] .string) 5) := by
    refine ⟨rfl, fun _ => ⟨?_, fun _ => rfl⟩⟩
    change 1 + 1 + 29 ≤ Wire.kMaxPayload
    decide
  have hreach : ∃ node : Node Unit,
      Reach Node.step (InTurn 2000 ⟨1000, [107]⟩) (Node.quiet watched) node ∧
        node.handed = [(2000, .pairUpdate ⟨1000, [107], [1], .string, 5, 0⟩)] :=
    ⟨_, .tail (a := .advance 0) (.tail .refl hguard rfl) trivial rfl, by decide⟩
  obtain ⟨node, hnode, hhanded⟩ := hreach
  exact ⟨node, hnode, hhanded, (told_in_order hmember hsession hnode).1⟩

/-- Two sessions handle a `Pair` for the same key: both changes are applied
before either is fanned out, and the later one is fanned out first. -/
def overtaking : List (NodeAction Unit) :=
  [.enter 0 (.handle (.pair { owner := 1000, key := [107], value := [1] })) 5,
    .enter 1 (.handle (.pair { owner := 1000, key := [107], value := [2] })) 6,
    .advance 1, .advance 0]

theorem later_write_overtakes :
    2000 ∈ watched.space.subscribersOf ⟨1000, [107]⟩ ∧ watched.sessions.contains 2000 ∧
      ∃ node : Node Unit, Reach Node.step WritersOnly (Node.quiet watched) node ∧
        (∀ thread, node.todo thread = []) ∧
        ¬ node.ToldInOrder 2000 ⟨1000, [107]⟩ ∧
        ∃ last, (node.handedTo 2000 ⟨1000, [107]⟩).getLast? = some last ∧
          ¬ node.Describes ⟨1000, [107]⟩ last := by
  refine ⟨by decide, by decide, _, Reach.of_run overtaking ?_ rfl, ?_, ?_, ?_⟩
  · intro action haction node
    fin_cases haction <;> trivial
  · intro thread
    match thread with
    | 0 => rfl
    | 1 => rfl
    | thread + 2 => rfl
  · intro htold
    have hprefix := htold.1
    revert hprefix
    decide
  · refine ⟨(2000, .pairUpdate ⟨1000, [107], [1], .string, 5, 0⟩), ?_, ?_⟩
    · decide
    · unfold Describes
      decide

end Node

end Srnp
