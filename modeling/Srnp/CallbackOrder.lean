import Srnp.Forwarding

/-! The order in which local callbacks hear of the component's own publishes.
`setPair` collects the callbacks and the snapshot under the lock of the pair
space, releases it and only then posts them to the strand that runs them. A
second publish may be applied and posted in between. Where no publish is applied
while another is in that gap, the strand gets the snapshots in the order in
which they were applied. -/
namespace Srnp
open Std LastWrite Transition

namespace PairSpace
variable {F : Type} (space : PairSpace F)

def watchers (key : PairKey) : List F :=
  space.universalCallbacks ++
    match space.find key with
    | some entry => entry.callbacks.toList.map (·.2)
    | none => []

theorem watchers_put {entry : PairEntry F} {key : PairKey}
    (h : space.watchers entry.pair.pairKey = space.callbacksFor entry) :
    (space.put entry).watchers key = space.watchers key := by
  change space.universalCallbacks ++ (match (space.put entry).find key with
    | some entry => entry.callbacks.toList.map (·.2)
    | none => []) = _
  rw [find_put]
  by_cases heq : entry.pair.pairKey = key
  · rw [if_pos heq, ← heq, h]
    rfl
  · rw [if_neg heq]
    rfl

theorem watchers_addPair_entry (pair : Pair) (now : TimePoint) :
    space.watchers pair.pairKey = space.callbacksFor (space.addPair pair now).2 := by
  unfold watchers callbacksFor addPair
  cases space.find pair.pairKey <;> rfl

theorem callbacksFor_addPair (pair : Pair) (now : TimePoint) :
    (space.addPair pair now).1.callbacksFor (space.addPair pair now).2 =
      space.watchers pair.pairKey := by
  rw [space.watchers_addPair_entry pair now, addPair_eq_put]
  rfl

theorem watchers_addPair (pair : Pair) (now : TimePoint) (key : PairKey) :
    (space.addPair pair now).1.watchers key = space.watchers key := by
  rw [addPair_eq_put]
  apply watchers_put
  rw [addPair_pairKey]
  exact space.watchers_addPair_entry pair now

theorem copyOf_addPair (pair : Pair) (now : TimePoint) (key : PairKey) :
    (space.addPair pair now).1.copyOf key =
      if pair.pairKey = key then some (space.addPair pair now).2.pair else space.copyOf key := by
  unfold copyOf
  rw [addPair_eq_put, find_put, addPair_pairKey]
  split <;> rfl

end PairSpace

/-- The work an action posts to `callback_strand_`. -/
def Action.posts {F : Type} : Action F → Option (Pair × List F)
  | .post snapshot callbacks => some (snapshot, callbacks)
  | _ => none

def pending {F : Type} (todo : List (Action F)) : List (Pair × List F) :=
  todo.filterMap Action.posts

def snapshotOf {F : Type} (watchers : PairKey → List F) : Message → Option (Pair × List F)
  | .pairUpdate pair =>
      if (watchers pair.pairKey).isEmpty then none else some (pair, watchers pair.pairKey)
  | _ => none

namespace Component
variable {F : Type} (c : Component F)

theorem pending_append (first second : List (Action F)) :
    pending (first ++ second) = pending first ++ pending second :=
  List.filterMap_append

theorem pending_sends (message : Message) (ids : List OwnerId) :
    pending (F := F) (ids.map fun subscriber => .send subscriber message) = [] := by
  induction ids with
  | nil => rfl
  | cons id rest ih => exact ih

theorem pending_sendsToAll (key : Bytes) (registering : Bool) :
    pending (c.sendsToAll key registering) = [] := by
  simp [pending, sendsToAll, List.filterMap_map, Function.comp_def, Action.posts]

/-- Where a publish has callbacks to tell, it is not stopped by a frame too large for the
subscribers of the key. -/
def Unstopped (key value : Bytes) : Prop :=
  c.space.watchers ⟨c.owner, key⟩ ≠ [] → c.space.subscribersOf ⟨c.owner, key⟩ ≠ .empty →
    key.length + value.length + 29 ≤ Wire.kMaxPayload

theorem pending_notifyLocal (snapshot : Pair) (callbacks : List F) :
    pending (notifyLocal snapshot callbacks) =
      if callbacks.isEmpty then [] else [(snapshot, callbacks)] := by
  unfold notifyLocal
  split <;> rfl

theorem pending_setPair (hready : c.ready) {key value : Bytes} (type : PairType) (now : TimePoint)
    (hfits : c.Unstopped key value) :
    let added := c.space.addPair { owner := c.owner, key, value, type } now
    pending (c.setPair key value type now).todo =
      (snapshotOf c.space.watchers (.pairUpdate added.2.pair)).toList := by
  intro added
  have hpair := c.space.addPair_pairKey { owner := c.owner, key, value, type } now
  have hcallbacks := c.space.callbacksFor_addPair { owner := c.owner, key, value, type } now
  have hrest : pending (.unlock :: notifyLocal added.2.pair (added.1.callbacksFor added.2)) =
      (snapshotOf c.space.watchers (.pairUpdate added.2.pair)).toList := by
    change pending (notifyLocal _ _) = _
    rw [pending_notifyLocal, hcallbacks, snapshotOf, hpair]
    split <;> rfl
  simp only [setPair, hready, if_true, fanOutThen]
  cases hsmall : (Message.pairUpdate added.2.pair).fits with
  | true =>
    rw [fanOutUnlessEmpty_fits hsmall]
    change pending (_ ++ _) = _
    rw [pending_append, pending_sends, List.nil_append]
    exact hrest
  | false =>
    rcases fanOutUnlessEmpty_too_large (F := F) hsmall added.2.subscribers with
      ⟨error, herror⟩ | hempty
    · rw [herror]
      have hsome : c.space.subscribersOf ⟨c.owner, key⟩ ≠ .empty := by
        intro hnone
        have hsubscribers := c.space.addPair_subscribers { owner := c.owner, key, value, type } now
        rw [hsubscribers.trans hnone] at herror
        contradiction
      have hwatchers : c.space.watchers ⟨c.owner, key⟩ = [] := by
        by_contra hwatched
        have hfitting : (Message.pairUpdate added.2.pair).fits := addPair_fits
          ((pairUpdate_fits_iff { owner := c.owner, key, value, type }).mpr (hfits hwatched hsome))
        rw [hsmall] at hfitting
        contradiction
      have hkey : added.2.pair.pairKey = ⟨c.owner, key⟩ := hpair
      rw [snapshotOf, hkey, hwatchers]
      rfl
    · rw [hempty]
      exact hrest

end Component

namespace Node
variable {F : Type}

def SettersOnly (_ : Node F) : NodeAction F → Prop
  | .enter _ (.setPair ..) _ => True
  | .advance _ => True
  | _ => False

/-- Moreover a publish with callbacks to tell is applied only when no other is between the lock
and its post, and is not stopped by a frame too large. -/
def OutOfGap (node : Node F) : NodeAction F → Prop
  | .enter _ (.setPair key value _) _ => node.component.Unstopped key value ∧
      (node.component.space.watchers ⟨node.component.owner, key⟩ ≠ [] →
        ∀ thread, pending (node.todo thread) = [])
  | .advance _ => True
  | _ => False

def snapshots (watchers : PairKey → List F) (node : Node F) : List (Pair × List F) :=
  node.changes.filterMap (snapshotOf watchers)

def invocations (posted : List (Pair × List F)) : List (F × Pair) :=
  posted.flatMap fun work => work.2.map (·, work.1)

/-- The strand is given the snapshots in the order in which they were applied; once none is left
to post, it has been given them all, and the last invocation of each callback of a key carries the
pair the component holds. -/
def HeardInOrder (watchers : PairKey → List F) (node : Node F) : Prop :=
  node.posted <+: node.snapshots watchers ∧
    ((∀ thread, pending (node.todo thread) = []) → node.posted = node.snapshots watchers ∧
      ∀ key, ∀ callback ∈ watchers key, ∀ front pair back,
        invocations node.posted = front ++ (callback, pair) :: back → pair.pairKey = key →
        (∀ later ∈ back, later.1 = callback → later.2.pairKey ≠ key) →
        node.component.space.copyOf key = some pair)

/-- What has been applied has been posted or is left to one thread, and the last of it about a key
is the pair held. -/
structure Heard (watchers : PairKey → List F) (node : Node F) : Prop where
  watched : node.component.space.watchers = watchers
  holder : ∃ thread, (∀ other, other ≠ thread → pending (node.todo other) = []) ∧
    node.snapshots watchers = node.posted ++ pending (node.todo thread)
  current : ∀ key last, ((node.snapshots watchers).filter fun work =>
    work.1.pairKey = key).getLast? = some last → node.component.space.copyOf key = some last.1

end Node

namespace Node
variable {F : Type} {watchers : PairKey → List F} {node : Node F}

theorem pending_of_idle {thread : ThreadId} (h : node.todo thread = []) :
    pending (node.todo thread) = [] := by
  rw [h]
  rfl

theorem mem_snapshots {work : Pair × List F} (h : work ∈ node.snapshots watchers) :
    work.2 = watchers work.1.pairKey ∧ watchers work.1.pairKey ≠ [] := by
  obtain ⟨message, _, hmessage⟩ := List.mem_filterMap.mp h
  cases message with
  | pairUpdate pair =>
    simp only [snapshotOf] at hmessage
    split at hmessage
    · contradiction
    · rename_i hwatched
      cases Option.some.inj hmessage
      exact ⟨rfl, fun hnone => hwatched (List.isEmpty_iff.mpr hnone)⟩
  | _ => contradiction

theorem Heard.quiet (c : Component F) : Heard c.space.watchers (Node.quiet c) where
  watched := rfl
  holder := ⟨0, fun _ _ => rfl, rfl⟩
  current := by
    intro key last hlast
    contradiction

theorem Heard.advance (h : Heard watchers node) {thread : ThreadId} {first : Action F}
    {rest : List (Action F)} (htodo : node.todo thread = first :: rest) :
    Heard watchers (node.advance thread first rest) := by
  have hresume : pending (node.resume first rest) = pending rest := by
    cases first with
    | sendAll key registering =>
      rw [resume, Component.pending_append, Component.pending_sendsToAll, List.nil_append]
    | _ => rfl
  have hpending : ∀ other, pending ((node.advance thread first rest).todo other) =
      if other = thread then pending rest else pending (node.todo other) := by
    intro other
    simp only [Node.advance, Function.update_apply]
    split
    · exact hresume
    · rfl
  have hfirst : pending (node.todo thread) = (Action.posts first).toList ++ pending rest := by
    rw [htodo]
    cases hposts : Action.posts first <;> simp [pending, hposts]
  have hposted : (node.advance thread first rest).posted =
      node.posted ++ (Action.posts first).toList := by
    cases first <;> simp [Node.advance, perform, Action.posts]
  have hsnapshots : (node.advance thread first rest).snapshots watchers =
      node.snapshots watchers := by
    simp [snapshots, Node.advance]
  constructor
  · simp only [Node.advance, perform_component]
    exact h.watched
  · obtain ⟨holder, hothers, hsplit⟩ := h.holder
    rw [hsnapshots, hposted]
    by_cases heq : thread = holder
    · subst heq
      refine ⟨thread, ?_, ?_⟩
      · intro other hother
        rw [hpending, if_neg hother]
        exact hothers other hother
      · rw [hpending, if_pos rfl, List.append_assoc, ← hfirst]
        exact hsplit
    · have hnone := hothers thread heq
      rw [hfirst, List.append_eq_nil_iff] at hnone
      refine ⟨holder, ?_, ?_⟩
      · intro other hother
        rw [hpending]
        split
        · exact hnone.2
        · exact hothers other hother
      · rw [hpending, if_neg (Ne.symm heq), hnone.1, List.append_nil]
        exact hsplit
  · rw [hsnapshots]
    simp only [Node.advance, perform_component]
    exact h.current

theorem Heard.publish (h : Heard watchers node) {next : Node F} {thread : ThreadId} {pair : Pair}
    (hidle : pending (node.todo thread) = [])
    (hgap : watchers pair.pairKey ≠ [] → ∀ other, pending (node.todo other) = [])
    (hwatched : next.component.space.watchers = watchers)
    (hcopy : ∀ key, next.component.space.copyOf key =
      if pair.pairKey = key then some pair else node.component.space.copyOf key)
    (hchanges : next.changes = node.changes ++ [.pairUpdate pair])
    (hposted : next.posted = node.posted)
    (hothers : ∀ other, other ≠ thread → next.todo other = node.todo other)
    (hpending : pending (next.todo thread) =
      (snapshotOf watchers (.pairUpdate pair)).toList) : Heard watchers next := by
  have hsnapshots : next.snapshots watchers =
      node.snapshots watchers ++ (snapshotOf watchers (.pairUpdate pair)).toList := by
    rw [snapshots, hchanges, List.filterMap_append]
    rfl
  obtain ⟨holder, hholder, hsplit⟩ := h.holder
  refine ⟨hwatched, ?_, ?_⟩
  · rw [hsnapshots, hposted]
    by_cases hnone : watchers pair.pairKey = []
    · have hsnapshot : snapshotOf watchers (.pairUpdate pair) = none := by
        simp [snapshotOf, hnone]
      rw [hsnapshot] at hpending ⊢
      have hsame : ∀ other, pending (next.todo other) = pending (node.todo other) := by
        intro other
        by_cases hother : other = thread
        · rw [hother, hpending, hidle]
          rfl
        · rw [hothers other hother]
      refine ⟨holder, ?_, ?_⟩
      · intro other hother
        rw [hsame]
        exact hholder other hother
      · rw [hsame, Option.toList_none, List.append_nil]
        exact hsplit
    · have hempty := hgap hnone
      refine ⟨thread, ?_, ?_⟩
      · intro other hother
        rw [hothers other hother]
        exact hempty other
      · rw [hpending, hsplit, hempty holder, List.append_nil]
  · intro key last hlast
    rw [hsnapshots, List.filter_append] at hlast
    rw [hcopy]
    by_cases hsame : pair.pairKey = key
    · rw [if_pos hsame]
      by_cases hnone : watchers pair.pairKey = []
      · have hsnapshot : snapshotOf watchers (.pairUpdate pair) = none := by
          simp [snapshotOf, hnone]
        rw [hsnapshot, Option.toList_none, List.filter_nil, List.append_nil] at hlast
        have hmem := List.mem_filter.mp (List.mem_of_getLast? hlast)
        rw [decide_eq_true_iff] at hmem
        have hsome := (mem_snapshots hmem.1).2
        rw [hmem.2, ← hsame] at hsome
        contradiction
      · have hsnapshot : snapshotOf watchers (.pairUpdate pair) =
            some (pair, watchers pair.pairKey) := by
          simp [snapshotOf, hnone]
        rw [hsnapshot, Option.toList_some, List.filter_cons_of_pos (by simpa using hsame),
          List.filter_nil, List.getLast?_concat] at hlast
        cases Option.some.inj hlast
        rfl
    · rw [if_neg hsame]
      have helsewhere : (snapshotOf watchers (.pairUpdate pair)).toList.filter
          (fun work => work.1.pairKey = key) = [] := by
        simp only [snapshotOf]
        split
        · rfl
        · simp [hsame]
      rw [helsewhere, List.append_nil] at hlast
      exact h.current key last hlast

theorem Heard.enter (h : Heard watchers node) {thread : ThreadId} {key value : Bytes}
    {type : PairType} {now : TimePoint} (hidle : node.todo thread = [])
    (hguard : node.OutOfGap (.enter thread (.setPair key value type) now)) :
    Heard watchers (node.enter thread (.setPair key value type) now) := by
  cases hready : node.component.ready with
  | false =>
    have hentered : node.component.enter (.setPair key value type) now = node.component.idle := by
      simp [Component.enter, Component.setPair, hready]
    have hsame : (node.enter thread (.setPair key value type) now).todo = node.todo := by
      simp only [Node.enter, hentered, Component.idle]
      rw [← hidle, Function.update_eq_self]
    have hsnapshots : (node.enter thread (.setPair key value type) now).snapshots watchers =
        node.snapshots watchers := by
      simp [snapshots, Node.enter, hentered, Component.idle]
    constructor
    · simp only [Node.enter, hentered]
      exact h.watched
    · rw [hsame, hsnapshots]
      exact h.holder
    · rw [hsnapshots]
      simp only [Node.enter, hentered]
      exact h.current
  | true =>
    let pair : Pair := { owner := node.component.owner, key, value, type }
    have hkey := node.component.space.addPair_pairKey pair now
    have hspace : (node.enter thread (.setPair key value type) now).component.space =
        (node.component.space.addPair pair now).1 := by
      simp only [Node.enter, Component.enter, Component.setPair, hready, if_true, pair]
    have hchanges : (node.enter thread (.setPair key value type) now).changes =
        node.changes ++ [.pairUpdate (node.component.space.addPair pair now).2.pair] := by
      simp only [Node.enter, Component.enter, Component.setPair, hready, if_true, pair,
        Option.toList_some]
    have hposts := node.component.pending_setPair hready type now hguard.1
    rw [h.watched] at hposts
    refine h.publish (pending_of_idle hidle) ?_ ?_ ?_ hchanges rfl
      (fun other hother => Function.update_of_ne hother _ _) ?_
    · rw [hkey, ← h.watched]
      exact hguard.2
    · rw [hspace, ← h.watched]
      funext other
      exact node.component.space.watchers_addPair pair now other
    · intro other
      rw [hspace, hkey]
      exact node.component.space.copyOf_addPair pair now other
    · simp only [Node.enter, Function.update_self]
      exact hposts

theorem Heard.preserved {action : NodeAction F} {next : Node F} (h : Heard watchers node)
    (hguard : node.OutOfGap action) (hstep : node.step action = some next) :
    Heard watchers next := by
  rcases step_cases hstep with ⟨thread, call, now, rfl, hidle, _, rfl⟩ |
    ⟨thread, first, rest, rfl, htodo, rfl⟩ | ⟨thread, rfl, rfl⟩
  · cases call with
    | setPair key value type => exact h.enter hidle hguard
    | _ => contradiction
  · exact h.advance htodo
  · contradiction

theorem invoked_split {earlier front back : List (F × Pair)} {last : List (F × Pair)}
    {invocation : F × Pair} (h : earlier ++ last = front ++ invocation :: back) :
    invocation ∈ last ∨ ∃ middle, earlier = front ++ invocation :: middle ∧ back = middle ++ last := by
  rcases List.append_eq_append_iff.mp h with ⟨middle, _, hlast⟩ | ⟨middle, hearlier, hcons⟩
  · left
    rw [hlast]
    exact List.mem_append_right _ List.mem_cons_self
  · cases middle with
    | nil =>
      left
      rw [List.nil_append] at hcons
      rw [← hcons]
      exact List.mem_cons_self
    | cons first middle =>
      right
      obtain ⟨rfl, hback⟩ := List.cons.inj hcons
      exact ⟨middle, hearlier, hback⟩

/-- The last invocation of a callback about a key carries the pair that was last posted for the
key, where everything posted for the key is for that callback too. -/
theorem last_invocation {posted : List (Pair × List F)} {key : PairKey} {callback : F}
    (hwatching : ∀ work ∈ posted, work.1.pairKey = key → callback ∈ work.2)
    {front back : List (F × Pair)} {pair : Pair} (hpair : pair.pairKey = key)
    (hsplit : invocations posted = front ++ (callback, pair) :: back)
    (hlast : ∀ later ∈ back, later.1 = callback → later.2.pairKey ≠ key) :
    ∃ callbacks, (posted.filter fun work => work.1.pairKey = key).getLast? =
      some (pair, callbacks) := by
  induction posted using List.reverseRecOn generalizing back with
  | nil => simp [invocations] at hsplit
  | append_singleton earlier work ih =>
    have hinvoked : invocations (earlier ++ [work]) =
        invocations earlier ++ work.2.map (·, work.1) := by
      simp [invocations]
    have hcarried : (callback, pair) ∈ work.2.map (·, work.1) → work.1 = pair := by
      intro hmem
      obtain ⟨_, _, hwork⟩ := List.mem_map.mp hmem
      exact congrArg Prod.snd hwork
    rw [hinvoked] at hsplit
    by_cases hkey : work.1.pairKey = key
    · have hsame : work.1 = pair := by
        rcases invoked_split hsplit with hmem | ⟨middle, _, hback⟩
        · exact hcarried hmem
        · have hmember : (callback, work.1) ∈ work.2.map (·, work.1) :=
            List.mem_map_of_mem (hwatching work (by simp) hkey)
          have hlater := hlast (callback, work.1) (by
            rw [hback]
            exact List.mem_append_right _ hmember) rfl
          exact absurd hkey hlater
      refine ⟨work.2, ?_⟩
      rw [List.filter_append, List.filter_cons_of_pos (by simpa using hkey), List.filter_nil,
        List.getLast?_concat, ← hsame]
    · rw [List.filter_append, List.filter_cons_of_neg (by simpa using hkey), List.filter_nil,
        List.append_nil]
      rcases invoked_split hsplit with hmem | ⟨middle, hearlier, hback⟩
      · rw [← hcarried hmem] at hpair
        exact absurd hpair hkey
      · refine ih (fun work hwork => hwatching work (List.mem_append_left _ hwork)) hearlier ?_
        intro later hlater
        apply hlast later
        rw [hback]
        exact List.mem_append_left _ hlater

/-- As long as no publish is applied while another is between the lock and its post, the callbacks
hear of the publishes in the order in which they were applied. -/
theorem heard_in_order {c : Component F}
    (hreach : Reach Node.step OutOfGap (Node.quiet c) node) :
    node.HeardInOrder c.space.watchers := by
  have hheard : Heard c.space.watchers node :=
    hreach.invariant (.quiet c) fun _ _ _ h hguard hstep => h.preserved hguard hstep
  obtain ⟨holder, _, hsplit⟩ := hheard.holder
  refine ⟨⟨_, hsplit.symm⟩, ?_⟩
  intro hnone
  have hposted : node.posted = node.snapshots c.space.watchers := by
    rw [hsplit, hnone holder, List.append_nil]
  refine ⟨hposted, ?_⟩
  intro key callback hcallback front pair back hinvoked hpair hlast
  have hwatching : ∀ work ∈ node.posted, work.1.pairKey = key → callback ∈ work.2 := by
    intro work hwork hkey
    rw [hposted] at hwork
    rw [(mem_snapshots hwork).1, hkey]
    exact hcallback
  obtain ⟨callbacks, hfound⟩ := last_invocation hwatching hpair hinvoked hlast
  rw [hposted] at hfound
  exact hheard.current key _ hfound

/-! Component 1000 with one callback on its own key `"k"`. -/

def listening : Component Unit :=
  ((Component.initial 1000).enter (.registerCallback 1000 [107] ()) 1).component

theorem heard_in_order_twice : ∃ node : Node Unit,
    Reach Node.step OutOfGap (Node.quiet listening) node ∧
      node.posted.map (·.1.value) = [[1], [2]] ∧ node.HeardInOrder listening.space.watchers := by
  have hsmall : ∀ (node : Node Unit) (value : Bytes), value.length = 1 →
      node.component.Unstopped [107] value := by
    intro node value hvalue _ _
    rw [hvalue]
    decide
  have hrun : ∃ node : Node Unit, Reach Node.step OutOfGap (Node.quiet listening) node ∧
      node.posted.map (·.1.value) = [[1], [2]] := by
    refine ⟨_, .tail (a := .advance 0) (.tail (a := .advance 0)
      (.tail (a := .enter 0 (.setPair [107] [2] .string) 6)
        (.tail (a := .advance 0) (.tail (a := .advance 0)
          (.tail (a := .enter 0 (.setPair [107] [1] .string) 5) .refl
            ⟨hsmall _ _ rfl, fun _ _ => rfl⟩ rfl) trivial rfl) trivial rfl)
        ⟨hsmall _ _ rfl, ?_⟩ rfl) trivial rfl) trivial rfl, rfl⟩
    intro _ thread
    match thread with
    | 0 => rfl
    | thread + 1 => rfl
  obtain ⟨node, hreach, hposted⟩ := hrun
  exact ⟨node, hreach, hposted, heard_in_order hreach⟩

/-- Both publishes are applied before either posts, and the later one posts first. -/
def postedLate : List (NodeAction Unit) :=
  [.enter 0 (.setPair [107] [1] .string) 5, .advance 0,
    .enter 1 (.setPair [107] [2] .string) 6, .advance 1, .advance 1, .advance 0]

theorem earlier_publish_heard_last : ∃ node : Node Unit,
    Reach Node.step SettersOnly (Node.quiet listening) node ∧
      (∀ thread, node.todo thread = []) ∧
      node.component.space.copyOf ⟨1000, [107]⟩ =
        some { owner := 1000, key := [107], value := [2], writeTime := 6 } ∧
      (invocations node.posted).getLast? =
        some ((), { owner := 1000, key := [107], value := [1], writeTime := 5 }) ∧
      ¬ node.HeardInOrder listening.space.watchers := by
  refine ⟨_, Reach.of_run postedLate ?_ rfl, ?_, by decide, by decide, ?_⟩
  · intro action haction node
    fin_cases haction <;> trivial
  · intro thread
    match thread with
    | 0 => rfl
    | 1 => rfl
    | thread + 2 => rfl
  · intro hheard
    have hprefix := hheard.1
    revert hprefix
    decide

end Node

end Srnp
