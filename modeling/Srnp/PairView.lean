import Srnp.MetaOwnership
import Srnp.VisibleStore

/-! The window of the gui. It keeps no copy of the pair space: each frame is
drawn from a snapshot, and its tree has a row for every pair that is held and
passes the filters. What it does keep is which subscriptions are its own, and
the boxes that are ticked are what the client is subscribed to. -/
namespace Srnp.Gui
open Std Transition

/-! ### The filter -/

/-- `std::tolower`, in the locale a program starts in. -/
def lower (byte : UInt8) : UInt8 := if 65 ≤ byte ∧ byte ≤ 90 then byte + 32 else byte

/-- Whether a text begins with the filter, but for the case of letters. -/
def startsWith : Bytes → Bytes → Bool
  | _, [] => true
  | [], _ :: _ => false
  | byte :: text, wanted :: filter => lower byte = lower wanted && startsWith text filter

/-- Whether `std::ranges::search` begins before the end of the text. -/
def search (filter : Bytes) : Bytes → Bool
  | [] => false
  | byte :: rest => startsWith (byte :: rest) filter || search filter rest

def matchesFilter (text filter : Bytes) : Bool :=
  if filter.isEmpty then true
  else if text.length < filter.length then false
  else search filter text

theorem startsWith_iff (text filter : Bytes) :
    startsWith text filter ↔ filter.map lower <+: text.map lower := by
  induction filter generalizing text with
  | nil => simp [startsWith]
  | cons wanted filter ih =>
    cases text with
    | nil => simp [startsWith]
    | cons byte text =>
      rw [startsWith, Bool.and_eq_true_iff, decide_eq_true_iff, ih, List.map_cons, List.map_cons,
        List.cons_prefix_cons, eq_comm]

theorem search_iff {filter : Bytes} (hsome : filter ≠ []) (text : Bytes) :
    search filter text ↔ filter.map lower <:+: text.map lower := by
  induction text with
  | nil => simp [search, hsome]
  | cons byte rest ih =>
    rw [search, Bool.or_eq_true, startsWith_iff, ih, List.map_cons, List.infix_cons_iff]

theorem matchesFilter_iff (text filter : Bytes) :
    matchesFilter text filter ↔ filter.map lower <:+: text.map lower := by
  unfold matchesFilter
  by_cases hnone : filter = []
  · simp [hnone]
  · rw [if_neg (by simpa using hnone)]
    split
    · rename_i hlong
      refine iff_of_false Bool.false_ne_true ?_
      intro hinfix
      have hlength := hinfix.length_le
      rw [List.length_map, List.length_map] at hlength
      omega
    · exact search_iff hnone text

/-! ### The tree -/

structure Row where
  pair : Pair
  ours : Bool
deriving DecidableEq

def addRow (us ownerFilter : OwnerId) (keyFilter : Bytes)
    (byOwner : ExtTreeMap OwnerId (List Row)) (pair : Pair) : ExtTreeMap OwnerId (List Row) :=
  if ownerFilter ≠ kAnyOwner ∧ pair.owner ≠ ownerFilter then byOwner
  else if matchesFilter pair.key keyFilter then
    byOwner.insert pair.owner (byOwner[pair.owner]?.getD [] ++ [⟨pair, pair.owner = us⟩])
  else byOwner

def rowsByOwner (us ownerFilter : OwnerId) (keyFilter : Bytes) (pairs : List Pair) :
    ExtTreeMap OwnerId (List Row) :=
  pairs.foldl (addRow us ownerFilter keyFilter) ∅

def passes (ownerFilter : OwnerId) (keyFilter : Bytes) (pair : Pair) : Bool :=
  (ownerFilter = kAnyOwner ∨ pair.owner = ownerFilter) && matchesFilter pair.key keyFilter

def rowsOf (us ownerFilter : OwnerId) (keyFilter : Bytes) (pairs : List Pair)
    (owner : OwnerId) : List Row :=
  (pairs.filter fun pair => passes ownerFilter keyFilter pair && pair.owner = owner).map
    fun pair => ⟨pair, pair.owner = us⟩

theorem addRow_eq (us ownerFilter : OwnerId) (keyFilter : Bytes)
    (byOwner : ExtTreeMap OwnerId (List Row)) (pair : Pair) :
    addRow us ownerFilter keyFilter byOwner pair =
      if passes ownerFilter keyFilter pair then
        byOwner.insert pair.owner (byOwner[pair.owner]?.getD [] ++ [⟨pair, pair.owner = us⟩])
      else byOwner := by
  unfold addRow passes
  by_cases howner : ownerFilter = kAnyOwner ∨ pair.owner = ownerFilter
  · rw [if_neg (by tauto)]
    simp [howner]
  · rw [if_pos (by tauto)]
    simp [howner]

/-- An owner is in the tree if it has a row, with its rows in the order of the pairs. -/
theorem rowsByOwner_eq (us ownerFilter : OwnerId) (keyFilter : Bytes) (pairs : List Pair)
    (owner : OwnerId) :
    (rowsByOwner us ownerFilter keyFilter pairs)[owner]? =
      if rowsOf us ownerFilter keyFilter pairs owner = [] then none
      else some (rowsOf us ownerFilter keyFilter pairs owner) := by
  induction pairs using List.reverseRecOn with
  | nil => simp [rowsByOwner, rowsOf]
  | append_singleton front last ih =>
    have hrows : rowsByOwner us ownerFilter keyFilter (front ++ [last]) =
        addRow us ownerFilter keyFilter (rowsByOwner us ownerFilter keyFilter front) last := by
      rw [rowsByOwner, List.foldl_append]
      rfl
    have hlast : rowsOf us ownerFilter keyFilter (front ++ [last]) owner =
        rowsOf us ownerFilter keyFilter front owner ++
          if passes ownerFilter keyFilter last ∧ last.owner = owner then
            [⟨last, last.owner = us⟩] else [] := by
      unfold rowsOf
      rw [List.filter_append, List.map_append]
      by_cases hpasses : passes ownerFilter keyFilter last ∧ last.owner = owner
      · rw [if_pos hpasses]
        simp [hpasses.1, hpasses.2]
      · rw [if_neg hpasses]
        have hnot : (passes ownerFilter keyFilter last && decide (last.owner = owner)) = false := by
          simpa using hpasses
        simp [hnot]
    rw [hrows, addRow_eq]
    by_cases hadds : passes ownerFilter keyFilter last ∧ last.owner = owner
    · obtain ⟨hpasses, rfl⟩ := hadds
      rw [if_pos ⟨hpasses, rfl⟩] at hlast
      rw [hlast, if_pos hpasses, ExtTreeMap.getElem?_insert_self, ih,
        if_neg (List.append_ne_nil_of_right_ne_nil _ (List.cons_ne_nil _ _))]
      split
      · rename_i hnone
        rw [hnone]
        rfl
      · rfl
    · rw [if_neg hadds, List.append_nil] at hlast
      rw [hlast, ← ih]
      split
      · rename_i hpasses
        rw [ExtTreeMap.getElem?_insert, if_neg]
        intro hsame
        exact hadds ⟨hpasses, LawfulEqOrd.eq_of_compare hsame⟩
      · rfl

theorem compare_of_owner {left right : PairKey} (howner : left.owner = right.owner) :
    compare left right = compare left.key right.key := by
  change (compare left.owner right.owner).then (compare left.key right.key) = _
  rw [howner, ReflOrd.compare_self]
  rfl

theorem mem_rowsOf {us ownerFilter owner : OwnerId} {keyFilter : Bytes} {pairs : List Pair}
    {row : Row} : row ∈ rowsOf us ownerFilter keyFilter pairs owner ↔
      row.pair ∈ pairs ∧ passes ownerFilter keyFilter row.pair ∧ row.pair.owner = owner ∧
        row.ours = decide (owner = us) := by
  unfold rowsOf
  rw [List.mem_map]
  constructor
  · rintro ⟨pair, hpair, rfl⟩
    obtain ⟨hmem, hboth⟩ := List.mem_filter.mp hpair
    obtain ⟨hpasses, howner⟩ := Bool.and_eq_true_iff.mp hboth
    cases of_decide_eq_true howner
    exact ⟨hmem, hpasses, rfl, rfl⟩
  · rintro ⟨hmem, hpasses, rfl, hours⟩
    refine ⟨row.pair, List.mem_filter.mpr ⟨hmem, ?_⟩, ?_⟩
    · simp [hpasses]
    · rw [← hours]

theorem rowsByOwner_found {us ownerFilter owner : OwnerId} {keyFilter : Bytes} {pairs : List Pair}
    {rows : List Row} (h : (rowsByOwner us ownerFilter keyFilter pairs)[owner]? = some rows) :
    rows ≠ [] ∧ rows = rowsOf us ownerFilter keyFilter pairs owner := by
  rw [rowsByOwner_eq] at h
  split at h
  · contradiction
  · rename_i hsome
    cases Option.some.inj h
    exact ⟨hsome, rfl⟩

section
variable {F : Type} (c : Component F) (ownerFilter : OwnerId) (keyFilter : Bytes)

theorem mem_tree (owner : OwnerId) (row : Row) :
    (∃ rows, (rowsByOwner c.owner ownerFilter keyFilter c.space.snapshotPairs)[owner]? =
        some rows ∧ row ∈ rows) ↔
      c.getPair row.pair.pairKey = some row.pair ∧ row.pair.owner = owner ∧
        row.ours = decide (owner = c.owner) ∧ (ownerFilter = kAnyOwner ∨ owner = ownerFilter) ∧
        keyFilter.map lower <:+: row.pair.key.map lower := by
  have hexact : (∃ rows, (rowsByOwner c.owner ownerFilter keyFilter
      c.space.snapshotPairs)[owner]? = some rows ∧ row ∈ rows) ↔
      row ∈ rowsOf c.owner ownerFilter keyFilter c.space.snapshotPairs owner := by
    constructor
    · rintro ⟨rows, hrows, hmem⟩
      rw [← (rowsByOwner_found hrows).2]
      exact hmem
    · intro hmem
      refine ⟨_, ?_, hmem⟩
      rw [rowsByOwner_eq, if_neg (List.ne_nil_of_mem hmem)]
  rw [hexact, mem_rowsOf, PairSpace.mem_snapshotPairs, passes, Bool.and_eq_true_iff,
    matchesFilter_iff, decide_eq_true_iff]
  constructor
  · rintro ⟨hheld, ⟨hfilter, hkey⟩, rfl, hours⟩
    exact ⟨hheld, rfl, hours, hfilter, hkey⟩
  · rintro ⟨hheld, rfl, hours, hfilter, hkey⟩
    exact ⟨hheld, ⟨hfilter, hkey⟩, rfl, hours⟩

theorem rowsOf_ordered (owner : OwnerId) :
    (rowsOf c.owner ownerFilter keyFilter c.space.snapshotPairs owner).Pairwise
      fun left right => compare left.pair.key right.pair.key = .lt := by
  unfold rowsOf
  rw [List.pairwise_map]
  refine (c.space.snapshotPairs_ordered.filter _).imp_of_mem ?_
  intro left right hleft hright hlt
  have howner : left.owner = right.owner := by
    have hfirst := (List.mem_filter.mp hleft).2
    have hsecond := (List.mem_filter.mp hright).2
    simp only [Bool.and_eq_true, decide_eq_true_eq] at hfirst hsecond
    exact hfirst.2.trans hsecond.2.symm
  exact (compare_of_owner howner).symm.trans hlt

end

/-- The tree has a row for every pair that is held and passes the filters, under
its owner and in the order of the keys, and none besides; an owner without a row
is not in it. -/
theorem tree_shows {F : Type} (c : Component F) (ownerFilter : OwnerId) (keyFilter : Bytes) :
    let tree := rowsByOwner c.owner ownerFilter keyFilter c.space.snapshotPairs
    (∀ owner row, (∃ rows, tree[owner]? = some rows ∧ row ∈ rows) ↔
      c.getPair row.pair.pairKey = some row.pair ∧ row.pair.owner = owner ∧
        row.ours = decide (owner = c.owner) ∧
        (ownerFilter = kAnyOwner ∨ owner = ownerFilter) ∧
        keyFilter.map lower <:+: row.pair.key.map lower) ∧
    ∀ (owner : OwnerId) rows, tree[owner]? = some rows → rows ≠ [] ∧
      rows.Pairwise fun left right => compare left.pair.key right.pair.key = .lt := by
  refine ⟨mem_tree c ownerFilter keyFilter, ?_⟩
  intro owner rows hrows
  obtain ⟨hsome, rfl⟩ := rowsByOwner_found hrows
  exact ⟨hsome, rowsOf_ordered c ownerFilter keyFilter owner⟩

/-! ### The subscriptions -/

/-- How far the worker of the link is. It initializes a node and subscribes to
everything before it says that it is connected. -/
inductive LinkPhase where
  | starting
  | initialized
  | connected
deriving DecidableEq

/-- What the window keeps, the node it is a window on, and what the link knows
of the standing subscription to everything. -/
structure PairView (U : Type) where
  client : Component (Watcher U) := .constructed
  phase : LinkPhase := .starting
  subscribedToAll : Bool := false
  wildcard : SubscriptionHandle := kInvalidSubscriptionHandle
  selection : Option PairKey := none
  subscriptions : ExtTreeMap PairKey SubscriptionHandle := ∅

/-- What the worker of the link and the user do, and what goes on besides. -/
inductive PairViewAction (U : Type) where
  | initializeNode (welcome : MasterMessage)
  | connect
  | select (key : PairKey)
  | setSubscribedToAll (on : Bool)
  | unsubscribe (key : PairKey)
  | subscribe
  | delete (now : TimePoint)
  | call (call : Call (Watcher U)) (now : TimePoint)

def everything : PairKey := ⟨kAnyOwner, kWildcardKey⟩

namespace PairView
variable {U : Type}

/-- Nobody catches what the client throws, so there is no step after it. -/
def subscribeToAll (view : PairView U) : Option (PairView U) :=
  if view.client.registerThrows everything then none
  else some { view with
    client := view.client.recorded everything
    wildcard := view.client.subscriptionHandle everything
    subscribedToAll := true }

def cancelSubscription (view : PairView U) (handle : SubscriptionHandle) : Option (PairView U) :=
  if view.client.cancelThrows handle then none
  else some { view with client := (view.client.cancelSubscriptionHandle handle).component }

def setSubscribedToAll (view : PairView U) (on : Bool) : Option (PairView U) :=
  if on = view.subscribedToAll then some view
  else if on then view.subscribeToAll
  else (view.cancelSubscription view.wildcard).map fun view =>
    { view with wildcard := kInvalidSubscriptionHandle, subscribedToAll := false }

/-- The boxes are disabled while there is a subscription to everything. -/
def unsubscribe (view : PairView U) (key : PairKey) : Option (PairView U) :=
  if view.subscribedToAll then none
  else
    match view.subscriptions[key]? with
    | none => none
    | some handle => (view.cancelSubscription handle).map fun view =>
        { view with subscriptions := view.subscriptions.erase key }

def subscribe (view : PairView U) : Option (PairView U) :=
  match view.selection with
  | none => none
  | some key =>
      if view.subscribedToAll ∨ key ∈ view.subscriptions then none
      else if view.client.registerThrows key then none
      else
        let handle := view.client.subscriptionHandle key
        let recorded := { view with client := view.client.recorded key }
        if handle = kInvalidSubscriptionHandle then some recorded
        else some { recorded with
          subscriptions := view.subscriptions.insertIfNew key handle }

def delete (view : PairView U) (now : TimePoint) : Option (PairView U) :=
  match view.selection.bind view.client.getPair with
  | none => none
  | some pair =>
      let call : Call (Watcher U) := if pair.owner = view.client.owner then .removePair pair.key
        else .removeRemotePair pair.owner pair.key
      some { view with client := (view.client.enter call now).component, selection := none }

def step (view : PairView U) : PairViewAction U → Option (PairView U)
  | .initializeNode welcome => if view.phase = .starting then some { view with
        client := (Component.constructed.onWelcome welcome).component
        phase := .initialized }
      else none
  | .connect => if view.phase = .initialized then
        view.subscribeToAll.map fun view => { view with phase := .connected }
      else none
  | .select key => if view.phase = .connected then some { view with selection := some key }
      else none
  | .setSubscribedToAll on => if view.phase = .connected then view.setSubscribedToAll on else none
  | .unsubscribe key => if view.phase = .connected then view.unsubscribe key else none
  | .subscribe => if view.phase = .connected then view.subscribe else none
  | .delete now => if view.phase = .connected then view.delete now else none
  | .call call now => if view.phase = .starting then none
      else some { view with client := (view.client.enter call now).component }

/-- The window is all of the program that subscribes, and the client does not run
out of handles. -/
def Alone (view : PairView U) : PairViewAction U → Prop
  | .call call _ => (∀ owner key, call ≠ .registerSubscription owner key) ∧
      (∀ owner key, call ≠ .cancelSubscription owner key) ∧
      ∀ handle, call ≠ .cancelSubscriptionHandle handle
  | _ => view.client.nextSubscriptionHandle + 1 ≠ kInvalidSubscriptionHandle ∧
      view.client.subscriptions[view.client.nextSubscriptionHandle + 1]? = none

def Holds (view : PairView U) (handle : SubscriptionHandle) (key : PairKey) : Prop :=
  (view.wildcard ≠ kInvalidSubscriptionHandle ∧ handle = view.wildcard ∧ key = everything) ∨
    view.subscriptions[key]? = some handle

structure Mirrors (view : PairView U) : Prop where
  zero : view.client.subscriptions[kInvalidSubscriptionHandle]? = none
  records : ∀ (handle : SubscriptionHandle) (key : PairKey),
    view.client.subscriptions[handle]? = some key.record ↔ view.Holds handle key
  covered : view.subscribedToAll →
    view.wildcard ≠ kInvalidSubscriptionHandle ∨ everything ∈ view.subscriptions
  apart : view.wildcard ≠ kInvalidSubscriptionHandle →
    view.subscribedToAll ∧ everything ∉ view.subscriptions
  early : view.phase ≠ .connected →
    view.subscribedToAll = false ∧ ∀ key : PairKey, view.subscriptions[key]? = none

theorem record_injective {first second : PairKey} (h : first.record = second.record) :
    first = second := by
  obtain ⟨owner, key⟩ := first
  obtain ⟨owner', key'⟩ := second
  cases h
  rfl

variable {view after : PairView U} {handle : SubscriptionHandle} {key : PairKey}

/-! ### What the functions do -/

theorem everything_fits (c : Component (Watcher U)) (registering : Bool) :
    c.sendThrows everything.record registering = false := by
  unfold Component.sendThrows
  rw [List.any_eq_false]
  intro owner _
  have hfits : (Message.subscription ⟨kWildcardKey, owner, c.owner, registering⟩).fits := by
    rw [subscription_fits_iff]
    change kWildcardKey.length + 13 ≤ Wire.kMaxPayload
    decide
  change ¬(!(Message.subscription ⟨kWildcardKey, owner, c.owner, registering⟩).fits) = true
  rw [hfits]
  exact Bool.false_ne_true

theorem subscribeToAll_eq (view : PairView U) : view.subscribeToAll = some { view with
    client := view.client.recorded everything
    wildcard := view.client.subscriptionHandle everything
    subscribedToAll := true } := by
  have hthrows : view.client.registerThrows everything = false := by
    rw [Component.registerThrows, everything_fits, Bool.and_false]
  unfold subscribeToAll
  rw [hthrows]
  rfl

theorem cancelSubscription_spec (hstep : view.cancelSubscription handle = some after) :
    after = { view with client := (view.client.cancelSubscriptionHandle handle).component } ∧
      ∀ other, after.client.subscriptions[other]? =
        if other = handle then none else view.client.subscriptions[other]? := by
  unfold PairView.cancelSubscription at hstep
  split at hstep
  · contradiction
  cases Option.some.inj hstep
  refine ⟨rfl, fun other => ?_⟩
  have htable := congrFun (view.client.subscriptions_cancelSubscriptionHandle handle) other
  rw [Function.update_apply] at htable
  exact htable

theorem holds_iff (hnone : view.wildcard = kInvalidSubscriptionHandle) :
    view.Holds handle key ↔ view.subscriptions[key]? = some handle :=
  or_iff_right fun hand => hand.1 hnone

namespace Mirrors

theorem wildcard_off (h : view.Mirrors) (hoff : view.subscribedToAll = false) :
    view.wildcard = kInvalidSubscriptionHandle := by
  by_contra hwildcard
  rw [(h.apart hwildcard).1] at hoff
  contradiction

theorem records_off (h : view.Mirrors) (hoff : view.subscribedToAll = false)
    (handle : SubscriptionHandle) (key : PairKey) :
    view.client.subscriptions[handle]? = some key.record ↔
      view.subscriptions[key]? = some handle := by
  rw [h.records, holds_iff (h.wildcard_off hoff)]

theorem subscribed_iff (h : view.Mirrors) (hoff : view.subscribedToAll = false)
    (key : PairKey) : view.client.subscribed key.record ↔ key ∈ view.subscriptions := by
  rw [Component.subscribed_iff, ExtTreeMap.mem_iff_isSome_getElem?, Option.isSome_iff_exists]
  exact exists_congr fun handle => h.records_off hoff handle key

theorem fresh {client : Component (Watcher U)}
    (hnone : ∀ handle : SubscriptionHandle, client.subscriptions[handle]? = none)
    (h : view.Mirrors) (hearly : view.phase ≠ .connected) {phase : LinkPhase} :
    ({ view with client, phase } : PairView U).Mirrors := by
  obtain ⟨hoff, hempty⟩ := h.early hearly
  refine ⟨hnone _, ?_, h.covered, h.apart, fun _ => ⟨hoff, hempty⟩⟩
  intro handle key
  have hholds : view.Holds handle key ↔ view.subscriptions[key]? = some handle :=
    holds_iff (h.wildcard_off hoff)
  rw [hempty] at hholds
  refine iff_of_false ?_ fun hheld => ?_
  · dsimp only
    rw [hnone]
    exact (Option.some_ne_none _).symm
  · exact Option.some_ne_none _ (hholds.mp hheld).symm

theorem keep (h : view.Mirrors) {client : Component (Watcher U)}
    (hsame : client.subscriptions = view.client.subscriptions) {selection : Option PairKey} :
    ({ view with client, selection } : PairView U).Mirrors := by
  refine ⟨?_, ?_, h.covered, h.apart, h.early⟩
  · dsimp only
    rw [hsame]
    exact h.zero
  · intro handle key
    dsimp only
    rw [hsame]
    exact h.records handle key

theorem given (h : view.Mirrors) (hoff : view.subscribedToAll = false)
    (hfresh : view.client.subscriptions[view.client.nextSubscriptionHandle + 1]? = none)
    (hnew : view.client.subscribed key.record = false)
    (handle : SubscriptionHandle) (other : PairKey) :
    (view.client.recorded key).subscriptions[handle]? = some other.record ↔
      (handle = view.client.nextSubscriptionHandle + 1 ∧ other = key) ∨
        view.subscriptions[other]? = some handle := by
  have htable := congrFun (Component.subscriptions_recorded hnew hfresh) handle
  rw [htable, Function.update_apply]
  split
  · rename_i hsame
    subst hsame
    have hbox : view.subscriptions[other]? ≠
        some (view.client.nextSubscriptionHandle + 1) := by
      intro hbox
      have hfound := (h.records_off hoff _ _).mpr hbox
      rw [hfresh] at hfound
      contradiction
    rw [or_iff_left hbox, Option.some_inj]
    constructor
    · intro heq
      exact ⟨rfl, (record_injective heq).symm⟩
    · rintro ⟨_, rfl⟩
      rfl
  · rename_i hother
    rw [h.records_off hoff]
    exact (or_iff_right fun hand => hother hand.1).symm

theorem zero_recorded (h : view.Mirrors)
    (hne : view.client.nextSubscriptionHandle + 1 ≠ kInvalidSubscriptionHandle)
    (hfresh : view.client.subscriptions[view.client.nextSubscriptionHandle + 1]? = none)
    (hnew : view.client.subscribed key.record = false) :
    (view.client.recorded key).subscriptions[kInvalidSubscriptionHandle]? = none := by
  have htable := congrFun (Component.subscriptions_recorded hnew hfresh) kInvalidSubscriptionHandle
  rw [Function.update_of_ne (Ne.symm hne)] at htable
  exact htable.trans h.zero

theorem handle_given (hnew : view.client.subscribed key.record = false) :
    view.client.subscriptionHandle key = view.client.nextSubscriptionHandle + 1 := by
  rw [Component.subscriptionHandle, if_neg (Bool.eq_false_iff.mp hnew),
    Component.recorded_of_new hnew]

theorem subscribeToAll (h : view.Mirrors) (hoff : view.subscribedToAll = false)
    (hne : view.client.nextSubscriptionHandle + 1 ≠ kInvalidSubscriptionHandle)
    (hfresh : view.client.subscriptions[view.client.nextSubscriptionHandle + 1]? = none)
    (hstep : view.subscribeToAll = some after) {phase : LinkPhase}
    (hconnected : phase = .connected) : ({ after with phase } : PairView U).Mirrors := by
  rw [subscribeToAll_eq] at hstep
  cases Option.some.inj hstep
  cases hlive : view.client.subscribed everything.record with
  | true =>
    -- A box is ticked for a pair of this very key, and it stays the one that counts.
    have hbox := (h.subscribed_iff hoff everything).mp hlive
    have hhandle : view.client.subscriptionHandle everything = kInvalidSubscriptionHandle :=
      if_pos hlive
    rw [Component.recorded_of_subscribed hlive, hhandle]
    refine ⟨h.zero, ?_, fun _ => .inr hbox, fun hsome => absurd rfl hsome,
      fun hearly => absurd hconnected hearly⟩
    intro handle key
    exact (h.records_off hoff handle key).trans (Iff.symm (holds_iff rfl))
  | false =>
    have hbox : everything ∉ view.subscriptions := by
      rw [← h.subscribed_iff hoff, hlive]
      exact Bool.false_ne_true
    rw [handle_given hlive]
    refine ⟨h.zero_recorded hne hfresh hlive, ?_, fun _ => .inl hne, fun _ => ⟨rfl, hbox⟩,
      fun hearly => absurd hconnected hearly⟩
    intro handle key
    refine (h.given hoff hfresh hlive handle key).trans ?_
    exact or_congr (and_iff_right hne).symm Iff.rfl

theorem subscribe (h : view.Mirrors) (hconnected : view.phase = .connected)
    (hne : view.client.nextSubscriptionHandle + 1 ≠ kInvalidSubscriptionHandle)
    (hfresh : view.client.subscriptions[view.client.nextSubscriptionHandle + 1]? = none)
    (hstep : view.subscribe = some after) : after.Mirrors := by
  unfold PairView.subscribe at hstep
  split at hstep
  · contradiction
  rename_i key hselection
  split at hstep
  · contradiction
  rename_i hallowed
  obtain ⟨hon, hbox⟩ := not_or.mp hallowed
  have hoff : view.subscribedToAll = false := Bool.eq_false_iff.mpr hon
  split at hstep
  · contradiction
  have hnew : view.client.subscribed key.record = false := by
    rw [Bool.eq_false_iff, Ne, h.subscribed_iff hoff]
    exact hbox
  have hwildcard := h.wildcard_off hoff
  dsimp only at hstep
  rw [handle_given hnew, if_neg hne] at hstep
  cases Option.some.inj hstep
  refine ⟨h.zero_recorded hne hfresh hnew, ?_, fun hsome => absurd hsome hon,
    fun hsome => absurd hwildcard hsome, fun hearly => ?_⟩
  · intro handle other
    refine (h.given hoff hfresh hnew handle other).trans (Iff.trans ?_ (Iff.symm (holds_iff hwildcard)))
    dsimp only
    rw [ExtTreeMap.getElem?_insertIfNew]
    by_cases hsame : key = other
    · subst hsame
      rw [if_pos ⟨ReflOrd.compare_self, hbox⟩, ExtTreeMap.getElem?_eq_none hbox, Option.some_inj]
      simp [eq_comm]
    · rw [if_neg fun hand => hsame (LawfulEqOrd.eq_of_compare hand.1)]
      exact or_iff_right fun hand => hsame hand.2.symm
  · contradiction

theorem unsubscribe (h : view.Mirrors) (hconnected : view.phase = .connected)
    (hstep : view.unsubscribe key = some after) : after.Mirrors := by
  unfold PairView.unsubscribe at hstep
  split at hstep
  · contradiction
  rename_i hon
  have hoff : view.subscribedToAll = false := Bool.eq_false_iff.mpr hon
  split at hstep
  · contradiction
  rename_i handle hbox
  obtain ⟨without, hcancel, rfl⟩ := Option.map_eq_some_iff.mp hstep
  obtain ⟨rfl, htable⟩ := cancelSubscription_spec hcancel
  have hwildcard := h.wildcard_off hoff
  refine ⟨?_, ?_, fun hsome => absurd hsome hon, fun hsome => absurd hwildcard hsome,
    fun hearly => ?_⟩
  · rw [htable, h.zero, ite_self]
  · intro other pair
    refine Iff.trans ?_ (Iff.symm (holds_iff hwildcard))
    rw [htable]
    dsimp only
    rw [ExtTreeMap.getElem?_erase]
    have hkey := (h.records_off hoff handle key).mpr hbox
    by_cases hsame : key = pair
    · subst hsame
      rw [if_pos ReflOrd.compare_self]
      refine iff_of_false ?_ ((Option.some_ne_none _).symm)
      split
      · exact (Option.some_ne_none _).symm
      · rename_i hother
        rw [h.records_off hoff, hbox, Option.some_inj]
        exact fun heq => hother heq.symm
    · rw [if_neg fun heq => hsame (LawfulEqOrd.eq_of_compare heq), ← h.records_off hoff]
      split
      · rename_i heq
        rw [heq, hkey, Option.some_inj]
        exact iff_of_false ((Option.some_ne_none _).symm) fun hrecord => hsame (record_injective hrecord)
      · exact Iff.rfl
  · contradiction

theorem setSubscribedToAll (h : view.Mirrors) (hconnected : view.phase = .connected)
    (hne : view.client.nextSubscriptionHandle + 1 ≠ kInvalidSubscriptionHandle)
    (hfresh : view.client.subscriptions[view.client.nextSubscriptionHandle + 1]? = none)
    {on : Bool} (hstep : view.setSubscribedToAll on = some after) : after.Mirrors := by
  unfold PairView.setSubscribedToAll at hstep
  split at hstep
  · cases Option.some.inj hstep
    exact h
  rename_i hchange
  cases on with
  | true =>
    have hoff : view.subscribedToAll = false := by simpa using hchange
    have hall := h.subscribeToAll hoff hne hfresh hstep hconnected
    rw [if_pos rfl, subscribeToAll_eq] at hstep
    cases Option.some.inj hstep
    exact hall
  | false =>
    have hon : view.subscribedToAll = true := by simpa using hchange
    obtain ⟨without, hcancel, rfl⟩ := Option.map_eq_some_iff.mp hstep
    obtain ⟨rfl, htable⟩ := cancelSubscription_spec hcancel
    refine ⟨?_, ?_, fun hsome => absurd hsome Bool.false_ne_true, fun hsome => absurd rfl hsome,
      fun hearly => ?_⟩
    · rw [htable, h.zero, ite_self]
    · intro other pair
      refine Iff.trans ?_ (Iff.symm (holds_iff rfl))
      rw [htable]
      split
      · rename_i hwild
        subst hwild
        refine iff_of_false ((Option.some_ne_none _).symm) fun hbox => ?_
        have hfound := (h.records view.wildcard pair).mpr (.inr hbox)
        by_cases hnone : view.wildcard = kInvalidSubscriptionHandle
        · rw [hnone, h.zero] at hfound
          contradiction
        · have hall := (h.records view.wildcard everything).mpr (.inl ⟨hnone, rfl, rfl⟩)
          rw [hall, Option.some_inj] at hfound
          cases record_injective hfound
          exact (h.apart hnone).2 (ExtTreeMap.mem_iff_isSome_getElem?.mpr (by rw [hbox]; rfl))
      · rename_i hother
        rw [h.records]
        exact or_iff_right fun hand => hother hand.2.1
    · contradiction

protected theorem step (h : view.Mirrors) {action : PairViewAction U}
    (hguard : view.Alone action) (hstep : view.step action = some after) : after.Mirrors := by
  cases action with
  | initializeNode welcome =>
    obtain ⟨hstarting, hstep⟩ := Option.ite_none_right_eq_some.mp hstep
    cases Option.some.inj hstep
    have hearly : view.phase ≠ .connected := by
      rw [hstarting]
      decide
    refine h.fresh ?_ hearly
    intro handle
    rw [(Process.onWelcome_fresh welcome).2.1]
    exact ExtTreeMap.getElem?_empty
  | connect =>
    obtain ⟨hinitialized, hstep⟩ := Option.ite_none_right_eq_some.mp hstep
    obtain ⟨subscribed, hsubscribe, rfl⟩ := Option.map_eq_some_iff.mp hstep
    have hearly : view.phase ≠ .connected := by
      rw [hinitialized]
      decide
    exact h.subscribeToAll (h.early hearly).1 hguard.1 hguard.2 hsubscribe rfl
  | select key =>
    obtain ⟨_, hstep⟩ := Option.ite_none_right_eq_some.mp hstep
    cases Option.some.inj hstep
    exact h.keep rfl
  | setSubscribedToAll on =>
    obtain ⟨hconnected, hstep⟩ := Option.ite_none_right_eq_some.mp hstep
    exact h.setSubscribedToAll hconnected hguard.1 hguard.2 hstep
  | unsubscribe key =>
    obtain ⟨hconnected, hstep⟩ := Option.ite_none_right_eq_some.mp hstep
    exact h.unsubscribe hconnected hstep
  | subscribe =>
    obtain ⟨hconnected, hstep⟩ := Option.ite_none_right_eq_some.mp hstep
    exact h.subscribe hconnected hguard.1 hguard.2 hstep
  | delete now =>
    obtain ⟨_, hstep⟩ := Option.ite_none_right_eq_some.mp hstep
    unfold PairView.delete at hstep
    split at hstep
    · contradiction
    cases Option.some.inj hstep
    refine h.keep (Component.enter_subscriptions ?_ ?_ ?_ now).1
    all_goals
      intros
      split <;> simp
  | call call now =>
    obtain ⟨_, hstep⟩ := Option.ite_none_left_eq_some.mp hstep
    cases Option.some.inj hstep
    obtain ⟨hregister, hcancel, hhandle⟩ := hguard
    exact h.keep (Component.enter_subscriptions hregister hcancel hhandle now).1

end Mirrors

theorem Mirrors.initial : ({} : PairView U).Mirrors := by
  have hnone : ∀ handle : SubscriptionHandle,
      (Component.constructed : Component (Watcher U)).subscriptions[handle]? = none := by
    intro handle
    exact ExtTreeMap.getElem?_empty
  have hempty : ∀ key : PairKey, ({} : PairView U).subscriptions[key]? = none := by
    intro key
    exact ExtTreeMap.getElem?_empty
  refine ⟨hnone _, ?_, ?_, fun hsome => absurd rfl hsome, fun _ => ⟨rfl, hempty⟩⟩
  · intro handle key
    refine Iff.trans ?_ (Iff.symm (holds_iff rfl))
    rw [hnone, hempty]
    exact iff_of_false ((Option.some_ne_none _).symm) ((Option.some_ne_none _).symm)
  · intro hon
    contradiction

theorem mirrors (hreach : Reach step Alone {} view) : view.Mirrors := by
  refine hreach.invariant .initial ?_
  intro view action after h hguard hstep
  exact h.step hguard hstep

theorem Mirrors.toggles (h : view.Mirrors) (on : Bool) :
    (view.setSubscribedToAll on).isSome := by
  have hcancel : view.client.cancelThrows view.wildcard = false := by
    unfold Component.cancelThrows
    by_cases hnone : view.wildcard = kInvalidSubscriptionHandle
    · rw [hnone, h.zero]
      rfl
    · rw [(h.records view.wildcard everything).mpr (.inl ⟨hnone, rfl, rfl⟩)]
      exact everything_fits view.client false
  unfold PairView.setSubscribedToAll PairView.cancelSubscription
  rw [subscribeToAll_eq, hcancel]
  split
  · rfl
  · split <;> rfl

end PairView

/-- What the boxes of the window say is so. A box for a pair is there as long as
its subscription is, the box for everything is ticked as long as everything is
subscribed to, a handle that is kept is the one that cancels it, and ticking or
unticking the box for everything does not throw. -/
theorem boxes_mirror {U : Type} {view : PairView U}
    (hreach : Reach PairView.step PairView.Alone {} view) :
    (∀ key : PairKey, view.client.Live key.record ↔
      (view.subscribedToAll ∧ key = everything) ∨ key ∈ view.subscriptions) ∧
    (∀ (key : PairKey) handle, view.subscriptions[key]? = some handle →
      view.client.subscriptions[handle]? = some key.record) ∧
    ∀ on, (view.setSubscribedToAll on).isSome := by
  have h := PairView.mirrors hreach
  refine ⟨?_, ?_, ?_⟩
  · intro key
    constructor
    · rintro ⟨handle, hfound⟩
      obtain ⟨hwildcard, _, rfl⟩ | hbox := (h.records handle key).mp hfound
      · exact .inl ⟨(h.apart hwildcard).1, rfl⟩
      · exact .inr (ExtTreeMap.mem_iff_isSome_getElem?.mpr (by rw [hbox]; rfl))
    · intro hticked
      have hbox : ∀ {key : PairKey}, key ∈ view.subscriptions → view.client.Live key.record := by
        intro key hbox
        obtain ⟨handle, hhandle⟩ :=
          Option.isSome_iff_exists.mp (ExtTreeMap.mem_iff_isSome_getElem?.mp hbox)
        exact ⟨handle, (h.records handle key).mpr (.inr hhandle)⟩
      obtain ⟨hon, rfl⟩ | hmem := hticked
      · obtain hwildcard | hmem := h.covered hon
        · exact ⟨view.wildcard, (h.records _ _).mpr (.inl ⟨hwildcard, rfl, rfl⟩)⟩
        · exact hbox hmem
      · exact hbox hmem
  · intro key handle hbox
    exact (h.records handle key).mpr (.inr hbox)
  · exact h.toggles

def PairView.sparing (view : PairView Unit) : PairViewAction Unit → Bool
  | .call _ _ => false
  | _ => view.client.nextSubscriptionHandle + 1 ≠ kInvalidSubscriptionHandle ∧
      view.client.subscriptions[view.client.nextSubscriptionHandle + 1]? = none

theorem PairView.alone_of_sparing (view : PairView Unit) (action : PairViewAction Unit)
    (h : view.sparing action) : view.Alone action := by
  cases action with
  | call call now => contradiction
  | _ => simpa [PairView.sparing, PairView.Alone] using h

/-- The box for everything is unticked, and two pairs are subscribed to. -/
theorem boxes_mirror_two : ∃ view : PairView Unit,
    view.subscriptions[(⟨5, [107]⟩ : PairKey)]? = some 2 ∧ view.client.Live ⟨6, [107]⟩ ∧
      ¬view.client.Live ⟨kAnyOwner, kWildcardKey⟩ ∧
      view.client.subscriptions[(2 : SubscriptionHandle)]? = some ⟨5, [107]⟩ := by
  have hreach : Reach PairView.step PairView.Alone {} _ := Reach.of_checked
    PairView.alone_of_sparing [.initializeNode ⟨1000, [⟨2000, [], []⟩]⟩, .connect,
      .setSubscribedToAll false, .select ⟨5, [107]⟩, .subscribe, .select ⟨6, [107]⟩, .subscribe] rfl
  obtain ⟨hlive, hhandle, _⟩ := boxes_mirror hreach
  refine ⟨_, rfl, (hlive ⟨6, [107]⟩).mpr (.inr ?_), ?_, hhandle ⟨5, [107]⟩ 2 rfl⟩
  · exact ExtTreeMap.mem_iff_isSome_getElem?.mpr rfl
  · intro hall
    obtain ⟨hon, _⟩ | hmem := (hlive everything).mp hall
    · contradiction
    · exact absurd (ExtTreeMap.mem_iff_isSome_getElem?.mp hmem) (by decide)

end Srnp.Gui
