import Srnp.MetaTargets

/-! Trackers that follow. Nothing moves a tracker but the callback on its
meta-pair. A value that was there before the tracker is told to nobody, and so
is a removal. As long as every change of a tracked meta-pair is heard, and in
order, the target is what the meta-pair names once no callback is left to make. -/
namespace Srnp
open Std LastWrite Transition HandleTable

def Action.CallsNobody {F : Type} (action : Action F) : Prop :=
  action.posts = none ∧ action.callback = none

namespace Component
variable {F : Type} (c : Component F)

def puts : Call F → Option (Bool × Pair)
  | .setPair key value type =>
      if c.ready then some (true, { owner := c.owner, key, value, type }) else none
  | .handle (.pair pair) => some (false, { pair with owner := c.owner })
  | .handle (.pairUpdate pair) => some (false, pair)
  | _ => none

def removes : Call F → Option PairKey
  | .removePair key => if c.ready then some ⟨c.owner, key⟩ else none
  | .removeRemotePair owner key => if owner = c.owner ∧ c.ready then some ⟨owner, key⟩ else none
  | .handle (.removePair request) =>
      if request.owner = c.owner then some request.pairKey else none
  | .handle (.pairRemoved request) => some request.pairKey
  | _ => none

/-! ### What a call changes in the view -/

theorem view_enter_puts {call : Call F} {strand : Bool} {pair : Pair}
    (h : c.puts call = some (strand, pair)) (now : TimePoint) :
    (c.enter call now).component.space.view = c.space.view.apply pair.write := by
  cases call with
  | setPair key value type =>
    simp only [puts] at h
    split at h
    · rename_i hready
      cases h
      simp only [enter, setPair, hready, if_true]
      exact PairSpace.view_addPair _ _ _
    · contradiction
  | handle message =>
    cases message with
    | pair pair =>
      cases h
      exact PairSpace.view_addPair _ _ _
    | pairUpdate pair =>
      cases h
      exact PairSpace.view_addPair _ _ _
    | _ => contradiction
  | _ => contradiction

theorem writes_of_puts_none {call : Call F} (h : c.puts call = none) :
    (c.ownWrite call).toList ++ call.received.toList =
      (c.removes call).toList.map Write.remove := by
  cases call with
  | setPair key value type =>
    simp only [puts] at h
    split at h
    · contradiction
    · rename_i hready
      simp [ownWrite, Call.received, removes, hready]
  | removePair key => by_cases hready : c.ready <;> simp [ownWrite, Call.received, removes, hready]
  | removeRemotePair owner key =>
    by_cases hown : owner = c.owner ∧ c.ready <;> simp [ownWrite, Call.received, removes, hown]
  | handle message =>
    cases message with
    | pair pair => contradiction
    | pairUpdate pair => contradiction
    | subscription message => rfl
    | removePair request =>
      by_cases hown : request.owner = c.owner <;>
        simp [ownWrite, Call.received, removes, Message.write, hown]
    | pairRemoved request => rfl
  | _ => rfl

theorem view_enter_removes {call : Call F} (h : c.puts call = none) (now : TimePoint)
    (key : PairKey) :
    (c.enter call now).component.space.view key = c.space.view key ∨ c.removes call = some key ∧
      (c.enter call now).component.space.view key = none := by
  rw [c.enter_view call now, c.writes_of_puts_none h]
  cases c.removes call with
  | none => exact Or.inl rfl
  | some removed =>
    change c.space.view.apply (.remove removed) key = _ ∨ _ ∧
      c.space.view.apply (.remove removed) key = none
    rw [Store.apply_remove_eq]
    by_cases heq : removed = key
    · exact Or.inr ⟨congrArg some heq, if_pos heq⟩
    · exact Or.inl (if_neg heq)

/-! ### What a call tells the trackers -/

theorem callsNobody_fanOutThen (message : Message) (subscribers : SubscriberList)
    {unwind rest : List (Action F)} (hunwind : ∀ action ∈ unwind, action.CallsNobody)
    (hrest : ∀ action ∈ rest, action.CallsNobody) :
    ∀ action ∈ fanOutThen message subscribers unwind rest, action.CallsNobody :=
  forall_fanOutThen (fun _ => ⟨rfl, rfl⟩) subscribers hunwind hrest

theorem pending_nobody {todo : List (Action F)} (h : ∀ action ∈ todo, action.CallsNobody) :
    pending todo = [] :=
  List.filterMap_eq_nil_iff.mpr fun action hmem => (h action hmem).1

theorem callback_nobody {todo : List (Action F)} (h : ∀ action ∈ todo, action.CallsNobody) :
    todo.filterMap Action.callback = [] :=
  List.filterMap_eq_nil_iff.mpr fun action hmem => (h action hmem).2

theorem callsNobody_nil : ∀ action ∈ ([] : List (Action F)), action.CallsNobody :=
  fun _ hmem => by contradiction

theorem callsNobody_unlock : ∀ action ∈ [Action.unlock (F := F)], action.CallsNobody := by
  intro action hmem
  cases List.mem_singleton.mp hmem
  exact ⟨rfl, rfl⟩

theorem callsNobody_removePair (key : Bytes) : ∀ action ∈ (c.removePair key).todo, action.CallsNobody := by
  unfold removePair
  split
  · dsimp only
    split
    · exact callsNobody_nil
    · exact callsNobody_fanOutThen _ _ callsNobody_unlock callsNobody_unlock
  · exact callsNobody_nil

theorem callsNobody_sendTo (owner : OwnerId) (message : Message) :
    ∀ action ∈ (c.sendTo owner message).todo, action.CallsNobody := by
  intro action hmem
  simp only [sendTo] at hmem
  split at hmem
  · cases List.mem_singleton.mp hmem
    exact ⟨rfl, rfl⟩
  · contradiction

theorem callsNobody_sendSubscription (owner : OwnerId) (key : Bytes) (registering : Bool) :
    ∀ action ∈ (c.sendSubscription owner key registering).todo, action.CallsNobody := by
  unfold sendSubscription
  split
  · exact c.callsNobody_sendTo _ _
  · intro action hmem
    cases List.mem_singleton.mp hmem
    exact ⟨rfl, rfl⟩

theorem callsNobody_sendEach (pairs : List Pair) (subscriber : OwnerId) :
    ∀ action ∈ sendEach (F := F) pairs subscriber, action.CallsNobody := by
  intro action hmem
  obtain ⟨pair, _, rfl⟩ := List.mem_map.mp hmem
  exact ⟨rfl, rfl⟩

theorem callsNobody_handleSubscription (message : Subscription) (now : TimePoint) :
    ∀ action ∈ (c.handleSubscription message now).todo, action.CallsNobody := by
  have hidle : ∀ action ∈ c.idle.todo, action.CallsNobody := callsNobody_nil
  unfold handleSubscription
  split
  · exact hidle
  split
  · exact hidle
  split
  · split
    · exact callsNobody_sendEach _ _
    · exact callsNobody_sendEach _ _
  split
  · exact hidle
  · exact hidle

theorem callsNobody_enter {call : Call F} (h : c.puts call = none) (now : TimePoint) :
    ∀ action ∈ (c.enter call now).todo, action.CallsNobody := by
  have hidle : ∀ action ∈ c.idle.todo, action.CallsNobody := callsNobody_nil
  cases call with
  | setPair key value type =>
    simp only [puts] at h
    split at h
    · contradiction
    · rename_i hready
      simp only [enter, setPair, hready]
      exact hidle
  | setRemotePair owner key value type => exact c.callsNobody_sendTo _ _
  | removePair key => exact c.callsNobody_removePair key
  | removeRemotePair owner key =>
    simp only [enter, removeRemotePair]
    split
    · exact c.callsNobody_removePair key
    · exact c.callsNobody_sendTo _ _
  | registerCallback owner key callback =>
    simp only [enter, registerCallback]
    split
    · exact hidle
    · exact hidle
  | cancelCallback handle => exact hidle
  | registerSubscription owner key =>
    simp only [enter, registerSubscription]
    split
    · exact hidle
    · exact callsNobody_sendSubscription _ _ _ _
  | cancelSubscription owner key =>
    simp only [enter, cancelSubscription]
    split
    · exact hidle
    · exact callsNobody_sendSubscription _ _ _ _
  | cancelSubscriptionHandle handle =>
    simp only [enter, cancelSubscriptionHandle]
    split
    · exact hidle
    · exact callsNobody_sendSubscription _ _ _ _
  | addSession component => exact hidle
  | removeSession owner => exact hidle
  | sendSubscriptionsFor owner session =>
    intro action hmem
    obtain ⟨message, _, rfl⟩ := List.mem_map.mp hmem
    exact ⟨rfl, rfl⟩
  | handle message =>
    cases message with
    | pair pair => contradiction
    | pairUpdate pair => contradiction
    | subscription message => exact c.callsNobody_handleSubscription message now
    | removePair request =>
      simp only [enter, handle, handleRemovePair]
      split
      · exact hidle
      split
      · exact hidle
      · exact callsNobody_fanOutThen _ _ callsNobody_nil callsNobody_nil
    | pairRemoved request => exact hidle

theorem callback_setPair (key value : Bytes) (type : PairType) (now : TimePoint) :
    (c.setPair key value type now).todo.filterMap Action.callback = [] := by
  unfold setPair
  split
  · dsimp only
    rcases fanOutThen_cases (F := F) _ _ _ _ with hall | ⟨ids, hall⟩
    · rw [hall]
      rfl
    · rw [hall, List.filterMap_append, List.filterMap_map]
      simp only [notifyLocal]
      split <;> simp [Function.comp_def, Action.callback]
  · rfl

theorem pending_setPair_cases (hready : c.ready) (key value : Bytes) (type : PairType)
    (now : TimePoint) :
    pending (c.setPair key value type now).todo = [] ∨
      pending (c.setPair key value type now).todo =
        [((c.space.addPair { owner := c.owner, key, value, type } now).2.pair,
          c.space.watchers ⟨c.owner, key⟩)] := by
  have hcallbacks := c.space.callbacksFor_addPair { owner := c.owner, key, value, type } now
  simp only [setPair, hready, if_true]
  rcases fanOutThen_cases (F := F) _ _ _ _ with hall | ⟨ids, hall⟩
  · rw [hall]
    exact Or.inl rfl
  · rw [hall, pending_append, pending_sends, List.nil_append]
    change pending (notifyLocal _ _) = [] ∨ pending (notifyLocal _ _) = _
    rw [pending_notifyLocal, hcallbacks]
    split
    · exact Or.inl rfl
    · exact Or.inr rfl

theorem pending_applyAndNotify (pair : Pair) (now : TimePoint) :
    pending (c.applyAndNotify pair now).todo = [] := by
  have hrest := pending_nobody (callsNobody_fanOutThen (F := F)
    (.pairUpdate (c.space.addPair pair now).2.pair) (c.space.addPair pair now).2.subscribers
    callsNobody_nil callsNobody_nil)
  unfold applyAndNotify
  dsimp only
  rw [pending_append, hrest, List.append_nil]
  exact List.filterMap_eq_nil_iff.mpr fun action hmem => by
    obtain ⟨callback, _, rfl⟩ := List.mem_map.mp hmem
    rfl

theorem callback_applyAndNotify (pair : Pair) (now : TimePoint) :
    (c.applyAndNotify pair now).todo.filterMap Action.callback =
      (c.space.watchers pair.pairKey).map (·, (c.space.addPair pair now).2.pair) := by
  have hrest := callback_nobody (callsNobody_fanOutThen (F := F)
    (.pairUpdate (c.space.addPair pair now).2.pair) (c.space.addPair pair now).2.subscribers
    callsNobody_nil callsNobody_nil)
  unfold applyAndNotify
  dsimp only
  rw [List.filterMap_append, hrest, List.append_nil, c.space.callbacksFor_addPair pair now,
    List.filterMap_map]
  simp [Function.comp_def, Action.callback]

end Component

section
variable {U : Type}

theorem notices_of_posts {todo : List (Action (Watcher U))}
    (h : todo.filterMap Action.callback = []) :
    notices todo = (pending todo).filterMap fun work => noticeOf true work.1 work.2 := by
  simp [notices, h]

theorem notices_of_calls {todo : List (Action (Watcher U))} {callbacks : List (Watcher U)}
    {snapshot : Pair} (hposts : pending todo = [])
    (hcalled : todo.filterMap Action.callback = callbacks.map (·, snapshot)) :
    notices todo = (noticeOf false snapshot callbacks).toList := by
  cases callbacks with
  | nil => simp [notices, hposts, hcalled, noticeOf]
  | cons callback rest => simp [notices, hposts, hcalled, Function.comp_def]

theorem noticeOf_snapshot {strand : Bool} {snapshot : Pair} {callbacks : List (Watcher U)}
    {notice : Notice} (h : noticeOf strand snapshot callbacks = some notice) :
    notice.snapshot = snapshot := by
  unfold noticeOf at h
  split at h
  · contradiction
  · cases h
    rfl

theorem noticeOf_heard {callbacks : List (Watcher U)} (h : .onMetaPairChanged ∈ callbacks)
    (strand : Bool) (snapshot : Pair) :
    ∃ notice, noticeOf strand snapshot callbacks = some notice := by
  have hpos : 0 < callbacks.countP Watcher.isMeta := List.countP_pos_iff.mpr ⟨_, h, rfl⟩
  obtain ⟨further, hfurther⟩ := Nat.exists_eq_succ_of_ne_zero hpos.ne'
  refine ⟨⟨strand, snapshot, further⟩, ?_⟩
  simp only [noticeOf, hfurther]

end

namespace Component
variable {U : Type} (c : Component (Watcher U)) {call : Call (Watcher U)} {strand : Bool}
  {pair : Pair}

theorem notices_of_puts_none (h : c.puts call = none) (now : TimePoint) :
    notices (c.enter call now).todo = [] := by
  have hnobody := c.callsNobody_enter h now
  simp [notices, pending_nobody hnobody, callback_nobody hnobody]

theorem notices_applyAndNotify (pair : Pair) (now : TimePoint) :
    notices (c.applyAndNotify pair now).todo =
      (noticeOf false (c.space.addPair pair now).2.pair (c.space.watchers pair.pairKey)).toList :=
  notices_of_calls (c.pending_applyAndNotify pair now) (c.callback_applyAndNotify pair now)

theorem notices_of_puts (h : c.puts call = some (strand, pair)) (now : TimePoint) :
    notices (c.enter call now).todo = [] ∨
      ∃ notice, notices (c.enter call now).todo = [notice] ∧
        notice.snapshot.pairKey = pair.pairKey ∧ notice.snapshot.value = pair.value := by
  have honce : ∀ found : Option Notice, notices (c.enter call now).todo = found.toList →
      (∀ notice, found = some notice → notice.snapshot = (c.space.addPair pair now).2.pair) →
      notices (c.enter call now).todo = [] ∨
        ∃ notice, notices (c.enter call now).todo = [notice] ∧
          notice.snapshot.pairKey = pair.pairKey ∧ notice.snapshot.value = pair.value := by
    intro found hfound hsnapshot
    cases found with
    | none => exact Or.inl hfound
    | some notice =>
      refine Or.inr ⟨notice, hfound, ?_, ?_⟩
      · rw [hsnapshot notice rfl]
        exact c.space.addPair_pairKey pair now
      · rw [hsnapshot notice rfl]
        exact c.space.addPair_value pair now
  cases call with
  | setPair key value type =>
    simp only [puts] at h
    split at h
    · rename_i hready
      cases h
      have hposts := notices_of_posts (c.callback_setPair key value type now)
      rcases c.pending_setPair_cases hready key value type now with hnone | hone
      · rw [hnone] at hposts
        exact Or.inl hposts
      · rw [hone, List.filterMap_cons, List.filterMap_nil] at hposts
        refine honce (noticeOf true _ (c.space.watchers ⟨c.owner, key⟩)) ?_
          fun notice => noticeOf_snapshot
        refine hposts.trans ?_
        cases noticeOf true (c.space.addPair { owner := c.owner, key, value, type } now).2.pair
          (c.space.watchers ⟨c.owner, key⟩) <;> rfl
    · contradiction
  | handle message =>
    cases message with
    | pair pair =>
      cases h
      exact honce _ (c.notices_applyAndNotify _ now) fun notice => noticeOf_snapshot
    | pairUpdate pair =>
      cases h
      exact honce _ (c.notices_applyAndNotify _ now) fun notice => noticeOf_snapshot
    | _ => contradiction
  | _ => contradiction

theorem notices_heard (h : c.puts call = some (strand, pair)) (now : TimePoint)
    (hwatched : .onMetaPairChanged ∈ c.space.watchers pair.pairKey)
    (hstops : strand → c.Unstopped pair.key pair.value) :
    notices (c.enter call now).todo ≠ [] := by
  have hkey := c.space.addPair_pairKey pair now
  obtain ⟨notice, hnotice⟩ := noticeOf_heard hwatched strand (c.space.addPair pair now).2.pair
  cases call with
  | setPair key value type =>
    simp only [puts] at h
    split at h
    · rename_i hready
      cases h
      have hne : (c.space.watchers ⟨c.owner, key⟩).isEmpty = false := by
        rw [List.isEmpty_eq_false_iff]
        exact List.ne_nil_of_mem hwatched
      have hposts := c.pending_setPair hready type now (hstops rfl)
      dsimp only at hposts
      rw [snapshotOf, hkey] at hposts
      change _ = (if (c.space.watchers ⟨c.owner, key⟩).isEmpty then none
        else some (_, c.space.watchers ⟨c.owner, key⟩)).toList at hposts
      rw [hne, if_neg Bool.false_ne_true] at hposts
      change notices (c.setPair key value type now).todo ≠ []
      rw [notices_of_posts (c.callback_setPair key value type now), hposts]
      exact ne_of_eq_of_ne (List.filterMap_cons_some hnotice) (List.cons_ne_nil _ _)
    · contradiction
  | handle message =>
    cases message with
    | pair pair =>
      cases h
      change notices (c.applyAndNotify _ now).todo ≠ []
      rw [notices_applyAndNotify, hnotice]
      exact List.cons_ne_nil _ _
    | pairUpdate pair =>
      cases h
      change notices (c.applyAndNotify _ now).todo ≠ []
      rw [notices_applyAndNotify, hnotice]
      exact List.cons_ne_nil _ _
    | _ => contradiction
  | _ => contradiction

theorem watchers_of_runs {handle : CallbackHandle} {key : PairKey} {callback : Watcher U}
    (h : c.space.Runs handle (key.place, callback)) : callback ∈ c.space.watchers key := by
  unfold PairSpace.watchers
  rw [List.mem_append]
  unfold PairKey.place at h
  split at h
  · left
    exact List.mem_map.mpr
      ⟨(handle, callback), ExtTreeMap.mem_toList_iff_getElem?_eq_some.mpr h, rfl⟩
  · right
    change (c.space.callbacksAt key)[handle]? = some callback at h
    unfold PairSpace.callbacksAt at h
    cases hfind : c.space.find key with
    | none => simp [hfind] at h
    | some entry =>
      rw [hfind] at h
      exact List.mem_map.mpr
        ⟨(handle, callback), ExtTreeMap.mem_toList_iff_getElem?_eq_some.mpr h, rfl⟩

end Component

/-! ### The calls still to come -/

/-- Where the calls of `onMetaPairChanged` that are still to come take a target. -/
def headed (pending : List Notice) (key : PairKey) (target : Option PairKey) : Option PairKey :=
  (pending.filter fun notice => notice.snapshot.pairKey = key).foldl
    (fun _ notice => MetaTracker.parseMetaValue notice.snapshot.value) target

section
variable {pending : List Notice} {notice : Notice} {key : PairKey} {index : Nat}
  (target : Option PairKey)

theorem headed_append (first second : List Notice) :
    headed (first ++ second) key target = headed second key (headed first key target) := by
  simp only [headed, List.filter_append, List.foldl_append]

theorem headed_cons (rest : List Notice) :
    headed (notice :: rest) key target = headed rest key
      (if notice.snapshot.pairKey = key then MetaTracker.parseMetaValue notice.snapshot.value
        else target) := by
  unfold headed
  rw [List.filter_cons]
  split
  · rename_i heq
    rw [if_pos (of_decide_eq_true heq)]
    rfl
  · rename_i hne
    rw [if_neg (of_decide_eq_false (Bool.not_eq_true _ ▸ hne))]

theorem headed_of_none (h : ∀ notice ∈ pending, notice.snapshot.pairKey ≠ key) :
    headed pending key target = target := by
  have hnone : (pending.filter fun notice => notice.snapshot.pairKey = key) = [] := by
    rw [List.filter_eq_nil_iff]
    intro notice hmem
    simpa using h notice hmem
  rw [headed, hnone]
  rfl

def Notice.others (notice : Notice) : List Notice :=
  match notice.further with
  | 0 => []
  | further + 1 => [{ notice with further }]

theorem Notice.others_snapshot {other : Notice} (h : other ∈ notice.others) :
    other.snapshot = notice.snapshot := by
  unfold Notice.others at h
  split at h
  · contradiction
  · cases List.mem_singleton.mp h
    rfl

theorem split_at (h : pending[index]? = some notice) :
    pending = pending.take index ++ notice :: pending.drop (index + 1) := by
  obtain ⟨hindex, hget⟩ := List.getElem?_eq_some_iff.mp h
  rw [← hget, ← List.drop_eq_getElem_cons hindex, List.take_append_drop]

theorem called_split (h : pending[index]? = some notice) :
    Process.called pending index notice =
      pending.take index ++ (notice.others ++ pending.drop (index + 1)) := by
  obtain ⟨hindex, _⟩ := List.getElem?_eq_some_iff.mp h
  cases hfurther : notice.further with
  | zero =>
    simp only [Process.called, Notice.others, hfurther]
    exact List.eraseIdx_eq_take_drop_succ pending index
  | succ further =>
    simp only [Process.called, Notice.others, hfurther]
    rw [List.set_eq_take_append_cons_drop, if_pos hindex]
    rfl

/-- Where the next call about a key is made, or a call about another one, the target is headed
where it was. -/
theorem headed_made (h : pending[index]? = some notice) {others : List Notice}
    (hothers : ∀ other ∈ others, other.snapshot = notice.snapshot) :
    (notice.snapshot.pairKey ≠ key →
      headed (pending.take index ++ (others ++ pending.drop (index + 1))) key target =
        headed pending key target) ∧
    (notice.snapshot.pairKey = key →
      (∀ earlier ∈ pending.take index, earlier.snapshot.pairKey ≠ key) →
      headed (pending.take index ++ (others ++ pending.drop (index + 1))) key
          (MetaTracker.parseMetaValue notice.snapshot.value) = headed pending key target) := by
  have hsplit : headed pending key target =
      headed (pending.take index ++ notice :: pending.drop (index + 1)) key target := by
    rw [← split_at h]
  constructor
  · intro hne
    have hskipped : headed others key (headed (pending.take index) key target) =
        headed (pending.take index) key target := by
      apply headed_of_none
      intro other hmem
      rwa [hothers other hmem]
    rw [hsplit, headed_append, headed_append, headed_append, headed_cons, if_neg hne, hskipped]
  · intro heq hfirst
    have hsame : headed others key (MetaTracker.parseMetaValue notice.snapshot.value) =
        MetaTracker.parseMetaValue notice.snapshot.value := by
      induction others with
      | nil => rfl
      | cons other rest ih =>
        rw [headed_cons, hothers other List.mem_cons_self, if_pos heq]
        exact ih fun other hmem => hothers other (List.mem_cons_of_mem _ hmem)
    rw [hsplit, headed_append, headed_append, headed_append, headed_of_none _ hfirst,
      headed_of_none _ hfirst, headed_cons, if_pos heq, hsame]

end

def kNullMeta : Bytes := [40, 77, 69, 84, 65, 32, 45, 49, 32, 78, 85, 76, 76, 41]

theorem parseMetaValue_kNullMeta : MetaTracker.parseMetaValue kNullMeta = none := by decide

def Pair.names (pair : Pair) : Option PairKey :=
  pair.shown.bind fun shown => MetaTracker.parseMetaValue shown.1

def PairSpace.names {F : Type} (space : PairSpace F) (key : PairKey) : Option PairKey :=
  (space.view key).bind fun shown => MetaTracker.parseMetaValue shown.1

theorem Pair.names_of_type {pair : Pair}
    (h : pair.type = .invalid → MetaTracker.parseMetaValue pair.value = none) :
    pair.names = MetaTracker.parseMetaValue pair.value := by
  unfold names shown
  split
  · rename_i hinvalid
    exact (h hinvalid).symm
  · rfl

theorem PairSpace.names_congr {F : Type} {left right : PairSpace F} {key : PairKey}
    (h : left.view key = right.view key) : left.names key = right.names key := by
  rw [names, names, h]

/-- A call changes what a tracked meta-pair names only by a put that is told. A pair that shows
nothing is told with a value that names nothing. -/
structure Component.ChangeHeard {U : Type} (c : Component (Watcher U))
    (trackers : ExtTreeMap PairKey (MetaTracker U)) (call : Call (Watcher U)) : Prop where
  shows : ∀ strand pair, c.puts call = some (strand, pair) → pair.pairKey ∈ trackers →
    pair.type = .invalid → MetaTracker.parseMetaValue pair.value = none
  told : ∀ pair, c.puts call = some (true, pair) → pair.pairKey ∈ trackers →
    c.Unstopped pair.key pair.value ∨ pair.names = c.space.names pair.pairKey
  removes : ∀ key, c.removes call = some key → key ∈ trackers → c.space.names key = none

/-- Once the callbacks of a call are made too, a target is where the meta-pair points after it. -/
theorem Component.headed_enter {U : Type} {c : Component (Watcher U)}
    {trackers : ExtTreeMap PairKey (MetaTracker U)} {call : Call (Watcher U)}
    (h : c.ChangeHeard trackers call) {key : PairKey} (htracked : key ∈ trackers)
    (hwatched : .onMetaPairChanged ∈ c.space.watchers key) (now : TimePoint) :
    headed (notices (c.enter call now).todo) key (c.space.names key) =
      (c.enter call now).component.space.names key := by
  cases hputs : c.puts call with
  | none =>
    rw [c.notices_of_puts_none hputs now]
    change c.space.names key = _
    rcases c.view_enter_removes hputs now key with hsame | ⟨hremoves, hgone⟩
    · exact (PairSpace.names_congr hsame).symm
    · rw [h.removes key hremoves htracked, PairSpace.names, hgone]
      rfl
  | some put =>
    obtain ⟨strand, pair⟩ := put
    have hview := congrFun (c.view_enter_puts hputs now) key
    have hnotices := c.notices_of_puts hputs now
    by_cases heq : pair.pairKey = key
    · subst heq
      have hnames : (c.enter call now).component.space.names pair.pairKey = pair.names := by
        rw [PairSpace.names, hview, Store.apply_same (Pair.write_key pair), Pair.write_value]
        rfl
      rw [hnames]
      rcases hnotices with hnone | ⟨notice, hone, hkey, hvalue⟩
      · rw [hnone]
        have hstopped : strand = true ∧ ¬ c.Unstopped pair.key pair.value := by
          by_contra hno
          refine c.notices_heard hputs now hwatched ?_ hnone
          rintro rfl
          exact not_not.mp fun hstopped => hno ⟨rfl, hstopped⟩
        obtain ⟨rfl, hstopped⟩ := hstopped
        exact ((h.told pair hputs htracked).resolve_left hstopped).symm
      · rw [hone, headed_cons, if_pos hkey, hvalue]
        exact (Pair.names_of_type (h.shows strand pair hputs htracked)).symm
    · have hsame : (c.enter call now).component.space.names key = c.space.names key := by
        apply PairSpace.names_congr
        rw [hview, Store.apply_other]
        rwa [Pair.write_key]
      rw [hsame, headed_of_none]
      rcases hnotices with hnone | ⟨notice, hone, hkey, _⟩
      · rw [hnone]
        exact fun _ hmem => by contradiction
      · rw [hone]
        intro other hmem
        cases List.mem_singleton.mp hmem
        rwa [hkey]

namespace Process
variable {U : Type} (p : Process U)

def named (key : PairKey) : Option PairKey := p.kernel.node.bind (·.space.names key)

/-- The user cancels no callback by which a tracker hears of its meta-pair. -/
def SparesMetaCallbacks : ProcessAction U → Prop
  | .call call _ => ∀ handle, call = .cancelCallback handle →
      ∀ (key : PairKey) (tracker : MetaTracker U), p.kernel.trackers[key]? = some tracker →
        tracker.metaCallback ≠ handle
  | _ => True

/-- The trackers hear of what changes, about each meta-pair in order. A new tracker finds its
meta-pair naming nothing but what is still to be called, and none is cut short as it gives up
its target. -/
def Hearing : ProcessAction U → Prop
  | .call call _ => ∀ c, p.kernel.node = some c → c.ChangeHeard p.kernel.trackers call
  | .registerTracker key _ _ => ∀ c, p.kernel.node = some c → p.kernel.trackers[key]? = none →
      c.registerThrows key = false → headed p.pending key none = c.space.names key
  | .cancelMetaCallback key => ∀ c tracker, p.kernel.node = some c →
      p.kernel.trackers[key]? = some tracker → c.releaseThrows tracker = false →
      c.cancelThrows tracker.metaSubscription → headed p.pending key none = c.space.names key
  | .notify index _ => ∀ notice c tracker, p.pending[index]? = some notice →
      p.kernel.node = some c → p.kernel.trackers[notice.snapshot.pairKey]? = some tracker →
      (∀ earlier ∈ p.pending.take index, earlier.snapshot.pairKey ≠ notice.snapshot.pairKey) ∧
        (notice.strand = false → MetaTracker.parseMetaValue notice.snapshot.value ≠ tracker.target →
          c.releaseThrows tracker = false)
  | _ => True

def Following (action : ProcessAction U) : Prop :=
  p.Orderly action ∧ p.SparesMetaCallbacks action ∧ p.Hearing action

def WellHeaded : Prop :=
  ∀ (key : PairKey) (tracker : MetaTracker U), p.kernel.trackers[key]? = some tracker →
    headed p.pending key tracker.target = p.named key

structure Abreast : Prop where
  sane : p.Sane
  listening : AliveOn (fun agent => agent.slot = .metaPair) p.callbackTable
  heads : p.WellHeaded

variable {p} {q : Process U} {c d : Component (Watcher U)}

theorem Abreast.watched (h : p.Abreast) (hnode : p.kernel.node = some c) {key : PairKey}
    {tracker : MetaTracker U} (htracked : p.kernel.trackers[key]? = some tracker) :
    .onMetaPairChanged ∈ c.space.watchers key := by
  have hkeeps : tracker.callback .metaPair ≠ 0 := h.sane.watching key tracker htracked
  have hheld : p.callbackTable.holder ⟨key, .metaPair⟩ = some tracker.metaCallback :=
    holder_of_slot MetaTracker.callback htracked hkeeps
  obtain ⟨named, hlive, _, hproper⟩ :=
    own_of_live h.sane.callbacks hheld (h.listening _ _ rfl hheld)
  rw [hproper rfl] at hlive
  exact c.watchers_of_runs ((h.sane.runs_iff hnode).mpr hlive)

theorem Abreast.listening_step (h : p.Abreast) {action : ProcessAction U}
    (horderly : p.Orderly action) (hspared : p.SparesMetaCallbacks action)
    (hstep : p.step action = some q) :
    AliveOn (fun agent => agent.slot = .metaPair) q.callbackTable := by
  apply h.sane.aliveOn_step h.listening horderly ?_ hstep
  rintro handle now rfl key hheld
  obtain ⟨tracker, htracked, hread, _⟩ := tracked_of_holder hheld
  exact hspared handle rfl key tracker htracked hread

theorem named_of_node {key : PairKey} (hnode : p.kernel.node = some c) :
    p.named key = c.space.names key := by
  rw [named, hnode]
  rfl

theorem WellHeaded.call (h : p.Abreast) {call : Call (Watcher U)} {now : TimePoint}
    (hhearing : p.Hearing (.call call now)) (hstep : p.step (.call call now) = some q) :
    q.WellHeaded := by
  simp only [step] at hstep
  split at hstep
  · split at hstep
    · cases hstep
      exact h.heads
    · rename_i c hnode
      rw [← Option.some.inj hstep, advance_eq (kernel_eq hnode)]
      intro key tracker htracked
      change p.kernel.trackers[key]? = some tracker at htracked
      have hmem : key ∈ p.kernel.trackers :=
        ExtTreeMap.mem_iff_isSome_getElem?.mpr (by rw [htracked]; rfl)
      change headed (p.pending ++ _) key _ = (c.enter call now).component.space.names key
      rw [headed_append, h.heads key tracker htracked, named_of_node hnode]
      exact Component.headed_enter (hhearing c hnode) hmem (h.watched hnode htracked) now
  · contradiction

theorem WellHeaded.changes (h : p.WellHeaded) (hnode : p.kernel.node = some c)
    {after : ExtTreeMap PairKey (MetaTracker U)} (hkernel : q.kernel = ⟨some d, after⟩)
    (hpending : q.pending = p.pending) (hview : d.space.view = c.space.view)
    (htargets : ∀ (key : PairKey) (tracker : MetaTracker U), after[key]? = some tracker →
      (∃ old, p.kernel.trackers[key]? = some old ∧ tracker.target = old.target) ∨
        headed p.pending key tracker.target = c.space.names key) : q.WellHeaded := by
  intro key tracker htracked
  have hnode' : q.kernel.node = some d := by rw [hkernel]
  rw [hkernel] at htracked
  rw [hpending, named_of_node hnode', PairSpace.names_congr (congrFun hview key)]
  rcases htargets key tracker htracked with ⟨old, hold, hsame⟩ | hnew
  · rw [hsame, h key old hold]
    exact named_of_node hnode
  · exact hnew

theorem WellHeaded.registerTracker (h : p.WellHeaded) (hsane : p.Sane) {key : PairKey}
    {fn : Option U} {now : TimePoint} (hhearing : p.Hearing (.registerTracker key fn now))
    (hstep : p.step (.registerTracker key fn now) = some q) : q.WellHeaded := by
  rcases registerTracker_cases hsane.idle hstep with rfl | ⟨c, d, after, hnode, htracks, rfl⟩
  · exact h
  rw [advance_eq (kernel_eq hnode)]
  have hview : (c.recorded key).space.view = c.space.view :=
    congrArg PairSpace.view (Component.space_recorded key)
  cases htracks with
  | @renewed tracker htracked =>
    refine h.changes hnode rfl rfl rfl ?_
    intro other found hfound
    rcases tracked_insert hfound with ⟨rfl, rfl⟩ | ⟨_, hold⟩
    · exact Or.inl ⟨tracker, htracked, rfl⟩
    · exact Or.inl ⟨found, hold, rfl⟩
  | cutShort =>
    exact h.changes hnode rfl rfl hview fun _ found hfound => Or.inl ⟨found, hfound, rfl⟩
  | added huntracked hreturns =>
    refine h.changes hnode rfl rfl ?_ ?_
    · exact (Component.view_registerCallback _ _ _ _ _).trans hview
    · intro other found hfound
      rcases tracked_insert hfound with ⟨rfl, rfl⟩ | ⟨_, hold⟩
      · exact Or.inr (hhearing c hnode huntracked (Bool.not_eq_true _ ▸ hreturns))
      · exact Or.inl ⟨found, hold, rfl⟩

theorem WellHeaded.cancelMetaCallback (h : p.WellHeaded) (hsane : p.Sane) {key : PairKey}
    (hhearing : p.Hearing (.cancelMetaCallback key))
    (hstep : p.step (.cancelMetaCallback key) = some q) : q.WellHeaded := by
  rcases cancelMetaCallback_cases hsane.idle hstep with rfl | ⟨c, d, after, hnode, huntracks, rfl⟩
  · exact h
  rw [advance_eq (kernel_eq hnode)]
  have hview : ∀ tracker, ((c.released tracker).cancelSubscriptionHandle
      tracker.metaSubscription).component.space.view = c.space.view := by
    intro tracker
    rw [Component.space_cancelSubscriptionHandle]
    exact (Component.SameNode.released (c := c) tracker).view
  cases huntracks with
  | untracked => exact h.changes hnode rfl rfl rfl fun _ found hfound => Or.inl ⟨found, hfound, rfl⟩
  | @keepsTarget tracker htracked =>
    refine h.changes hnode rfl rfl (Component.SameNode.released (c := c) tracker).view ?_
    intro other found hfound
    rcases tracked_insert hfound with ⟨rfl, rfl⟩ | ⟨_, hold⟩
    · exact Or.inl ⟨tracker, htracked, rfl⟩
    · exact Or.inl ⟨found, hold, rfl⟩
  | @keepsMeta tracker htracked hreturns hthrows =>
    refine h.changes hnode rfl rfl (hview tracker) ?_
    intro other found hfound
    rcases tracked_insert hfound with ⟨rfl, rfl⟩ | ⟨_, hold⟩
    · exact Or.inr (hhearing c tracker hnode htracked (Bool.not_eq_true _ ▸ hreturns)
        (Component.cancelThrows_released tracker hthrows))
    · exact Or.inl ⟨found, hold, rfl⟩
  | @forgotten tracker htracked =>
    refine h.changes hnode rfl rfl ?_ ?_
    · exact (PairSpace.view_removeCallback _ _).trans (hview tracker)
    · intro other found hfound
      exact Or.inl ⟨found, (tracked_erase hfound).2, rfl⟩

theorem WellHeaded.made (h : p.WellHeaded) (hnode : p.kernel.node = some c) {index : Nat}
    {notice : Notice} (hnotice : p.pending[index]? = some notice) {tracker changed : MetaTracker U}
    (htracked : p.kernel.trackers[notice.snapshot.pairKey]? = some tracker)
    (hkernel : q.kernel = ⟨some d, p.kernel.trackers.insert notice.snapshot.pairKey changed⟩)
    {others : List Notice} (hothers : ∀ other ∈ others, other.snapshot = notice.snapshot)
    (hpending : q.pending = p.pending.take index ++ (others ++ p.pending.drop (index + 1)))
    (hview : d.space.view = c.space.view)
    (hfirst : ∀ earlier ∈ p.pending.take index, earlier.snapshot.pairKey ≠ notice.snapshot.pairKey)
    (htarget : changed.target = MetaTracker.parseMetaValue notice.snapshot.value) :
    q.WellHeaded := by
  have hnode' : q.kernel.node = some d := by rw [hkernel]
  intro key found hfound
  rw [hkernel] at hfound
  rw [hpending, named_of_node hnode', PairSpace.names_congr (congrFun hview key)]
  rcases tracked_insert hfound with ⟨rfl, rfl⟩ | ⟨hne, hold⟩
  · rw [htarget, (headed_made tracker.target hnotice hothers).2 rfl hfirst]
    exact (h _ tracker htracked).trans (named_of_node hnode)
  · rw [(headed_made found.target hnotice hothers).1 (Ne.symm hne)]
    exact (h key found hold).trans (named_of_node hnode)

theorem WellHeaded.notify (h : p.WellHeaded) (hsane : p.Sane) {index : Nat} {now : TimePoint}
    (horderly : p.Orderly (.notify index now)) (hhearing : p.Hearing (.notify index now))
    (hstep : p.step (.notify index now) = some q) : q.WellHeaded := by
  obtain ⟨notice, pending, hnotice, hpending, hcases⟩ := notify_cases hsane.idle hstep
  obtain ⟨others, hothers, hsplit⟩ : ∃ others : List Notice,
      (∀ other ∈ others, other.snapshot = notice.snapshot) ∧
        pending = p.pending.take index ++ (others ++ p.pending.drop (index + 1)) := by
    rcases hpending with rfl | rfl
    · exact ⟨notice.others, fun _ => Notice.others_snapshot, called_split hnotice⟩
    · exact ⟨[], fun _ hmem => by contradiction, List.eraseIdx_eq_take_drop_succ _ _⟩
  rcases hcases with ⟨huntracked, rfl⟩ | ⟨c, tracker, held, hnode, htracked, hrepoint, hstrand, rfl⟩
  · intro key found hfound
    change (p.advance _ p.kernel).kernel.trackers[key]? = some found at hfound
    rw [advance_kernel] at hfound
    have hne : notice.snapshot.pairKey ≠ key := by
      rintro rfl
      rw [huntracked] at hfound
      contradiction
    have hnamed : (p.advance (some ⟨notice.snapshot.pairKey, .target⟩) p.kernel).named key =
        p.named key := by
      rw [named, advance_kernel]
      rfl
    change headed pending key _ = (p.advance _ p.kernel).named key
    rw [hsplit, (headed_made found.target hnotice hothers).1 hne, hnamed]
    exact h key found hfound
  obtain ⟨hfirst, hreturns⟩ := hhearing notice c tracker hnotice hnode htracked
  by_cases hchange : MetaTracker.parseMetaValue notice.snapshot.value = tracker.target
  · rw [Held.repoint_same now hchange] at hrepoint
    cases hrepoint
    rw [stateOf, advance_eq (kernel_eq hnode)]
    exact h.made hnode hnotice htracked rfl hothers hsplit rfl hfirst hchange.symm
  · have hreleased : c.releaseThrows tracker = false := by
      by_contra hthrows
      have hresult := Held.repoint_node c tracker now hchange
      rw [if_pos (Bool.not_eq_false _ ▸ hthrows)] at hresult
      cases hon : notice.strand with
      | true =>
        rw [hstrand hon] at hresult
        contradiction
      | false => exact hthrows (hreturns hon hchange)
    have hunused := (horderly c hnode).release htracked (hsane.filed c hnode)
    obtain ⟨d, changed, hresult, htarget, _, _, hview⟩ :=
      Component.repoint_outcome now hchange hreleased hunused.subscription.dead
    cases hresult.symm.trans hrepoint
    rw [advance_eq (kernel_eq hnode)]
    exact h.made hnode hnotice htracked rfl hothers hsplit hview hfirst htarget

theorem Abreast.step (h : p.Abreast) {action : ProcessAction U} (hfollowing : p.Following action)
    (hstep : p.step action = some q) : q.Abreast := by
  obtain ⟨horderly, hspared, hhearing⟩ := hfollowing
  have hsane := h.sane
  refine ⟨(hsane.step horderly hstep).sane, h.listening_step horderly hspared hstep, ?_⟩
  cases action with
  | registerTracker key fn now => exact h.heads.registerTracker hsane hhearing hstep
  | cancelMetaCallback key => exact h.heads.cancelMetaCallback hsane hhearing hstep
  | call call now => exact WellHeaded.call h hhearing hstep
  | notify index now => exact h.heads.notify hsane horderly hhearing hstep
  | initializeNode welcome =>
    simp only [Process.step] at hstep
    cases hnode : p.kernel.node with
    | some c =>
      rw [hnode] at hstep
      cases hstep
      exact h.heads
    | none =>
      rw [hnode] at hstep
      cases hstep
      intro key tracker htracked
      rw [show p.kernel.trackers[key]? = none from hsane.idle hnode key] at htracked
      contradiction
  | shutdown =>
    cases hstep
    intro key tracker htracked
    rw [show p.kernel.trackers[key]? = none from horderly key] at htracked
    contradiction

theorem Abreast.start : (start : Process U).Abreast where
  sane := .start
  listening := by
    intro agent handle _ hheld
    simp [callbackTable, Process.start, holderOf] at hheld
  heads := by
    intro key tracker htracked
    simp [Process.start] at htracked

theorem following_begun : begun.Following (.registerTracker ⟨5, [107]⟩ none 3) := by
  refine ⟨orderly_begun _ _ _, trivial, ?_⟩
  intro c hc _ _
  cases hc
  rfl

theorem following_tracking : tracking.Following (.call (pointed [107]) 4) := by
  refine ⟨?_, fun _ hcall => by contradiction, ?_⟩
  · intro c hc
    cases hc
    exact unused_tracking rfl rfl rfl rfl
  · intro c _
    refine ⟨?_, ?_, fun _ hremoves => by contradiction⟩
    · intro strand pair hputs _ htype
      cases hputs
      contradiction
    · intro pair hputs
      cases hputs

theorem following_told : told.Following (.notify 0 5) := by
  refine ⟨?_, trivial, ?_⟩
  · intro c hc
    cases hc
    exact unused_tracking rfl rfl rfl rfl
  · intro notice c tracker hnotice hc htracked
    cases hnotice
    cases hc
    cases htracked
    exact ⟨fun _ hmem => by contradiction, fun _ _ => by decide⟩

/-- A meta-pair of the component itself is set, then tracked. -/
def setThenTracked : List (ProcessAction Unit) :=
  [.initializeNode welcomed, .call (.setPair [107] pointing .metaPair) 3,
    .registerTracker ⟨1000, [107]⟩ none 4]

/-- A meta-pair is tracked and points somewhere, then its owner removes it. -/
def trackedThenRemoved : List (ProcessAction Unit) :=
  [.initializeNode welcomed, .registerTracker ⟨5, [107]⟩ none 3, .call (pointed [107]) 4,
    .notify 0 5, .call (.handle (.pairRemoved ⟨5, [107]⟩)) 6]

end Process

end Srnp
