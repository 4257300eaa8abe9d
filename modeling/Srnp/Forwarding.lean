import Srnp.OwnerIntegrity

/-! What becomes of an update at a component that does not own the pair. It is
applied and its callbacks run; then it is announced to the subscribers of the
entry, and for a pair of another owner these are the wildcard subscribers. Only
without such subscribers does an update stay where it is, and only then does a
publish reach each subscriber of the owner once and nobody else. -/
namespace Srnp
open Std LastWrite Transition

def Action.callback {F : Type} : Action F → Option (F × Pair)
  | .call callback snapshot => some (callback, snapshot)
  | _ => none

namespace Component
variable {F : Type} (c : Component F)

def next (call : Call F × TimePoint) : Option (Component F) :=
  some (c.enter call.1 call.2).component

/-- An update is applied, the callbacks are run on it, and no session is handed
a frame. -/
def AppliesOnly (pair : Pair) (now : TimePoint) : Prop :=
  let entered := c.enter (.handle (.pairUpdate pair)) now
  let added := c.space.addPair pair now
  entered.component.space.view = c.space.view.apply pair.write ∧
    entered.todo.filterMap Action.callback =
      (added.1.callbacksFor added.2).map (·, added.2.pair) ∧
    entered.todo.flatMap entered.component.hands = []

theorem Regular.of_reach {owner : OwnerId}
    (h : Reach Component.next unguarded (Component.initial owner) c) :
    c.owner = owner ∧ c.Regular := by
  refine h.invariant (I := fun c => c.owner = owner ∧ c.Regular) ⟨rfl, .initial owner⟩ ?_
  rintro before ⟨call, now⟩ after ⟨howner, hregular⟩ _ hstep
  cases Option.some.inj hstep
  exact ⟨(before.enter_owner call now).trans howner, hregular.enter call now⟩

variable {c} {pair : Pair} {now : TimePoint}

theorem addPair_fits (hfits : (Message.pairUpdate pair).fits) :
    (Message.pairUpdate (c.space.addPair pair now).2.pair).fits := by
  have hkey := congrArg (fun key : PairKey => key.key.length) (c.space.addPair_pairKey pair now)
  simp only [Pair.pairKey] at hkey
  rw [pairUpdate_fits_iff] at hfits ⊢
  rw [hkey, PairSpace.addPair_value]
  exact hfits

theorem handlePairUpdate_todo (hfits : (Message.pairUpdate pair).fits) :
    (c.enter (.handle (.pairUpdate pair)) now).todo =
      ((c.space.addPair pair now).1.callbacksFor (c.space.addPair pair now).2).map
          (fun callback => .call callback (c.space.addPair pair now).2.pair) ++
        (c.space.subscribersOf pair.pairKey).ids.map fun subscriber =>
          .send subscriber (.pairUpdate (c.space.addPair pair now).2.pair) := by
  simp only [enter, handle, handlePairUpdate, applyAndNotify, fanOutThen]
  rw [fanOutUnlessEmpty_fits (addPair_fits hfits), PairSpace.addPair_subscribers]
  simp only [List.append_nil]

theorem callback_calls (callbacks : List F) (snapshot : Pair) :
    (callbacks.map fun callback => Action.call callback snapshot).filterMap Action.callback =
      callbacks.map (·, snapshot) := by
  induction callbacks with
  | nil => rfl
  | cons callback rest ih => exact congrArg ((callback, snapshot) :: ·) ih

theorem callback_sends (message : Message) (ids : List OwnerId) :
    (ids.map fun subscriber => (.send subscriber message : Action F)).filterMap
      Action.callback = [] := by
  induction ids with
  | nil => rfl
  | cons id rest ih => exact ih

theorem hands_calls (callbacks : List F) (snapshot : Pair) :
    (callbacks.map fun callback => Action.call callback snapshot).flatMap c.hands = [] := by
  induction callbacks with
  | nil => rfl
  | cons callback rest ih => exact ih

theorem hands_sends (message : Message) (ids : List OwnerId) :
    (ids.map fun subscriber => (.send subscriber message : Action F)).flatMap c.hands =
      (ids.filter fun subscriber => c.sessions.contains subscriber).map (·, message) := by
  induction ids with
  | nil => rfl
  | cons id rest ih =>
    rw [List.map_cons, List.flatMap_cons, ih]
    cases hsession : c.sessions.contains id with
    | true => simp [hands, hsession]
    | false => simp [hands, hsession]

/-- An update of another owner's pair stays here exactly if no wildcard
subscriber can be reached. -/
theorem Regular.appliesOnly_iff (h : c.Regular) (hforeign : pair.owner ≠ c.owner)
    (hfits : (Message.pairUpdate pair).fits) :
    c.AppliesOnly pair now ↔
      ∀ subscriber ∈ c.space.uSubscribers, ¬ c.sessions.contains subscriber := by
  have hsubscribers : c.space.subscribersOf pair.pairKey = c.space.uSubscribers :=
    h.uniform _ hforeign
  have hhands : (c.enter (.handle (.pairUpdate pair)) now).todo.flatMap
      (c.enter (.handle (.pairUpdate pair)) now).component.hands =
        (c.space.uSubscribers.ids.filter fun subscriber => c.sessions.contains subscriber).map
          (·, .pairUpdate (c.space.addPair pair now).2.pair) := by
    rw [handlePairUpdate_todo hfits, List.flatMap_append, hands_calls, hands_sends, hsubscribers]
    rfl
  have hcalls : (c.enter (.handle (.pairUpdate pair)) now).todo.filterMap Action.callback =
      ((c.space.addPair pair now).1.callbacksFor (c.space.addPair pair now).2).map
        (·, (c.space.addPair pair now).2.pair) := by
    rw [handlePairUpdate_todo hfits, List.filterMap_append, callback_calls, callback_sends,
      List.append_nil]
  simp only [AppliesOnly, hhands, hcalls, List.map_eq_nil_iff, List.filter_eq_nil_iff, true_and]
  constructor
  · intro hkept
    exact hkept.2
  · intro hunreached
    exact ⟨PairSpace.view_addPair _ _ _, hunreached⟩

end Component

/-! ### What one publish sets off -/

def Message.isUpdate : Message → Bool
  | .pairUpdate _ => true
  | _ => false

def Origin.audience {F : Type} (origin : Origin F) : Option SubscriberList :=
  match origin.call with
  | .setPair key _ _ =>
      some (origin.component.space.subscribersOf ⟨origin.component.owner, key⟩)
  | _ => none

namespace Network
variable {F : Type}

def NoWildcards (net : Network F) : NetworkAction F → Prop
  | .deliver index _ _ => ∀ envelope ∈ net.flight[index]?, envelope.message.isUpdate →
      (net.nodes envelope.recipient).component.space.uSubscribers.ids = []
  | _ => True

def told (net : Network F) (cause : Nat) : List OwnerId :=
  (net.sent.filter fun envelope =>
    envelope.cause = some cause ∧ envelope.message.isUpdate).map (·.recipient)

/-- A publish causes one update at most for each subscriber it found, and none
for anyone else. -/
def OncePerSubscriber (net : Network F) : Prop :=
  ∀ cause origin audience, net.issued[cause]? = some origin →
    origin.audience = some audience →
      (net.told cause).Nodup ∧ ∀ id ∈ net.told cause, id ∈ audience

def duty (net : Network F) (cause : Nat) (place : OwnerId × ThreadId) : List (Action F) :=
  if net.causes place.1 place.2 = some cause then (net.nodes place.1).todo place.2 else []

def spoken (net : Network F) (cause : Nat) : List OwnerId :=
  (net.sent.filter fun envelope => envelope.cause = some cause).map (·.recipient)

end Network

namespace Action
variable {F : Type}

def silent : Action F → Bool
  | .call .. => true
  | .post .. => true
  | .unlock => true
  | _ => false

def telling : Action F → Bool
  | .send _ message => message.isUpdate
  | action => action.silent

theorem telling_of_silent {action : Action F} (h : action.silent) : action.telling := by
  cases action with
  | send id message => contradiction
  | _ => exact h

theorem parcel_of_silent {action : Action F} (h : action.silent) :
    Component.parcel action = none := by
  cases action with
  | send id message => contradiction
  | sendOn owner session message => contradiction
  | _ => rfl

theorem isUpdate_of_telling {action : Action F} (h : action.telling) (c : Component F) :
    ∀ parcel ∈ c.hands action, parcel.2.isUpdate := by
  intro parcel hparcel
  cases action with
  | send id message =>
    simp only [Component.hands] at hparcel
    split at hparcel
    · rw [List.mem_singleton.mp hparcel]
      exact h
    · contradiction
  | _ => contradiction

theorem resume_of_telling {action : Action F} (h : action.telling) (node : Node F)
    (rest : List (Action F)) : node.resume action rest = rest := by
  cases action with
  | sendAll key registering => contradiction
  | _ => rfl

end Action

/-- The frames sent on behalf of a publish and those its own thread has yet to
send are for its audience, one each; no other thread has any to send. -/
def Traced {F : Type} (audience spoken : List OwnerId)
    (duty : OwnerId × ThreadId → List (Action F)) : Prop :=
  ∃ teller, (∀ action ∈ duty teller, action.telling) ∧
    List.Sublist (spoken ++ (Component.parcels (duty teller)).map (·.1)) audience ∧
    ∀ other, other ≠ teller → ∀ action ∈ duty other, action.silent

namespace Traced
variable {F : Type} {audience spoken : List OwnerId}
  {duty : OwnerId × ThreadId → List (Action F)} {place : OwnerId × ThreadId}

theorem parcels_silent {todo : List (Action F)} (h : ∀ action ∈ todo, action.silent) :
    Component.parcels todo = [] := by
  rw [Component.parcels, List.filterMap_eq_nil_iff]
  intro action haction
  exact Action.parcel_of_silent (h action haction)

theorem telling (h : Traced audience spoken duty) :
    ∀ action ∈ duty place, action.telling := by
  obtain ⟨teller, htelling, _, hothers⟩ := h
  intro action haction
  by_cases hplace : place = teller
  · rw [hplace] at haction
    exact htelling action haction
  · exact Action.telling_of_silent (hothers place hplace action haction)

theorem quiet (h : Traced audience spoken duty) {todo : List (Action F)}
    (htodo : ∀ action ∈ todo, action.silent) :
    Traced audience spoken (Function.update duty place todo) := by
  obtain ⟨teller, htelling, hsublist, hothers⟩ := h
  refine ⟨teller, ?_, ?_, ?_⟩
  · rw [Function.update_apply]
    split
    · intro action haction
      exact Action.telling_of_silent (htodo action haction)
    · exact htelling
  · rw [Function.update_apply]
    split
    · rw [parcels_silent htodo, List.map_nil, List.append_nil]
      exact (List.sublist_append_left _ _).trans hsublist
    · exact hsublist
  · intro other hother
    rw [Function.update_apply]
    split
    · exact htodo
    · exact hothers other hother

theorem tell (h : Traced audience spoken duty) {first : Action F} {rest : List (Action F)}
    (hduty : duty place = first :: rest) {said : List OwnerId}
    (hsaid : List.Sublist said ((Component.parcel first).toList.map (·.1))) :
    Traced audience (spoken ++ said) (Function.update duty place rest) := by
  obtain ⟨teller, htelling, hsublist, hothers⟩ := h
  by_cases hplace : place = teller
  · subst hplace
    rw [hduty] at htelling hsublist
    refine ⟨place, ?_, ?_, ?_⟩
    · rw [Function.update_self]
      intro action haction
      exact htelling action (List.mem_cons_of_mem _ haction)
    · rw [Function.update_self, List.append_assoc]
      refine List.Sublist.trans (List.Sublist.append_left ?_ spoken) hsublist
      rw [Component.parcels_cons, List.map_append]
      exact hsaid.append (List.Sublist.refl _)
    · intro other hother
      rw [Function.update_of_ne hother]
      exact hothers other hother
  · have hsilent := hothers place hplace
    rw [hduty] at hsilent
    have hfirst := Action.parcel_of_silent (hsilent first List.mem_cons_self)
    rw [hfirst] at hsaid
    rw [List.sublist_nil.mp hsaid, List.append_nil]
    apply quiet ⟨teller, htelling, hsublist, hothers⟩
    intro action haction
    exact hsilent action (List.mem_cons_of_mem _ haction)

end Traced

namespace Component
variable {F : Type} {c : Component F}

theorem Regular.silent_handlePairUpdate (h : c.Regular) {pair : Pair} {now : TimePoint}
    (hforeign : pair.owner ≠ c.owner) (hnone : c.space.uSubscribers.ids = []) :
    ∀ action ∈ (c.enter (.handle (.pairUpdate pair)) now).todo, action.silent := by
  have hempty : (c.space.addPair pair now).2.subscribers.ids = [] := by
    rw [PairSpace.addPair_subscribers, h.uniform _ hforeign]
    exact hnone
  intro action haction
  simp only [Component.enter, handle, handlePairUpdate, applyAndNotify, fanOutThen,
    fanOutUnlessEmpty, hempty] at haction
  rcases List.mem_append.mp haction with hcall | hsend
  · obtain ⟨callback, _, rfl⟩ := List.mem_map.mp hcall
    rfl
  · contradiction

theorem telling_fanOutThen {message : Message} (hupdate : message.isUpdate)
    (subscribers : SubscriberList) {unwind rest : List (Action F)}
    (hunwind : ∀ action ∈ unwind, action.telling) (hrest : ∀ action ∈ rest, action.telling) :
    ∀ action ∈ fanOutThen message subscribers unwind rest, action.telling :=
  forall_fanOutThen (fun _ => hupdate) subscribers hunwind hrest

theorem setPair_tells (c : Component F) (key value : Bytes) (type : PairType) (now : TimePoint) :
    (∀ action ∈ (c.setPair key value type now).todo, action.telling) ∧
      List.Sublist ((parcels (c.setPair key value type now).todo).map (·.1))
        (c.space.subscribersOf ⟨c.owner, key⟩).ids := by
  by_cases hready : c.ready
  · constructor
    · simp only [setPair, hready, if_true]
      refine telling_fanOutThen rfl _ ?_ ?_
      · intro action haction
        rw [List.mem_singleton.mp haction]
        rfl
      · intro action haction
        rcases List.mem_cons.mp haction with rfl | hpost
        · rfl
        · unfold notifyLocal at hpost
          split at hpost
          · contradiction
          · rw [List.mem_singleton.mp hpost]
            rfl
    · simp only [setPair, hready, if_true]
      rw [parcels_fanOutThen _ _ rfl (by simp), PairSpace.addPair_subscribers]
      split
      · rw [List.map_map]
        change List.Sublist ((c.space.subscribersOf ⟨c.owner, key⟩).ids.map id) _
        rw [List.map_id]
      · exact List.nil_sublist _
  · simp [setPair, hready, idle]

end Component

namespace Network
variable {F : Type} {net next : Network F} {cause : Nat}

theorem duty_assign (net : Network F) (owner : OwnerId) (thread : ThreadId) (call : Call F)
    (now : TimePoint) (assigned : Option Nat) (cause : Nat) :
    (net.assign owner thread ((net.nodes owner).enter thread call now) assigned).duty cause =
      Function.update (net.duty cause) (owner, thread)
        (if assigned = some cause then ((net.nodes owner).component.enter call now).todo
          else []) := by
  funext ⟨other, place⟩
  by_cases howner : other = owner
  · subst howner
    by_cases hthread : place = thread
    · subst hthread
      simp [duty, assign, setNode, Node.enter]
    · simp [duty, assign, setNode, Node.enter, hthread]
  · simp [duty, assign, setNode, howner]

theorem duty_setNode (net : Network F) (owner : OwnerId) (thread : ThreadId) {node : Node F}
    {todo : List (Action F)} (htodo : node.todo = Function.update (net.nodes owner).todo thread todo)
    (cause : Nat) :
    (net.setNode owner node).duty cause =
      Function.update (net.duty cause) (owner, thread)
        (if net.causes owner thread = some cause then todo else []) := by
  funext ⟨other, place⟩
  by_cases howner : other = owner
  · subst howner
    by_cases hthread : place = thread
    · subst hthread
      simp [duty, setNode, htodo]
    · simp [duty, setNode, htodo, hthread]
  · simp [duty, setNode, howner]

theorem spoken_append (net : Network F) (frames : List Envelope) (cause : Nat) :
    ({ net with sent := net.sent ++ frames } : Network F).spoken cause =
      net.spoken cause ++
        (frames.filter fun envelope => envelope.cause = some cause).map (·.recipient) := by
  simp only [spoken, List.filter_append, List.map_append]

theorem told_sublist (net : Network F) (cause : Nat) :
    List.Sublist (net.told cause) (net.spoken cause) := by
  apply List.Sublist.map
  have hfilter : (net.sent.filter fun envelope =>
      envelope.cause = some cause ∧ envelope.message.isUpdate) =
        (net.sent.filter fun envelope => envelope.cause = some cause).filter
          (·.message.isUpdate) := by
    rw [List.filter_filter]
    apply List.filter_congr
    intro envelope _
    simp [Bool.and_comm]
  rw [hfilter]
  exact List.filter_sublist

structure Accounted (net : Network F) : Prop where
  flight : ∀ envelope ∈ net.flight, envelope ∈ net.sent
  sent : ∀ envelope ∈ net.sent, ∀ cause, envelope.cause = some cause → cause < net.issued.length
  working : ∀ owner thread cause, net.causes owner thread = some cause →
    cause < net.issued.length
  traced : ∀ cause origin audience, net.issued[cause]? = some origin →
    origin.audience = some audience → Traced audience.ids (net.spoken cause) (net.duty cause)
  updates : ∀ cause origin audience, net.issued[cause]? = some origin →
    origin.audience = some audience → ∀ envelope ∈ net.sent, envelope.cause = some cause →
      envelope.message.isUpdate

theorem Accounted.initial : Accounted (Network.initial : Network F) := by
  refine ⟨?_, ?_, ?_, ?_, ?_⟩
  · intro envelope henvelope
    contradiction
  · intro envelope henvelope
    contradiction
  · intro owner thread cause hcause
    contradiction
  · intro cause origin audience horigin
    contradiction
  · intro cause origin audience horigin
    contradiction

theorem causes_assign {owner : OwnerId} {thread : ThreadId} {assigned : Option Nat}
    {other : OwnerId} {place : ThreadId}
    (hcause : Function.update net.causes owner (Function.update (net.causes owner) thread assigned)
      other place = some cause) :
    assigned = some cause ∨ net.causes other place = some cause := by
  rw [Function.update_apply] at hcause
  split at hcause
  · rename_i howner
    subst howner
    rw [Function.update_apply] at hcause
    split at hcause
    · exact Or.inl hcause
    · exact Or.inr hcause
  · exact Or.inr hcause

theorem traced_assign {audience : List OwnerId}
    (h : Traced audience (net.spoken cause) (net.duty cause)) {owner : OwnerId}
    {thread : ThreadId} {call : Call F} {now : TimePoint} {assigned : Option Nat}
    (hquiet : assigned = some cause →
      ∀ action ∈ ((net.nodes owner).component.enter call now).todo, action.silent) :
    Traced audience (net.spoken cause)
      ((net.assign owner thread ((net.nodes owner).enter thread call now) assigned).duty cause) := by
  rw [duty_assign]
  apply h.quiet
  split
  · rename_i hcause
    exact hquiet hcause
  · intro action haction
    contradiction

theorem Accounted.traced_issue (h : Accounted net) {owner : OwnerId} {thread : ThreadId}
    {call : Call F} {now : TimePoint} {audience : SubscriberList}
    (haudience : Origin.audience ⟨(net.nodes owner).component, call⟩ = some audience) :
    Traced audience.ids (net.spoken net.issued.length)
      ((net.assign owner thread ((net.nodes owner).enter thread call now)
        (some net.issued.length)).duty net.issued.length) := by
  have hunsaid : net.spoken net.issued.length = [] := by
    rw [spoken, List.map_eq_nil_iff, List.filter_eq_nil_iff]
    intro envelope henvelope hcause
    have hlt := h.sent envelope henvelope _ (of_decide_eq_true hcause)
    omega
  have hidle : ∀ place, net.duty net.issued.length place = [] := by
    intro place
    unfold duty
    split
    · rename_i hcause
      have hlt := h.working _ _ _ hcause
      omega
    · rfl
  rw [duty_assign, if_pos rfl, hunsaid]
  cases call with
  | setPair key value type =>
    cases Option.some.inj haudience
    obtain ⟨htelling, hsublist⟩ := (net.nodes owner).component.setPair_tells key value type now
    refine ⟨(owner, thread), ?_, ?_, ?_⟩
    · rw [Function.update_self]
      exact htelling
    · rw [Function.update_self]
      exact hsublist
    · intro other hother
      rw [Function.update_of_ne hother, hidle]
      intro action haction
      contradiction
  | _ => contradiction

theorem issued_cases {issued : List (Origin F)} {latest origin : Origin F}
    (h : (issued ++ [latest])[cause]? = some origin) :
    issued[cause]? = some origin ∨ (cause = issued.length ∧ latest = origin) := by
  rcases Nat.lt_or_ge cause issued.length with hlt | hge
  · rw [List.getElem?_append_left hlt] at h
    exact Or.inl h
  · right
    rw [List.getElem?_append_right hge, List.getElem?_singleton] at h
    split at h
    · rename_i hzero
      refine ⟨?_, Option.some.inj h⟩
      omega
    · contradiction

theorem Accounted.call (h : Accounted net) {owner : OwnerId} {thread : ThreadId} {call : Call F}
    {now : TimePoint} :
    Accounted { net.assign owner thread ((net.nodes owner).enter thread call now)
        (some net.issued.length) with
      issued := net.issued ++ [⟨(net.nodes owner).component, call⟩] } := by
  have hlength : (net.issued ++ [(⟨(net.nodes owner).component, call⟩ : Origin F)]).length =
      net.issued.length + 1 := by
    rw [List.length_append, List.length_singleton]
  refine ⟨h.flight, ?_, ?_, ?_, ?_⟩
  · intro envelope henvelope cause hcause
    have hlt := h.sent envelope henvelope cause hcause
    change cause < (net.issued ++ [_]).length
    omega
  · intro other place cause hcause
    change cause < (net.issued ++ [_]).length
    rcases causes_assign hcause with hnew | hold
    · have heq := Option.some.inj hnew
      omega
    · have hlt := h.working other place cause hold
      omega
  · intro cause origin audience horigin haudience
    change Traced audience.ids (net.spoken cause) ((net.assign owner thread
      ((net.nodes owner).enter thread call now) (some net.issued.length)).duty cause)
    rcases issued_cases horigin with hold | ⟨rfl, rfl⟩
    · apply traced_assign (h.traced cause origin audience hold haudience)
      intro hcause
      have hlt := (List.getElem?_eq_some_iff.mp hold).1
      have heq := Option.some.inj hcause
      omega
    · exact h.traced_issue haudience
  · intro cause origin audience horigin haudience envelope henvelope hcause
    rcases issued_cases horigin with hold | ⟨rfl, _⟩
    · exact h.updates cause origin audience hold haudience envelope henvelope hcause
    · have hlt := h.sent envelope henvelope _ hcause
      omega

theorem Accounted.deliver (h : Accounted net) (hsound : Sound net) {index : Nat}
    {thread : ThreadId} {now : TimePoint} {envelope : Envelope}
    (hguard : NoWildcards net (.deliver index thread now))
    (hflight : net.flight[index]? = some envelope) :
    Accounted { net.assign envelope.recipient thread
        ((net.nodes envelope.recipient).enter thread (.handle envelope.message) now)
        envelope.cause with
      flight := net.flight.eraseIdx index } := by
  have hmem : envelope ∈ net.flight := List.mem_of_getElem? hflight
  have hsent := h.flight envelope hmem
  refine ⟨?_, h.sent, ?_, ?_, h.updates⟩
  · intro other hother
    exact h.flight other (List.mem_of_mem_eraseIdx hother)
  · intro other place cause hcause
    rcases causes_assign hcause with hnew | hold
    · exact h.sent envelope hsent cause hnew
    · exact h.working other place cause hold
  · intro cause origin audience horigin haudience
    apply traced_assign (h.traced cause origin audience horigin haudience)
    intro hcause
    have hupdate := h.updates cause origin audience horigin haudience envelope hsent hcause
    have hnone := hguard envelope hflight hupdate
    cases hmessage : envelope.message with
    | pairUpdate pair =>
      have hnode := hsound.nodes envelope.recipient
      apply hnode.regular.silent_handlePairUpdate _ hnone
      rw [hnode.identity]
      apply hsound.flight envelope hmem pair.pairKey
      rw [hmessage]
      rfl
    | _ =>
      rw [hmessage] at hupdate
      contradiction

theorem spoken_outgoing (net : Network F) {owner : OwnerId} {thread : ThreadId}
    {first : Action F} {rest : List (Action F)}
    (htodo : (net.nodes owner).todo thread = first :: rest) (cause : Nat) :
    ((net.outgoing owner thread).filter fun envelope => envelope.cause = some cause).map
        (·.recipient) =
      if net.causes owner thread = some cause then
        ((net.nodes owner).component.hands first).map (·.1)
      else [] := by
  rw [net.outgoing_cons htodo]
  by_cases hcause : net.causes owner thread = some cause
  · rw [if_pos hcause, List.filter_eq_self.mpr, List.map_map]
    · rfl
    · intro envelope henvelope
      obtain ⟨parcel, _, rfl⟩ := List.mem_map.mp henvelope
      exact decide_eq_true hcause
  · rw [if_neg hcause, List.map_eq_nil_iff, List.filter_eq_nil_iff]
    intro envelope henvelope
    obtain ⟨parcel, _, rfl⟩ := List.mem_map.mp henvelope
    rw [decide_eq_true_iff]
    exact hcause

theorem Accounted.advance (h : Accounted net) {owner : OwnerId} {thread : ThreadId}
    {first : Action F} {rest : List (Action F)}
    (htodo : (net.nodes owner).todo thread = first :: rest) :
    Accounted { net.setNode owner ((net.nodes owner).advance thread first rest) with
      flight := net.flight ++ net.outgoing owner thread
      sent := net.sent ++ net.outgoing owner thread } := by
  have hhands : List.Sublist ((net.nodes owner).component.hands first)
      (Component.parcel first).toList := by
    have hsublist := (net.nodes owner).component.hands_sublist [first]
    rw [List.flatMap_singleton] at hsublist
    exact hsublist
  have hplace : ∀ cause, net.causes owner thread = some cause →
      net.duty cause (owner, thread) = first :: rest := by
    intro cause hcause
    rw [duty, if_pos hcause, htodo]
  have htelling : ∀ cause origin audience, net.issued[cause]? = some origin →
      origin.audience = some audience → net.causes owner thread = some cause → first.telling := by
    intro cause origin audience horigin haudience hcause
    have hmem : first ∈ net.duty cause (owner, thread) := by
      rw [hplace cause hcause]
      exact List.mem_cons_self
    exact (h.traced cause origin audience horigin haudience).telling first hmem
  refine ⟨?_, ?_, h.working, ?_, ?_⟩
  · intro envelope henvelope
    rcases List.mem_append.mp henvelope with hold | hnew
    · exact List.mem_append_left _ (h.flight envelope hold)
    · exact List.mem_append_right _ hnew
  · intro envelope henvelope cause hcause
    rcases List.mem_append.mp henvelope with hold | hnew
    · exact h.sent envelope hold cause hcause
    · obtain ⟨parcel, _, rfl⟩ := List.mem_map.mp hnew
      exact h.working owner thread cause hcause
  · intro cause origin audience horigin haudience
    have htraced := h.traced cause origin audience horigin haudience
    have hspoken := net.spoken_append (net.outgoing owner thread) cause
    rw [net.spoken_outgoing htodo] at hspoken
    have hduty := net.duty_setNode owner thread
      (show ((net.nodes owner).advance thread first rest).todo = _ from rfl) cause
    change Traced audience.ids (Network.spoken { net with
      sent := net.sent ++ net.outgoing owner thread } cause) ((net.setNode owner _).duty cause)
    rw [hspoken, hduty]
    split
    · rename_i hcause
      rw [Action.resume_of_telling (htelling cause origin audience horigin haudience hcause)]
      exact htraced.tell (hplace cause hcause) (hhands.map _)
    · rw [List.append_nil]
      apply htraced.quiet
      intro action haction
      contradiction
  · intro cause origin audience horigin haudience envelope henvelope hcause
    rcases List.mem_append.mp henvelope with hold | hnew
    · exact h.updates cause origin audience horigin haudience envelope hold hcause
    · rw [net.outgoing_cons htodo] at hnew
      obtain ⟨parcel, hparcel, rfl⟩ := List.mem_map.mp hnew
      exact Action.isUpdate_of_telling (htelling cause origin audience horigin haudience hcause) _
        parcel hparcel

theorem Accounted.throw (h : Accounted net) (owner : OwnerId) (thread : ThreadId) :
    Accounted (net.setNode owner { net.nodes owner with
      todo := Function.update (net.nodes owner).todo thread [] }) := by
  refine ⟨h.flight, h.sent, h.working, ?_, h.updates⟩
  intro cause origin audience horigin haudience
  have htraced := h.traced cause origin audience horigin haudience
  rw [net.duty_setNode owner thread rfl, ite_self]
  apply htraced.quiet
  intro action haction
  contradiction

theorem noEcho_of_noWildcards {action : NetworkAction F} (h : NoWildcards net action) :
    NoEcho net action := by
  cases action with
  | deliver index thread now =>
    intro envelope henvelope pair hpair hmember
    have hnone := h envelope henvelope (by rw [hpair]; rfl)
    rw [← SubscriberList.mem_ids, hnone] at hmember
    contradiction
  | _ => trivial

theorem Accounted.move {action : NetworkAction F} (h : Accounted net) (hsound : Sound net)
    (hguard : NoWildcards net action) (hmove : net.Move action next) : Accounted next := by
  cases hmove with
  | call _ _ => exact h.call
  | advance htodo => exact h.advance htodo
  | throw => exact h.throw _ _
  | deliver hflight _ => exact h.deliver hsound hguard hflight
  | lose =>
    refine ⟨?_, h.sent, h.working, h.traced, h.updates⟩
    intro envelope henvelope
    exact h.flight envelope (List.mem_of_mem_eraseIdx henvelope)

theorem Accounted.of_reach (hreach : Reach Network.step NoWildcards Network.initial net) :
    Accounted net ∧ Sound net := by
  refine hreach.invariant (I := fun net => Accounted net ∧ Sound net) ⟨.initial, .initial⟩ ?_
  rintro before action after ⟨h, hsound⟩ hguard hstep
  exact ⟨h.move hsound hguard (step_move hstep),
    hsound.move (noEcho_of_noWildcards hguard) (step_move hstep)⟩

theorem oncePerSubscriber (hreach : Reach Network.step NoWildcards Network.initial net) :
    net.OncePerSubscriber := by
  intro cause origin audience horigin haudience
  obtain ⟨teller, _, hsublist, _⟩ :=
    (Accounted.of_reach hreach).1.traced cause origin audience horigin haudience
  have htold : List.Sublist (net.told cause) audience.ids :=
    (net.told_sublist cause).trans ((List.sublist_append_left _ _).trans hsublist)
  exact ⟨audience.nodup.sublist htold, fun id hid => htold.subset hid⟩

end Network

/-- A component keeps an update of another's pair to itself exactly if it has no
wildcard subscriber it can reach; in a network in which updates are handled by
components without wildcard subscribers, a publish is told once to each
subscriber of the owner and to nobody else. -/
theorem updates_stay {F : Type} :
    (∀ (owner : OwnerId) (c : Component F),
      Reach Component.next unguarded (Component.initial owner) c →
        ∀ (pair : Pair) (now : TimePoint), pair.owner ≠ owner → (Message.pairUpdate pair).fits →
          (c.AppliesOnly pair now ↔
            ∀ subscriber ∈ c.space.uSubscribers, ¬ c.sessions.contains subscriber)) ∧
    ∀ net : Network F, Reach Network.step Network.NoWildcards Network.initial net →
      net.OncePerSubscriber := by
  constructor
  · intro owner c hreach pair now hforeign hfits
    obtain ⟨howner, hregular⟩ := Component.Regular.of_reach c hreach
    rw [← howner] at hforeign
    exact hregular.appliesOnly_iff hforeign hfits
  · intro net hreach
    exact Network.oncePerSubscriber hreach

def wildcardFree (net : Network Unit) : NetworkAction Unit → Bool
  | .deliver index _ _ =>
      match net.flight[index]? with
      | some envelope => !envelope.message.isUpdate ||
          (net.nodes envelope.recipient).component.space.uSubscribers.ids.isEmpty
      | none => true
  | _ => true

theorem noWildcards_of_wildcardFree (net : Network Unit) (action : NetworkAction Unit)
    (h : wildcardFree net action) : net.NoWildcards action := by
  cases action with
  | deliver index thread now =>
    intro envelope henvelope hupdate
    have hflight : net.flight[index]? = some envelope := henvelope
    simp only [wildcardFree, hflight, hupdate, Bool.not_true, Bool.false_or] at h
    exact List.isEmpty_iff.mp h
  | _ => trivial

/-- Component 1000 publishes to its wildcard subscriber 2000, which has none. -/
theorem updates_stay_published :
    (Component.initial 2000 : Component Unit).AppliesOnly ⟨1000, [107], [1], .string, 3, 0⟩ 4 ∧
      ∃ net : Network Unit, Reach Network.step Network.NoWildcards Network.initial net ∧
        net.told 3 = [2000] ∧ net.OncePerSubscriber := by
  constructor
  · refine (updates_stay.1 2000 _ .refl _ 4 ?_ ?_).mpr ?_
    · decide
    · rw [pairUpdate_fits_iff]
      decide
    · intro subscriber hsubscriber
      exact absurd hsubscriber (SubscriberList.not_mem_empty _)
  · have hrun : ∃ net : Network Unit,
        Reach Network.step Network.NoWildcards Network.initial net ∧ net.told 3 = [2000] := by
      refine ⟨_, Reach.of_checked noWildcards_of_wildcardFree
        (Network.acquainted ++ Network.publishing) rfl, ?_⟩
      decide
    obtain ⟨net, hreach, htold⟩ := hrun
    exact ⟨net, hreach, htold, updates_stay.2 net hreach⟩

def relaying : List (Call Unit × TimePoint) :=
  [(.addSession ⟨3000, [], []⟩, 0),
    (.handle (.subscription ⟨kWildcardKey, 2000, 3000, true⟩), 1)]

/-- An update of 1000's pair is forwarded to 3000. Between 1000 and 2000, each
subscribed to all that the other has, it goes back and forth. -/
theorem update_forwarded :
    (∃ c : Component Unit, Reach Component.next unguarded (Component.initial 2000) c ∧
      (Message.pairUpdate ⟨1000, [107], [1], .string, 3, 0⟩).fits ∧
      ¬ c.AppliesOnly ⟨1000, [107], [1], .string, 3, 0⟩ 4) ∧
    ∃ net : Network Unit, Reach Network.step unguarded Network.initial net ∧
      net.told 4 = [2000, 1000, 2000] ∧ ¬ net.OncePerSubscriber := by
  constructor
  · refine ⟨_, Reach.of_run relaying (fun _ _ _ => trivial) rfl, ?_, ?_⟩
    · rw [pairUpdate_fits_iff]
      decide
    · rintro ⟨_, _, hhands⟩
      revert hhands
      decide
  · have hrun : ∃ net : Network Unit, Reach Network.step unguarded Network.initial net ∧
        net.told 4 = [2000, 1000, 2000] ∧
        (net.issued[4]?.bind Origin.audience).map (·.ids) = some [2000] := by
      refine ⟨_, Reach.of_run (Network.bothWays ++ Network.publishing ++
        [.advance 2000 0, .deliver 0 0 6, .advance 1000 0]) (fun _ _ _ => trivial) rfl, ?_, ?_⟩
      · decide
      · decide
    obtain ⟨net, hreach, htold, haudience⟩ := hrun
    refine ⟨net, hreach, htold, ?_⟩
    intro honce
    obtain ⟨audience, hbind, _⟩ := Option.map_eq_some_iff.mp haudience
    obtain ⟨origin, horigin, hsome⟩ := Option.bind_eq_some_iff.mp hbind
    have hnodup := (honce 4 origin audience horigin hsome).1
    rw [htold] at hnodup
    revert hnodup
    decide

end Srnp
