import Srnp.MetaOwnership

/-! What becomes of a tracker's registrations. Within the life of a node nothing
a tracker registered is left behind, unless a registration was cut short by an
exception. From one node to the next a tracker must not live on: its handles
would name whatever the new node gave the same numbers to. -/
namespace Srnp
open Std LastWrite Transition HandleTable

namespace Process
variable {U : Type} (p : Process U)

def KeepsSubscription (key : PairKey) (handle : SubscriptionHandle) : Prop :=
  ∃ tracker : MetaTracker U, p.kernel.trackers[key]? = some tracker ∧
    (tracker.metaSubscription = handle ∨ tracker.targetSubscription = handle)

def KeepsCallback (key : PairKey) (handle : CallbackHandle) : Prop :=
  ∃ tracker : MetaTracker U, p.kernel.trackers[key]? = some tracker ∧
    (tracker.metaCallback = handle ∨ tracker.targetCallback = handle)

def TrackerRecord (handle : SubscriptionHandle) : Prop :=
  ∃ c record agent, p.kernel.node = some c ∧ c.subscriptions[handle]? = some record ∧
    p.subscriptionMaker handle = some (some agent, record)

def TrackerCallback (handle : CallbackHandle) : Prop :=
  ∃ c named agent, p.kernel.node = some c ∧ c.space.Runs handle named ∧
    p.callbackMaker handle = some (some agent, named)

/-- The steps of a life in which no registration of a tracker is cut short. -/
def Framing (action : ProcessAction U) : Prop := p.Orderly action ∧ p.RegistersFramed action

/-- The steps of a life in which a tracker's registrations are given up by nobody else, and
by the tracker without an exception. -/
def Minding (action : ProcessAction U) : Prop :=
  p.Orderly action ∧ p.ReleasesFramed action ∧ p.SparesRecords action ∧ p.SparesCallbacks action

variable {p}

theorem tracked_of_holder {read : MetaTracker U → Slot → UInt64}
    {trackers : ExtTreeMap PairKey (MetaTracker U)} {agent : Agent} {handle : UInt64}
    (h : holderOf read trackers agent = some handle) :
    ∃ tracker, trackers[agent.key]? = some tracker ∧ read tracker agent.slot = handle ∧
      handle ≠ 0 := by
  obtain ⟨tracker, htracked, hkept⟩ := Option.bind_eq_some_iff.mp h
  unfold kept at hkept
  split at hkept
  · contradiction
  · rename_i hne
    cases hkept
    exact ⟨tracker, htracked, rfl, hne⟩

theorem holder_of_slot (read : MetaTracker U → Slot → UInt64)
    {trackers : ExtTreeMap PairKey (MetaTracker U)} {key : PairKey} {tracker : MetaTracker U}
    (htracked : trackers[key]? = some tracker) {slot : Slot} (hne : read tracker slot ≠ 0) :
    holderOf read trackers ⟨key, slot⟩ = some (read tracker slot) :=
  (holderOf_of_tracked htracked slot).trans (kept_of_ne hne)

/-- In a covered table the handle of a live registration is kept in one slot of one tracker. -/
theorem unique_keeper {ρ : Type} (read : MetaTracker U → Slot → UInt64)
    {trackers : ExtTreeMap PairKey (MetaTracker U)} {proper : Agent → ρ → Prop}
    {t : Table UInt64 ρ Agent} (hsound : Sound proper t) (hcovered : Covered t)
    (hholder : t.holder = holderOf read trackers) {handle : UInt64} {v : ρ} {agent : Agent}
    (hlive : t.live handle = some v) (hmade : t.issued handle = some (some agent, v)) :
    ∃! key : PairKey, ∃ tracker : MetaTracker U, trackers[key]? = some tracker ∧
      (read tracker .metaPair = handle ∨ read tracker .target = handle) := by
  have hheld := hcovered handle agent v hmade (by rw [hlive]; rfl)
  have hkept := hheld
  rw [hholder] at hkept
  obtain ⟨tracker, htracked, hread, hne⟩ := tracked_of_holder hkept
  refine ⟨agent.key, ⟨tracker, htracked, ?_⟩, ?_⟩
  · cases hslot : agent.slot with
    | metaPair => exact Or.inl (hslot ▸ hread)
    | target => exact Or.inr (hslot ▸ hread)
  · rintro key ⟨other, htracked', hslot⟩
    obtain ⟨slot, hslot⟩ : ∃ slot, read other slot = handle := by
      rcases hslot with hslot | hslot
      · exact ⟨.metaPair, hslot⟩
      · exact ⟨.target, hslot⟩
    have hother : t.holder ⟨key, slot⟩ = some handle := by
      rw [hholder, holder_of_slot read htracked' (by rwa [hslot]), hslot]
    have heq := hsound.holder_inj hother hheld
    rw [← heq]

/-- Every live record and every live callback that the code of the trackers made is kept by
exactly one tracker, so when no tracker is left none of them is. -/
theorem trackers_leak_nothing (reach : Reach step Framing start p) :
    (∀ handle, p.TrackerRecord handle → ∃! key, p.KeepsSubscription key handle) ∧
    (∀ handle, p.TrackerCallback handle → ∃! key, p.KeepsCallback key handle) ∧
    ((∀ key : PairKey, p.kernel.trackers[key]? = none) →
      (∀ handle, ¬ p.TrackerRecord handle) ∧ ∀ handle, ¬ p.TrackerCallback handle) := by
  have hinvariant : p.Sane ∧ Covered p.subscriptionTable ∧ Covered p.callbackTable := by
    apply reach.invariant
    · refine ⟨.start, ?_, ?_⟩
      · intro handle agent v hissued
        contradiction
      · intro handle agent v hissued
        contradiction
    · rintro before action after ⟨hsane, hrecords, hcallbacks⟩ ⟨horderly, hframed⟩ hstep
      obtain ⟨hsane', hfirst, hsecond⟩ := hsane.step horderly hstep
      exact ⟨hsane', hrecords.events (not_not.mpr hframed) hfirst,
        hcallbacks.events not_false hsecond⟩
  obtain ⟨hsane, hrecords, hcallbacks⟩ := hinvariant
  have hfirst : ∀ handle, p.TrackerRecord handle → ∃! key, p.KeepsSubscription key handle := by
    rintro handle ⟨c, record, agent, hnode, hlive, hmade⟩
    have hlive' : p.subscriptionTable.live handle = some record := by
      rw [subscriptionTable_eq (kernel_eq hnode)]
      exact hlive
    exact unique_keeper MetaTracker.subscription hsane.subscriptions hrecords rfl hlive' hmade
  have hsecond : ∀ handle, p.TrackerCallback handle → ∃! key, p.KeepsCallback key handle := by
    rintro handle ⟨c, named, agent, hnode, hruns, hmade⟩
    exact unique_keeper MetaTracker.callback hsane.callbacks hcallbacks rfl
      ((hsane.runs_iff hnode).mp hruns) hmade
  refine ⟨hfirst, hsecond, ?_⟩
  intro hnone
  constructor
  · intro handle hrecord
    obtain ⟨key, ⟨tracker, htracked, _⟩, _⟩ := hfirst handle hrecord
    rw [hnone key] at htracked
    contradiction
  · intro handle hcallback
    obtain ⟨key, ⟨tracker, htracked, _⟩, _⟩ := hsecond handle hcallback
    rw [hnone key] at htracked
    contradiction

def oversizedKey : Bytes := List.replicate Wire.kMaxPayload 97

def welcomed : MasterMessage := ⟨1000, [⟨2000, [], []⟩]⟩

def joined : Component (Watcher Unit) := (Component.constructed.onWelcome welcomed).component

theorem unused_joined : joined.NextUnused ∅ (fun _ => none) (fun _ => none) where
  subscription_ne := by decide
  subscription := ⟨rfl, by simp [Component.subscriptionTable, holderOf]⟩
  callback_ne := by decide
  callback := ⟨rfl, by simp [Component.callbackTable, holderOf]⟩

def begun : Process Unit := { start with kernel := ⟨some joined, ∅⟩ }

theorem reach_begun {guard : Process Unit → ProcessAction Unit → Prop}
    (hguard : guard start (.initializeNode welcomed)) :
    Reach step guard start begun :=
  .tail .refl hguard rfl

theorem orderly_begun (key : PairKey) (fn : Option Unit) (now : TimePoint) :
    begun.Orderly (.registerTracker key fn now) := by
  intro c hc
  cases hc
  exact unused_joined

theorem trackers_leak_nothing_begun : ∃ p : Process Unit,
    Reach step Framing start p ∧ p.TrackerCallback 1 ∧ ∃! key, p.KeepsCallback key 1 := by
  have hreach : Reach step Framing start ((begun.step (.registerTracker ⟨5, [107]⟩ none 3)).get rfl) :=
    .tail (reach_begun ⟨trivial, trivial⟩) ⟨orderly_begun _ _ _, by
      intro _ c hc
      cases hc
      decide⟩ (Option.some_get _).symm
  have hmade : ((begun.step (.registerTracker ⟨5, [107]⟩ none 3)).get rfl).TrackerCallback 1 :=
    ⟨_, (some ⟨5, [107]⟩, .onMetaPairChanged), ⟨⟨5, [107]⟩, .metaPair⟩, rfl, rfl, rfl⟩
  exact ⟨_, hreach, hmade, (trackers_leak_nothing hreach).2.1 1 hmade⟩

theorem subscribed_joined (record : SubscriptionRecord) : joined.subscribed record = false := by
  have hrecords : joined.subscriptions = ∅ := rfl
  simp [Component.subscribed, hrecords]

theorem addressees_joined (key : Bytes) : joined.addressees ⟨2000, key⟩ = [2000] := by
  have hsessions : joined.sessions.contains 2000 = true := rfl
  have howner : (2000 : OwnerId) ≠ kAnyOwner := by decide
  simp [Component.addressees, hsessions, howner]

theorem registerThrows_joined {key : Bytes} (hkey : Wire.kMaxPayload < key.length + 13) :
    joined.registerThrows ⟨2000, key⟩ = true := by
  have hlarge : (Message.subscription ⟨key, 2000, joined.owner, true⟩).fits = false := by
    rw [Bool.eq_false_iff, ne_eq, subscription_fits_iff]
    exact Nat.not_le.mpr hkey
  rw [Component.registerThrows, subscribed_joined, Component.sendThrows, PairKey.record,
    addressees_joined]
  simp only [List.any_cons, List.any_nil, hlarge]
  rfl

theorem record_left_behind {key : Bytes} (hkey : Wire.kMaxPayload < key.length + 13) :
    ∃ p : Process Unit, Reach step (fun p action => p.Orderly action) start p ∧
      (∀ key : PairKey, p.kernel.trackers[key]? = none) ∧ p.TrackerRecord 1 := by
  have hnew := subscribed_joined (⟨2000, key⟩ : PairKey).record
  have hacquire := Held.acquireMeta_node joined { fn := none } ⟨2000, key⟩ 3
  rw [if_pos (registerThrows_joined hkey)] at hacquire
  have hresult : stateOf (Kernel.registerTracker ⟨2000, key⟩ none 3 begun.kernel) =
      ⟨some (joined.recorded ⟨2000, key⟩), ∅⟩ := by
    simp only [Kernel.registerTracker, begun, ExtTreeMap.getElem?_empty, hacquire, stateOf]
  have hkernel : begun.kernel = ⟨some joined, ∅⟩ := rfl
  have hreach : Reach step (fun p action => p.Orderly action) start _ :=
    .tail (reach_begun trivial) (orderly_begun ⟨2000, key⟩ none 3) rfl
  rw [hresult, advance_eq hkernel] at hreach
  have hfind := congrFun (Component.subscriptions_recorded hnew unused_joined.subscription.dead) 1
  have hmaker : note (some ⟨⟨2000, key⟩, .metaPair⟩) joined.nextSubscriptionHandle
      (joined.recorded ⟨2000, key⟩).nextSubscriptionHandle
      (joined.recorded ⟨2000, key⟩).subscriptions[
        (joined.recorded ⟨2000, key⟩).nextSubscriptionHandle]? begun.subscriptionMaker 1 =
        some (some ⟨⟨2000, key⟩, .metaPair⟩, ⟨2000, key⟩) := by
    rw [note_recorded _ _ unused_joined.subscription.dead, hnew]
    rfl
  exact ⟨_, hreach, by simp, _, _, _, rfl, hfind, hmaker⟩

theorem registration_cut_short : ∃ p : Process Unit,
    Reach step (fun p action => p.Orderly action) start p ∧
      (∀ key : PairKey, p.kernel.trackers[key]? = none) ∧ p.TrackerRecord 1 := by
  have hkey : Wire.kMaxPayload < oversizedKey.length + 13 := by
    rw [oversizedKey, List.length_replicate]
    omega
  exact record_left_behind hkey

/-! ### Handles and the running node -/

section
variable (p)

def OwnCallback (c : Component (Watcher U)) (agent : Agent) (handle : CallbackHandle)
    (named : Option PairKey × Watcher U) : Prop :=
  c.space.Runs handle named ∧ p.callbackMaker handle = some (some agent, named)

def OwnRecord (c : Component (Watcher U)) (agent : Agent) (handle : SubscriptionHandle)
    (record : SubscriptionRecord) : Prop :=
  c.subscriptions[handle]? = some record ∧ p.subscriptionMaker handle = some (some agent, record)

structure OwnsHandles (c : Component (Watcher U)) (key : PairKey) (tracker : MetaTracker U) :
    Prop where
  metaCallback : p.OwnCallback c ⟨key, .metaPair⟩ tracker.metaCallback
    (key.place, .onMetaPairChanged)
  targetCallback : tracker.targetCallback ≠ kInvalidCallbackHandle →
    ∃ named, p.OwnCallback c ⟨key, .target⟩ tracker.targetCallback named
  metaSubscription : tracker.metaSubscription ≠ kInvalidSubscriptionHandle →
    ∃ record, p.OwnRecord c ⟨key, .metaPair⟩ tracker.metaSubscription record
  targetSubscription : tracker.targetSubscription ≠ kInvalidSubscriptionHandle →
    ∃ record, p.OwnRecord c ⟨key, .target⟩ tracker.targetSubscription record

/-- What the node loses when `d` takes its place was registered by the tracker of the key. -/
def LosesOnly (key : PairKey) (c d : Component (Watcher U)) : Prop :=
  (∀ (handle : SubscriptionHandle) (record : SubscriptionRecord),
    c.subscriptions[handle]? = some record → d.subscriptions[handle]? ≠ some record →
      ∃ slot, p.subscriptionMaker handle = some (some ⟨key, slot⟩, record)) ∧
  ∀ handle named, c.space.Runs handle named → ¬ d.space.Runs handle named →
    ∃ slot, p.callbackMaker handle = some (some ⟨key, slot⟩, named)

end

theorem own_of_live {ρ : Type} {proper : Agent → ρ → Prop} {t : Table UInt64 ρ Agent}
    (hsound : Sound proper t) {agent : Agent} {handle : UInt64}
    (hheld : t.holder agent = some handle) (hlive : (t.live handle).isSome) :
    ∃ v, t.live handle = some v ∧ t.issued handle = some (some agent, v) ∧ proper agent v := by
  obtain ⟨v, hv⟩ := Option.isSome_iff_exists.mp hlive
  obtain ⟨w, hw, hproper⟩ := hsound.made agent handle hheld
  obtain ⟨to_, hissued⟩ := hsound.issued handle v hv
  rw [hw] at hissued
  cases hissued
  exact ⟨v, hv, hw, hproper⟩

structure Current (p : Process U) : Prop where
  sane : p.Sane
  subscriptions : Alive p.subscriptionTable
  callbacks : Alive p.callbackTable

theorem Current.owns (h : Current p) {c : Component (Watcher U)}
    (hnode : p.kernel.node = some c) {key : PairKey} {tracker : MetaTracker U}
    (htracked : p.kernel.trackers[key]? = some tracker) : p.OwnsHandles c key tracker := by
  have hfiled := h.sane.filed c hnode
  have hcallback : ∀ slot, tracker.callback slot ≠ 0 → ∃ named,
      p.OwnCallback c ⟨key, slot⟩ (tracker.callback slot) named ∧
        ProperCallback ⟨key, slot⟩ named := by
    intro slot hne
    have hheld := holder_of_slot MetaTracker.callback htracked hne
    obtain ⟨named, hlive, hmade, hproper⟩ :=
      own_of_live h.sane.callbacks hheld (h.callbacks _ _ hheld)
    exact ⟨named, ⟨(h.sane.runs_iff hnode).mpr hlive, hmade⟩, hproper⟩
  have hrecord : ∀ slot, tracker.subscription slot ≠ 0 → ∃ record,
      p.OwnRecord c ⟨key, slot⟩ (tracker.subscription slot) record := by
    intro slot hne
    have hheld := holder_of_slot MetaTracker.subscription htracked hne
    obtain ⟨record, hlive, hmade, _⟩ :=
      own_of_live h.sane.subscriptions hheld (h.subscriptions _ _ hheld)
    rw [subscriptionTable_eq (kernel_eq hnode)] at hlive
    exact ⟨record, hlive, hmade⟩
  constructor
  · obtain ⟨named, hown, hproper⟩ := hcallback .metaPair (h.sane.watching key tracker htracked)
    rw [hproper rfl] at hown
    exact hown
  · intro hne
    obtain ⟨named, hown, _⟩ := hcallback .target hne
    exact ⟨named, hown⟩
  · exact hrecord .metaPair
  · exact hrecord .target

theorem Current.reach (reach : Reach step Minding start p) : Current p := by
  apply reach.invariant
  · refine ⟨.start, ?_, ?_⟩
    · intro agent handle hheld
      simp [subscriptionTable, Process.start, holderOf] at hheld
    · intro agent handle hheld
      simp [callbackTable, Process.start, holderOf] at hheld
  · rintro before action after ⟨hsane, hrecords, hcallbacks⟩ hminding hstep
    obtain ⟨horderly, hframed, hspared, hspared'⟩ := hminding
    obtain ⟨hsane', hfirst, hsecond⟩ := hsane.step horderly hstep
    exact ⟨hsane', hrecords.events hsane.subscriptions (not_not.mpr hframed)
      (not_not.mpr hspared) hfirst, hcallbacks.events hsane.callbacks not_false
      (not_not.mpr hspared') hsecond⟩

theorem Sane.aliveOn_step {q : Process U} {slot : Slot} (hsane : p.Sane)
    (halive : AliveOn (fun agent => agent.slot = slot) p.callbackTable) {action : ProcessAction U}
    (horderly : p.Orderly action)
    (hspared : ∀ handle now, action = .call (.cancelCallback handle) now →
      ∀ key, p.callbackTable.holder ⟨key, slot⟩ ≠ some handle)
    (hstep : p.step action = some q) :
    AliveOn (fun agent => agent.slot = slot) q.callbackTable := by
  by_cases hspares : p.SparesCallbacks action
  · exact halive.events hsane.callbacks not_false (not_not.mpr hspares)
      (hsane.step horderly hstep).callbacks
  · cases action with
    | call call now =>
      simp only [SparesCallbacks, not_forall] at hspares
      obtain ⟨handle, rfl, _⟩ := hspares
      simp only [Process.step, Call.byUser, if_true] at hstep
      cases hnode : p.kernel.node with
      | none =>
        rw [hnode] at hstep
        cases hstep
        exact halive
      | some c =>
        rw [hnode] at hstep
        rw [← Option.some.inj hstep, advance_eq (kernel_eq hnode)]
        have hgone := (hsane.filed c hnode).callbackAt_removeCallback handle
        rintro ⟨key, role⟩ other hslot hheld
        cases hslot
        have hlive := halive ⟨key, role⟩ other rfl hheld
        have hne : other ≠ handle := by
          rintro rfl
          exact hspared _ now rfl key hheld
        rw [callbackTable_eq (kernel_eq hnode)] at hlive
        change ((c.space.removeCallback handle).callbackAt other).isSome
        rw [hgone, Function.update_of_ne hne]
        exact hlive
    | _ => exact absurd trivial hspares

section
variable {c d e : Component (Watcher U)} {key : PairKey} {tracker : MetaTracker U}

theorem LosesOnly.refl : p.LosesOnly key c c :=
  ⟨fun _ _ hlive hgone => absurd hlive hgone, fun _ _ hruns hgone => absurd hruns hgone⟩

theorem LosesOnly.trans (first : p.LosesOnly key c e) (second : p.LosesOnly key e d) :
    p.LosesOnly key c d := by
  constructor
  · intro handle record hlive hgone
    by_cases hstill : e.subscriptions[handle]? = some record
    · exact second.1 handle record hstill hgone
    · exact first.1 handle record hlive hstill
  · intro handle named hruns hgone
    by_cases hstill : e.space.Runs handle named
    · exact second.2 handle named hstill hgone
    · exact first.2 handle named hruns hstill

theorem LosesOnly.cancelSubscription {handle : SubscriptionHandle}
    (hmade : ∀ record, c.subscriptions[handle]? = some record →
      ∃ slot, p.subscriptionMaker handle = some (some ⟨key, slot⟩, record)) :
    p.LosesOnly key c (c.cancelSubscriptionHandle handle).component := by
  constructor
  · intro other record hlive hgone
    have hafter := congrFun (c.subscriptions_cancelSubscriptionHandle handle) other
    by_cases heq : other = handle
    · subst heq
      exact hmade record hlive
    · rw [Function.update_of_ne heq] at hafter
      exact absurd (hafter.trans hlive) hgone
  · intro other named hruns hgone
    rw [c.space_cancelSubscriptionHandle handle] at hgone
    exact absurd hruns hgone

theorem LosesOnly.cancelCallback (hfiled : c.space.Filed) {handle : CallbackHandle}
    (hmade : ∀ named, c.space.Runs handle named →
      ∃ slot, p.callbackMaker handle = some (some ⟨key, slot⟩, named)) :
    p.LosesOnly key c (c.cancelCallback handle).component := by
  refine ⟨fun _ _ hlive hgone => absurd hlive hgone, ?_⟩
  intro other named hruns hgone
  by_cases heq : other = handle
  · subst heq
    exact hmade named hruns
  · have hstill : (c.space.removeCallback handle).callbackAt other = some named := by
      rw [hfiled.callbackAt_removeCallback, Function.update_of_ne heq]
      exact hfiled.runs_iff.mp hruns
    exact absurd ((hfiled.removeCallback handle).runs_iff.mpr hstill) hgone

theorem OwnRecord.made {agent : Agent} {handle : SubscriptionHandle}
    {record found : SubscriptionRecord} (h : p.OwnRecord c agent handle record)
    (hfound : c.subscriptions[handle]? = some found) :
    p.subscriptionMaker handle = some (some agent, found) := by
  rw [h.1] at hfound
  cases hfound
  exact h.2

theorem OwnCallback.made (hfiled : c.space.Filed) {agent : Agent} {handle : CallbackHandle}
    {named found : Option PairKey × Watcher U} (h : p.OwnCallback c agent handle named)
    (hfound : c.space.Runs handle found) : p.callbackMaker handle = some (some agent, found) := by
  have hfirst := hfiled.runs_iff.mp h.1
  rw [hfiled.runs_iff.mp hfound] at hfirst
  cases hfirst
  exact h.2

theorem OwnsHandles.released (h : p.OwnsHandles c key tracker) (hfiled : c.space.Filed) :
    p.LosesOnly key c (c.released tracker) := by
  have hcallback : p.LosesOnly key c
      (if tracker.targetCallback = kInvalidCallbackHandle then c
        else (c.cancelCallback tracker.targetCallback).component) := by
    split
    · exact .refl
    · rename_i hne
      obtain ⟨named, hown⟩ := h.targetCallback hne
      exact .cancelCallback hfiled fun found hfound => ⟨_, hown.made hfiled hfound⟩
  unfold Component.released
  dsimp only
  by_cases hne : tracker.targetSubscription = kInvalidSubscriptionHandle
  · rw [if_pos hne]
    exact hcallback
  · rw [if_neg hne]
    obtain ⟨record, hown⟩ := h.targetSubscription hne
    apply hcallback.trans
    apply LosesOnly.cancelSubscription
    intro found hfound
    refine ⟨.target, hown.made ?_⟩
    split at hfound
    · exact hfound
    · exact hfound

theorem OwnsHandles.cancelled (h : p.OwnsHandles c key tracker) (hfiled : c.space.Filed)
    (hzero : c.subscriptions[kInvalidSubscriptionHandle]? = none) :
    p.LosesOnly key c
      ((c.released tracker).cancelSubscriptionHandle tracker.metaSubscription).component ∧
    p.LosesOnly key c (((c.released tracker).cancelSubscriptionHandle
      tracker.metaSubscription).component.cancelCallback tracker.metaCallback).component := by
  have hreleased := h.released hfiled
  have hfiled' := Component.filed_released tracker hfiled
  have hrecord : p.LosesOnly key c
      ((c.released tracker).cancelSubscriptionHandle tracker.metaSubscription).component := by
    apply hreleased.trans
    apply LosesOnly.cancelSubscription
    intro found hfound
    have hlive := congrFun (c.subscriptions_released tracker) tracker.metaSubscription
    have hbefore : c.subscriptions[tracker.metaSubscription]? = some found := by
      rw [hfound] at hlive
      split at hlive
      · exact hlive.symm
      · exact live_of_update hlive.symm
    have hne : tracker.metaSubscription ≠ kInvalidSubscriptionHandle := by
      intro hnone
      rw [hnone, hzero] at hbefore
      contradiction
    obtain ⟨record, hown⟩ := h.metaSubscription hne
    exact ⟨.metaPair, hown.made hbefore⟩
  have hspace := (c.released tracker).space_cancelSubscriptionHandle tracker.metaSubscription
  refine ⟨hrecord, hrecord.trans (.cancelCallback ?_ ?_)⟩
  · rw [hspace]
    exact hfiled'
  · intro named hruns
    rw [hspace, hfiled'.runs_iff, Component.space_released] at hruns
    have hbefore : c.space.Runs tracker.metaCallback named := by
      rw [hfiled.runs_iff]
      split at hruns
      · exact hruns
      · rw [hfiled.callbackAt_removeCallback] at hruns
        exact live_of_update hruns
    exact ⟨.metaPair, h.metaCallback.made hfiled hbefore⟩

theorem registerTracker_tracks {fn : Option U} {now : TimePoint} {kernel after : Kernel U}
    (h : Kernel.registerTracker key fn now kernel = .ok () after) :
    ∃ tracker : MetaTracker U, after.trackers[key]? = some tracker := by
  unfold Kernel.registerTracker at h
  split at h
  · cases h
    exact ⟨_, ExtTreeMap.getElem?_insert_self⟩
  · split at h
    · cases h
      exact ⟨_, ExtTreeMap.getElem?_insert_self⟩
    · contradiction

theorem Current.cancel_loses (h : Current p) (hnode : p.kernel.node = some c)
    (hafter : (stateOf (Kernel.cancelMetaCallback key p.kernel)).node = some d) :
    p.LosesOnly key c d := by
  have hfiled := h.sane.filed c hnode
  have hzero := h.sane.zero c hnode
  obtain ⟨e, after, hresult, huntracks⟩ := Kernel.cancelMetaCallback_outcome hnode key
  rw [hresult] at hafter
  cases hafter
  cases huntracks with
  | untracked => exact .refl
  | keepsTarget htracked => exact (h.owns hnode htracked).released hfiled
  | keepsMeta htracked => exact ((h.owns hnode htracked).cancelled hfiled hzero).1
  | forgotten htracked => exact ((h.owns hnode htracked).cancelled hfiled hzero).2

/-- The handles of every tracker name what this tracker registered at the running node;
registering takes effect, and cancelling takes away the tracker's own registrations only. -/
theorem tracker_handles_current (reach : Reach step Minding start p)
    (hnode : p.kernel.node = some c) :
    (∀ (key : PairKey) (tracker : MetaTracker U), p.kernel.trackers[key]? = some tracker →
      p.OwnsHandles c key tracker) ∧
    (∀ key fn now kernel, p.Orderly (.registerTracker key fn now) →
      Kernel.registerTracker key fn now p.kernel = .ok () kernel →
      ∃ (d : Component (Watcher U)) (tracker : MetaTracker U), kernel.node = some d ∧
        kernel.trackers[key]? = some tracker ∧
          d.space.Runs tracker.metaCallback (key.place, .onMetaPairChanged)) ∧
    ∀ key d, (stateOf (Kernel.cancelMetaCallback key p.kernel)).node = some d →
      p.LosesOnly key c d := by
  have hcurrent := Current.reach reach
  refine ⟨fun key tracker htracked => hcurrent.owns hnode htracked, ?_,
    fun key d hafter => hcurrent.cancel_loses hnode hafter⟩
  intro key fn now kernel horderly hresult
  have hstep : p.step (.registerTracker key fn now) =
      some (p.advance (some ⟨key, .metaPair⟩) kernel) := by
    simp only [step, hresult, stateOf]
  have hnext := Current.reach (reach.tail ⟨horderly, trivial, trivial, trivial⟩ hstep)
  obtain ⟨tracker, htracked⟩ := registerTracker_tracks hresult
  have hkernel : (p.advance (some ⟨key, .metaPair⟩) kernel).kernel = kernel := advance_kernel _ _
  cases hd : kernel.node with
  | none =>
    have hidle := hnext.sane.idle (by rw [hkernel, hd]) key
    rw [hkernel, htracked] at hidle
    contradiction
  | some d =>
    have hnode' : (p.advance (some ⟨key, .metaPair⟩) kernel).kernel.node = some d := by
      rw [hkernel, hd]
    rw [← hkernel] at htracked
    have howns := hnext.owns hnode' htracked
    rw [hkernel] at htracked
    exact ⟨d, tracker, rfl, htracked, howns.metaCallback.1⟩

end

theorem tracker_handles_current_begun : ∃ (p : Process Unit) (c : Component (Watcher Unit))
    (tracker : MetaTracker Unit), Reach step Minding start p ∧ p.kernel.node = some c ∧
      p.kernel.trackers[(⟨5, [107]⟩ : PairKey)]? = some tracker ∧
        p.OwnsHandles c ⟨5, [107]⟩ tracker := by
  have hreach : Reach step Minding start ((begun.step (.registerTracker ⟨5, [107]⟩ none 3)).get rfl) :=
    .tail (reach_begun ⟨trivial, trivial, trivial, trivial⟩)
      ⟨orderly_begun _ _ _, trivial, trivial, trivial⟩
      (Option.some_get _).symm
  exact ⟨_, _, _, hreach, rfl, rfl, (tracker_handles_current hreach rfl).1 ⟨5, [107]⟩ _ rfl⟩

/-- A meta-pair is tracked, the node restarted, and a callback registered at the new node. -/
def restarted : List (ProcessAction Unit) :=
  [.initializeNode welcomed, .registerTracker ⟨5, [107]⟩ none 3, .shutdown,
    .initializeNode welcomed, .call (.registerCallback 5 [108] (.user ())) 4]

/-- The tracker keeps the number of its callback at the old node. At the new one the number names
the user's callback, and cancelling the tracker takes that away. -/
theorem handles_outlive_node : ∃ (p : Process Unit) (c d : Component (Watcher Unit))
    (tracker : MetaTracker Unit), Reach step unguarded start p ∧ p.kernel.node = some c ∧
      p.kernel.trackers[(⟨5, [107]⟩ : PairKey)]? = some tracker ∧
      ¬ p.OwnsHandles c ⟨5, [107]⟩ tracker ∧
      (stateOf (Kernel.cancelMetaCallback ⟨5, [107]⟩ p.kernel)).node = some d ∧
      ¬ p.LosesOnly ⟨5, [107]⟩ c d := by
  refine ⟨_, _, _, _, Reach.of_run restarted (fun _ _ _ => trivial) rfl, rfl, rfl, ?_, rfl, ?_⟩
  · intro howns
    have hmade := howns.metaCallback.2
    change some (none, some (⟨5, [108]⟩ : PairKey), Watcher.user ()) = some (some _, _) at hmade
    cases hmade
  · intro hloses
    obtain ⟨slot, hmade⟩ := hloses.2 1 (some ⟨5, [108]⟩, .user ()) rfl (by
      intro hruns
      change none = some _ at hruns
      contradiction)
    change some (none, some (⟨5, [108]⟩ : PairKey), Watcher.user ()) = some (some _, _) at hmade
    cases hmade

end Process

end Srnp
