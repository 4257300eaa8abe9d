import Srnp.Departure

/-! The subscriptions a client holds and the lists its frames lead to. The
client keeps a record for each subscription; the owner at the other end keeps
one list for each pair and one for everything. A frame says which key it is
about and not which record it comes from, so cancelling one of two records that
overlap takes the other one's place in the list away too. -/
namespace Srnp
open Std LastWrite Transition

namespace SubscriptionRecord
variable (record : SubscriptionRecord)

def Matches (owner : OwnerId) : Prop := record.owner = kAnyOwner ∨ record.owner = owner

def Covers (owner : OwnerId) (key : Bytes) : Prop :=
  record.Matches owner ∧ (record.key = key ∨ record.key = kWildcardKey)

def Overlaps (other : SubscriptionRecord) : Prop :=
  record.key = other.key ∨ record.key = kWildcardKey ∨ other.key = kWildcardKey

instance (owner : OwnerId) : Decidable (record.Matches owner) :=
  inferInstanceAs (Decidable (_ ∨ _))

instance (other : SubscriptionRecord) : Decidable (record.Overlaps other) :=
  inferInstanceAs (Decidable (_ ∨ _ ∨ _))

end SubscriptionRecord

namespace Component
variable {F : Type} (c : Component F)

def Live (record : SubscriptionRecord) : Prop := ∃ handle : SubscriptionHandle,
  c.subscriptions[handle]? = some record

def resolved : Action F → List (Action F)
  | .sendAll key registering => c.sendsToAll key registering
  | action => [action]

/-- The frames for one component that a call has sent when it returns, with no
other call in between. -/
def sentTo (owner : OwnerId) (entered : Entered F) : List Message :=
  entered.component.framesFor owner (entered.todo.flatMap entered.component.resolved)

end Component

/-- A client, the frames on their way to the server of one other component, and
that component. -/
structure SubscriptionRun (F : Type) where
  client : Component F
  channel : List Message
  owner : Component F

inductive SubscriptionAction (F : Type) where
  | register (owner : OwnerId) (key : Bytes)
  | cancel (owner : OwnerId) (key : Bytes)
  | cancelHandle (handle : SubscriptionHandle)
  | deliver (now : TimePoint)
  | atOwner (call : Call F) (now : TimePoint)

def Call.subscriber {F : Type} : Call F → Option OwnerId
  | .handle (.subscription message) => some message.subscriber
  | _ => none

namespace SubscriptionRun
variable {F : Type}

def start (client owner : Component F) : SubscriptionRun F := ⟨client, [], owner⟩

def atClient (run : SubscriptionRun F) (entered : Entered F) : SubscriptionRun F :=
  { run with
    client := entered.component
    channel := run.channel ++ Component.sentTo run.owner.owner entered }

/-- Subscription frames of the client come by the channel and no other way. -/
def step (run : SubscriptionRun F) : SubscriptionAction F → Option (SubscriptionRun F)
  | .register owner key => some (run.atClient (run.client.registerSubscription owner key))
  | .cancel owner key => some (run.atClient (run.client.cancelSubscription owner key))
  | .cancelHandle handle => some (run.atClient (run.client.cancelSubscriptionHandle handle))
  | .deliver now =>
      match run.channel with
      | [] => none
      | message :: rest => some { run with
          channel := rest, owner := (run.owner.enter (.handle message) now).component }
  | .atOwner call now =>
      if call.subscriber = some run.client.owner then none
      else some { run with owner := (run.owner.enter call now).component }

/-- No other live record for this owner overlaps the record under `handle`. -/
def Separate (run : SubscriptionRun F) (handle : SubscriptionHandle) : Prop :=
  ∀ record, run.client.subscriptions[handle]? = some record → record.Matches run.owner.owner →
    ∀ (other : SubscriptionHandle) (others : SubscriptionRecord), other ≠ handle →
      run.client.subscriptions[other]? = some others → others.Matches run.owner.owner →
        ¬ record.Overlaps others

/-- A new record is filed and its frame can be built; a cancelled one overlaps
no other. -/
def Independent (run : SubscriptionRun F) : SubscriptionAction F → Prop
  | .register owner key => ¬ run.client.Live ⟨owner, key⟩ →
      run.client.nextSubscriptionHandle + 1 ∉ run.client.subscriptions ∧
        ((⟨owner, key⟩ : SubscriptionRecord).Matches run.owner.owner →
          key.length + 13 ≤ Wire.kMaxPayload)
  | .cancel owner key => ∀ handle : SubscriptionHandle,
      run.client.subscriptions[handle]? = some ⟨owner, key⟩ → run.Separate handle
  | .cancelHandle handle => run.Separate handle
  | _ => True

/-- The client is listed for the pairs its live records cover and for no others. -/
def Agrees (run : SubscriptionRun F) : Prop :=
  ∀ key entry, run.owner.space.find ⟨run.owner.owner, key⟩ = some entry →
    (run.client.owner ∈ entry.subscribers ↔
      ∃ record, run.client.Live record ∧ record.Covers run.owner.owner key)

end SubscriptionRun

/-! ### What the calls of the client do to its records -/

namespace Component
variable {F : Type} {c : Component F}

theorem live_iff_any {record : SubscriptionRecord} :
    c.Live record ↔ c.subscriptions.toList.any fun entry => entry.2 = record := by
  rw [List.any_eq_true]
  constructor
  · rintro ⟨handle, hfind⟩
    exact ⟨(handle, record), ExtTreeMap.mem_toList_iff_getElem?_eq_some.mpr hfind, by simp⟩
  · rintro ⟨⟨handle, found⟩, hmem, hrecord⟩
    cases of_decide_eq_true hrecord
    exact ⟨handle, ExtTreeMap.mem_toList_iff_getElem?_eq_some.mp hmem⟩

theorem live_insert {handle : SubscriptionHandle} (hfresh : handle ∉ c.subscriptions)
    {added record : SubscriptionRecord} :
    Live { c with subscriptions := c.subscriptions.insertIfNew handle added } record ↔
      c.Live record ∨ record = added := by
  simp only [Live, ExtTreeMap.getElem?_insertIfNew, LawfulEqOrd.compare_eq_iff_eq]
  constructor
  · rintro ⟨other, hfind⟩
    split at hfind
    · exact Or.inr (Option.some.inj hfind).symm
    · exact Or.inl ⟨other, hfind⟩
  · rintro (⟨other, hfind⟩ | rfl)
    · refine ⟨other, ?_⟩
      rw [if_neg ?_]
      · exact hfind
      · rintro ⟨rfl, _⟩
        exact hfresh (ExtTreeMap.getElem?_eq_some_iff.mp hfind).1
    · refine ⟨handle, ?_⟩
      rw [if_pos ⟨rfl, hfresh⟩]

theorem live_erase {handle : SubscriptionHandle} {record : SubscriptionRecord} :
    Live { c with subscriptions := c.subscriptions.erase handle } record ↔
      ∃ other : SubscriptionHandle, other ≠ handle ∧ c.subscriptions[other]? = some record := by
  simp only [Live, ExtTreeMap.getElem?_erase, LawfulEqOrd.compare_eq_iff_eq]
  constructor
  · rintro ⟨other, hfind⟩
    split at hfind
    · contradiction
    · rename_i hne
      exact ⟨other, Ne.symm hne, hfind⟩
  · rintro ⟨other, hne, hfind⟩
    exact ⟨other, by rw [if_neg (Ne.symm hne), hfind]⟩

/-! ### The frames of a subscription call -/

theorem filter_sessions {owner : OwnerId} {session : Nat}
    (h : c.sessions[owner]? = some session) :
    c.sessions.toList.filter (fun entry => entry.1 = owner) = [(owner, session)] := by
  have hmem := ExtTreeMap.mem_toList_iff_getElem?_eq_some.mpr h
  have hnodup : c.sessions.toList.Nodup := by
    refine (ExtTreeMap.distinct_keys_toList (t := c.sessions)).imp ?_
    rintro first second hne rfl
    exact hne ReflOrd.compare_self
  have hsame : c.sessions.toList.filter (fun entry => entry.1 = owner) =
      c.sessions.toList.filter (· == (owner, session)) := by
    apply List.filter_congr
    rintro ⟨other, number⟩ hother
    have hfind := ExtTreeMap.mem_toList_iff_getElem?_eq_some.mp hother
    rw [Bool.eq_iff_iff, decide_eq_true_iff, beq_iff_eq, Prod.mk.injEq]
    constructor
    · rintro rfl
      exact ⟨rfl, Option.some.inj (hfind.symm.trans h)⟩
    · exact fun heq => heq.1
  rw [hsame, List.filter_beq, List.count_eq_one_of_mem hnodup hmem]
  rfl

theorem fits_of_length {message : Subscription}
    (h : message.key.length + 13 ≤ Wire.kMaxPayload) : (Message.subscription message).fits :=
  (subscription_fits_iff message).mpr h

theorem hands_sendsToAll {key : Bytes} (hfits : key.length + 13 ≤ Wire.kMaxPayload)
    (registering : Bool) :
    (c.sendsToAll key registering).flatMap c.hands = c.sessions.toList.map fun session =>
      (session.1, .subscription ⟨key, session.1, c.owner, registering⟩) := by
  have hall : c.sessions.toList.takeWhile (fun session =>
      (Message.subscription ⟨key, session.1, c.owner, registering⟩).fits) =
      c.sessions.toList := by
    rw [List.takeWhile_eq_self_iff]
    intro session _
    exact fits_of_length hfits
  simp only [sendsToAll, hall]
  rw [List.flatMap_map, List.map_eq_flatMap]
  apply List.flatMap_congr
  intro session hsession
  have hfind := ExtTreeMap.mem_toList_iff_getElem?_eq_some.mp hsession
  simp [hands, hfind]

theorem sentTo_sendSubscription {owner : OwnerId} (hsession : c.sessions.contains owner)
    {record : SubscriptionRecord}
    (hfits : record.Matches owner → record.key.length + 13 ≤ Wire.kMaxPayload)
    (registering : Bool) :
    sentTo owner (c.sendSubscription record.owner record.key registering) =
      if record.Matches owner then
        [.subscription ⟨record.key, owner, c.owner, registering⟩] else [] := by
  unfold sentTo sendSubscription
  by_cases hany : record.owner = kAnyOwner
  · have hmatches : record.Matches owner := Or.inl hany
    obtain ⟨session, hfind⟩ : ∃ session, c.sessions[owner]? = some session := by
      rw [← Option.isSome_iff_exists, ← ExtTreeMap.mem_iff_isSome_getElem?]
      exact hsession
    rw [if_neg (not_not.mpr hany), if_pos hmatches]
    simp only [List.flatMap_cons, List.flatMap_nil, List.append_nil, resolved, framesFor]
    rw [hands_sendsToAll (hfits hmatches), List.filter_map]
    change ((c.sessions.toList.filter fun entry => decide (entry.1 = owner)).map _).map _ = _
    rw [filter_sessions hfind]
    rfl
  · rw [if_pos hany, sendTo]
    by_cases hown : record.owner = owner
    · have hmatches : record.Matches owner := Or.inr hown
      have hframe : (Message.subscription
          ⟨record.key, record.owner, c.owner, registering⟩).fits :=
        fits_of_length (hfits hmatches)
      rw [if_pos hmatches, if_pos hframe, hown]
      simp [resolved, framesFor, hands, hsession]
    · have hother : ¬ record.Matches owner := by
        rintro (h | h)
        · exact hany h
        · exact hown h
      rw [if_neg hother]
      split
      · simp only [List.flatMap_cons, List.flatMap_nil, List.append_nil, resolved, framesFor, hands]
        split <;> simp [hown]
      · rfl

/-! ### Records and lists -/

/-- A standing that says of every pair of `owner` what the live records say. -/
structure Reflects (c : Component F) (owner : OwnerId) (standing : Standing) : Prop where
  universal : standing.universal = true ↔
    ∃ record, c.Live record ∧ record.Matches owner ∧ record.key = kWildcardKey
  listed : ∀ key, standing.listed ⟨owner, key⟩ = true ↔
    ∃ record, c.Live record ∧ record.Covers owner key

variable {owner : OwnerId} {standing : Standing}

theorem Reflects.congr {d : Component F} (h : c.Reflects owner standing)
    (hlive : ∀ record, record.Matches owner → (d.Live record ↔ c.Live record)) :
    d.Reflects owner standing := by
  constructor
  · rw [h.universal]
    apply exists_congr
    intro record
    exact and_congr_left fun hmatches => (hlive record hmatches.1).symm
  · intro key
    rw [h.listed]
    apply exists_congr
    intro record
    exact and_congr_left fun hcovers => (hlive record hcovers.1).symm

theorem Reflects.register {d : Component F} (h : c.Reflects owner standing)
    {added : SubscriptionRecord} (hmatches : added.Matches owner)
    (hlive : ∀ record, d.Live record ↔ c.Live record ∨ record = added) (subscriber : OwnerId) :
    d.Reflects owner (standing.apply ⟨added.key, owner, subscriber, true⟩) := by
  have hadded := (hlive added).mpr (Or.inr rfl)
  by_cases hwildcard : added.key = kWildcardKey
  · simp only [Standing.apply, if_true, if_pos hwildcard]
    constructor
    · exact ⟨fun _ => ⟨added, hadded, hmatches, hwildcard⟩, fun _ => rfl⟩
    · intro key
      exact ⟨fun _ => ⟨added, hadded, hmatches, Or.inr hwildcard⟩, fun _ => rfl⟩
  · simp only [Standing.apply, if_true, if_neg hwildcard]
    constructor
    · rw [h.universal]
      constructor
      · rintro ⟨record, hrecord, hof⟩
        exact ⟨record, (hlive record).mpr (Or.inl hrecord), hof⟩
      · rintro ⟨record, hrecord, hof⟩
        rcases (hlive record).mp hrecord with hold | rfl
        · exact ⟨record, hold, hof⟩
        · exact absurd hof.2 hwildcard
    · intro key
      rw [Bool.or_eq_true, h.listed, decide_eq_true_iff, PairKey.mk.injEq]
      constructor
      · rintro (⟨_, rfl⟩ | ⟨record, hrecord, hof⟩)
        · exact ⟨added, hadded, hmatches, Or.inl rfl⟩
        · exact ⟨record, (hlive record).mpr (Or.inl hrecord), hof⟩
      · rintro ⟨record, hrecord, hof⟩
        rcases (hlive record).mp hrecord with hold | rfl
        · exact Or.inr ⟨record, hold, hof⟩
        · rcases hof.2 with rfl | h'
          · exact Or.inl ⟨rfl, rfl⟩
          · exact absurd h' hwildcard

/-- Cancelling a record that overlaps no other takes away what it stood for and
nothing else. -/
theorem Reflects.cancel {d : Component F} (h : c.Reflects owner standing)
    {ended : SubscriptionRecord} (hmatches : ended.Matches owner)
    (hlive : ∀ record, d.Live record → c.Live record ∧
      (record.Matches owner → ¬ ended.Overlaps record))
    (hkept : ∀ record, c.Live record → record ≠ ended → d.Live record) (subscriber : OwnerId) :
    standing.Allows ⟨ended.key, owner, subscriber, false⟩ ∧
      d.Reflects owner (standing.apply ⟨ended.key, owner, subscriber, false⟩) := by
  by_cases hwildcard : ended.key = kWildcardKey
  · refine ⟨fun _ hexact => absurd hwildcard hexact, ?_⟩
    simp only [Standing.apply, if_pos hwildcard]
    have hgone : ∀ record, d.Live record → ¬ record.Matches owner := by
      intro record hrecord hof
      exact (hlive record hrecord).2 hof (Or.inr (Or.inl hwildcard))
    constructor
    · constructor
      · intro hfalse
        contradiction
      · rintro ⟨record, hrecord, hof, _⟩
        exact absurd hof (hgone record hrecord)
    · intro key
      constructor
      · intro hfalse
        contradiction
      · rintro ⟨record, hrecord, hof, _⟩
        exact absurd hof (hgone record hrecord)
  · have hexact : ∀ record, d.Live record → record.Matches owner →
        record.key ≠ kWildcardKey ∧ record.key ≠ ended.key := by
      intro record hrecord hof
      have hsep := (hlive record hrecord).2 hof
      exact ⟨fun heq => hsep (Or.inr (Or.inr heq)), fun heq => hsep (Or.inl heq.symm)⟩
    have huniversal : standing.universal = false := by
      rw [← Bool.not_eq_true, h.universal]
      rintro ⟨record, hrecord, hof, hall⟩
      have hne : record ≠ ended := by
        rintro rfl
        exact hwildcard hall
      exact (hexact record (hkept record hrecord hne) hof).1 hall
    refine ⟨fun _ _ => huniversal, ?_⟩
    simp only [Standing.apply, Bool.false_eq_true, if_false, if_neg hwildcard]
    constructor
    · constructor
      · intro htrue
        rw [huniversal] at htrue
        contradiction
      · rintro ⟨record, hrecord, hof, hall⟩
        exact absurd hall (hexact record hrecord hof).1
    · intro key
      rw [Bool.and_eq_true, h.listed, decide_eq_true_iff, ne_eq, PairKey.mk.injEq]
      constructor
      · rintro ⟨hne, record, hrecord, hof⟩
        refine ⟨record, hkept record hrecord ?_, hof⟩
        rintro rfl
        rcases hof.2 with rfl | hall
        · exact hne ⟨rfl, rfl⟩
        · exact hwildcard hall
      · rintro ⟨record, hrecord, hof⟩
        obtain ⟨hspecific, hdiffers⟩ := hexact record hrecord hof.1
        refine ⟨?_, record, (hlive record hrecord).1, hof⟩
        rintro ⟨_, rfl⟩
        rcases hof.2 with heq | hall
        · exact hdiffers heq
        · exact hspecific hall

end Component

namespace SubscriptionRun
variable {F : Type} {run : SubscriptionRun F}

structure Tracks (run : SubscriptionRun F) : Prop where
  distinct : run.client.owner ≠ run.owner.owner
  session : run.client.sessions.contains run.owner.owner
  framed : ∀ record, run.client.Live record → record.Matches run.owner.owner →
    record.key.length + 13 ≤ Wire.kMaxPayload
  coherent : (run.owner.standing run.client.owner).Coherent
  channel : ∃ messages : List Subscription, run.channel = messages.map .subscription ∧
    (∀ message ∈ messages,
      message.ownerId = run.owner.owner ∧ message.subscriber = run.client.owner) ∧
    (run.owner.standing run.client.owner).AllowsAll messages ∧
    run.client.Reflects run.owner.owner
      ((run.owner.standing run.client.owner).applyAll messages)

theorem Tracks.start {client owner : Component F} (hdistinct : client.owner ≠ owner.owner)
    (hsession : client.sessions.contains owner.owner) (hnone : client.subscriptions = ∅)
    (habsent : owner.Absent client.owner) : (start client owner).Tracks := by
  have hstanding := Component.absent_iff.mp habsent
  have hdead : ∀ record, ¬ client.Live record := by
    rintro record ⟨handle, hfind⟩
    rw [hnone] at hfind
    simp at hfind
  refine ⟨hdistinct, hsession, ?_, ?_, [], rfl, ?_, trivial, ?_, ?_⟩
  · intro record hlive
    exact absurd hlive (hdead record)
  · simp only [SubscriptionRun.start, hstanding]
    exact Standing.none_coherent
  · intro message hmem
    contradiction
  · simp [SubscriptionRun.start, hstanding, Standing.none, hdead]
  · simp [SubscriptionRun.start, hstanding, Standing.none, hdead]

theorem Tracks.sendSubscription (h : run.Tracks) {d : Component F}
    (howner : d.owner = run.client.owner) (hsessions : d.sessions = run.client.sessions)
    (hframed : ∀ record, d.Live record → record.Matches run.owner.owner →
      record.key.length + 13 ≤ Wire.kMaxPayload)
    {record : SubscriptionRecord} {registering : Bool}
    (hfits : record.Matches run.owner.owner → record.key.length + 13 ≤ Wire.kMaxPayload)
    (hconcerned : record.Matches run.owner.owner → ∀ standing,
      run.client.Reflects run.owner.owner standing →
        standing.Allows ⟨record.key, run.owner.owner, run.client.owner, registering⟩ ∧
        d.Reflects run.owner.owner
          (standing.apply ⟨record.key, run.owner.owner, run.client.owner, registering⟩))
    (hunconcerned : ¬ record.Matches run.owner.owner → ∀ standing,
      run.client.Reflects run.owner.owner standing → d.Reflects run.owner.owner standing) :
    (run.atClient (d.sendSubscription record.owner record.key registering)).Tracks := by
  have hcomponent : (d.sendSubscription record.owner record.key registering).component = d := by
    unfold Component.sendSubscription
    split <;> rfl
  have hsession : d.sessions.contains run.owner.owner := hsessions ▸ h.session
  have hsent := Component.sentTo_sendSubscription hsession hfits registering
  obtain ⟨messages, hchannel, hall, hallows, hreflects⟩ := h.channel
  unfold SubscriptionRun.atClient
  rw [hcomponent, hsent, hchannel, howner]
  by_cases hmatches : record.Matches run.owner.owner
  · obtain ⟨hnext, hthen⟩ := hconcerned hmatches _ hreflects
    rw [if_pos hmatches]
    refine ⟨howner ▸ h.distinct, hsession, hframed, howner ▸ h.coherent,
      messages ++ [⟨record.key, run.owner.owner, run.client.owner, registering⟩],
      by rw [List.map_append]; rfl, ?_, ?_, ?_⟩
    · rw [howner]
      intro message hmem
      rcases List.mem_append.mp hmem with hold | hnew
      · exact hall message hold
      · rw [List.mem_singleton.mp hnew]
        exact ⟨rfl, rfl⟩
    · rw [howner]
      exact hallows.append ⟨hnext, trivial⟩
    · rw [howner, Standing.applyAll_append]
      exact hthen
  · rw [if_neg hmatches, List.append_nil]
    refine ⟨howner ▸ h.distinct, hsession, hframed, howner ▸ h.coherent,
      messages, rfl, howner ▸ hall, howner ▸ hallows, ?_⟩
    rw [howner]
    exact hunconcerned hmatches _ hreflects

theorem Tracks.register (h : run.Tracks) {record : SubscriptionRecord}
    {handle : SubscriptionHandle} (hfresh : handle ∉ run.client.subscriptions)
    (hfits : record.Matches run.owner.owner → record.key.length + 13 ≤ Wire.kMaxPayload) :
    (run.atClient (Component.sendSubscription { run.client with
      subscriptions := run.client.subscriptions.insertIfNew handle record
      nextSubscriptionHandle := handle } record.owner record.key true)).Tracks := by
  have hlive : ∀ other, Component.Live { run.client with
        subscriptions := run.client.subscriptions.insertIfNew handle record
        nextSubscriptionHandle := handle } other ↔
      run.client.Live other ∨ other = record :=
    fun _ => Component.live_insert hfresh
  refine h.sendSubscription ?_ ?_ ?_ hfits ?_ ?_
  · rfl
  · rfl
  · intro other hother hmatches
    rcases (hlive other).mp hother with hold | rfl
    · exact h.framed other hold hmatches
    · exact hfits hmatches
  · intro hmatches standing hreflects
    exact ⟨nofun, hreflects.register hmatches hlive run.client.owner⟩
  · intro hother standing hreflects
    apply hreflects.congr
    intro other hmatches
    rw [hlive other]
    constructor
    · rintro (hold | rfl)
      · exact hold
      · exact absurd hmatches hother
    · exact Or.inl

theorem Tracks.cancel (h : run.Tracks) {record : SubscriptionRecord}
    {handle : SubscriptionHandle} (hfind : run.client.subscriptions[handle]? = some record)
    (hseparate : run.Separate handle) :
    (run.atClient (Component.sendSubscription { run.client with
      subscriptions := run.client.subscriptions.erase handle }
        record.owner record.key false)).Tracks := by
  have hlive : ∀ other, Component.Live { run.client with
        subscriptions := run.client.subscriptions.erase handle } other →
      run.client.Live other ∧ (other.Matches run.owner.owner →
        record.Matches run.owner.owner → ¬ record.Overlaps other) := by
    intro other hother
    obtain ⟨number, hne, hnumber⟩ := Component.live_erase.mp hother
    exact ⟨⟨number, hnumber⟩, fun hmatches hof =>
      hseparate record hfind hof number other hne hnumber hmatches⟩
  have hkept : ∀ other, run.client.Live other → other ≠ record →
      Component.Live { run.client with
        subscriptions := run.client.subscriptions.erase handle } other := by
    rintro other ⟨number, hnumber⟩ hne
    refine Component.live_erase.mpr ⟨number, ?_, hnumber⟩
    rintro rfl
    exact hne (Option.some.inj (hnumber.symm.trans hfind))
  refine h.sendSubscription ?_ ?_ ?_ (h.framed record ⟨handle, hfind⟩) ?_ ?_
  · rfl
  · rfl
  · intro other hother hmatches
    exact h.framed other (hlive other hother).1 hmatches
  · intro hmatches standing hreflects
    refine hreflects.cancel hmatches ?_ hkept run.client.owner
    intro other hother
    exact ⟨(hlive other hother).1, fun hof => (hlive other hother).2 hof hmatches⟩
  · intro hother standing hreflects
    apply hreflects.congr
    intro other hmatches
    refine ⟨fun hlater => (hlive other hlater).1, fun hold => hkept other hold ?_⟩
    rintro rfl
    exact hother hmatches

theorem Tracks.deliver (h : run.Tracks) {message : Message} {rest : List Message}
    (hchannel : run.channel = message :: rest) (now : TimePoint) :
    Tracks { run with
      channel := rest, owner := (run.owner.enter (.handle message) now).component } := by
  obtain ⟨messages, hmap, hall, hallows, hreflects⟩ := h.channel
  cases messages with
  | nil =>
    rw [hmap] at hchannel
    contradiction
  | cons first others =>
    rw [hmap, List.map_cons, List.cons.injEq] at hchannel
    obtain ⟨rfl, rfl⟩ := hchannel
    obtain ⟨hto, hfrom⟩ := hall first List.mem_cons_self
    have howner := run.owner.enter_owner (.handle (.subscription first)) now
    have hself : first.subscriber ≠ run.owner.owner := hfrom ▸ h.distinct
    have hstanding := Component.standing_handleSubscription hto hself (hfrom ▸ h.coherent)
      (hfrom ▸ hallows.1) now
    rw [hfrom] at hstanding
    change (run.owner.enter (.handle (.subscription first)) now).component.standing
      run.client.owner = _ at hstanding
    refine ⟨?_, ?_, ?_, ?_, others, rfl, ?_, ?_, ?_⟩
    · rw [howner]
      exact h.distinct
    · rw [howner]
      exact h.session
    · rw [howner]
      exact h.framed
    · rw [hstanding]
      exact h.coherent.apply hallows.1
    · rw [howner]
      intro later hlater
      exact hall later (List.mem_cons_of_mem first hlater)
    · rw [hstanding]
      exact hallows.2
    · rw [howner, hstanding]
      exact hreflects

theorem Tracks.atOwner (h : run.Tracks) {call : Call F}
    (hcall : call.subscriber ≠ some run.client.owner) (now : TimePoint) :
    Tracks { run with owner := (run.owner.enter call now).component } := by
  have howner := run.owner.enter_owner call now
  have hstanding : (run.owner.enter call now).component.standing run.client.owner =
      run.owner.standing run.client.owner := by
    apply Component.standing_enter_other h.coherent
    rintro message rfl heq
    exact hcall (congrArg some heq.symm)
  obtain ⟨messages, hmap, hall, hallows, hreflects⟩ := h.channel
  refine ⟨?_, ?_, ?_, ?_, messages, hmap, ?_, ?_, ?_⟩
  · rw [howner]
    exact h.distinct
  · rw [howner]
    exact h.session
  · rw [howner]
    exact h.framed
  · rw [hstanding]
    exact h.coherent
  · rw [howner]
    exact hall
  · rw [hstanding]
    exact hallows
  · rw [howner, hstanding]
    exact hreflects

theorem Tracks.idle (h : run.Tracks) : (run.atClient run.client.idle).Tracks := by
  have hsame : run.atClient run.client.idle = run := by
    simp [SubscriptionRun.atClient, Component.sentTo, Component.idle, Component.framesFor]
  rw [hsame]
  exact h

theorem Tracks.step {after : SubscriptionRun F} {action : SubscriptionAction F}
    (h : run.Tracks) (hguard : run.Independent action) (hstep : run.step action = some after) :
    after.Tracks := by
  cases action with
  | register owner key =>
    cases Option.some.inj hstep
    unfold Component.registerSubscription
    split
    · exact h.idle
    · rename_i hany
      rw [← Component.live_iff_any] at hany
      obtain ⟨hfresh, hfits⟩ := hguard hany
      exact h.register hfresh hfits
  | cancel owner key =>
    cases Option.some.inj hstep
    unfold Component.cancelSubscription
    split
    · exact h.idle
    · rename_i handle found hfound
      have hrecord : found = ⟨owner, key⟩ := by
        simpa using List.find?_some hfound
      have hfind := ExtTreeMap.mem_toList_iff_getElem?_eq_some.mp (List.mem_of_find?_eq_some hfound)
      rw [hrecord] at hfind
      exact h.cancel hfind (hguard handle hfind)
  | cancelHandle handle =>
    cases Option.some.inj hstep
    unfold Component.cancelSubscriptionHandle
    split
    · exact h.idle
    · rename_i record hfind
      exact h.cancel hfind hguard
  | deliver now =>
    simp only [SubscriptionRun.step] at hstep
    split at hstep
    · contradiction
    · rename_i message rest hchannel
      cases Option.some.inj hstep
      exact h.deliver hchannel now
  | atOwner call now =>
    simp only [SubscriptionRun.step] at hstep
    split at hstep
    · contradiction
    · rename_i hcall
      cases Option.some.inj hstep
      exact h.atOwner hcall now

theorem Tracks.in_step (h : run.Tracks) (hquiet : run.channel = []) : run.Agrees := by
  obtain ⟨messages, hmap, _, _, hreflects⟩ := h.channel
  rw [hquiet] at hmap
  cases List.map_eq_nil_iff.mp hmap.symm
  intro key entry hfind
  rw [← hreflects.listed key, ← PairSpace.subscribersOf_of_find hfind]
  exact (decide_eq_true_iff).symm

/-- However a client registers and cancels, once its frames have been handled
it is listed for what its records cover, as long as no record that is cancelled
overlaps another. -/
theorem subscriptions_independent {client owner : Component F}
    (hdistinct : client.owner ≠ owner.owner)
    (hsession : client.sessions.contains owner.owner) (hnone : client.subscriptions = ∅)
    (habsent : owner.Absent client.owner)
    (hreach : Reach step Independent (start client owner) run) (hquiet : run.channel = []) :
    run.Agrees := by
  refine Tracks.in_step (hreach.invariant (Tracks.start hdistinct hsession hnone habsent) ?_) hquiet
  intro before action after hbefore hguard hstep
  exact hbefore.step hguard hstep

/-! The condition on a step can be checked. -/

instance (client : Component F) (record : SubscriptionRecord) : Decidable (client.Live record) :=
  decidable_of_iff _ Component.live_iff_any.symm

theorem separate_iff {handle : SubscriptionHandle} :
    run.Separate handle ↔ ∀ entry ∈ run.client.subscriptions.toList, entry.1 = handle →
      entry.2.Matches run.owner.owner → ∀ other ∈ run.client.subscriptions.toList,
        other.1 ≠ handle → other.2.Matches run.owner.owner → ¬ entry.2.Overlaps other.2 := by
  constructor
  · rintro h ⟨number, record⟩ hentry rfl hmatches ⟨other, others⟩ hother hne hothers
    exact h record (ExtTreeMap.mem_toList_iff_getElem?_eq_some.mp hentry) hmatches other others hne
      (ExtTreeMap.mem_toList_iff_getElem?_eq_some.mp hother) hothers
  · intro h record hfind hmatches other others hne hother hothers
    exact h (handle, record) (ExtTreeMap.mem_toList_iff_getElem?_eq_some.mpr hfind) rfl hmatches
      (other, others) (ExtTreeMap.mem_toList_iff_getElem?_eq_some.mpr hother) hne hothers

instance (handle : SubscriptionHandle) : Decidable (run.Separate handle) :=
  decidable_of_iff _ separate_iff.symm

theorem cancel_independent_iff {owner : OwnerId} {key : Bytes} :
    run.Independent (.cancel owner key) ↔ ∀ entry ∈ run.client.subscriptions.toList,
      entry.2 = ⟨owner, key⟩ → run.Separate entry.1 := by
  constructor
  · rintro h ⟨handle, record⟩ hentry rfl
    exact h handle (ExtTreeMap.mem_toList_iff_getElem?_eq_some.mp hentry)
  · intro h handle hfind
    exact h (handle, ⟨owner, key⟩) (ExtTreeMap.mem_toList_iff_getElem?_eq_some.mpr hfind) rfl

instance (run : SubscriptionRun F) (action : SubscriptionAction F) :
    Decidable (run.Independent action) :=
  match action with
  | .register _ _ => inferInstanceAs (Decidable (_ → _ ∧ _))
  | .cancel _ _ => decidable_of_iff _ cancel_independent_iff.symm
  | .cancelHandle handle => inferInstanceAs (Decidable (run.Separate handle))
  | .deliver _ => .isTrue trivial
  | .atOwner _ _ => .isTrue trivial

def pairOfClients : SubscriptionRun Unit :=
  start ((Component.initial 2000).addSession ⟨1000, [], []⟩).component (Component.initial 1000)

/-- Two records with different keys; one is cancelled after a publish. -/
theorem subscriptions_independent_two : ∃ run : SubscriptionRun Unit,
    Reach step Independent pairOfClients run ∧ run.channel = [] ∧
      2000 ∈ run.owner.space.subscribersOf ⟨1000, [108]⟩ ∧ run.Agrees := by
  have hrun : ∃ run : SubscriptionRun Unit,
      Reach step Independent pairOfClients run ∧ run.channel = [] ∧
        2000 ∈ run.owner.space.subscribersOf ⟨1000, [108]⟩ := by
    refine ⟨_, Reach.of_checked (fun run action (h : decide (run.Independent action)) =>
      of_decide_eq_true h) [.register 1000 [107], .register kAnyOwner [108], .deliver 0,
        .atOwner (.setPair [107] [1] .string) 0, .cancel 1000 [107], .deliver 0, .deliver 0] rfl,
      ?_, ?_⟩
    · rfl
    · decide
  obtain ⟨run, hreach, hquiet, hlisted⟩ := hrun
  refine ⟨run, hreach, hquiet, hlisted, ?_⟩
  exact subscriptions_independent (by decide) (by decide) rfl
    (Component.absent_iff.mpr rfl) hreach hquiet

/-- The client subscribes to a pair twice, once at its owner and once at any
owner, and cancels one of the two. It is no longer listed. -/
theorem overlapping_cancel_unlists : ∃ run : SubscriptionRun Unit,
    Reach step unguarded pairOfClients run ∧ run.channel = [] ∧
      run.client.Live ⟨kAnyOwner, [107]⟩ ∧
      (run.owner.space.find ⟨1000, [107]⟩).isSome ∧
      2000 ∉ run.owner.space.subscribersOf ⟨1000, [107]⟩ ∧ ¬ run.Agrees := by
  have hrun : ∃ run : SubscriptionRun Unit, Reach step unguarded pairOfClients run ∧
      run.channel = [] ∧ run.client.Live ⟨kAnyOwner, [107]⟩ ∧
      (run.owner.space.find ⟨1000, [107]⟩).isSome ∧
      2000 ∉ run.owner.space.subscribersOf ⟨1000, [107]⟩ ∧
      run.client.owner = 2000 ∧ run.owner.owner = 1000 := by
    refine ⟨_, Reach.of_run [.register 1000 [107], .register kAnyOwner [107],
      .cancel 1000 [107], .deliver 0, .deliver 0, .deliver 0] (fun _ _ _ => trivial) rfl, ?_⟩
    decide
  obtain ⟨run, hreach, hquiet, hlive, hentry, hunlisted, hclient, howner⟩ := hrun
  refine ⟨run, hreach, hquiet, hlive, hentry, hunlisted, ?_⟩
  intro hagrees
  obtain ⟨entry, hfind⟩ := Option.isSome_iff_exists.mp hentry
  rw [PairSpace.subscribersOf_of_find hfind, ← hclient] at hunlisted
  rw [← howner] at hfind
  exact hunlisted ((hagrees [107] entry hfind).mpr
    ⟨⟨kAnyOwner, [107]⟩, hlive, Or.inl rfl, Or.inl rfl⟩)

end SubscriptionRun

end Srnp
