import Srnp.ClientRun

/-! No registration is lost. A record that a session's replay did not read was
inserted after the replay read the records, so the call that inserted it looks
up its sessions later still and finds that session on the map. While every key
can be framed, each live record that concerns a component has been passed to
the channel of its session, or is about to be. -/
namespace Srnp
open Std Transition

def RunPhase.hasRead : RunPhase → Bool
  | .replaying _ => true
  | .finished => true
  | _ => false

namespace SubscribeCall

def Registering (record : SubscriptionRecord) : SubscribeCall → Prop
  | .idle => False
  | .recorded other registering => other = record ∧ registering
  | .named other registering _ => other = record ∧ registering
  | .sending other registering rest => other = record ∧ registering ∧ rest ≠ []

def Owes (record : SubscriptionRecord) (number : Nat) (frame : Subscription) :
    SubscribeCall → Prop
  | .idle => False
  | .recorded other registering => other = record ∧ registering
  | .named other registering subscriber =>
      other = record ∧ registering ∧ subscriber = frame.subscriber
  | .sending other registering rest => other = record ∧ registering ∧ (number, frame) ∈ rest

theorem Owes.registering {record : SubscriptionRecord} {number : Nat} {frame : Subscription}
    {call : SubscribeCall} (h : call.Owes record number frame) : call.Registering record := by
  cases call with
  | idle => exact h
  | recorded other registering => exact h
  | named other registering subscriber => exact ⟨h.1, h.2.1⟩
  | sending other registering rest => exact ⟨h.1, h.2.1, List.ne_nil_of_mem h.2.2⟩

end SubscribeCall

namespace ClientRun
variable {F : Type} {run after : ClientRun F} {action : ClientAction}

def frameFor (run : ClientRun F) (owner : OwnerId) (record : SubscriptionRecord) : Subscription :=
  ⟨record.key, owner, run.client.owner, true⟩

/-- Nothing is cancelled, and a subscription to the key can be framed. -/
def Registers (_ : ClientRun F) : ClientAction → Prop
  | .cancel .. => False
  | .cancelHandle .. => False
  | .register _ _ key => key.length + 13 ≤ Wire.kMaxPayload
  | _ => True

/-- Every live record that concerns the component of a session whose replay has
finished was passed to its channel, unless the call is not done with it. -/
def NothingLost (run : ClientRun F) : Prop :=
  ∀ owner number record, run.client.sessions[owner]? = some number →
    (run.sessions number).phase = .finished → run.client.Live record → record.Matches owner →
      .subscription (run.frameFor owner record) ∈ (run.sessions number).passed ∨
        ∃ thread, (run.calls thread).Registering record

/-- How a record reaches a session that has read the records. -/
inductive Reaches (run : ClientRun F) (owner : OwnerId) (number : Nat)
    (record : SubscriptionRecord) : Prop
  | passed : .subscription (run.frameFor owner record) ∈ (run.sessions number).passed →
      Reaches run owner number record
  | replay {rest : List SubscriptionRecord} : (run.sessions number).phase = .replaying rest →
      record ∈ rest → Reaches run owner number record
  | call (thread : ThreadId) :
      (run.calls thread).Owes record number (run.frameFor owner record) →
      Reaches run owner number record

structure Kept (run : ClientRun F) : Prop where
  wired : run.Wired
  framed : ∀ record, run.client.Live record → record.key.length + 13 ≤ Wire.kMaxPayload
  replayable : ∀ number rest, (run.sessions number).phase = .replaying rest →
    ∀ record ∈ rest, record.key.length + 13 ≤ Wire.kMaxPayload
  reaches : ∀ owner number record, run.client.sessions[owner]? = some number →
    (run.sessions number).phase.hasRead → run.client.Live record → record.Matches owner →
      run.Reaches owner number record

theorem Kept.initial : (initial : ClientRun F).Kept where
  wired := .initial
  framed record h := by
    obtain ⟨handle, hfind⟩ := h
    simp [ClientRun.initial, Component.constructed, Component.initial] at hfind
  replayable _ _ h := by contradiction
  reaches owner number record h := by
    simp [ClientRun.initial, Component.constructed, Component.initial] at h

theorem Kept.nothingLost (h : run.Kept) : run.NothingLost := by
  intro owner number record hsession hfinished hlive hmatches
  have hread : (run.sessions number).phase.hasRead := by
    rw [hfinished]
    rfl
  cases h.reaches owner number record hsession hread hlive hmatches with
  | passed hpassed => exact Or.inl hpassed
  | replay hphase _ =>
    rw [hfinished] at hphase
    contradiction
  | call thread howes => exact Or.inr ⟨thread, howes.registering⟩

end ClientRun

/-! ### The steps of a call -/

namespace Component
variable {F : Type} {c : Component F} {record : SubscriptionRecord} {owner : OwnerId}

theorem mem_lookUp {number : Nat} (hsession : c.sessions[owner]? = some number)
    (hmatches : record.Matches owner) (hfits : record.key.length + 13 ≤ Wire.kMaxPayload)
    (registering : Bool) (subscriber : OwnerId) :
    (number, ⟨record.key, owner, subscriber, registering⟩) ∈
      c.lookUp record registering subscriber := by
  unfold lookUp
  dsimp only
  rw [List.takeWhile_eq_self_iff.mpr]
  · refine List.mem_map.mpr ⟨(owner, number), ?_, rfl⟩
    split
    · exact ExtTreeMap.mem_toList_iff_getElem?_eq_some.mpr hsession
    · rename_i hspecific
      have howner : record.owner = owner := hmatches.resolve_left hspecific
      simp [howner, hsession]
  · intro sent hsent
    obtain ⟨target, _, rfl⟩ := List.mem_map.mp hsent
    exact fits_of_length hfits

theorem of_mem_lookUp {registering : Bool} {subscriber : OwnerId} {sent : Nat × Subscription}
    (h : sent ∈ c.lookUp record registering subscriber) :
    ∃ owner, c.sessions[owner]? = some sent.1 ∧ record.Matches owner ∧
      record.key.length + 13 ≤ Wire.kMaxPayload ∧
      sent.2 = ⟨record.key, owner, subscriber, registering⟩ := by
  unfold lookUp at h
  have hfits := List.mem_takeWhile_imp h
  obtain ⟨⟨owner, number⟩, htarget, rfl⟩ := List.mem_map.mp ((List.takeWhile_sublist _).subset h)
  refine ⟨owner, ?_, ?_, (subscription_fits_iff _).mp hfits, rfl⟩
  · split at htarget
    · exact ExtTreeMap.mem_toList_iff_getElem?_eq_some.mp htarget
    · obtain ⟨found, hfound, heq⟩ := List.mem_map.mp htarget
      obtain ⟨rfl, rfl⟩ := Prod.mk.inj heq
      exact Option.mem_toList.mp hfound
  · split at htarget
    · rename_i hany
      exact Or.inl hany
    · obtain ⟨found, _, heq⟩ := List.mem_map.mp htarget
      exact Or.inr (Prod.mk.inj heq).1

theorem lookUp_too_long (hlong : Wire.kMaxPayload < record.key.length + 13) (registering : Bool)
    (subscriber : OwnerId) : c.lookUp record registering subscriber = [] := by
  rw [List.eq_nil_iff_forall_not_mem]
  intro sent hsent
  obtain ⟨_, _, _, hfits, _⟩ := of_mem_lookUp hsent
  exact Nat.not_le_of_lt hlong hfits

theorem mem_subscriptionsFor (hlive : c.Live record) (hmatches : record.Matches owner) :
    record ∈ c.subscriptionsFor owner := by
  obtain ⟨handle, hfind⟩ := hlive
  refine List.mem_filter.mpr ⟨?_, decide_eq_true hmatches⟩
  exact List.mem_map.mpr ⟨(handle, record), ExtTreeMap.mem_toList_iff_getElem?_eq_some.mpr hfind, rfl⟩

theorem live_of_mem_subscriptionsFor (h : record ∈ c.subscriptionsFor owner) :
    c.Live record ∧ record.Matches owner := by
  obtain ⟨hmem, hmatches⟩ := List.mem_filter.mp h
  obtain ⟨⟨handle, found⟩, hentry, rfl⟩ := List.mem_map.mp hmem
  exact ⟨⟨handle, ExtTreeMap.mem_toList_iff_getElem?_eq_some.mp hentry⟩,
    of_decide_eq_true hmatches⟩

theorem live_of_insert {handle : SubscriptionHandle} {added : SubscriptionRecord}
    {next : SubscriptionHandle} (h : Live { c with
      subscriptions := c.subscriptions.insertIfNew handle added
      nextSubscriptionHandle := next } record) : c.Live record ∨ record = added := by
  obtain ⟨other, hfind⟩ := h
  simp only [ExtTreeMap.getElem?_insertIfNew] at hfind
  split at hfind
  · exact Or.inr (Option.some.inj hfind).symm
  · exact Or.inl ⟨other, hfind⟩

end Component

namespace ClientRun
variable {F : Type} {run after : ClientRun F} {action : ClientAction}

theorem Reaches.congr {owner : OwnerId} {number : Nat} {record : SubscriptionRecord}
    (h : run.Reaches owner number record) (howner : after.client.owner = run.client.owner)
    (hlink : after.sessions number = run.sessions number) (hcalls : after.calls = run.calls) :
    after.Reaches owner number record := by
  have hframe : after.frameFor owner record = run.frameFor owner record := by
    rw [frameFor, howner, frameFor]
  cases h with
  | passed hmem =>
    apply Reaches.passed
    rw [hlink, hframe]
    exact hmem
  | replay hphase hmem => exact .replay (hlink ▸ hphase) hmem
  | call thread howes =>
    apply Reaches.call thread
    rw [hcalls, hframe]
    exact howes

theorem Reaches.setCall {owner : OwnerId} {number : Nat} {record : SubscriptionRecord}
    (h : run.Reaches owner number record) (thread : ThreadId) (call : SubscribeCall)
    (howes : (run.calls thread).Owes record number (run.frameFor owner record) →
      call.Owes record number (run.frameFor owner record)) :
    (run.setCall thread call).Reaches owner number record := by
  cases h with
  | passed hpassed => exact .passed hpassed
  | replay hphase hmem => exact .replay hphase hmem
  | call other hother =>
    by_cases heq : other = thread
    · subst heq
      refine .call other ?_
      simp only [ClientRun.setCall, Function.update_self]
      exact howes hother
    · refine .call other ?_
      simp only [ClientRun.setCall, Function.update_of_ne heq]
      exact hother

theorem Kept.setCall (h : run.Kept) {thread : ThreadId} {call : SubscribeCall}
    (howes : ∀ owner number record, run.client.sessions[owner]? = some number →
      run.client.Live record → record.Matches owner →
      (run.calls thread).Owes record number (run.frameFor owner record) →
        call.Owes record number (run.frameFor owner record)) :
    (run.setCall thread call).Kept where
  wired := h.wired.congr rfl rfl rfl rfl rfl
  framed := h.framed
  replayable := h.replayable
  reaches owner number record hsession hread hlive hmatches :=
    (h.reaches owner number record hsession hread hlive hmatches).setCall thread call
      (howes owner number record hsession hlive hmatches)

theorem Kept.register (h : run.Kept) {thread : ThreadId} {owner : OwnerId} {key : Bytes}
    (hidle : run.calls thread = .idle) (hnew : ¬ run.client.Live ⟨owner, key⟩)
    (hfits : key.length + 13 ≤ Wire.kMaxPayload) :
    (run.change thread (run.client.registerSubscription owner key).component
      ⟨owner, key⟩ true).Kept := by
  have hlive : ∀ record, (run.client.registerSubscription owner key).component.Live record →
      run.client.Live record ∨ record = ⟨owner, key⟩ := by
    rw [Component.registerSubscription_component hnew]
    exact fun record => Component.live_of_insert
  have hsessions : (run.client.registerSubscription owner key).component.sessions =
      run.client.sessions := by
    rw [Component.registerSubscription_component hnew]
  have howner : (run.client.registerSubscription owner key).component.owner =
      run.client.owner := by
    rw [Component.registerSubscription_component hnew]
  refine ⟨h.wired.step (.register hidle hnew), ?_, h.replayable, ?_⟩
  · intro record hrecord
    rcases hlive record hrecord with hold | rfl
    · exact h.framed record hold
    · exact hfits
  · intro other number record hsession hread hrecord hmatches
    simp only [change, hsessions] at hsession
    rcases hlive record hrecord with hold | rfl
    · have hreaches := (h.reaches other number record hsession hread hold hmatches).setCall
        thread (.recorded ⟨owner, key⟩ true) (by
          rw [hidle]
          exact False.elim)
      exact hreaches.congr howner rfl rfl
    · apply Reaches.call thread
      simp only [change, ClientRun.setCall, Function.update_self]
      exact ⟨rfl, rfl⟩

theorem Wired.connected (h : run.Wired) {owner : OwnerId} {number : Nat}
    (hsession : run.client.sessions[owner]? = some number)
    (hread : (run.sessions number).phase.hasRead) :
    (run.sessions number).session.closing = false ∧
      (run.sessions number).session.connected = true := by
  obtain ⟨_, _, hopen⟩ := h.current owner number hsession
  refine ⟨hopen, ((h.sound number).connected hopen).mpr ?_⟩
  intro hphase
  rw [hphase] at hread
  contradiction

theorem Kept.send (h : run.Kept) {thread : ThreadId} {record : SubscriptionRecord}
    {registering : Bool} {number : Nat} {message : Subscription}
    {rest : List (Nat × Subscription)}
    (hcall : run.calls thread = .sending record registering ((number, message) :: rest)) :
    ((run.setCall thread (.sending record registering rest)).setSession number
      ((run.sessions number).send (.subscription message))).Kept := by
  have hwired := h.wired.step (.send hcall)
  let sent := (run.setCall thread (.sending record registering rest)).setSession number
    ((run.sessions number).send (.subscription message))
  have hphase : ∀ other, (sent.sessions other).phase = (run.sessions other).phase := by
    intro other
    rw [link_setSession]
    split
    · rename_i heq
      rw [OpenSession.send_phase, heq]
    · rfl
  have hpassed : ∀ other, (run.sessions other).passed ⊆ (sent.sessions other).passed := by
    intro other
    rw [link_setSession]
    split
    · rename_i heq
      rw [heq]
      exact OpenSession.passed_send.subset
    · exact List.Subset.refl _
  refine ⟨hwired, h.framed, ?_, ?_⟩
  · intro other records hreplaying
    rw [hphase] at hreplaying
    exact h.replayable other records hreplaying
  · intro owner other found hsession hread hlive hmatches
    rw [hphase] at hread
    cases h.reaches owner other found hsession hread hlive hmatches with
    | passed hmem => exact .passed (hpassed other hmem)
    | replay hreplaying hmem => exact .replay ((hphase other).trans hreplaying) hmem
    | call working howes =>
      by_cases heq : working = thread
      · subst heq
        rw [hcall] at howes
        obtain ⟨hrecord, hregistering, hmem⟩ := howes
        rcases List.mem_cons.mp hmem with hfirst | hlater
        · obtain ⟨rfl, rfl⟩ := Prod.mk.inj hfirst
          obtain ⟨hopen, hup⟩ := h.wired.connected hsession hread
          apply Reaches.passed
          simp only [setSession, Function.update_self, OpenSession.send_passed hopen hup]
          exact List.mem_append_right _ (List.mem_singleton.mpr rfl)
        · apply Reaches.call working
          simp only [setSession, ClientRun.setCall, Function.update_self]
          exact ⟨hrecord, hregistering, hlater⟩
      · apply Reaches.call working
        simp only [setSession, ClientRun.setCall, Function.update_of_ne heq]
        exact howes

theorem replayed_eq {link : OpenSession} {record : SubscriptionRecord}
    (h : record.Matches link.endpoint) (subscriber : OwnerId) :
    link.replayed record subscriber = ⟨record.key, link.endpoint, subscriber, true⟩ := by
  unfold OpenSession.replayed
  split
  · rfl
  · rename_i hspecific
    rw [h.resolve_left hspecific]

theorem Kept.session (h : run.Kept) {number : Nat} {link : OpenSession}
    (hserves : run.Serves action number link) : (run.setSession number link).Kept := by
  have hwired := h.wired.step (.session hserves)
  have helsewhere : ∀ other, other ≠ number →
      (run.setSession number link).sessions other = run.sessions other := by
    intro other hne
    rw [link_setSession, if_neg hne]
  have hhere : (run.setSession number link).sessions number = link := by
    rw [link_setSession, if_pos rfl]
  refine ⟨hwired, h.framed, ?_, ?_⟩
  · intro other records hreplaying record hmem
    by_cases hother : other = number
    · subst hother
      rw [hhere] at hreplaying
      cases hserves with
      | adopt => contradiction
      | flush => contradiction
      | read =>
        cases hreplaying
        exact h.framed record (Component.live_of_mem_subscriptionsFor hmem).1
      | replay hphase _ =>
        cases hreplaying
        exact h.replayable other _ hphase record (List.mem_cons_of_mem _ hmem)
      | throw => contradiction
      | finish => contradiction
      | close => exact h.replayable other records hreplaying record hmem
      | other =>
        rw [OpenSession.send_phase] at hreplaying
        exact h.replayable other records hreplaying record hmem
    · rw [helsewhere other hother] at hreplaying
      exact h.replayable other records hreplaying record hmem
  · intro owner other record hsession hread hlive hmatches
    by_cases hother : other = number
    · subst hother
      rw [hhere] at hread
      have hgrows := hserves.passed.subset
      have hendpoint := (h.wired.current owner other hsession).2.1
      have hstill : (run.sessions other).phase.hasRead →
          (∀ rest, (run.sessions other).phase = .replaying rest → record ∈ rest →
            (run.setSession other link).Reaches owner other record) →
          (run.setSession other link).Reaches owner other record := by
        intro hbefore hreplay
        cases h.reaches owner other record hsession hbefore hlive hmatches with
        | passed hmem =>
          apply Reaches.passed
          rw [hhere]
          exact hgrows hmem
        | replay hphase hmem => exact hreplay _ hphase hmem
        | call working howes => exact .call working howes
      cases hserves with
      | adopt => contradiction
      | flush => contradiction
      | read hphase =>
        refine .replay (congrArg OpenSession.phase hhere) ?_
        rw [hendpoint]
        exact Component.mem_subscriptionsFor hlive hmatches
      | @replay _ first rest hphase hfits =>
        have hbefore : (run.sessions other).phase.hasRead := by
          rw [hphase]
          rfl
        apply hstill hbefore
        intro records hrecords hmem
        rw [hphase] at hrecords
        cases hrecords
        rcases List.mem_cons.mp hmem with rfl | hlater
        · obtain ⟨hopen, hup⟩ := h.wired.connected hsession hbefore
          apply Reaches.passed
          rw [hhere]
          dsimp only
          rw [OpenSession.send_passed hopen hup, replayed_eq (hendpoint ▸ hmatches), hendpoint]
          exact List.mem_append_right _ (List.mem_singleton.mpr rfl)
        · exact .replay (congrArg OpenSession.phase hhere) hlater
      | @throw _ first rest hphase hlong =>
        exact absurd (h.replayable other _ hphase first List.mem_cons_self) hlong
      | finish hphase =>
        apply hstill (by rw [hphase]; rfl)
        intro records hrecords hmem
        rw [hphase] at hrecords
        cases hrecords
        contradiction
      | close =>
        apply hstill hread
        intro records hrecords hmem
        exact .replay ((congrArg OpenSession.phase hhere).trans hrecords) hmem
      | other =>
        rw [OpenSession.send_phase] at hread
        apply hstill hread
        intro records hrecords hmem
        refine .replay ((congrArg OpenSession.phase hhere).trans ?_) hmem
        rw [OpenSession.send_phase]
        exact hrecords
    · rw [helsewhere other hother] at hread
      exact (h.reaches owner other record hsession hread hlive hmatches).congr rfl
        (helsewhere other hother) rfl

theorem Kept.addSession (h : run.Kept) (info : ComponentInfo) (hwelcome : run.welcome ≠ none) :
    (run.addSession info).Kept := by
  have hlive : ∀ record, (run.addSession info).client.Live record → run.client.Live record :=
    fun _ hrecord => hrecord
  refine ⟨h.wired.addSession info hwelcome, fun record hrecord => h.framed record (hlive _ hrecord),
    ?_, ?_⟩
  · intro number rest hreplaying
    rw [link_addSession] at hreplaying
    split at hreplaying
    · contradiction
    · exact h.replayable number rest hreplaying
  · intro owner number record hsession hread hrecord hmatches
    rw [sessions_addSession] at hsession
    split at hsession
    · cases Option.some.inj hsession
      rw [link_addSession, if_pos rfl] at hread
      contradiction
    · have hlink : (run.addSession info).sessions number = run.sessions number := by
        rw [link_addSession, if_neg (Nat.ne_of_lt (h.wired.current owner number hsession).1)]
      rw [hlink] at hread
      exact (h.reaches owner number record hsession hread (hlive _ hrecord) hmatches).congr rfl
        hlink rfl

theorem Kept.step (h : run.Kept) (hguard : run.Registers action) (hdoes : run.Does action after) :
    after.Kept := by
  have hwired := h.wired.step hdoes
  cases hdoes with
  | nothing => exact h
  | welcome message hnone =>
    refine ⟨hwired, h.framed, h.replayable, ?_⟩
    intro owner number record hsession
    rw [(h.wired.early hnone).2 owner] at hsession
    contradiction
  | ready =>
    refine ⟨hwired, h.framed, h.replayable, ?_⟩
    intro owner number record hsession hread hlive hmatches
    exact (h.reaches owner number record hsession hread hlive hmatches).congr rfl rfl rfl
  | @join info rest hwelcome =>
    have hadded := h.addSession info (by simp [hwelcome])
    refine ⟨hwired, hadded.framed, hadded.replayable, ?_⟩
    intro owner number record hsession hread hlive hmatches
    exact (hadded.reaches owner number record hsession hread hlive hmatches).congr rfl rfl rfl
  | @add update hready =>
    apply h.addSession
    intro hnone
    rw [(h.wired.early hnone).1] at hready
    contradiction
  | @remove update =>
    refine ⟨hwired, h.framed, h.replayable, ?_⟩
    intro owner number record hsession hread hlive hmatches
    have hbefore := Component.session_of_removeSession hsession
    exact (h.reaches owner number record hbefore hread hlive hmatches).congr rfl rfl rfl
  | register hidle hnew => exact h.register hidle hnew hguard
  | cancel _ _ hcancel =>
    rcases hcancel with rfl | rfl
    · exact hguard.elim
    · exact hguard.elim
  | name hcall =>
    apply h.setCall
    intro owner number record _ _ _ howes
    rw [hcall] at howes
    exact ⟨howes.1, howes.2, rfl⟩
  | lookUp hcall =>
    apply h.setCall
    intro owner number record hsession hlive hmatches howes
    rw [hcall] at howes
    obtain ⟨rfl, rfl, rfl⟩ := howes
    exact ⟨rfl, rfl, Component.mem_lookUp hsession hmatches (h.framed _ hlive) true _⟩
  | send hcall => exact h.send hcall
  | done hcall =>
    apply h.setCall
    intro owner number record _ _ _ howes
    rw [hcall] at howes
    exact absurd howes.2.2 List.not_mem_nil
  | session hserves => exact h.session hserves

/-- Whatever joins, leaves and comes back, while nothing is cancelled and every
key can be framed, no registration is lost. -/
theorem registrations_not_lost (hreach : Reach step Registers initial run) :
    run.NothingLost := by
  apply Kept.nothingLost
  refine hreach.invariant Kept.initial ?_
  intro before action after hbefore hguard hstep
  exact hbefore.step hguard (step_does hstep)

instance (run : ClientRun F) (action : ClientAction) : Decidable (run.Registers action) :=
  match action with
  | .cancel .. => .isFalse id
  | .cancelHandle .. => .isFalse id
  | .register _ _ key => inferInstanceAs (Decidable (key.length + 13 ≤ Wire.kMaxPayload))
  | .welcome _ | .join | .update _ | .advance _ | .adopt _ | .flush _ | .read _ | .replay _
  | .close _ | .other .. => .isTrue trivial

def welcoming : List ClientAction := [.welcome ⟨2000, [⟨1000, [], []⟩]⟩, .join, .join]

def registering (key : Bytes) : List ClientAction :=
  [.register 0 1000 key, .advance 0, .advance 0]

/-- One record is queued before the connection and replayed after it, another
is inserted after the replay. -/
theorem registrations_not_lost_two : ∃ run : ClientRun Unit,
    Reach step Registers initial run ∧ run.client.sessions[(1000 : OwnerId)]? = some 0 ∧
      run.client.Live ⟨1000, [107]⟩ ∧ run.client.Live ⟨1000, [108]⟩ ∧
      (run.sessions 0).passed.length = 3 ∧ run.NothingLost := by
  have hrun : ∃ run : ClientRun Unit, Reach step Registers initial run ∧
      run.client.sessions[(1000 : OwnerId)]? = some 0 ∧ run.client.Live ⟨1000, [107]⟩ ∧
      run.client.Live ⟨1000, [108]⟩ ∧ (run.sessions 0).passed.length = 3 := by
    refine ⟨_, Reach.of_checked (fun run action (h : decide (run.Registers action)) =>
      of_decide_eq_true h) (welcoming ++ registering [107] ++ [.advance 0, .advance 0, .adopt 0,
        .flush 0, .read 0] ++ registering [108] ++ [.advance 0, .replay 0, .replay 0]) rfl, ?_⟩
    decide
  obtain ⟨run, hreach, hsession, hfirst, hsecond, hpassed⟩ := hrun
  exact ⟨run, hreach, hsession, hfirst, hsecond, hpassed, registrations_not_lost hreach⟩

theorem lost {owner : OwnerId} {number : Nat} {record : SubscriptionRecord}
    (hsession : run.client.sessions[owner]? = some number)
    (hfinished : (run.sessions number).phase = .finished) (hlive : run.client.Live record)
    (hmatches : record.Matches owner) (hpassed : (run.sessions number).passed = [])
    (hidle : ∀ thread, run.calls thread = .idle) : ¬ run.NothingLost := by
  intro h
  rcases h owner number record hsession hfinished hlive hmatches with hmem | ⟨thread, hcall⟩
  · rw [hpassed] at hmem
    contradiction
  · rw [hidle thread] at hcall
    exact hcall

def Uncancelled (_ : ClientRun F) : ClientAction → Prop
  | .cancel .. => False
  | .cancelHandle .. => False
  | _ => True

/-- A key too long to frame is registered after the replay. The call is left by
an exception with the record in place and no frame sent. -/
theorem lost_after_replay {rest : Bytes} (hlong : Wire.kMaxPayload < rest.length + 14) :
    ∃ run : ClientRun Unit, Reach step Uncancelled initial run ∧
      run.client.Live ⟨1000, 0 :: rest⟩ ∧ ¬ run.NothingLost := by
  have hrun : ∃ run : ClientRun Unit, Reach step Uncancelled initial run ∧
      run.calls 0 = .sending ⟨1000, 0 :: rest⟩ true
        (run.client.lookUp ⟨1000, 0 :: rest⟩ true 2000) ∧
      (∀ thread, run.calls (thread + 1) = .idle) ∧
      run.client.sessions[(1000 : OwnerId)]? = some 0 ∧ (run.sessions 0).phase = .finished ∧
      run.client.Live ⟨1000, 0 :: rest⟩ ∧ (run.sessions 0).passed = [] := by
    refine ⟨_, Reach.of_run (welcoming ++ [.adopt 0, .read 0, .replay 0] ++
      registering (0 :: rest)) ?_ rfl, rfl, fun _ => rfl, rfl, rfl, ⟨1, rfl⟩, rfl⟩
    simp [welcoming, registering, Uncancelled]
  obtain ⟨run, hreach, hcall, hothers, hsession, hphase, hlive, hpassed⟩ := hrun
  rw [Component.lookUp_too_long (show Wire.kMaxPayload <
    (⟨1000, 0 :: rest⟩ : SubscriptionRecord).key.length + 13 from hlong)] at hcall
  have hdone : run.step (.advance 0) = some (run.setCall 0 .idle) := by
    simp [step, ClientRun.advance, hcall]
  refine ⟨_, hreach.tail (a := .advance 0) trivial hdone, hlive,
    lost hsession hphase hlive (Or.inr rfl) hpassed ?_⟩
  intro thread
  cases thread with
  | zero => rfl
  | succ thread => simp [ClientRun.setCall, hothers]

/-- A key too long to frame is registered first, then another. The replay is
left by an exception at the first, and the second is never sent. -/
theorem lost_to_replay {rest : Bytes} (hlong : Wire.kMaxPayload < rest.length + 14) :
    ∃ run : ClientRun Unit, Reach step Uncancelled initial run ∧
      run.client.Live ⟨1000, [107]⟩ ∧ (run.sessions 0).passed = [] ∧ ¬ run.NothingLost := by
  have hrun : ∃ run : ClientRun Unit, Reach step Uncancelled initial run ∧
      (run.sessions 0).phase = .replaying [⟨1000, 0 :: rest⟩, ⟨1000, [107]⟩] ∧
      (∀ thread, run.calls thread = .idle) ∧
      run.client.sessions[(1000 : OwnerId)]? = some 0 ∧
      run.client.Live ⟨1000, [107]⟩ ∧ (run.sessions 0).passed = [] := by
    refine ⟨_, Reach.of_run (registering (0 :: rest) ++ [.advance 0] ++ registering [107] ++
      [.advance 0] ++ welcoming ++ [.adopt 0, .read 0]) ?_ rfl, rfl, ?_, rfl, ⟨2, rfl⟩, rfl⟩
    · simp [welcoming, registering, Uncancelled]
    · intro thread
      cases thread <;> rfl
  obtain ⟨run, hreach, hphase, hidle, hsession, hlive, hpassed⟩ := hrun
  have hthrow : run.step (.replay 0) =
      some (run.setSession 0 { run.sessions 0 with phase := .finished }) := by
    have hfits : ¬ (Message.subscription ((run.sessions 0).replayed ⟨1000, 0 :: rest⟩
        run.client.owner)).fits := by
      rw [subscription_fits_iff]
      exact Nat.not_le_of_lt hlong
    simp [step, ClientRun.replay, hphase, hfits]
  exact ⟨_, hreach.tail (a := .replay 0) trivial hthrow, hlive, hpassed,
    lost hsession rfl hlive (Or.inr rfl) hpassed hidle⟩

/-- One key of the size of the largest payload is enough to lose itself and
whatever is replayed after it. -/
theorem registrations_lost_too_long :
    (∃ run : ClientRun Unit, Reach step Uncancelled initial run ∧
      run.client.Live ⟨1000, 0 :: List.replicate Wire.kMaxPayload 0⟩ ∧ ¬ run.NothingLost) ∧
    ∃ run : ClientRun Unit, Reach step Uncancelled initial run ∧
      run.client.Live ⟨1000, [107]⟩ ∧ (run.sessions 0).passed = [] ∧ ¬ run.NothingLost := by
  have hlong : Wire.kMaxPayload < (List.replicate Wire.kMaxPayload (0 : UInt8)).length + 14 := by
    rw [List.length_replicate]
    exact Nat.lt_add_of_pos_right (by decide)
  exact ⟨lost_after_replay hlong, lost_to_replay hlong⟩

end ClientRun

end Srnp
