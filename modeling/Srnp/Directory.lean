import Srnp.Membership
import Srnp.Lib.Numerals

/-! What a component is told of the others, where everyone greets the master as
a component does and everything can be framed. Each component comes to know
where all the others are to be reached. No one is announced who is known, and
no one is taken away who is not; so a component never has two sessions to
another one, of which it would forget the first without closing it. -/
namespace Srnp
open Std Transition LastWrite

def MasterLink.presence (ourPort : UInt16) (desiredOwnerId : OwnerId) : IndicatePresence where
  port := Numerals.digits 10 ourPort.toNat
  forceOwnerId := desiredOwnerId ≠ kAnyOwner
  ownerId := desiredOwnerId

def MasterFrame.entries : MasterFrame → List (Write OwnerId ComponentInfo)
  | .welcome message => message.allComponents.map fun info => .put info.owner info
  | .update ⟨.add, info⟩ => [.put info.owner info]
  | .update ⟨.remove, info⟩ => [.remove info.owner]

def listing (frames : List MasterFrame) : Store OwnerId ComponentInfo :=
  Store.replay (fun _ => none) (frames.flatMap (·.entries))

def Component.listing {F : Type} (c : Component F) : Store OwnerId ComponentInfo :=
  fun id => c.components[id]?

theorem MasterFrame.news_eq (message : MasterFrame) :
    message.news = message.entries.map (Write.map fun _ => ()) := by
  cases message with
  | welcome welcome =>
    simp only [news, entries, List.map_map]
    rfl
  | update update =>
    obtain ⟨operation, info⟩ := update
    cases operation <;> rfl

theorem roster_eq_listing (frames : List MasterFrame) (id : OwnerId) :
    roster frames id = (listing frames id).map fun _ => () := by
  have hnews : frames.flatMap (·.news) =
      (frames.flatMap (·.entries)).map (Write.map fun _ => ()) := by
    rw [List.map_flatMap]
    exact congrArg (List.flatMap · frames) (funext MasterFrame.news_eq)
  rw [roster, hnews, listing, ← Store.replay_map (fun _ => ())]
  rfl

theorem listing_append (frames : List MasterFrame) (message : MasterFrame) :
    listing (frames ++ [message]) = (listing frames).replay message.entries := by
  rw [listing, List.flatMap_append, Store.replay_append, List.flatMap_singleton]
  rfl

/-! ### What a component makes of a frame -/

namespace Component
variable {F : Type} (c : Component F)

def told : MasterFrame → Component F
  | .welcome message => (c.onWelcome message).component
  | .update message => (c.onComponentUpdate message).component

/-- There is a session to everyone it knows, and to no one else. -/
def Paired : Prop := ∀ id, id ∈ c.sessions ↔ id ∈ c.components

variable {c}

theorem listing_addSession (info : ComponentInfo) :
    (c.addSession info).component.listing = c.listing.apply (.put info.owner info) := by
  funext id
  rw [Store.apply_put_eq]
  simp only [listing, addSession, ExtTreeMap.getElem?_insert, LawfulEqOrd.compare_eq_iff_eq]

theorem listing_removeSession (owner : OwnerId) :
    (c.removeSession owner).component.listing = c.listing.apply (.remove owner) := by
  funext id
  rw [Store.apply_remove_eq]
  simp only [listing, removeSession, ExtTreeMap.getElem?_erase, LawfulEqOrd.compare_eq_iff_eq]

theorem Paired.addSession (h : c.Paired) (info : ComponentInfo) :
    (c.addSession info).component.Paired := by
  intro id
  simp only [Component.addSession, ExtTreeMap.mem_insert]
  exact or_congr Iff.rfl (h id)

theorem Paired.removeSession (h : c.Paired) (owner : OwnerId) :
    (c.removeSession owner).component.Paired := by
  intro id
  simp only [Component.removeSession, ExtTreeMap.mem_erase]
  exact and_congr Iff.rfl (h id)

theorem foldl_addSession (infos : List ComponentInfo) (h : c.Paired) :
    (infos.foldl (fun c info => (c.addSession info).component) c).Paired ∧
    (infos.foldl (fun c info => (c.addSession info).component) c).owner = c.owner ∧
    (infos.foldl (fun c info => (c.addSession info).component) c).listing =
      c.listing.replay (infos.map fun info => .put info.owner info) := by
  induction infos generalizing c with
  | nil => exact ⟨h, rfl, rfl⟩
  | cons first rest ih =>
    obtain ⟨hpaired, howner, hlisting⟩ := ih (h.addSession first)
    refine ⟨hpaired, howner, ?_⟩
    rw [List.foldl_cons, hlisting, listing_addSession]
    rfl

def ownerAfter (owner : OwnerId) : MasterFrame → OwnerId
  | .welcome message => message.owner
  | .update _ => owner

theorem told_spec (h : c.Paired) (message : MasterFrame) :
    (c.told message).Paired ∧ (c.told message).owner = ownerAfter c.owner message ∧
      (c.told message).listing = c.listing.replay message.entries := by
  cases message with
  | welcome message =>
    have hrenamed : Paired { c with owner := message.owner } := h
    obtain ⟨hpaired, howner, hlisting⟩ := foldl_addSession message.allComponents hrenamed
    exact ⟨hpaired, howner, hlisting⟩
  | update message =>
    obtain ⟨operation, info⟩ := message
    cases operation with
    | add => exact ⟨h.addSession info, rfl, listing_addSession info⟩
    | remove => exact ⟨h.removeSession info.owner, rfl, listing_removeSession info.owner⟩

end Component

namespace MasterLink
variable {F : Type} {size : Nat} {link : MasterLink F} {message : MasterFrame} {bytes : Bytes}

def swapped (link : MasterLink F) : MasterFrame → MasterFrame
  | .welcome message =>
      .welcome { message with allComponents := message.allComponents.map link.reachable }
  | .update message => .update { message with component := link.reachable message.component }

theorem entries_swapped (link : MasterLink F) (message : MasterFrame) :
    (link.swapped message).entries = message.entries.map (Write.map link.reachable) := by
  cases message with
  | welcome message =>
    simp only [swapped, MasterFrame.entries, List.map_map]
    refine List.map_congr_left ?_
    intro info _
    exact congrArg (Write.put · (link.reachable info)) (owner_reachable info)
  | update message =>
    obtain ⟨operation, info⟩ := message
    have howner : (link.reachable info).owner = info.owner := owner_reachable info
    cases operation with
    | add =>
      simp only [swapped, MasterFrame.entries, List.map_cons, List.map_nil, Write.map, howner]
    | remove =>
      simp only [swapped, MasterFrame.entries, List.map_cons, List.map_nil, Write.map, howner]

def expects (link : MasterLink F) : MasterFrame → Bool
  | .welcome _ => !link.registered
  | .update _ => link.registered

theorem hear_told (hlegible : message.Legible size) (hframe : message.frameOf = .ok bytes)
    (hturn : link.expects message) :
    link.hear size bytes = .ok { link with
      client := link.client.told (link.swapped message), registered := true } := by
  cases message with
  | welcome message =>
    obtain ⟨header, hheader, htype, _, _, hpayload⟩ :=
      Format.masterMessage_round_trips size .masterMessage message bytes (by decide)
        hlegible.2 hframe
    obtain ⟨type, payloadLength, subscriber⟩ := header
    cases htype
    have hnew : link.registered = false := by simpa [expects] using hturn
    simp only [hear, hnew, registerWithMaster, hheader, hpayload]
    rfl
  | update message =>
    obtain ⟨header, hheader, htype, _, _, hpayload⟩ :=
      Format.updateComponents_round_trips .updateComponents message bytes (by decide)
        trivial hframe
    obtain ⟨type, payloadLength, subscriber⟩ := header
    cases htype
    have hold : link.registered = true := hturn
    simp only [hear, hold, readUpdate, hheader, hpayload]
    rfl

end MasterLink

/-! ### What a link says, frame by frame -/

/-- A link of the master to `own`: the welcome first, which lists no one twice,
then updates. Someone is added who is not known, and taken away who is. -/
inductive Courteous (size : Nat) (own : OwnerId) : List MasterFrame → Prop
  | silent : Courteous size own []
  | welcome {infos : List ComponentInfo} : (MasterFrame.welcome ⟨own, infos⟩).Legible size →
      (infos.map (·.owner)).Nodup → own ∉ infos.map (·.owner) →
      Courteous size own [.welcome ⟨own, infos⟩]
  | update {frames : List MasterFrame} {update : UpdateComponents} :
      Courteous size own frames → frames ≠ [] → (MasterFrame.update update).fits →
      update.component.owner ≠ own →
      (update.operation = .remove ↔ roster frames update.component.owner = some ()) →
      Courteous size own (frames ++ [.update update])

def Expected (own : OwnerId) (before : List MasterFrame) : MasterFrame → Prop
  | .welcome message => before = [] ∧ message.owner = own ∧
      (message.allComponents.map (·.owner)).Nodup ∧ own ∉ message.allComponents.map (·.owner)
  | .update update => before ≠ [] ∧ update.component.owner ≠ own ∧
      (update.operation = .remove ↔ roster before update.component.owner = some ())

namespace Courteous
variable {size : Nat} {own : OwnerId} {frames before rest : List MasterFrame}
variable {message : MasterFrame}

theorem front (h : Courteous size own frames) (heq : frames = before ++ rest) :
    Courteous size own before := by
  induction h generalizing rest with
  | silent =>
    rw [(List.append_eq_nil_iff.mp heq.symm).1]
    exact .silent
  | welcome hlegible hnodup hown =>
    cases before with
    | nil => exact .silent
    | cons first others =>
      obtain ⟨rfl, hnone⟩ := List.cons.inj heq
      rw [(List.append_eq_nil_iff.mp hnone.symm).1]
      exact .welcome hlegible hnodup hown
  | @update front update hfront hsome hfits hother hturn ih =>
    rcases List.eq_nil_or_concat rest with rfl | ⟨more, last, rfl⟩
    · rw [List.append_nil] at heq
      rw [← heq]
      exact .update hfront hsome hfits hother hturn
    · rw [List.concat_eq_append, ← List.append_assoc] at heq
      exact ih (List.append_inj' heq rfl).1

theorem expected (h : Courteous size own frames) (heq : frames = before ++ message :: rest) :
    Expected own before message := by
  induction h generalizing rest with
  | silent => exact absurd heq (by simp)
  | welcome hlegible hnodup hown =>
    cases before with
    | nil =>
      obtain ⟨rfl, _⟩ := List.cons.inj heq
      exact ⟨rfl, rfl, hnodup, hown⟩
    | cons first others =>
      obtain ⟨_, hnone⟩ := List.cons.inj heq
      exact absurd hnone (by simp)
  | @update front update hfront hsome hfits hother hturn ih =>
    rcases List.eq_nil_or_concat rest with rfl | ⟨more, last, rfl⟩
    · obtain ⟨rfl, hlast⟩ := List.append_inj' heq rfl
      cases List.cons.inj hlast |>.1
      exact ⟨hsome, hother, hturn⟩
    · rw [List.concat_eq_append, ← List.cons_append, ← List.append_assoc] at heq
      exact ih (List.append_inj' heq rfl).1

end Courteous

structure MasterLink.Knows {F : Type} (masterIp : Bytes) (own : OwnerId)
    (frames : List MasterFrame) (link : MasterLink F) : Prop where
  masterIp : link.masterIp = masterIp
  registered : link.registered ↔ frames ≠ []
  paired : link.client.Paired
  owner : frames ≠ [] → link.client.owner = own
  listing : ∀ id, link.client.components[id]? = (listing frames id).map link.reachable

namespace MasterLink
variable {F : Type} {size : Nat} {masterIp : Bytes} {own : OwnerId} {frames : List MasterFrame}
variable {link : MasterLink F} {message : MasterFrame}

theorem Knows.initial (masterIp : Bytes) (own : OwnerId) :
    Knows masterIp own [] (.initial masterIp : MasterLink F) := by
  refine ⟨rfl, ?_, ?_, fun hne => absurd rfl hne, ?_⟩
  · exact iff_of_false Bool.false_ne_true fun hne => hne rfl
  · intro id
    simp [MasterLink.initial, Component.constructed, Component.initial]
  · intro id
    simp [MasterLink.initial, Component.constructed, Component.initial, Srnp.listing]

theorem Knows.told (h : Knows masterIp own frames link)
    (howner : Component.ownerAfter link.client.owner message = own) :
    Knows masterIp own (frames ++ [message])
      { link with client := link.client.told (link.swapped message), registered := true } := by
  obtain ⟨hpaired, hnext, hlisting⟩ := Component.told_spec h.paired (link.swapped message)
  constructor
  · exact h.masterIp
  · simp
  · exact hpaired
  · intro _
    rw [← howner]
    refine hnext.trans ?_
    cases message <;> rfl
  · intro id
    have hbefore : link.client.listing = fun id => (Srnp.listing frames id).map link.reachable :=
      funext h.listing
    change (link.client.told (link.swapped message)).listing id = _
    rw [hlisting, entries_swapped, hbefore, listing_append]
    exact Store.replay_map link.reachable _ _ id

theorem hearAll_last (h : (MasterLink.initial masterIp : MasterLink F).hearAll size frames =
    .ok link) (hlegible : message.Legible size) (hturn : link.expects message) :
    (MasterLink.initial masterIp : MasterLink F).hearAll size (frames ++ [message]) =
      .ok { link with
        client := link.client.told (link.swapped message), registered := true } := by
  have hfits : message.fits := by
    cases message with
    | welcome message => exact hlegible.1
    | update message => exact hlegible
  obtain ⟨bytes, hframe⟩ := MasterFrame.ok_of_fits hfits
  have hhear := hear_told hlegible hframe hturn
  rw [hearAll_append, h]
  change link.hearAll size [message] = _
  rw [hearAll_cons, hframe]
  change link.hear size bytes >>= _ = _
  rw [hhear]
  rfl

theorem knows_of_courteous (masterIp : Bytes) (h : Courteous size own frames) :
    ∃ link, (MasterLink.initial masterIp : MasterLink F).hearAll size frames = .ok link ∧
      Knows masterIp own frames link := by
  induction h with
  | silent => exact ⟨_, rfl, .initial masterIp own⟩
  | welcome hlegible hnodup hown =>
    have hnothing : (MasterLink.initial masterIp : MasterLink F).hearAll size [] =
        .ok (.initial masterIp) := rfl
    exact ⟨_, hearAll_last hnothing hlegible rfl, (Knows.initial masterIp own).told rfl⟩
  | update hfront hsome hfits hother hturn ih =>
    obtain ⟨link, hlink, hknows⟩ := ih
    exact ⟨_, hearAll_last hlink hfits (hknows.registered.mpr hsome),
      hknows.told (hknows.owner hsome)⟩

end MasterLink

/-! ### The master, greeted by components -/

namespace MasterHub
variable {draw : UInt32 → OwnerId} {hub joined after : MasterHub} {number : Nat} {size : Nat}
variable {ports : Nat → UInt16} {place address : Nat → Bytes} {presence : IndicatePresence}
variable {owner : OwnerId}

/-- What is said of the component `id`: the port of its server and the remote
end of its link. -/
def Located (ports : Nat → UInt16) (place : Nat → Bytes) (hub : MasterHub) (id : OwnerId)
    (info : ComponentInfo) : Prop :=
  ∃ other, hub.sessions[id]? = some other ∧ info.owner = id ∧
    info.port = Numerals.digits 10 (ports other).toNat ∧
    (info.ip = place other ∨ info.ip = [])

/-- A component greets the master, and there are few enough of them to be told
of each other. A socket whose remote end is gone has no address any more. -/
structure Usual (size : Nat) (ports : Nat → UInt16) (place : Nat → Bytes) (hub : MasterHub)
    (address : Nat → Bytes) (number : Nat) (presence : IndicatePresence) : Prop where
  greets : ∃ desiredOwnerId, presence = MasterLink.presence (ports number) desiredOwnerId
  few : hub.sessions.size ≤ Wire.kMaxPayload / size
  announces : ∀ owner, hub.announces address number presence owner
  places : ∀ other, address other = place other ∨ address other = []

structure Telling (size : Nat) (ports : Nat → UInt16) (place : Nat → Bytes) (hub : MasterHub) :
    Prop where
  agreed : hub.Agreed size
  proper : kAnyOwner ∉ hub.sessions
  serving : ∀ (id : OwnerId) number, hub.sessions[id]? = some number →
    (hub.links number).phase = .serving
  ported : ∀ (id : OwnerId) number, hub.sessions[id]? = some number →
    (hub.links number).port = Numerals.digits 10 (ports number).toNat
  courteous : ∀ number, Courteous size (hub.links number).owner (hub.links number).sent
  located : ∀ number, (hub.links number).phase = .serving → ∀ id info,
    listing (hub.links number).sent id = some info → hub.Located ports place id info

theorem Telling.initial : initial.Telling size ports place where
  agreed := .initial
  proper := by simp [MasterHub.initial]
  serving id number h := by simp [MasterHub.initial] at h
  ported id number h := by simp [MasterHub.initial] at h
  courteous _ := .silent
  located number h := by cases h

theorem Usual.proper (h : hub.Usual size ports place address number presence)
    (hrange : InRange draw) (hjoin : hub.Introduced draw address number presence owner after) :
    owner ≠ kAnyOwner := by
  intro hany
  obtain ⟨hforced, hnone, _⟩ := (hjoin.takesAny_iff hrange).mpr hany
  obtain ⟨desiredOwnerId, rfl⟩ := h.greets
  exact of_decide_eq_true hforced hnone

theorem mem_everyone {info : ComponentInfo} :
    info ∈ hub.everyone address ↔ ∃ other, hub.sessions[info.owner]? = some other ∧
      info.ip = address other ∧ info.port = (hub.links other).port := by
  unfold everyone
  constructor
  · intro hmem
    obtain ⟨⟨id, other⟩, hentry, rfl⟩ := List.mem_map.mp hmem
    exact ⟨other, ExtTreeMap.mem_toList_iff_getElem?_eq_some.mp hentry, rfl, rfl⟩
  · rintro ⟨other, hfind, hip, hport⟩
    refine List.mem_map.mpr ⟨(info.owner, other),
      ExtTreeMap.mem_toList_iff_getElem?_eq_some.mpr hfind, ?_⟩
    rw [← hip, ← hport]

theorem Telling.announced (h : hub.Telling size ports place)
    (husual : hub.Usual size ports place address number presence) (howner : owner ≠ kAnyOwner)
    (hgreeting : (hub.links number).phase = .greeting)
    (hjoin : hub.Introduced draw address number presence owner after) :
    after.Telling size ports place := by
  have hannounces := husual.announces owner
  obtain ⟨hwelcome, hadd⟩ := Bool.and_eq_true_iff.mp hannounces
  have hself := hjoin.self
  rw [(h.agreed.sound.greeting number hgreeting).2, if_pos hannounces, if_pos hwelcome,
    List.nil_append] at hself
  have hkept : ∀ (id : OwnerId) other, hub.sessions[id]? = some other →
      other ≠ number ∧ after.sessions[id]? = some other := by
    intro id other hfind
    refine ⟨?_, ?_⟩
    · rintro rfl
      exact (h.agreed.sound.stored id other hfind).2 hgreeting
    · rw [hjoin.sessions, if_neg]
      · exact hfind
      · rintro rfl
        exact hjoin.fresh (ExtTreeMap.getElem?_eq_some_iff.mp hfind).1
  have hlocated : ∀ id info, hub.Located ports place id info →
      after.Located ports place id info := by
    rintro id info ⟨other, hfind, hrest⟩
    exact ⟨other, (hkept id other hfind).2, hrest⟩
  have hmapped : ∀ {P : Nat → Prop}, P number → (∀ (id : OwnerId) other,
      hub.sessions[id]? = some other → other ≠ number → P other) →
      ∀ (id : OwnerId) other, after.sessions[id]? = some other → P other := by
    intro P hnew hold id other hfind
    rw [hjoin.sessions] at hfind
    split at hfind
    · cases Option.some.inj hfind
      exact hnew
    · exact hold id other hfind (hkept id other hfind).1
  constructor
  · exact h.agreed.announced hgreeting hjoin hannounces husual.few
  · rw [hjoin.mem_sessions]
    rintro (heq | hmem)
    · exact howner heq.symm
    · exact h.proper hmem
  · refine hmapped (by rw [hself]) ?_
    intro id other hfind hother
    rw [(hjoin.kept hother).2]
    exact h.serving id other hfind
  · refine hmapped ?_ ?_
    · obtain ⟨desiredOwnerId, rfl⟩ := husual.greets
      rw [hself]
      rfl
    · intro id other hfind hother
      rw [hjoin.others other hother]
      exact h.ported id other hfind
  · intro other
    by_cases heq : other = number
    · subst heq
      rw [hself]
      refine .welcome ⟨hwelcome, ?_⟩ ?_ ?_
      · rw [everyone, List.length_map, ExtTreeMap.length_toList]
        exact husual.few
      · rw [owners_everyone]
        exact ExtTreeMap.nodup_keys
      · rw [owners_everyone, ExtTreeMap.mem_keys]
        exact hjoin.fresh
    · rw [hjoin.others other heq]
      dsimp only
      split
      · rename_i hthere
        have hserving := h.serving _ other hthere.2
        obtain ⟨welcome, rest, hsent⟩ := h.agreed.opened _ other hthere.2
        refine .update (h.courteous other) ?_ hadd ?_ ?_
        · rw [hsent]
          exact List.cons_ne_nil _ _
        · intro hsame
          change owner = (hub.links other).owner at hsame
          apply hjoin.fresh
          rw [hsame]
          exact (ExtTreeMap.getElem?_eq_some_iff.mp hthere.2).1
        · rw [(h.agreed.conveys other hserving).known]
          refine iff_of_false ?_ fun hand => hjoin.fresh hand.1
          intro hremove
          contradiction
      · rw [List.append_nil]
        exact h.courteous other
  · intro other hserving id info hfound
    by_cases heq : other = number
    · subst heq
      rw [hself] at hfound
      have hputs : ∀ write ∈ (hub.welcomeOf address owner).entries, ∀ info,
          write.value = some info → info ∈ hub.everyone address ∧ info.owner = write.key := by
        intro write hmem info hvalue
        obtain ⟨said, hsaid, rfl⟩ := List.mem_map.mp hmem
        cases Option.some.inj hvalue
        exact ⟨hsaid, rfl⟩
      have hnone : ∀ (id : OwnerId) (info : ComponentInfo), none = some info →
          info ∈ hub.everyone address ∧ info.owner = id := by
        intro _ _ hvalue
        contradiction
      rw [listing, List.flatMap_singleton] at hfound
      obtain ⟨hmem, rfl⟩ := Store.replay_forall hnone hputs id info hfound
      obtain ⟨member, hfind, hip, hport⟩ := mem_everyone.mp hmem
      refine ⟨member, (hkept _ _ hfind).2, rfl, ?_, ?_⟩
      · rw [hport]
        exact h.ported _ _ hfind
      · rw [hip]
        exact husual.places member
    · rw [(hjoin.kept heq).2] at hserving
      have hthere := h.agreed.sound.present other (.inl hserving)
      rw [hjoin.others other heq] at hfound
      dsimp only at hfound
      rw [if_pos ⟨hannounces, hthere⟩, listing_append] at hfound
      change (listing (hub.links other).sent).apply (.put owner _) id = some info at hfound
      rw [Store.apply_put_eq] at hfound
      split at hfound
      · rename_i hsame
        cases Option.some.inj hfound
        obtain ⟨desiredOwnerId, rfl⟩ := husual.greets
        refine ⟨number, ?_, hsame, rfl, husual.places number⟩
        rw [hjoin.sessions, if_pos hsame]
      · exact hlocated id info (h.located other hserving id info hfound)

theorem Telling.finished (h : hub.Telling size ports place)
    (hopen : (hub.links number).phase ≠ .done) (hfinish : hub.Finished number after) :
    after.Telling size ports place := by
  have hkept : ∀ (id : OwnerId) other, after.sessions[id]? = some other →
      other ≠ number ∧ hub.sessions[id]? = some other := by
    intro id other hfind
    rw [hfinish.sessions] at hfind
    split at hfind
    · contradiction
    · rename_i hstays
      refine ⟨?_, hfind⟩
      rintro rfl
      have howner := h.agreed.sound.filed id other hfind
      apply hstays
      refine ⟨?_, howner⟩
      intro hany
      exact h.proper (hany ▸ howner ▸ (ExtTreeMap.getElem?_eq_some_iff.mp hfind).1)
  constructor
  · exact h.agreed.finished hopen hfinish
  · intro hmem
    exact h.proper ((hfinish.mem_sessions kAnyOwner).mp hmem).2
  · intro id other hfind
    obtain ⟨hother, hbefore⟩ := hkept id other hfind
    rw [(hfinish.kept other).2 hother]
    exact h.serving id other hbefore
  · intro id other hfind
    obtain ⟨hother, hbefore⟩ := hkept id other hfind
    rw [hfinish.others other hother]
    exact h.ported id other hbefore
  · intro other
    by_cases heq : other = number
    · subst heq
      rw [hfinish.self]
      exact h.courteous other
    · rw [hfinish.others other heq]
      dsimp only
      split
      · rename_i hthere
        obtain ⟨howner, hfind, hdistinct⟩ := hthere
        have hserving := h.serving _ other hfind
        have hleaver := h.agreed.sound.open_present hopen howner
        obtain ⟨welcome, rest, hsent⟩ := h.agreed.opened _ other hfind
        refine .update (h.courteous other) ?_ (remove_fits _) (Ne.symm hdistinct) ?_
        · rw [hsent]
          exact List.cons_ne_nil _ _
        · rw [(h.agreed.conveys other hserving).known]
          exact iff_of_true rfl
            ⟨(ExtTreeMap.getElem?_eq_some_iff.mp hleaver).1, Ne.symm hdistinct⟩
      · rw [List.append_nil]
        exact h.courteous other
  · intro other hserving id info hfound
    have heq : other ≠ number := by
      rintro rfl
      rw [hfinish.self] at hserving
      contradiction
    rw [(hfinish.kept other).2 heq] at hserving
    have hthere := h.agreed.sound.present other (.inl hserving)
    have hfront : ∀ hstays : ¬ ((hub.links number).owner ≠ kAnyOwner ∧
        (hub.links number).owner = id), listing (hub.links other).sent id = some info →
        after.Located ports place id info := by
      intro hstays hbefore
      obtain ⟨member, hfind, hrest⟩ := h.located other hserving id info hbefore
      refine ⟨member, ?_, hrest⟩
      rw [hfinish.sessions, if_neg hstays]
      exact hfind
    rw [hfinish.others other heq] at hfound
    dsimp only at hfound
    split at hfound
    · rename_i hgone
      rw [listing_append] at hfound
      change (listing (hub.links other).sent).apply (.remove _) id = some info at hfound
      rw [Store.apply_remove_eq] at hfound
      split at hfound
      · contradiction
      · rename_i hsame
        exact hfront (fun hand => hsame hand.2) hfound
    · rename_i hnot
      rw [List.append_nil] at hfound
      refine hfront ?_ hfound
      rintro ⟨howner, rfl⟩
      have hleaver := h.agreed.sound.open_present hopen howner
      apply hnot
      refine ⟨howner, hthere, ?_⟩
      intro hsame
      rw [hsame, hleaver] at hthere
      exact heq (Option.some.inj hthere).symm

end MasterHub

/-! ### Every component knows the way -/

namespace MembershipRun
variable {F : Type} {draw : UInt32 → OwnerId} {size : Nat} {masterIp place : Nat → Bytes}
variable {ports : Nat → UInt16} {run after : MembershipRun F} {number : Nat}

def Greeted (size : Nat) (ports : Nat → UInt16) (place : Nat → Bytes) (run : MembershipRun F) :
    MembershipAction → Prop
  | .register number presence address =>
      run.hub.Usual size ports place address number presence
  | _ => True

theorem Greeted.announced {action : MembershipAction} (h : run.Greeted size ports place action) :
    run.Announced size action := by
  cases action with
  | register number presence address =>
    exact ⟨fun _ => h.announces kAnyOwner, fun _ _ => h.few⟩
  | disconnect number => trivial
  | hear number => trivial

theorem telling_step (h : run.hub.Telling size ports place) (hrange : MasterHub.InRange draw)
    {action : MembershipAction} (hguard : run.Greeted size ports place action)
    (hstep : run.step draw size action = some after) : after.hub.Telling size ports place := by
  cases action with
  | register number presence address =>
    obtain ⟨hub, hhub, rfl⟩ := Option.map_eq_some_iff.mp hstep
    obtain ⟨joined, hjoin, hafter⟩ := Option.bind_eq_some_iff.mp hhub
    cases Option.some.inj hafter
    obtain ⟨_, _, _, owner, heq, hgreeting, hintroduced⟩ | ⟨_, heq, _⟩ :=
      MasterHub.step_cases h.agreed.sound hjoin
    · cases heq
      have hserving : (joined.links number).phase ≠ .leaving := by
        rw [hintroduced.self, if_pos (hguard.announces owner)]
        intro hleaving
        contradiction
      dsimp only
      rw [if_neg hserving]
      exact h.announced hguard (hguard.proper hrange hintroduced) hgreeting hintroduced
    · cases heq
  | disconnect number =>
    obtain ⟨hub, hhub, rfl⟩ := Option.map_eq_some_iff.mp hstep
    obtain ⟨_, _, _, _, heq, _⟩ | ⟨_, heq, hopen, hfinish⟩ :=
      MasterHub.step_cases h.agreed.sound hhub
    · cases heq
    · cases heq
      exact h.finished hopen hfinish
  | hear number =>
    simp only [step] at hstep
    split at hstep
    · contradiction
    · split at hstep
      · contradiction
      · cases Option.some.inj hstep
        exact h

theorem telling_of_reach (hrange : MasterHub.InRange draw)
    (hreach : Reach (step draw size) (Greeted size ports place)
      (initial masterIp : MembershipRun F) run) :
    run.hub.Telling size ports place ∧ run.Following size masterIp := by
  refine ⟨?_, ?_⟩
  · exact hreach.invariant (I := fun run => run.hub.Telling size ports place) .initial
      fun _ _ _ h hguard hstep => telling_step h hrange hguard hstep
  · exact hreach.invariant .initial fun _ _ _ h hguard hstep =>
      h.step hrange hguard.announced hstep

def reachedAt (masterIp address : Bytes) : Bytes :=
  if address = kLoopback then masterIp else address

/-- Whoever hears what is in flight to it knows of all the others, and of each
the port of its server and where the master sees it. -/
theorem directory_agrees (hrange : MasterHub.InRange draw)
    (hreach : Reach (step draw size) (Greeted size ports place) (initial masterIp) run)
    (hserving : (run.hub.links number).phase = .serving) :
    ∃ link : MasterLink F, (run.links number).hearAll size (run.inFlight number) = .ok link ∧
      ∀ id, (id ∈ link.client.components ↔
          id ∈ run.hub.sessions ∧ id ≠ (run.hub.links number).owner) ∧
        (id ∈ link.client.sessions ↔ id ∈ link.client.components) ∧
        ∀ info, link.client.components[id]? = some info →
          ∃ other, run.hub.sessions[id]? = some other ∧ info.owner = id ∧
            info.port = Numerals.digits 10 (ports other).toNat ∧
            (info.ip = reachedAt (masterIp number) (place other) ∨ info.ip = []) := by
  obtain ⟨htelling, hfollowing⟩ := telling_of_reach hrange hreach
  obtain ⟨link, hlink, hmembers⟩ := hfollowing.catches_up hserving
  obtain ⟨known, hknown, hknows⟩ := MasterLink.knows_of_courteous (F := F) (masterIp number)
    (htelling.courteous number)
  have hsame : known = link := by
    rw [← List.take_append_drop (run.heard number) (run.hub.links number).sent,
      MasterLink.hearAll_append, hfollowing.links number] at hknown
    exact Except.ok.inj (hknown.symm.trans hlink)
  subst hsame
  refine ⟨known, hlink, fun id => ⟨hmembers id, hknows.paired id, ?_⟩⟩
  intro info hinfo
  rw [hknows.listing] at hinfo
  obtain ⟨said, hsaid, rfl⟩ := Option.map_eq_some_iff.mp hinfo
  obtain ⟨other, hfind, howner, hport, hip⟩ := htelling.located number hserving id said hsaid
  have hreachable : (known.reachable said).ip = reachedAt (masterIp number) said.ip ∧
      (known.reachable said).port = said.port := by
    rw [MasterLink.reachable, hknows.masterIp, reachedAt]
    split
    · exact ⟨rfl, rfl⟩
    · exact ⟨rfl, rfl⟩
  refine ⟨other, hfind, (MasterLink.owner_reachable said).trans howner,
    hreachable.2.trans hport, ?_⟩
  rw [hreachable.1]
  rcases hip with hip | hip
  · rw [hip]
    exact .inl rfl
  · rw [hip]
    exact .inr (if_neg (by decide))

/-- Two components on the master's host join; the first has yet to hear of the
second. -/
theorem greeted_two : ∃ run : MembershipRun Unit,
    Reach (step (fun _ => 3061) 72) (Greeted 72 (fun _ => 5000) fun _ => kLoopback)
      (initial fun _ => [49]) run ∧ run.hub.sessions.keys = [3061, 3062] ∧
    run.inFlight 0 = [.update ⟨.add, ⟨3062, kLoopback, Numerals.digits 10 5000⟩⟩] ∧
    (run.hub.links 0).phase = .serving := by
  refine ⟨_, .tail (a := .register 1 (MasterLink.presence 5000 kAnyOwner) fun _ => kLoopback)
    (.tail (a := .hear 0) (.tail (a := .register 0 (MasterLink.presence 5000 kAnyOwner)
      fun _ => kLoopback) .refl ?_ rfl) trivial rfl) ?_ rfl, ?_, ?_, ?_⟩
  · exact ⟨⟨kAnyOwner, rfl⟩, by decide, fun _ => rfl, fun _ => .inl rfl⟩
  · exact ⟨⟨kAnyOwner, rfl⟩, by decide, fun _ => rfl, fun _ => .inl rfl⟩
  · decide
  · rfl
  · rfl

theorem inRange_3061 : MasterHub.InRange fun _ => 3061 := fun _ =>
  ⟨show (1000 : OwnerId) ≤ 3061 by decide, show (3061 : OwnerId) ≤ 10000 by decide⟩

theorem directory_agrees_two : ∃ run : MembershipRun Unit,
    run.hub.sessions.keys = [3061, 3062] ∧
    ∃ link : MasterLink Unit, (run.links 0).hearAll 72 (run.inFlight 0) = .ok link ∧
      ∀ id, (id ∈ link.client.components ↔
          id ∈ run.hub.sessions ∧ id ≠ (run.hub.links 0).owner) ∧
        (id ∈ link.client.sessions ↔ id ∈ link.client.components) ∧
        ∀ info, link.client.components[id]? = some info →
          ∃ other, run.hub.sessions[id]? = some other ∧ info.owner = id ∧
            info.port = Numerals.digits 10 (5000 : UInt16).toNat ∧
            (info.ip = reachedAt [49] kLoopback ∨ info.ip = []) := by
  obtain ⟨run, hreach, hkeys, _, hserving⟩ := greeted_two
  exact ⟨run, hkeys, directory_agrees inRange_3061 hreach hserving⟩

/-! ### No session is replaced -/

end MembershipRun

/-- What a component is told next is news to it: it is welcomed by a master it
has not heard of anyone from, with others that all differ, someone is added
whom it has no session to, and someone removed whom it has one to. -/
def Component.Awaits {F : Type} (c : Component F) : MasterFrame → Prop
  | .welcome message => (∀ id, id ∉ c.sessions) ∧
      (message.allComponents.map (·.owner)).Nodup ∧
      message.owner ∉ message.allComponents.map (·.owner)
  | .update ⟨.add, info⟩ => info.owner ≠ c.owner ∧ info.owner ∉ c.sessions
  | .update ⟨.remove, info⟩ => info.owner ≠ c.owner ∧ info.owner ∈ c.sessions

namespace MembershipRun
variable {F : Type} {draw : UInt32 → OwnerId} {size : Nat} {masterIp place : Nat → Bytes}
variable {ports : Nat → UInt16} {run after : MembershipRun F} {number : Nat}

/-- `addSession` never replaces a session, and `removeSession` always finds one. -/
theorem no_session_replaced (hrange : MasterHub.InRange draw)
    (hreach : Reach (step draw size) (Greeted size ports place) (initial masterIp) run)
    {message : MasterFrame} {rest : List MasterFrame}
    (hnext : run.inFlight number = message :: rest) :
    (run.links number).client.Awaits message := by
  obtain ⟨htelling, hfollowing⟩ := telling_of_reach hrange hreach
  have hsent : (run.hub.links number).sent =
      (run.hub.links number).sent.take (run.heard number) ++ message :: rest := by
    rw [← hnext]
    exact (List.take_append_drop _ _).symm
  have hcourteous := htelling.courteous number
  have hexpected := hcourteous.expected hsent
  obtain ⟨known, hknown, hknows⟩ := MasterLink.knows_of_courteous (F := F) (masterIp number)
    (hcourteous.front hsent)
  have hsame : known = run.links number :=
    Except.ok.inj (hknown.symm.trans (hfollowing.links number))
  subst hsame
  have hsession : ∀ id, id ∈ (run.links number).client.sessions ↔
      roster ((run.hub.links number).sent.take (run.heard number)) id = some () := by
    intro id
    rw [hknows.paired, ExtTreeMap.mem_iff_isSome_getElem?, hknows.listing, roster_eq_listing]
    cases listing ((run.hub.links number).sent.take (run.heard number)) id <;> simp
  cases message with
  | welcome message =>
    obtain ⟨hfirst, howner, hnodup, hother⟩ := hexpected
    refine ⟨?_, hnodup, howner ▸ hother⟩
    intro id hmem
    rw [hsession, hfirst] at hmem
    contradiction
  | update update =>
    obtain ⟨hsome, hother, hturn⟩ := hexpected
    have howner := hknows.owner hsome
    obtain ⟨operation, info⟩ := update
    cases operation with
    | add =>
      refine ⟨fun hsame => hother (hsame.trans howner), ?_⟩
      intro hmem
      have hremove := hturn.mpr ((hsession info.owner).mp hmem)
      contradiction
    | remove =>
      exact ⟨fun hsame => hother (hsame.trans howner), (hsession info.owner).mpr (hturn.mp rfl)⟩

theorem no_session_replaced_two : ∃ run : MembershipRun Unit,
    run.inFlight 0 = [.update ⟨.add, ⟨3062, kLoopback, Numerals.digits 10 5000⟩⟩] ∧
    (run.links 0).client.Awaits
      (.update ⟨.add, ⟨3062, kLoopback, Numerals.digits 10 5000⟩⟩) := by
  obtain ⟨run, hreach, _, hflight, _⟩ := greeted_two
  exact ⟨run, hflight, no_session_replaced inRange_3061 hreach hflight⟩

end MembershipRun

end Srnp
