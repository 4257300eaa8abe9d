import Srnp.Subscribers
import Srnp.Lib.LogFeed

/-! Any number of components, each the owner of its pairs and a subscriber of
pairs of the others, with a channel and a wire from each to each. Everyone
publishes and handles what arrives, in any order; the subscriptions are made
and name their pairs. Then whatever a component holds of another one's pairs is
what that one held after some number of its writes, the same number for all the
pairs it subscribes to, and it never goes back to an earlier one. -/
namespace Srnp
open Std LastWrite Transition

structure Mesh (F : Type) where
  nodes : OwnerId → Component F
  /-- From a component to another one. -/
  channels : OwnerId → OwnerId → FrameChannel PairKey Message
  wires : OwnerId → OwnerId → List Message
  /-- The writes of a component to its pairs. The code has no such record, and
  none of the next two. -/
  log : OwnerId → List (Write PairKey Shown)
  /-- What is on its way, with its places in the log. -/
  feed : OwnerId → OwnerId → List (Fed PairKey Shown)
  /-- How many writes of the one the other has heard of. -/
  heard : OwnerId → OwnerId → Nat

inductive MeshAction (F : Type) where
  | publish (owner : OwnerId) (call : Call F) (now : TimePoint)
  | drain (owner subscriber : OwnerId)
  | deliver (owner subscriber : OwnerId) (now : TimePoint)

/-- Publishing, also where another component asks for it, and callbacks. Such a
request may come from anyone and at any time; the mesh has no wires for them. -/
def Call.publishes {F : Type} : Call F → Bool
  | .setPair .. => true
  | .removePair _ => true
  | .handle (.pair _) => true
  | .handle (.removePair _) => true
  | .registerCallback .. => true
  | .cancelCallback _ => true
  | _ => false

def Entered.write {F : Type} (entered : Entered F) : Option (Write PairKey Shown) :=
  entered.change.bind Message.write

def Entered.framesFor {F : Type} (entered : Entered F) (subscriber : OwnerId) : List Message :=
  entered.component.framesFor subscriber entered.todo

namespace Mesh
variable {F : Type}

def start (nodes : OwnerId → Component F) : Mesh F :=
  ⟨nodes, fun _ _ => .initial, fun _ _ => [], fun _ => [], fun _ _ => [], fun _ _ => 0⟩

def inFlight (mesh : Mesh F) (owner subscriber : OwnerId) : List Message :=
  mesh.wires owner subscriber ++ (mesh.channels owner subscriber).outbox.frames.map (·.bytes)

def pass (mesh : Mesh F) (owner : OwnerId) (entered : Entered F) : Mesh F :=
  { mesh with
    nodes := Function.update mesh.nodes owner entered.component
    channels := Function.update mesh.channels owner fun subscriber =>
      (mesh.channels owner subscriber).sendEach (entered.framesFor subscriber) }

def fed (mesh : Mesh F) (owner : OwnerId) (frames : List Message) : List (Fed PairKey Shown) :=
  (frames.filterMap Message.write).map fun write => ((mesh.log owner).length, write)

def published (mesh : Mesh F) (owner : OwnerId) (entered : Entered F) : Mesh F :=
  { mesh.pass owner entered with
    log := Function.update mesh.log owner (mesh.log owner ++ entered.write.toList)
    feed := Function.update mesh.feed owner fun subscriber =>
      mesh.feed owner subscriber ++ mesh.fed owner (entered.framesFor subscriber) }

def drained (mesh : Mesh F) (owner subscriber : OwnerId)
    (result : FrameChannel PairKey Message × Option Message) : Mesh F :=
  { mesh with
    channels := Function.update mesh.channels owner
      (Function.update (mesh.channels owner) subscriber result.1)
    wires := Function.update mesh.wires owner
      (Function.update (mesh.wires owner) subscriber
        (mesh.wires owner subscriber ++ result.2.toList)) }

def delivered (mesh : Mesh F) (owner subscriber : OwnerId) (rest : List Message)
    (entered : Entered F) : Mesh F :=
  let next := (mesh.feed owner subscriber).head?.map (·.1 + 1)
  { mesh.pass subscriber entered with
    wires := Function.update mesh.wires owner
      (Function.update (mesh.wires owner) subscriber rest)
    feed := Function.update mesh.feed owner
      (Function.update (mesh.feed owner) subscriber (mesh.feed owner subscriber).tail)
    heard := Function.update mesh.heard owner
      (Function.update (mesh.heard owner) subscriber
        (next.getD (mesh.heard owner subscriber))) }

def step (mesh : Mesh F) : MeshAction F → Option (Mesh F)
  | .publish owner call now => some (mesh.published owner ((mesh.nodes owner).enter call now))
  | .drain owner subscriber =>
      some (mesh.drained owner subscriber (mesh.channels owner subscriber).drainLocked)
  | .deliver owner subscriber now =>
      match mesh.wires owner subscriber with
      | [] => none
      | message :: rest =>
          let entered := (mesh.nodes subscriber).enter (.handle message) now
          some (mesh.delivered owner subscriber rest entered)

/-- Everything published can be framed, and no outbox is at its cap. -/
def Calm (mesh : Mesh F) : MeshAction F → Prop
  | .publish owner call _ => call.publishes ∧ call.announceable ∧ ∀ subscriber,
      (mesh.channels owner subscriber).outbox.frames.length < kMaxOutboxFrames
  | _ => True

end Mesh

/-! ### What a node passes on -/

namespace Component
variable {F : Type} {c : Component F}

structure Plain (c : Component F) : Prop where
  regular : c.Regular
  exact : c.space.uSubscribers = .empty

theorem Plain.foreign (h : c.Plain) {key : PairKey} (hkey : key.owner ≠ c.owner) :
    c.space.subscribersOf key = .empty := by
  rw [h.regular.uniform key hkey, h.exact]

theorem Plain.enter (h : c.Plain) {call : Call F}
    (hcall : ∀ message, call ≠ .handle (.subscription message)) (now : TimePoint) :
    (c.enter call now).component.Plain := by
  refine ⟨h.regular.enter call now, ?_⟩
  rw [(c.enter_keepsSubscribers hcall now).universal]
  exact h.exact

theorem framesFor_nil {todo : List (Action F)} (h : parcels todo = []) (subscriber : OwnerId) :
    c.framesFor subscriber todo = [] := by
  have hnone : todo.flatMap c.hands = [] := by
    have hsublist := c.hands_sublist todo
    rw [h] at hsublist
    exact List.sublist_nil.mp hsublist
  rw [framesFor, hnone]
  rfl

theorem framesFor_wrote {message : Message} {todo : List (Action F)} {before : Component F}
    (h : parcels todo = before.announced message) (subscriber : OwnerId) :
    c.framesFor subscriber todo = [message] ∨ c.framesFor subscriber todo = [] ∧
      ∀ key, message.target = some key → message.fits → c.sessions.contains subscriber →
        subscriber ∉ before.space.subscribersOf key := by
  have hone := framesFor_announced (c := c) h subscriber
  rcases List.sublist_cons_iff.mp hone with hnil | ⟨rest, hcons, hrest⟩
  · right
    have hnone := List.sublist_nil.mp hnil
    refine ⟨hnone, ?_⟩
    intro key htarget hfits hsession hmember
    have habout := c.about_framesFor hsession key todo
    rw [h, Node.announced_concerns before hfits htarget hmember, hnone] at habout
    contradiction
  · left
    rw [hcons, List.sublist_nil.mp hrest]

theorem listed_of_framesFor {message other : Message} {todo : List (Action F)}
    {before : Component F} (h : parcels todo = before.announced message) {subscriber : OwnerId}
    (hother : other ∈ c.framesFor subscriber todo) :
    ∃ key, message.target = some key ∧ subscriber ∈ before.space.subscribersOf key := by
  obtain ⟨⟨recipient, sent⟩, hparcel, rfl⟩ := List.mem_map.mp hother
  obtain ⟨hhanded, hrecipient⟩ := List.mem_filter.mp hparcel
  cases of_decide_eq_true hrecipient
  have hmem := (c.hands_sublist todo).subset hhanded
  rw [h] at hmem
  unfold announced at hmem
  split at hmem
  · rename_i key htarget
    split at hmem
    · obtain ⟨id, hid, heq⟩ := List.mem_map.mp hmem
      cases heq
      exact ⟨key, htarget, hid⟩
    · contradiction
  · contradiction

theorem Plain.handle_frames (h : c.Plain) {message : Message} {write : Write PairKey Shown}
    (hwrite : message.write = some write) (hforeign : write.key.owner ≠ c.owner)
    (now : TimePoint) : parcels (c.enter (.handle message) now).todo = [] := by
  cases message with
  | pairUpdate pair =>
    change parcels (c.applyAndNotify pair now).todo = []
    rw [parcels_applyAndNotify, announced]
    cases Option.some.inj hwrite
    rw [Pair.write_key] at hforeign
    have hnobody := h.foreign hforeign
    simp only [Message.target, PairSpace.addPair_pairKey]
    rw [hnobody]
    split <;> rfl
  | pairRemoved request => rfl
  | _ => contradiction

end Component

namespace Mesh
variable {F : Type} {nodes : OwnerId → Component F} {mesh after : Mesh F}

/-- The pairs a component was subscribed to from the start. -/
def Interest (nodes : OwnerId → Component F) (owner subscriber : OwnerId) (key : PairKey) : Prop :=
  key.owner = owner ∧ subscriber ∈ (nodes owner).space.subscribersOf key

/-- Every component knows the sessions of its subscribers, which hold what it
holds, and has no wildcard subscriber. -/
structure Ready (nodes : OwnerId → Component F) : Prop where
  identity : ∀ owner, (nodes owner).owner = owner
  plain : ∀ owner, (nodes owner).Plain
  session : ∀ owner subscriber key, Interest nodes owner subscriber key →
    (nodes owner).sessions.contains subscriber
  agreed : ∀ owner subscriber key, Interest nodes owner subscriber key →
    (nodes subscriber).space.view key = (nodes owner).space.view key

structure Keeps (nodes : OwnerId → Component F) (owner : OwnerId) (c : Component F)
    (log : List (Write PairKey Shown)) : Prop where
  identity : c.owner = owner
  plain : c.Plain
  sessions : c.sessions = (nodes owner).sessions
  listed : ∀ key subscriber, subscriber ∈ (nodes owner).space.subscribersOf key →
    subscriber ∈ c.space.subscribersOf key
  logged : ∀ write ∈ log, write.key.owner = owner
  own : ∀ key, key.owner = owner →
    c.space.view key = (nodes owner).space.view.replay log key

/-- One link: the copy at its end lags behind the log by what is in flight. -/
structure Linked (nodes : OwnerId → Component F) (mesh : Mesh F) (owner subscriber : OwnerId) :
    Prop where
  connected : (mesh.channels owner subscriber).closed = false
  carried : (mesh.inFlight owner subscriber).map Message.write =
    (mesh.feed owner subscriber).map fun entry => some entry.2
  alone : subscriber = owner → mesh.feed owner subscriber = []
  lagging : subscriber ≠ owner → Lagging (Interest nodes owner subscriber)
    (nodes owner).space.view (mesh.log owner) (mesh.heard owner subscriber)
    (mesh.feed owner subscriber) (mesh.nodes subscriber).space.view

structure Sound (nodes : OwnerId → Component F) (mesh : Mesh F) : Prop where
  keeps : ∀ owner, Keeps nodes owner (mesh.nodes owner) (mesh.log owner)
  linked : ∀ owner subscriber, Linked nodes mesh owner subscriber

theorem Sound.start (h : Ready nodes) : Sound nodes (start nodes) where
  keeps owner :=
    { identity := h.identity owner
      plain := h.plain owner
      sessions := rfl
      listed := fun _ _ => id
      logged := List.forall_mem_nil _
      own := fun _ _ => rfl }
  linked owner subscriber :=
    { connected := rfl
      carried := rfl
      alone := fun _ => rfl
      lagging := fun _ => .start fun key hinterest => h.agreed owner subscriber key hinterest }

end Mesh

/-! ### Publishing -/

namespace Component
variable {F : Type} {c : Component F}

structure Locally (c : Component F) (entered : Entered F) : Prop where
  owner : entered.component.owner = c.owner
  sessions : entered.component.sessions = c.sessions
  listed : ∀ key, ∀ subscriber ∈ c.space.subscribersOf key,
    subscriber ∈ entered.component.space.subscribersOf key
  view : entered.component.space.view = c.space.view.replay entered.write.toList

def Announces (c : Component F) (entered : Entered F) : Prop :=
  (∃ message, entered.write = message.write ∧ message.fits ∧
    parcels entered.todo = c.announced message ∧
    ∀ write, message.write = some write → write.key.owner = c.owner) ∨
  (entered.write = none ∧ parcels entered.todo = [])

theorem locally_enter {call : Call F} (h : call.publishes) (now : TimePoint) :
    c.Locally (c.enter call now) := by
  by_cases hwrites : call.writes
  · obtain ⟨space, hspace⟩ := c.enter_writes_frame hwrites now
    refine ⟨c.enter_owner call now, by rw [hspace],
      fun key subscriber hmember => c.mem_subscribersOf_enter_writes hwrites now hmember, ?_⟩
    have hview := c.view_enter_writes hwrites now
    rcases c.enter_writes hwrites now with hidle | ⟨message, hwrote⟩
    · rw [hidle]
      rfl
    · have hwrite : (c.enter call now).write = c.ownWrite call := by
        rw [Entered.write, hwrote.change]
        exact hwrote.write
      rw [hwrite]
      exact hview
  · have hbesides : ∀ subscriber, call.besides subscriber := by
      intro subscriber
      cases call with
      | registerCallback => trivial
      | cancelCallback => trivial
      | setPair => trivial
      | removePair => trivial
      | handle message =>
        cases message with
        | pair => exact absurd rfl hwrites
        | removePair => exact absurd rfl hwrites
        | _ => contradiction
      | _ => contradiction
    have hchange : (c.enter call now).change = none := by
      cases call with
      | registerCallback owner key callback =>
        simp only [enter, registerCallback]
        split <;> rfl
      | cancelCallback number => rfl
      | setPair => exact absurd rfl hwrites
      | removePair => exact absurd rfl hwrites
      | handle message =>
        cases message with
        | pair => exact absurd rfl hwrites
        | removePair => exact absurd rfl hwrites
        | _ => contradiction
      | _ => contradiction
    have hidle : ∀ subscriber key, c.Besides subscriber key (c.enter call now) :=
      fun subscriber key => c.besides_enter (hbesides subscriber) hwrites key now
    refine ⟨c.enter_owner call now, (hidle c.owner ⟨c.owner, []⟩).sessions,
      fun key subscriber => (hidle subscriber key).member.mpr, ?_⟩
    rw [Entered.write, hchange]
    exact (hidle c.owner ⟨c.owner, []⟩).view

theorem announces_enter {call : Call F} (h : call.publishes) (hfits : call.announceable)
    (now : TimePoint) : c.Announces (c.enter call now) := by
  by_cases hwrites : call.writes
  · rcases c.enter_writes hwrites now with hidle | ⟨message, hwrote⟩
    · rw [hidle]
      exact Or.inr ⟨rfl, rfl⟩
    · left
      refine ⟨message, ?_, hwrote.fits hwrites hfits, hwrote.parcels, ?_⟩
      · rw [Entered.write, hwrote.change]
        rfl
      · intro write hwrite
        exact c.ownWrite_owner (hwrote.write.symm.trans hwrite)
  · right
    cases call with
    | registerCallback owner key callback =>
      simp only [enter, registerCallback]
      split <;> exact ⟨rfl, rfl⟩
    | cancelCallback number => exact ⟨rfl, rfl⟩
    | setPair => exact absurd rfl hwrites
    | removePair => exact absurd rfl hwrites
    | handle message =>
      cases message with
      | pair => exact absurd rfl hwrites
      | removePair => exact absurd rfl hwrites
      | _ => contradiction
    | _ => contradiction

end Component

namespace Mesh
variable {F : Type} {nodes : OwnerId → Component F} {mesh after : Mesh F}

theorem Keeps.publish {owner : OwnerId} {c : Component F} {log : List (Write PairKey Shown)}
    (h : Keeps nodes owner c log) {call : Call F} (hpublishes : call.publishes)
    (hfits : call.announceable) (now : TimePoint) :
    Keeps nodes owner (c.enter call now).component
      (log ++ (c.enter call now).write.toList) := by
  have hpublishesly := c.locally_enter hpublishes now
  have howner : ∀ write, (c.enter call now).write = some write → write.key.owner = owner := by
    intro write hwrite
    rcases c.announces_enter hpublishes hfits now with ⟨message, hmessage, _, _, hown⟩ | ⟨hnone, _⟩
    · rw [← h.identity]
      exact hown write (hmessage.symm.trans hwrite)
    · rw [hnone] at hwrite
      contradiction
  constructor
  · exact hpublishesly.owner.trans h.identity
  · refine h.plain.enter ?_ now
    rintro message rfl
    contradiction
  · exact hpublishesly.sessions.trans h.sessions
  · intro key subscriber hmember
    exact hpublishesly.listed key subscriber (h.listed key subscriber hmember)
  · intro write hmem
    rcases List.mem_append.mp hmem with hold | hnew
    · exact h.logged write hold
    · exact howner write (Option.mem_toList.mp hnew)
  · intro key hkey
    rw [hpublishesly.view, Store.replay_append]
    exact Store.replay_congr (h.own key hkey) _

theorem Keeps.says (hready : Ready nodes) {owner : OwnerId} {c : Component F}
    {log : List (Write PairKey Shown)} (h : Keeps nodes owner c log) {call : Call F}
    (hpublishes : call.publishes) (hfits : call.announceable) (now : TimePoint)
    (subscriber : OwnerId) :
    (∃ message write, (c.enter call now).framesFor subscriber = [message] ∧
      message.write = some write ∧ (c.enter call now).write = some write ∧ subscriber ≠ owner) ∨
    (c.enter call now).framesFor subscriber = [] ∧
      ∀ write, (c.enter call now).write = some write →
        ¬ Interest nodes owner subscriber write.key := by
  rcases c.announces_enter hpublishes hfits now with ⟨message, hwrite, hfit, hparcels, hown⟩ | hidle
  · rcases Component.framesFor_wrote (c := (c.enter call now).component) hparcels subscriber with
      hsaid | ⟨hnone, hnobody⟩
    · left
      have hmember : message ∈ (c.enter call now).component.framesFor subscriber
          (c.enter call now).todo := by
        rw [hsaid]
        exact List.mem_singleton_self message
      obtain ⟨key, htarget, hlisted⟩ := Component.listed_of_framesFor hparcels hmember
      obtain ⟨write, hmessage, _⟩ := Option.map_eq_some_iff.mp (message.target_eq ▸ htarget)
      refine ⟨message, write, hsaid, hmessage, hwrite.trans hmessage, ?_⟩
      rintro rfl
      apply h.plain.regular.stranger key
      rw [h.identity]
      exact hlisted
    · right
      refine ⟨hnone, ?_⟩
      intro write hmade hinterest
      have hmessage : message.write = some write := hwrite.symm.trans hmade
      have htarget : message.target = some write.key := by
        rw [message.target_eq, hmessage]
        rfl
      refine hnobody write.key htarget hfit ?_ (h.listed _ _ hinterest.2)
      rw [(c.locally_enter hpublishes now).sessions, h.sessions]
      exact hready.session owner subscriber write.key hinterest
  · right
    refine ⟨Component.framesFor_nil hidle.2 subscriber, ?_⟩
    intro write hmade
    rw [hidle.1] at hmade
    contradiction

theorem Linked.congr {owner subscriber : OwnerId} (h : Linked nodes mesh owner subscriber)
    (hclosed : (after.channels owner subscriber).closed =
      (mesh.channels owner subscriber).closed)
    (hflight : after.inFlight owner subscriber = mesh.inFlight owner subscriber)
    (hlog : after.log owner = mesh.log owner)
    (hfeed : after.feed owner subscriber = mesh.feed owner subscriber)
    (hheard : after.heard owner subscriber = mesh.heard owner subscriber)
    (hcopy : subscriber ≠ owner → ∀ key, key.owner = owner →
      (after.nodes subscriber).space.view key = (mesh.nodes subscriber).space.view key) :
    Linked nodes after owner subscriber := by
  constructor
  · rw [hclosed]
    exact h.connected
  · rw [hflight, hfeed]
    exact h.carried
  · rw [hfeed]
    exact h.alone
  · intro hother
    rw [hlog, hfeed, hheard]
    apply (h.lagging hother).congr
    intro key hinterest
    exact hcopy hother key hinterest.1

theorem Linked.publish (hready : Ready nodes) {owner subscriber : OwnerId}
    (hkeeps : Keeps nodes owner (mesh.nodes owner) (mesh.log owner))
    (h : Linked nodes mesh owner subscriber) {call : Call F} (hpublishes : call.publishes)
    (hfits : call.announceable) (now : TimePoint)
    (hroom : (mesh.channels owner subscriber).outbox.frames.length < kMaxOutboxFrames) :
    Linked nodes (mesh.published owner ((mesh.nodes owner).enter call now)) owner subscriber := by
  have hsays := hkeeps.says hready hpublishes hfits now subscriber
  generalize (mesh.nodes owner).enter call now = entered at hsays
  have hlength : (mesh.channels owner subscriber).outbox.frames.length +
      (entered.framesFor subscriber).length ≤ kMaxOutboxFrames := by
    rcases hsays with ⟨message, write, hsaid, _⟩ | ⟨hsaid, _⟩
    · rw [hsaid, List.length_singleton]
      exact hroom
    · rw [hsaid]
      exact hroom.le
  obtain ⟨hframes, hclosed⟩ := (mesh.channels owner subscriber).sendEach_room hlength
  have hchannel : (mesh.published owner entered).channels owner subscriber =
      (mesh.channels owner subscriber).sendEach (entered.framesFor subscriber) := by
    simp [published, pass]
  have hflight : (mesh.published owner entered).inFlight owner subscriber =
      mesh.inFlight owner subscriber ++ entered.framesFor subscriber := by
    rw [inFlight, hchannel, hframes, ← List.append_assoc]
    rfl
  have hlog : (mesh.published owner entered).log owner =
      mesh.log owner ++ entered.write.toList := by
    simp [published]
  have hfeed : (mesh.published owner entered).feed owner subscriber =
      mesh.feed owner subscriber ++ mesh.fed owner (entered.framesFor subscriber) := by
    simp [published]
  have hcopy : subscriber ≠ owner →
      (mesh.published owner entered).nodes subscriber = mesh.nodes subscriber := by
    intro hother
    simp [published, pass, hother]
  constructor
  · rw [hchannel, hclosed]
    exact h.connected
  · rw [hflight, hfeed, List.map_append, List.map_append, h.carried]
    rcases hsays with ⟨message, write, hsaid, hmessage, _⟩ | ⟨hsaid, _⟩
    · rw [hsaid]
      simp [fed, hmessage]
    · rw [hsaid]
      rfl
  · intro hself
    rw [hfeed, h.alone hself, List.nil_append]
    rcases hsays with ⟨_, _, _, _, _, hother⟩ | ⟨hsaid, _⟩
    · exact absurd hself hother
    · rw [hsaid]
      rfl
  · intro hother
    rw [hlog, hfeed, hcopy hother]
    rcases hsays with ⟨message, write, hsaid, hmessage, hmade, _⟩ | ⟨hsaid, hnobody⟩
    · have hone : mesh.fed owner (entered.framesFor subscriber) =
          [((mesh.log owner).length, write)] := by
        simp [fed, hsaid, hmessage]
      rw [hone, hmade]
      exact (h.lagging hother).said write
    · have hnone : mesh.fed owner (entered.framesFor subscriber) = [] := by
        rw [hsaid]
        rfl
      rw [hnone, List.append_nil]
      cases hwrite : entered.write with
      | none =>
        rw [Option.toList_none, List.append_nil]
        exact h.lagging hother
      | some write => exact (h.lagging hother).unsaid (hnobody write hwrite)

theorem Sound.publish (hready : Ready nodes) (h : Sound nodes mesh) {owner : OwnerId}
    {call : Call F} (hpublishes : call.publishes) (hfits : call.announceable) (now : TimePoint)
    (hroom : ∀ subscriber,
      (mesh.channels owner subscriber).outbox.frames.length < kMaxOutboxFrames) :
    Sound nodes (mesh.published owner ((mesh.nodes owner).enter call now)) := by
  constructor
  · intro other
    by_cases hsame : other = owner
    · subst hsame
      have hkept := (h.keeps other).publish hpublishes hfits now
      simpa [published, pass] using hkept
    · have hkept := h.keeps other
      simpa [published, pass, hsame] using hkept
  · intro other subscriber
    by_cases hsame : other = owner
    · subst hsame
      exact (h.linked other subscriber).publish hready (h.keeps other) hpublishes hfits now
        (hroom subscriber)
    · apply (h.linked other subscriber).congr
      · simp [published, pass, hsame]
      · simp [published, pass, inFlight, hsame]
      · simp [published, hsame]
      · simp [published, hsame]
      · rfl
      · intro _ key hkey
        by_cases hcopy : subscriber = owner
        · subst hcopy
          have hold := h.keeps subscriber
          have hwritten := (mesh.nodes subscriber).locally_enter hpublishes now
          have hforeign : key.owner ≠ subscriber := by
            rw [hkey]
            exact hsame
          have hnew := (hold.publish hpublishes hfits now).logged
          have hview : (((mesh.nodes subscriber).enter call now).component).space.view key =
              (mesh.nodes subscriber).space.view key := by
            rw [hwritten.view]
            apply replay_foreign
            intro write hwrite heq
            apply hforeign
            rw [← heq]
            exact hnew write (List.mem_append_right _ hwrite)
          simpa [published, pass] using hview
        · simp [published, pass, hcopy]

end Mesh

/-! ### What arrives -/

theorem Component.view_heard {F : Type} (c : Component F) {message : Message}
    {write : Write PairKey Shown} (h : message.write = some write) (now : TimePoint) :
    (c.enter (.handle message) now).component.space.view = c.space.view.apply write := by
  have hnone : c.ownWrite (.handle message) = none := by
    cases message with
    | pairUpdate pair => rfl
    | pairRemoved request => rfl
    | _ => contradiction
  rw [c.enter_view, hnone, Call.received, h]
  rfl

namespace Mesh
variable {F : Type} {nodes : OwnerId → Component F} {mesh after : Mesh F}

theorem Sound.drain (h : Sound nodes mesh) {owner subscriber : OwnerId}
    (hstep : mesh.step (.drain owner subscriber) = some after) : Sound nodes after := by
  have hdrains := (mesh.channels owner subscriber).drainLocked_drains
  simp only [step] at hstep
  generalize (mesh.channels owner subscriber).drainLocked = result at hstep hdrains
  obtain ⟨channel, next⟩ := result
  cases Option.some.inj hstep
  have hkept : channel.closed = (mesh.channels owner subscriber).closed ∧
      next.toList ++ channel.outbox.frames.map (·.bytes) =
        (mesh.channels owner subscriber).outbox.frames.map (·.bytes) := by
    cases hdrains with
    | stopped => exact ⟨rfl, rfl⟩
    | taken _ hqueue hrest => exact ⟨rfl, by simp [hqueue, hrest]⟩
  refine ⟨h.keeps, ?_⟩
  intro other recipient
  have hlink := h.linked other recipient
  by_cases hsame : other = owner
  · subst hsame
    by_cases hend : recipient = subscriber
    · subst hend
      refine hlink.congr ?_ ?_ rfl rfl rfl fun _ _ _ => rfl
      · simpa [drained] using hkept.1
      · simp [drained, inFlight, hkept.2]
    · refine hlink.congr ?_ ?_ rfl rfl rfl fun _ _ _ => rfl
      · simp [drained, hend]
      · simp [drained, inFlight, hend]
  · refine hlink.congr ?_ ?_ rfl rfl rfl fun _ _ _ => rfl
    · simp [drained, hsame]
    · simp [drained, inFlight, hsame]

/-- What is at the head of a wire is a write of its owner, which comes next on
the feed. -/
theorem Sound.arriving (h : Sound nodes mesh) {owner subscriber : OwnerId} {message : Message}
    {rest : List Message} (hwire : mesh.wires owner subscriber = message :: rest) :
    ∃ index write later, mesh.feed owner subscriber = (index, write) :: later ∧
      message.write = some write ∧ write.key.owner = owner ∧ subscriber ≠ owner := by
  have hlink := h.linked owner subscriber
  have hcarried := hlink.carried
  rw [inFlight, hwire, List.cons_append, List.map_cons] at hcarried
  cases hfeed : mesh.feed owner subscriber with
  | nil =>
    rw [hfeed] at hcarried
    contradiction
  | cons next later =>
    obtain ⟨index, write⟩ := next
    have hother : subscriber ≠ owner := by
      intro hself
      have hnone := hlink.alone hself
      rw [hfeed] at hnone
      contradiction
    rw [hfeed, List.map_cons] at hcarried
    have hlogged : (mesh.log owner)[index]? = some write := by
      refine ((hlink.lagging hother).pending (index, write) ?_).2
      rw [hfeed]
      exact List.mem_cons_self
    exact ⟨index, write, later, rfl, (List.cons.inj hcarried).1,
      (h.keeps owner).logged write (List.mem_of_getElem? hlogged), hother⟩

theorem Keeps.deliver {subscriber : OwnerId} {c : Component F} {log : List (Write PairKey Shown)}
    (h : Keeps nodes subscriber c log) {message : Message} {write : Write PairKey Shown}
    (hwrite : message.write = some write) (hforeign : write.key.owner ≠ subscriber)
    (now : TimePoint) : Keeps nodes subscriber (c.enter (.handle message) now).component log := by
  have hother : write.key.owner ≠ c.owner := by
    rw [h.identity]
    exact hforeign
  have hnotSubscription : ∀ subscription,
      Call.handle (F := F) message ≠ .handle (.subscription subscription) := by
    intro subscription heq
    cases Call.handle.inj heq
    contradiction
  have hkeeps := c.enter_keepsSubscribers hnotSubscription now
  constructor
  · exact (c.enter_owner _ now).trans h.identity
  · exact h.plain.enter hnotSubscription now
  · rw [← h.sessions]
    cases message with
    | pairUpdate pair => rfl
    | pairRemoved request => rfl
    | _ => contradiction
  · intro key member hmember
    have hlisted := h.listed key member hmember
    rcases hkeeps.subscribers key with hsame | ⟨hempty, _⟩
    · rw [hsame]
      exact hlisted
    · rw [hempty] at hlisted
      exact absurd hlisted (SubscriberList.not_mem_empty member)
  · exact h.logged
  · intro key hkey
    rw [← h.own key hkey, c.view_heard hwrite]
    apply Store.apply_other
    rintro rfl
    exact hforeign hkey

theorem Sound.delivered_channels (h : Sound nodes mesh) {owner subscriber : OwnerId}
    {message : Message} {rest : List Message}
    (hwire : mesh.wires owner subscriber = message :: rest) (now : TimePoint) :
    (mesh.delivered owner subscriber rest
      ((mesh.nodes subscriber).enter (.handle message) now)).channels = mesh.channels := by
  obtain ⟨index, write, later, hfeed, hwrite, howned, hother⟩ := h.arriving hwire
  have hsilent : ∀ recipient,
      ((mesh.nodes subscriber).enter (.handle message) now).framesFor recipient = [] := by
    have hkept := h.keeps subscriber
    refine Component.framesFor_nil (hkept.plain.handle_frames hwrite ?_ now)
    rw [hkept.identity, howned]
    exact Ne.symm hother
  funext other recipient
  by_cases hsame : other = subscriber
  · subst hsame
    simp [delivered, pass, hsilent, FrameChannel.sendEach]
  · simp [delivered, pass, hsame]

theorem Sound.deliver (h : Sound nodes mesh) {owner subscriber : OwnerId} {message : Message}
    {rest : List Message} (hwire : mesh.wires owner subscriber = message :: rest)
    (now : TimePoint) : Sound nodes (mesh.delivered owner subscriber rest
      ((mesh.nodes subscriber).enter (.handle message) now)) := by
  obtain ⟨index, write, later, hfeed, hwrite, howned, hother⟩ := h.arriving hwire
  have hforeign : write.key.owner ≠ subscriber := by
    rw [howned]
    exact Ne.symm hother
  have hchannels := h.delivered_channels hwire now
  have hkept := (h.keeps subscriber).deliver hwrite hforeign now
  have hview := (mesh.nodes subscriber).view_heard hwrite now
  generalize (mesh.nodes subscriber).enter (.handle message) now = entered
    at hchannels hkept hview
  have hnodes : (mesh.delivered owner subscriber rest entered).nodes =
      Function.update mesh.nodes subscriber entered.component := rfl
  constructor
  · intro other
    rw [hnodes]
    by_cases hsame : other = subscriber
    · subst hsame
      rw [Function.update_self]
      exact hkept
    · rw [Function.update_of_ne hsame]
      exact h.keeps other
  · intro other recipient
    have hlink := h.linked other recipient
    by_cases hthis : other = owner ∧ recipient = subscriber
    · obtain ⟨rfl, rfl⟩ := hthis
      have hnext : (mesh.delivered other recipient rest entered).feed other recipient = later := by
        simp [delivered, hfeed]
      constructor
      · rw [hchannels]
        exact hlink.connected
      · have hcarried := hlink.carried
        rw [inFlight, hwire, hfeed, List.cons_append, List.map_cons] at hcarried
        rw [inFlight, hchannels, hnext]
        simpa [delivered] using (List.cons.inj hcarried).2
      · intro hself
        exact absurd hself hother
      · intro _
        have hheard : (mesh.delivered other recipient rest entered).heard other recipient =
            index + 1 := by
          simp [delivered, hfeed]
        have hlagging := hlink.lagging hother
        rw [hfeed] at hlagging
        rw [hnodes, Function.update_self, hview, hnext, hheard]
        exact hlagging.hear
    · have haway : other = owner → recipient ≠ subscriber := fun howner hend =>
        hthis ⟨howner, hend⟩
      apply hlink.congr
      · rw [hchannels]
      · rw [inFlight, inFlight, hchannels]
        by_cases hsame : other = owner
        · subst hsame
          simp [delivered, haway rfl]
        · simp [delivered, pass, hsame]
      · rfl
      · by_cases hsame : other = owner
        · subst hsame
          simp [delivered, haway rfl]
        · simp [delivered, pass, hsame]
      · by_cases hsame : other = owner
        · subst hsame
          simp [delivered, haway rfl]
        · simp [delivered, pass, hsame]
      · intro _ key hkey
        rw [hnodes]
        by_cases hend : recipient = subscriber
        · subst hend
          rw [Function.update_self, hview]
          apply Store.apply_other
          rintro rfl
          exact haway (hkey.symm.trans howned) rfl
        · rw [Function.update_of_ne hend]

theorem Sound.step (hready : Ready nodes) (h : Sound nodes mesh) {action : MeshAction F}
    (hcalm : mesh.Calm action) (hstep : mesh.step action = some after) : Sound nodes after := by
  cases action with
  | publish owner call now =>
    obtain ⟨hpublishes, hfits, hroom⟩ := hcalm
    cases Option.some.inj hstep
    exact h.publish hready hpublishes hfits now hroom
  | drain owner subscriber => exact h.drain hstep
  | deliver owner subscriber now =>
    cases hwire : mesh.wires owner subscriber with
    | nil => simp [Mesh.step, hwire] at hstep
    | cons message rest =>
      simp only [Mesh.step, hwire] at hstep
      cases Option.some.inj hstep
      exact h.deliver hwire now

theorem Sound.of_reach (hready : Ready nodes)
    (reach : Reach Mesh.step Mesh.Calm (Mesh.start nodes) mesh) : Sound nodes mesh :=
  reach.invariant (.start hready) fun _ _ _ hsound hcalm hstep => hsound.step hready hcalm hstep

end Mesh

/-! ### What a subscriber shows -/

namespace Mesh
variable {F : Type} {nodes : OwnerId → Component F} {mesh past later after : Mesh F}
variable {owner subscriber : OwnerId}

/-- Of the pairs of the owner that it is subscribed to, the subscriber shows in
`mesh` what the owner shows in `past`. -/
def Shows (nodes : OwnerId → Component F) (owner subscriber : OwnerId) (mesh past : Mesh F) :
    Prop :=
  ∀ key, Interest nodes owner subscriber key →
    ((mesh.nodes subscriber).getPair key).map (fun pair => (pair.value, pair.type)) =
      ((past.nodes owner).getPair key).map fun pair => (pair.value, pair.type)

theorem log_step {action : MeshAction F} (hstep : mesh.step action = some after)
    (owner : OwnerId) :
    ∃ write : Option (Write PairKey Shown), after.log owner = mesh.log owner ++ write.toList := by
  cases action with
  | publish publisher call now =>
    cases Option.some.inj hstep
    by_cases hsame : owner = publisher
    · subst hsame
      exact ⟨_, Function.update_self _ _ _⟩
    · refine ⟨none, ?_⟩
      simp [published, hsame]
  | drain =>
    cases Option.some.inj hstep
    exact ⟨none, (List.append_nil _).symm⟩
  | deliver publisher recipient now =>
    simp only [step] at hstep
    split at hstep
    · contradiction
    · cases Option.some.inj hstep
      exact ⟨none, (List.append_nil _).symm⟩

/-- A log grows by one write at a time, so a run comes through every length. -/
theorem moment (reach : Reach Mesh.step Mesh.Calm mesh later) {count : Nat}
    (hfirst : (mesh.log owner).length ≤ count) (hlast : count ≤ (later.log owner).length) :
    ∃ past, Reach Mesh.step Mesh.Calm mesh past ∧ Reach Mesh.step Mesh.Calm past later ∧
      past.log owner = (later.log owner).take count := by
  induction reach with
  | refl =>
    have hcount : count = (mesh.log owner).length := Nat.le_antisymm hlast hfirst
    exact ⟨mesh, .refl, .refl, by rw [hcount, List.take_length]⟩
  | @tail before after action reach hcalm hstep ih =>
    obtain ⟨write, hlog⟩ := log_step hstep owner
    by_cases hold : count ≤ (before.log owner).length
    · obtain ⟨past, hpast, hrest, htake⟩ := ih hold
      refine ⟨past, hpast, hrest.tail hcalm hstep, ?_⟩
      rw [htake, hlog, List.take_append_of_le_length hold]
    · have hcount : count = (after.log owner).length := by
        have hone : write.toList.length ≤ 1 := by cases write <;> simp
        rw [hlog, List.length_append] at hlast ⊢
        omega
      exact ⟨after, reach.tail hcalm hstep, .refl, by rw [hcount, List.take_length]⟩

theorem log_grows (reach : Reach Mesh.step Mesh.Calm mesh later) (owner : OwnerId) :
    mesh.log owner <+: later.log owner := by
  induction reach with
  | refl => exact List.prefix_refl _
  | tail _ _ hstep ih =>
    obtain ⟨write, hlog⟩ := log_step hstep owner
    rw [hlog]
    exact ih.trans (List.prefix_append _ _)

theorem Sound.heard_step (h : Sound nodes mesh) {action : MeshAction F}
    (hstep : mesh.step action = some after) (hother : subscriber ≠ owner) :
    mesh.heard owner subscriber ≤ after.heard owner subscriber := by
  cases action with
  | publish =>
    cases Option.some.inj hstep
    exact le_rfl
  | drain =>
    cases Option.some.inj hstep
    exact le_rfl
  | deliver publisher recipient now =>
    simp only [Mesh.step] at hstep
    split at hstep
    · contradiction
    rename_i message rest hwire
    cases Option.some.inj hstep
    by_cases hlink : owner = publisher ∧ subscriber = recipient
    · obtain ⟨rfl, rfl⟩ := hlink
      obtain ⟨index, write, others, hfeed, _⟩ := h.arriving hwire
      have hpending := ((h.linked owner subscriber).lagging hother).pending (index, write)
      rw [hfeed] at hpending
      have hlate := (hpending List.mem_cons_self).1
      have hnext : (mesh.delivered owner subscriber rest
          ((mesh.nodes subscriber).enter (.handle message) now)).heard owner subscriber =
            index + 1 := by
        simp [delivered, hfeed]
      rw [hnext]
      exact Nat.le_succ_of_le hlate
    · have hkept : (mesh.delivered publisher recipient rest
          ((mesh.nodes recipient).enter (.handle message) now)).heard owner subscriber =
            mesh.heard owner subscriber := by
        by_cases hsame : owner = publisher
        · subst hsame
          have hend : subscriber ≠ recipient := fun hend => hlink ⟨rfl, hend⟩
          simp [delivered, hend]
        · simp [delivered, pass, hsame]
      rw [hkept]

theorem heard_grows (hready : Ready nodes)
    (first : Reach Mesh.step Mesh.Calm (Mesh.start nodes) mesh)
    (second : Reach Mesh.step Mesh.Calm mesh later) (hother : subscriber ≠ owner) :
    mesh.heard owner subscriber ≤ later.heard owner subscriber := by
  induction second with
  | refl => exact le_rfl
  | tail reach _ hstep ih =>
    exact ih.trans ((Sound.of_reach hready (first.trans reach)).heard_step hstep hother)

/-- A subscriber shows what its owner did when its log was no longer than what
the subscriber has heard of. -/
theorem Sound.shows (h : Sound nodes mesh) (hpast : Sound nodes past)
    (hother : subscriber ≠ owner)
    (hlog : past.log owner = (mesh.log owner).take (mesh.heard owner subscriber)) :
    Shows nodes owner subscriber mesh past := by
  intro key hinterest
  have hcopy := ((h.linked owner subscriber).lagging hother).current key hinterest
  have hown := (hpast.keeps owner).own key hinterest.1
  rw [hlog, ← hcopy, PairSpace.view_eq_held, PairSpace.view_eq_held] at hown
  exact hown.symm

theorem Sound.shows_all (h : Sound nodes mesh) (hother : subscriber ≠ owner)
    (hflight : mesh.inFlight owner subscriber = []) :
    Shows nodes owner subscriber mesh mesh := by
  intro key hinterest
  have hlink := h.linked owner subscriber
  have hfeed : mesh.feed owner subscriber = [] := by
    have hcarried := hlink.carried
    rw [hflight] at hcarried
    exact List.map_eq_nil_iff.mp hcarried.symm
  have hlagging := hlink.lagging hother
  rw [hfeed] at hlagging
  have hcopy := hlagging.caught_up hinterest
  rw [← (h.keeps owner).own key hinterest.1, PairSpace.view_eq_held, PairSpace.view_eq_held]
    at hcopy
  exact hcopy

/-- At any two moments of a run, one after the other, a subscriber shows what
the owner did at two earlier moments, in that order; each is one moment for all
the pairs the subscriber is subscribed to. With nothing on its way it shows
what the owner shows. -/
theorem snapshots (hready : Ready nodes)
    (first : Reach Mesh.step Mesh.Calm (Mesh.start nodes) mesh)
    (second : Reach Mesh.step Mesh.Calm mesh later) (hother : subscriber ≠ owner) :
    ∃ past recent, Reach Mesh.step Mesh.Calm (Mesh.start nodes) past ∧
      Reach Mesh.step Mesh.Calm past mesh ∧ Reach Mesh.step Mesh.Calm past recent ∧
      Reach Mesh.step Mesh.Calm recent later ∧
      Shows nodes owner subscriber mesh past ∧ Shows nodes owner subscriber later recent ∧
      (later.inFlight owner subscriber = [] → Shows nodes owner subscriber later later) := by
  have hsound := Sound.of_reach hready first
  have hlater := Sound.of_reach hready (first.trans second)
  have hheard := heard_grows hready first second hother
  have hwithin := ((hsound.linked owner subscriber).lagging hother).within
  have hwithinLater := ((hlater.linked owner subscriber).lagging hother).within
  obtain ⟨new, hnew⟩ := log_grows second owner
  by_cases hcount : later.heard owner subscriber ≤ (mesh.log owner).length
  · obtain ⟨recent, hrecent, hmesh, hlog⟩ := moment first (Nat.zero_le _) hcount
    have hlength : mesh.heard owner subscriber ≤ (recent.log owner).length := by
      rw [hlog, List.length_take]
      exact le_min hheard hwithin
    obtain ⟨past, hpast, hnext, hlogPast⟩ := moment hrecent (Nat.zero_le _) hlength
    refine ⟨past, recent, hpast, hnext.trans hmesh, hnext, hmesh.trans second, ?_, ?_,
      hlater.shows_all hother⟩
    · apply hsound.shows (Sound.of_reach hready hpast) hother
      rw [hlogPast, hlog, List.take_take, Nat.min_eq_left hheard]
    · apply hlater.shows (Sound.of_reach hready hrecent) hother
      rw [hlog, ← hnew, List.take_append_of_le_length hcount]
  · obtain ⟨recent, hmesh, hrecent, hlog⟩ :=
      moment second (Nat.le_of_not_le hcount) hwithinLater
    obtain ⟨past, hpast, hnext, hlogPast⟩ := moment first (Nat.zero_le _) hwithin
    refine ⟨past, recent, hpast, hnext, hnext.trans hmesh, hrecent, ?_, ?_,
      hlater.shows_all hother⟩
    · exact hsound.shows (Sound.of_reach hready hpast) hother hlogPast
    · exact hlater.shows (Sound.of_reach hready (first.trans hmesh)) hother hlog

/-! One component with a subscriber, among any number of others. -/

def pairOfNodes (owner : OwnerId) : Component Unit :=
  if owner = 1000 then Node.watched else .initial owner

theorem watched_space : Node.watched.space =
    PairSpace.addSubscription .empty ⟨1000, [107]⟩ 2000 0 := rfl

theorem interest_pairOfNodes {owner subscriber : OwnerId} {key : PairKey}
    (h : Interest pairOfNodes owner subscriber key) :
    owner = 1000 ∧ subscriber = 2000 ∧ key = ⟨1000, [107]⟩ := by
  obtain ⟨_, hlisted⟩ := h
  unfold pairOfNodes at hlisted
  split at hlisted
  · rename_i howner
    rw [watched_space, PairSpace.subscribersOf_addSubscription] at hlisted
    split at hlisted
    · rename_i hkey
      rcases SubscriberList.mem_push.mp hlisted with hnone | hone
      · exact absurd hnone (SubscriberList.not_mem_empty subscriber)
      · exact ⟨howner, hone, hkey.symm⟩
    · exact absurd hlisted (SubscriberList.not_mem_empty subscriber)
  · exact absurd hlisted (SubscriberList.not_mem_empty subscriber)

theorem ready_pairOfNodes : Ready pairOfNodes := by
  constructor
  · intro owner
    unfold pairOfNodes
    split
    · rename_i howner
      exact howner.symm
    · rfl
  · intro owner
    unfold pairOfNodes
    split
    · exact ⟨((Component.Regular.initial 1000).enter _ 0).enter _ 0, rfl⟩
    · exact ⟨.initial owner, rfl⟩
  · intro owner subscriber key hinterest
    obtain ⟨rfl, rfl, _⟩ := interest_pairOfNodes hinterest
    decide
  · intro owner subscriber key hinterest
    obtain ⟨rfl, rfl, rfl⟩ := interest_pairOfNodes hinterest
    decide

theorem calm_pairOfNodes :
    (Mesh.start pairOfNodes).Calm (.publish 1000 (.setPair [107] [1] .string) 5) := by
  refine ⟨rfl, ?_, ?_⟩
  · change 1 + 1 + 29 ≤ Wire.kMaxPayload
    decide
  · intro subscriber
    change 0 < kMaxOutboxFrames
    decide

/-- A pair that is on its way, and then there. -/
theorem snapshots_publish : ∃ mesh later : Mesh Unit,
    Reach Mesh.step Mesh.Calm (Mesh.start pairOfNodes) mesh ∧
      Reach Mesh.step Mesh.Calm mesh later ∧
      ((mesh.nodes 2000).getPair ⟨1000, [107]⟩) = none ∧
      ((later.nodes 2000).getPair ⟨1000, [107]⟩).isSome ∧
      ∃ past recent, Reach Mesh.step Mesh.Calm (Mesh.start pairOfNodes) past ∧
        Reach Mesh.step Mesh.Calm past mesh ∧ Reach Mesh.step Mesh.Calm past recent ∧
        Reach Mesh.step Mesh.Calm recent later ∧
        Shows pairOfNodes 1000 2000 mesh past ∧ Shows pairOfNodes 1000 2000 later recent ∧
        (later.inFlight 1000 2000 = [] → Shows pairOfNodes 1000 2000 later later) := by
  have hruns : ∃ mesh later : Mesh Unit,
      Reach Mesh.step Mesh.Calm (Mesh.start pairOfNodes) mesh ∧
        Reach Mesh.step Mesh.Calm mesh later ∧
        ((mesh.nodes 2000).getPair ⟨1000, [107]⟩) = none ∧
        ((later.nodes 2000).getPair ⟨1000, [107]⟩).isSome := by
    refine ⟨_, _, .tail .refl calm_pairOfNodes rfl, .tail (a := .deliver 1000 2000 6)
      (.tail (a := .drain 1000 2000) .refl trivial rfl) trivial rfl, ?_, ?_⟩
    · decide
    · decide
  obtain ⟨mesh, later, hfirst, hsecond, hbefore, hafter⟩ := hruns
  exact ⟨mesh, later, hfirst, hsecond, hbefore, hafter,
    snapshots ready_pairOfNodes hfirst hsecond (by decide)⟩

end Mesh

end Srnp
