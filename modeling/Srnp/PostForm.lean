import Srnp.AllOrNothing
import Srnp.SharedView

/-! The form of the window with which a pair is posted. Its field for the owner
is blank or has a number in it, which says whose the pair becomes. What the
window says it has posted is in the tree then, and in the end in the trees of
all the others that are subscribed to it. -/
namespace Srnp

theorem Component.sendTo_hands {F : Type} (c : Component F) (owner : OwnerId)
    (message : Message) : (c.sendTo owner message).todo.flatMap c.hands =
      if message.fits ∧ c.sessions.contains owner then [(owner, message)] else [] := by
  unfold sendTo
  by_cases hfits : message.fits
  · by_cases hsession : c.sessions.contains owner <;> simp [hfits, hands, hsession]
  · simp [hfits]

theorem Numeral.ne_nil {text rest : Bytes} {number : Int} (h : Numeral text number rest) :
    text ≠ [] := by
  cases h with
  | positive hsome => exact List.append_ne_nil_of_left_ne_nil hsome _
  | negative => exact List.cons_ne_nil _ _

namespace Gui
open Std LastWrite Transition

variable {F : Type}

def kPostTypes : Vector PairType 3 := #v[.string, .bytes, .metaPair]

def parseOwner (text : Bytes) : Option OwnerId :=
  let result := fromCharsInto text 0
  if result.rest ≠ [] then none else some result.value

/-- The fields of the form; the type is its place in the list. -/
structure PostForm where
  owner : Bytes := []
  key : Bytes := []
  value : Bytes := []
  type : Fin 3 := 0

inductive PostStatus where
  /-- "Could not post: \"{}\" is not an owner id" -/
  | notAnOwner (text : Bytes)
  /-- "Posted {}" -/
  | posted (key : Bytes)
  /-- "Could not post {}" -/
  | notPosted (key : Bytes)
  /-- "Posted {} to owner {}" -/
  | postedTo (key : Bytes) (owner : OwnerId)
  /-- "Could not post to owner {}: not connected" -/
  | notConnected (owner : OwnerId)

structure Clicked (F : Type) where
  entered : Entered F
  status : Except Wire.DecodeError PostStatus

namespace PostForm

def pairType (form : PostForm) : PairType := kPostTypes.get form.type

/-- The owner that the field names; -2 stands for none. -/
def addressee (form : PostForm) (us : OwnerId) : OwnerId :=
  if form.owner = [] then us else (parseOwner form.owner).getD (-2)

def told (exit : Except Wire.DecodeError Bool) (done failed : PostStatus) :
    Except Wire.DecodeError PostStatus :=
  exit.map fun result => if result then done else failed

def postOurs (form : PostForm) (c : Component F) (now : TimePoint) : Clicked F where
  entered := c.setPair form.key form.value form.pairType now
  status := told (c.setPairExit form.key form.value form.pairType now)
    (.posted form.key) (.notPosted form.key)

def postTo (form : PostForm) (c : Component F) (owner : OwnerId) : Clicked F where
  entered := c.setRemotePair owner form.key form.value form.pairType
  status := told (c.setRemotePairExit owner form.key form.value form.pairType)
    (.postedTo form.key owner) (.notConnected owner)

/-- The button, which is disabled without a key. -/
def post (form : PostForm) (c : Component F) (now : TimePoint) : Option (Clicked F) :=
  let owner := form.addressee c.owner
  if form.key = [] then none
  else if owner = -2 then some ⟨c.idle, .ok (.notAnOwner form.owner)⟩
  else if owner = c.owner then some (form.postOurs c now)
  else some (form.postTo c owner)

end PostForm

/-! ### The field for the owner -/

/-- A text is taken for an owner if it is a number and nothing else. Of a number
that is no `int`, nothing is written, and that leaves 0. -/
theorem parseOwner_eq_some_iff {text : Bytes} (hsome : text ≠ []) (id : OwnerId) :
    parseOwner text = some id ↔
      ∃ number, Numeral text number [] ∧ id = if InIntRange number then Int32.ofInt number else 0 := by
  have hread : ∀ {number rest}, Numeral text number rest → parseOwner text =
      if rest ≠ [] then none else some (if InIntRange number then Int32.ofInt number else 0) := by
    intro number rest hnumeral
    unfold parseOwner
    rw [hnumeral.fromChars]
    split <;> rfl
  constructor
  · intro h
    obtain ⟨number, rest, hnumeral⟩ | hnone := fromCharsInto_cases text
    · rw [hread hnumeral] at h
      split at h
      · contradiction
      · rename_i hrest
        rw [not_not.mp hrest] at hnumeral
        exact ⟨number, hnumeral, (Option.some.inj h).symm⟩
    · unfold parseOwner at h
      rw [hnone, if_pos hsome] at h
      contradiction
  · rintro ⟨number, hnumeral, rfl⟩
    rw [hread hnumeral, if_neg (not_not.mpr rfl)]

namespace PostForm
variable {form : PostForm} {us id : OwnerId}

/-- Whom the field is for: us if it is blank, and otherwise the owner with this number. -/
def Names (form : PostForm) (us id : OwnerId) : Prop :=
  (form.owner = [] ∧ id = us) ∨
    ∃ number, Numeral form.owner number [] ∧ id = if InIntRange number then Int32.ofInt number else 0

theorem names_iff (hid : id ≠ -2) : form.Names us id ↔ form.addressee us = id := by
  unfold Names addressee
  by_cases hblank : form.owner = []
  · rw [if_pos hblank, and_iff_right hblank, eq_comm, or_iff_left]
    rintro ⟨number, hnumeral, _⟩
    exact hnumeral.ne_nil hblank
  · rw [if_neg hblank, ← parseOwner_eq_some_iff hblank, Option.getD_eq_iff,
      or_iff_right fun h => hblank h.1]
    exact (or_iff_left fun h => hid h.2.symm).symm

/-! ### A click -/

theorem pairType_valid (form : PostForm) : form.pairType ≠ .invalid := by
  have hall : ∀ place : Fin 3, kPostTypes.get place ≠ .invalid := by decide
  exact hall form.type

def shown (form : PostForm) : Shown := (form.value, form.pairType)

def Sought (ownerFilter : OwnerId) (keyFilter : Bytes) (key : PairKey) : Prop :=
  (ownerFilter = kAnyOwner ∨ key.owner = ownerFilter) ∧
    keyFilter.map lower <:+: key.key.map lower

def Small (form : PostForm) : Prop :=
  form.key.length + form.value.length + 29 ≤ Wire.kMaxPayload

instance (form : PostForm) : Decidable form.Small := inferInstanceAs (Decidable (_ ≤ _))

def pair (form : PostForm) (owner : OwnerId) : Pair :=
  { owner, key := form.key, value := form.value, type := form.pairType }

/-- The pair is in our tree as it was posted, and the rest of the tree as it was. -/
structure Lands (form : PostForm) (c : Component F) (clicked : Clicked F) : Prop where
  lists : ∀ ownerFilter keyFilter key shown,
    Lists clicked.entered.component ownerFilter keyFilter key shown ↔
      if key = ⟨c.owner, form.key⟩ then Sought ownerFilter keyFilter key ∧ shown = form.shown
      else Lists c ownerFilter keyFilter key shown
  status : clicked.status = .ok (.posted form.key) ↔
    c.space.subscribersOf ⟨c.owner, form.key⟩ = .empty ∨ form.Small

/-- Another component is sent the pair, and our own tree is as it was. -/
structure Asks (form : PostForm) (c : Component F) (owner : OwnerId) (clicked : Clicked F) :
    Prop where
  unchanged : clicked.entered.component = c
  frames : clicked.entered.todo.flatMap c.hands =
    if form.Small ∧ c.sessions.contains owner then
      [(owner, Message.pair (form.pair owner))]
    else []
  status : clicked.status = .ok (.postedTo form.key owner) ↔
    form.Small ∧ c.sessions.contains owner

section
variable {c : Component F} {clicked : Clicked F} {now : TimePoint} {owner : OwnerId}

theorem lists_view (c : Component F) (ownerFilter : OwnerId) (keyFilter : Bytes) (key : PairKey)
    (shown : Shown) : Lists c ownerFilter keyFilter key shown ↔
      Sought ownerFilter keyFilter key ∧ c.space.view key = some shown := by
  rw [lists_iff, PairSpace.view_eq_held, Sought, and_assoc]
  rfl

theorem told_eq_ok {exit : Except Wire.DecodeError Bool} {done failed status : PostStatus} :
    told exit done failed = .ok status ↔
      (exit = .ok true ∧ status = done) ∨ (exit = .ok false ∧ status = failed) := by
  unfold told
  cases exit with
  | error error => simp [Except.map]
  | ok result => cases result <;> simp [Except.map, eq_comm]

theorem small_iff (form : PostForm) (owner : OwnerId) :
    (Message.pair (form.pair owner)).fits ↔ form.Small :=
  pair_fits_iff _

theorem pair_write (form : PostForm) (owner : OwnerId) :
    (form.pair owner).write = .put ⟨owner, form.key⟩ form.shown :=
  if_neg form.pairType_valid

theorem lands (hready : c.ready) (form : PostForm) (now : TimePoint) :
    form.Lands c (form.postOurs c now) := by
  constructor
  · intro ownerFilter keyFilter key shown
    have hview : (c.setPair form.key form.value form.pairType now).component.space.view =
        c.space.view.apply (.put ⟨c.owner, form.key⟩ form.shown) := by
      rw [c.setPair_space, if_pos hready, PairSpace.view_addPair]
      exact congrArg _ (form.pair_write c.owner)
    rw [lists_view, lists_view, postOurs, hview]
    split
    · rename_i hkey
      have hsame := @Store.apply_same _ _ _ c.space.view (.put ⟨c.owner, form.key⟩ form.shown) key
        hkey.symm
      rw [hsame]
      exact and_congr_right' (Option.some_inj.trans eq_comm)
    · rename_i hkey
      rw [Store.apply_other (Ne.symm hkey)]
  · unfold postOurs
    by_cases hsmall : c.space.subscribersOf ⟨c.owner, form.key⟩ = .empty ∨ form.Small
    · rw [Component.setPairExit_small form.pairType now hready hsmall]
      exact iff_of_true rfl hsmall
    · rw [not_or] at hsmall
      obtain ⟨⟨error, herror⟩, _⟩ :=
        Component.setPair_too_large form.pairType now hready hsmall.1 hsmall.2
      rw [herror]
      refine iff_of_false ?_ (not_or.mpr hsmall)
      intro hok
      contradiction

theorem remoteExit_iff (form : PostForm) (c : Component F) (owner : OwnerId) :
    c.setRemotePairExit owner form.key form.value form.pairType = .ok true ↔
      form.Small ∧ c.sessions.contains owner := by
  unfold Component.setRemotePairExit
  by_cases hsession : c.sessions.contains owner
  · rw [if_pos hsession, and_iff_left hsession, ← form.small_iff owner]
    by_cases hfits : (Message.pair (form.pair owner)).fits
    · obtain ⟨bytes, hframe⟩ := Message.ok_of_fits hfits
      unfold PostForm.pair at hframe
      rw [hframe]
      exact iff_of_true rfl hfits
    · obtain ⟨error, hframe⟩ := Message.error_of_too_large (Bool.eq_false_iff.mpr hfits)
      unfold PostForm.pair at hframe
      rw [hframe]
      refine iff_of_false ?_ hfits
      intro hok
      contradiction
  · rw [if_neg hsession]
    refine iff_of_false ?_ fun h => hsession h.2
    intro hok
    cases hok

theorem asks (form : PostForm) (c : Component F) (owner : OwnerId) :
    form.Asks c owner (form.postTo c owner) := by
  constructor
  · rfl
  · have hhands := c.sendTo_hands owner (.pair (form.pair owner))
    simp only [small_iff] at hhands
    exact hhands
  · rw [← form.remoteExit_iff c owner, postTo, told_eq_ok]
    simp

theorem post_cases (h : form.post c now = some clicked) :
    (form.addressee c.owner = -2 ∧ clicked = ⟨c.idle, .ok (.notAnOwner form.owner)⟩) ∨
    (form.addressee c.owner ≠ -2 ∧ form.addressee c.owner = c.owner ∧
      clicked = form.postOurs c now) ∨
    (form.addressee c.owner ≠ -2 ∧ form.addressee c.owner ≠ c.owner ∧
      clicked = form.postTo c (form.addressee c.owner)) := by
  unfold post at h
  dsimp only at h
  split at h
  · contradiction
  split at h
  · rename_i hnone
    exact .inl ⟨hnone, (Option.some.inj h).symm⟩
  rename_i hsome
  split at h
  · rename_i hours
    exact .inr (.inl ⟨hsome, hours, (Option.some.inj h).symm⟩)
  · rename_i hother
    exact .inr (.inr ⟨hsome, hother, (Option.some.inj h).symm⟩)

/-- A click posts the pair where the field says: in our own tree, or, with one
frame, at another component. A field that names no one, or the owner -2, stops it. -/
theorem post_goes_where_named (hready : c.ready) (h : form.post c now = some clicked) :
    (∃ owner, form.Names c.owner owner ∧ owner ≠ -2 ∧
      if owner = c.owner then form.Lands c clicked else form.Asks c owner clicked) ∨
    ((∀ owner, form.Names c.owner owner → owner = -2) ∧
      clicked = ⟨c.idle, .ok (.notAnOwner form.owner)⟩) := by
  rcases post_cases h with ⟨hnone, rfl⟩ | ⟨hsome, hours, rfl⟩ | ⟨hsome, hother, rfl⟩
  · right
    refine ⟨?_, rfl⟩
    intro owner hnames
    by_contra howner
    exact howner (((names_iff howner).mp hnames).symm.trans hnone)
  · refine .inl ⟨_, (names_iff hsome).mpr rfl, hsome, ?_⟩
    rw [if_pos hours]
    exact lands hready form now
  · refine .inl ⟨_, (names_iff hsome).mpr rfl, hsome, ?_⟩
    rw [if_neg hother]
    exact asks form c _

theorem post_goes_where_named_blank : ∃ clicked : Clicked Unit,
    PostForm.post { key := [107], value := [1] } (.initial 1000) 5 = some clicked ∧
      Lists clicked.entered.component kAnyOwner [75] ⟨1000, [107]⟩ ([1], .string) := by
  refine ⟨_, rfl, ?_⟩
  rcases @post_goes_where_named Unit { key := [107], value := [1] } (.initial 1000) _ 5 rfl rfl
    with ⟨owner, hnames, _, hclick⟩ | ⟨hnone, _⟩
  · have hours : owner = (Component.initial 1000 : Component Unit).owner := by
      rcases hnames with ⟨_, hours⟩ | ⟨number, hnumeral, _⟩
      · exact hours
      · exact absurd rfl hnumeral.ne_nil
    rw [if_pos hours] at hclick
    have hsought : Sought kAnyOwner [75] ⟨1000, [107]⟩ := ⟨.inl rfl, by decide⟩
    exact (hclick.lists kAnyOwner [75] ⟨1000, [107]⟩ _).mpr ((if_pos rfl).mpr ⟨hsought, rfl⟩)
  · exact absurd (hnone 1000 (.inl ⟨rfl, rfl⟩)) (by decide)

/-! ### What becomes of it -/

theorem ready_of_posted (h : form.post c now = some clicked)
    (hstatus : clicked.status = .ok (.posted form.key)) : c.ready := by
  rcases post_cases h with ⟨_, rfl⟩ | ⟨_, _, rfl⟩ | ⟨_, _, rfl⟩
  · cases hstatus
  · rw [postOurs, told_eq_ok] at hstatus
    by_contra hready
    simp only [Component.setPairExit, hready] at hstatus
    rcases hstatus with ⟨hreturned, _⟩ | ⟨_, hfailed⟩
    · cases hreturned
    · cases hfailed
  · rw [postTo, told_eq_ok] at hstatus
    simp at hstatus

theorem asks_of_postedTo (h : form.post c now = some clicked)
    (hstatus : clicked.status = .ok (.postedTo form.key owner)) : form.Asks c owner clicked := by
  rcases post_cases h with ⟨_, rfl⟩ | ⟨_, _, rfl⟩ | ⟨_, _, rfl⟩
  · cases hstatus
  · rw [postOurs, told_eq_ok] at hstatus
    simp at hstatus
  · have howner : owner = form.addressee c.owner := by
      rw [postTo, told_eq_ok] at hstatus
      rcases hstatus with ⟨_, hdone⟩ | ⟨_, hfailed⟩
      · cases hdone
        rfl
      · cases hfailed
    subst howner
    exact asks form c _

/-- What a click comes to at the owner of the pair: the call it made there, or
the frame it handed over, in whatever state the window's node was. -/
inductive Arrives (form : PostForm) (c : Component F) : Call F → Prop
  | here {clicked : Clicked F} {now : TimePoint} (hclick : form.post c now = some clicked)
      (hstatus : clicked.status = .ok (.posted form.key)) :
      Arrives form c (.setPair form.key form.value form.pairType)
  | there {poster : Component F} {clicked : Clicked F} {now : TimePoint} {message : Message}
      (hclick : form.post poster now = some clicked)
      (hstatus : clicked.status = .ok (.postedTo form.key c.owner))
      (hframe : (c.owner, message) ∈ clicked.entered.todo.flatMap poster.hands) :
      Arrives form c (.handle message)

/-- At the owner it writes what was posted, whichever way it came. -/
theorem Arrives.writes {call : Call F} (h : form.Arrives c call) (now : TimePoint) :
    (c.enter call now).component.space.view =
      c.space.view.apply (.put ⟨c.owner, form.key⟩ form.shown) := by
  have hwrite : call.writes ∧ c.ownWrite call = some (.put ⟨c.owner, form.key⟩ form.shown) := by
    cases h with
    | here hclick hstatus =>
      have hready := ready_of_posted hclick hstatus
      refine ⟨rfl, ?_⟩
      rw [Component.ownWrite, if_pos hready]
      exact congrArg some (form.pair_write c.owner)
    | there hclick hstatus hframe =>
      rw [(asks_of_postedTo hclick hstatus).frames] at hframe
      split at hframe
      · cases List.mem_singleton.mp hframe
        exact ⟨rfl, congrArg some (form.pair_write c.owner)⟩
      · contradiction
  rw [c.view_enter_writes hwrite.1, hwrite.2]
  rfl

variable {nodes : OwnerId → Component F} {mesh after : Mesh F}

/-- The tree of a viewer has the pair as it was posted, under every filter that finds it. -/
def Seen (form : PostForm) (owner : OwnerId) (mesh : Mesh F) (viewer : OwnerId) : Prop :=
  ∀ ownerFilter keyFilter shown,
    Lists (mesh.nodes viewer) ownerFilter keyFilter ⟨owner, form.key⟩ shown ↔
      Sought ownerFilter keyFilter ⟨owner, form.key⟩ ∧ shown = form.shown

end

end PostForm

end Gui

end Srnp
