import Srnp.AllOrNothing
import Srnp.MetaRoundTrip

/-! Following a meta-pair. The client reads the meta-pair under the lock, takes
its text apart without it, and then reads or writes the pair that the text
names, as the component is by then. -/
namespace Srnp
open Std Transition

namespace Component
variable {F : Type} (c : Component F)

def setMetaPair (metaOwner : OwnerId) (metaKey : Bytes) (owner : OwnerId) (key : Bytes) : Call F :=
  let value := formatMeta owner key
  if metaOwner = c.owner then .setPair metaKey value .string
  else .setRemotePair metaOwner metaKey value .string

def setRemotePairExit (owner : OwnerId) (key value : Bytes) (type : PairType) :
    Except Wire.DecodeError Bool :=
  if c.sessions.contains owner then do
    let _ ← (Message.pair { owner, key, value, type }).frameOf
    pure true
  else pure false

def setMetaPairExit (metaOwner : OwnerId) (metaKey : Bytes) (owner : OwnerId) (key : Bytes)
    (now : TimePoint) : Except Wire.DecodeError Bool :=
  let value := formatMeta owner key
  if metaOwner = c.owner then c.setPairExit metaKey value .string now
  else c.setRemotePairExit metaOwner metaKey value .string

/-- The meta-pair is read in one state of the component, its target in a later one. -/
def getPairIndirectly (reading acting : Component F) (metaOwner : OwnerId) (metaKey : Bytes) :
    Option Pair :=
  match reading.getPair ⟨metaOwner, metaKey⟩ with
  | none => none
  | some metapair =>
      match Client.parseMetaValue metapair.value with
      | none => none
      | some target => acting.getPair target

structure Ended (F : Type) where
  entered : Entered F
  exit : Except Wire.DecodeError Bool

def setPairIndirectly (reading acting : Component F) (metaOwner : OwnerId) (metaKey value : Bytes)
    (now : TimePoint) : Ended F :=
  match reading.getPair ⟨metaOwner, metaKey⟩ with
  | none => ⟨acting.idle, pure false⟩
  | some metapair =>
      match Client.parseMetaValue metapair.value with
      | none => ⟨acting.idle, pure false⟩
      | some target =>
          if target.owner = acting.owner then
            ⟨acting.setPair target.key value .string now,
              acting.setPairExit target.key value .string now⟩
          else
            ⟨acting.setRemotePair target.owner target.key value .string,
              acting.setRemotePairExit target.owner target.key value .string⟩

/-! ### What a write may touch -/

/-- A call wrote a value to one pair: no other pair changed, and no frame is
about another. -/
structure WritesOnly (entered : Entered F) (key : PairKey) (value : Bytes) : Prop where
  announced : ∃ pair, entered.change = some (.pairUpdate pair) ∧ pair.pairKey = key ∧
    pair.value = value
  stored : (entered.component.space.copyOf key).map (·.value) = some value
  others : ∀ other, other ≠ key → entered.component.space.copyOf other = c.space.copyOf other
  frames : ∀ parcel ∈ entered.todo.flatMap c.hands, parcel.2.target = some key

/-- A call handed over one frame, and its handling writes the value to one pair. -/
structure AsksOnly (ended : Ended F) (key : PairKey) (value : Bytes) : Prop where
  unchanged : ended.entered.component = c
  frames : ended.entered.todo.flatMap c.hands =
    [(key.owner, .pair { owner := key.owner, key := key.key, value })]
  handled : ∀ (server : Component F) (now : TimePoint), server.owner = key.owner →
    server.WritesOnly
      (server.enter (.handle (.pair { owner := key.owner, key := key.key, value })) now) key value

structure DidNothing (ended : Ended F) : Prop where
  exit : ended.exit = .ok false
  unchanged : ended.entered.component.space = c.space
  frames : ended.entered.todo.flatMap c.hands = []

/-- A write reached one pair, here or at its owner, or nothing. -/
inductive Reaches (ended : Ended F) (key : PairKey) (value : Bytes) : Prop
  | nothing (h : c.DidNothing ended)
  | here (hown : key.owner = c.owner) (h : c.WritesOnly ended.entered key value)
  | there (hother : key.owner ≠ c.owner) (h : c.AsksOnly ended key value)

/-- What is read through a meta-pair is the pair it was pointed at, and a write
through it reaches that pair or nothing. -/
structure HitsOnly (reading acting : Component F) (metaKey : Bytes) (target : PairKey)
    (value : Bytes) (now : TimePoint) : Prop where
  read : ∀ pair, getPairIndirectly reading acting acting.owner metaKey = some pair →
    pair.pairKey = target ∧ acting.getPair target = some pair
  write : acting.Reaches (setPairIndirectly reading acting acting.owner metaKey value now) target
    value

/-- The parser finds no pair, or it finds the target and any frame about it can be
sent, or the pair it finds can neither be read nor written. -/
def Straight (target : PairKey) (value : Bytes) : Prop :=
  ∀ word, extractStrings target.key = [word] →
    if word = target.key then
      target.owner = c.owner ∨ ¬ c.sessions.contains target.owner ∨
        (Message.pair { owner := target.owner, key := word, value }).fits
    else
      target.owner ≠ c.owner ∧ ¬ c.sessions.contains target.owner ∧
        c.getPair ⟨target.owner, word⟩ = none

/-! ### The two ways to write -/

theorem mem_parcels_of_hands {todo : List (Action F)} {parcel : OwnerId × Message}
    (h : parcel ∈ todo.flatMap c.hands) : parcel ∈ parcels todo := by
  obtain ⟨action, haction, hparcel⟩ := List.mem_flatMap.mp h
  refine List.mem_filterMap.mpr ⟨action, haction, ?_⟩
  cases action with
  | send subscriber message =>
    simp only [hands] at hparcel
    split at hparcel
    · cases List.mem_singleton.mp hparcel
      rfl
    · contradiction
  | sendOn owner session message =>
    simp only [hands] at hparcel
    split at hparcel
    · cases List.mem_singleton.mp hparcel
      rfl
    · contradiction
  | _ => contradiction

theorem target_of_announced {message : Message} {parcel : OwnerId × Message}
    (h : parcel ∈ c.announced message) : parcel.2.target = message.target := by
  unfold announced at h
  split at h
  · split at h
    · obtain ⟨_, _, rfl⟩ := List.mem_map.mp h
      rfl
    · contradiction
  · contradiction

theorem writesOnly_addPair (pair : Pair) (now : TimePoint) {entered : Entered F}
    (hspace : entered.component.space = (c.space.addPair pair now).1)
    (hchange : entered.change = some (.pairUpdate (c.space.addPair pair now).2.pair))
    (hparcels : parcels entered.todo =
      c.announced (.pairUpdate (c.space.addPair pair now).2.pair)) :
    c.WritesOnly entered pair.pairKey pair.value where
  announced := ⟨_, hchange, PairSpace.addPair_pairKey _ _ _, PairSpace.addPair_value _ _ _⟩
  stored := by
    rw [hspace, PairSpace.copyOf_addPair, if_pos rfl, Option.map_some, PairSpace.addPair_value]
  others := by
    intro other hother
    rw [hspace, PairSpace.copyOf_addPair, if_neg hother.symm]
  frames := by
    intro parcel hparcel
    have howed := c.mem_parcels_of_hands hparcel
    rw [hparcels] at howed
    rw [c.target_of_announced howed, Message.target, PairSpace.addPair_pairKey]

theorem setPair_writesOnly (hready : c.ready) (key value : Bytes) (now : TimePoint) :
    c.WritesOnly (c.setPair key value .string now) ⟨c.owner, key⟩ value := by
  apply c.writesOnly_addPair { owner := c.owner, key, value } now
  · rw [c.setPair_space, if_pos hready]
  · simp only [setPair, hready, if_true]
  · simp only [setPair, hready, if_true, announced, Message.target, PairSpace.addPair_pairKey]
    rw [parcels_fanOutThen _ _ rfl (by simp), PairSpace.addPair_subscribers]

theorem handle_pair_writesOnly (pair : Pair) (howner : c.owner = pair.owner) (now : TimePoint) :
    c.WritesOnly (c.enter (.handle (.pair pair)) now) pair.pairKey pair.value := by
  have howned : { pair with owner := c.owner } = pair := by rw [howner]
  have hentered : c.enter (.handle (.pair pair)) now = c.applyAndNotify pair now := by
    rw [enter, handle, handleIncomingPair, howned]
  rw [hentered]
  exact c.writesOnly_addPair pair now rfl rfl (c.parcels_applyAndNotify pair now)

section
variable (owner : OwnerId) (key value : Bytes)

theorem setRemotePair_hands : (c.setRemotePair owner key value .string).todo.flatMap c.hands =
    if (Message.pair { owner, key, value }).fits ∧ c.sessions.contains owner then
      [(owner, .pair { owner, key, value })]
    else [] := by
  unfold setRemotePair sendTo
  by_cases hfits : (Message.pair { owner, key, value }).fits
  · by_cases hsession : c.sessions.contains owner <;> simp [hfits, hands, hsession]
  · simp [hfits]

theorem setRemotePair_asksOnly (hsession : c.sessions.contains owner)
    (hfits : (Message.pair { owner, key, value }).fits) (exit : Except Wire.DecodeError Bool) :
    c.AsksOnly ⟨c.setRemotePair owner key value .string, exit⟩ ⟨owner, key⟩ value where
  unchanged := rfl
  frames := by rw [c.setRemotePair_hands, if_pos ⟨hfits, hsession⟩]
  handled := by
    intro server now howner
    exact server.handle_pair_writesOnly { owner, key, value } howner now

theorem setRemotePair_didNothing (hsession : ¬ c.sessions.contains owner) :
    c.DidNothing ⟨c.setRemotePair owner key value .string,
      c.setRemotePairExit owner key value .string⟩ where
  exit := if_neg hsession
  unchanged := rfl
  frames := by rw [c.setRemotePair_hands, if_neg fun h => hsession h.2]

theorem setRemotePairExit_ne_false (hsession : c.sessions.contains owner) :
    c.setRemotePairExit owner key value .string ≠ .ok false := by
  intro hfalse
  rw [setRemotePairExit, if_pos hsession] at hfalse
  obtain ⟨_, _, htrue⟩ := Reading.Except.bind_eq_ok hfalse
  exact Bool.noConfusion (Except.ok.inj htrue)

theorem setPairExit_ne_false (hready : c.ready) (now : TimePoint) :
    c.setPairExit key value .string now ≠ .ok false := by
  intro hfalse
  rw [setPairExit, if_pos hready] at hfalse
  obtain ⟨_, _, htrue⟩ := Reading.Except.bind_eq_ok hfalse
  exact Bool.noConfusion (Except.ok.inj htrue)

end

/-! ### Following the text -/

theorem pairKey_of_getPair {c : Component F} {key : PairKey} {pair : Pair}
    (h : c.getPair key = some pair) : pair.pairKey = key := by
  obtain ⟨hcopy, -⟩ := Option.filter_eq_some_iff.mp h
  obtain ⟨entry, hfind, rfl⟩ := Option.map_eq_some_iff.mp hcopy
  exact PairSpace.pairKey_of_find hfind

section
variable {c} {reading : Component F} {metaKey : Bytes} {target : PairKey} (value : Bytes)
  (now : TimePoint)
  (hheld : ∃ metapair, reading.getPair ⟨c.owner, metaKey⟩ = some metapair ∧
    metapair.value = formatMeta target.owner target.key)
include hheld

theorem getPairIndirectly_formatted : getPairIndirectly reading c c.owner metaKey =
    match extractStrings target.key with
    | [word] => c.getPair ⟨target.owner, word⟩
    | _ => none := by
  obtain ⟨metapair, hmetapair, hvalue⟩ := hheld
  simp only [getPairIndirectly, hmetapair, hvalue, Client.parseMetaValue_formatMeta]
  rcases extractStrings target.key with _ | ⟨word, _ | ⟨next, more⟩⟩ <;> rfl

theorem setPairIndirectly_formatted : setPairIndirectly reading c c.owner metaKey value now =
    match extractStrings target.key with
    | [word] =>
        if target.owner = c.owner then
          ⟨c.setPair word value .string now, c.setPairExit word value .string now⟩
        else
          ⟨c.setRemotePair target.owner word value .string,
            c.setRemotePairExit target.owner word value .string⟩
    | _ => ⟨c.idle, pure false⟩ := by
  obtain ⟨metapair, hmetapair, hvalue⟩ := hheld
  simp only [setPairIndirectly, hmetapair, hvalue, Client.parseMetaValue_formatMeta]
  rcases extractStrings target.key with _ | ⟨word, _ | ⟨next, more⟩⟩ <;> rfl

theorem hitsOnly_of_no_word (hwords : ∀ word, extractStrings target.key ≠ [word]) :
    HitsOnly reading c metaKey target value now := by
  have hread := getPairIndirectly_formatted hheld
  have hwrite := setPairIndirectly_formatted value now hheld
  rcases hall : extractStrings target.key with _ | ⟨word, _ | ⟨next, more⟩⟩
  · rw [hall] at hread hwrite
    refine ⟨fun pair hpair => ?_, .nothing (hwrite ▸ ⟨rfl, rfl, rfl⟩)⟩
    rw [hread] at hpair
    contradiction
  · exact absurd hall (hwords word)
  · rw [hall] at hread hwrite
    refine ⟨fun pair hpair => ?_, .nothing (hwrite ▸ ⟨rfl, rfl, rfl⟩)⟩
    rw [hread] at hpair
    contradiction

theorem hitsOnly_same (hready : c.ready) (hword : extractStrings target.key = [target.key]) :
    HitsOnly reading c metaKey target value now ↔
      target.owner = c.owner ∨ ¬ c.sessions.contains target.owner ∨
        (Message.pair { owner := target.owner, key := target.key, value }).fits := by
  have hread := getPairIndirectly_formatted hheld
  have hwrite := setPairIndirectly_formatted value now hheld
  rw [hword] at hread hwrite
  dsimp only at hread hwrite
  have hreads : ∀ pair, getPairIndirectly reading c c.owner metaKey = some pair →
      pair.pairKey = target ∧ c.getPair target = some pair := by
    intro pair hpair
    rw [hread] at hpair
    exact ⟨pairKey_of_getPair hpair, hpair⟩
  constructor
  · intro hhits
    by_contra hnot
    push Not at hnot
    obtain ⟨hother, hsession, hlarge⟩ := hnot
    have hwrites := hhits.write
    rw [hwrite, if_neg hother] at hwrites
    cases hwrites with
    | nothing hnothing => exact c.setRemotePairExit_ne_false _ _ _ hsession hnothing.exit
    | here hown _ => exact hother hown
    | there _ hasks =>
      have hframes := hasks.frames
      rw [c.setRemotePair_hands, if_neg fun h => hlarge h.1] at hframes
      contradiction
  · intro hcases
    refine ⟨hreads, ?_⟩
    rw [hwrite]
    by_cases hown : target.owner = c.owner
    · have hwrites := c.setPair_writesOnly hready target.key value now
      rw [← hown] at hwrites
      rw [if_pos hown]
      exact .here hown hwrites
    · rw [if_neg hown]
      by_cases hsession : c.sessions.contains target.owner
      · have hfits := (hcases.resolve_left hown).resolve_left fun h => h hsession
        exact .there hown (c.setRemotePair_asksOnly _ _ _ hsession hfits _)
      · exact .nothing (c.setRemotePair_didNothing _ _ _ hsession)

/-- The word is another key: a write through it goes astray unless nothing can be
written there, and what is read is another pair unless there is none. -/
theorem hitsOnly_other (hready : c.ready) {word : Bytes}
    (hword : extractStrings target.key = [word]) (hother : word ≠ target.key) :
    HitsOnly reading c metaKey target value now ↔
      target.owner ≠ c.owner ∧ ¬ c.sessions.contains target.owner ∧
        c.getPair ⟨target.owner, word⟩ = none := by
  have hread := getPairIndirectly_formatted hheld
  have hwrite := setPairIndirectly_formatted value now hheld
  rw [hword] at hread hwrite
  dsimp only at hread hwrite
  constructor
  · intro hhits
    have hwrites := hhits.write
    rw [hwrite] at hwrites
    have hown : target.owner ≠ c.owner := by
      intro hown
      rw [if_pos hown] at hwrites
      cases hwrites with
      | nothing hnothing => exact c.setPairExit_ne_false _ _ hready now hnothing.exit
      | here _ hwritten =>
        obtain ⟨pair, hchange, hkey, -⟩ := hwritten.announced
        simp only [setPair, hready, if_true] at hchange
        cases Option.some.inj hchange
        rw [PairSpace.addPair_pairKey] at hkey
        exact hother (congrArg PairKey.key hkey)
      | there helse _ => exact helse hown
    rw [if_neg hown] at hwrites
    refine ⟨hown, ?_, ?_⟩
    · intro hsession
      cases hwrites with
      | nothing hnothing => exact c.setRemotePairExit_ne_false _ _ _ hsession hnothing.exit
      | here helse _ => exact hown helse
      | there _ hasks =>
        have hframes := hasks.frames
        rw [c.setRemotePair_hands] at hframes
        split at hframes
        · have hmessage := (Prod.mk.inj (List.cons.inj hframes).1).2
          exact hother (congrArg Pair.key (Message.pair.inj hmessage))
        · contradiction
    · by_contra hsome
      obtain ⟨pair, hpair⟩ := Option.ne_none_iff_exists'.mp hsome
      have hkey := (hhits.read pair (hread.trans hpair)).1
      rw [pairKey_of_getPair hpair] at hkey
      exact hother (congrArg PairKey.key hkey)
  · rintro ⟨hown, hsession, hnone⟩
    refine ⟨?_, .nothing ?_⟩
    · intro pair hpair
      rw [hread, hnone] at hpair
      contradiction
    · rw [hwrite, if_neg hown]
      exact c.setRemotePair_didNothing _ _ _ hsession

theorem hitsOnly_iff (hready : c.ready) :
    HitsOnly reading c metaKey target value now ↔ c.Straight target value := by
  unfold Straight
  by_cases hwords : ∃ word, extractStrings target.key = [word]
  · obtain ⟨word, hword⟩ := hwords
    have hall : ∀ (P : Bytes → Prop), (∀ other, extractStrings target.key = [other] → P other) ↔
        P word := by
      intro P
      constructor
      · intro h
        exact h word hword
      · intro h other hother
        rw [hword] at hother
        cases hother
        exact h
    rw [hall]
    by_cases hsame : word = target.key
    · rw [if_pos hsame]
      rw [hsame] at hword ⊢
      exact hitsOnly_same value now hheld hready hword
    · rw [if_neg hsame]
      exact hitsOnly_other value now hheld hready hword hsame
  · push Not at hwords
    exact iff_of_true (hitsOnly_of_no_word value now hheld hwords)
      fun word hword => absurd hword (hwords word)

end

theorem getPair_setMetaPair {metaKey : Bytes} {owner : OwnerId} {key : Bytes} {now : TimePoint}
    (hok : c.setMetaPairExit c.owner metaKey owner key now = .ok true) :
    c.ready ∧ ∃ metapair,
      (c.enter (c.setMetaPair c.owner metaKey owner key) now).component.space.copyOf
          ⟨c.owner, metaKey⟩ = some metapair ∧
        metapair.value = formatMeta owner key ∧ metapair.type = .string := by
  have hexit : c.setPairExit metaKey (formatMeta owner key) .string now = .ok true := by
    rw [setMetaPairExit, if_pos rfl] at hok
    exact hok
  have hready : c.ready := by
    by_contra hnot
    rw [setPairExit, if_neg hnot] at hexit
    exact Bool.noConfusion (Except.ok.inj hexit)
  let pair : Pair := { owner := c.owner, key := metaKey, value := formatMeta owner key }
  refine ⟨hready, (c.space.addPair pair now).2.pair, ?_, PairSpace.addPair_value _ _ _,
    PairSpace.addPair_type _ _ _⟩
  rw [setMetaPair, if_pos rfl, enter, setPair_space, if_pos hready, PairSpace.copyOf_addPair]
  exact if_pos rfl

end Component

namespace Node
variable {F : Type}

theorem step_identity {node next : Node F} {action : NodeAction F}
    (h : node.step action = some next) :
    next.component.owner = node.component.owner ∧ next.component.ready = node.component.ready := by
  rcases step_cases h with ⟨thread, call, now, -, -, -, rfl⟩ |
    ⟨thread, first, rest, -, -, rfl⟩ | ⟨thread, -, rfl⟩
  · exact node.component.enter_identity call now
  · rw [advance, perform_component]
    exact ⟨rfl, rfl⟩
  · exact ⟨rfl, rfl⟩

theorem reach_identity {node later : Node F} (h : Reach Node.step unguarded node later) :
    later.component.owner = node.component.owner ∧
      later.component.ready = node.component.ready := by
  refine Reach.invariant (I := fun later => later.component.owner = node.component.owner ∧
    later.component.ready = node.component.ready) ⟨rfl, rfl⟩ ?_ h
  intro earlier action next hearlier _ hstep
  obtain ⟨howner, hready⟩ := step_identity hstep
  exact ⟨howner.trans hearlier.1, hready.trans hearlier.2⟩

theorem metaPair_held {node written reading acting : Node F} {thread : ThreadId} {metaKey : Bytes}
    {target : PairKey} {now : TimePoint}
    (hset : node.step (.enter thread (node.component.setMetaPair node.component.owner metaKey
      target.owner target.key) now) = some written)
    (hok : node.component.setMetaPairExit node.component.owner metaKey target.owner target.key now =
      .ok true)
    (hreading : Reach Node.step unguarded written reading)
    (hsame : reading.component.space.copyOf ⟨node.component.owner, metaKey⟩ =
      written.component.space.copyOf ⟨node.component.owner, metaKey⟩)
    (hacting : Reach Node.step unguarded reading acting) :
    acting.component.ready ∧ ∃ metapair,
      reading.component.getPair ⟨acting.component.owner, metaKey⟩ = some metapair ∧
        metapair.value = formatMeta target.owner target.key := by
  obtain ⟨howner, hready⟩ := reach_identity (hreading.trans hacting)
  obtain ⟨howner', hready'⟩ := step_identity hset
  obtain ⟨hwas, metapair, hcopy, hvalue, htype⟩ := node.component.getPair_setMetaPair hok
  have hentered : written.component = (node.component.enter (node.component.setMetaPair
      node.component.owner metaKey target.owner target.key) now).component := by
    rcases step_cases hset with ⟨_, _, _, haction, -, -, rfl⟩ | ⟨_, _, _, haction, -⟩ |
      ⟨_, haction, -⟩
    · cases haction
      rfl
    · contradiction
    · contradiction
  refine ⟨(hready.trans hready').trans hwas, metapair, ?_, hvalue⟩
  rw [Component.getPair, howner.trans howner', hsame, hentered, hcopy, Option.filter_some, htype]
  rfl

end Node

/-- What a meta-pair of ours is followed to is the pair it was pointed at exactly if the key goes
straight through the text, or what is left of it leads to no pair at all. -/
theorem indirection_hits_iff {F : Type} {node written reading acting : Node F} {thread : ThreadId}
    {metaKey : Bytes} {target : PairKey} {now : TimePoint} (value : Bytes) (later : TimePoint)
    (hset : node.step (.enter thread (node.component.setMetaPair node.component.owner metaKey
      target.owner target.key) now) = some written)
    (hok : node.component.setMetaPairExit node.component.owner metaKey target.owner target.key now =
      .ok true)
    (hreading : Reach Node.step unguarded written reading)
    (hsame : reading.component.space.copyOf ⟨node.component.owner, metaKey⟩ =
      written.component.space.copyOf ⟨node.component.owner, metaKey⟩)
    (hacting : Reach Node.step unguarded reading acting) :
    reading.component.HitsOnly acting.component metaKey target value later ↔
      acting.component.Straight target value := by
  obtain ⟨hready, hheld⟩ := Node.metaPair_held hset hok hreading hsame hacting
  exact Component.hitsOnly_iff value later hheld hready

/-! Component 1000 points its meta-pair `m` at a pair. -/

def fresh : Node Unit := .quiet (.initial 1000)

def pointedAt (target : PairKey) : Node Unit :=
  fresh.enter 0 (fresh.component.setMetaPair fresh.component.owner [109] target.owner target.key) 1

theorem step_pointedAt (target : PairKey) : fresh.step (.enter 0 (fresh.component.setMetaPair
    fresh.component.owner [109] target.owner target.key) 1) = some (pointedAt target) := by
  rw [Node.step]
  apply if_pos
  rw [Component.setMetaPair, if_pos rfl]
  rfl

theorem setMetaPairExit_fresh (target : PairKey) : fresh.component.setMetaPairExit
    fresh.component.owner [109] target.owner target.key 1 = .ok true := by
  rw [Component.setMetaPairExit, if_pos rfl]
  exact Component.setPairExit_small .string 1 rfl (.inl rfl)

theorem indirection_hits_plain : (pointedAt ⟨1000, [107]⟩).component.HitsOnly
    (pointedAt ⟨1000, [107]⟩).component [109] ⟨1000, [107]⟩ [7] 2 := by
  refine (indirection_hits_iff [7] 2 (step_pointedAt _) (setMetaPairExit_fresh _) .refl rfl
    .refl).mpr ?_
  intro word hword
  cases (List.cons.inj (hword.symm.trans (show extractStrings [107] = [[107]] by decide))).1
  exact .inl rfl

/-- Pointed at `a)`, the meta-pair is followed to `a`. -/
theorem mangled_key_redirects :
    ¬ ∀ (node written reading acting : Node Unit) (thread : ThreadId) (metaKey : Bytes)
      (target : PairKey) (now : TimePoint) (value : Bytes) (later : TimePoint),
      Reach Node.step unguarded (.quiet (.initial 1000)) node →
      node.step (.enter thread (node.component.setMetaPair node.component.owner metaKey
        target.owner target.key) now) = some written →
      node.component.setMetaPairExit node.component.owner metaKey target.owner target.key now =
        .ok true →
      Reach Node.step unguarded written reading →
      reading.component.space.copyOf ⟨node.component.owner, metaKey⟩ =
        written.component.space.copyOf ⟨node.component.owner, metaKey⟩ →
      Reach Node.step unguarded reading acting →
      reading.component.HitsOnly acting.component metaKey target value later := by
  intro hclaim
  let target : PairKey := ⟨1000, [97, 41]⟩
  have hhits := hclaim fresh (pointedAt target) (pointedAt target) (pointedAt target) 0 [109] target
    1 [7] 2 .refl (step_pointedAt target) (setMetaPairExit_fresh target) .refl rfl .refl
  obtain ⟨hready, hheld⟩ := Node.metaPair_held (step_pointedAt target)
    (setMetaPairExit_fresh target) .refl rfl .refl
  have hstraight := (Component.hitsOnly_iff [7] 2 hheld hready).mp hhits [97] (by decide)
  rw [if_neg (by decide)] at hstraight
  exact hstraight.1 rfl

end Srnp
