import Mathlib

/-! Registrations under handles. A table says what each handle names just now,
what each handle was once given out for and to whom, and which handle each
agent keeps. Handles may also be given to parties that are no agents here, and
such a party may take a registration away. Two things can go wrong: a
registration made for an agent whose handle the agent does not keep, and a
handle kept after its registration is gone. -/
namespace HandleTable

variable {η ρ α : Type}

structure Table (η ρ α : Type) where
  live : η → Option ρ
  /-- The agent a handle was given to, if it was one, and what for. -/
  issued : η → Option (Option α × ρ)
  holder : α → Option η

structure Table.Fresh (t : Table η ρ α) (h : η) : Prop where
  dead : t.live h = none
  unheld : ∀ a, t.holder a ≠ some h

structure Permits where
  /-- A registration is made and its handle not kept. -/
  leak : Prop
  /-- A registration is given up and its handle kept. -/
  lose : Prop
  /-- Somebody else gives up a registration whose handle an agent keeps. -/
  remove : Prop

section
variable [DecidableEq η] [DecidableEq α]

/-- One change of a table. `proper` is what an agent may register. -/
inductive Event (proper : α → ρ → Prop) (permits : Permits) :
    Table η ρ α → Table η ρ α → Prop
  | acquire {t : Table η ρ α} {a : α} {h : η} {v : ρ} (fresh : t.Fresh h)
      (free : t.holder a = none) (hproper : proper a v) :
      Event proper permits t
        ⟨Function.update t.live h (some v), Function.update t.issued h (some (some a, v)),
          Function.update t.holder a (some h)⟩
  | release {t : Table η ρ α} {a : α} {h : η} (held : t.holder a = some h) :
      Event proper permits t
        ⟨Function.update t.live h none, t.issued, Function.update t.holder a none⟩
  | leak {t : Table η ρ α} {a : α} {h : η} {v : ρ} (permitted : permits.leak)
      (fresh : t.Fresh h) :
      Event proper permits t
        ⟨Function.update t.live h (some v), Function.update t.issued h (some (some a, v)), t.holder⟩
  | lose {t : Table η ρ α} {a : α} {h : η} (permitted : permits.lose)
      (held : t.holder a = some h) :
      Event proper permits t ⟨Function.update t.live h none, t.issued, t.holder⟩
  | add {t : Table η ρ α} {h : η} {v : ρ} (fresh : t.Fresh h) :
      Event proper permits t
        ⟨Function.update t.live h (some v), Function.update t.issued h (some (none, v)), t.holder⟩
  | remove {t : Table η ρ α} {h : η}
      (permitted : permits.remove ∨ ∀ a, t.holder a ≠ some h) :
      Event proper permits t ⟨Function.update t.live h none, t.issued, t.holder⟩
  | reset {t : Table η ρ α} (free : ∀ a, t.holder a = none) :
      Event proper permits t ⟨fun _ => none, fun _ => none, t.holder⟩

abbrev Events (proper : α → ρ → Prop) (permits : Permits) :
    Table η ρ α → Table η ρ α → Prop :=
  Relation.ReflTransGen (Event proper permits)

end

theorem Event.ends {proper : α → ρ → Prop} {permits : Permits} {t u v : Table η ρ α}
    [DecidableEq η] [DecidableEq α] (event : Event proper permits t u) (hlive : v.live = u.live)
    (hissued : v.issued = u.issued) (hholder : v.holder = u.holder) :
    Events proper permits t v := by
  have heq : v = u := by
    cases v
    cases u
    congr
  rw [heq]
  exact .single event

theorem Events.same {proper : α → ρ → Prop} {permits : Permits} {t v : Table η ρ α}
    [DecidableEq η] [DecidableEq α] (hlive : v.live = t.live) (hissued : v.issued = t.issued)
    (hholder : v.holder = t.holder) : Events proper permits t v := by
  have heq : v = t := by
    cases v
    cases t
    congr
  rw [heq]

/-- A handle names what it was given out for, and an agent keeps handles that
it was given. -/
structure Sound (proper : α → ρ → Prop) (t : Table η ρ α) : Prop where
  issued : ∀ h v, t.live h = some v → ∃ to_, t.issued h = some (to_, v)
  made : ∀ a h, t.holder a = some h → ∃ v, t.issued h = some (some a, v) ∧ proper a v

/-- An agent keeps the handle of every registration made for it. -/
def Covered (t : Table η ρ α) : Prop :=
  ∀ h a v, t.issued h = some (some a, v) → (t.live h).isSome → t.holder a = some h

/-- A handle that an agent keeps names something. -/
def Alive (t : Table η ρ α) : Prop :=
  ∀ a h, t.holder a = some h → (t.live h).isSome

def AliveOn (agents : α → Prop) (t : Table η ρ α) : Prop :=
  ∀ a h, agents a → t.holder a = some h → (t.live h).isSome

variable {proper : α → ρ → Prop} {permits : Permits} {t u : Table η ρ α}

theorem Sound.holder_inj (h : Sound proper t) {a b : α} {handle : η}
    (ha : t.holder a = some handle) (hb : t.holder b = some handle) : a = b := by
  obtain ⟨v, hv, _⟩ := h.made a handle ha
  obtain ⟨w, hw, _⟩ := h.made b handle hb
  rw [hv] at hw
  cases hw
  rfl

theorem Table.Fresh.mono {handle : η} (h : t.Fresh handle)
    (hlive : ∀ other, u.live other = none ∨ u.live other = t.live other)
    (hholder : ∀ a, u.holder a = none ∨ u.holder a = t.holder a) : u.Fresh handle := by
  constructor
  · rcases hlive handle with hnone | hsame
    · exact hnone
    · rw [hsame]
      exact h.dead
  · intro a hheld
    rcases hholder a with hnone | hsame
    · rw [hnone] at hheld
      contradiction
    · rw [hsame] at hheld
      exact h.unheld a hheld

theorem Table.Fresh.ne {handle fresh : η} (h : t.Fresh fresh) {a : α}
    (ha : t.holder a = some handle) : handle ≠ fresh := by
  rintro rfl
  exact h.unheld a ha

variable [DecidableEq η]

theorem live_of_update {live : η → Option ρ} {gone handle : η} {v : ρ}
    (h : Function.update live gone none handle = some v) : live handle = some v := by
  rw [Function.update_apply] at h
  split at h
  · contradiction
  · exact h

variable [DecidableEq α]

omit [DecidableEq η] in
theorem holder_of_update {holder : α → Option η} {gone a : α} {handle : η}
    (h : Function.update holder gone none a = some handle) : a ≠ gone ∧ holder a = some handle := by
  rw [Function.update_apply] at h
  split at h
  · contradiction
  · rename_i hne
    exact ⟨hne, h⟩

omit [DecidableEq α] in
theorem Sound.give (h : Sound proper t) {handle : η} {v : ρ} (fresh : t.Fresh handle)
    (to_ : Option α) :
    Sound proper ⟨Function.update t.live handle (some v),
      Function.update t.issued handle (some (to_, v)), t.holder⟩ := by
  constructor
  · intro other w hlive
    simp only [Function.update_apply] at hlive ⊢
    split at hlive
    · rename_i heq
      cases hlive
      exact ⟨to_, if_pos heq⟩
    · rename_i hne
      rw [if_neg hne]
      exact h.issued other w hlive
  · intro a other hheld
    have hne := fresh.ne hheld
    simp only [Function.update_of_ne hne]
    exact h.made a other hheld

omit [DecidableEq α] in
theorem Sound.drop (h : Sound proper t) (handle : η) :
    Sound proper ⟨Function.update t.live handle none, t.issued, t.holder⟩ :=
  ⟨fun other v hlive => h.issued other v (live_of_update hlive), h.made⟩

theorem Sound.event (h : Sound proper t) (event : Event proper permits t u) : Sound proper u := by
  cases event with
  | @acquire a handle v fresh free hproper =>
    have hgiven := h.give (v := v) fresh (some a)
    refine ⟨hgiven.issued, ?_⟩
    intro b other hheld
    simp only [Function.update_apply] at hheld
    split at hheld
    · rename_i heq
      cases hheld
      rw [heq]
      exact ⟨v, Function.update_self _ _ _, hproper⟩
    · exact hgiven.made b other hheld
  | release held =>
    refine ⟨(h.drop _).issued, ?_⟩
    intro b other hheld
    exact h.made b other (holder_of_update hheld).2
  | leak _ fresh => exact h.give fresh _
  | lose => exact h.drop _
  | add fresh => exact h.give fresh none
  | remove => exact h.drop _
  | reset free =>
    refine ⟨fun _ _ hlive => by contradiction, ?_⟩
    intro a handle hheld
    rw [free a] at hheld
    contradiction

/-- Where no registration is made without its handle being kept, none is left
without a keeper. -/
theorem Covered.event (h : Covered t) (hleak : ¬ permits.leak)
    (event : Event proper permits t u) : Covered u := by
  have hdrop : ∀ handle : η, Covered ⟨Function.update t.live handle none, t.issued, t.holder⟩ := by
    intro handle other a v hissued hlive
    apply h other a v hissued
    obtain ⟨w, hw⟩ := Option.isSome_iff_exists.mp hlive
    rw [live_of_update hw]
    rfl
  cases event with
  | @acquire b handle w fresh free _ =>
    intro other a v hissued hlive
    simp only [Function.update_apply] at hissued hlive ⊢
    by_cases heq : other = handle
    · rw [if_pos heq] at hissued
      cases hissued
      rw [if_pos rfl, heq]
    · rw [if_neg heq] at hissued hlive
      have hheld := h other a v hissued hlive
      rw [if_neg ?_]
      · exact hheld
      · rintro rfl
        rw [free] at hheld
        contradiction
  | @release b handle held =>
    intro other a v hissued hlive
    have hheld := hdrop handle other a v hissued hlive
    have hne : a ≠ b := by
      rintro rfl
      rw [held] at hheld
      cases hheld
      simp at hlive
    change Function.update t.holder b none a = some other
    rw [Function.update_of_ne hne]
    exact hheld
  | leak permitted => exact absurd permitted hleak
  | lose => exact hdrop _
  | @add handle w fresh =>
    intro other a v hissued hlive
    simp only [Function.update_apply] at hissued hlive
    split at hissued
    · cases hissued
    · rename_i hne
      rw [if_neg hne] at hlive
      exact h other a v hissued hlive
  | remove => exact hdrop _
  | reset =>
    intro other a v hissued
    contradiction

theorem AliveOn.event {agents : α → Prop} (h : AliveOn agents t) (hsound : Sound proper t)
    (hlose : ¬ permits.lose) (hremove : ¬ permits.remove) (event : Event proper permits t u) :
    AliveOn agents u := by
  have hgive : ∀ (handle : η) (v : ρ), t.Fresh handle → ∀ a other, agents a →
      t.holder a = some other → (Function.update t.live handle (some v) other).isSome := by
    intro handle v fresh a other ha hheld
    rw [Function.update_of_ne (fresh.ne hheld)]
    exact h a other ha hheld
  cases event with
  | @acquire b handle w fresh free _ =>
    intro a other ha hheld
    change Function.update t.holder b (some handle) a = some other at hheld
    rw [Function.update_apply] at hheld
    split at hheld
    · cases hheld
      simp
    · exact hgive handle w fresh a other ha hheld
  | @release b handle held =>
    intro a other ha hheld
    obtain ⟨hne, hstill⟩ := holder_of_update hheld
    have hother : other ≠ handle := by
      rintro rfl
      exact hne (hsound.holder_inj hstill held)
    change (Function.update t.live handle none other).isSome
    rw [Function.update_of_ne hother]
    exact h a other ha hstill
  | leak _ fresh => exact hgive _ _ fresh
  | lose permitted => exact absurd permitted hlose
  | add fresh => exact hgive _ _ fresh
  | @remove handle permitted =>
    intro a other ha hheld
    have hother : other ≠ handle := by
      rintro rfl
      exact permitted.resolve_left hremove a hheld
    change (Function.update t.live handle none other).isSome
    rw [Function.update_of_ne hother]
    exact h a other ha hheld
  | reset free =>
    intro a handle _ hheld
    rw [free a] at hheld
    contradiction

theorem Sound.events (h : Sound proper t) (events : Events proper permits t u) :
    Sound proper u := by
  induction events with
  | refl => exact h
  | tail _ event ih => exact ih.event event

theorem Covered.events (h : Covered t) (hleak : ¬ permits.leak)
    (events : Events proper permits t u) : Covered u := by
  induction events with
  | refl => exact h
  | tail _ event ih => exact ih.event hleak event

theorem AliveOn.events {agents : α → Prop} (h : AliveOn agents t) (hsound : Sound proper t)
    (hlose : ¬ permits.lose) (hremove : ¬ permits.remove) (events : Events proper permits t u) :
    AliveOn agents u := by
  induction events with
  | refl => exact h
  | tail before event ih => exact ih.event (hsound.events before) hlose hremove event

theorem Alive.events (h : Alive t) (hsound : Sound proper t) (hlose : ¬ permits.lose)
    (hremove : ¬ permits.remove) (events : Events proper permits t u) : Alive u := by
  have hall : AliveOn (fun _ => True) u :=
    AliveOn.events (fun a handle _ => h a handle) hsound hlose hremove events
  exact fun a handle => hall a handle trivial

end HandleTable
