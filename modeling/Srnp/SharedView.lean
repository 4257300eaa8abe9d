import Srnp.Convergence
import Srnp.Indirection
import Srnp.PairView

/-! Two windows onto one pair. Each component draws its own tree from its own
pair space; of the pairs a component is subscribed to, its tree has the rows
that the owner's tree had at some moment before, and the same filters find the
same rows in both. -/
namespace Srnp.Gui
open Std Transition

variable {F : Type}

/-- The tree of a component has a row with this key, value and type under an owner. -/
def Lists (c : Component F) (ownerFilter : OwnerId) (keyFilter : Bytes) (key : PairKey)
    (shown : Shown) : Prop :=
  ∃ rows row, (rowsByOwner c.owner ownerFilter keyFilter c.space.snapshotPairs)[key.owner]? =
      some rows ∧ row ∈ rows ∧ row.pair.key = key.key ∧ (row.pair.value, row.pair.type) = shown

theorem lists_iff (c : Component F) (ownerFilter : OwnerId) (keyFilter : Bytes) (key : PairKey)
    (shown : Shown) : Lists c ownerFilter keyFilter key shown ↔
      (ownerFilter = kAnyOwner ∨ key.owner = ownerFilter) ∧
        keyFilter.map lower <:+: key.key.map lower ∧
        (c.getPair key).map (fun pair => (pair.value, pair.type)) = some shown := by
  have htree := mem_tree c ownerFilter keyFilter
  constructor
  · rintro ⟨rows, row, hrows, hmem, hkey, hshown⟩
    obtain ⟨hheld, howner, _, hfilter, hmatch⟩ := (htree key.owner row).mp ⟨rows, hrows, hmem⟩
    have hpairKey : row.pair.pairKey = key := by
      rw [Pair.pairKey, howner, hkey]
    rw [hpairKey] at hheld
    rw [hkey] at hmatch
    exact ⟨hfilter, hmatch, by rw [hheld, Option.map_some, hshown]⟩
  · rintro ⟨hfilter, hmatch, hheld⟩
    obtain ⟨pair, hpair, hshown⟩ := Option.map_eq_some_iff.mp hheld
    have hkey := Component.pairKey_of_getPair hpair
    subst hkey
    obtain ⟨rows, hrows, hmem⟩ := (htree pair.owner ⟨pair, pair.owner = c.owner⟩).mpr
      ⟨hpair, rfl, rfl, hfilter, hmatch⟩
    exact ⟨rows, _, hrows, hmem, rfl, hshown⟩

section
variable {nodes : OwnerId → Component F} {mesh past : Mesh F} {owner subscriber : OwnerId}

/-- The trees of two components have the same rows for what the one is subscribed to. -/
def TreesAgree (nodes : OwnerId → Component F) (owner subscriber : OwnerId) (mesh past : Mesh F) :
    Prop :=
  ∀ ownerFilter keyFilter key shown, Mesh.Interest nodes owner subscriber key →
    (Lists (mesh.nodes subscriber) ownerFilter keyFilter key shown ↔
      Lists (past.nodes owner) ownerFilter keyFilter key shown)

theorem treesAgree_of_shows (h : Mesh.Shows nodes owner subscriber mesh past) :
    TreesAgree nodes owner subscriber mesh past := by
  intro ownerFilter keyFilter key shown hinterest
  rw [lists_iff, lists_iff, h key hinterest]

end

end Srnp.Gui
