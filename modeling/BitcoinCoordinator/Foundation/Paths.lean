import BitcoinCoordinator.Foundation.Table
import Mathlib.Data.List.Lex
import Mathlib.Order.Monotone.Defs

/-!
# Tables over paths

The keys of a hierarchical table are paths, and a scan visits the values below a path in key order. A table that
is kept below a path of another one, each key under a path of its own in the same order, is what a scan reads.
-/

namespace Foundation

namespace Table

variable {σ K V A : Type} [LinearOrder σ] [LinearOrder K]

/-- The values below a path, in key order. -/
def scan (t : Table (List σ) V) (root : List σ) : List V :=
  (t.entries.filter fun e => root.isPrefixOf e.1).map Prod.snd

/-- The entries below a path are those of a table kept there. -/
theorem entries_below {t : Table (List σ) V} {u : Table K A} {root : List σ} {path : K → List σ} {f : A → V}
    (hmono : StrictMono path)
    (h : ∀ p v, (t.get p = some v ∧ root <+: p) ↔ ∃ k a, u.get k = some a ∧ path k = p ∧ f a = v) :
    (t.entries.filter fun e => root.isPrefixOf e.1) = u.entries.map fun e => (path e.1, f e.2) := by
  have hleft : (t.entries.filter fun e => root.isPrefixOf e.1).Pairwise fun a b => a.1 < b.1 := t.sorted.filter _
  have hright : (u.entries.map fun e => (path e.1, f e.2)).Pairwise fun a b => a.1 < b.1 :=
    List.pairwise_map.mpr (u.sorted.imp fun hlt => hmono hlt)
  have hmem : ∀ e : List σ × V, e ∈ (t.entries.filter fun e => root.isPrefixOf e.1) ↔
      e ∈ u.entries.map fun e => (path e.1, f e.2) := by
    rintro ⟨p, v⟩
    rw [List.mem_filter, List.isPrefixOf_iff_prefix, ← lookupEntry_eq_some t.sorted, List.mem_map]
    constructor
    · intro hin
      obtain ⟨k, a, hget, rfl, rfl⟩ := (h p v).mp hin
      exact ⟨(k, a), (lookupEntry_eq_some u.sorted).mp hget, rfl⟩
    · rintro ⟨⟨k, a⟩, hin, heq⟩
      obtain ⟨rfl, rfl⟩ := Prod.mk.inj heq
      exact (h _ _).mpr ⟨k, a, (lookupEntry_eq_some u.sorted).mpr hin, rfl, rfl⟩
  have hnodup : ∀ {l : List (List σ × V)}, (l.Pairwise fun a b => a.1 < b.1) → l.Nodup := by
    intro l hsorted
    refine List.Pairwise.imp ?_ hsorted
    rintro a b hlt rfl
    exact lt_irrefl _ hlt
  have hperm := (List.perm_ext_iff_of_nodup (hnodup hleft) (hnodup hright)).mpr hmem
  exact hperm.eq_of_pairwise (fun a b _ _ hab hba => absurd (lt_trans hab hba) (lt_irrefl _)) hleft hright

/-- A scan reads the values of a table kept below the path. -/
theorem scan_eq_values {t : Table (List σ) V} {u : Table K A} {root : List σ} {path : K → List σ} {f : A → V}
    (hmono : StrictMono path)
    (h : ∀ p v, (t.get p = some v ∧ root <+: p) ↔ ∃ k a, u.get k = some a ∧ path k = p ∧ f a = v) :
    t.scan root = u.values.map f := by
  unfold scan values
  rw [entries_below hmono h, List.map_map, List.map_map]
  rfl

end Table

end Foundation
