import Mathlib.Order.Lattice
import Mathlib.Data.List.Basic
import Mathlib.Data.List.Perm.Basic

/-!
# Key-value tables in key order

A finite map kept as a list of entries in strictly increasing key order. The order is a field
of the structure, so a table never holds two entries of one key, scanning it visits the keys
in order, and two tables with the same lookups are equal.
-/

namespace Foundation

/-- A finite map from ordered keys, listed in strictly increasing key order. -/
structure Table (K V : Type) [LinearOrder K] where
  entries : List (K × V)
  sorted : entries.Pairwise (fun a b => a.1 < b.1)

namespace Table

variable {K V : Type} [LinearOrder K]

/-- The value of the first entry with the given key. -/
def lookupEntry (k : K) : List (K × V) → Option V
  | [] => none
  | (k', v) :: rest => if k = k' then some v else lookupEntry k rest

/-- Put an entry at its place in key order, replacing an entry of the same key. -/
def insertEntry (k : K) (v : V) : List (K × V) → List (K × V)
  | [] => [(k, v)]
  | (k', v') :: rest =>
    if k < k' then (k, v) :: (k', v') :: rest
    else if k = k' then (k, v) :: rest
    else (k', v') :: insertEntry k v rest

/-- An inserted list holds the new entry and old entries only. -/
theorem mem_insertEntry {k : K} {v : V} {es : List (K × V)} {e : K × V}
    (h : e ∈ insertEntry k v es) : e = (k, v) ∨ e ∈ es := by
  induction es with
  | nil => simpa [insertEntry] using h
  | cons e' rest ih =>
    obtain ⟨k', v'⟩ := e'
    simp only [insertEntry] at h
    split at h
    · simpa using h
    · split at h
      · rcases List.mem_cons.mp h with rfl | h
        · exact Or.inl rfl
        · exact Or.inr (List.mem_cons_of_mem _ h)
      · rcases List.mem_cons.mp h with rfl | h
        · exact Or.inr List.mem_cons_self
        · exact (ih h).imp_right (List.mem_cons_of_mem _)

/-- Insertion keeps the entries in key order. -/
theorem insertEntry_sorted (k : K) (v : V) {es : List (K × V)}
    (h : es.Pairwise (fun a b => a.1 < b.1)) :
    (insertEntry k v es).Pairwise (fun a b => a.1 < b.1) := by
  induction es with
  | nil => simp [insertEntry]
  | cons e rest ih =>
    obtain ⟨k', v'⟩ := e
    obtain ⟨hhead, htail⟩ := List.pairwise_cons.mp h
    simp only [insertEntry]
    split
    case isTrue hlt =>
      refine List.pairwise_cons.mpr ⟨?_, h⟩
      intro e he
      rcases List.mem_cons.mp he with rfl | he
      · exact hlt
      · exact lt_trans hlt (hhead e he)
    case isFalse hnlt =>
      split
      case isTrue heq =>
        subst heq
        exact List.pairwise_cons.mpr ⟨hhead, htail⟩
      case isFalse hne =>
        refine List.pairwise_cons.mpr ⟨?_, ih htail⟩
        intro e he
        rcases mem_insertEntry he with rfl | he
        · exact lt_of_le_of_ne (not_lt.mp hnlt) (Ne.symm hne)
        · exact hhead e he

/-- The table with no entries. -/
def empty : Table K V := ⟨[], List.Pairwise.nil⟩

/-- The value stored under a key. -/
def get (t : Table K V) (k : K) : Option V := lookupEntry k t.entries

/-- Store a value under a key. -/
def set (t : Table K V) (k : K) (v : V) : Table K V :=
  ⟨insertEntry k v t.entries, insertEntry_sorted k v t.sorted⟩

/-- Drop a key. -/
def erase (t : Table K V) (k : K) : Table K V :=
  ⟨t.entries.filter (fun e => decide (e.1 ≠ k)), t.sorted.filter _⟩

/-- All values, in key order. -/
def values (t : Table K V) : List V := t.entries.map Prod.snd

/-- Nothing is stored in the empty table. -/
@[simp] theorem get_empty (k : K) : (empty : Table K V).get k = none := rfl

/-- Looking a key up after inserting it finds the new value; other keys are untouched. -/
theorem lookupEntry_insertEntry (k k' : K) (v : V) (es : List (K × V)) :
    lookupEntry k' (insertEntry k v es) = if k' = k then some v else lookupEntry k' es := by
  induction es with
  | nil => simp [insertEntry, lookupEntry]
  | cons e rest ih =>
    obtain ⟨k₁, v₁⟩ := e
    simp only [insertEntry]
    split
    · simp [lookupEntry]
    · split
      case isTrue heq =>
        subst heq
        simp only [lookupEntry]
        split <;> rfl
      case isFalse hne =>
        simp only [lookupEntry, ih]
        by_cases h₁ : k' = k₁
        · subst h₁
          simp [Ne.symm hne]
        · simp [h₁]

/-- A stored key reads back its value and every other key reads as before. -/
theorem get_set (t : Table K V) (k k' : K) (v : V) :
    (t.set k v).get k' = if k' = k then some v else t.get k' :=
  lookupEntry_insertEntry k k' v t.entries

/-- A stored key reads back its value. -/
@[simp] theorem get_set_self (t : Table K V) (k : K) (v : V) : (t.set k v).get k = some v := by
  simp [get_set]

/-- Storing under another key changes nothing. -/
theorem get_set_ne (t : Table K V) {k k' : K} (v : V) (h : k' ≠ k) :
    (t.set k v).get k' = t.get k' := by
  simp [get_set, h]

/-- A dropped key reads as absent and every other key reads as before. -/
theorem get_erase (t : Table K V) (k k' : K) :
    (t.erase k).get k' = if k' = k then none else t.get k' := by
  change lookupEntry k' (t.entries.filter _) = if k' = k then none else lookupEntry k' t.entries
  induction t.entries with
  | nil => simp [lookupEntry]
  | cons e rest ih =>
    obtain ⟨k₁, v₁⟩ := e
    simp only [List.filter_cons]
    by_cases h₁ : k₁ = k
    · subst h₁
      simp only [ne_eq, not_true_eq_false, decide_false, Bool.false_eq_true, if_false, ih,
        lookupEntry]
      split <;> rfl
    · simp only [ne_eq, h₁, not_false_eq_true, decide_true, if_true, lookupEntry, ih]
      by_cases h₂ : k' = k₁
      · subst h₂
        simp [h₁]
      · simp [h₂]

/-- An entry of a table in key order is what its key reads. -/
theorem lookupEntry_eq_some {es : List (K × V)} (hs : es.Pairwise (fun a b => a.1 < b.1))
    {k : K} {v : V} : lookupEntry k es = some v ↔ (k, v) ∈ es := by
  induction es with
  | nil => simp [lookupEntry]
  | cons e rest ih =>
    obtain ⟨k₁, v₁⟩ := e
    obtain ⟨hhead, htail⟩ := List.pairwise_cons.mp hs
    simp only [lookupEntry, List.mem_cons, Prod.mk.injEq]
    by_cases h₁ : k = k₁
    · subst h₁
      have hnot : (k, v) ∉ rest := fun hmem => lt_irrefl _ (hhead (k, v) hmem)
      simp [hnot, eq_comm]
    · simp [h₁, ih htail]

/-- The scan of a table holds exactly the values some key reads. -/
theorem mem_values {t : Table K V} {v : V} : v ∈ t.values ↔ ∃ k, t.get k = some v := by
  simp only [values, List.mem_map, get, lookupEntry_eq_some t.sorted]
  constructor
  · rintro ⟨⟨k, v'⟩, hmem, rfl⟩
    exact ⟨k, hmem⟩
  · rintro ⟨k, hmem⟩
    exact ⟨(k, v), hmem, rfl⟩

/-- Tables with the same lookups are equal. -/
theorem ext_get {t u : Table K V} (h : ∀ k, t.get k = u.get k) : t = u := by
  have hmem : ∀ e : K × V, e ∈ t.entries ↔ e ∈ u.entries := by
    rintro ⟨k, v⟩
    rw [← lookupEntry_eq_some t.sorted, ← lookupEntry_eq_some u.sorted]
    exact iff_of_eq (congrArg (· = some v) (h k))
  have hnd : ∀ w : Table K V, w.entries.Nodup := by
    intro w
    refine List.Pairwise.imp ?_ w.sorted
    rintro a b hlt rfl
    exact lt_irrefl _ hlt
  have hperm := (List.perm_ext_iff_of_nodup (hnd t) (hnd u)).mpr hmem
  have heq : t.entries = u.entries :=
    hperm.eq_of_pairwise (fun a b _ _ hab hba => absurd (lt_trans hab hba) (lt_irrefl _))
      t.sorted u.sorted
  cases t
  cases u
  simpa using heq

/-- Storing what is already there changes nothing. -/
theorem set_eq_self {t : Table K V} {k : K} {v : V} (h : t.get k = some v) : t.set k v = t :=
  ext_get fun k' => by
    rw [get_set]
    split
    case isTrue heq => rw [heq, h]
    case isFalse => rfl

end Table

end Foundation
