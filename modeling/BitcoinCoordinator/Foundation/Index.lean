import Mathlib.Data.List.Nodup

/-!
# Lists that index a table

A list of keys beside a table of values. It is sound when every key on it names a value it may name, and
complete when every value that must be found through it has its key on it.
-/

namespace Foundation

variable {κ ν : Type} {admits : κ → ν → Prop} {requires : ν → Prop} {keys keys' : List κ}
  {get get' : κ → Option ν}

/-- A list of keys without duplicates that is sound and complete for a table. -/
structure Indexes (admits : κ → ν → Prop) (requires : ν → Prop) (keys : List κ)
    (get : κ → Option ν) : Prop where
  nodup : keys.Nodup
  sound : ∀ k ∈ keys, ∃ v, get k = some v ∧ admits k v
  complete : ∀ k v, get k = some v → requires v → k ∈ keys

namespace Indexes

/-- Nothing is listed and nothing is stored. -/
theorem empty : Indexes admits requires [] fun _ => none where
  nodup := List.nodup_nil
  sound := fun _ h => absurd h List.not_mem_nil
  complete := fun _ _ h => absurd h (by simp)

/-- The order of the keys does not matter. -/
theorem perm (h : Indexes admits requires keys get) (hperm : keys.Perm keys') :
    Indexes admits requires keys' get where
  nodup := hperm.nodup_iff.mp h.nodup
  sound := fun k hk => h.sound k (hperm.mem_iff.mpr hk)
  complete := fun k v hget hv => hperm.mem_iff.mp (h.complete k v hget hv)

/-- The table keeps what is listed and gains nothing that must be. -/
theorem of_kept (h : Indexes admits requires keys get) (hkept : ∀ k ∈ keys, get' k = get k)
    (hleft : ∀ k v, get' k = some v → requires v → get k = some v) :
    Indexes admits requires keys get' where
  nodup := h.nodup
  sound := by
    intro k hk
    rw [hkept k hk]
    exact h.sound k hk
  complete := fun k v hget hv => h.complete k v (hleft k v hget hv) hv

/-- A value is put under a key that may name it, if it is listed, and is listed, if it must be. -/
theorem put [DecidableEq κ] (h : Indexes admits requires keys get) {k : κ} {v : ν}
    (hget : ∀ k', get' k' = if k' = k then some v else get k') (hadmits : k ∈ keys → admits k v)
    (hrequires : requires v → k ∈ keys) : Indexes admits requires keys get' where
  nodup := h.nodup
  sound := by
    intro k' hk'
    by_cases heq : k' = k
    · subst heq
      exact ⟨v, by rw [hget, if_pos rfl], hadmits hk'⟩
    · rw [hget, if_neg heq]
      exact h.sound k' hk'
  complete := by
    intro k' v' hv' hneeded
    rw [hget] at hv'
    split at hv'
    · next heq =>
      cases hv'
      rw [heq]
      exact hrequires hneeded
    · exact h.complete k' v' hv' hneeded

/-- Keys that are not listed and name values they may name are put in front. -/
theorem prepend (h : Indexes admits requires keys get) {new : List κ} (hnodup : new.Nodup)
    (hout : ∀ k ∈ new, k ∉ keys) (hsound : ∀ k ∈ new, ∃ v, get k = some v ∧ admits k v) :
    Indexes admits requires (new ++ keys) get where
  nodup := by
    apply List.nodup_append.mpr
    refine ⟨hnodup, h.nodup, ?_⟩
    rintro k hnew k' hold rfl
    exact hout k hnew hold
  sound := by
    intro k hk
    rcases List.mem_append.mp hk with hnew | hold
    · exact hsound k hnew
    · exact h.sound k hold
  complete := fun k v hget hv => List.mem_append.mpr (Or.inr (h.complete k v hget hv))

/-- A value is put under a key that was not listed, and its key is put in front. -/
theorem cons [DecidableEq κ] (h : Indexes admits requires keys get) {k : κ} {v : ν}
    (hget : ∀ k', get' k' = if k' = k then some v else get k') (hadmits : admits k v)
    (hout : k ∉ keys) : Indexes admits requires (k :: keys) get' where
  nodup := List.nodup_cons.mpr ⟨hout, h.nodup⟩
  sound := by
    intro k' hk'
    rw [hget]
    split
    · next heq => exact ⟨v, rfl, heq ▸ hadmits⟩
    · next hne => exact h.sound k' ((List.mem_cons.mp hk').resolve_left hne)
  complete := by
    intro k' v' hv' hneeded
    rw [hget] at hv'
    split at hv'
    · next heq => exact List.mem_cons.mpr (Or.inl heq)
    · exact List.mem_cons_of_mem _ (h.complete k' v' hv' hneeded)

/-- A value is put under a key, which is appended unless it is listed. -/
theorem append [DecidableEq κ] (h : Indexes admits requires keys get) {k : κ} {v : ν}
    (hget : ∀ k', get' k' = if k' = k then some v else get k') (hadmits : admits k v) :
    Indexes admits requires (if k ∈ keys then keys else keys ++ [k]) get' := by
  split
  · next hin => exact h.put hget (fun _ => hadmits) fun _ => hin
  · next hout => exact (h.cons hget hadmits hout).perm (List.perm_append_singleton k keys).symm

/-- Keys are dropped when no value left in the table must be found through them. -/
theorem filter (h : Indexes admits requires keys get) {p : κ → Bool}
    (hkept : ∀ k ∈ keys, p k = true → get' k = get k)
    (hleft : ∀ k v, get' k = some v → requires v → get k = some v ∧ p k = true) :
    Indexes admits requires (keys.filter p) get' where
  nodup := h.nodup.filter p
  sound := by
    intro k hk
    obtain ⟨hin, hp⟩ := List.mem_filter.mp hk
    rw [hkept k hin hp]
    exact h.sound k hin
  complete := by
    intro k v hget hv
    obtain ⟨hold, hp⟩ := hleft k v hget hv
    exact List.mem_filter.mpr ⟨h.complete k v hold hv, hp⟩

end Indexes

end Foundation
