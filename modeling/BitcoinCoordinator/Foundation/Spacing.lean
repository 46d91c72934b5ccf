import Mathlib.Order.Nat

/-!
# Occurrences an interval apart

The times of some occurrences are listed, the earliest first, and the time of the last one is kept beside them. When
each comes at least an interval after the one kept, any two of them are an interval apart.
-/

namespace Foundation

variable {interval t : ℕ} {times : List ℕ} {last : Option ℕ}

/-- Any two of the times are an interval apart, and none is after the one that is kept. -/
structure Spaced (interval : ℕ) (times : List ℕ) (last : Option ℕ) : Prop where
  apart : times.Pairwise fun earlier later => earlier + interval ≤ later
  kept : ∀ t ∈ times, ∃ t₀, last = some t₀ ∧ t ≤ t₀

namespace Spaced

/-- Nothing occurred yet. -/
theorem nil : Spaced interval [] last := ⟨List.Pairwise.nil, fun _ h => absurd h List.not_mem_nil⟩

/-- A later time is kept. -/
theorem later (h : Spaced interval times last) (hlater : ∀ t₀, last = some t₀ → t₀ ≤ t) :
    Spaced interval times (some t) where
  apart := h.apart
  kept t' ht' := by
    obtain ⟨t₀, hlast, hle⟩ := h.kept t' ht'
    exact ⟨t, rfl, hle.trans (hlater t₀ hlast)⟩

/-- One more, an interval after the time that was kept. -/
theorem next (h : Spaced interval times last) (hapart : ∀ t₀, last = some t₀ → t₀ + interval ≤ t) :
    Spaced interval (times ++ [t]) (some t) where
  apart := by
    rw [List.pairwise_append]
    refine ⟨h.apart, List.pairwise_singleton _ _, fun t' ht' later hlater => ?_⟩
    obtain ⟨t₀, hlast, hle⟩ := h.kept t' ht'
    obtain rfl := List.mem_singleton.mp hlater
    exact (Nat.add_le_add_right hle interval).trans (hapart t₀ hlast)
  kept t' ht' := by
    rcases List.mem_append.mp ht' with hbefore | hnew
    · exact (h.later fun t₀ hlast => (Nat.le_add_right t₀ interval).trans (hapart t₀ hlast)).kept t' hbefore
    · exact ⟨t, rfl, (List.mem_singleton.mp hnew).le⟩

end Spaced

end Foundation
