import Mathlib.Data.List.Infix
import Mathlib.Algebra.Order.Ring.Nat

/-!
# Grouping from the front of a list

Items with a weight are put into groups in their order. A group stays within a limit unless it is a single
item, and it is closed only when the next item would exceed the limit.
-/

namespace Foundation

variable {α : Type} {weight : α → ℕ} {limit : ℕ} {items : List α} {groups : List (List α)}

/-- A group is within the limit, or it is a single item. -/
def Fits (weight : α → ℕ) (limit : ℕ) (group : List α) : Prop :=
  (group.map weight).sum ≤ limit ∨ group.length = 1

/-- Groups taken from the front of a list in its order, each as large as the limit allows. -/
structure Groups (weight : α → ℕ) (limit : ℕ) (items : List α) (groups : List (List α)) : Prop where
  nonempty : ∀ group ∈ groups, group ≠ []
  order : groups.flatten <+: items
  fits : ∀ group ∈ groups, Fits weight limit group
  maximal : ∀ before group after next rest, groups = before ++ group :: after →
    items = (before ++ [group]).flatten ++ next :: rest → limit < (group.map weight).sum + weight next

/-- The empty group is within every limit. -/
theorem fits_nil : Fits weight limit [] := Or.inl (Nat.zero_le _)

/-- An item joins a group that stays within the limit, or it opens one. -/
theorem Fits.push {group : List α} {item : α}
    (h : group = [] ∨ (group.map weight).sum + weight item ≤ limit) :
    Fits weight limit (group ++ [item]) := by
  rcases h with rfl | hwithin
  · exact Or.inr rfl
  · left
    simpa using hwithin

/-- Before the first group is closed there is none. -/
theorem Groups.nil : Groups weight limit items [] where
  nonempty := fun _ h => absurd h List.not_mem_nil
  order := List.nil_prefix
  fits := fun _ h => absurd h List.not_mem_nil
  maximal := by simp

/-- A group is closed behind the others: it follows them in the list, and the next item, if there is one,
would exceed the limit. -/
theorem Groups.close {group rest : List α} (h : Groups weight limit items groups)
    (hsplit : items = groups.flatten ++ (group ++ rest)) (hsome : group ≠ [])
    (hfits : Fits weight limit group)
    (hfull : ∀ next ∈ rest.head?, limit < (group.map weight).sum + weight next) :
    Groups weight limit items (groups ++ [group]) where
  nonempty := by
    intro other hother
    rcases List.mem_append.mp hother with hold | hnew
    · exact h.nonempty other hold
    · rw [List.mem_singleton.mp hnew]
      exact hsome
  order := ⟨rest, by simp [hsplit]⟩
  fits := by
    intro other hother
    rcases List.mem_append.mp hother with hold | hnew
    · exact h.fits other hold
    · rw [List.mem_singleton.mp hnew]
      exact hfits
  maximal := by
    intro before other after next tail hgroups hitems
    cases after using List.reverseRecOn with
    | nil =>
      obtain ⟨rfl, hlast⟩ := List.append_inj' hgroups rfl
      obtain rfl : group = other := List.head_eq_of_cons_eq hlast
      apply hfull next
      rw [hsplit, List.flatten_append] at hitems
      have hrest : rest = next :: tail := by simpa using hitems
      rw [hrest]
      rfl
    | append_singleton after last _ =>
      rw [← List.cons_append, ← List.append_assoc] at hgroups
      exact h.maximal before other after next tail (List.append_inj' hgroups rfl).1 hitems

end Foundation
