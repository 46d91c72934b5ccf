import Mathlib.Logic.Relation
import Mathlib.Data.List.Basic

/-!
# Depth-first visits

A depth-first visit of a graph that lists the children of a node once, when it enters the node, and goes
through this list although deeper visits have changed what is left to do. A node may be entered twice;
its children are then those not entered yet. Every such visit from a node enters exactly the nodes
reached from it.
-/

namespace Foundation

variable {α : Type} {child : α → α → Prop} {before roots after : List α} {a b : α}

/-- A visit of the roots in order takes the nodes entered before to the nodes entered after. The children
listed on entering a node include all that were not entered. -/
inductive Visits (child : α → α → Prop) : List α → List α → List α → Prop
  | done (before : List α) : Visits child before [] before
  | enter (before : List α) (a : α) (listed rest between after : List α)
      (hlisted : ∀ b ∈ listed, child a b) (hall : ∀ b, child a b → b ∈ a :: before ∨ b ∈ listed)
      (hdeeper : Visits child (a :: before) listed between)
      (hrest : Visits child between rest after) : Visits child before (a :: rest) after

/-- A visit forgets no node. -/
theorem Visits.subset (h : Visits child before roots after) : before ⊆ after := by
  induction h with
  | done before => exact List.Subset.refl before
  | enter before a listed rest between after _ _ _ _ ihdeeper ihrest =>
    exact fun b hb => ihrest (ihdeeper (List.mem_cons_of_mem a hb))

/-- A visit enters every root. -/
theorem Visits.roots_subset (h : Visits child before roots after) : roots ⊆ after := by
  induction h with
  | done before => exact List.nil_subset before
  | enter before a listed rest between after _ _ hdeeper hrest _ ihrest =>
    intro b hb
    rcases List.mem_cons.mp hb with rfl | hb
    · exact hrest.subset (hdeeper.subset List.mem_cons_self)
    · exact ihrest hb

/-- A visit enters only what is reached from its roots. -/
theorem Visits.reached (h : Visits child before roots after) (hb : b ∈ after) :
    b ∈ before ∨ ∃ a ∈ roots, Relation.ReflTransGen child a b := by
  induction h with
  | done before => exact Or.inl hb
  | enter before a listed rest between after hlisted _ _ _ ihdeeper ihrest =>
    rcases ihrest hb with hbetween | ⟨root, hroot, hreach⟩
    · rcases ihdeeper hbetween with hentered | ⟨c, hc, hreach⟩
      · rcases List.mem_cons.mp hentered with rfl | hbefore
        · exact Or.inr ⟨b, List.mem_cons_self, Relation.ReflTransGen.refl⟩
        · exact Or.inl hbefore
      · exact Or.inr ⟨a, List.mem_cons_self, Relation.ReflTransGen.head (hlisted c hc) hreach⟩
    · exact Or.inr ⟨root, List.mem_cons_of_mem a hroot, hreach⟩

/-- The children of a node that a visit entered are entered too. -/
theorem Visits.closed (h : Visits child before roots after) (ha : a ∈ after) (hnew : a ∉ before)
    (hchild : child a b) : b ∈ after := by
  induction h generalizing a b with
  | done before => exact absurd ha hnew
  | enter before root listed rest between after _ hall hdeeper hrest ihdeeper ihrest =>
    by_cases hbetween : a ∈ between
    · apply hrest.subset
      by_cases hroot : a = root
      · subst hroot
        rcases hall b hchild with hentered | hb
        · exact hdeeper.subset hentered
        · exact hdeeper.roots_subset hb
      · apply ihdeeper hbetween _ hchild
        simp [hroot, hnew]
    · exact ihrest ha hbetween hchild

/-- A visit of one node enters exactly what is reached from it. -/
theorem Visits.mem_iff (h : Visits child [] [a] after) :
    b ∈ after ↔ Relation.ReflTransGen child a b := by
  constructor
  · intro hb
    rcases h.reached hb with hbefore | ⟨root, hroot, hreach⟩
    · exact absurd hbefore List.not_mem_nil
    · rw [List.mem_singleton] at hroot
      exact hroot ▸ hreach
  · intro hreach
    induction hreach with
    | refl => exact h.roots_subset List.mem_cons_self
    | tail _ hchild ih => exact h.closed ih List.not_mem_nil hchild

/-- A visit of one node and then of others. -/
theorem Visits.cons {between : List α} (h : Visits child before [a] between)
    (hrest : Visits child between roots after) : Visits child before (a :: roots) after := by
  cases h with
  | enter _ _ listed _ middle _ hlisted hall hdeeper hnothing =>
    cases hnothing
    exact Visits.enter before a listed roots between after hlisted hall hdeeper hrest

/-! ### What is left to enter -/

variable [DecidableEq α]

/-- The number of the nodes not entered. -/
def remaining (nodes entered : List α) : ℕ := nodes.countP fun a => decide (a ∉ entered)

/-- Nothing is left to enter but the nodes. -/
theorem remaining_le_length (nodes entered : List α) : remaining nodes entered ≤ nodes.length :=
  List.countP_le_length

/-- Entering a node leaves fewer. -/
theorem remaining_lt {nodes : List α} (hsub : before ⊆ after) (hnode : a ∈ nodes) (hnew : a ∉ before)
    (hentered : a ∈ after) : remaining nodes after < remaining nodes before := by
  obtain ⟨front, back, rfl⟩ := List.append_of_mem hnode
  have hle : ∀ nodes : List α, remaining nodes after ≤ remaining nodes before := by
    intro nodes
    apply List.countP_mono_left
    intro b _ hb
    simp only [decide_eq_true_eq] at hb ⊢
    exact fun hbefore => hb (hsub hbefore)
  have hfront := hle front
  have hback := hle back
  unfold remaining at hfront hback ⊢
  rw [List.countP_append, List.countP_append, List.countP_cons, List.countP_cons]
  simp only [hnew, hentered, not_true_eq_false, not_false_eq_true, decide_true, decide_false,
    if_true, Bool.false_eq_true, if_false]
  omega

end Foundation
