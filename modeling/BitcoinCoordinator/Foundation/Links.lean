import Mathlib.Logic.Relation
import Mathlib.Data.List.Basic

/-!
# Following links

A partial function links every node to at most one next node. When finitely many nodes have a link,
following the links from a node ends within one step more than there are such nodes, exactly when no
cycle is reached from it.
-/

namespace Foundation

variable {α : Type} {next : α → Option α}

/-- The first node links to the second. -/
def LinksTo (next : α → Option α) (a b : α) : Prop := next a = some b

/-- The second node is reached from the first by following links, or is the first. -/
def Leads (next : α → Option α) : α → α → Prop := Relation.ReflTransGen (LinksTo next)

/-- No node reached from this one lies on a cycle. -/
def AcyclicFrom (next : α → Option α) (a : α) : Prop :=
  ∀ b, Leads next a b → ¬ Relation.TransGen (LinksTo next) b b

/-- Following the links from a node visits at most the given number of nodes. -/
def EndsWithin (next : α → Option α) : ℕ → α → Prop
  | 0, _ => False
  | n + 1, a => ∀ b, next a = some b → EndsWithin next n b

/-- What is reached from a node is the node or is reached from the next one. -/
theorem leads_iff {a c : α} : Leads next a c ↔ c = a ∨ ∃ b, next a = some b ∧ Leads next b c := by
  constructor
  · intro h
    rcases Relation.ReflTransGen.cases_head h with rfl | ⟨b, hlink, hrest⟩
    · exact Or.inl rfl
    · exact Or.inr ⟨b, hlink, hrest⟩
  · rintro (rfl | ⟨b, hlink, hrest⟩)
    · exact Relation.ReflTransGen.refl
    · exact Relation.ReflTransGen.head hlink hrest

/-- A walk that ends meets no cycle. -/
theorem EndsWithin.acyclicFrom {n : ℕ} {a : α} (h : EndsWithin next n a) : AcyclicFrom next a := by
  induction n generalizing a with
  | zero => exact h.elim
  | succ n ih =>
    intro b hlead hcycle
    rcases leads_iff.mp hlead with rfl | ⟨c, hlink, hrest⟩
    · obtain ⟨c, hlink, hback⟩ := Relation.TransGen.head'_iff.mp hcycle
      exact ih (h c hlink) c Relation.ReflTransGen.refl (Relation.TransGen.tail' hback hlink)
    · exact ih (h c hlink) b hrest hcycle

/-- A node off every cycle is not reached from the node after it. -/
theorem AcyclicFrom.ne_of_leads {a b c : α} (h : AcyclicFrom next a) (hlink : next a = some b)
    (hlead : Leads next b c) : c ≠ a := by
  rintro rfl
  exact h c Relation.ReflTransGen.refl (Relation.TransGen.head' hlink hlead)

/-- The node after a node that reaches no cycle reaches none either. -/
theorem AcyclicFrom.tail {a b : α} (h : AcyclicFrom next a) (hlink : next a = some b) :
    AcyclicFrom next b :=
  fun c hlead => h c (Relation.ReflTransGen.head hlink hlead)

/-- A walk that meets no cycle ends within the nodes that have a link and one more. -/
theorem AcyclicFrom.endsWithin [DecidableEq α] {nodes : List α} {a : α} (h : AcyclicFrom next a)
    (hfinite : ∀ b, Leads next a b → (next b).isSome → b ∈ nodes) :
    EndsWithin next (nodes.length + 1) a := by
  induction hn : nodes.length generalizing nodes a with
  | zero =>
    intro b hlink
    have hin : a ∈ nodes := hfinite a Relation.ReflTransGen.refl (by rw [hlink]; rfl)
    rw [List.length_eq_zero_iff.mp hn] at hin
    exact absurd hin List.not_mem_nil
  | succ n ih =>
    intro b hlink
    have hin : a ∈ nodes := hfinite a Relation.ReflTransGen.refl (by rw [hlink]; rfl)
    -- The rest of the walk never comes back to `a`, so `a` can be dropped from the list.
    have hrest : ∀ c, Leads next b c → (next c).isSome → c ∈ nodes.erase a := by
      intro c hlead hsome
      have hne := h.ne_of_leads hlink hlead
      exact (List.mem_erase_of_ne hne).mpr (hfinite c (Relation.ReflTransGen.head hlink hlead) hsome)
    apply ih (h.tail hlink) hrest
    rw [List.length_erase_of_mem hin, hn]
    rfl

/-- Over finitely many links, a walk ends within the bound exactly when it meets no cycle. -/
theorem endsWithin_iff_acyclicFrom [DecidableEq α] {nodes : List α} {a : α}
    (hfinite : ∀ b, (next b).isSome → b ∈ nodes) :
    EndsWithin next (nodes.length + 1) a ↔ AcyclicFrom next a :=
  ⟨EndsWithin.acyclicFrom, fun h => h.endsWithin fun b _ => hfinite b⟩

end Foundation
