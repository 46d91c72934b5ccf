import Mathlib.Logic.Relation
import Mathlib.Data.Set.Basic

/-!
# Dockets

A docket keeps an entry for each of some keys: a card that never changes and a status that moves by given steps.
Entries enter and leave by rules of their own. A docket turns one entry at a time, so whatever happens to the others,
an entry that is not taken off keeps its card, and its status follows the steps.
-/

namespace Foundation

variable {K C S : Type}

/-- An entry for each of some keys. -/
abbrev Docket (K C S : Type) := K → Option (C × S)

/-- How the entries of a docket enter, move and leave. -/
structure DocketRules (C S : Type) where
  enters : C → S → Prop
  moves : S → S → Prop
  leaves : C → S → Prop

/-- What can happen to one entry. -/
inductive DocketRules.Turn (rules : DocketRules C S) : Option (C × S) → Option (C × S) → Prop where
  | entered {card : C} {status : S} (h : rules.enters card status) : Turn rules none (some (card, status))
  | moved {card : C} {status status' : S} (h : rules.moves status status') :
      Turn rules (some (card, status)) (some (card, status'))
  | left {card : C} {status : S} (h : rules.leaves card status) : Turn rules (some (card, status)) none

/-- A docket turns at most one entry. -/
def DocketRules.Turns (rules : DocketRules C S) (l l' : Docket K C S) : Prop :=
  l' = l ∨ ∃ k, rules.Turn (l k) (l' k) ∧ ∀ k', k' ≠ k → l' k' = l k'

/-- An entry stays or turns. -/
def DocketRules.TurnsAt (rules : DocketRules C S) (k : K) (l l' : Docket K C S) : Prop :=
  l' k = l k ∨ rules.Turn (l k) (l' k)

/-- An entry stays or turns, and is not taken off. -/
def DocketRules.KeepsAt (rules : DocketRules C S) (k : K) (l l' : Docket K C S) : Prop :=
  rules.TurnsAt k l l' ∧ l' k ≠ none

namespace DocketRules

variable {rules : DocketRules C S} {l l' : Docket K C S} {k : K} {card : C} {status : S}

/-- What one set of rules allows, a laxer one does. -/
theorem Turn.mono {rules' : DocketRules C S} {entry entry' : Option (C × S)}
    (henters : ∀ card status, rules.enters card status → rules'.enters card status)
    (hmoves : ∀ status status', rules.moves status status' → rules'.moves status status')
    (hleaves : ∀ card status, rules.leaves card status → rules'.leaves card status)
    (h : rules.Turn entry entry') : rules'.Turn entry entry' := by
  cases h with
  | entered hturn => exact Turn.entered (henters _ _ hturn)
  | moved hturn => exact Turn.moved (hmoves _ _ hturn)
  | left hturn => exact Turn.left (hleaves _ _ hturn)

/-- When at most one entry turns, each of them stays or turns. -/
theorem Turns.turnsAt (h : rules.Turns l l') (k : K) : rules.TurnsAt k l l' := by
  rcases h with rfl | ⟨k', hturn, hothers⟩
  · exact Or.inl rfl
  · by_cases hk : k = k'
    · subst hk
      exact Or.inr hturn
    · exact Or.inl (hothers k hk)

/-- An entry that is not taken off keeps its card and moves at most once. -/
theorem KeepsAt.kept (h : rules.KeepsAt k l l') (hget : l k = some (card, status)) :
    ∃ status', l' k = some (card, status') ∧ Relation.ReflTransGen rules.moves status status' := by
  obtain ⟨hsame | hturn, hkept⟩ := h
  · exact ⟨status, hsame.trans hget, Relation.ReflTransGen.refl⟩
  · rw [hget] at hturn
    generalize hafter : l' k = entry at hturn hkept
    cases hturn with
    | moved hmove => exact ⟨_, rfl, Relation.ReflTransGen.single hmove⟩
    | left _ => exact absurd rfl hkept

/-- Over a run in which an entry is never taken off, it keeps its card, and its status follows the steps. -/
theorem kept_of_run (hrun : Relation.ReflTransGen (rules.KeepsAt k) l l') (hget : l k = some (card, status)) :
    ∃ status', l' k = some (card, status') ∧ Relation.ReflTransGen rules.moves status status' := by
  induction hrun with
  | refl => exact ⟨status, hget, Relation.ReflTransGen.refl⟩
  | tail _ hlast ih =>
    obtain ⟨between, hbetween, hsteps⟩ := ih
    obtain ⟨status', hafter, hstep⟩ := hlast.kept hbetween
    exact ⟨status', hafter, hsteps.trans hstep⟩

end DocketRules

end Foundation
