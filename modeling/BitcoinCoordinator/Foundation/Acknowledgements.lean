import Mathlib.Data.List.Induction

/-!
# Histories of an acknowledged log

Values are added to a log, acknowledged at a height, and cleaned away some time later. What stands and what
is held back is read off the history of the calls alone, oldest call first; the last section says what one
more call changes.
-/

namespace Foundation

/-- A call to the log. An addition comes with whether it put the value in. -/
inductive LogEvent (α : Type) where
  | added (value : α) (inserted : Bool)
  | acked (value : α) (height : ℕ)
  | cleaned (height : ℕ)
  deriving DecidableEq

variable {α : Type} [DecidableEq α] {history : List (LogEvent α)} {value other : α}

/-- The call acknowledges the value. -/
def LogEvent.acknowledges (value : α) : LogEvent α → Bool
  | .acked other _ => decide (other = value)
  | _ => false

/-- An acknowledgement is one of its own value. -/
@[simp] theorem acknowledges_acked {height : ℕ} :
    (LogEvent.acked other height).acknowledges value = decide (other = value) := rfl

/-- An addition acknowledges nothing. -/
@[simp] theorem acknowledges_added {inserted : Bool} :
    (LogEvent.added other inserted).acknowledges value = false := rfl

/-- A cleaning acknowledges nothing. -/
@[simp] theorem acknowledges_cleaned {height : ℕ} :
    (LogEvent.cleaned height).acknowledges value = false := rfl

/-- The values that were put in and not acknowledged since, in the order in which they were put in. -/
def standing : List (LogEvent α) → List α
  | [] => []
  | .added value true :: later =>
    if later.any (LogEvent.acknowledges value) then standing later else value :: standing later
  | _ :: later => standing later

/-- The value stood when it was acknowledged at the height, it was not put in since, and no cleaning since
was at a greater height. -/
def HeldAt (history : List (LogEvent α)) (value : α) (height : ℕ) : Prop :=
  ∃ older newer, history = older ++ .acked value height :: newer ∧ value ∈ standing older ∧
    .added value true ∉ newer ∧ ∀ cleaning, .cleaned cleaning ∈ newer → cleaning ≤ height

/-- The value was acknowledged since it was last put in, and no cleaning at a greater height than the one of
the acknowledgement came since. -/
def HeldBack (history : List (LogEvent α)) (value : α) : Prop :=
  ∃ height, HeldAt history value height

/-! ### One more call -/

/-- A value that is put in stands behind the others. -/
theorem standing_inserted : standing (history ++ [.added value true]) = standing history ++ [value] := by
  induction history with
  | nil => rfl
  | cons event later ih =>
    rcases event with ⟨other, _ | _⟩ | _ | _
    · exact ih
    · simp only [List.cons_append, standing, List.any_append, List.any_cons, List.any_nil,
        acknowledges_added, Bool.or_false, ih]
      split <;> rfl
    · exact ih
    · exact ih

/-- A value that is not put in changes nothing. -/
theorem standing_notInserted : standing (history ++ [.added value false]) = standing history := by
  induction history with
  | nil => rfl
  | cons event later ih =>
    rcases event with ⟨other, _ | _⟩ | _ | _ <;>
      simp [standing, ih]

/-- An acknowledgement takes its value away. -/
theorem standing_acked {height : ℕ} : standing (history ++ [.acked value height]) =
    (standing history).filter fun other => decide (other ≠ value) := by
  induction history with
  | nil => rfl
  | cons event later ih =>
    rcases event with ⟨other, _ | _⟩ | _ | _
    · exact ih
    · simp only [List.cons_append, standing, List.any_append, List.any_cons, List.any_nil,
        acknowledges_acked, Bool.or_false, ih]
      by_cases hacked : later.any (LogEvent.acknowledges other)
      · simp [hacked]
      · by_cases hsame : value = other
        · simp [hacked, hsame]
        · simp [hacked, hsame, Ne.symm hsame]
    · exact ih
    · exact ih

/-- Cleaning takes away nothing that stands. -/
theorem standing_cleaned {height : ℕ} : standing (history ++ [.cleaned height]) = standing history := by
  induction history with
  | nil => rfl
  | cons event later ih =>
    rcases event with ⟨other, _ | _⟩ | _ | _ <;>
      simp [standing, ih]

omit [DecidableEq α] in
/-- A call of a longer history is its last one or a call of the history. -/
theorem append_singleton_eq_iff {event call : LogEvent α} {older newer : List (LogEvent α)} :
    history ++ [event] = older ++ call :: newer ↔
      (history = older ∧ event = call ∧ newer = []) ∨
        ∃ rest, newer = rest ++ [event] ∧ history = older ++ call :: rest := by
  constructor
  · intro h
    cases newer using List.reverseRecOn with
    | nil =>
      obtain ⟨hold, hlast⟩ := List.append_inj' h rfl
      exact Or.inl ⟨hold, List.head_eq_of_cons_eq hlast, rfl⟩
    | append_singleton rest last =>
      rw [← List.cons_append, ← List.append_assoc] at h
      obtain ⟨hold, hlast⟩ := List.append_inj' h rfl
      rw [List.head_eq_of_cons_eq hlast]
      exact Or.inr ⟨rest, rfl, hold⟩
  · rintro (⟨rfl, rfl, rfl⟩ | ⟨rest, rfl, rfl⟩)
    · rfl
    · simp

/-- What a value is held at after one more call: it stood and is acknowledged just now, or it was held
before, and the call neither puts it in nor cleans at a greater height. -/
theorem heldAt_append {event : LogEvent α} {height : ℕ} :
    HeldAt (history ++ [event]) value height ↔
      (event = .acked value height ∧ value ∈ standing history) ∨
        (HeldAt history value height ∧ event ≠ .added value true ∧
          ∀ cleaning, event = .cleaned cleaning → cleaning ≤ height) := by
  constructor
  · rintro ⟨older, newer, hsplit, hstood, hnone, hclean⟩
    rcases append_singleton_eq_iff.mp hsplit with ⟨rfl, rfl, rfl⟩ | ⟨rest, rfl, rfl⟩
    · exact Or.inl ⟨rfl, hstood⟩
    · simp only [List.mem_append, List.mem_singleton, not_or] at hnone hclean
      exact Or.inr ⟨⟨older, rest, rfl, hstood, hnone.1, fun c hc => hclean c (Or.inl hc)⟩,
        Ne.symm hnone.2, fun c hc => hclean c (Or.inr hc.symm)⟩
  · rintro (⟨rfl, hstood⟩ | ⟨⟨older, newer, rfl, hstood, hnone, hclean⟩, hput, hlow⟩)
    · exact ⟨history, [], rfl, hstood, by simp, by simp⟩
    · refine ⟨older, newer ++ [event], by simp, hstood, ?_, ?_⟩
      · simp only [List.mem_append, List.mem_singleton, not_or]
        exact ⟨hnone, Ne.symm hput⟩
      · intro c hc
        rcases List.mem_append.mp hc with hold | hnew
        · exact hclean c hold
        · exact hlow c (List.mem_singleton.mp hnew).symm

end Foundation
