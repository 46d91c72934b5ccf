import Mathlib.Data.List.Infix

/-!
# Histories

A history lists what happened, newest entry first. What an entry says may depend on the entries before
it, which are the rest of the list.
-/

namespace Foundation

variable {α : Type} {P : α → List α → Prop}

/-- Every entry of a history stands in a relation to the entries before it. -/
def Throughout (P : α → List α → Prop) (history : List α) : Prop :=
  ∀ e older, e :: older <:+ history → P e older

/-- Nothing is asked of a history that has not begun. -/
theorem throughout_nil : Throughout P [] := by
  intro e older h
  cases List.suffix_nil.mp h

/-- A longer history adds what is asked of its newest entry. -/
theorem throughout_cons {e : α} {older : List α} :
    Throughout P (e :: older) ↔ P e older ∧ Throughout P older := by
  constructor
  · intro h
    exact ⟨h e older List.suffix_rfl, fun e' older' h' => h e' older' (h'.trans (List.suffix_cons _ _))⟩
  · rintro ⟨hnew, hold⟩ e' older' h
    rcases List.suffix_cons_iff.mp h with heq | hsuffix
    · cases heq
      exact hnew
    · exact hold e' older' hsuffix

/-- An entry in the middle of a history, with the entries before it. -/
theorem Throughout.entry {newer older : List α} {e : α} (h : Throughout P (newer ++ e :: older)) :
    P e older :=
  h e older (List.suffix_append newer (e :: older))

/-- What holds throughout a history held throughout it before its last entries. -/
theorem Throughout.of_append {newer older : List α} (h : Throughout P (newer ++ older)) :
    Throughout P older :=
  fun e older' hsuffix => h e older' (hsuffix.trans (List.suffix_append newer older))

/-- The entry at a position of a history, and the entries before it, which include a shorter history. -/
theorem exists_entry {history shorter : List α} {e : α} (k : ℕ) (h : (history.drop k).head? = some e)
    (hshorter : shorter <:+ history) (hk : shorter.length + k < history.length) :
    ∃ newer older, history = newer ++ e :: older ∧ shorter <:+ older := by
  obtain ⟨older, hdrop⟩ := List.head?_eq_some_iff.mp h
  have hsplit : history = history.take k ++ e :: older := by
    rw [← hdrop, List.take_append_drop]
  have hlength : (history.drop k).length = older.length + 1 := by rw [hdrop, List.length_cons]
  rw [List.length_drop] at hlength
  have holder : older <:+ history := by
    rw [hsplit]
    exact (List.suffix_cons _ _).trans (List.suffix_append _ _)
  exact ⟨_, older, hsplit, List.suffix_of_suffix_length_le hshorter holder (by omega)⟩

/-- A history grew by entries with a property. -/
def Grows (p : α → Prop) (older newer : List α) : Prop :=
  ∃ added, newer = added ++ older ∧ ∀ e ∈ added, p e

namespace Grows

variable {p : α → Prop} {older newer : List α}

/-- Nothing was added. -/
theorem refl (older : List α) : Grows p older older := ⟨[], rfl, by simp⟩

/-- One more entry with the property. -/
theorem cons {e : α} (h : Grows p older newer) (he : p e) : Grows p older (e :: newer) := by
  obtain ⟨added, rfl, hall⟩ := h
  exact ⟨e :: added, rfl, List.forall_mem_cons.mpr ⟨he, hall⟩⟩

/-- What grew twice grew. -/
theorem trans {newest : List α} (h : Grows p older newer) (h' : Grows p newer newest) :
    Grows p older newest := by
  obtain ⟨added, rfl, hall⟩ := h
  obtain ⟨added', rfl, hall'⟩ := h'
  refine ⟨added' ++ added, (List.append_assoc _ _ _).symm, ?_⟩
  intro e he
  rcases List.mem_append.mp he with hnew | hold
  · exact hall' e hnew
  · exact hall e hold

end Grows

/-- A history grew by entries that each stand in a relation to the entries before it. -/
inductive GrowsBy (P : α → List α → Prop) (older : List α) : List α → Prop where
  | refl : GrowsBy P older older
  | cons {e : α} {newer : List α} (h : GrowsBy P older newer) (he : P e newer) : GrowsBy P older (e :: newer)

namespace GrowsBy

variable {Q : α → List α → Prop} {older newer newest : List α}

/-- What grew twice grew. -/
theorem trans (h : GrowsBy P older newer) (h' : GrowsBy P newer newest) : GrowsBy P older newest := by
  induction h' with
  | refl => exact h
  | cons _ he ih => exact ih.cons he

/-- The entries before are still there. -/
theorem suffix (h : GrowsBy P older newer) : older <:+ newer := by
  induction h with
  | refl => exact List.suffix_rfl
  | cons _ _ ih => exact ih.trans (List.suffix_cons _ _)

/-- The relation of the new entries to the entries before them may be weakened. -/
theorem mono (h : GrowsBy P older newer)
    (himp : ∀ e before, older <:+ before → e :: before <:+ newer → P e before → Q e before) :
    GrowsBy Q older newer := by
  induction h with
  | refl => exact refl
  | cons hgrown he ih =>
    refine (ih fun e before hold hnew => ?_).cons (himp _ _ hgrown.suffix List.suffix_rfl he)
    exact himp e before hold (hnew.trans (List.suffix_cons _ _))

/-- What held throughout the entries before holds throughout the longer history. -/
theorem throughout (h : GrowsBy P older newer) (hold : Throughout P older) : Throughout P newer := by
  induction h with
  | refl => exact hold
  | cons _ he ih => exact throughout_cons.mpr ⟨he, ih⟩

/-- What is known of a new entry. -/
theorem entry {newer between : List α} {e : α} (h : GrowsBy P older (newer ++ e :: between))
    (hnew : older <:+ between) : P e between := by
  generalize hlog : newer ++ e :: between = log at h
  induction h generalizing newer with
  | refl =>
    have hlength : (newer ++ e :: between).length ≤ between.length := by
      rw [hlog]
      exact hnew.length_le
    rw [List.length_append, List.length_cons] at hlength
    omega
  | cons hgrown he ih =>
    cases newer with
    | nil =>
      obtain ⟨rfl, rfl⟩ := List.cons.inj hlog
      exact he
    | cons e' newer => exact ih (List.cons.inj hlog).2

end GrowsBy

end Foundation
