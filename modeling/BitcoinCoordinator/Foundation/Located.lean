import BitcoinCoordinator.Foundation.Program

/-!
# Programs that tell where they stop

A program can be written down once more with a place for each of its parts, so that it stops at a place
where the original stops for a reason. Erasing the places gives the original back: both complete together,
and they leave the same state. What is true at a place is then proved along the structure of the program.
-/

namespace Foundation

namespace Prog

variable {ρ δ ε σ α β α' β' : Type}

/-- The program, stopping at the given place whatever its reason. -/
def stopsAt (place : δ) (m : Prog ρ ε σ α) : Prog ρ δ σ α := fun r s =>
  match m r s with
  | (.ok a, s') => (.ok a, s')
  | (.error _, s') => (.error place, s')

/-- Two programs run alike but for their reasons to stop: they leave the same state, and either both stop or
both return, related values. -/
inductive Erases (R : α → α' → Prop) : Except δ α × σ → Except ε α' × σ → Prop where
  | returned {a : α} {a' : α'} {s : σ} (h : R a a') : Erases R (.ok a, s) (.ok a', s)
  | stopped (place : δ) (e : ε) (s : σ) : Erases R (.error place, s) (.error e, s)

/-- A program tells where another one stops. -/
def Locates (R : α → α' → Prop) (m : Prog ρ δ σ α) (n : Prog ρ ε σ α') : Prop :=
  ∀ r s, Erases R (m r s) (n r s)

namespace Locates

variable {R : α → α' → Prop} {Q : β → β' → Prop} {r : ρ} {s s' : σ}

/-- Where the original stops, the located program stops at a place and leaves the same state. -/
theorem run_error {m : Prog ρ δ σ α} {n : Prog ρ ε σ α'} (h : Locates R m n) {e : ε}
    (hrun : n r s = (.error e, s')) : ∃ place, m r s = (.error place, s') := by
  have hboth := h r s
  rw [hrun] at hboth
  generalize hm : m r s = result at hboth
  cases hboth with
  | stopped place _ _ => exact ⟨place, rfl⟩

/-- A program with one place. -/
theorem stopsAt (place : δ) (m : Prog ρ ε σ α) : Locates Eq (m.stopsAt place) m := by
  intro r s
  unfold Prog.stopsAt
  rcases m r s with ⟨e | a, s'⟩
  · exact Erases.stopped place e s'
  · exact Erases.returned rfl

/-- Stopping at a place. -/
theorem stop (place : δ) (e : ε) :
    Locates R (Prog.stop place : Prog ρ δ σ α) (Prog.stop e : Prog ρ ε σ α') :=
  fun _ s => Erases.stopped place e s

/-- Returning related values. -/
theorem pure {a : α} {a' : α'} (h : R a a') :
    Locates R (Pure.pure a : Prog ρ δ σ α) (Pure.pure a' : Prog ρ ε σ α') :=
  fun _ _ => Erases.returned h

/-- Sequences whose first parts return related values, and whose second parts are located for these. -/
theorem bind {m : Prog ρ δ σ α} {n : Prog ρ ε σ α'} {f : α → Prog ρ δ σ β} {g : α' → Prog ρ ε σ β'}
    (hm : Locates R m n) (hf : ∀ a a', R a a' → Locates Q (f a) (g a')) : Locates Q (m >>= f) (n >>= g) := by
  intro r s
  change Erases Q (Prog.bind m f r s) (Prog.bind n g r s)
  have hboth := hm r s
  unfold Prog.bind
  generalize m r s = x, n r s = y at hboth
  cases hboth with
  | returned h => exact hf _ _ h r _
  | stopped place e s' => exact Erases.stopped place e s'

/-- The common case of `bind`, where both first parts return the same. -/
theorem seq {m : Prog ρ δ σ α} {n : Prog ρ ε σ α} {f : α → Prog ρ δ σ β} {g : α → Prog ρ ε σ β'}
    (hm : Locates Eq m n) (hf : ∀ a, Locates Q (f a) (g a)) : Locates Q (m >>= f) (n >>= g) := by
  apply bind hm
  rintro a _ rfl
  exact hf a

/-- Conditionals on the same condition. -/
theorem ite {c : Prop} [Decidable c] {m m' : Prog ρ δ σ α} {n n' : Prog ρ ε σ α'}
    (hm : c → Locates R m n) (hn : ¬ c → Locates R m' n') :
    Locates R (if c then m else m') (if c then n else n') := by
  by_cases hc : c
  · simpa [hc] using hm hc
  · simpa [hc] using hn hc

end Locates

/-! ### What is true where a program stops -/

/-- The program returns in a state as first asked of the value, or stops in one as then asked of the
place. -/
def Settled (P : α → σ → Prop) (A : δ → σ → Prop) : Except δ α → σ → Prop
  | .ok a, s => P a s
  | .error place, s => A place s

namespace Settled

variable {P : α → σ → Prop} {Q : β → σ → Prop} {A : δ → σ → Prop} {r : ρ} {s : σ}

/-- Returning a value. -/
theorem pure {a : α} (h : P a s) : Ends (Settled P A) (Pure.pure a : Prog ρ δ σ α) r s := h

/-- Stopping at a place. -/
theorem stop {place : δ} (h : A place s) : Ends (Settled P A) (Prog.stop place : Prog ρ δ σ α) r s := h

/-- Reading part of the state. -/
theorem read (f : σ → α) :
    Ends (Settled (fun a s' => a = f s ∧ s = s') A) (Prog.read f : Prog ρ δ σ α) r s := ⟨rfl, rfl⟩

/-- A fallible value. -/
theorem ofExcept {x : Except δ α} (h : ∀ place, x = .error place → A place s) :
    Ends (Settled (fun a s' => x = .ok a ∧ s = s') A) (Prog.ofExcept x : Prog ρ δ σ α) r s := by
  cases x with
  | error place => exact h place rfl
  | ok a => exact ⟨rfl, rfl⟩

/-- A program with one place. -/
theorem stopsAt {B : ε → σ → Prop} {place : δ} {m : Prog ρ ε σ α} (hm : Ends (Settled P B) m r s)
    (hplace : ∀ e s', B e s' → A place s') : Ends (Settled P A) (m.stopsAt place) r s := by
  unfold Ends Prog.stopsAt
  rcases hrun : m r s with ⟨e | a, s'⟩
  · exact hplace e s' (hm.run hrun)
  · exact hm.run hrun

/-- A program with one place that keeps what is true there. -/
theorem kept {I : σ → Prop} {place : δ} {m : Prog ρ ε σ α} (hm : Keeps I m r) (hs : I s)
    (hplace : ∀ s', I s' → A place s') :
    Ends (Settled (fun _ s' => I s') A) (m.stopsAt place) r s := by
  have hboth : Ends (Settled (fun _ s' => I s') fun _ s' => I s') m r s :=
    (Ends.of_keeps hm hs).mono fun x s' hkept => by cases x <;> exact hkept
  exact stopsAt hboth fun _ => hplace

/-- A sequence. -/
theorem bind {m : Prog ρ δ σ α} {f : α → Prog ρ δ σ β} (hm : Ends (Settled P A) m r s)
    (hf : ∀ a s', P a s' → m r s = (.ok a, s') → Ends (Settled Q A) (f a) r s') :
    Ends (Settled Q A) (m >>= f) r s :=
  Ends.bind hm (fun _ _ h => h) hf

end Settled

end Prog

end Foundation
