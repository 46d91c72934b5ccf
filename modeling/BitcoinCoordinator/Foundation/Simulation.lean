import BitcoinCoordinator.Foundation.Program

/-!
# One program simulating another

Two programs over different states simulate each other when from related states they return the same, or stop for
the same reason, and leave related states. A component with two implementations is used through scripts of its
calls, each of which may depend on the answers to those before. If every call is simulated, so is every script.
-/

namespace Foundation

namespace Prog

variable {ρ ε σ τ α β : Type} {R : σ → τ → Prop} {r : ρ}

/-- From the given states two programs return the same, or stop for the same reason, and leave related states. -/
def SimulatesAt (R : σ → τ → Prop) (m : Prog ρ ε σ α) (n : Prog ρ ε τ α) (r : ρ) (s : σ) (t : τ) : Prop :=
  (m r s).1 = (n r t).1 ∧ R (m r s).2 (n r t).2

/-- From all related states they do. -/
def Simulates (R : σ → τ → Prop) (m : Prog ρ ε σ α) (n : Prog ρ ε τ α) (r : ρ) : Prop :=
  ∀ s t, R s t → SimulatesAt R m n r s t

/-- Sequences simulate each other when their first parts do, and their second parts do from wherever the first
parts returned the same. -/
theorem SimulatesAt.bind {m : Prog ρ ε σ α} {n : Prog ρ ε τ α} {f : α → Prog ρ ε σ β} {g : α → Prog ρ ε τ β}
    {s : σ} {t : τ} (hm : SimulatesAt R m n r s t)
    (hf : ∀ a s' t', m r s = (.ok a, s') → n r t = (.ok a, t') → R s' t' → SimulatesAt R (f a) (g a) r s' t') :
    SimulatesAt R (m >>= f) (n >>= g) r s t := by
  obtain ⟨hresult, hstate⟩ := hm
  change (Prog.bind m f r s).1 = (Prog.bind n g r t).1 ∧ R (Prog.bind m f r s).2 (Prog.bind n g r t).2
  unfold Prog.bind
  rcases hleft : m r s with ⟨x, s'⟩
  rcases hright : n r t with ⟨y, t'⟩
  rw [hleft, hright] at hresult hstate
  obtain rfl : x = y := hresult
  cases x with
  | error e => exact ⟨rfl, hstate⟩
  | ok a => exact hf a s' t' hleft hright hstate

namespace Simulates

/-- Returning the same value. -/
theorem pure (a : α) : Simulates R (Pure.pure a : Prog ρ ε σ α) (Pure.pure a : Prog ρ ε τ α) r :=
  fun _ _ h => ⟨rfl, h⟩

/-- Stopping for the same reason. -/
theorem stop (e : ε) : Simulates R (Prog.stop e : Prog ρ ε σ α) (Prog.stop e : Prog ρ ε τ α) r :=
  fun _ _ h => ⟨rfl, h⟩

/-- Asking the same. -/
theorem ask (f : ρ → α) : Simulates R (Prog.ask f : Prog ρ ε σ α) (Prog.ask f : Prog ρ ε τ α) r :=
  fun _ _ h => ⟨rfl, h⟩

/-- The same fallible value. -/
theorem ofExcept (x : Except ε α) :
    Simulates R (Prog.ofExcept x : Prog ρ ε σ α) (Prog.ofExcept x : Prog ρ ε τ α) r :=
  fun _ _ h => ⟨rfl, h⟩

/-- Sequences, the second parts from any related states. -/
theorem bind {m : Prog ρ ε σ α} {n : Prog ρ ε τ α} {f : α → Prog ρ ε σ β} {g : α → Prog ρ ε τ β}
    (hm : Simulates R m n r) (hf : ∀ a, Simulates R (f a) (g a) r) : Simulates R (m >>= f) (n >>= g) r :=
  fun s t h => (hm s t h).bind fun a s' t' _ _ h' => hf a s' t' h'

/-- Conditionals on the same condition. -/
theorem ite {c : Prop} [Decidable c] {m m' : Prog ρ ε σ α} {n n' : Prog ρ ε τ α} (hm : c → Simulates R m n r)
    (hn : ¬ c → Simulates R m' n' r) : Simulates R (if c then m else m') (if c then n else n') r := by
  split
  · next hc => exact hm hc
  · next hc => exact hn hc

/-- Loops over the same elements. -/
theorem forEach {xs : List α} {f : α → Prog ρ ε σ Unit} {g : α → Prog ρ ε τ Unit}
    (h : ∀ a, Simulates R (f a) (g a) r) : Simulates R (Prog.forEach xs f) (Prog.forEach xs g) r := by
  induction xs with
  | nil => exact pure ()
  | cons a rest ih => exact bind (h a) fun _ => ih

/-- A step of the second program that returns and leaves related states has no counterpart. -/
theorem silent_first {m : Prog ρ ε σ β} {n : Prog ρ ε τ α} {g : α → Prog ρ ε τ β}
    (hn : ∀ s t, R s t → ∃ a t', n r t = (.ok a, t') ∧ R s t') (hg : ∀ a, Simulates R m (g a) r) :
    Simulates R m (n >>= g) r := by
  intro s t h
  obtain ⟨a, t', hrun, h'⟩ := hn s t h
  unfold SimulatesAt
  rw [bind_of_ok hrun]
  exact hg a s t' h'

/-- Nor does such a step at the end. -/
theorem silent_last {m : Prog ρ ε σ Unit} {n : Prog ρ ε τ Unit} {g : Unit → Prog ρ ε τ Unit}
    (hm : Simulates R m n r) (hg : ∀ s t, R s t → ∃ t', g () r t = (.ok (), t') ∧ R s t') :
    Simulates R m (n >>= g) r := by
  intro s t h
  obtain ⟨hresult, hstate⟩ := hm s t h
  unfold SimulatesAt
  rcases hrun : n r t with ⟨e | u, t'⟩
  · rw [bind_of_error hrun]
    rw [hrun] at hresult hstate
    exact ⟨hresult, hstate⟩
  · rw [hrun] at hresult hstate
    obtain ⟨t'', hlast, h''⟩ := hg _ t' hstate
    rw [bind_of_ok hrun]
    change _ = (g () r t').1 ∧ R _ (g () r t').2
    rw [hlast]
    exact ⟨hresult, h''⟩

end Simulates

end Prog

/-! ### Scripts -/

/-- What uses a component: calls of it, each chosen by the answers to those before. -/
inductive Script (Op : Type → Type) (α : Type) : Type 1 where
  | done (a : α)
  | call {β : Type} (op : Op β) (next : β → Script Op α)

namespace Script

variable {ρ ε σ τ α : Type} {Op : Type → Type}

/-- A script carried out by an implementation of the calls. -/
def run (impl : ∀ {β : Type}, Op β → Prog ρ ε σ β) : Script Op α → Prog ρ ε σ α
  | done a => pure a
  | call op next => impl op >>= fun b => run impl (next b)

/-- If every call of one implementation is simulated by the other, so is every script. -/
theorem simulates {R : σ → τ → Prop} {r : ρ} {impl : ∀ {β : Type}, Op β → Prog ρ ε σ β}
    {impl' : ∀ {β : Type}, Op β → Prog ρ ε τ β}
    (h : ∀ {β : Type} (op : Op β), Prog.Simulates R (impl op) (impl' op) r) (script : Script Op α) :
    Prog.Simulates R (script.run impl) (script.run impl') r := by
  induction script with
  | done a => exact Prog.Simulates.pure a
  | call op next ih => exact Prog.Simulates.bind (h op) fun b => ih b

end Script

end Foundation
