import BitcoinCoordinator.Foundation.Program
import Mathlib.Order.Defs.Unbundled

/-!
# What a program can do to the state

The footprint of a program is a preorder on states: whatever it is answered and wherever it stops, the state
it leaves is related to the one it was given. Footprints are inferred along the structure of a program.
-/

namespace Foundation

namespace Prog

variable {ρ ε σ α β : Type} {R : σ → σ → Prop}

/-- A sequence leaves a related state when its first part does, and its second part does from wherever the
first returned. -/
theorem related_bind [IsTrans σ R] {m : Prog ρ ε σ α} {f : α → Prog ρ ε σ β} {r : ρ} {s : σ}
    (hm : R s (m r s).2) (hf : ∀ a s', m r s = (.ok a, s') → R s' (f a r s').2) :
    R s ((m >>= f) r s).2 := by
  change R s (Prog.bind m f r s).2
  unfold Prog.bind
  rcases hrun : m r s with ⟨e | a, s'⟩
  · simpa [hrun] using hm
  · rw [hrun] at hm
    exact IsTrans.trans _ _ _ hm (hf a s' hrun)

/-- Turning the value into another one leaves the state. -/
theorem state_map {m : Prog ρ ε σ α} {f : α → β} {r : ρ} {s : σ} :
    ((m >>= fun a => pure (f a)) r s).2 = (m r s).2 := by
  change (Prog.bind m _ r s).2 = _
  unfold Prog.bind
  rcases m r s with ⟨e | a, s'⟩ <;> rfl

/-- Whatever is answered and wherever it stops, a program leaves a state related to the one it was given. -/
class Within (R : σ → σ → Prop) (m : Prog ρ ε σ α) : Prop where
  related : ∀ r s, R s (m r s).2

namespace Within

/-- What a program does may be described less precisely. -/
theorem mono {R' : σ → σ → Prop} {m : Prog ρ ε σ α} (h : Within R m) (himp : ∀ s s', R s s' → R' s s') :
    Within R' m where
  related r s := himp _ _ (h.related r s)

/-- A program that leaves the state alone is within every preorder. -/
theorem of_same [IsPreorder σ R] {m : Prog ρ ε σ α} (h : ∀ r s, (m r s).2 = s) : Within R m where
  related r s := by
    rw [h r s]
    exact refl s

instance pure [IsPreorder σ R] {a : α} : Within R (Pure.pure a : Prog ρ ε σ α) := of_same fun _ _ => rfl

instance stop [IsPreorder σ R] {e : ε} : Within R (Prog.stop e : Prog ρ ε σ α) := of_same fun _ _ => rfl

instance read [IsPreorder σ R] {f : σ → α} : Within R (Prog.read f : Prog ρ ε σ α) :=
  of_same fun _ _ => rfl

instance ask [IsPreorder σ R] {f : ρ → α} : Within R (Prog.ask f : Prog ρ ε σ α) :=
  of_same fun _ _ => rfl

instance ofExcept [IsPreorder σ R] {x : Except ε α} : Within R (Prog.ofExcept x : Prog ρ ε σ α) :=
  of_same fun _ _ => rfl

/-- A sequence is within what both parts are within, the second one for the values that the first one
returns. -/
theorem seq_of_result [IsPreorder σ R] {m : Prog ρ ε σ α} {f : α → Prog ρ ε σ β} [hm : Within R m]
    (hf : ∀ r s a s', m r s = (.ok a, s') → Within R (f a)) : Within R (m >>= f) where
  related r s := related_bind (hm.related r s) fun a s' hrun => (hf r s a s' hrun).related r s'

/-- A sequence is within what both parts are within. -/
theorem seq [IsPreorder σ R] {m : Prog ρ ε σ α} {f : α → Prog ρ ε σ β} [Within R m]
    (hf : ∀ a, Within R (f a)) : Within R (m >>= f) := seq_of_result fun _ _ a _ _ => hf a

instance bind [IsPreorder σ R] {m : Prog ρ ε σ α} {f : α → Prog ρ ε σ β} [Within R m]
    [hf : ∀ a, Within R (f a)] : Within R (m >>= f) := seq hf

/-- Both branches are within it. -/
theorem branch {c : Prop} [Decidable c] {m n : Prog ρ ε σ α} (hm : Within R m) (hn : Within R n) :
    Within R (if c then m else n) := by
  split
  · exact hm
  · exact hn

instance ite {c : Prop} [Decidable c] {m n : Prog ρ ε σ α} [hm : Within R m] [hn : Within R n] :
    Within R (if c then m else n) := branch hm hn

/-- A loop is within what each of its rounds is within. -/
theorem loop [IsPreorder σ R] {xs : List α} {body : α → Prog ρ ε σ Unit}
    (hbody : ∀ a ∈ xs, Within R (body a)) : Within R (forEach xs body) := by
  induction xs with
  | nil => exact Within.pure
  | cons a rest ih =>
    have hfirst : Within R (body a) := hbody a List.mem_cons_self
    exact seq fun _ => ih fun b hb => hbody b (List.mem_cons_of_mem _ hb)

instance forEach [IsPreorder σ R] {xs : List α} {body : α → Prog ρ ε σ Unit}
    [hbody : ∀ a, Within R (body a)] : Within R (Prog.forEach xs body) := loop fun a _ => hbody a

end Within

end Prog

end Foundation
