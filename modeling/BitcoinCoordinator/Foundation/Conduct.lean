import BitcoinCoordinator.Foundation.Footprint

/-!
# Footprints with reasons to stop

Beside the footprint of a program stands the set of reasons it may stop for. Both are inferred together
along the structure of the program. Where the reasons depend on the state a program starts in, they are
followed from that state on.
-/

namespace Foundation

namespace Prog

variable {ρ ε σ α β : Type} {R : σ → σ → Prop} {E : ρ → ε → Prop} {r : ρ} {s : σ}

/-- From the given state a program stops for admitted reasons only. -/
def Halts (E : ρ → ε → Prop) (m : Prog ρ ε σ α) (r : ρ) (s : σ) : Prop :=
  ∀ e, (m r s).1 = .error e → E r e

namespace Halts

/-- A program that returns a value stops for no reason. -/
theorem of_ok {m : Prog ρ ε σ α} {a : α} {s' : σ} (h : m r s = (.ok a, s')) : Halts E m r s := by
  intro e he
  rw [h] at he
  cases he

/-- Returning a value is no stop. -/
theorem pure (a : α) : Halts E (Pure.pure a : Prog ρ ε σ α) r s := of_ok rfl

/-- Reading is no stop. -/
theorem read (f : σ → α) : Halts E (Prog.read f : Prog ρ ε σ α) r s := of_ok rfl

/-- Asking is no stop. -/
theorem ask (f : ρ → α) : Halts E (Prog.ask f : Prog ρ ε σ α) r s := of_ok rfl

/-- A fallible value stops for its error. -/
theorem ofExcept {x : Except ε α} (h : ∀ e, x = .error e → E r e) :
    Halts E (Prog.ofExcept x : Prog ρ ε σ α) r s := h

/-- A sequence stops for admitted reasons when its first part does, and its second part does from
wherever the first returned. -/
theorem bind {m : Prog ρ ε σ α} {f : α → Prog ρ ε σ β} (hm : Halts E m r s)
    (hf : ∀ a s', m r s = (.ok a, s') → Halts E (f a) r s') : Halts E (m >>= f) r s := by
  intro e he
  rcases bind_error.mp (Prod.ext he rfl) with hfirst | ⟨a, s', hfirst, hsecond⟩
  · apply hm
    rw [hfirst]
  · apply hf a s' hfirst
    rw [hsecond]

/-- The common case of `bind`, where the second part stops for admitted reasons from every state. -/
theorem seq {m : Prog ρ ε σ α} {f : α → Prog ρ ε σ β} (hm : Halts E m r s)
    (hf : ∀ a s', Halts E (f a) r s') : Halts E (m >>= f) r s :=
  bind hm fun a s' _ => hf a s'

/-- Both branches stop for admitted reasons. -/
theorem ite {c : Prop} [Decidable c] {m n : Prog ρ ε σ α} (hm : c → Halts E m r s)
    (hn : ¬ c → Halts E n r s) : Halts E (if c then m else n) r s := by
  by_cases hc : c
  · simpa [hc] using hm hc
  · simpa [hc] using hn hc

/-- A loop stops for admitted reasons when its rounds do, from states where an invariant on the remaining
elements holds. -/
theorem forEach_inv {body : α → Prog ρ ε σ Unit} (inv : List α → σ → Prop)
    (hbody : ∀ a rest s, inv (a :: rest) s → Halts E (body a) r s)
    (hstep : ∀ a rest s s' u, inv (a :: rest) s → body a r s = (.ok u, s') → inv rest s')
    {xs : List α} (hstart : inv xs s) : Halts E (Prog.forEach xs body) r s := by
  induction xs generalizing s with
  | nil => exact pure ()
  | cons a rest ih =>
    apply bind (hbody a rest s hstart)
    intro u s' hrun
    exact ih (hstep a rest s s' u hstart hrun)

end Halts

/-- Where a program stops in a state of the given kind, it does so for admitted reasons only. -/
def HaltsIn (I : σ → Prop) (E : ρ → ε → Prop) (m : Prog ρ ε σ α) (r : ρ) (s : σ) : Prop :=
  ∀ e s', m r s = (.error e, s') → I s' → E r e

namespace HaltsIn

variable {I : σ → Prop}

/-- A program that stops for admitted reasons only does so in whatever state. -/
theorem of_halts {m : Prog ρ ε σ α} (h : Halts E m r s) : HaltsIn I E m r s := by
  intro e s' hrun _
  apply h
  rw [hrun]

/-- A sequence does so when both parts do, the second one from wherever the first returned. -/
theorem bind {m : Prog ρ ε σ α} {f : α → Prog ρ ε σ β} (hm : HaltsIn I E m r s)
    (hf : ∀ a s', m r s = (.ok a, s') → HaltsIn I E (f a) r s') : HaltsIn I E (m >>= f) r s := by
  intro e s'' hrun
  rcases bind_error.mp hrun with hfirst | ⟨a, s', hfirst, hsecond⟩
  · exact hm e s'' hfirst
  · exact hf a s' hfirst e s'' hsecond

/-- The common case of `bind`, where the second part does so from every state. -/
theorem seq {m : Prog ρ ε σ α} {f : α → Prog ρ ε σ β} (hm : HaltsIn I E m r s)
    (hf : ∀ a s', HaltsIn I E (f a) r s') : HaltsIn I E (m >>= f) r s :=
  bind hm fun a s' _ => hf a s'

/-- A loop does so when its rounds do, from states where an invariant on the remaining elements holds. -/
theorem forEach_inv {body : α → Prog ρ ε σ Unit} (inv : List α → σ → Prop)
    (hbody : ∀ a rest s, inv (a :: rest) s → HaltsIn I E (body a) r s)
    (hstep : ∀ a rest s s' u, inv (a :: rest) s → body a r s = (.ok u, s') → inv rest s')
    {xs : List α} (hstart : inv xs s) : HaltsIn I E (Prog.forEach xs body) r s := by
  induction xs generalizing s with
  | nil => exact of_halts (Halts.pure ())
  | cons a rest ih =>
    apply bind (hbody a rest s hstart)
    intro u s' hrun
    exact ih (hstep a rest s s' u hstart hrun)

end HaltsIn

/-- Whatever is answered and wherever it stops, a program leaves a state related to the one it was given,
and it stops for admitted reasons only. -/
class Conducts (R : σ → σ → Prop) (E : ρ → ε → Prop) (m : Prog ρ ε σ α) : Prop where
  related : ∀ r s, R s (m r s).2
  halts : ∀ r s, Halts E m r s

namespace Conducts

/-- A program that returns and leaves the state alone is within every preorder. -/
theorem of_same [IsPreorder σ R] {m : Prog ρ ε σ α} (hstate : ∀ r s, (m r s).2 = s)
    (hhalts : ∀ r s, Halts E m r s) : Conducts R E m where
  related r s := by
    rw [hstate r s]
    exact refl s
  halts := hhalts

instance pure [IsPreorder σ R] {a : α} : Conducts R E (Pure.pure a : Prog ρ ε σ α) :=
  of_same (fun _ _ => rfl) fun _ _ => Halts.pure a

instance read [IsPreorder σ R] {f : σ → α} : Conducts R E (Prog.read f : Prog ρ ε σ α) :=
  of_same (fun _ _ => rfl) fun _ _ => Halts.read f

instance ask [IsPreorder σ R] {f : ρ → α} : Conducts R E (Prog.ask f : Prog ρ ε σ α) :=
  of_same (fun _ _ => rfl) fun _ _ => Halts.ask f

/-- Stopping for an admitted reason. -/
theorem stop [IsPreorder σ R] {e : ε} (h : ∀ r, E r e) : Conducts R E (Prog.stop e : Prog ρ ε σ α) :=
  of_same (fun _ _ => rfl) fun r s e' he => by
    cases he
    exact h r

/-- A fallible value whose errors are admitted. -/
theorem ofExcept [IsPreorder σ R] {x : Except ε α} (h : ∀ r e, x = .error e → E r e) :
    Conducts R E (Prog.ofExcept x : Prog ρ ε σ α) :=
  of_same (fun _ _ => rfl) fun r _ => Halts.ofExcept (h r)

/-- A sequence does what both parts do, the second one for the values that the first one returns. -/
theorem seq_of_result [IsPreorder σ R] {m : Prog ρ ε σ α} {f : α → Prog ρ ε σ β} [hm : Conducts R E m]
    (hf : ∀ r s a s', m r s = (.ok a, s') → Conducts R E (f a)) : Conducts R E (m >>= f) where
  related r s := related_bind (hm.related r s) fun a s' hrun => (hf r s a s' hrun).related r s'
  halts r s := Halts.bind (hm.halts r s) fun a s' hrun => (hf r s a s' hrun).halts r s'

/-- A sequence does what both parts do. -/
theorem seq [IsPreorder σ R] {m : Prog ρ ε σ α} {f : α → Prog ρ ε σ β} [Conducts R E m]
    (hf : ∀ a, Conducts R E (f a)) : Conducts R E (m >>= f) := seq_of_result fun _ _ a _ _ => hf a

instance bind [IsPreorder σ R] {m : Prog ρ ε σ α} {f : α → Prog ρ ε σ β} [Conducts R E m]
    [hf : ∀ a, Conducts R E (f a)] : Conducts R E (m >>= f) := seq hf

/-- Both branches do it. -/
theorem branch {c : Prop} [Decidable c] {m n : Prog ρ ε σ α} (hm : c → Conducts R E m)
    (hn : ¬ c → Conducts R E n) : Conducts R E (if c then m else n) := by
  split
  · next hc => exact hm hc
  · next hc => exact hn hc

instance ite {c : Prop} [Decidable c] {m n : Prog ρ ε σ α} [hm : Conducts R E m] [hn : Conducts R E n] :
    Conducts R E (if c then m else n) := branch (fun _ => hm) fun _ => hn

/-- A loop does what each of its rounds does. -/
theorem loop [IsPreorder σ R] {xs : List α} {body : α → Prog ρ ε σ Unit}
    (hbody : ∀ a ∈ xs, Conducts R E (body a)) : Conducts R E (forEach xs body) := by
  induction xs with
  | nil => exact Conducts.pure
  | cons a rest ih =>
    have hfirst : Conducts R E (body a) := hbody a List.mem_cons_self
    exact seq fun _ => ih fun b hb => hbody b (List.mem_cons_of_mem _ hb)

instance forEach [IsPreorder σ R] {xs : List α} {body : α → Prog ρ ε σ Unit}
    [hbody : ∀ a, Conducts R E (body a)] : Conducts R E (Prog.forEach xs body) := loop fun a _ => hbody a

end Conducts

end Prog

end Foundation
