import BitcoinCoordinator.Foundation.Program

/-!
# Two programs on related states

Two programs, each in its environment, match when from related states they return the same or stop for the
same reason, and leave related states. The environments may part after a while: a guard that no program
restores says up to where they are compared, and nothing is asked of states beyond it. A program that
matches itself does not observe what the relation forgets.
-/

namespace Foundation

namespace Prog

variable {ρ ε σ α β : Type}

/-- When the first of two programs ends where the guard holds, the guard held from the start, and the second
returns the same, or stops for the same reason, and leaves a related state. -/
def MatchesAt (G : σ → Prop) (R : σ → σ → Prop) (m n : Prog ρ ε σ α) (r r' : ρ) (s t : σ) : Prop :=
  G (m r s).2 → G s ∧ (m r s).1 = (n r' t).1 ∧ R (m r s).2 (n r' t).2

/-- Two programs match from any states that are related while the guard holds. -/
def Matches (G : σ → Prop) (R : σ → σ → Prop) (m n : Prog ρ ε σ α) (r r' : ρ) : Prop :=
  ∀ s t, (G s → R s t) → MatchesAt G R m n r r' s t

namespace MatchesAt

variable {G : σ → Prop} {R : σ → σ → Prop} {r r' : ρ} {s t : σ}

/-- Two runs from the given states. -/
theorem run {m n : Prog ρ ε σ α} {s' : σ} {x : Except ε α} (h : MatchesAt G R m n r r' s t)
    (hrun : m r s = (x, s')) (hguard : G s') : G s ∧ ∃ t', n r' t = (x, t') ∧ R s' t' := by
  obtain ⟨hstart, hresult, hstate⟩ := h (by rwa [hrun])
  rw [hrun] at hresult hstate
  exact ⟨hstart, (n r' t).2, Prod.ext hresult.symm rfl, hstate⟩

/-- Runs that end the same way. -/
theorem of_run {m n : Prog ρ ε σ α} {x : Except ε α} {s' t' : σ} (hm : m r s = (x, s'))
    (hn : n r' t = (x, t')) (hguard : G s' → G s) (hstate : G s' → R s' t') :
    MatchesAt G R m n r r' s t := by
  unfold MatchesAt
  rw [hm, hn]
  exact fun h => ⟨hguard h, rfl, hstate h⟩

/-- Runs that are the same as matching runs. -/
theorem congr {m n m' n' : Prog ρ ε σ α} {s₁ t₁ : σ} (h : MatchesAt G R m' n' r r' s₁ t₁)
    (hm : m r s = m' r s₁) (hn : n r' t = n' r' t₁) (hguard : G s₁ → G s) : MatchesAt G R m n r r' s t := by
  unfold MatchesAt
  rw [hm, hn]
  intro hlast
  obtain ⟨hstart, hends⟩ := h hlast
  exact ⟨hguard hstart, hends⟩

/-- Sequences match when their first parts do from the given states, and their second parts do for the value
returned from any states that are related while the guard holds. -/
theorem bind {m n : Prog ρ ε σ α} {f g : α → Prog ρ ε σ β} (hm : MatchesAt G R m n r r' s t)
    (hf : ∀ a s' t', m r s = (.ok a, s') → (G s' → R s' t') → MatchesAt G R (f a) (g a) r r' s' t') :
    MatchesAt G R (m >>= f) (n >>= g) r r' s t := by
  intro hguard
  rcases hrun : m r s with ⟨e | a, s'⟩
  · rw [bind_of_error hrun] at hguard ⊢
    obtain ⟨hstart, t', hrun', hs'⟩ := hm.run hrun hguard
    rw [bind_of_error hrun']
    exact ⟨hstart, rfl, hs'⟩
  · rw [bind_of_ok hrun] at hguard ⊢
    have hmiddle : G s' := (hf a s' (n r' t).2 hrun (fun h => (hm.run hrun h).2.elim fun t' ht' => by
      rw [ht'.1]
      exact ht'.2) hguard).1
    obtain ⟨hstart, t', hrun', hs'⟩ := hm.run hrun hmiddle
    rw [bind_of_ok hrun']
    exact ⟨hstart, (hf a s' t' hrun (fun _ => hs') hguard).2⟩

end MatchesAt

namespace Matches

variable {G : σ → Prop} {R : σ → σ → Prop} {r r' : ρ}

/-- Returning the same value. -/
theorem pure (a : α) : Matches G R (Pure.pure a : Prog ρ ε σ α) (Pure.pure a) r r' :=
  fun _ _ hs => MatchesAt.of_run rfl rfl id hs

/-- Stopping for the same reason. -/
theorem stop (e : ε) : Matches G R (Prog.stop e : Prog ρ ε σ α) (Prog.stop e) r r' :=
  fun _ _ hs => MatchesAt.of_run rfl rfl id hs

/-- Reading what related states agree in. -/
theorem read {f g : σ → α} (h : ∀ s t, R s t → f s = g t) :
    Matches G R (Prog.read f : Prog ρ ε σ α) (Prog.read g) r r' :=
  fun s t hs hguard => ⟨hguard, congrArg Except.ok (h s t (hs hguard)), hs hguard⟩

/-- Asking the same. -/
theorem ask {f : ρ → α} (h : f r = f r') :
    Matches G R (Prog.ask f : Prog ρ ε σ α) (Prog.ask f) r r' :=
  fun _ _ hs hguard => ⟨hguard, congrArg Except.ok h, hs hguard⟩

/-- The same fallible value. -/
theorem ofExcept (x : Except ε α) :
    Matches G R (Prog.ofExcept x : Prog ρ ε σ α) (Prog.ofExcept x) r r' :=
  fun _ _ hs => MatchesAt.of_run rfl rfl id hs

/-- Changes that keep states related and do not restore the guard. -/
theorem modify {f g : σ → σ} (hguard : ∀ s, G (f s) → G s) (h : ∀ s t, R s t → R (f s) (g t)) :
    Matches G R (Prog.modify f : Prog ρ ε σ Unit) (Prog.modify g) r r' :=
  fun s t hs => MatchesAt.of_run rfl rfl (hguard s) fun h' => h s t (hs (hguard s h'))

/-- Sequences match when their first parts do and their second parts do for the value returned. -/
theorem bind {m n : Prog ρ ε σ α} {f g : α → Prog ρ ε σ β} (hm : Matches G R m n r r')
    (hf : ∀ a, Matches G R (f a) (g a) r r') : Matches G R (m >>= f) (n >>= g) r r' :=
  fun s t hs => (hm s t hs).bind fun a s' t' _ hs' => hf a s' t' hs'

/-- Conditionals on the same condition match when their branches do. -/
theorem ite {c : Prop} [Decidable c] {m n m' n' : Prog ρ ε σ α} (hm : c → Matches G R m m' r r')
    (hn : ¬ c → Matches G R n n' r r') :
    Matches G R (if c then m else n) (if c then m' else n') r r' := by
  by_cases hc : c
  · simpa [hc] using hm hc
  · simpa [hc] using hn hc

/-- Loops over the same elements match when their rounds do. -/
theorem forEach {xs : List α} {body body' : α → Prog ρ ε σ Unit}
    (hbody : ∀ a ∈ xs, Matches G R (body a) (body' a) r r') :
    Matches G R (Prog.forEach xs body) (Prog.forEach xs body') r r' := by
  induction xs with
  | nil => exact Matches.pure ()
  | cons a rest ih =>
    exact Matches.bind (hbody a List.mem_cons_self)
      fun _ => ih fun b hb => hbody b (List.mem_cons_of_mem _ hb)

end Matches

/-- Sequences with the same second part run alike where their first parts run alike. -/
theorem bind_congr_run {m n : Prog ρ ε σ α} {f : α → Prog ρ ε σ β} {r : ρ} {s t : σ}
    (h : m r s = n r t) : (m >>= f) r s = (n >>= f) r t := by
  change Prog.bind m f r s = Prog.bind n f r t
  unfold Prog.bind
  rw [h]

end Prog

end Foundation
