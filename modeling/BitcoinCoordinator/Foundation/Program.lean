import Mathlib.Logic.Relation
import Mathlib.Data.List.Basic

/-!
# Programs that read answers, update a state and may stop early

A program is given the answers of its environment and a state. It returns a value or the
reason it stopped, and in both cases the state it leaves behind: stopping does not undo what
was already written. The inversion lemmas take a completed run apart statement by statement,
and the two loop rules carry an invariant through `forEach`.
-/

namespace Foundation

/-- A computation over answers `ρ`, stop reasons `ε` and a state `σ` that survives a stop. -/
def Prog (ρ ε σ α : Type) : Type := ρ → σ → Except ε α × σ

namespace Prog

variable {ρ ε σ α β : Type}

/-- Return a value without touching the state. -/
protected def pure (a : α) : Prog ρ ε σ α := fun _ s => (.ok a, s)

/-- Run the continuation on the value, or keep the stop reason and the state reached. -/
protected def bind (m : Prog ρ ε σ α) (f : α → Prog ρ ε σ β) : Prog ρ ε σ β := fun r s =>
  match m r s with
  | (.ok a, s') => f a r s'
  | (.error e, s') => (.error e, s')

instance : Monad (Prog ρ ε σ) where
  pure := Prog.pure
  bind := Prog.bind

/-- Stop with a reason. -/
def stop (e : ε) : Prog ρ ε σ α := fun _ s => (.error e, s)

/-- Read part of the state. -/
def read (f : σ → α) : Prog ρ ε σ α := fun _ s => (.ok (f s), s)

/-- Read part of the environment's answers. -/
def ask (f : ρ → α) : Prog ρ ε σ α := fun r s => (.ok (f r), s)

/-- Replace the state. -/
def modify (f : σ → σ) : Prog ρ ε σ Unit := fun _ s => (.ok (), f s)

/-- Turn a pure fallible result into a program. -/
def ofExcept (x : Except ε α) : Prog ρ ε σ α := fun _ s => (x, s)

/-- Run a body on each element of a list, in order. -/
def forEach : List α → (α → Prog ρ ε σ Unit) → Prog ρ ε σ Unit
  | [], _ => pure ()
  | a :: rest, body => body a >>= fun _ => forEach rest body

/-- A completed `pure` returned its value in the state it was given. -/
@[simp] theorem pure_ok {a b : α} {r : ρ} {s s' : σ} :
    (pure a : Prog ρ ε σ α) r s = (.ok b, s') ↔ b = a ∧ s' = s := by
  change (Except.ok a, s) = (Except.ok b, s') ↔ _
  simp only [Prod.mk.injEq, Except.ok.injEq]
  exact and_congr eq_comm eq_comm

/-- A completed sequence is a completed first part followed by a completed second part. -/
theorem bind_ok {m : Prog ρ ε σ α} {f : α → Prog ρ ε σ β} {r : ρ} {s s'' : σ} {b : β} :
    (m >>= f) r s = (.ok b, s'') ↔
      ∃ a s', m r s = (.ok a, s') ∧ f a r s' = (.ok b, s'') := by
  change Prog.bind m f r s = _ ↔ _
  unfold Prog.bind
  rcases h : m r s with ⟨_ | a, s'⟩
  · simp
  · constructor
    · exact fun hf => ⟨a, s', rfl, hf⟩
    · rintro ⟨a', s₁, heq, hf⟩
      obtain ⟨rfl, rfl⟩ : a = a' ∧ s' = s₁ := by simpa using heq
      exact hf

/-- A stopped program never completes. -/
@[simp] theorem stop_ok {e : ε} {r : ρ} {s s' : σ} {a : α} :
    (stop e : Prog ρ ε σ α) r s = (.ok a, s') ↔ False := by
  simp [stop]

/-- A completed read returned the value found, in the same state. -/
@[simp] theorem read_ok {f : σ → α} {r : ρ} {s s' : σ} {a : α} :
    (read f : Prog ρ ε σ α) r s = (.ok a, s') ↔ a = f s ∧ s' = s := by
  simp only [read, Prod.mk.injEq, Except.ok.injEq]
  exact and_congr eq_comm eq_comm

/-- A completed question returned the environment's answer, in the same state. -/
@[simp] theorem ask_ok {f : ρ → α} {r : ρ} {s s' : σ} {a : α} :
    (ask f : Prog ρ ε σ α) r s = (.ok a, s') ↔ a = f r ∧ s' = s := by
  simp only [ask, Prod.mk.injEq, Except.ok.injEq]
  exact and_congr eq_comm eq_comm

/-- A completed update leaves the updated state. -/
@[simp] theorem modify_ok {f : σ → σ} {r : ρ} {s s' : σ} {u : Unit} :
    (modify f : Prog ρ ε σ Unit) r s = (.ok u, s') ↔ s' = f s := by
  simp only [modify, Prod.mk.injEq, true_and]
  exact eq_comm

/-- A completed fallible value was not an error and left the state alone. -/
@[simp] theorem ofExcept_ok {x : Except ε α} {r : ρ} {s s' : σ} {a : α} :
    (ofExcept x : Prog ρ ε σ α) r s = (.ok a, s') ↔ x = .ok a ∧ s' = s := by
  simp only [ofExcept, Prod.mk.injEq]
  exact and_congr Iff.rfl eq_comm

/-- A wrapped error is not a success. -/
theorem mapError_ok {ε' : Type} {f : ε → ε'} {x : Except ε α} {a : α} :
    x.mapError f = .ok a ↔ x = .ok a := by
  cases x <;> simp [Except.mapError]

/-- A completed conditional is the completed branch that was taken. -/
theorem ite_ok {c : Prop} [Decidable c] {m n : Prog ρ ε σ α} {r : ρ} {s s' : σ} {a : α} :
    (if c then m else n) r s = (.ok a, s') ↔
      (c ∧ m r s = (.ok a, s')) ∨ (¬ c ∧ n r s = (.ok a, s')) := by
  by_cases hc : c <;> simp [hc]

/-- An invariant on the remaining elements and the state survives a completed loop when one
round of the body carries it from `a :: rest` to `rest`. -/
theorem forEach_ok_induction {body : α → Prog ρ ε σ Unit} {r : ρ}
    (motive : List α → σ → Prop)
    (hstep : ∀ a rest s s' u, motive (a :: rest) s → body a r s = (.ok u, s') → motive rest s')
    {xs : List α} {s s' : σ} {u : Unit} (hstart : motive xs s)
    (hrun : forEach xs body r s = (.ok u, s')) : motive [] s' := by
  induction xs generalizing s with
  | nil =>
    obtain ⟨-, rfl⟩ := pure_ok.mp hrun
    exact hstart
  | cons a rest ih =>
    obtain ⟨v, s₁, hbody, hrest⟩ := bind_ok.mp hrun
    exact ih (hstep a rest s s₁ v hstart hbody) hrest

/-- A state property holds in whatever state a program leaves, completed or stopped. -/
def Keeps (I : σ → Prop) (m : Prog ρ ε σ α) (r : ρ) : Prop := ∀ s, I s → I (m r s).2

namespace Keeps

variable {I : σ → Prop} {r : ρ}

/-- A kept property holds in the state a run ends in. -/
theorem run {m : Prog ρ ε σ α} {x : Except ε α} {s s' : σ} (hm : Keeps I m r) (hs : I s)
    (hrun : m r s = (x, s')) : I s' := by
  have hkept := hm s hs
  rwa [hrun] at hkept

/-- Returning a value keeps every property. -/
theorem pure (a : α) : Keeps I (Pure.pure a : Prog ρ ε σ α) r := fun _ hs => hs

/-- Stopping keeps every property. -/
theorem stop (e : ε) : Keeps I (Prog.stop e : Prog ρ ε σ α) r := fun _ hs => hs

/-- Reading keeps every property. -/
theorem read (f : σ → α) : Keeps I (Prog.read f : Prog ρ ε σ α) r := fun _ hs => hs

/-- Asking keeps every property. -/
theorem ask (f : ρ → α) : Keeps I (Prog.ask f : Prog ρ ε σ α) r := fun _ hs => hs

/-- A fallible value keeps every property. -/
theorem ofExcept (x : Except ε α) : Keeps I (Prog.ofExcept x : Prog ρ ε σ α) r :=
  fun _ hs => hs

/-- A property kept by both parts is kept by the sequence; the second part may use the value
and the state in which the first part completed. -/
theorem bind {m : Prog ρ ε σ α} {f : α → Prog ρ ε σ β} (hm : Keeps I m r)
    (hf : ∀ s a s', I s → m r s = (.ok a, s') → I (f a r s').2) : Keeps I (m >>= f) r := by
  intro s hs
  change I (Prog.bind m f r s).2
  unfold Prog.bind
  have hkeep := hm s hs
  rcases h : m r s with ⟨_ | a, s'⟩
  · simpa [h] using hkeep
  · exact hf s a s' hs h

/-- The common case of `bind`, where the second part keeps the property from every state. -/
theorem seq {m : Prog ρ ε σ α} {f : α → Prog ρ ε σ β} (hm : Keeps I m r)
    (hf : ∀ a, Keeps I (f a) r) : Keeps I (m >>= f) r :=
  bind hm fun s a s' hs hrun => hf a s' (by simpa [hrun] using hm s hs)

/-- Both branches keep the property. -/
theorem ite {c : Prop} [Decidable c] {m n : Prog ρ ε σ α} (hm : c → Keeps I m r)
    (hn : ¬ c → Keeps I n r) : Keeps I (if c then m else n) r := by
  by_cases hc : c
  · simpa [hc] using hm hc
  · simpa [hc] using hn hc

/-- A loop keeps what every round keeps. -/
theorem forEach {xs : List α} {body : α → Prog ρ ε σ Unit}
    (hbody : ∀ a ∈ xs, Keeps I (body a) r) : Keeps I (Prog.forEach xs body) r := by
  induction xs with
  | nil => exact Keeps.pure ()
  | cons a rest ih =>
    exact seq (hbody a List.mem_cons_self)
      fun _ => ih fun b hb => hbody b (List.mem_cons_of_mem _ hb)

/-- A loop keeps what its rounds keep from states where an invariant on the remaining elements holds. -/
theorem forEach_inv {body : α → Prog ρ ε σ Unit} (inv : List α → σ → Prop)
    (hkeep : ∀ a rest s, I s → inv (a :: rest) s → I (body a r s).2)
    (hstep : ∀ a rest s s' u, inv (a :: rest) s → body a r s = (.ok u, s') → inv rest s')
    {xs : List α} {s : σ} (hs : I s) (hstart : inv xs s) : I (Prog.forEach xs body r s).2 := by
  induction xs generalizing s with
  | nil => exact hs
  | cons a rest ih =>
    have hkept := hkeep a rest s hs hstart
    change I (Prog.bind (body a) (fun _ => Prog.forEach rest body) r s).2
    unfold Prog.bind
    rcases hrun : body a r s with ⟨_ | u, s'⟩
    · rw [hrun] at hkept
      exact hkept
    · rw [hrun] at hkept
      exact ih hkept (hstep a rest s s' u hstart hrun)

end Keeps

/-! ### Completion -/

/-- A run returns a value. -/
def Completes (m : Prog ρ ε σ α) (r : ρ) (s : σ) : Prop := ∃ a s', m r s = (.ok a, s')

/-- A run does not stop for the given reason. -/
def Avoids (e : ε) (m : Prog ρ ε σ α) (r : ρ) (s : σ) : Prop := (m r s).1 ≠ .error e

namespace Completes

variable {r : ρ} {s : σ}

/-- Returning a value completes. -/
theorem pure (a : α) : Completes (Pure.pure a : Prog ρ ε σ α) r s := ⟨a, s, rfl⟩

/-- Reading completes. -/
theorem read (f : σ → α) : Completes (Prog.read f : Prog ρ ε σ α) r s := ⟨f s, s, rfl⟩

/-- A sequence completes when its first part does and its second part does from there. -/
theorem bind {m : Prog ρ ε σ α} {f : α → Prog ρ ε σ β} (hm : Completes m r s)
    (hf : ∀ a s', m r s = (.ok a, s') → Completes (f a) r s') : Completes (m >>= f) r s := by
  obtain ⟨a, s', hrun⟩ := hm
  obtain ⟨b, s'', hrest⟩ := hf a s' hrun
  exact ⟨b, s'', bind_ok.mpr ⟨a, s', hrun, hrest⟩⟩

/-- The common case of `bind`, where the second part completes from every state. -/
theorem seq {m : Prog ρ ε σ α} {f : α → Prog ρ ε σ β} (hm : Completes m r s)
    (hf : ∀ a s', Completes (f a) r s') : Completes (m >>= f) r s :=
  bind hm fun a s' _ => hf a s'

/-- A conditional completes when both branches do. -/
theorem ite {c : Prop} [Decidable c] {m n : Prog ρ ε σ α} (hm : c → Completes m r s)
    (hn : ¬ c → Completes n r s) : Completes (if c then m else n) r s := by
  by_cases hc : c
  · simpa [hc] using hm hc
  · simpa [hc] using hn hc

end Completes

namespace Avoids

variable {e : ε} {r : ρ} {s : σ}

/-- A run that completes stops for no reason. -/
theorem of_completes {m : Prog ρ ε σ α} (hm : Completes m r s) : Avoids e m r s := by
  obtain ⟨a, s', hrun⟩ := hm
  simp [Avoids, hrun]

/-- Returning a value stops for no reason. -/
theorem pure (a : α) : Avoids e (Pure.pure a : Prog ρ ε σ α) r s :=
  of_completes (Completes.pure a)

/-- Reading stops for no reason. -/
theorem read (f : σ → α) : Avoids e (Prog.read f : Prog ρ ε σ α) r s :=
  of_completes (Completes.read f)

/-- Asking stops for no reason. -/
theorem ask (f : ρ → α) : Avoids e (Prog.ask f : Prog ρ ε σ α) r s :=
  of_completes ⟨f r, s, rfl⟩

/-- A sequence avoids a reason when both parts do. -/
theorem bind {m : Prog ρ ε σ α} {f : α → Prog ρ ε σ β} (hm : Avoids e m r s)
    (hf : ∀ a s', m r s = (.ok a, s') → Avoids e (f a) r s') : Avoids e (m >>= f) r s := by
  change (Prog.bind m f r s).1 ≠ _
  unfold Prog.bind
  unfold Avoids at hm
  rcases hrun : m r s with ⟨_ | a, s'⟩
  · simpa [hrun] using hm
  · exact hf a s' hrun

/-- The common case of `bind`, where the second part avoids the reason from every state. -/
theorem seq {m : Prog ρ ε σ α} {f : α → Prog ρ ε σ β} (hm : Avoids e m r s)
    (hf : ∀ a s', Avoids e (f a) r s') : Avoids e (m >>= f) r s :=
  bind hm fun a s' _ => hf a s'

/-- A conditional avoids a reason when both branches do. -/
theorem ite {c : Prop} [Decidable c] {m n : Prog ρ ε σ α} (hm : c → Avoids e m r s)
    (hn : ¬ c → Avoids e n r s) : Avoids e (if c then m else n) r s := by
  by_cases hc : c
  · simpa [hc] using hm hc
  · simpa [hc] using hn hc

end Avoids

/-! ### Outcomes -/

/-- What a run returns, or why it stopped, and the state it leaves are related as asked. -/
def Ends (Q : Except ε α → σ → Prop) (m : Prog ρ ε σ α) (r : ρ) (s : σ) : Prop :=
  Q (m r s).1 (m r s).2

namespace Ends

variable {Q : Except ε α → σ → Prop} {r : ρ} {s : σ}

/-- The outcome of a run. -/
theorem run {m : Prog ρ ε σ α} {x : Except ε α} {s' : σ} (hm : Ends Q m r s)
    (hrun : m r s = (x, s')) : Q x s' := by
  unfold Ends at hm
  rwa [hrun] at hm

/-- Outcomes of a narrower kind are outcomes of a wider kind. -/
theorem mono {Q' : Except ε α → σ → Prop} {m : Prog ρ ε σ α} (hm : Ends Q m r s)
    (hsub : ∀ x s', Q x s' → Q' x s') : Ends Q' m r s :=
  hsub _ _ hm

/-- What a run keeps is its outcome, wherever it stops. -/
theorem of_keeps {P : σ → Prop} {m : Prog ρ ε σ α} (hm : Keeps P m r) (hs : P s) :
    Ends (fun _ s' => P s') m r s :=
  hm s hs

/-- A sequence ends as asked when its first part may stop as it does, and its second part ends so from
where the first completed. -/
theorem bind {R : Except ε α → σ → Prop} {Q : Except ε β → σ → Prop} {m : Prog ρ ε σ α}
    {f : α → Prog ρ ε σ β} (hm : Ends R m r s) (hstop : ∀ e s', R (.error e) s' → Q (.error e) s')
    (hf : ∀ a s', R (.ok a) s' → m r s = (.ok a, s') → Ends Q (f a) r s') :
    Ends Q (m >>= f) r s := by
  change Q (Prog.bind m f r s).1 (Prog.bind m f r s).2
  unfold Prog.bind
  rcases hrun : m r s with ⟨e | a, s'⟩
  · exact hstop e s' (hm.run hrun)
  · exact hf a s' (hm.run hrun) hrun

/-- A conditional ends as its branches do. -/
theorem ite {c : Prop} [Decidable c] {m n : Prog ρ ε σ α} (hm : c → Ends Q m r s)
    (hn : ¬ c → Ends Q n r s) : Ends Q (if c then m else n) r s := by
  by_cases hc : c
  · simpa [hc] using hm hc
  · simpa [hc] using hn hc

end Ends

/-- When its first part completes, a sequence runs as its second part does from there. -/
theorem bind_of_ok {m : Prog ρ ε σ α} {f : α → Prog ρ ε σ β} {r : ρ} {s s' : σ} {a : α}
    (hm : m r s = (.ok a, s')) : (m >>= f) r s = f a r s' := by
  change Prog.bind m f r s = _
  simp [Prog.bind, hm]

/-- A sequence stops in its first part, or in its second after the first completed. -/
theorem bind_error {m : Prog ρ ε σ α} {f : α → Prog ρ ε σ β} {r : ρ} {s s'' : σ} {e : ε} :
    (m >>= f) r s = (.error e, s'') ↔
      m r s = (.error e, s'') ∨ ∃ a s', m r s = (.ok a, s') ∧ f a r s' = (.error e, s'') := by
  change Prog.bind m f r s = _ ↔ _
  unfold Prog.bind
  rcases m r s with ⟨e' | a, s'⟩ <;> simp

/-- When its first part stops, a sequence stops there. -/
theorem bind_of_error {m : Prog ρ ε σ α} {f : α → Prog ρ ε σ β} {r : ρ} {s s' : σ} {e : ε}
    (hm : m r s = (.error e, s')) : (m >>= f) r s = (.error e, s') := by
  change Prog.bind m f r s = _
  simp [Prog.bind, hm]

/-! ### Programs as chains of moves -/

/-- Whatever state a program leaves, completed or stopped, is reached from the given one by a
chain of moves. -/
def Reaches (move : σ → σ → Prop) (m : Prog ρ ε σ α) (r : ρ) (s : σ) : Prop :=
  Relation.ReflTransGen move s (m r s).2

namespace Reaches

variable {move : σ → σ → Prop} {r : ρ} {s : σ}

/-- Returning a value takes no move. -/
theorem pure (a : α) : Reaches move (Pure.pure a : Prog ρ ε σ α) r s :=
  Relation.ReflTransGen.refl

/-- Stopping takes no move. -/
theorem stop (e : ε) : Reaches move (Prog.stop e : Prog ρ ε σ α) r s :=
  Relation.ReflTransGen.refl

/-- Reading takes no move. -/
theorem read (f : σ → α) : Reaches move (Prog.read f : Prog ρ ε σ α) r s :=
  Relation.ReflTransGen.refl

/-- Asking takes no move. -/
theorem ask (f : ρ → α) : Reaches move (Prog.ask f : Prog ρ ε σ α) r s :=
  Relation.ReflTransGen.refl

/-- A fallible value takes no move. -/
theorem ofExcept (x : Except ε α) : Reaches move (Prog.ofExcept x : Prog ρ ε σ α) r s :=
  Relation.ReflTransGen.refl

/-- A sequence takes the moves of its first part and then, from the state and with the value the
first part completed in, those of its second part. -/
theorem bind {m : Prog ρ ε σ α} {f : α → Prog ρ ε σ β} (hm : Reaches move m r s)
    (hf : ∀ a s', m r s = (.ok a, s') → Reaches move (f a) r s') :
    Reaches move (m >>= f) r s := by
  change Relation.ReflTransGen move s (Prog.bind m f r s).2
  unfold Reaches at hm
  unfold Prog.bind
  rcases h : m r s with ⟨_ | a, s'⟩
  · simpa [h] using hm
  · rw [h] at hm
    exact hm.trans (hf a s' h)

/-- A sequence whose second part starts from states with a property that the moves of the first part
keep. -/
theorem bind_inv {I : σ → Prop} {m : Prog ρ ε σ α} {f : α → Prog ρ ε σ β} (hm : Reaches move m r s)
    (hmove : ∀ a b, I a → move a b → I b) (hs : I s)
    (hf : ∀ a s', I s' → Reaches move (f a) r s') : Reaches move (m >>= f) r s := by
  apply bind hm
  intro a s' hrun
  apply hf
  have hsteps : Relation.ReflTransGen move s s' := by
    unfold Reaches at hm
    rw [hrun] at hm
    exact hm
  clear hrun
  induction hsteps with
  | refl => exact hs
  | tail _ hlast ih => exact hmove _ _ ih hlast

/-- The common case of `bind`, where the second part takes moves from every state. -/
theorem seq {m : Prog ρ ε σ α} {f : α → Prog ρ ε σ β} (hm : Reaches move m r s)
    (hf : ∀ a s', Reaches move (f a) r s') : Reaches move (m >>= f) r s :=
  bind hm fun a s' _ => hf a s'

/-- Both branches take moves. -/
theorem ite {c : Prop} [Decidable c] {m n : Prog ρ ε σ α} (hm : c → Reaches move m r s)
    (hn : ¬ c → Reaches move n r s) : Reaches move (if c then m else n) r s := by
  by_cases hc : c
  · simpa [hc] using hm hc
  · simpa [hc] using hn hc

/-- A loop takes the moves of its rounds, from states where an invariant on the remaining elements
holds. -/
theorem forEach_inv {body : α → Prog ρ ε σ Unit} (inv : List α → σ → Prop)
    (hmove : ∀ a rest s, inv (a :: rest) s → Reaches move (body a) r s)
    (hstep : ∀ a rest s s' u, inv (a :: rest) s → body a r s = (.ok u, s') → inv rest s')
    {xs : List α} (hstart : inv xs s) : Reaches move (Prog.forEach xs body) r s := by
  induction xs generalizing s with
  | nil => exact pure ()
  | cons a rest ih =>
    apply bind (hmove a rest s hstart)
    intro u s' hrun
    exact ih (hstep a rest s s' u hstart hrun)

/-- A loop takes the moves of its rounds. -/
theorem forEach {xs : List α} {body : α → Prog ρ ε σ Unit}
    (hbody : ∀ a ∈ xs, ∀ s, Reaches move (body a) r s) :
    Reaches move (Prog.forEach xs body) r s := by
  apply forEach_inv (fun rest _ => ∀ a ∈ rest, ∀ s, Reaches move (body a) r s)
  · intro a rest s hrest
    exact hrest a List.mem_cons_self s
  · intro a rest s s' u hrest _ b hb
    exact hrest b (List.mem_cons_of_mem a hb)
  · exact hbody

/-- Moves of a narrower kind are moves of a wider kind. -/
theorem mono {move' : σ → σ → Prop} {m : Prog ρ ε σ α} (hm : Reaches move m r s)
    (hsub : ∀ a b, move a b → move' a b) : Reaches move' m r s :=
  Relation.ReflTransGen.mono hsub _ _ hm

/-- A property every move keeps holds in the state a program leaves. -/
theorem keeps {I : σ → Prop} {m : Prog ρ ε σ α} (hm : Reaches move m r s)
    (hmove : ∀ a b, I a → move a b → I b) (hs : I s) : I (m r s).2 := by
  unfold Reaches at hm
  generalize (m r s).2 = s' at hm ⊢
  induction hm with
  | refl => exact hs
  | tail _ hlast ih => exact hmove _ _ ih hlast

end Reaches

/-! ### Programs as chains of whole steps -/

/-- A program that completes leads through whole steps. One that stops leads through whole steps and
may leave the last one torn. -/
structure Walks (step torn : σ → σ → Prop) (m : Prog ρ ε σ α) (r : ρ) (s : σ) : Prop where
  done : ∀ a s', m r s = (.ok a, s') → Relation.ReflTransGen step s s'
  stopped : ∀ e s', m r s = (.error e, s') →
    ∃ s₁, Relation.ReflTransGen step s s₁ ∧ (s' = s₁ ∨ torn s₁ s')

namespace Walks

variable {step torn : σ → σ → Prop} {r : ρ} {s : σ}

/-- A chain of steps is a walk, wherever it stops. -/
theorem of_reaches {m : Prog ρ ε σ α} (hm : Reaches step m r s) : Walks step torn m r s := by
  unfold Reaches at hm
  constructor
  · intro a s' hrun
    rw [hrun] at hm
    exact hm
  · intro e s' hrun
    rw [hrun] at hm
    exact ⟨s', hm, Or.inl rfl⟩

/-- A program whose completed runs are one step and whose stopped runs are torn ones. -/
theorem whole {m : Prog ρ ε σ α} (hdone : ∀ a s', m r s = (.ok a, s') → step s s')
    (htorn : ∀ e s', m r s = (.error e, s') → torn s s') : Walks step torn m r s where
  done := fun a s' hrun => Relation.ReflTransGen.single (hdone a s' hrun)
  stopped := fun e s' hrun => ⟨s, Relation.ReflTransGen.refl, Or.inr (htorn e s' hrun)⟩

/-- Returning a value takes no step. -/
theorem pure (a : α) : Walks step torn (Pure.pure a : Prog ρ ε σ α) r s :=
  of_reaches (Reaches.pure a)

/-- Stopping takes no step. -/
theorem stop (e : ε) : Walks step torn (Prog.stop e : Prog ρ ε σ α) r s :=
  of_reaches (Reaches.stop e)

/-- Reading takes no step. -/
theorem read (f : σ → α) : Walks step torn (Prog.read f : Prog ρ ε σ α) r s :=
  of_reaches (Reaches.read f)

/-- Asking takes no step. -/
theorem ask (f : ρ → α) : Walks step torn (Prog.ask f : Prog ρ ε σ α) r s :=
  of_reaches (Reaches.ask f)

/-- A fallible value takes no step. -/
theorem ofExcept (x : Except ε α) : Walks step torn (Prog.ofExcept x : Prog ρ ε σ α) r s :=
  of_reaches (Reaches.ofExcept x)

/-- A sequence takes the steps of its first part and then those of its second part. -/
theorem bind {m : Prog ρ ε σ α} {f : α → Prog ρ ε σ β} (hm : Walks step torn m r s)
    (hf : ∀ a s', m r s = (.ok a, s') → Walks step torn (f a) r s') :
    Walks step torn (m >>= f) r s := by
  constructor
  · intro b s'' hrun
    obtain ⟨a, s', hfirst, hsecond⟩ := bind_ok.mp hrun
    exact (hm.done a s' hfirst).trans ((hf a s' hfirst).done b s'' hsecond)
  · intro e s'' hrun
    rcases bind_error.mp hrun with hfirst | ⟨a, s', hfirst, hsecond⟩
    · exact hm.stopped e s'' hfirst
    · obtain ⟨s₁, hsteps, htorn⟩ := (hf a s' hfirst).stopped e s'' hsecond
      exact ⟨s₁, (hm.done a s' hfirst).trans hsteps, htorn⟩

/-- The common case of `bind`, where the second part walks from every state. -/
theorem seq {m : Prog ρ ε σ α} {f : α → Prog ρ ε σ β} (hm : Walks step torn m r s)
    (hf : ∀ a s', Walks step torn (f a) r s') : Walks step torn (m >>= f) r s :=
  bind hm fun a s' _ => hf a s'

/-- Both branches walk. -/
theorem ite {c : Prop} [Decidable c] {m n : Prog ρ ε σ α} (hm : c → Walks step torn m r s)
    (hn : ¬ c → Walks step torn n r s) : Walks step torn (if c then m else n) r s := by
  by_cases hc : c
  · simpa [hc] using hm hc
  · simpa [hc] using hn hc

/-- A property every step keeps holds in the state a completed program leaves. -/
theorem keeps {I : σ → Prop} {m : Prog ρ ε σ α} {a : α} {s' : σ} (hm : Walks step torn m r s)
    (hstep : ∀ a b, I a → step a b → I b) (hs : I s) (hrun : m r s = (.ok a, s')) : I s' := by
  have hsteps := hm.done a s' hrun
  clear hm hrun
  induction hsteps with
  | refl => exact hs
  | tail _ hlast ih => exact hstep _ _ ih hlast

/-- A property every step keeps, whole or torn, holds in whatever state a program leaves. -/
theorem preserves {I : σ → Prop} {m : Prog ρ ε σ α} (hm : Walks step torn m r s)
    (hstep : ∀ a b, I a → step a b → I b) (htorn : ∀ a b, I a → torn a b → I b) (hs : I s) :
    I (m r s).2 := by
  have hchain : ∀ {b}, Relation.ReflTransGen step s b → I b := by
    intro b hsteps
    induction hsteps with
    | refl => exact hs
    | tail _ hlast ih => exact hstep _ _ ih hlast
  rcases hrun : m r s with ⟨e | a, s'⟩
  · obtain ⟨s₁, hsteps, rfl | hlast⟩ := hm.stopped e s' hrun
    · exact hchain hsteps
    · exact htorn _ _ (hchain hsteps) hlast
  · exact hchain (hm.done a s' hrun)

/-- A loop walks through its rounds, from states where an invariant on the remaining elements
holds. -/
theorem forEach_inv {body : α → Prog ρ ε σ Unit} (inv : List α → σ → Prop)
    (hwalk : ∀ a rest s, inv (a :: rest) s → Walks step torn (body a) r s)
    (hnext : ∀ a rest s s' u, inv (a :: rest) s → body a r s = (.ok u, s') → inv rest s')
    {xs : List α} (hstart : inv xs s) : Walks step torn (Prog.forEach xs body) r s := by
  induction xs generalizing s with
  | nil => exact pure ()
  | cons a rest ih =>
    apply bind (hwalk a rest s hstart)
    intro u s' hrun
    exact ih (hnext a rest s s' u hstart hrun)

/-- A loop walks through its rounds. -/
theorem forEach {xs : List α} {body : α → Prog ρ ε σ Unit}
    (hbody : ∀ a ∈ xs, ∀ s, Walks step torn (body a) r s) :
    Walks step torn (Prog.forEach xs body) r s := by
  apply forEach_inv (fun rest _ => ∀ a ∈ rest, ∀ s, Walks step torn (body a) r s)
  · intro a rest s hrest
    exact hrest a List.mem_cons_self s
  · intro a rest s s' u hrest _ b hb
    exact hrest b (List.mem_cons_of_mem a hb)
  · exact hbody

/-- Steps of narrower kinds are steps of wider kinds. -/
theorem mono {step' torn' : σ → σ → Prop} {m : Prog ρ ε σ α} (hm : Walks step torn m r s)
    (hstep : ∀ a b, step a b → step' a b) (htorn : ∀ a b, torn a b → torn' a b) :
    Walks step' torn' m r s := by
  constructor
  · intro a s' hrun
    exact Relation.ReflTransGen.mono hstep _ _ (hm.done a s' hrun)
  · intro e s' hrun
    obtain ⟨s₁, hsteps, hlast⟩ := hm.stopped e s' hrun
    exact ⟨s₁, Relation.ReflTransGen.mono hstep _ _ hsteps, hlast.imp_right (htorn s₁ s')⟩

/-- When steps, whole or torn, are chains of moves, a walk is a chain of moves. -/
theorem reaches {move : σ → σ → Prop} {m : Prog ρ ε σ α} (hm : Walks step torn m r s)
    (hstep : ∀ a b, step a b → Relation.ReflTransGen move a b)
    (htorn : ∀ a b, torn a b → Relation.ReflTransGen move a b) : Reaches move m r s := by
  have hchain : ∀ {a b}, Relation.ReflTransGen step a b → Relation.ReflTransGen move a b := by
    intro a b hsteps
    induction hsteps with
    | refl => exact Relation.ReflTransGen.refl
    | tail _ hlast ih => exact ih.trans (hstep _ _ hlast)
  unfold Reaches
  rcases hrun : m r s with ⟨e | a, s'⟩
  · obtain ⟨s₁, hsteps, rfl | hlast⟩ := hm.stopped e s' hrun
    · exact hchain hsteps
    · exact (hchain hsteps).trans (htorn s₁ s' hlast)
  · exact hchain (hm.done a s' hrun)

end Walks

/-- A program that takes steps of a first kind and then steps of a second kind. When it stops, the
last step, of the kind it stopped in, may be torn. -/
structure InTurn (step₁ torn₁ step₂ torn₂ : σ → σ → Prop) (m : Prog ρ ε σ α) (r : ρ) (s : σ) :
    Prop where
  done : ∀ a s', m r s = (.ok a, s') →
    ∃ s₁, Relation.ReflTransGen step₁ s s₁ ∧ Relation.ReflTransGen step₂ s₁ s'
  stopped : ∀ e s', m r s = (.error e, s') → ∃ s₁, Relation.ReflTransGen step₁ s s₁ ∧
    (torn₁ s₁ s' ∨ ∃ s₂, Relation.ReflTransGen step₂ s₁ s₂ ∧ (s' = s₂ ∨ torn₂ s₂ s'))

namespace InTurn

variable {step₁ torn₁ step₂ torn₂ : σ → σ → Prop} {r : ρ} {s : σ}

/-- Steps of the second kind only. -/
theorem second {m : Prog ρ ε σ α} (hm : Walks step₂ torn₂ m r s) :
    InTurn step₁ torn₁ step₂ torn₂ m r s where
  done := fun a s' hrun => ⟨s, Relation.ReflTransGen.refl, hm.done a s' hrun⟩
  stopped := fun e s' hrun => ⟨s, Relation.ReflTransGen.refl, Or.inr (hm.stopped e s' hrun)⟩

/-- Steps of the first kind, then those of the second part. -/
theorem bind {m : Prog ρ ε σ α} {f : α → Prog ρ ε σ β} (hm : Walks step₁ torn₁ m r s)
    (hf : ∀ a s', m r s = (.ok a, s') → InTurn step₁ torn₁ step₂ torn₂ (f a) r s') :
    InTurn step₁ torn₁ step₂ torn₂ (m >>= f) r s := by
  constructor
  · intro b s'' hrun
    obtain ⟨a, s', hfirst, hsecond⟩ := bind_ok.mp hrun
    obtain ⟨s₁, hbefore, hafter⟩ := (hf a s' hfirst).done b s'' hsecond
    exact ⟨s₁, (hm.done a s' hfirst).trans hbefore, hafter⟩
  · intro e s'' hrun
    rcases bind_error.mp hrun with hfirst | ⟨a, s', hfirst, hsecond⟩
    · obtain ⟨s₁, hsteps, rfl | htorn⟩ := hm.stopped e s'' hfirst
      · exact ⟨s'', hsteps, Or.inr ⟨s'', Relation.ReflTransGen.refl, Or.inl rfl⟩⟩
      · exact ⟨s₁, hsteps, Or.inl htorn⟩
    · obtain ⟨s₁, hsteps, hrest⟩ := (hf a s' hfirst).stopped e s'' hsecond
      exact ⟨s₁, (hm.done a s' hfirst).trans hsteps, hrest⟩

/-- Both branches take steps in turn. -/
theorem ite {c : Prop} [Decidable c] {m n : Prog ρ ε σ α}
    (hm : c → InTurn step₁ torn₁ step₂ torn₂ m r s)
    (hn : ¬ c → InTurn step₁ torn₁ step₂ torn₂ n r s) :
    InTurn step₁ torn₁ step₂ torn₂ (if c then m else n) r s := by
  by_cases hc : c
  · simpa [hc] using hm hc
  · simpa [hc] using hn hc

/-- Steps in turn are steps of one wider kind. -/
theorem walks {step torn : σ → σ → Prop} {m : Prog ρ ε σ α}
    (hm : InTurn step₁ torn₁ step₂ torn₂ m r s)
    (hstep : ∀ a b, step₁ a b ∨ step₂ a b → step a b)
    (htorn : ∀ a b, torn₁ a b ∨ torn₂ a b → torn a b) : Walks step torn m r s := by
  have hfirst : ∀ {a b}, Relation.ReflTransGen step₁ a b → Relation.ReflTransGen step a b :=
    fun h => Relation.ReflTransGen.mono (fun a b hab => hstep a b (Or.inl hab)) _ _ h
  have hsecond : ∀ {a b}, Relation.ReflTransGen step₂ a b → Relation.ReflTransGen step a b :=
    fun h => Relation.ReflTransGen.mono (fun a b hab => hstep a b (Or.inr hab)) _ _ h
  constructor
  · intro a s' hrun
    obtain ⟨s₁, hbefore, hafter⟩ := hm.done a s' hrun
    exact (hfirst hbefore).trans (hsecond hafter)
  · intro e s' hrun
    obtain ⟨s₁, hbefore, hlast | ⟨s₂, hafter, hend⟩⟩ := hm.stopped e s' hrun
    · exact ⟨s₁, hfirst hbefore, Or.inr (htorn s₁ s' (Or.inl hlast))⟩
    · exact ⟨s₂, (hfirst hbefore).trans (hsecond hafter),
        hend.imp_right fun hlast => htorn s₂ s' (Or.inr hlast)⟩

end InTurn

end Prog

end Foundation
