import BitcoinCoordinator.RbfIncrement

/-!
# Registering a queued UTXO again

A funding UTXO registered again keeps its place in the queue, but its record is stored as that of a new
one: unspent and user-provided.
-/

namespace BitcoinCoordinator

open Foundation

/-- The queue can hand an outpoint out: it is listed and its record is not marked spent. -/
def Store.IsAvailable (s : Store) (op : OutPoint) : Prop :=
  op ∈ s.fundingList ∧ ∃ record, s.funding op = some record ∧ record.spent = false

/-- A tracked speedup that has not failed lists an outpoint among its funding inputs. -/
def Store.IsHeld (s : Store) (op : OutPoint) : Prop :=
  ∃ txid tx kind, s.txs.get txid = some tx ∧ tx.state ≠ .failed ∧ tx.speedup? = some kind ∧
    op ∈ kind.context.fundingInputs.map Utxo.outPoint

/-- Between two stores every spent record stays spent, every record keeps its origin, and the queue can
hand out no outpoint that a live speedup holds and that it could not hand out before. -/
structure Store.KeepsReservations (s s' : Store) : Prop where
  spent : ∀ op record, s.funding op = some record → record.spent = true →
    ∃ record', s'.funding op = some record' ∧ record'.spent = true
  origin : ∀ op record, s.funding op = some record →
    ∃ record', s'.funding op = some record' ∧ record'.fromSpeedup = record.fromSpeedup
  available : ∀ op, s'.IsAvailable op → s.IsHeld op → s.IsAvailable op

/-- A store keeps its own reservations. -/
theorem Store.KeepsReservations.refl (s : Store) : s.KeepsReservations s where
  spent := fun _ record hget hspent => ⟨record, hget, hspent⟩
  origin := fun _ record hget => ⟨record, hget, rfl⟩
  available := fun _ havailable _ => havailable

/-- The record of an outpoint after one was stored. -/
theorem Store.funding_setFunding (s : Store) (op op' : OutPoint) (record : FundingData) :
    (s.setFunding op record).funding op' = if op' = op then some record else s.funding op' := rfl

/-- Storing the record of a queued UTXO anew keeps the reservations exactly when the record was that of
an unspent user-provided one, or there was none and no live speedup holds it. -/
theorem Store.keepsReservations_setFunding_iff (s : Store) (utxo : Utxo)
    (hqueued : utxo.outPoint ∈ s.fundingList) :
    s.KeepsReservations (s.setFunding utxo.outPoint ⟨utxo, false, false⟩) ↔
      (∀ record, s.funding utxo.outPoint = some record →
        record.spent = false ∧ record.fromSpeedup = false) ∧
      (s.funding utxo.outPoint = none → ¬ s.IsHeld utxo.outPoint) := by
  have hstored : (s.setFunding utxo.outPoint ⟨utxo, false, false⟩).funding utxo.outPoint =
      some ⟨utxo, false, false⟩ := if_pos rfl
  constructor
  · intro h
    refine ⟨fun record hget => ⟨?_, ?_⟩, fun hnone hheld => ?_⟩
    · by_contra hspent
      obtain ⟨record', hget', hspent'⟩ := h.spent _ record hget (by simpa using hspent)
      rw [hstored] at hget'
      cases hget'
      cases hspent'
    · obtain ⟨record', hget', horigin⟩ := h.origin _ record hget
      rw [hstored] at hget'
      cases hget'
      exact horigin.symm
    · obtain ⟨-, record, hget, -⟩ := h.available _ ⟨hqueued, _, hstored, rfl⟩ hheld
      rw [hnone] at hget
      cases hget
  · rintro ⟨hplain, hfree⟩
    constructor
    · intro op record hget hspent
      rw [s.funding_setFunding]
      by_cases hop : op = utxo.outPoint
      · rw [hop] at hget
        rw [(hplain record hget).1] at hspent
        cases hspent
      · exact ⟨record, (if_neg hop).trans hget, hspent⟩
    · intro op record hget
      rw [s.funding_setFunding]
      by_cases hop : op = utxo.outPoint
      · rw [hop] at hget
        exact ⟨_, if_pos hop, (hplain record hget).2.symm⟩
      · exact ⟨record, (if_neg hop).trans hget, rfl⟩
    · rintro op ⟨hlisted, record, hget, hunspent⟩ hheld
      rw [s.funding_setFunding] at hget
      by_cases hop : op = utxo.outPoint
      · rw [hop] at hheld ⊢
        cases hold : s.funding utxo.outPoint with
        | none => exact absurd hheld (hfree hold)
        | some old => exact ⟨hqueued, old, hold, (hplain old hold).1⟩
      · exact ⟨hlisted, record, (if_neg hop).symm.trans hget, hunspent⟩

/-- When the backend refuses the write, appending a UTXO changes nothing. -/
theorem appendFunding_refused {ctx : Ctx} {w : World} (utxo : Utxo) {e : String}
    (hrefused : ctx.answers.storage w.clock = .error e) :
    (appendFunding utxo ctx w).2.store = w.store := by
  have hwrite : writeStore (fun s => s.setFunding utxo.outPoint ⟨utxo, false, false⟩) ctx
      (w.noted (.addingFunding utxo w.store)) =
        (.error (.error (.storageBackendError e)),
          (w.noted (.addingFunding utxo w.store)).asked) := by
    simp [writeStore, World.noted, hrefused]
  have hnote : note (.addingFunding utxo) ctx w = (.ok (), w.noted (.addingFunding utxo w.store)) :=
    rfl
  unfold appendFunding
  rw [Prog.bind_of_ok hnote, Prog.bind_of_error hwrite]
  rfl

/-- When the backend takes the write, appending a queued UTXO stores its record anew. -/
theorem appendFunding_taken {ctx : Ctx} {w : World} {utxo : Utxo}
    (htaken : ctx.answers.storage w.clock = .ok ())
    (hqueued : utxo.outPoint ∈ w.store.fundingList) :
    (appendFunding utxo ctx w).2.store =
      w.store.setFunding utxo.outPoint ⟨utxo, false, false⟩ := by
  have hwrite : writeStore (fun s => s.setFunding utxo.outPoint ⟨utxo, false, false⟩) ctx
      (w.noted (.addingFunding utxo w.store)) =
        (.ok (), (w.noted (.addingFunding utxo w.store)).written
          (w.store.setFunding utxo.outPoint ⟨utxo, false, false⟩)) :=
    writeStore_ok.mpr ⟨htaken, rfl⟩
  have hread : readStore Store.fundingList ctx ((w.noted (.addingFunding utxo w.store)).written
      (w.store.setFunding utxo.outPoint ⟨utxo, false, false⟩)) =
        (.ok w.store.fundingList, (w.noted (.addingFunding utxo w.store)).written
          (w.store.setFunding utxo.outPoint ⟨utxo, false, false⟩)) := rfl
  have hnote : note (.addingFunding utxo) ctx w = (.ok (), w.noted (.addingFunding utxo w.store)) :=
    rfl
  unfold appendFunding
  rw [Prog.bind_of_ok hnote, Prog.bind_of_ok hwrite, Prog.bind_of_ok hread, if_pos hqueued]
  rfl

/-- Adding a UTXO leaves the store that appending it leaves, unless it is too small. -/
theorem addFunding_store (ctx : Ctx) (w : World) (utxo : Utxo) :
    (addFunding utxo ctx w).2.store =
      if utxo.amount < ctx.settings.funding.minFundingAmountSats then w.store
      else (appendFunding utxo ctx w).2.store := by
  generalize hafter : (if utxo.amount < ctx.settings.funding.minFundingAmountSats then w.store
      else (appendFunding utxo ctx w).2.store) = after
  have hset : Prog.Ends (fun _ w' => w'.store = after) (setFunding utxo) ctx w := by
    rw [← hafter]
    apply ends_settings
    unfold FundingSettings.check
    split
    · rfl
    · have happend : Prog.Ends (fun _ w' => w'.store = (appendFunding utxo ctx w).2.store)
          (appendFunding utxo) ctx w := rfl
      apply Prog.Ends.bind happend
      · exact fun _ _ hsame => hsame
      · exact fun _ _ hsame _ => hsame
  have hstore : Steady fun w₁ => w₁.store = after :=
    ⟨fun _ h => h, fun _ _ h => h, fun _ _ _ h => h⟩
  have hadd : Prog.Ends (fun _ w' => w'.store = after) (addFunding utxo) ctx w := by
    apply Prog.Ends.bind hset
    · exact fun _ _ hsame => hsame
    · intro refused w₁ hsame _
      exact Prog.Ends.of_keeps (hstore.publishFeeNews refused) hsame
  exact hadd

/-- Adding a UTXO that is already queued keeps the reservations exactly when it is refused as too small,
or the backend refuses the write, or its record was that of an unspent user-provided one, or it had
none and no live speedup holds it. -/
theorem addFunding_keepsReservations_iff (ctx : Ctx) (w : World) (utxo : Utxo)
    (hqueued : utxo.outPoint ∈ w.store.fundingList) :
    w.store.KeepsReservations (addFunding utxo ctx w).2.store ↔
      utxo.amount < ctx.settings.funding.minFundingAmountSats ∨
      (∃ e, ctx.answers.storage w.clock = .error e) ∨
      (∀ record, w.store.funding utxo.outPoint = some record →
        record.spent = false ∧ record.fromSpeedup = false) ∧
      (w.store.funding utxo.outPoint = none → ¬ w.store.IsHeld utxo.outPoint) := by
  rw [addFunding_store]
  split
  · next hsmall =>
    exact ⟨fun _ => Or.inl hsmall, fun _ => Store.KeepsReservations.refl _⟩
  · next hlarge =>
    cases hanswer : ctx.answers.storage w.clock with
    | error e =>
      rw [appendFunding_refused utxo hanswer]
      exact ⟨fun _ => Or.inr (Or.inl ⟨e, rfl⟩), fun _ => Store.KeepsReservations.refl _⟩
    | ok u =>
      rw [appendFunding_taken hanswer hqueued, w.store.keepsReservations_setFunding_iff utxo hqueued]
      constructor
      · intro h
        exact Or.inr (Or.inr h)
      · rintro (hsmall | ⟨e, hnever⟩ | h)
        · exact absurd hsmall hlarge
        · cases hnever
        · exact h

/-- The calls of the example run: a CPFP is built and reserves the only funding UTXO. -/
def reservedCalls : List Call := growingChainCalls.take 3

/-- The funding UTXO of the example run is registered again. -/
def reregisterCall : Call :=
  (sampleView 100 [sampleParent] []).call fixedBuilder 10 0 (.addFunding sampleFunding)

/-- In the example run the record is marked spent, so adding the UTXO again loses the mark. -/
theorem addFunding_keepsReservations_reservedCalls :
    (runCalls defaultSettings reservedCalls World.init).store.funding sampleFunding.outPoint =
        some ⟨sampleFunding, true, false⟩ ∧
      ¬ (runCalls defaultSettings reservedCalls World.init).store.KeepsReservations
        (addFunding sampleFunding ⟨defaultSettings, reregisterCall.answers⟩
          (runCalls defaultSettings reservedCalls World.init)).2.store := by
  have hspent : (runCalls defaultSettings reservedCalls World.init).store.funding sampleFunding.outPoint =
      some ⟨sampleFunding, true, false⟩ := by decide +kernel
  refine ⟨hspent, ?_⟩
  intro hkeeps
  rcases (addFunding_keepsReservations_iff ⟨defaultSettings, reregisterCall.answers⟩
    (runCalls defaultSettings reservedCalls World.init) sampleFunding (by decide +kernel)).mp hkeeps with
    hsmall | ⟨e, hrefused⟩ | hunspent
  · revert hsmall
    decide
  · cases hrefused
  · cases (hunspent.1 _ hspent).1

/-- A UTXO that a tracked speedup spends is registered again, and the queue can hand it out. -/
theorem exists_addFunding_unreserving :
    ∃ (cfg : BitcoinSettings) (calls : List Call) (call : Call) (utxo : Utxo),
      cfg.validate = .ok () ∧ call.request = .addFunding utxo ∧
      (∀ c ∈ calls ++ [call], c.SeesOneView ∧ c.answers.SpendsRequested) ∧
      OkRun cfg (calls ++ [call]) World.init (runCalls cfg (calls ++ [call]) World.init) ∧
      utxo.outPoint ∈ (runCalls cfg calls World.init).store.fundingList ∧
      ¬ (runCalls cfg calls World.init).store.KeepsReservations
        (runCalls cfg (calls ++ [call]) World.init).store := by
  refine ⟨defaultSettings, reservedCalls, reregisterCall, sampleFunding,
    BitcoinSettings.validate_default _, rfl, ?_, okRun_runCalls (by decide +kernel),
    by decide +kernel, ?_⟩
  · intro call hcall
    simp only [reservedCalls, growingChainCalls, List.take_succ_cons, List.take_zero,
      List.cons_append, List.nil_append, List.mem_cons, List.not_mem_nil, or_false] at hcall
    rcases hcall with rfl | rfl | rfl | rfl <;>
      exact ⟨NodeView.call_seesOneView (by decide +kernel) _ _ _ _,
        plainBuilder_spendsRequested _ _ _ _⟩
  · intro hkeeps
    have hbefore : (runCalls defaultSettings reservedCalls World.init).store.funding
        sampleFunding.outPoint = some ⟨sampleFunding, true, false⟩ := by decide +kernel
    have hafter : (runCalls defaultSettings (reservedCalls ++ [reregisterCall])
        World.init).store.funding sampleFunding.outPoint =
          some ⟨sampleFunding, false, false⟩ := by decide +kernel
    obtain ⟨record, hget, hspent⟩ := hkeeps.spent _ _ hbefore rfl
    rw [hafter] at hget
    cases hget
    cases hspent

end BitcoinCoordinator
