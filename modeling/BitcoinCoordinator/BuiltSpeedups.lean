import BitcoinCoordinator.BuildResults
import BitcoinCoordinator.FundingSwap

/-!
# Speedups that were built

A record keeps its transaction and its kind from the moment it is stored. A speedup record therefore keeps the
funding inputs and the outputs that its build gave it, and no choice of funding, no build and no finalization
runs out of them.
-/

namespace BitcoinCoordinator

open Foundation

variable {ctx : Ctx} {tidy : Prop} {phase : Phase} {w w' : World}

/-! ### Bodies of records -/

/-- What a record keeps once it is stored: its transaction and its kind without the marks. -/
def CoordinatedTx.body (tx : CoordinatedTx) : Transaction × TxKind := (tx.tx, tx.kind.unmarked)

/-- A mark does not show in the kind without marks. -/
theorem TxKind.unmarked_apply (kind : SpeedupKind) (mark : Mark) :
    (TxKind.speedup (kind.modifyContext mark.apply)).unmarked = (TxKind.speedup kind).unmarked := by
  cases kind <;> cases mark <;> rfl

/-- A change in place keeps the body. -/
theorem Change.body_eq {log : List Event} {tx tx' : CoordinatedTx} (h : Change tidy log tx phase tx') :
    tx'.body = tx.body := by
  cases h with
  | mark _ kind mark hkind =>
    unfold CoordinatedTx.body
    rw [TxKind.unmarked_apply, hkind]
  | _ => rfl

/-- A record written back has the body of its copy. -/
theorem Rewrite.body_eq {copy updated : CoordinatedTx} (h : Rewrite copy updated) :
    updated.body = copy.body := by
  cases h <;> rfl

/-- A record that drifted from a copy has its body. -/
theorem Drifted.body_eq {copy record : CoordinatedTx} (h : Drifted copy record) :
    record.body = copy.body := by
  have htx : record.core.tx = copy.core.tx := congrArg CoordinatedTx.tx h.core
  have hkind : record.core.kind = copy.core.kind := congrArg CoordinatedTx.kind h.core
  exact Prod.ext htx hkind

/-- A speedup is one by its body, and its parents and funding inputs are those of the body. -/
theorem CoordinatedTx.exists_speedup?_of_body {tx tx' : CoordinatedTx} (hbody : tx'.body = tx.body)
    {kind' : SpeedupKind} (hkind' : tx'.speedup? = some kind') :
    ∃ kind, tx.speedup? = some kind ∧ kind.parents = kind'.parents ∧
      kind.context.fundingInputs = kind'.context.fundingInputs := by
  have hunmarked : tx'.kind.unmarked = tx.kind.unmarked := congrArg Prod.snd hbody
  unfold CoordinatedTx.speedup? at hkind' ⊢
  cases hold : tx'.kind with
  | speedup k' =>
    rw [hold] at hkind' hunmarked
    cases hkind'
    cases hnew : tx.kind with
    | speedup k =>
      rw [hnew] at hunmarked
      have hmodified := TxKind.speedup.inj hunmarked
      refine ⟨k, rfl, ?_, ?_⟩
      · simpa using (congrArg SpeedupKind.parents hmodified).symm
      · simpa using (congrArg (fun k => k.context.fundingInputs) hmodified).symm
    | _ =>
      rw [hnew] at hunmarked
      cases hunmarked
  | _ =>
    rw [hold] at hkind'
    cases hkind'

/-- A record is a speedup by its body. -/
theorem CoordinatedTx.isSome_speedup?_of_body {tx tx' : CoordinatedTx} (hbody : tx'.body = tx.body)
    (h : tx'.speedup?.isSome) : tx.speedup?.isSome := by
  obtain ⟨kind', hkind'⟩ := Option.isSome_iff_exists.mp h
  obtain ⟨kind, hkind, -⟩ := CoordinatedTx.exists_speedup?_of_body hbody hkind'
  rw [hkind]
  rfl

/-- A record is a parent needing a speedup by its body. -/
theorem CoordinatedTx.isNeedsSpeedup_of_body {tx tx' : CoordinatedTx} (hbody : tx'.body = tx.body) :
    tx'.isNeedsSpeedup = tx.isNeedsSpeedup := by
  have hunmarked : tx'.kind.unmarked = tx.kind.unmarked := congrArg Prod.snd hbody
  unfold CoordinatedTx.isNeedsSpeedup
  cases hnew : tx'.kind <;> cases hold : tx.kind <;> rw [hnew, hold] at hunmarked <;>
    first | rfl | cases hunmarked

/-! ### Speedup records -/

/-- A speedup names its parents once, and it has a funding input and an output. -/
def CoordinatedTx.IsWellBuilt (tx : CoordinatedTx) : Prop :=
  ∀ kind, tx.speedup? = some kind →
    kind.parents.Nodup ∧ kind.context.fundingInputs ≠ [] ∧ tx.tx.output ≠ []

/-- A record is well built by its body. -/
theorem CoordinatedTx.IsWellBuilt.of_body {tx tx' : CoordinatedTx} (h : tx.IsWellBuilt)
    (hbody : tx'.body = tx.body) : tx'.IsWellBuilt := by
  intro kind' hkind'
  obtain ⟨kind, hkind, hparents, hinputs⟩ := CoordinatedTx.exists_speedup?_of_body hbody hkind'
  have htx : tx'.tx = tx.tx := congrArg Prod.fst hbody
  rw [← hparents, ← hinputs, htx]
  exact h kind hkind

/-- A transaction with an output has a last one. -/
theorem CoordinatedTx.exists_lastOutput {tx : CoordinatedTx} (h : tx.tx.output ≠ []) :
    ∃ last, tx.lastOutput = .ok last := by
  unfold CoordinatedTx.lastOutput
  rw [List.getLast?_eq_some_getLast h]
  exact ⟨_, rfl⟩

/-- A speedup that is well built has a change output. -/
theorem CoordinatedTx.IsWellBuilt.exists_change {tx : CoordinatedTx} {kind : SpeedupKind}
    (h : tx.IsWellBuilt) (hkind : tx.speedup? = some kind) :
    ∃ change, tx.speedupChangeUtxo = .ok change := by
  obtain ⟨-, hinputs, houtput⟩ := h kind hkind
  obtain ⟨⟨out, vout⟩, hlast⟩ := CoordinatedTx.exists_lastOutput houtput
  obtain ⟨first, rest, hfirst⟩ := List.exists_cons_of_ne_nil hinputs
  unfold CoordinatedTx.speedupChangeUtxo
  rw [CoordinatedTx.speedupKind_ok.mpr hkind, hlast]
  dsimp only
  rw [hfirst]
  exact ⟨_, rfl⟩

/-- Every transaction the builder returns has an output. -/
def Answers.BuildsOutputs (answers : Answers) : Prop :=
  ∀ n data inputs key fee tx, answers.speedupTransactions n data inputs key fee = .ok tx →
    tx.output ≠ []

/-- No version of the store has a parent pending twice, and every record of every version is well
built. -/
structure Orderly (w : World) : Prop where
  pending : ∀ s, w.HasVersion s → s.pendingSpeedupParents.Nodup
  records : EveryRecord CoordinatedTx.IsWellBuilt w

/-- What is requeued holds each parent once. -/
theorem Orderly.requeue {txids : List Txid} (h : Orderly w) (hrequeue : IsRequeue txids w) :
    txids.Nodup := by
  rcases hrequeue with hnodup | ⟨copy, kind, hread, hkind, hsub⟩
  · exact hnodup
  · exact ((h.records.copy hread) kind hkind).1.sublist hsub

/-- A batch holds each parent once. -/
theorem Orderly.batch {parents : List Txid} (h : Orderly w) (hbatch : IsBatch parents w) :
    parents.Nodup := by
  rcases hbatch with hnodup | ⟨s, hversion, hsub⟩
  · exact hnodup
  · exact (h.pending s hversion).sublist hsub

/-- Prepending parents that are not pending makes no duplicate. -/
theorem Store.nodup_prepend {s : Store} {txids : List Txid} (h : s.pendingSpeedupParents.Nodup)
    (hnodup : txids.Nodup) : (s.prepend txids).pendingSpeedupParents.Nodup := by
  apply List.nodup_append.mpr
  refine ⟨hnodup.filter _, h, ?_⟩
  rintro txid hnew txid' hold rfl
  exact of_decide_eq_true (List.mem_filter.mp hnew).2 hold

/-- A speedup that was just built is well built. -/
theorem Insertable.isWellBuilt {tx : CoordinatedTx} (h : Insertable ctx w tx) (horderly : Orderly w)
    (hbuilder : ctx.answers.BuildsOutputs) : tx.IsWellBuilt := by
  obtain ⟨kind, hkind, hinputs, hbatch⟩ := h.funded
  obtain ⟨n, data, inputs, key, fee, hbuilt, -⟩ := h.built
  intro kind' hkind'
  rw [hkind] at hkind'
  cases hkind'
  exact ⟨horderly.batch hbatch, hinputs, hbuilder n data inputs key fee tx.tx hbuilt⟩

/-- Every move leaves the pending list of the store without duplicates. -/
theorem Orderly.pending_move (h : Orderly w) (hmove : Move ctx tidy phase w w') :
    w'.store.pendingSpeedupParents.Nodup := by
  have hnow : w.store.pendingSpeedupParents.Nodup := h.pending _ (Or.inl rfl)
  rcases hmove with hplain | hpart
  · cases hplain with
    | quiet hquiet =>
      cases hquiet with
      | wrote s hwrite =>
        cases hwrite with
        | unpended txid => exact hnow.filter _
        | flagged => exact hnow
      | prepended txids hneeds hrequeue => exact Store.nodup_prepend hnow (h.requeue hrequeue)
      | _ => exact hnow
    | _ => exact hnow
  · cases hpart with
    | listed txid =>
      change (w.store.list txid).pendingSpeedupParents.Nodup
      unfold Store.list
      split <;> exact hnow
    | pended txid =>
      change (w.store.pend txid).pendingSpeedupParents.Nodup
      unfold Store.pend
      split
      · exact hnow
      · next hout => exact nodup_append_singleton hnow hout
    | queue s _ hwrite => cases hwrite <;> exact hnow
    | _ => exact hnow

/-- Every move keeps the versions orderly. -/
theorem Orderly.move (h : Orderly w) (hbuilder : ctx.answers.BuildsOutputs)
    (hmove : Move ctx tidy phase w w') : Orderly w' where
  pending := by
    intro s hversion
    rcases hmove.hasVersion hversion with rfl | hold
    · exact h.pending_move hmove
    · exact h.pending s hold
  records := by
    apply h.records.move hmove
    intro tx hput
    cases hput with
    | changed old _ hget hchange _ => exact (h.records.current hget).of_body hchange.body_eq
    | vanished old height hget _ _ => exact (h.records.current hget).of_body rfl
    | rewrote copy _ hrewrite hread _ _ => exact (h.records.copy hread).of_body hrewrite.body_eq
    | inserted _ htx _ => exact htx.isWellBuilt h hbuilder
    | registered _ _ hkind _ _ =>
      intro kind hsome
      rw [hkind] at hsome
      cases hsome

/-! ### Indices into the funding inputs -/

/-- A refused question is no panic. -/
theorem query_avoids_panic {α : Type} {wrap : String → BitcoinCoordinatorError}
    {question : Answers → ℕ → Except String α} : Prog.Avoids .panic (query wrap question) ctx w := by
  unfold Prog.Avoids query
  split <;> simp

/-- Recording a moment does not panic. -/
theorem note_avoids_panic {e : Store → Event} : Prog.Avoids .panic (note e) ctx w :=
  Prog.Avoids.of_completes ⟨(), _, rfl⟩

/-- Setting a flag does not panic. -/
theorem setSpent_avoids_panic (op : OutPoint) (spent : Bool) :
    Prog.Avoids .panic (setSpent op spent) ctx w := by
  refine Prog.Avoids.seq ?_ fun _ _ => note_avoids_panic
  apply Prog.Avoids.seq (Prog.Avoids.read _)
  intro record w₁
  cases record with
  | some record =>
    apply Prog.Avoids.ite <;> intro _
    · exact Prog.Avoids.pure _
    · exact writeStore_avoids (by simp)
  | none =>
    apply Prog.Avoids.seq (Prog.Avoids.read _)
    intro found w₂
    cases found with
    | none => exact Prog.Avoids.pure _
    | some tx =>
      unfold setSpeedupSpent
      dsimp only
      split
      · apply Prog.Avoids.ite <;> intro _
        · exact Prog.Avoids.pure _
        · exact writeStore_avoids (by simp)
      · exact Prog.Avoids.pure _

/-- Releasing marks does not panic. -/
theorem releaseMarks_avoids_panic (utxos : List Utxo) :
    Prog.Avoids .panic (releaseMarks utxos) ctx w := by
  unfold releaseMarks
  induction utxos generalizing w with
  | nil => exact Prog.Avoids.pure _
  | cons first rest ih => exact Prog.Avoids.seq (setSpent_avoids_panic _ _) fun _ _ => ih

/-- Publishing a news item does not panic. -/
theorem publish_avoids_panic (news : CoordinatorNews) :
    Prog.Avoids .panic (do let _ ← addNews news; pure () : Coord Unit) ctx w :=
  Prog.Avoids.seq (addNews_avoids news (by simp)) fun _ _ => Prog.Avoids.pure _

/-- Signing with a first input does not panic. -/
theorem speedupTransactions_avoids_panic {data : List SpeedupData} {inputs : List Utxo} {fee : ℕ}
    (hinputs : inputs ≠ []) : Prog.Avoids .panic (speedupTransactions data inputs fee) ctx w := by
  obtain ⟨first, rest, rfl⟩ := List.exists_cons_of_ne_nil hinputs
  exact query_avoids_panic

/-- Looking for a second input does not panic. -/
theorem combineInput_avoids_panic (plan : BuildPlan) (inputs : List Utxo) :
    Prog.Avoids .panic (combineInput plan inputs) ctx w := by
  apply Prog.Avoids.ite <;> intro _
  · apply Prog.Avoids.seq (Prog.Avoids.read _)
    intro records w₁
    split
    · exact Prog.Avoids.seq (setSpent_avoids_panic _ _) fun _ _ => Prog.Avoids.pure _
    · exact Prog.Avoids.pure _
  · exact Prog.Avoids.pure _

/-- The fee loop does not panic when it has a first input. -/
theorem buildRound_avoids_panic {plan : BuildPlan} {rounds : ℕ} {inputs : List Utxo} {childVsize : ℕ}
    (hinputs : inputs ≠ []) : Prog.Avoids .panic (buildRound plan rounds inputs childVsize) ctx w := by
  induction rounds generalizing inputs childVsize w with
  | zero =>
    intro hstop
    cases hstop
  | succ rounds ih =>
    apply Prog.Avoids.seq (Prog.Avoids.ask _)
    intro cfg w₁
    apply Prog.Avoids.seq (Prog.Avoids.ask _)
    intro maxDustLimit w₂
    apply Prog.Avoids.seq (speedupTransactions_avoids_panic hinputs)
    intro dummy w₃
    apply Prog.Avoids.ite <;> intro _
    · apply Prog.Avoids.seq (combineInput_avoids_panic plan inputs)
      intro extra w₄
      cases extra with
      | some extra => exact ih (by simp)
      | none =>
        have habandon : ∀ available required w, Prog.Avoids .panic
            (abandonBuild plan inputs available required) ctx w := fun _ _ _ =>
          Prog.Avoids.seq (releaseMarks_avoids_panic _) fun _ _ => publish_avoids_panic _
        exact Prog.Avoids.seq (habandon _ _ _) fun _ _ => Prog.Avoids.pure _
    · apply Prog.Avoids.seq (speedupTransactions_avoids_panic hinputs)
      intro final w₄
      apply Prog.Avoids.ite <;> intro _
      · exact Prog.Avoids.seq note_avoids_panic fun _ _ => Prog.Avoids.pure _
      · exact ih hinputs

/-- The search for the chain tip does not panic. -/
theorem findChainTip_ne_panic (speedups older : List CoordinatedTx) :
    findChainTip speedups older ≠ .error .panic := by
  induction older with
  | nil => simp [findChainTip]
  | cons newest older ih =>
    unfold findChainTip
    split
    · split
      · simp
      · split
        · exact ih
        · simp
    · exact ih

/-- Choosing the primary input does not panic when every speedup has a change output. -/
theorem getFunding_avoids_panic
    (hrecords : ∀ txid tx, w.store.txs.get txid = some tx → tx.IsWellBuilt) :
    Prog.Avoids .panic (getFunding w.store.speedupsOrdered) ctx w := by
  have hfind : Prog.Avoids .panic (Prog.ofExcept
      (findChainTip w.store.speedupsOrdered w.store.speedupsOrdered.reverse) : Coord _) ctx w :=
    findChainTip_ne_panic _ _
  apply Prog.Avoids.bind hfind
  intro tip w₁ hrun
  obtain ⟨htip, rfl⟩ := Prog.ofExcept_ok.mp hrun
  cases tip with
  | some tx =>
    obtain ⟨hmem, -, -, kind, hkind, -⟩ := findChainTip_ok htip
    have hget := (mem_speedupsOrdered (List.mem_reverse.mp hmem)).2
    obtain ⟨change, hchange⟩ := (hrecords _ tx hget).exists_change hkind
    have hread : Prog.Completes (Prog.ofExcept tx.speedupChangeUtxo : Coord Utxo) ctx w₁ :=
      ⟨change, w₁, Prog.ofExcept_ok.mpr ⟨hchange, rfl⟩⟩
    apply Prog.Avoids.seq (Prog.Avoids.of_completes hread)
    intro utxo w₂
    exact Prog.Avoids.seq (setSpent_avoids_panic _ _) fun _ _ => Prog.Avoids.pure _
  | none =>
    apply Prog.Avoids.seq (Prog.Avoids.read _)
    intro records w₂
    split
    · exact Prog.Avoids.seq (setSpent_avoids_panic _ _) fun _ _ => Prog.Avoids.pure _
    · exact Prog.Avoids.pure _

/-- A build does not panic when every speedup has a change output and it inherits some input, if any. -/
theorem buildSpeedup_avoids_panic {entries : List (SpeedupData × ℕ)} {initial : Option (List Utxo)}
    {bumpFee : ℚ} {feeRate chainDiffFee : ℕ}
    (hrecords : ∀ txid tx, w.store.txs.get txid = some tx → tx.IsWellBuilt)
    (hinitial : ∀ inputs, initial = some inputs → inputs ≠ []) :
    Prog.Avoids .panic (buildSpeedup entries initial bumpFee feeRate chainDiffFee) ctx w := by
  have hwith : ∀ plan inputs w, inputs ≠ [] → Prog.Avoids .panic (buildWith plan inputs) ctx w := by
    intro plan inputs w hinputs
    exact Prog.Avoids.seq (Prog.Avoids.ask _) fun _ _ => buildRound_avoids_panic hinputs
  cases initial with
  | some inputs =>
    exact Prog.Avoids.seq (Prog.Avoids.read _) fun _ _ => hwith _ _ _ (hinitial inputs rfl)
  | none =>
    apply Prog.Avoids.bind (Prog.Avoids.read _)
    intro all w₁ hread
    obtain ⟨rfl, rfl⟩ := readStore_ok.mp hread
    apply Prog.Avoids.seq (getFunding_avoids_panic hrecords)
    intro funding w₂
    cases funding with
    | some funding => exact hwith _ _ _ (by simp)
    | none => exact Prog.Avoids.seq (publish_avoids_panic _) fun _ _ => Prog.Avoids.pure _

/-- Reading the change output of a well built record does not panic. -/
theorem CoordinatedTx.IsWellBuilt.change_ne_panic {tx : CoordinatedTx} (h : tx.IsWellBuilt) :
    tx.speedupChangeUtxo ≠ .error .panic := by
  cases hkind : tx.speedupKind with
  | error e =>
    unfold CoordinatedTx.speedupChangeUtxo
    rw [hkind]
    simp
  | ok kind =>
    obtain ⟨change, hchange⟩ := h.exists_change (CoordinatedTx.speedupKind_ok.mp hkind)
    rw [hchange]
    simp

/-- Swapping the queue drops positions that are there. -/
theorem swapQueued_avoids_panic {txid : Txid} {change : Utxo} {spent : Bool}
    {consumed : List OutPoint} : Prog.Avoids .panic (swapQueued txid change spent
      (queuePositions consumed w.store.fundingList) w.store.fundingList) ctx w := by
  by_cases hqueued : ∃ op ∈ w.store.fundingList, op ∈ consumed
  · have hends : Prog.Ends _ (swapQueued txid change spent
        (queuePositions consumed w.store.fundingList) w.store.fundingList) ctx w :=
      swapQueued_ends hqueued
    intro hpanic
    rcases hends with ⟨e, he⟩ | ⟨u, hu, -⟩
    · rw [hpanic] at he
      cases he
    · rw [hpanic] at hu
      cases hu
  · have hnone : queuePositions consumed w.store.fundingList = [] := by
      apply queuePositions_of_not_mem
      intro op hop hin
      exact hqueued ⟨op, hop, hin⟩
    rw [hnone]
    exact Prog.Avoids.pure _

/-- A finalization does not panic when every speedup has a change output. -/
theorem replaceFundingOnFinalize_avoids_panic (txid : Txid)
    (hrecords : ∀ txid tx, w.store.txs.get txid = some tx → tx.IsWellBuilt) :
    Prog.Avoids .panic (replaceFundingOnFinalize txid) ctx w := by
  apply Prog.Avoids.bind note_avoids_panic
  intro _ w₁ hnote
  obtain rfl := note_ok.mp hnote
  apply Prog.Avoids.bind (Prog.Avoids.read _)
  intro found w₂ hread
  obtain ⟨hget, rfl⟩ := Prog.read_ok.mp hread
  cases found with
  | none => exact Prog.Avoids.pure _
  | some tx =>
    have hbuilt : tx.IsWellBuilt := hrecords txid tx hget.symm
    dsimp only
    cases hchange : tx.speedupChangeUtxo with
    | error stop =>
      cases stop with
      | panic => exact absurd hchange hbuilt.change_ne_panic
      | _ => exact Prog.Avoids.pure _
    | ok change =>
      obtain ⟨kind, hkind⟩ := CoordinatedTx.exists_speedup?_of_change hchange
      dsimp only
      rw [CoordinatedTx.speedupKind_ok.mpr hkind]
      exact swapQueued_avoids_panic (w := w.noted (.finalizing txid w.store))

end BitcoinCoordinator
