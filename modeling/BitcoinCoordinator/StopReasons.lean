import BitcoinCoordinator.BuiltSpeedups
import BitcoinCoordinator.Ownership

/-!
# Why a call stops

The source checks the records it works on: a listed record is a speedup, a speedup has a funding input and an
output, a replaced record is a speedup, an outcome belongs to the batch. A call that fails a check stops. As long
as the builder returns transactions with outputs and no client registers a transaction that was built, no check
ever fails, so a call stops for an error of its environment only, or since a loop is not observed to its end.
-/

namespace BitcoinCoordinator

open Foundation

variable {α : Type} {ctx : Ctx} {w w' : World}

/-! ### Sound worlds -/

/-- The records of a world are what the source takes them for. -/
structure IsSound (w : World) : Prop where
  built : EveryRecord CoordinatedTx.IsWellBuilt w
  listed : ∀ txid ∈ w.store.speedupList, ∀ tx, w.store.txs.get txid = some tx → tx.speedup?.isSome
  replaced : EveryRecord (CoordinatedTx.ReplacesSpeedup w.store) w

/-- A stop in a sound world is excused. -/
abbrev HaltsSoundly (m : Coord α) (ctx : Ctx) (w : World) : Prop := Prog.HaltsIn IsSound Excused m ctx w

/-- A function that stops to pass on errors only. -/
theorem haltsSoundly_of_conducts (m : Coord α) [h : Prog.Conducts (fun _ _ => True) Excused m] :
    HaltsSoundly m ctx w := Prog.HaltsIn.of_halts (h.halts ctx w)

/-! ### Copies of records -/

/-- No version of the store is forgotten. -/
def Remembers (w w' : World) : Prop := ∀ s, w.HasVersion s → w'.HasVersion s

instance ordinary_remembers : Ordinary Remembers where
  refl _ _ h := h
  trans _ _ _ h h' s hs := h' s (h s hs)
  asked _ _ h := h
  published _ _ _ h := h
  written w s old h := by
    rcases h with rfl | ⟨after, hwrote⟩
    · exact Or.inr ⟨s, List.mem_cons_self⟩
    · exact Or.inr ⟨after, List.mem_cons_of_mem _ hwrote⟩
  noted w e _ s h := h.imp_right fun ⟨after, hwrote⟩ => ⟨after, List.mem_cons_of_mem _ hwrote⟩
  inserted w tx s _ s' h := h.imp_right fun ⟨after, hwrote⟩ => ⟨after, List.mem_cons_of_mem _ hwrote⟩
  registering w tx s _ s' h := h.imp_right fun ⟨after, hwrote⟩ => ⟨after, List.mem_cons_of_mem _ hwrote⟩

/-- Some version of the store holds the record. -/
def CoordinatedTx.IsOnRecord (tx : CoordinatedTx) (w : World) : Prop :=
  ∃ s, w.HasVersion s ∧ s.txs.get tx.txid = some tx

/-- A record stays on record. -/
theorem CoordinatedTx.IsOnRecord.remembered {tx : CoordinatedTx} (h : tx.IsOnRecord w) (hlater : Remembers w w') :
    tx.IsOnRecord w' := by
  obtain ⟨s, hversion, hget⟩ := h
  exact ⟨s, hlater s hversion, hget⟩

/-- A function remembers what was on record, whatever it returns. -/
theorem CoordinatedTx.IsOnRecord.after {tx : CoordinatedTx} {m : Coord α} {x : Except Stop α} (h : tx.IsOnRecord w)
    (hm : Prog.Conducts Remembers Anyhow m) (hrun : m ctx w = (x, w')) : tx.IsOnRecord w' := by
  apply h.remembered
  have hrelated := hm.related ctx w
  rw [hrun] at hrelated
  exact hrelated

/-- What the scan of the list finds is on record. -/
theorem isOnRecord_of_listed {tx : CoordinatedTx} (h : tx ∈ w.store.speedupsOrdered) : tx.IsOnRecord w :=
  ⟨w.store, Or.inl rfl, (mem_speedupsOrdered h).2⟩

/-! ### Outcomes -/

/-- Marking the replaced record of a copy that was on record. -/
theorem markReplaced_haltsSoundly {tx : CoordinatedTx} (h : tx.IsOnRecord w) (txid : Txid) :
    HaltsSoundly (markReplaced tx txid) ctx w := by
  cases hreplaces : tx.replaces? with
  | none =>
    have hconducts : Prog.Conducts (fun _ _ => True) Excused (markReplaced tx txid) :=
      markReplaced_conducts_of_none hreplaces
    exact haltsSoundly_of_conducts _
  | some replaces =>
    unfold markReplaced
    rw [hreplaces]
    apply Prog.HaltsIn.bind (haltsSoundly_of_conducts _)
    intro found w₁ hread
    obtain ⟨rfl, rfl⟩ := readStore_ok.mp hread
    cases hget : w₁.store.txs.get replaces with
    | none => exact haltsSoundly_of_conducts _
    | some old =>
      refine Prog.HaltsIn.seq ?_ fun updated _ => haltsSoundly_of_conducts _
      intro stop w₂ hstop hsound
      obtain ⟨herror, rfl⟩ := Prod.mk.inj hstop
      obtain ⟨s, hversion, hstored⟩ := h
      have hspeedup := hsound.replaced s hversion _ _ hstored replaces hreplaces old hget
      unfold CoordinatedTx.modifyContext at herror
      unfold CoordinatedTx.speedup? at hspeedup
      cases hkind : old.kind with
      | speedup kind =>
        rw [hkind] at herror
        cases herror
      | _ =>
        rw [hkind] at hspeedup
        cases hspeedup

/-- Handling an outcome for a copy that was on record. -/
theorem handleOutcome_haltsSoundly {tx : CoordinatedTx} (h : tx.IsOnRecord w) (txid : Txid)
    (outcome : DispatchOutcome) (height : BlockHeight) (feeInfo : FeeInfo) :
    HaltsSoundly (handleOutcome tx txid outcome height feeInfo) ctx w := by
  have haccepted : ∀ {w : World}, tx.IsOnRecord w →
      HaltsSoundly (markAccepted tx txid height feeInfo) ctx w := fun h =>
    Prog.HaltsIn.seq (markReplaced_haltsSoundly h txid) fun _ _ => haltsSoundly_of_conducts _
  have hconfirmed : ∀ {w : World}, tx.IsOnRecord w →
      HaltsSoundly (markAlreadyConfirmed tx txid height) ctx w := fun h =>
    Prog.HaltsIn.seq (markReplaced_haltsSoundly h txid) fun _ _ => haltsSoundly_of_conducts _
  cases outcome with
  | success => exact haccepted h
  | fatal message => exact haltsSoundly_of_conducts (failAndCascade tx height false)
  | parentFailed parent => exact haltsSoundly_of_conducts (settleFailedChild tx height)
  | dispatchError raw =>
    have hquery : ∀ {R : World → World → Prop} {E : Ctx → Stop → Prop} [Ordinary R] [Permits E],
        Prog.Conducts R E (query .monitorError fun answers n => answers.txConfirmations n txid) :=
      query_conducts fun _ _ _ h => .txConfirmations h
    apply Prog.HaltsIn.bind (haltsSoundly_of_conducts _)
    intro confirmations w₁ hrun
    have hrecord : tx.IsOnRecord w₁ := h.after hquery hrun
    rcases confirmations with _ | _ | n
    · apply Prog.HaltsIn.seq (haltsSoundly_of_conducts _)
      intro missing w₂
      cases missing <;> exact haltsSoundly_of_conducts _
    · exact haccepted hrecord
    · exact hconfirmed hrecord

/-- Handling an outcome that names the copy it is handled for. -/
theorem handleDispatchResult_haltsSoundly {tx : CoordinatedTx} (h : tx.IsOnRecord w) {txid : Txid}
    (hid : tx.txid = txid) (outcome : DispatchOutcome) (height : BlockHeight) (feeInfo : FeeInfo) :
    HaltsSoundly (handleDispatchResult tx txid outcome height feeInfo) ctx w := by
  have hverify : tx.verifyTxId txid = .ok () := CoordinatedTx.verifyTxId_self hid
  apply Prog.HaltsIn.bind (haltsSoundly_of_conducts _)
  intro before w₁ hread
  obtain ⟨rfl, rfl⟩ := readStore_ok.mp hread
  rw [hverify]
  refine Prog.HaltsIn.bind (Prog.HaltsIn.of_halts (Prog.Halts.ofExcept ?_)) ?_
  · intro e he
    cases he
  · intro _ w₂ hok
    obtain ⟨-, rfl⟩ := Prog.ofExcept_ok.mp hok
    exact Prog.HaltsIn.seq (handleOutcome_haltsSoundly h txid outcome height feeInfo) fun _ _ =>
      Prog.HaltsIn.of_halts (Prog.Halts.of_ok rfl)

/-! ### The dispatch steps -/

/-- Handing a batch over remembers the records. -/
theorem dispatch_remembers (txs : List CoordinatedTx) : Prog.Conducts Remembers Anyhow (dispatch txs) :=
  dispatch_conducts fun _ _ _ h => h.imp_right fun ⟨after, hwrote⟩ => ⟨after, List.mem_cons_of_mem _ hwrote⟩

/-- The rate limit remembers the records. -/
theorem applyRetryRateLimit_remembers (txs : List CoordinatedTx) :
    Prog.Conducts Remembers Anyhow (applyRetryRateLimit txs) := applyRetryRateLimit_conducts fun _ _ _ h => h

/-- The outcomes of a batch name its transactions. -/
theorem exists_of_dispatched {txs : List CoordinatedTx} {results : List (Txid × DispatchOutcome)}
    (hrun : dispatch txs ctx w = (.ok results, w')) : ∀ result ∈ results, ∃ tx ∈ txs, tx.txid = result.1 := by
  obtain ⟨cfg, w₁, hcfg, hbody⟩ := Prog.bind_ok.mp hrun
  obtain ⟨sent, w₂, hsent, hpure⟩ := Prog.bind_ok.mp hbody
  obtain ⟨rfl, -⟩ := Prog.pure_ok.mp hpure
  intro result hresult
  rcases List.mem_append.mp hresult with hrefused | hvalid
  · obtain ⟨tx, htx, hmap⟩ := List.mem_filterMap.mp hrefused
    obtain ⟨message, -, rfl⟩ := Option.map_eq_some_iff.mp hmap
    exact ⟨tx, htx, rfl⟩
  · have hin := (dispatchValid_sublist hsent).subset (List.mem_map_of_mem hvalid)
    obtain ⟨tx, htx, hid⟩ := List.mem_map.mp hin
    exact ⟨tx, (List.mem_filter.mp htx).1, hid⟩

/-- Handling the outcomes of a batch that was on record when it was handed over. -/
theorem handleAll_haltsSoundly {txs : List CoordinatedTx} {results : List (Txid × DispatchOutcome)}
    {handle : Txid × DispatchOutcome → Coord Unit} (hrecord : ∀ tx ∈ txs, tx.IsOnRecord w)
    (hsent : dispatch txs ctx w = (.ok results, w'))
    (hremembers : ∀ result, Prog.Conducts Remembers Anyhow (handle result))
    (hhandle : ∀ result w, (∃ tx ∈ txs, tx.txid = result.1) → (∀ tx ∈ txs, tx.IsOnRecord w) →
      HaltsSoundly (handle result) ctx w) : HaltsSoundly (Prog.forEach results handle) ctx w' := by
  refine Prog.HaltsIn.forEach_inv
    (fun rest w => (∀ result ∈ rest, result ∈ results) ∧ ∀ tx ∈ txs, tx.IsOnRecord w) ?_ ?_ ?_
  · rintro result rest w ⟨hin, hrecord⟩
    exact hhandle result w (exists_of_dispatched hsent result (hin result List.mem_cons_self)) hrecord
  · rintro result rest w w' u ⟨hin, hrecord⟩ hrun
    exact ⟨fun later hlater => hin later (List.mem_cons_of_mem _ hlater),
      fun tx htx => (hrecord tx htx).after (hremembers result) hrun⟩
  · exact ⟨fun _ h => h, fun tx htx => (hrecord tx htx).after (dispatch_remembers txs) hsent⟩

/-- Handling an outcome that names a transaction of the batch. -/
theorem handleBatchResult_haltsSoundly {txs : List CoordinatedTx} {feeRate : ℕ} {height : BlockHeight}
    {result : Txid × DispatchOutcome} (hnamed : ∃ tx ∈ txs, tx.txid = result.1)
    (hrecord : ∀ tx ∈ txs, tx.IsOnRecord w) :
    HaltsSoundly (handleBatchResult txs feeRate height result) ctx w := by
  obtain ⟨named, hin, hid⟩ := hnamed
  have hfound : (txs.find? fun tx => tx.txid = result.1).isSome := by
    rw [List.find?_isSome]
    exact ⟨named, hin, decide_eq_true hid⟩
  obtain ⟨tx, hfind⟩ := Option.isSome_iff_exists.mp hfound
  have hok : findTxInBatch txs result.1 = .ok tx := by
    unfold findTxInBatch
    rw [hfind]
  unfold handleBatchResult
  rw [hok]
  refine Prog.HaltsIn.bind (Prog.HaltsIn.of_halts (Prog.Halts.ofExcept ?_)) ?_
  · intro e he
    cases he
  · intro copy w₁ hcopy
    obtain ⟨hcopy, rfl⟩ := Prog.ofExcept_ok.mp hcopy
    cases hcopy
    exact handleDispatchResult_haltsSoundly (hrecord tx (List.mem_of_find?_eq_some hfind))
      (by simpa using List.find?_some hfind) _ _ _

/-- Handling an outcome of a batch of speedups. -/
theorem handleSpeedupResult_haltsSoundly {txs : List CoordinatedTx} {height : BlockHeight}
    {result : Txid × DispatchOutcome} (hrecord : ∀ tx ∈ txs, tx.IsOnRecord w) :
    HaltsSoundly (handleSpeedupResult txs height result) ctx w := by
  unfold handleSpeedupResult
  split
  · next tx hfind =>
    exact handleDispatchResult_haltsSoundly (hrecord tx (List.mem_of_find?_eq_some hfind))
      (by simpa using List.find?_some hfind) _ _ _
  · exact haltsSoundly_of_conducts _

/-- Step 3 of a tick. -/
theorem dispatchPending_haltsSoundly : HaltsSoundly dispatchPending ctx w := by
  have hactive : Prog.Conducts (fun _ _ => True) Excused getActiveTxs := readStore_conducts
  refine Prog.HaltsIn.seq (haltsSoundly_of_conducts _) fun height w₁ => ?_
  refine Prog.HaltsIn.bind (haltsSoundly_of_conducts _) fun active w₂ hread => ?_
  obtain ⟨rfl, rfl⟩ := readStore_ok.mp hread
  have hrecord : ∀ tx ∈ (w₂.store.txs.values.filter fun tx => tx.state.isActive).filter
      (CoordinatedTx.isDispatchable height), tx.IsOnRecord w₂ := by
    intro tx htx
    have hstored := Store.mem_values.mp (List.mem_filter.mp (List.mem_filter.mp htx).1).1
    exact ⟨w₂.store, Or.inl rfl, hstored⟩
  generalize (w₂.store.txs.values.filter fun tx => tx.state.isActive).filter
    (CoordinatedTx.isDispatchable height) = due at hrecord ⊢
  cases due with
  | nil => exact haltsSoundly_of_conducts _
  | cons tx rest =>
    refine Prog.HaltsIn.bind (haltsSoundly_of_conducts _) fun fee w₃ hfee => ?_
    refine Prog.HaltsIn.bind (haltsSoundly_of_conducts _) fun _ w₄ hnews => ?_
    have hlimits : Prog.Conducts (fun _ _ => True) Excused (applyRetryRateLimit (tx :: rest)) :=
      applyRetryRateLimit_conducts fun _ _ => trivial
    refine Prog.HaltsIn.bind (haltsSoundly_of_conducts _) fun kept w₅ hkept => ?_
    have hlater : ∀ tx ∈ kept, tx.IsOnRecord w₅ := by
      intro tx htx
      have hdue := hrecord tx ((applyRetryRateLimit_sublist hkept).subset htx)
      exact ((hdue.after getNetworkFeeRate_conducts hfee).after publishFeeNews_conducts hnews).after
        (applyRetryRateLimit_remembers _) hkept
    have hdispatch : Prog.Conducts (fun _ _ => True) Excused (dispatch kept) := dispatch_conducts fun _ _ => trivial
    refine Prog.HaltsIn.bind (haltsSoundly_of_conducts _) fun results w₆ hsent => ?_
    exact handleAll_haltsSoundly hlater hsent (fun result => handleBatchResult_conducts)
      fun result w hnamed hrecord => handleBatchResult_haltsSoundly hnamed hrecord

/-- Step 4 of a tick. -/
theorem dispatchPendingSpeedups_haltsSoundly : HaltsSoundly dispatchPendingSpeedups ctx w := by
  refine Prog.HaltsIn.seq (haltsSoundly_of_conducts _) fun height w₁ => ?_
  refine Prog.HaltsIn.bind (haltsSoundly_of_conducts _) fun all w₂ hread => ?_
  obtain ⟨rfl, rfl⟩ := readStore_ok.mp hread
  have hrecord : ∀ tx ∈ w₂.store.speedupsOrdered.filter fun tx => decide (tx.state = .toDispatch),
      tx.IsOnRecord w₂ := fun tx htx => isOnRecord_of_listed (List.mem_filter.mp htx).1
  generalize (w₂.store.speedupsOrdered.filter fun tx => decide (tx.state = .toDispatch)) = due at hrecord ⊢
  cases due with
  | nil => exact haltsSoundly_of_conducts _
  | cons tx rest =>
    have hlimits : Prog.Conducts (fun _ _ => True) Excused (applyRetryRateLimit (tx :: rest)) :=
      applyRetryRateLimit_conducts fun _ _ => trivial
    refine Prog.HaltsIn.bind (haltsSoundly_of_conducts _) fun kept w₃ hkept => ?_
    have hlater : ∀ tx ∈ kept, tx.IsOnRecord w₃ := fun tx htx =>
      (hrecord tx ((applyRetryRateLimit_sublist hkept).subset htx)).after (applyRetryRateLimit_remembers _) hkept
    cases kept with
    | nil => exact haltsSoundly_of_conducts _
    | cons tx rest =>
      have hdispatch : Prog.Conducts (fun _ _ => True) Excused (dispatch (tx :: rest)) :=
        dispatch_conducts fun _ _ => trivial
      refine Prog.HaltsIn.bind (haltsSoundly_of_conducts _) fun results w₄ hsent => ?_
      refine Prog.HaltsIn.seq ?_ fun _ _ => haltsSoundly_of_conducts _
      exact handleAll_haltsSoundly hlater hsent (fun result => handleSpeedupResult_conducts)
        fun result w _ hrecord => handleSpeedupResult_haltsSoundly hrecord

/-! ### The review of the speedups -/

/-- An excuse, or a panic. -/
def ExcusedOrPanic (ctx : Ctx) (stop : Stop) : Prop := Excused ctx stop ∨ stop = .panic

instance permits_excusedOrPanic : Permits ExcusedOrPanic where
  passedOn _ _ h := Or.inl (Or.inl h)
  unfinished _ := Or.inl (Or.inr rfl)

/-- Dropping positions of the queue stops to pass on an error, or it panics. -/
theorem dropQueued_conducts (positions : List ℕ) (list : List OutPoint) :
    Prog.Conducts (fun _ _ => True) ExcusedOrPanic (dropQueued positions list) := by
  induction positions generalizing list with
  | nil => exact Prog.Conducts.pure
  | cons position rest ih =>
    unfold dropQueued
    split
    · exact Prog.Conducts.stop fun _ => Or.inr rfl
    · exact Prog.Conducts.seq fun _ => ih _

/-- Swapping the queue stops to pass on an error. -/
theorem swapQueued_haltsSoundly {txid : Txid} {change : Utxo} {spent : Bool} {consumed : List OutPoint} :
    HaltsSoundly (swapQueued txid change spent (queuePositions consumed w.store.fundingList)
      w.store.fundingList) ctx w := by
  have hconducts : Prog.Conducts (fun _ _ => True) ExcusedOrPanic (swapQueued txid change spent
      (queuePositions consumed w.store.fundingList) w.store.fundingList) := by
    unfold swapQueued
    split
    · infer_instance
    · have hdrop := dropQueued_conducts
      exact Prog.Conducts.seq fun _ => inferInstance
  apply Prog.HaltsIn.of_halts
  intro stop hstop
  rcases hconducts.halts ctx w stop hstop with hexcused | rfl
  · exact hexcused
  · exact absurd hstop swapQueued_avoids_panic

/-- A finalization stops to pass on an error. -/
theorem replaceFundingOnFinalize_haltsSoundly (txid : Txid) :
    HaltsSoundly (replaceFundingOnFinalize txid) ctx w := by
  refine Prog.HaltsIn.bind (Prog.HaltsIn.of_halts (Prog.Halts.of_ok rfl)) fun _ w₁ _ => ?_
  refine Prog.HaltsIn.bind (haltsSoundly_of_conducts _) fun found w₂ hread => ?_
  obtain ⟨rfl, rfl⟩ := readStore_ok.mp hread
  cases hget : w₂.store.txs.get txid with
  | none => exact haltsSoundly_of_conducts _
  | some tx =>
    dsimp only
    cases hchange : tx.speedupChangeUtxo with
    | error stop =>
      cases stop with
      | panic =>
        -- The store just read is a version of the world the call stops in.
        intro stop w₃ hstop hsound
        obtain ⟨-, rfl⟩ := Prod.mk.inj hstop
        exact absurd hchange (hsound.built w₂.store (Or.inl rfl) txid tx hget).change_ne_panic
      | _ => exact haltsSoundly_of_conducts _
    | ok change =>
      obtain ⟨kind, hkind⟩ := CoordinatedTx.exists_speedup?_of_change hchange
      dsimp only
      rw [CoordinatedTx.speedupKind_ok.mpr hkind]
      exact swapQueued_haltsSoundly

/-- Reviewing one speedup. -/
theorem reviewSpeedup_haltsSoundly (all : List CoordinatedTx) (height : BlockHeight) (tx : CoordinatedTx) :
    HaltsSoundly (reviewSpeedup all height tx) ctx w := by
  have hnote : ∀ w, HaltsSoundly (note fun _ => .notFound tx.txid height) ctx w :=
    fun _ => Prog.HaltsIn.of_halts (Prog.Halts.of_ok rfl)
  have hfinalize : ∀ w, HaltsSoundly (finalizeSpeedup tx height) ctx w := fun _ =>
    Prog.HaltsIn.seq (haltsSoundly_of_conducts _) fun _ _ => Prog.HaltsIn.seq (haltsSoundly_of_conducts _)
      fun _ _ => replaceFundingOnFinalize_haltsSoundly tx.txid
  unfold reviewSpeedup
  refine Prog.HaltsIn.seq (haltsSoundly_of_conducts _) fun cfg _ => ?_
  refine Prog.HaltsIn.seq (haltsSoundly_of_conducts _) fun status w₁ => ?_
  split
  · split <;> exact haltsSoundly_of_conducts _
  · split
    · exact Prog.HaltsIn.seq (hnote _) fun _ _ => haltsSoundly_of_conducts _
    · split
      · exact hfinalize _
      · exact haltsSoundly_of_conducts _

/-- Step 2 of a tick. -/
theorem reviewSpeedups_haltsSoundly : HaltsSoundly reviewSpeedups ctx w := by
  refine Prog.HaltsIn.seq (haltsSoundly_of_conducts _) fun height _ => ?_
  refine Prog.HaltsIn.seq (haltsSoundly_of_conducts _) fun all _ => ?_
  exact Prog.HaltsIn.forEach_inv (fun _ _ => True) (fun tx _ _ _ => reviewSpeedup_haltsSoundly all height tx)
    (fun _ _ _ _ _ _ _ => trivial) trivial

/-! ### Builds -/

/-- A search among speedups finds the chain tip or none. -/
theorem findChainTip_of_speedups {speedups older : List CoordinatedTx} (h : ∀ tx ∈ older, tx.speedup?.isSome) :
    ∃ tip, findChainTip speedups older = .ok tip := by
  induction older with
  | nil => exact ⟨none, rfl⟩
  | cons newest older ih =>
    have hrest := ih fun tx htx => h tx (List.mem_cons_of_mem _ htx)
    obtain ⟨kind, hkind⟩ := Option.isSome_iff_exists.mp (h newest List.mem_cons_self)
    unfold findChainTip
    rw [CoordinatedTx.speedupKind_ok.mpr hkind]
    dsimp only
    split
    · split
      · exact hrest
      · exact ⟨some newest, rfl⟩
    · exact hrest

/-- Choosing the primary input among the listed speedups. -/
theorem getFunding_haltsSoundly : HaltsSoundly (getFunding w.store.speedupsOrdered) ctx w := by
  refine Prog.HaltsIn.bind ?_ fun tip w₁ hfind => ?_
  · intro stop w₁ hstop hsound
    obtain ⟨herror, rfl⟩ := Prod.mk.inj hstop
    have hlisted : ∀ tx ∈ w.store.speedupsOrdered.reverse, tx.speedup?.isSome := by
      intro tx htx
      obtain ⟨hin, hget⟩ := mem_speedupsOrdered (List.mem_reverse.mp htx)
      exact hsound.listed tx.txid hin tx hget
    obtain ⟨tip, htip⟩ := findChainTip_of_speedups hlisted
    rw [htip] at herror
    cases herror
  · obtain ⟨htip, rfl⟩ := Prog.ofExcept_ok.mp hfind
    cases tip with
    | some tx =>
      refine Prog.HaltsIn.bind ?_ fun _ _ _ => haltsSoundly_of_conducts _
      intro stop w₂ hstop hsound
      obtain ⟨herror, rfl⟩ := Prod.mk.inj hstop
      obtain ⟨hmem, -, -, kind, hkind, -⟩ := findChainTip_ok htip
      have hget := (mem_speedupsOrdered (List.mem_reverse.mp hmem)).2
      obtain ⟨change, hchange⟩ := (hsound.built w₁.store (Or.inl rfl) _ tx hget).exists_change hkind
      rw [hchange] at herror
      cases herror
    | none =>
      refine Prog.HaltsIn.seq (haltsSoundly_of_conducts _) fun records _ => ?_
      split <;> exact haltsSoundly_of_conducts _

/-- A build whose inherited inputs, if any, are funding inputs of a record. -/
theorem buildSpeedup_haltsSoundly {entries : List (SpeedupData × ℕ)} {initial : Option (List Utxo)}
    {bumpFee : ℚ} {feeRate chainDiffFee : ℕ} (hinitial : ∀ inputs, initial = some inputs →
      ∃ (tx : CoordinatedTx) (kind : SpeedupKind), tx.IsOnRecord w ∧ tx.speedup? = some kind ∧
        inputs = kind.context.fundingInputs) :
    HaltsSoundly (buildSpeedup entries initial bumpFee feeRate chainDiffFee) ctx w := by
  have hwith : ∀ plan inputs w, inputs ≠ [] → HaltsSoundly (buildWith plan inputs) ctx w := by
    intro plan inputs w hinputs
    have hconducts : Prog.Conducts (fun _ _ => True) Excused (buildWith plan inputs) := buildWith_conducts hinputs
    exact haltsSoundly_of_conducts _
  cases initial with
  | some inputs =>
    obtain ⟨tx, kind, hrecord, hkind, rfl⟩ := hinitial inputs rfl
    by_cases hinputs : kind.context.fundingInputs = []
    · -- Without an input the record is not well built, and the world the call stops in holds it.
      intro stop w₁ hstop hsound
      obtain ⟨s, hversion, hget⟩ := hrecord.after buildSpeedup_conducts hstop
      exact absurd hinputs (hsound.built s hversion _ tx hget kind hkind).2.1
    · exact Prog.HaltsIn.seq (haltsSoundly_of_conducts _) fun _ _ => hwith _ _ _ hinputs
  | none =>
    refine Prog.HaltsIn.bind (haltsSoundly_of_conducts _) fun all w₁ hread => ?_
    obtain ⟨rfl, rfl⟩ := readStore_ok.mp hread
    refine Prog.HaltsIn.seq getFunding_haltsSoundly fun funding w₂ => ?_
    cases funding with
    | some funding => exact hwith _ _ _ (by simp)
    | none => exact haltsSoundly_of_conducts _

/-- Running a planned boost whose predecessor is on record. -/
theorem runBoost_haltsSoundly {plan : BoostPlan} {all : List CoordinatedTx} {height : BlockHeight}
    {kind : SpeedupKind} (hrecord : plan.last.IsOnRecord w) (hkind : plan.last.speedup? = some kind)
    (hcontext : plan.context = kind.context) : HaltsSoundly (runBoost plan all height) ctx w := by
  refine Prog.HaltsIn.bind (haltsSoundly_of_conducts _) fun cfg w₁ hcfg => ?_
  obtain ⟨-, rfl⟩ := settings_ok.mp hcfg
  refine Prog.HaltsIn.bind (haltsSoundly_of_conducts _) fun fee w₂ hfee => ?_
  refine Prog.HaltsIn.bind (haltsSoundly_of_conducts _) fun _ w₃ hnews => ?_
  have hlater : plan.last.IsOnRecord w₃ :=
    (hrecord.after getNetworkFeeRate_conducts hfee).after publishFeeNews_conducts hnews
  refine Prog.HaltsIn.seq (buildSpeedup_haltsSoundly fun inputs hinputs => ?_) fun built _ => ?_
  · unfold BoostPlan.rbfInitialInputs at hinputs
    split at hinputs
    · cases hinputs
      exact ⟨plan.last, kind, hlater, hkind, by rw [hcontext]⟩
    · cases hinputs
  · cases built <;> exact haltsSoundly_of_conducts _

/-- Step 5 of a tick. -/
theorem boostIfStale_haltsSoundly (skip : Bool) : HaltsSoundly (boostIfStale skip) ctx w := by
  unfold boostIfStale
  split
  · exact haltsSoundly_of_conducts _
  · refine Prog.HaltsIn.seq (haltsSoundly_of_conducts _) fun cfg _ => ?_
    refine Prog.HaltsIn.seq (haltsSoundly_of_conducts _) fun height _ => ?_
    refine Prog.HaltsIn.bind (haltsSoundly_of_conducts _) fun all w₁ hread => ?_
    obtain ⟨rfl, rfl⟩ := readStore_ok.mp hread
    split
    · exact haltsSoundly_of_conducts _
    · next plan hplan =>
      obtain ⟨kind, hkind, hcontext⟩ := (planBoost_sound hplan).speedup
      have hrecord : plan.last.IsOnRecord w₁ := isOnRecord_of_listed (planBoost_sound hplan).mem
      refine Prog.HaltsIn.bind (Prog.HaltsIn.of_halts (Prog.Halts.of_ok rfl)) fun _ w₂ hnote => ?_
      have hremembers : Prog.Conducts Remembers Anyhow (note (.planned plan.last.txid)) := note_conducts fun _ => id
      exact runBoost_haltsSoundly (hrecord.after hremembers hnote) hkind hcontext

/-- Step 6 of a tick. -/
theorem createCpfpBatch_haltsSoundly : HaltsSoundly createCpfpBatch ctx w := by
  have hbuild : ∀ entries bumpFee feeRate chainDiffFee w, HaltsSoundly
      (buildSpeedup entries none bumpFee feeRate chainDiffFee) ctx w :=
    fun _ _ _ _ _ => buildSpeedup_haltsSoundly fun _ h => by cases h
  refine Prog.HaltsIn.seq (haltsSoundly_of_conducts _) fun cfg _ => ?_
  refine Prog.HaltsIn.seq (haltsSoundly_of_conducts _) fun parents _ => ?_
  refine Prog.HaltsIn.seq (haltsSoundly_of_conducts _) fun all _ => ?_
  dsimp only
  split
  · exact haltsSoundly_of_conducts _
  · refine Prog.HaltsIn.seq (haltsSoundly_of_conducts _) fun cfg _ => ?_
    refine Prog.HaltsIn.seq (haltsSoundly_of_conducts _) fun fee _ => ?_
    refine Prog.HaltsIn.seq (haltsSoundly_of_conducts _) fun _ _ => ?_
    split
    · exact haltsSoundly_of_conducts _
    · split
      · exact haltsSoundly_of_conducts _
      · refine Prog.HaltsIn.seq (hbuild _ _ _ _ _) fun built _ => ?_
        cases built <;> exact haltsSoundly_of_conducts _

/-- A request stops for an excuse, unless in a world that is not sound. -/
theorem exec_haltsSoundly (request : Request) : HaltsSoundly (exec request) ctx w := by
  by_cases hrequest : request = .tick
  · subst hrequest
    have hreview : Prog.Conducts (fun _ _ => True) Excused reviewActive := reviewActive_conducts fun _ _ => trivial
    have hsync : Prog.Conducts (fun _ _ => True) Excused (query .monitorError fun answers n => answers.monitorTick n) :=
      query_conducts fun _ _ _ h => .monitorTick h
    have hready : Prog.Conducts (fun _ _ => True) Excused (query .monitorError fun answers n => answers.isReady n) :=
      query_conducts fun _ _ _ h => .isReady h
    refine Prog.HaltsIn.seq (haltsSoundly_of_conducts _) fun _ _ => ?_
    refine Prog.HaltsIn.seq (haltsSoundly_of_conducts _) fun ready _ => ?_
    split
    · refine Prog.HaltsIn.seq (haltsSoundly_of_conducts _) fun height _ => ?_
      refine Prog.HaltsIn.seq (haltsSoundly_of_conducts _) fun _ _ => ?_
      refine Prog.HaltsIn.seq (haltsSoundly_of_conducts _) fun _ _ => ?_
      refine Prog.HaltsIn.seq reviewSpeedups_haltsSoundly fun _ _ => ?_
      refine Prog.HaltsIn.seq dispatchPending_haltsSoundly fun _ _ => ?_
      refine Prog.HaltsIn.seq dispatchPendingSpeedups_haltsSoundly fun failed _ => ?_
      exact Prog.HaltsIn.seq (boostIfStale_haltsSoundly failed) fun _ _ => createCpfpBatch_haltsSoundly
    · exact haltsSoundly_of_conducts _
  · have hconducts : Prog.Conducts (fun _ _ => True) Excused (exec request) := request_conducts hrequest
    exact haltsSoundly_of_conducts _

/-! ### Runs -/

variable {tidy : Prop} {phase : Phase}

/-- What an RBF replaces was built. -/
def CoordinatedTx.ReplacesBuilt (log : List Event) (tx : CoordinatedTx) : Prop :=
  ∀ replaces, tx.replaces? = some replaces → IsBuilt log replaces

/-- What replaces a transaction is an RBF. -/
theorem CoordinatedTx.rbf_of_replaces {tx : CoordinatedTx} {replaces : Txid} (h : tx.replaces? = some replaces) :
    ∃ inputs context, tx.speedup? = some (.rbf replaces inputs context) := by
  unfold replaces? at h
  unfold speedup?
  cases hkind : tx.kind with
  | speedup kind =>
    rw [hkind] at h
    cases kind with
    | cpfp parents context => cases h
    | rbf replaced inputs context =>
      cases h
      exact ⟨inputs, context, rfl⟩
  | _ =>
    rw [hkind] at h
    cases h

/-- What a record replaces is told by its body. -/
theorem CoordinatedTx.replaces?_of_body {tx tx' : CoordinatedTx} (hbody : tx'.body = tx.body) :
    tx'.replaces? = tx.replaces? := by
  have hunmarked : tx'.kind.unmarked = tx.kind.unmarked := congrArg Prod.snd hbody
  have hread : ∀ tx : CoordinatedTx,
      tx.replaces? = ({ tx with kind := tx.kind.unmarked } : CoordinatedTx).replaces? := by
    intro tx
    unfold replaces?
    rcases hkind : tx.kind with _ | data | kind
    · rfl
    · rfl
    · cases kind <;> rfl
  rw [hread tx', hread tx]
  unfold replaces?
  dsimp only
  rw [hunmarked]

/-- Every move keeps it so: an RBF is stored over a speedup, whose record has an origin. -/
theorem replacesBuilt_move (h : EveryRecord (CoordinatedTx.ReplacesBuilt w.log) w) (horigins : OriginsKnown w)
    (hmove : Move ctx tidy phase w w') : EveryRecord (CoordinatedTx.ReplacesBuilt w'.log) w' := by
  apply everyRecord_of_body h hmove
  · intro log log' tx tx' hbuilt hlog _ hbody replaces hreplaces
    rw [CoordinatedTx.replaces?_of_body hbody] at hreplaces
    obtain ⟨record, s, hmem, hid⟩ := hbuilt replaces hreplaces
    exact ⟨record, s, hlog hmem, hid⟩
  · intro tx htx _ replaces hreplaces
    obtain ⟨inputs, context, hkind⟩ := CoordinatedTx.rbf_of_replaces hreplaces
    obtain ⟨pricing, -, -, -, hboost⟩ := htx.signed
    have hisBoost : tx.isBoost := by
      unfold CoordinatedTx.isBoost
      rw [hkind]
      rfl
    obtain ⟨txid, last, hpredecessor, hget, hspeedup, -⟩ := hboost hisBoost
    unfold CoordinatedTx.predecessor? at hpredecessor
    rw [hkind] at hpredecessor
    cases hpredecessor
    obtain ⟨record, s, hmem, hid⟩ := (horigins w.store (Or.inl rfl) _ last hget).speedup hspeedup
    exact ⟨record, s, hmove.log_suffix.subset hmem, hid.trans (w.store.keyed _ last hget)⟩
  · intro tx hkind _ replaces hreplaces
    obtain ⟨inputs, context, hsome⟩ := CoordinatedTx.rbf_of_replaces hreplaces
    rw [hkind] at hsome
    cases hsome

/-- Every RBF a run ever records replaces a transaction that was built. -/
theorem replacesBuilt_runCalls (cfg : BitcoinSettings) (calls : List Call) :
    EveryRecord (CoordinatedTx.ReplacesBuilt (runCalls cfg calls World.init).log) (runCalls cfg calls World.init) := by
  have hmove : ∀ call ∈ calls, ∀ phase w w',
      (OriginsKnown w ∧ EveryRecord (CoordinatedTx.ReplacesBuilt w.log) w) → Move ⟨cfg, call.answers⟩ False phase w w' →
        (OriginsKnown w' ∧ EveryRecord (CoordinatedTx.ReplacesBuilt w'.log) w') :=
    fun _ _ _ _ _ h hmove => ⟨h.1.move hmove, replacesBuilt_move h.2 h.1 hmove⟩
  have hruns : OriginsKnown (runCalls cfg calls World.init) ∧ EveryRecord
      (CoordinatedTx.ReplacesBuilt (runCalls cfg calls World.init).log) (runCalls cfg calls World.init) := by
    refine runCalls_induction hmove (fun h => absurd h id) ⟨owned_init.origins, ?_⟩
    rintro s (rfl | ⟨after, hwrote⟩) txid tx hget
    · cases hget
    · cases hwrote
  exact hruns.2

/-- The records of a run are well built, as long as the builder returns transactions with outputs. -/
theorem orderly_runCalls (cfg : BitcoinSettings) (calls : List Call)
    (hbuilder : ∀ call ∈ calls, call.answers.BuildsOutputs) : Orderly (runCalls cfg calls World.init) := by
  have hmove : ∀ call ∈ calls, ∀ phase w w', Orderly w → Move ⟨cfg, call.answers⟩ False phase w w' → Orderly w' :=
    fun call hcall _ _ _ h hmove => h.move (hbuilder call hcall) hmove
  refine runCalls_induction hmove (fun h => absurd h id) ⟨?_, ?_⟩
  · rintro s (rfl | ⟨after, hwrote⟩)
    · exact List.nodup_nil
    · cases hwrote
  · rintro s (rfl | ⟨after, hwrote⟩) txid tx hget
    · cases hget
    · cases hwrote

/-- The world a run leaves is sound, as long as the builder returns transactions with outputs and what clients
register is kept apart from what is built. -/
theorem isSound_runCalls (cfg : BitcoinSettings) (calls : List Call)
    (hbuilder : ∀ call ∈ calls, call.answers.BuildsOutputs)
    (hapart : KeptApart (runCalls cfg calls World.init).log) : IsSound (runCalls cfg calls World.init) where
  built := (orderly_runCalls cfg calls hbuilder).records
  listed txid hin _ hget :=
    (owned_runCalls cfg calls).speedup_of_built hapart (Or.inl rfl) hget ((owned_runCalls cfg calls).lists txid hin)
  replaced s hversion txid tx hget replaces hreplaces _ hold :=
    (owned_runCalls cfg calls).speedup_of_built hapart (Or.inl rfl) hold
      (replacesBuilt_runCalls cfg calls s hversion txid tx hget replaces hreplaces)

/-- As long as the builder returns transactions with outputs and no client registers a transaction that was built, a
call of a run stops for nothing but an error that the backend, the monitor or the builder answered, or in a loop that
is not observed to its end. No check of the source on its own records fails, and no index panics. -/
theorem call_stops_excused (cfg : BitcoinSettings) (calls : List Call) (call : Call) (stop : Stop)
    (hbuilder : ∀ earlier ∈ calls ++ [call], earlier.answers.BuildsOutputs)
    (hapart : KeptApart (runCalls cfg (calls ++ [call]) World.init).log)
    (hstop : (exec call.request ⟨cfg, call.answers⟩ (runCalls cfg calls World.init)).1 = .error stop) :
    PassedOn ⟨cfg, call.answers⟩ stop ∨ stop = .unfinished := by
  have hsound := isSound_runCalls cfg (calls ++ [call]) hbuilder hapart
  rw [runCalls_concat] at hsound
  exact exec_haltsSoundly call.request stop _ (Prod.ext hstop rfl) hsound

/-- A tick while the backend refuses every write. -/
def refusedTickCall : Call :=
  ⟨.tick, { (sampleView 101 [sampleParent, firstOfChain] []).answers fixedBuilder 10 0 with
    storage := fun _ => .error "refused" }⟩

/-- After an example run, such a tick stops for the refused write. -/
theorem call_stops_excused_acceptedCalls :
    PassedOn ⟨defaultSettings, refusedTickCall.answers⟩ (.error (.storageBackendError "refused")) := by
  refine (call_stops_excused defaultSettings acceptedCalls refusedTickCall
    (.error (.storageBackendError "refused")) ?_ ?_ ?_).resolve_right (by simp)
  · intro call hcall
    simp only [acceptedCalls, growingChainCalls, List.take_succ_cons, List.take_zero, List.cons_append, List.nil_append,
      List.mem_cons, List.not_mem_nil, or_false] at hcall
    rcases hcall with rfl | rfl | rfl | rfl | rfl
    · exact plainBuilder_buildsOutputs _ _ _ _
    · exact plainBuilder_buildsOutputs _ _ _ _
    · exact plainBuilder_buildsOutputs _ _ _ _
    · exact plainBuilder_buildsOutputs _ _ _ _
    · exact plainBuilder_buildsOutputs (sampleView 101 [sampleParent, firstOfChain] []) (fun _ => 200) 10 0
  · decide +kernel
  · decide +kernel

end BitcoinCoordinator
