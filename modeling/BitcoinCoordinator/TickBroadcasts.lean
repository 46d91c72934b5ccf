import BitcoinCoordinator.Ownership

/-!
# What one tick hands to the node

A tick hands transactions over in two batches, the client transactions in the order of their identifiers and then
the speedups in the order in which they were built. No other step of it hands anything over, and as long as no
client registers a transaction that was built, no transaction is handed over twice.
-/

namespace BitcoinCoordinator

open Foundation

variable {ctx : Ctx} {tidy : Prop} {phase : Phase} {w w' : World}

/-- The transactions a history handed to the node, in their order. -/
def sent (log : List Event) : List Transaction := log.reverse.filterMap Event.sent?

/-- Another moment hands over nothing. -/
theorem sent_cons {e : Event} {log : List Event} (h : ¬ e.IsBroadcast) : sent (e :: log) = sent log := by
  have hnone : e.sent? = none := by
    cases e <;> first | rfl | exact absurd trivial h
  simp [sent, hnone]

/-- A history without broadcasts hands over nothing. -/
theorem Lacks.sent_eq (h : Lacks Event.IsBroadcast w w') : sent w'.log = sent w.log := by
  obtain ⟨added, hlog, hall⟩ := h
  rw [hlog]
  clear hlog
  induction added with
  | nil => rfl
  | cons e added ih =>
    rw [List.cons_append, sent_cons (hall e List.mem_cons_self)]
    exact ih fun e' he' => hall e' (List.mem_cons_of_mem _ he')

/-- What was handed over is in the history. -/
theorem HandsOver.sent_eq {txs records : List CoordinatedTx} (h : HandsOver ctx txs records w w') :
    sent w'.log = sent w.log ++ records.map CoordinatedTx.tx := by
  rw [h.log_eq]
  unfold sent
  rw [List.reverse_append, List.reverse_reverse, List.filterMap_append, List.filterMap_map]
  exact congrArg _ (congrFun List.filterMap_eq_map' records)

/-- What was dispatched is in the history. -/
theorem Dispatches.sent_eq {due kept records : List CoordinatedTx}
    (h : Dispatches ctx due kept records w w') :
    records.Sublist due ∧ sent w'.log = sent w.log ++ records.map CoordinatedTx.tx := by
  obtain ⟨w₁, w₂, w₃, haside, hlimits, hsent, hrest⟩ := h.stages
  refine ⟨hsent.sublist.trans hlimits.sublist, ?_⟩
  rw [Lacks.sent_eq (hrest _ inferInstance), hsent.sent_eq, hlimits.log_eq, haside.log_eq]

/-! ### Before the builds -/

/-- The owners are kept, and the speedup list shrinks. -/
structure Dwindles (w w' : World) : Prop where
  owned : Owned w → Owned w'
  list : w'.store.speedupList.Sublist w.store.speedupList
  log : w.log <:+ w'.log

instance dwindles_isPreorder : IsPreorder World Dwindles where
  refl _ := ⟨id, List.Sublist.refl _, List.suffix_rfl⟩
  trans _ _ _ h h' := ⟨fun howned => h'.owned (h.owned howned), h'.list.trans h.list, h.log.trans h'.log⟩

/-- The steps of a tick before the builds keep the owners. -/
theorem dwindles_of_stepwise {α : Type} {m : Coord α} (h : Stepwise False .settle m ctx w) :
    Dwindles w (m ctx w).2 := by
  apply h.traced.keeps (I := fun w' => Dwindles w w')
  · intro w₁ w₂ hdwindles hmove
    have hone : Dwindles w₁ w₂ := ⟨fun howned => howned.move hmove (by simp),
      hmove.speedupList_sublist (by simp), hmove.log_suffix⟩
    exact IsTrans.trans _ _ _ hdwindles hone
  · exact refl w

/-! ### Batches -/

/-- The scan visits the identifiers in increasing order. -/
theorem Store.values_sorted (s : Store) :
    s.txs.values.Pairwise fun a b : CoordinatedTx => a.txid < b.txid := by
  have hkeys : s.txs.values.map CoordinatedTx.txid = s.txs.entries.map Prod.fst := by
    unfold Table.values
    rw [List.map_map]
    apply List.map_congr_left
    rintro ⟨id, tx⟩ hmem
    exact s.keyed id tx ((Table.lookupEntry_eq_some s.txs.sorted).mpr hmem)
  have hsorted : (s.txs.values.map CoordinatedTx.txid).Pairwise (· < ·) := by
    rw [hkeys]
    exact s.txs.sorted.map _ fun _ _ hlt => hlt
  exact List.pairwise_map.mp hsorted

/-- Client transactions were handed over in the order of their identifiers, and then speedups in the order of the
speedup list. -/
structure Batches (clients speedups : List CoordinatedTx) (w w' : World) : Prop where
  sent_eq : sent w'.log = sent w.log ++ (clients ++ speedups).map CoordinatedTx.tx
  log : w.log <:+ w'.log
  sorted : clients.Pairwise fun a b => a.txid < b.txid
  listed : (speedups.map CoordinatedTx.txid).Sublist w.store.speedupList
  registered : ∀ tx ∈ clients, IsRegistered w'.log tx.txid
  built : ∀ tx ∈ speedups, IsBuilt w'.log tx.txid
  named : Throughout (fun e _ => e.Names) w'.log → ∀ tx ∈ clients ++ speedups, tx.IsNamed

/-- Nothing was handed over. -/
theorem Batches.nothing (hlog : w.log <:+ w'.log) (hsent : sent w'.log = sent w.log) : Batches [] [] w w' where
  sent_eq := by simp [hsent]
  log := hlog
  sorted := List.Pairwise.nil
  listed := List.nil_sublist _
  registered _ htx := absurd htx List.not_mem_nil
  built _ htx := absurd htx List.not_mem_nil
  named _ _ htx := absurd htx List.not_mem_nil

/-- What comes first hands nothing over. -/
theorem Batches.after {clients speedups : List CoordinatedTx} {w'' : World} (h : Batches clients speedups w' w'')
    (hdwindles : Dwindles w w') (hsent : sent w'.log = sent w.log) : Batches clients speedups w w'' where
  sent_eq := by rw [h.sent_eq, hsent]
  log := hdwindles.log.trans h.log
  sorted := h.sorted
  listed := h.listed.trans hdwindles.list
  registered := h.registered
  built := h.built
  named := h.named

/-- A first part that hands nothing over is followed by the batches of the rest. -/
theorem batches_bind {α β : Type} {m : Coord α} {f : α → Coord β} (howned : Owned w)
    (hdwindles : Dwindles w (m ctx w).2) (hlacks : Lacks Event.IsBroadcast w (m ctx w).2)
    (hf : ∀ a w₁, m ctx w = (.ok a, w₁) → Owned w₁ →
      ∃ clients speedups, Batches clients speedups w₁ (f a ctx w₁).2) :
    ∃ clients speedups, Batches clients speedups w ((m >>= f) ctx w).2 := by
  rcases hrun : m ctx w with ⟨stop | a, w₁⟩
  · rw [Prog.bind_of_error hrun]
    rw [hrun] at hdwindles hlacks
    exact ⟨[], [], Batches.nothing hdwindles.log hlacks.sent_eq⟩
  · rw [Prog.bind_of_ok hrun]
    rw [hrun] at hdwindles hlacks
    obtain ⟨clients, speedups, hbatches⟩ := hf a w₁ hrun (hdwindles.owned howned)
    exact ⟨clients, speedups, hbatches.after hdwindles hlacks.sent_eq⟩

/-- The history grows. -/
def Extends (w w' : World) : Prop := w.log <:+ w'.log

instance ordinary_extends : Ordinary Extends where
  refl _ := List.suffix_rfl
  trans _ _ _ h h' := h.trans h'
  asked _ := List.suffix_rfl
  published _ _ := List.suffix_rfl
  written _ _ := List.suffix_cons _ _
  noted _ _ _ := List.suffix_cons _ _
  inserted _ _ _ _ := List.suffix_cons _ _
  registering _ _ _ _ := List.suffix_cons _ _

/-- What is dispatched extends the history. -/
theorem Dispatches.log_suffix {due kept records : List CoordinatedTx} (h : Dispatches ctx due kept records w w') :
    w.log <:+ w'.log := by
  obtain ⟨w₁, w₂, w₃, haside, hlimits, hsent, hrest⟩ := h.stages
  have hlast : w₃.log <:+ w'.log := hrest _ ordinary_extends
  rw [hsent.log_eq, hlimits.log_eq, haside.log_eq] at hlast
  exact (List.suffix_append _ _).trans hlast

/-- The builds hand nothing over. -/
theorem builds_hand_nothing (failed : Bool) :
    Lacks Event.IsBroadcast w ((boostIfStale failed >>= fun _ => createCpfpBatch) ctx w).2 ∧
      w.log <:+ ((boostIfStale failed >>= fun _ => createCpfpBatch) ctx w).2.log := by
  have hconducts : ∀ R : World → World → Prop, Ordinary R →
      Prog.Conducts R Anyhow (boostIfStale failed >>= fun _ => createCpfpBatch) := by
    intro R hR
    have hboost : Prog.Conducts R Anyhow (boostIfStale failed) := boostIfStale_conducts
    have hbatch : Prog.Conducts R Anyhow createCpfpBatch := createCpfpBatch_conducts
    infer_instance
  exact ⟨(hconducts _ inferInstance).related ctx w, (hconducts _ ordinary_extends).related ctx w⟩

/-- Step 4 and the builds hand over speedups in the order of the list. -/
theorem speedupPart_batches (howned : Owned w) : ∃ speedups, Batches [] speedups w
    ((do
      let failed ← dispatchPendingSpeedups
      boostIfStale failed
      createCpfpBatch : Coord Unit) ctx w).2 := by
  obtain ⟨due, kept, speedups, hsublist, hdue, hdispatch⟩ := dispatchPendingSpeedups_dispatches ctx w
  obtain ⟨hrecords, hsent⟩ := hdispatch.sent_eq
  have hlog := hdispatch.log_suffix
  have hend : Extends w ((do
      let failed ← dispatchPendingSpeedups
      boostIfStale failed
      createCpfpBatch : Coord Unit) ctx w).2 ∧ sent ((do
      let failed ← dispatchPendingSpeedups
      boostIfStale failed
      createCpfpBatch : Coord Unit) ctx w).2.log = sent w.log ++ speedups.map CoordinatedTx.tx := by
    rcases hrun : dispatchPendingSpeedups ctx w with ⟨stop | failed, w₁⟩
    · rw [Prog.bind_of_error hrun]
      rw [hrun] at hsent hlog
      exact ⟨hlog, hsent⟩
    · rw [Prog.bind_of_ok hrun]
      rw [hrun] at hsent hlog
      have hbuilds := @builds_hand_nothing ctx w₁ failed
      exact ⟨hlog.trans hbuilds.2, hbuilds.1.sent_eq.trans hsent⟩
  obtain ⟨hextends, hsent⟩ := hend
  have hlisted : ∀ tx ∈ speedups, tx.txid ∈ w.store.speedupList ∧ w.store.txs.get tx.txid = some tx :=
    fun tx htx => mem_speedupsOrdered (hsublist.subset (hrecords.subset htx))
  refine ⟨speedups, hsent, hextends, List.Pairwise.nil, ?_, fun _ htx => absurd htx List.not_mem_nil, ?_, ?_⟩
  · have hordered : (w.store.speedupsOrdered.map CoordinatedTx.txid).Sublist w.store.speedupList :=
      w.store.speedupsOrdered_sublist
    exact ((hrecords.trans hsublist).map _).trans hordered
  · intro tx htx
    obtain ⟨record, s, hmem, hid⟩ := howned.lists tx.txid (hlisted tx htx).1
    exact ⟨record, s, hextends.subset hmem, hid⟩
  · intro hnames tx htx
    exact (howned.named fun e older hsuffix => hnames e older (hsuffix.trans hextends)).current (hlisted tx htx).2

/-- From step 3 on, client transactions are handed over, and then speedups. -/
theorem dispatchPart_batches (howned : Owned w) : ∃ clients speedups, Batches clients speedups w
    ((do
      dispatchPending
      let failed ← dispatchPendingSpeedups
      boostIfStale failed
      createCpfpBatch : Coord Unit) ctx w).2 := by
  obtain ⟨due, kept, clients, hsublist, hdue, hdispatch⟩ := dispatchPending_dispatches ctx w
  obtain ⟨hrecords, hsent⟩ := hdispatch.sent_eq
  have hdwindles : Dwindles w (dispatchPending ctx w).2 :=
    dwindles_of_stepwise (stepwise_of_plainly dispatchPending_plainly)
  obtain ⟨speedups, hspeedups⟩ : ∃ speedups, Batches [] speedups (dispatchPending ctx w).2 ((do
      dispatchPending
      let failed ← dispatchPendingSpeedups
      boostIfStale failed
      createCpfpBatch : Coord Unit) ctx w).2 := by
    rcases hrun : dispatchPending ctx w with ⟨stop | _, w₁⟩
    · rw [Prog.bind_of_error hrun]
      exact ⟨[], Batches.nothing List.suffix_rfl rfl⟩
    · rw [Prog.bind_of_ok hrun]
      rw [hrun] at hdwindles
      exact speedupPart_batches (hdwindles.owned howned)
  have hlog := hdwindles.log.trans hspeedups.log
  have hstored : ∀ tx ∈ clients, w.store.txs.get tx.txid = some tx :=
    fun tx htx => Store.mem_values.mp (hsublist.subset (hrecords.subset htx))
  refine ⟨clients, speedups, ?_, hlog, ?_, hspeedups.listed.trans hdwindles.list, ?_, hspeedups.built, ?_⟩
  · rw [hspeedups.sent_eq, hsent, List.nil_append, List.map_append, List.append_assoc]
  · exact w.store.values_sorted.sublist (hrecords.trans hsublist)
  · intro tx htx
    have horigin := howned.origins.current (hstored tx htx)
    obtain ⟨record, s, hmem, hid⟩ := horigin.client (hdue tx (hrecords.subset htx)).1
    exact ⟨record, s, hlog.subset hmem, hid⟩
  · intro hnames tx htx
    rcases List.mem_append.mp htx with hclient | hspeedup
    · exact (howned.named fun e older hsuffix => hnames e older (hsuffix.trans hlog)).current (hstored tx hclient)
    · exact hspeedups.named hnames tx hspeedup

/-- The six steps of a tick hand over two batches. -/
theorem pipeline_batches (howned : Owned w) :
    ∃ clients speedups, Batches clients speedups w (pipeline ctx w).2 := by
  have hreview : Prog.Conducts (Lacks Event.IsBroadcast) Anyhow reviewActive :=
    reviewActive_conducts fun _ _ => lacks_noted id
  have hspeedups : Prog.Conducts (Lacks Event.IsBroadcast) Anyhow reviewSpeedups := reviewSpeedups_conducts
  apply batches_bind howned (dwindles_of_stepwise reviewActive_stepwise) (hreview.related ctx w)
  intro _ w₁ _ howned₁
  apply batches_bind howned₁ (dwindles_of_stepwise (reviewSpeedups_stepwise fun h => absurd h id))
    (hspeedups.related ctx w₁)
  intro _ w₂ _ howned₂
  exact dispatchPart_batches howned₂

/-- A tick hands over two batches. -/
theorem tick_batches (howned : Owned w) : ∃ clients speedups, Batches clients speedups w (tick ctx w).2 := by
  have hquery : ∀ {α : Type} (wrap : String → BitcoinCoordinatorError)
      (question : Answers → ℕ → Except String α) (w : World),
      Dwindles w (query wrap question ctx w).2 ∧ Lacks Event.IsBroadcast w (query wrap question ctx w).2 := by
    intro α wrap question w
    refine ⟨dwindles_of_stepwise (stepwise_of_calm query_calm), ?_⟩
    have haside : Aside w (query wrap question ctx w).2 := Prog.Within.related ctx w
    unfold Lacks
    rw [haside.log_eq]
    exact Grows.refl _
  apply batches_bind howned (hquery _ _ w).1 (hquery _ _ w).2
  intro _ w₁ _ howned₁
  apply batches_bind howned₁ (hquery _ _ w₁).1 (hquery _ _ w₁).2
  intro ready w₂ _ howned₂
  split
  · apply batches_bind howned₂ (hquery _ _ w₂).1 (hquery _ _ w₂).2
    intro height w₃ _ howned₃
    have hcleanup : Prog.Conducts (Lacks Event.IsBroadcast) Anyhow (cleanupNews height) := cleanupNews_conducts
    apply batches_bind howned₃ (dwindles_of_stepwise (stepwise_of_calm (cleanupNews_calm height)))
      (hcleanup.related ctx w₃)
    intro _ w₄ _ howned₄
    exact pipeline_batches howned₄
  · exact ⟨[], [], Batches.nothing List.suffix_rfl rfl⟩

/-- Whatever a call of a run is answered and wherever it stops, the identifiers of the transactions it hands to the
node are those of registered client transactions in increasing order, followed by those of built speedups in the
order of the speedup list, and nothing unless it is a tick. As long as no client registered a transaction that was
built, none is handed over twice. -/
theorem call_hands_over_once (cfg : BitcoinSettings) (calls : List Call) (call : Call)
    (hapart : KeptApart (runCalls cfg (calls ++ [call]) World.init).log) :
    ∃ clients speedups : List Txid,
      (sent (runCalls cfg (calls ++ [call]) World.init).log).map Transaction.computeTxid =
        (sent (runCalls cfg calls World.init).log).map Transaction.computeTxid ++ (clients ++ speedups) ∧
      (call.request ≠ .tick → clients ++ speedups = []) ∧
      clients.Pairwise (· < ·) ∧ speedups.Sublist (runCalls cfg calls World.init).store.speedupList ∧
      (clients ++ speedups).Nodup ∧
      (∀ txid ∈ clients, IsRegistered (runCalls cfg (calls ++ [call]) World.init).log txid) ∧
      ∀ txid ∈ speedups, IsBuilt (runCalls cfg (calls ++ [call]) World.init).log txid := by
  have howned := owned_runCalls cfg calls
  have hnames := throughout_names cfg Store.empty [] none (calls ++ [call])
  change Throughout _ (runCalls cfg (calls ++ [call]) World.init).log at hnames
  have htidy := tidy_runCalls cfg calls
  by_cases hrequest : call.request = .tick
  · obtain ⟨clients, speedups, hbatches⟩ : ∃ clients speedups, Batches clients speedups
        (runCalls cfg calls World.init) (runCalls cfg (calls ++ [call]) World.init) := by
      rw [runCalls_concat, hrequest]
      exact tick_batches howned
    have hnamed : ∀ txs : List CoordinatedTx, txs ⊆ clients ++ speedups →
        (txs.map CoordinatedTx.tx).map Transaction.computeTxid = txs.map CoordinatedTx.txid := by
      intro txs hsub
      rw [List.map_map]
      apply List.map_congr_left
      intro tx htx
      have hone : tx.txid = tx.tx.computeTxid := hbatches.named hnames tx (hsub htx)
      exact hone.symm
    have hsorted : (clients.map CoordinatedTx.txid).Pairwise (· < ·) := List.pairwise_map.mpr hbatches.sorted
    refine ⟨clients.map CoordinatedTx.txid, speedups.map CoordinatedTx.txid, ?_, fun h => absurd hrequest h, hsorted,
      hbatches.listed, ?_, ?_, ?_⟩
    · rw [hbatches.sent_eq, List.map_append, hnamed _ (List.Subset.refl _), List.map_append]
    · apply List.nodup_append.mpr
      refine ⟨hsorted.imp fun hlt => ne_of_lt hlt, htidy.sublist hbatches.listed, ?_⟩
      intro a ha b hb heq
      obtain ⟨client, hclient, rfl⟩ := List.mem_map.mp ha
      obtain ⟨speedup, hspeedup, rfl⟩ := List.mem_map.mp hb
      apply hapart client.txid (hbatches.registered client hclient)
      rw [heq]
      exact hbatches.built speedup hspeedup
    · intro txid htxid
      obtain ⟨tx, htx, rfl⟩ := List.mem_map.mp htxid
      exact hbatches.registered tx htx
    · intro txid htxid
      obtain ⟨tx, htx, rfl⟩ := List.mem_map.mp htxid
      exact hbatches.built tx htx
  · have hlacks : Lacks Event.IsBroadcast (runCalls cfg calls World.init)
        (runCalls cfg (calls ++ [call]) World.init) := by
      rw [runCalls_concat]
      exact request_lacks hrequest
    exact ⟨[], [], by simp [hlacks.sent_eq], fun _ => rfl, List.Pairwise.nil, List.nil_sublist _, List.nodup_nil,
      fun _ htxid => absurd htxid List.not_mem_nil, fun _ htxid => absurd htxid List.not_mem_nil⟩

/-- The tick of an example run in which the CPFP is accepted. -/
def acceptingTickCall : Call :=
  (sampleView 100 [sampleParent] [firstOfChain]).call fixedBuilder 10 0 .tick

/-- The second tick of an example run hands over the CPFP, which the first one built. -/
theorem call_hands_over_once_acceptedCalls :
    ∃ clients speedups : List Txid, clients ++ speedups = [firstOfChain.computeTxid] ∧
      (clients ++ speedups).Nodup ∧ ∀ txid ∈ clients,
        IsRegistered (runCalls defaultSettings (acceptedCalls.take 3 ++ [acceptingTickCall]) World.init).log txid := by
  obtain ⟨clients, speedups, hsent, -, -, -, hnodup, hregistered, -⟩ :=
    call_hands_over_once defaultSettings (acceptedCalls.take 3) acceptingTickCall (by decide +kernel)
  have hone : (sent (runCalls defaultSettings (acceptedCalls.take 3 ++ [acceptingTickCall]) World.init).log).map
      Transaction.computeTxid = (sent (runCalls defaultSettings (acceptedCalls.take 3) World.init).log).map
        Transaction.computeTxid ++ [firstOfChain.computeTxid] := by decide +kernel
  rw [hone] at hsent
  exact ⟨clients, speedups, (List.append_cancel_left hsent).symm, hnodup, hregistered⟩

end BitcoinCoordinator
