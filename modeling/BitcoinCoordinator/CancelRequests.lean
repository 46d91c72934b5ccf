import BitcoinCoordinator.Reregistrations

/-!
# What a cancel request leaves

A completed cancel request drops the eligible transactions and nothing else. When the monitor refuses
the cancellation their pending entries are already gone.
-/

namespace BitcoinCoordinator

open Foundation

variable {ctx : Ctx} {w w' : World}

/-- A tracked client transaction that waits for dispatch. -/
def Store.canCancel (s : Store) (txid : Txid) : Bool :=
  (s.txs.get txid).any fun tx => tx.speedup?.isNone && decide (tx.state = .toDispatch)

/-- A cancel request is refused exactly for what is no waiting client transaction. -/
theorem Store.classifyCancelRequest_isNone (s : Store) (txid : Txid) :
    (s.classifyCancelRequest txid).isNone = s.canCancel txid := by
  unfold Store.classifyCancelRequest Store.canCancel
  cases s.txs.get txid with
  | none => rfl
  | some tx =>
    simp only [Option.any_some]
    by_cases hspeedup : tx.speedup?.isSome
    · rw [if_pos hspeedup]
      simp [Option.isNone_eq_false_iff.mpr hspeedup]
    · rw [if_neg hspeedup]
      have hnone : tx.speedup?.isNone = true := by simpa using hspeedup
      rw [hnone]
      by_cases hstate : tx.state = .toDispatch <;> simp [hstate]

/-- A store after the client transactions of a request that waited for dispatch were dropped: they are
gone from the records and from the pending list, and all else is as it was. -/
structure Store.CancelsExactly (s s' : Store) (txids : List Txid) : Prop where
  gone : ∀ txid ∈ txids, s.canCancel txid = true → s'.txs.get txid = none
  kept : ∀ txid, (txid ∈ txids → s.canCancel txid = false) → s'.txs.get txid = s.txs.get txid
  pending : s'.pendingSpeedupParents =
    s.pendingSpeedupParents.filter fun txid => !(decide (txid ∈ txids) && s.canCancel txid)
  speedups : s'.speedupList = s.speedupList
  queue : s'.fundingList = s.fundingList
  funding : s'.funding = s.funding

/-- Every refused transaction of a request has a news item. -/
def World.ReportsRefusals (w w' : World) (txids : List Txid) : Prop :=
  ∀ txid ∈ txids, w.store.canCancel txid = false →
    ∃ reason, w'.Noted (.invalidCancel txid reason)

/-! ### Eligible transactions -/

/-- The eligible transactions of a request are those that wait for dispatch, and the others are
published. -/
theorem eligibleToCancel_filter {txids eligible : List Txid}
    (hrun : eligibleToCancel txids ctx w = (.ok eligible, w')) :
    eligible = txids.filter w.store.canCancel ∧ w'.store = w.store ∧ w.news ⊆ w'.news ∧
      w.ReportsRefusals w' txids := by
  induction txids generalizing w eligible with
  | nil =>
    obtain ⟨rfl, rfl⟩ := Prog.pure_ok.mp hrun
    exact ⟨rfl, rfl, fun _ h => h, fun txid h => absurd h List.not_mem_nil⟩
  | cons txid rest ih =>
    obtain ⟨refusal, w₁, hread, hbody⟩ := Prog.bind_ok.mp hrun
    obtain ⟨hrefusal, rfl⟩ := readStore_ok.mp hread
    have hcan := w₁.store.classifyCancelRequest_isNone txid
    rw [← hrefusal] at hcan
    cases refusal with
    | none =>
      obtain ⟨kept, w₂, hrest, hpure⟩ := Prog.bind_ok.mp hbody
      obtain ⟨rfl, rfl⟩ := Prog.pure_ok.mp hpure
      obtain ⟨rfl, hstore, hnews, hreports⟩ := ih hrest
      refine ⟨?_, hstore, hnews, ?_⟩
      · rw [List.filter_cons_of_pos hcan.symm]
      · intro id hid hrefused
        rcases List.mem_cons.mp hid with rfl | hid
        · rw [← hcan] at hrefused
          cases hrefused
        · exact hreports id hid hrefused
    | some reason =>
      obtain ⟨b, w₂, hadd, hrest⟩ := Prog.bind_ok.mp hbody
      obtain ⟨hstore₂, hnews₂, hnoted, -⟩ := addNews_ok hadd
      obtain ⟨rfl, hstore, hnews, hreports⟩ := ih hrest
      rw [hstore₂] at hstore
      refine ⟨?_, hstore, fun _ hi => hnews (hnews₂ hi), ?_⟩
      · rw [hstore₂, List.filter_cons_of_neg]
        rw [← hcan]
        simp
      · intro id hid hrefused
        rcases List.mem_cons.mp hid with rfl | hid
        · obtain ⟨item, hitem, heq⟩ := hnoted
          exact ⟨reason, item, hnews hitem, heq⟩
        · rw [← hstore₂] at hrefused
          exact hreports id hid hrefused

/-! ### Loops of writes -/

/-- A completed loop whose rounds change the store alone changes it round by round. -/
theorem forEach_store_ok {α : Type} {f : α → Store → Store} {body : α → Coord Unit}
    (hbody : ∀ a w w' u, body a ctx w = (.ok u, w') → w'.store = f a w.store ∧ w'.news = w.news)
    {xs : List α} {u : Unit} (hrun : Prog.forEach xs body ctx w = (.ok u, w')) :
    w'.store = xs.foldl (fun s a => f a s) w.store ∧ w'.news = w.news := by
  induction xs generalizing w with
  | nil =>
    obtain ⟨-, rfl⟩ := Prog.pure_ok.mp hrun
    exact ⟨rfl, rfl⟩
  | cons a rest ih =>
    obtain ⟨v, w₁, hround, hrest⟩ := Prog.bind_ok.mp hrun
    obtain ⟨hstore₁, hnews₁⟩ := hbody a w w₁ v hround
    obtain ⟨hstore, hnews⟩ := ih hrest
    rw [hstore₁] at hstore
    exact ⟨hstore, hnews.trans hnews₁⟩

/-- A completed write changes the store alone. -/
theorem OneWrite.news_eq {f : Store → Store} {u : Unit} (h : OneWrite f w (.ok u, w')) :
    w'.news = w.news := by
  cases h <;> rfl

/-- The store without some parents on its pending list. -/
def Store.unpendAll (s : Store) (txids : List Txid) : Store :=
  { s with
    pendingSpeedupParents := s.pendingSpeedupParents.filter fun id => decide (id ∉ txids) }

/-- Taking entries off the pending list one by one takes all of them off. -/
theorem foldl_unpend (txids : List Txid) (s : Store) :
    txids.foldl (fun s txid => s.unpend txid) s = s.unpendAll txids := by
  induction txids generalizing s with
  | nil => simp [Store.unpendAll]
  | cons txid rest ih =>
    rw [List.foldl_cons, ih]
    unfold Store.unpend Store.unpendAll
    simp only [List.filter_filter, List.mem_cons, not_or, Bool.decide_and, ne_eq]
    congr 2
    funext id
    exact Bool.and_comm _ _

/-- What is left of a store after records were dropped one by one. -/
theorem foldl_erase (txids : List Txid) (s : Store) :
    (∀ id, (txids.foldl (fun s txid => (s.eraseTx txid).unlist txid) s).txs.get id =
      if id ∈ txids then none else s.txs.get id) ∧
    (txids.foldl (fun s txid => (s.eraseTx txid).unlist txid) s).speedupList =
      s.speedupList.filter (fun id => decide (id ∉ txids)) ∧
    (txids.foldl (fun s txid => (s.eraseTx txid).unlist txid) s).pendingSpeedupParents =
      s.pendingSpeedupParents ∧
    (txids.foldl (fun s txid => (s.eraseTx txid).unlist txid) s).fundingList = s.fundingList ∧
    (txids.foldl (fun s txid => (s.eraseTx txid).unlist txid) s).funding = s.funding := by
  induction txids generalizing s with
  | nil => simp
  | cons txid rest ih =>
    obtain ⟨hget, hlist, hpending, hqueue, hfunding⟩ := ih ((s.eraseTx txid).unlist txid)
    refine ⟨?_, ?_, hpending, hqueue, hfunding⟩
    · intro id
      have herased : ((s.eraseTx txid).unlist txid).txs.get id =
          if id = txid then none else s.txs.get id := s.get_eraseTx txid id
      rw [List.foldl_cons, hget, herased]
      by_cases hid : id = txid <;> by_cases hrest : id ∈ rest <;> simp [hid, hrest]
    · rw [List.foldl_cons, hlist]
      change (s.speedupList.filter _).filter _ = _
      simp only [List.filter_filter, List.mem_cons, not_or, Bool.decide_and, ne_eq]
      congr 1
      funext id
      exact Bool.and_comm _ _

/-! ### Exits -/

/-- A completed removal from the pending list changes the store alone. -/
theorem removePendingSpeedupParent_ok {txid : Txid} {u : Unit}
    (hrun : removePendingSpeedupParent txid ctx w = (.ok u, w')) :
    w'.store = w.store.unpend txid ∧ w'.news = w.news := by
  have hone : OneWrite (fun s => s.unpend txid) w (removePendingSpeedupParent txid ctx w) :=
    removePendingSpeedupParent_oneWrite txid
  rw [hrun] at hone
  exact ⟨hone.store_eq, hone.news_eq⟩

/-- A completed removal of a record changes the store alone. -/
theorem removeTx_ok {txid : Txid} {u : Unit} (hrun : removeTx txid ctx w = (.ok u, w')) :
    w'.store = (w.store.eraseTx txid).unlist txid ∧ w'.news = w.news := by
  refine ⟨removeTx_store hrun, ?_⟩
  obtain ⟨_, w₁, herase, hlist⟩ := Prog.bind_ok.mp hrun
  obtain ⟨-, rfl⟩ := writeStore_ok.mp herase
  have hone : OneWrite (fun s => s.unlist txid) (w.written (w.store.eraseTx txid))
      (removeSpeedupFromList txid ctx (w.written (w.store.eraseTx txid))) :=
    removeSpeedupFromList_oneWrite txid
  rw [hlist] at hone
  exact hone.news_eq

/-- What a completed request leaves, in terms of the eligible transactions. -/
structure Store.Dropped (s s' : Store) (eligible : List Txid) : Prop where
  get_eq : ∀ id, s'.txs.get id = if id ∈ eligible then none else s.txs.get id
  pending : s'.pendingSpeedupParents =
    s.pendingSpeedupParents.filter fun id => decide (id ∉ eligible)
  speedups : s'.speedupList = s.speedupList.filter fun id => decide (id ∉ eligible)
  queue : s'.fundingList = s.fundingList
  funding : s'.funding = s.funding

/-- Dropping the eligible transactions. -/
theorem dropCancelled_ok {eligible : List Txid} {context : String} {trigger : Option ℕ} {u : Unit}
    (hrun : dropCancelled eligible context trigger ctx w = (.ok u, w')) :
    w.store.Dropped w'.store eligible ∧ w'.news = w.news := by
  have hunpend : ∀ txid (w w' : World) u, removePendingSpeedupParent txid ctx w = (.ok u, w') →
      w'.store = w.store.unpend txid ∧ w'.news = w.news :=
    fun _ _ _ _ h => removePendingSpeedupParent_ok h
  have hremove : ∀ txid (w w' : World) u, removeTx txid ctx w = (.ok u, w') →
      w'.store = (w.store.eraseTx txid).unlist txid ∧ w'.news = w.news :=
    fun _ _ _ _ h => removeTx_ok h
  obtain ⟨_, w₁, hnote, hrun⟩ := Prog.bind_ok.mp hrun
  obtain rfl := note_ok.mp hnote
  obtain ⟨_, w₂, hpend, hrun⟩ := Prog.bind_ok.mp hrun
  obtain ⟨_, w₃, hcancel, hdrop⟩ := Prog.bind_ok.mp hrun
  obtain ⟨hstore₂, hnews₂⟩ := forEach_store_ok (f := fun txid s => s.unpend txid) hunpend hpend
  obtain ⟨hstore₃, hnews₃⟩ := monitorCancel_ok hcancel
  obtain ⟨hstore, hnews⟩ :=
    forEach_store_ok (f := fun txid s => (s.eraseTx txid).unlist txid) hremove hdrop
  rw [foldl_unpend] at hstore₂
  obtain ⟨hget, hlist, hpending, hqueue, hfunding⟩ := foldl_erase eligible w₃.store
  rw [← hstore, hstore₃, hstore₂] at hget hlist hpending hqueue hfunding
  exact ⟨⟨hget, hpending, hlist, hqueue, hfunding⟩, (hnews.trans hnews₃).trans hnews₂⟩

/-- A completed request. -/
theorem cancelTransactions_ok {txids : List Txid} {context : String} {trigger : Option ℕ} {u : Unit}
    (hrun : cancelTransactions txids context trigger ctx w = (.ok u, w')) :
    w.store.Dropped w'.store (txids.filter w.store.canCancel) ∧ w.ReportsRefusals w' txids := by
  obtain ⟨eligible, w₁, hclassify, hbody⟩ := Prog.bind_ok.mp hrun
  obtain ⟨heligible, hstore, -, hreports⟩ := eligibleToCancel_filter hclassify
  rw [← heligible]
  cases eligible with
  | nil =>
    obtain ⟨-, rfl⟩ := Prog.pure_ok.mp hbody
    rw [hstore]
    exact ⟨⟨by simp, by simp, by simp, rfl, rfl⟩, hreports⟩
  | cons txid rest =>
    obtain ⟨hdropped, hnews⟩ := dropCancelled_ok hbody
    rw [hstore] at hdropped
    refine ⟨hdropped, ?_⟩
    intro id hid hrefused
    obtain ⟨reason, item, hitem, heq⟩ := hreports id hid hrefused
    rw [← hnews] at hitem
    exact ⟨reason, item, hitem, heq⟩

/-! ### A refused cancellation -/

variable {reason : String}

/-- A loop of writes stops with the backend's error. -/
theorem forEach_avoids {stop : Stop} {xs : List Txid} {body : Txid → Coord Unit}
    (hbody : ∀ txid w, Prog.Avoids stop (body txid) ctx w) :
    Prog.Avoids stop (Prog.forEach xs body) ctx w := by
  induction xs generalizing w with
  | nil => exact Prog.Avoids.pure _
  | cons txid rest ih => exact Prog.Avoids.seq (hbody txid w) fun _ _ => ih

/-- Classifying a request does not ask the monitor. -/
theorem eligibleToCancel_avoids (txids : List Txid) :
    Prog.Avoids (.error (.monitorError reason)) (eligibleToCancel txids) ctx w := by
  induction txids generalizing w with
  | nil => exact Prog.Avoids.pure _
  | cons txid rest ih =>
    apply Prog.Avoids.seq (Prog.Avoids.read _)
    intro refusal w₁
    cases refusal with
    | none => exact Prog.Avoids.seq ih fun _ _ => Prog.Avoids.pure _
    | some refusal => exact Prog.Avoids.seq (addNews_avoids _ (by simp)) fun _ _ => ih

/-- Taking a parent off the pending list does not ask the monitor. -/
theorem removePendingSpeedupParent_avoids (txid : Txid) :
    Prog.Avoids (.error (.monitorError reason)) (removePendingSpeedupParent txid) ctx w := by
  apply Prog.Avoids.seq (Prog.Avoids.read _)
  intro list w₁
  apply Prog.Avoids.ite <;> intro _
  · exact writeStore_avoids (by simp)
  · exact Prog.Avoids.pure _

/-- Dropping a record does not ask the monitor. -/
theorem removeTx_avoids (txid : Txid) :
    Prog.Avoids (.error (.monitorError reason)) (removeTx txid) ctx w := by
  apply Prog.Avoids.seq (writeStore_avoids (by simp))
  intro _ w₁
  apply Prog.Avoids.seq (Prog.Avoids.read _)
  intro list w₂
  apply Prog.Avoids.ite <;> intro _
  · exact writeStore_avoids (by simp)
  · exact Prog.Avoids.pure _

/-- When the monitor refuses a cancellation, the eligible transactions have left the pending list and
nothing else has changed. -/
theorem dropCancelled_refused {eligible : List Txid} {context : String} {trigger : Option ℕ}
    (hrun : dropCancelled eligible context trigger ctx w =
      (.error (.error (.monitorError reason)), w')) :
    w'.store = w.store.unpendAll eligible := by
  have hunpend : ∀ txid (w w' : World) u, removePendingSpeedupParent txid ctx w = (.ok u, w') →
      w'.store = w.store.unpend txid ∧ w'.news = w.news :=
    fun _ _ _ _ h => removePendingSpeedupParent_ok h
  rcases Prog.bind_error.mp hrun with hnote | ⟨_, w₁, hnote, hrun⟩
  · cases hnote
  obtain rfl := note_ok.mp hnote
  rcases Prog.bind_error.mp hrun with hpend | ⟨_, w₂, hpend, hrun⟩
  · have havoid : Prog.Avoids (.error (.monitorError reason))
        (Prog.forEach eligible removePendingSpeedupParent) ctx
        (w.noted (.cancelling eligible w.store)) :=
      forEach_avoids fun _ _ => removePendingSpeedupParent_avoids _
    exact absurd (congrArg Prod.fst hpend) havoid
  obtain ⟨hstore₂, -⟩ := forEach_store_ok (f := fun txid s => s.unpend txid) hunpend hpend
  rw [foldl_unpend] at hstore₂
  rcases Prog.bind_error.mp hrun with hcancel | ⟨_, w₃, hcancel, hdrop⟩
  · rcases Prog.bind_error.mp hcancel with hquery | ⟨_, w₃, -, hnoted⟩
    · obtain rfl := query_error hquery
      exact hstore₂
    · cases hnoted
  · have havoid : Prog.Avoids (.error (.monitorError reason))
        (Prog.forEach eligible removeTx) ctx w₃ :=
      forEach_avoids fun _ _ => removeTx_avoids _
    exact absurd (congrArg Prod.fst hdrop) havoid

/-- A request that the monitor refuses. -/
theorem cancelTransactions_refused {txids : List Txid} {context : String} {trigger : Option ℕ}
    (hrun : cancelTransactions txids context trigger ctx w =
      (.error (.error (.monitorError reason)), w')) :
    w'.store = w.store.unpendAll (txids.filter w.store.canCancel) := by
  rcases Prog.bind_error.mp hrun with hclassify | ⟨eligible, w₁, hclassify, hbody⟩
  · exact absurd (congrArg Prod.fst hclassify) (eligibleToCancel_avoids txids)
  obtain ⟨heligible, hstore, -, -⟩ := eligibleToCancel_filter hclassify
  rw [← heligible, ← hstore]
  cases eligible with
  | nil => cases hbody
  | cons txid rest => exact dropCancelled_refused hbody

/-- A filter keeps a list when it drops none of its members. -/
theorem filter_not_mem_eq_self_iff {ids dropped : List Txid} :
    (ids.filter fun id => decide (id ∉ dropped)) = ids ↔ ∀ id ∈ dropped, id ∉ ids := by
  rw [List.filter_eq_self]
  constructor
  · intro h id hdropped hid
    simpa [hdropped] using h id hid
  · intro h id hid
    simpa using fun hdropped => h id hdropped hid

/-- What a cancel request leaves is what was asked of it exactly when no dropped transaction is also
on the speedup list, for a request that completes, and when no transaction to drop waits for a
speedup, for one that the monitor refuses. -/
theorem cancel_atomic_iff (txids : List Txid) (context : String) (trigger : Option ℕ) (ctx : Ctx)
    (w : World) :
    (∀ w', cancel (.transactions txids context trigger) ctx w = (.ok (), w') →
      (w.store.CancelsExactly w'.store txids ∧ w.ReportsRefusals w' txids ↔
        ∀ txid ∈ txids, w.store.canCancel txid = true → txid ∉ w.store.speedupList)) ∧
    (∀ reason w', cancel (.transactions txids context trigger) ctx w =
        (.error (.error (.monitorError reason)), w') →
      (w'.store.txs = w.store.txs ∧
          w'.store.pendingSpeedupParents = w.store.pendingSpeedupParents ↔
        ∀ txid ∈ txids, w.store.canCancel txid = true →
          txid ∉ w.store.pendingSpeedupParents)) := by
  have hall : ∀ P : Txid → Prop, (∀ id ∈ txids.filter w.store.canCancel, P id) ↔
      ∀ txid ∈ txids, w.store.canCancel txid = true → P txid := by
    intro P
    simp only [List.mem_filter, and_imp]
  constructor
  · intro w' hrun
    obtain ⟨hdropped, hreports⟩ := cancelTransactions_ok hrun
    rw [← hall, ← filter_not_mem_eq_self_iff, ← hdropped.speedups]
    constructor
    · rintro ⟨hexact, -⟩
      exact hexact.speedups
    · intro hlist
      refine ⟨⟨?_, ?_, ?_, hlist, hdropped.queue, hdropped.funding⟩, hreports⟩
      · intro txid hid hcan
        rw [hdropped.get_eq, if_pos (List.mem_filter.mpr ⟨hid, hcan⟩)]
      · intro txid hkept
        rw [hdropped.get_eq, if_neg]
        intro hid
        obtain ⟨hin, hcan⟩ := List.mem_filter.mp hid
        rw [hkept hin] at hcan
        cases hcan
      · rw [hdropped.pending]
        congr 1
        funext id
        simp [List.mem_filter]
  · intro reason w' hrun
    rw [cancelTransactions_refused hrun, ← hall, ← filter_not_mem_eq_self_iff]
    exact ⟨fun h => h.2, fun h => ⟨rfl, h⟩⟩

/-- A parent is registered for dispatch with a speedup. -/
def pendingCalls : List Call := (growingChainCalls.drop 1).take 1

/-- The answers to the cancellation of the example run: the monitor refuses it. -/
def refusingAnswers : Answers :=
  { (sampleView 100 [] []).answers fixedBuilder 10 0 with cancel := fun _ _ => .error "refused" }

/-- A cancellation that the monitor refuses takes a waiting parent off the pending list. -/
theorem exists_cancel_not_atomic :
    ∃ (cfg : BitcoinSettings) (calls : List Call) (answers : Answers) (txid : Txid) (reason : String),
      cfg.validate = .ok () ∧
      OkRun cfg calls World.init (runCalls cfg calls World.init) ∧
      (cancel (.transactions [txid] "parent" none) ⟨cfg, answers⟩
        (runCalls cfg calls World.init)).1 = .error (.error (.monitorError reason)) ∧
      (runCalls cfg calls World.init).store.pendingSpeedupParents = [txid] ∧
      (cancel (.transactions [txid] "parent" none) ⟨cfg, answers⟩
        (runCalls cfg calls World.init)).2.store.pendingSpeedupParents = [] :=
  ⟨defaultSettings, pendingCalls, refusingAnswers, sampleParent.computeTxid, "refused",
    BitcoinSettings.validate_default _, okRun_runCalls (by decide +kernel), by decide +kernel,
    by decide +kernel, by decide +kernel⟩

end BitcoinCoordinator
