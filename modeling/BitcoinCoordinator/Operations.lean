import BitcoinCoordinator.Traces

/-!
# Operations of several writes

A computation takes steps: plain moves, and operations of several writes carried out whole. When it
stops, the last operation may be torn. Whole or torn, an operation is a chain of moves, so that what
every move keeps holds in whatever world a computation leaves.
-/

namespace BitcoinCoordinator

open Foundation

/-- A computation started in a world takes steps only. -/
abbrev Stepwise {α : Type} (tidy : Prop) (phase : Phase) (m : Coord α) (ctx : Ctx) (w : World) :
    Prop :=
  Prog.Walks (Step ctx tidy phase) (Torn ctx tidy phase) m ctx w

/-- A computation started in a world takes moves only. -/
abbrev Traced {α : Type} (tidy : Prop) (phase : Phase) (m : Coord α) (ctx : Ctx) (w : World) : Prop :=
  Prog.Reaches (Move ctx tidy phase) m ctx w

variable {α β : Type} {ctx : Ctx} {tidy : Prop} {phase : Phase} {w : World}

/-- Plain moves are steps. -/
theorem stepwise_of_plainly {m : Coord α} (h : Plainly tidy phase m ctx w) :
    Stepwise tidy phase m ctx w :=
  Prog.Walks.of_reaches (Prog.Reaches.mono h fun _ _ hplain => Step.plain hplain)

/-- Quiet moves are steps. -/
theorem stepwise_of_calm {m : Coord α} (h : Calm m ctx w) : Stepwise tidy phase m ctx w :=
  stepwise_of_plainly (plainly_of_calm h)

/-- Plain moves are moves. -/
theorem traced_of_plainly {m : Coord α} (h : Plainly tidy phase m ctx w) :
    Traced tidy phase m ctx w :=
  Prog.Reaches.mono h fun _ _ hplain => Move.plain hplain

/-- Quiet moves are moves. -/
theorem traced_of_calm {m : Coord α} (h : Calm m ctx w) : Traced tidy phase m ctx w :=
  traced_of_plainly (plainly_of_calm h)

/-- Reading the store takes no step and hands on what is there. -/
theorem walks_read {step torn : World → World → Prop} {f : Store → α} {k : α → Coord β}
    (h : Prog.Walks step torn (k (f w.store)) ctx w) :
    Prog.Walks step torn (readStore f >>= k) ctx w := ⟨h.done, h.stopped⟩

/-- Reading the settings takes no step. -/
theorem walks_settings {step torn : World → World → Prop} {k : BitcoinSettings → Coord β}
    (h : Prog.Walks step torn (k ctx.settings) ctx w) :
    Prog.Walks step torn (settings >>= k) ctx w := ⟨h.done, h.stopped⟩

/-- A write that is a part of an operation is one move. -/
theorem writeStore_traced {f : Store → Store}
    (h : Part ctx tidy phase w (w.written (f w.store))) :
    Traced tidy phase (writeStore f) ctx w :=
  writeStore_reaches (Move.plain (Plain.quiet Quiet.asked)) (Move.part h)

/-! ### Operations of several writes -/

/-- Storing a speedup that was just built. -/
theorem insertSpeedup_stepwise {tx : CoordinatedTx} (htx : Insertable ctx w tx) :
    Stepwise tidy .build (insertSpeedup tx) ctx w :=
  Prog.Walks.whole (fun _ _ hrun => Step.whole (Whole.inserted tx htx hrun))
    fun stop _ hrun => ⟨stop, Whole.inserted tx htx hrun⟩

/-- Swapping a settled speedup into the funding queue. -/
theorem replaceFundingOnFinalize_stepwise {txid : Txid}
    (hterminal : tidy → ∀ tx, w.store.txs.get txid = some tx → tx.state.isTerminal) :
    Stepwise tidy .settle (replaceFundingOnFinalize txid) ctx w :=
  Prog.Walks.whole (fun _ _ hrun => Step.whole (Whole.swapped txid hterminal hrun))
    fun stop _ hrun => ⟨stop, Whole.swapped txid hterminal hrun⟩

/-- Storing a client transaction. -/
theorem storeRegistered_stepwise {tx : CoordinatedTx} (hfresh : w.store.txs.get tx.txid = none)
    (hkind : tx.speedup? = none) (hnew : tx.IsNew) :
    Stepwise tidy .serve (storeRegistered tx) ctx w :=
  Prog.Walks.whole (fun _ _ hrun => Step.whole (Whole.registered tx hfresh hkind hnew hrun))
    fun stop _ hrun => ⟨stop, Whole.registered tx hfresh hkind hnew hrun⟩

/-- Appending a funding record. -/
theorem appendFunding_stepwise (utxo : Utxo) : Stepwise tidy .serve (appendFunding utxo) ctx w :=
  Prog.Walks.whole (fun _ _ hrun => Step.whole (Whole.funded utxo hrun))
    fun stop _ hrun => ⟨stop, Whole.funded utxo hrun⟩

/-- Dropping a cancelled record. -/
theorem removeTx_stepwise {txid : Txid} (hcancel : w.store.Cancellable txid)
    (hpending : txid ∉ w.store.pendingSpeedupParents) :
    Stepwise tidy .serve (removeTx txid) ctx w :=
  Prog.Walks.whole (fun _ _ hrun => Step.whole (Whole.dropped txid hcancel hpending hrun))
    fun stop _ hrun => ⟨stop, Whole.dropped txid hcancel hpending hrun⟩

/-- A transaction that is not tracked, or settled. -/
def IsSettledAt (txid : Txid) (w : World) : Prop :=
  ∀ tx, w.store.txs.get txid = some tx → tx.state.isTerminal

/-- A completed removal drops the record and its entry in the speedup list. -/
theorem removeTx_store {txid : Txid} {w' : World} {u : Unit}
    (hrun : removeTx txid ctx w = (.ok u, w')) :
    w'.store = (w.store.eraseTx txid).unlist txid := by
  obtain ⟨_, w₁, herase, hlist⟩ := Prog.bind_ok.mp hrun
  obtain ⟨-, rfl⟩ := writeStore_ok.mp herase
  have hone : OneWrite (fun s => s.unlist txid) (w.written (w.store.eraseTx txid))
      (removeSpeedupFromList txid ctx (w.written (w.store.eraseTx txid))) :=
    removeSpeedupFromList_oneWrite txid
  rw [hlist] at hone
  exact hone.store_eq

/-- A store after some of its records were dropped. -/
structure Store.Shrunk (s s' : Store) : Prop where
  records : ∀ id tx, s'.txs.get id = some tx → s.txs.get id = some tx
  pending : s'.pendingSpeedupParents = s.pendingSpeedupParents
  covered : s'.liveCovered ⊆ s.liveCovered

/-- A store has shrunk from one that has. -/
theorem Store.Shrunk.trans {s s' s'' : Store} (h : s.Shrunk s') (h' : s'.Shrunk s'') :
    s.Shrunk s'' where
  records := fun id tx hget => h.records id tx (h'.records id tx hget)
  pending := h'.pending.trans h.pending
  covered := fun _ hid => h.covered (h'.covered hid)

/-- Dropping a record leaves only records that were there. -/
theorem Store.shrunk_erase (s : Store) (txid : Txid) : s.Shrunk ((s.eraseTx txid).unlist txid) := by
  have hrecords : ∀ id tx, ((s.eraseTx txid).unlist txid).txs.get id = some tx →
      s.txs.get id = some tx := by
    intro id tx hget
    change (s.eraseTx txid).txs.get id = some tx at hget
    rw [Store.get_eraseTx] at hget
    split at hget
    · cases hget
    · exact hget
  refine ⟨hrecords, rfl, ?_⟩
  intro id hid
  obtain ⟨tx, htx, hcovers⟩ := List.mem_flatMap.mp hid
  obtain ⟨hordered, hlive⟩ := List.mem_filter.mp htx
  obtain ⟨listed, hlisted, hget⟩ := List.mem_filterMap.mp hordered
  apply List.mem_flatMap.mpr
  refine ⟨tx, List.mem_filter.mpr ⟨List.mem_filterMap.mpr ⟨listed, ?_, hrecords listed tx hget⟩,
    hlive⟩, hcovers⟩
  exact (List.mem_filter.mp hlisted).1

/-- Evicting one record. -/
theorem evictStaleTx_stepwise {n : ℕ} {height : BlockHeight} (hheight : ctx.answers.monitorHeight n = .ok height)
    {pending covered : List Txid} {tx : CoordinatedTx}
    (hstale : ¬ (tx.isNeedsSpeedup ∧ (tx.txid ∈ pending ∨ tx.txid ∈ covered)) → w.store.Evictable tx.txid) :
    Stepwise tidy .settle (evictStaleTx height pending covered tx) ctx w := by
  apply walks_settings
  cases hsettled : tx.settledBlockHeight with
  | none => exact Prog.Walks.pure _
  | some settledHeight =>
    apply Prog.Walks.ite
    · intro hdeep
      have haged : ctx.Buries tx := ⟨settledHeight, n, height, hsettled, hheight, hdeep⟩
      apply Prog.Walks.ite
      · intro _
        exact Prog.Walks.pure _
      · intro hguard
        apply Prog.Walks.bind (stepwise_of_calm (note_calm (by trivial)))
        intro _ w₁ hnote
        obtain rfl := note_ok.mp hnote
        apply Prog.Walks.seq
        · exact Prog.Walks.whole
            (fun _ _ hrun => Step.whole (Whole.evicted tx rfl (hstale hguard) haged hrun))
            fun stop _ hrun => ⟨stop, Whole.evicted tx rfl (hstale hguard) haged hrun⟩
        intro _ _
        exact stepwise_of_calm (publish_calm _)
    · intro _
      exact Prog.Walks.pure _

/-- Publishing leaves the store alone. -/
theorem publish_store {news : CoordinatorNews} {w' : World} {u : Unit}
    (hrun : (do let _ ← addNews news; pure () : Coord Unit) ctx w = (.ok u, w')) :
    w'.store = w.store := by
  obtain ⟨_, w₁, hadd, hpure⟩ := Prog.bind_ok.mp hrun
  obtain ⟨-, rfl⟩ := Prog.pure_ok.mp hpure
  obtain ⟨all, w₂, hread, hbody⟩ := Prog.bind_ok.mp hadd
  obtain ⟨-, rfl⟩ := Prog.read_ok.mp hread
  rcases Prog.ite_ok.mp hbody with ⟨-, hpure⟩ | ⟨-, hwrite⟩
  · obtain ⟨-, rfl⟩ := Prog.pure_ok.mp hpure
    rfl
  · obtain ⟨_, w₃, hwrite, hpure⟩ := Prog.bind_ok.mp hwrite
    obtain ⟨-, rfl⟩ := Prog.pure_ok.mp hpure
    obtain ⟨-, rfl⟩ := writeNews_ok.mp hwrite
    rfl

/-- Evicting one record leaves only records that were there. -/
theorem evictStaleTx_shrunk {height : BlockHeight} {pending covered : List Txid}
    {tx : CoordinatedTx} {w' : World} {u : Unit}
    (hrun : evictStaleTx height pending covered tx ctx w = (.ok u, w')) :
    w.store.Shrunk w'.store := by
  have hsame : w.store.Shrunk w.store := ⟨fun _ _ hget => hget, rfl, fun _ hid => hid⟩
  obtain ⟨cfg, w₁, hcfg, hbody⟩ := Prog.bind_ok.mp hrun
  obtain ⟨-, rfl⟩ := settings_ok.mp hcfg
  clear hrun hcfg
  generalize tx.settledBlockHeight = settled at hbody
  cases settled with
  | none =>
    obtain ⟨-, rfl⟩ := Prog.pure_ok.mp hbody
    exact hsame
  | some settledHeight =>
    rcases Prog.ite_ok.mp hbody with ⟨-, hold⟩ | ⟨-, hpure⟩
    · rcases Prog.ite_ok.mp hold with ⟨-, hpure⟩ | ⟨-, hevict⟩
      · obtain ⟨-, rfl⟩ := Prog.pure_ok.mp hpure
        exact hsame
      · obtain ⟨_, w₂, hnote, hrest⟩ := Prog.bind_ok.mp hevict
        obtain rfl := note_ok.mp hnote
        obtain ⟨_, w₃, hremove, hnews⟩ := Prog.bind_ok.mp hrest
        rw [publish_store hnews, removeTx_store hremove]
        exact w₁.store.shrunk_erase tx.txid
    · obtain ⟨-, rfl⟩ := Prog.pure_ok.mp hpure
      exact hsame

/-- Evicting the stale records. -/
theorem evictStaleTxs_stepwise {n : ℕ} {height : BlockHeight} (hheight : ctx.answers.monitorHeight n = .ok height) :
    Stepwise tidy .settle (evictStaleTxs height) ctx w := by
  apply walks_read
  apply walks_read
  apply walks_read
  apply Prog.Walks.forEach_inv fun rest w₁ =>
    (∀ tx ∈ rest, w.store.txs.get tx.txid = some tx ∧ tx.state.isTerminal) ∧ w.store.Shrunk w₁.store
  · rintro tx rest w₁ ⟨hrest, hshrunk⟩
    obtain ⟨hget, hterminal⟩ := hrest tx List.mem_cons_self
    apply evictStaleTx_stepwise hheight
    intro hguard cur hcur
    have hsame := hshrunk.records _ _ hcur
    rw [hget] at hsame
    cases hsame
    refine ⟨hterminal, fun hneeds => ⟨fun hpending => ?_, fun hcovered => ?_⟩⟩
    · rw [hshrunk.pending] at hpending
      exact hguard ⟨hneeds, Or.inl hpending⟩
    · exact hguard ⟨hneeds, Or.inr (hshrunk.covered hcovered)⟩
  · rintro tx rest w₁ w₂ u ⟨hrest, hshrunk⟩ hrun
    exact ⟨fun later hlater => hrest later (List.mem_cons_of_mem tx hlater),
      hshrunk.trans (evictStaleTx_shrunk hrun)⟩
  · refine ⟨?_, fun _ _ hget => hget, rfl, fun _ hid => hid⟩
    intro tx htx
    obtain ⟨hvalues, hterminal⟩ := List.mem_filter.mp htx
    exact ⟨Store.mem_values.mp hvalues, hterminal⟩

/-- The world after a speedup was stored and before it is listed. -/
def World.holding (w : World) (tx : CoordinatedTx) : World :=
  (w.written (w.store.setTx tx)).noted (.inserted tx w.store)

/-- How storing and listing a speedup can end. -/
inductive Inserting (tx : CoordinatedTx) (w : World) : Except Stop Unit × World → Prop where
  | refused (stop : Stop) : Inserting tx w (.error stop, w.asked)
  | unlisted (stop : Stop) : Inserting tx w (.error stop, (w.holding tx).asked)
  | relisted (hlisted : tx.txid ∈ w.store.speedupList) :
      Inserting tx w (.ok (), (w.holding tx).noted (.recorded tx.txid))
  | listed : Inserting tx w
      (.ok (), ((w.holding tx).written ((w.store.setTx tx).list tx.txid)).noted (.recorded tx.txid))

/-- Storing and listing a speedup ends in one of these ways. -/
theorem insertSpeedup_inserting (tx : CoordinatedTx) :
    Inserting tx w (insertSpeedup tx ctx w) := by
  cases hstore : ctx.answers.storage w.clock with
  | error e =>
    have hrun : insertSpeedup tx ctx w = (.error (.error (.storageBackendError e)), w.asked) := by
      apply Prog.bind_of_error
      change (insertTx tx >>= fun _ => note fun _ => .inserted tx w.store) ctx w = _
      apply Prog.bind_of_error
      simp [insertTx, writeStore, hstore]
    rw [hrun]
    exact Inserting.refused _
  | ok u =>
    have hput : putTx (.inserted tx) tx ctx w = (.ok (), w.holding tx) := by
      have hwrite : insertTx tx ctx w = (.ok (), w.written (w.store.setTx tx)) := by
        simp [insertTx, writeStore, hstore]
      change (insertTx tx >>= fun _ => note fun _ => .inserted tx w.store) ctx w = _
      exact Prog.bind_of_ok hwrite
    have hrun : insertSpeedup tx ctx w = (do
        appendToSpeedupList tx.txid
        note fun _ => .recorded tx.txid : Coord Unit) ctx (w.holding tx) := Prog.bind_of_ok hput
    have happend : OneWrite (fun s => s.list tx.txid) (w.holding tx)
        (appendToSpeedupList tx.txid ctx (w.holding tx)) := appendToSpeedupList_oneWrite tx.txid
    rw [hrun]
    generalize hresult : appendToSpeedupList tx.txid ctx (w.holding tx) = result at happend
    cases happend with
    | same h =>
      rw [Prog.bind_of_ok hresult]
      apply Inserting.relisted
      by_contra hout
      change (w.store.setTx tx).list tx.txid = w.store.setTx tx at h
      have hlist : ((w.store.setTx tx).list tx.txid).speedupList = w.store.speedupList ++ [tx.txid] := by
        have hout' : tx.txid ∉ (w.store.setTx tx).speedupList := hout
        unfold Store.list
        rw [if_neg hout']
        rfl
      rw [h] at hlist
      change w.store.speedupList = _ at hlist
      simp at hlist
    | taken =>
      rw [Prog.bind_of_ok hresult]
      exact Inserting.listed
    | refused stop =>
      rw [Prog.bind_of_error hresult]
      exact Inserting.unlisted stop

/-! ### Steps are chains of moves -/

/-- A write and its note, as one part of an operation. -/
theorem putTx_traced {event : Store → Event} {tx : CoordinatedTx}
    (h : Part ctx tidy phase w ((w.written (w.store.setTx tx)).noted (event w.store))) :
    Traced tidy phase (putTx event tx) ctx w :=
  putTx_reaches (Move.plain (Plain.quiet Quiet.asked)) (Move.part h)

/-- Taking a settled transaction off the speedup list. -/
theorem removeSpeedupFromList_traced {txid : Txid} (hphase : phase ≠ .build)
    (hterminal : tidy → IsSettledAt txid w) :
    Traced tidy phase (removeSpeedupFromList txid) ctx w := by
  apply reaches_read
  apply Prog.Reaches.ite
  · intro _
    exact writeStore_traced (Part.unlisted txid hphase hterminal)
  · intro _
    exact Prog.Reaches.pure _

/-- Storing and listing a speedup. -/
theorem insertSpeedup_traced {tx : CoordinatedTx} (htx : Insertable ctx w tx) :
    Traced tidy .build (insertSpeedup tx) ctx w := by
  have hlist : ∀ w, Traced tidy .build (appendToSpeedupList tx.txid) ctx w := by
    intro w
    apply reaches_read
    apply Prog.Reaches.ite
    · intro _
      exact Prog.Reaches.pure _
    · intro hout
      apply writeStore_traced
      have hlisted : ({ w.store with speedupList := w.store.speedupList ++ [tx.txid] } : Store) =
          w.store.list tx.txid := (if_neg hout).symm
      rw [hlisted]
      exact Part.listed tx.txid
  apply Prog.Reaches.seq (putTx_traced (Part.inserted tx htx))
  intro _ w₁
  apply Prog.Reaches.seq (hlist w₁)
  intro _ _
  exact traced_of_calm (note_calm (by trivial))

/-- Dropping a record and its entry in the speedup list. -/
theorem removeTx_traced {txid : Txid} (hphase : phase ≠ .build)
    (herase : Part ctx tidy phase w (w.written (w.store.eraseTx txid))) :
    Traced tidy phase (removeTx txid) ctx w := by
  apply Prog.Reaches.bind (writeStore_traced herase)
  intro _ w₁ hrun
  obtain ⟨-, rfl⟩ := writeStore_ok.mp hrun
  apply removeSpeedupFromList_traced hphase
  intro _ tx hget
  change (w.store.eraseTx txid).txs.get txid = some tx at hget
  rw [Store.get_eraseTx, if_pos rfl] at hget
  cases hget

/-- Storing a client transaction and putting it on the pending list. -/
theorem storeRegistered_traced {tx : CoordinatedTx} (hfresh : w.store.txs.get tx.txid = none)
    (hkind : tx.speedup? = none) (hnew : tx.IsNew) :
    Traced tidy .serve (storeRegistered tx) ctx w := by
  have hpend : ∀ w, Traced tidy .serve (addPendingSpeedupParent tx.txid) ctx w := by
    intro w
    apply reaches_read
    apply Prog.Reaches.ite
    · intro _
      exact Prog.Reaches.pure _
    · intro hout
      apply writeStore_traced
      have hpended : ({ w.store with
          pendingSpeedupParents := w.store.pendingSpeedupParents ++ [tx.txid] } : Store) =
            w.store.pend tx.txid := (if_neg hout).symm
      rw [hpended]
      exact Part.pended tx.txid
  have hnote : Traced tidy .serve (note (.registering tx)) ctx w :=
    Relation.ReflTransGen.single (Move.plain (Plain.registering tx hfresh))
  apply Prog.Reaches.bind hnote
  intro _ w₁ hrun
  obtain rfl := note_ok.mp hrun
  have hstored : Part ctx tidy .serve (w.noted (.registering tx w.store))
      ((w.noted (.registering tx w.store)).written (w.store.setTx tx)) :=
    Part.registered tx hfresh hkind hnew rfl
  apply Prog.Reaches.seq (writeStore_traced hstored)
  intro _ w₂
  apply Prog.Reaches.ite
  · intro _
    exact hpend w₂
  · intro _
    exact Prog.Reaches.pure _

/-- A write of the funding queue. -/
theorem writeQueue_traced {f : Store → Store} (hphase : phase ≠ .build)
    (h : QueueWrite w.store (f w.store)) : Traced tidy phase (writeStore f) ctx w :=
  writeStore_traced (Part.queue _ hphase h)

/-- Appending a funding record. -/
theorem appendFunding_traced (utxo : Utxo) : Traced tidy .serve (appendFunding utxo) ctx w := by
  apply Prog.Reaches.seq (traced_of_calm (note_calm (by trivial)))
  intro _ _
  apply Prog.Reaches.seq (writeQueue_traced (by simp) (QueueWrite.funded _ _))
  intro _ _
  apply reaches_read
  apply Prog.Reaches.ite
  · intro _
    exact Prog.Reaches.pure _
  · intro _
    exact writeQueue_traced (by simp) (QueueWrite.queued _)

/-- Dropping queue entries leaves the records alone. -/
theorem dropQueued_txs {positions : List ℕ} {list list' : List OutPoint} {w' : World}
    (hrun : dropQueued positions list ctx w = (.ok list', w')) : w'.store.txs = w.store.txs := by
  induction positions generalizing list w with
  | nil =>
    obtain ⟨-, rfl⟩ := Prog.pure_ok.mp hrun
    rfl
  | cons idx rest ih =>
    unfold dropQueued at hrun
    generalize list[idx]? = found at hrun
    cases found with
    | none => exact (Prog.stop_ok.mp hrun).elim
    | some removed =>
      obtain ⟨_, w₁, hwrite, hrest⟩ := Prog.bind_ok.mp hrun
      obtain ⟨-, rfl⟩ := writeStore_ok.mp hwrite
      have hsame := ih hrest
      exact hsame

/-- Dropping queue entries. -/
theorem dropQueued_traced (hphase : phase ≠ .build) (positions : List ℕ) (list : List OutPoint) :
    Traced tidy phase (dropQueued positions list) ctx w := by
  induction positions generalizing list w with
  | nil => exact Prog.Reaches.pure _
  | cons idx rest ih =>
    unfold dropQueued
    split
    · exact Prog.Reaches.stop _
    · apply Prog.Reaches.seq (writeQueue_traced hphase (QueueWrite.unfunded _))
      intro _ _
      exact ih _

/-- Replacing queue entries by the change output of a settled transaction. -/
theorem swapQueued_traced {txid : Txid} (hphase : phase ≠ .build)
    (hterminal : tidy → IsSettledAt txid w) (change : Utxo) (spent : Bool) (positions : List ℕ)
    (list : List OutPoint) :
    Traced tidy phase (swapQueued txid change spent positions list) ctx w := by
  unfold swapQueued
  split
  · exact Prog.Reaches.pure _
  · apply Prog.Reaches.bind (dropQueued_traced hphase _ _)
    intro kept w₁ hdrop
    apply Prog.Reaches.bind (writeQueue_traced hphase (QueueWrite.funded _ _))
    intro _ w₂ hfund
    obtain ⟨-, rfl⟩ := writeStore_ok.mp hfund
    apply Prog.Reaches.bind (writeQueue_traced hphase (QueueWrite.queued _))
    intro _ w₃ hqueue
    obtain ⟨-, rfl⟩ := writeStore_ok.mp hqueue
    apply removeSpeedupFromList_traced hphase
    intro htidy tx hget
    change w₁.store.txs.get txid = some tx at hget
    rw [dropQueued_txs hdrop] at hget
    exact hterminal htidy tx hget

/-- Swapping a settled speedup into the queue. -/
theorem replaceFundingOnFinalize_traced {txid : Txid} (hphase : phase ≠ .build)
    (hterminal : tidy → IsSettledAt txid w) :
    Traced tidy phase (replaceFundingOnFinalize txid) ctx w := by
  apply Prog.Reaches.bind (traced_of_calm (note_calm (by trivial)))
  intro _ w₁ hnote
  obtain rfl := note_ok.mp hnote
  apply reaches_read
  split
  · exact Prog.Reaches.pure _
  · next tx hget =>
    split
    · exact Prog.Reaches.stop _
    · exact Prog.Reaches.pure _
    · apply Prog.Reaches.bind (Prog.Reaches.ofExcept _)
      intro kind w₂ hkind
      obtain ⟨-, rfl⟩ := Prog.ofExcept_ok.mp hkind
      apply reaches_read
      have hid : tx.txid = txid := w.store.keyed _ _ hget
      have hsettled : tidy → IsSettledAt txid (w.noted (.finalizing txid w.store)) := hterminal
      rw [hid]
      exact swapQueued_traced hphase hsettled _ _ _ _

/-- An operation is a chain of moves, whole or torn. -/
theorem Whole.moves {r : Except Stop Unit} {w' : World} (h : Whole ctx tidy r phase w w') :
    Relation.ReflTransGen (Move ctx tidy phase) w w' := by
  have hend : ∀ {phase : Phase} {m : Coord Unit} {w : World}, m ctx w = (r, w') →
      Traced tidy phase m ctx w → Relation.ReflTransGen (Move ctx tidy phase) w w' := by
    intro phase m w hrun htraced
    unfold Traced Prog.Reaches at htraced
    rw [hrun] at htraced
    exact htraced
  cases h with
  | inserted tx htx hrun => exact hend hrun (insertSpeedup_traced htx)
  | evicted tx hnote hstale haged hrun =>
    exact hend hrun (removeTx_traced (by simp) (Part.evicted tx hnote hstale haged))
  | dropped txid hcancel hpending hrun =>
    exact hend hrun (removeTx_traced (by simp) (Part.dropped txid hcancel hpending))
  | registered tx hfresh hkind hnew hrun =>
    exact hend hrun (storeRegistered_traced hfresh hkind hnew)
  | funded utxo hrun => exact hend hrun (appendFunding_traced utxo)
  | swapped txid hterminal hrun =>
    exact hend hrun (replaceFundingOnFinalize_traced (by simp) hterminal)

/-- A step is a chain of moves. -/
theorem Step.moves {w' : World} (h : Step ctx tidy phase w w') :
    Relation.ReflTransGen (Move ctx tidy phase) w w' := by
  cases h with
  | plain hplain => exact Relation.ReflTransGen.single (Move.plain hplain)
  | whole hwhole => exact hwhole.moves

/-- A computation that takes steps takes moves. -/
theorem Stepwise.traced {m : Coord α} (h : Stepwise tidy phase m ctx w) :
    Traced tidy phase m ctx w := by
  apply h.reaches (fun _ _ hstep => hstep.moves)
  rintro a b ⟨stop, htorn⟩
  exact htorn.moves

/-- A property that every move keeps holds after a computation that takes steps. -/
theorem Stepwise.keeps {I : World → Prop} {m : Coord α} {a : Except Stop α} {w' : World}
    (h : Stepwise tidy phase m ctx w)
    (hmove : ∀ w w', I w → Move ctx tidy phase w w' → I w') (hw : I w)
    (hrun : m ctx w = (a, w')) : I w' := by
  have hkept := h.traced.keeps hmove hw
  rw [hrun] at hkept
  exact hkept

/-! ### What every move keeps -/

/-- Every move leaves the history behind it. -/
theorem Move.log_suffix {w' : World} (h : Move ctx tidy phase w w') : w.log <:+ w'.log := by
  rcases h with hplain | hpart
  · cases hplain with
    | quiet hquiet =>
      rcases hquiet.log_eq with hlog | ⟨e, -, hlog⟩ | hlog
      · exact hlog ▸ List.suffix_rfl
      · rw [hlog]
        exact List.suffix_cons _ _
      · rw [hlog]
        exact List.suffix_cons _ _
    | vanished | rewrote => exact (List.suffix_cons _ _).trans (List.suffix_cons _ _)
    | _ => exact List.suffix_cons _ _
  · cases hpart with
    | inserted => exact (List.suffix_cons _ _).trans (List.suffix_cons _ _)
    | _ => exact List.suffix_cons _ _

/-- The store of a world is the one before the move, or the move wrote it over that one. -/
theorem Move.store_eq {w' : World} (h : Move ctx tidy phase w w') :
    w'.store = w.store ∨ .wrote w.store w'.store ∈ w'.log := by
  rcases h with hplain | hpart
  · cases hplain with
    | quiet hquiet =>
      cases hquiet with
      | wrote s hwrite => exact Or.inr List.mem_cons_self
      | prepended txids hneeds hrequeue => exact Or.inr List.mem_cons_self
      | _ => exact Or.inl rfl
    | changed => exact Or.inr List.mem_cons_self
    | vanished | rewrote => exact Or.inr (List.mem_cons_of_mem _ List.mem_cons_self)
    | _ => exact Or.inl rfl
  · cases hpart with
    | inserted => exact Or.inr (List.mem_cons_of_mem _ List.mem_cons_self)
    | _ => exact Or.inr List.mem_cons_self

/-- A version once reached has been reached. -/
theorem World.HasVersion.move {s : Store} {w' : World} (h : w.HasVersion s)
    (hmove : Move ctx tidy phase w w') : w'.HasVersion s := by
  rcases h with rfl | ⟨after, hwrote⟩
  · rcases hmove.store_eq with hstore | hwrote
    · exact Or.inl hstore.symm
    · exact Or.inr ⟨_, hwrote⟩
  · exact Or.inr ⟨after, hmove.log_suffix.subset hwrote⟩

/-- A version written over since the last registration is one of the run. -/
theorem World.HasRecent.hasVersion {s : Store} (h : w.HasRecent s) : w.HasVersion s := by
  have hwrote : ∀ {log : List Event}, s ∈ recentVersions log → ∃ after, .wrote s after ∈ log := by
    intro log hmem
    induction log with
    | nil => cases hmem
    | cons e older ih =>
      cases e with
      | registering tx s' => cases hmem
      | wrote before after =>
        rcases List.mem_cons.mp hmem with rfl | hold
        · exact ⟨after, List.mem_cons_self⟩
        · obtain ⟨after', hafter⟩ := ih hold
          exact ⟨after', List.mem_cons_of_mem _ hafter⟩
      | _ =>
        obtain ⟨after', hafter⟩ := ih hmem
        exact ⟨after', List.mem_cons_of_mem _ hafter⟩
  exact h.imp id hwrote

/-- A noted moment other than a registration leaves the recent versions. -/
theorem World.HasRecent.noted {s : Store} {e : Event} (h : w.HasRecent s)
    (he : ∀ tx s', e ≠ .registering tx s') : (w.noted e).HasRecent s := by
  refine h.imp id fun hmem => ?_
  change s ∈ recentVersions (e :: w.log)
  cases e with
  | registering tx s' => exact absurd rfl (he tx s')
  | wrote before after => exact List.mem_cons_of_mem _ hmem
  | _ => exact hmem

/-- A write adds a recent version. -/
theorem World.HasRecent.written {s : Store} (h : w.HasRecent s) (s' : Store) :
    (w.written s').HasRecent s := by
  right
  rcases h with rfl | hmem
  · exact List.mem_cons_self
  · exact List.mem_cons_of_mem _ hmem

/-- What settles leaves the recent versions. -/
theorem World.HasRecent.settle {s : Store} {w' : World} (h : w.HasRecent s)
    (hmove : Move ctx tidy .settle w w') : w'.HasRecent s := by
  rcases hmove with hplain | hpart
  · cases hplain with
    | quiet hquiet =>
      cases hquiet with
      | asked => exact h
      | stamped now => exact h
      | published items => exact h
      | noted e hremark => exact h.noted fun tx s' heq => by rw [heq] at hremark; exact hremark
      | wrote s' hwrite => exact h.written s'
      | prepended txids _ _ => exact h.written _
    | changed => exact h.written _
    | vanished | rewrote => exact (h.written _).noted (by simp)
    | _ => exact h.noted (by simp)
  · cases hpart with
    | _ => exact h.written _

/-- What was stored once stays so while a tick settles. -/
theorem WasStored.settle {copy : CoordinatedTx} {w' : World} (h : WasStored copy w)
    (hmove : Move ctx tidy .settle w w') : WasStored copy w' := by
  obtain ⟨s, hrecent, hget⟩ := h
  exact ⟨s, hrecent.settle hmove, hget⟩

/-- An element that is not in a list is appended without making a duplicate. -/
theorem nodup_append_singleton {xs : List α} {x : α} (h : xs.Nodup) (hout : x ∉ xs) :
    (xs ++ [x]).Nodup := by
  apply List.nodup_append.mpr
  refine ⟨h, by simp, ?_⟩
  rintro a ha b hb rfl
  rw [List.mem_singleton.mp hb] at ha
  exact hout ha

/-- The speedup list of a world holds no duplicates. -/
def IsTidy (w : World) : Prop := w.store.speedupList.Nodup

/-- Every move keeps the speedup list free of duplicates. -/
theorem IsTidy.move {w' : World} (h : IsTidy w) (hmove : Move ctx tidy phase w w') : IsTidy w' := by
  unfold IsTidy at *
  rcases hmove with hplain | hpart
  · cases hplain with
    | quiet hquiet =>
      rw [hquiet.speedupList_eq]
      exact h
    | _ => exact h
  · cases hpart with
    | listed txid =>
      change (w.store.list txid).speedupList.Nodup
      unfold Store.list
      split
      · exact h
      · next hout =>
        exact nodup_append_singleton h hout
    | unlisted txid _ _ => exact h.filter _
    | pended txid =>
      change (w.store.pend txid).speedupList.Nodup
      unfold Store.pend
      split <;> exact h
    | queue s _ hwrite => cases hwrite <;> exact h
    | _ => exact h

end BitcoinCoordinator
