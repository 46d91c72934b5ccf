import BitcoinCoordinator.CancelRequests

/-!
# What finalization does to the funding queue

The queued inputs of a finalized speedup give way to its change output, at the place of the first of
them. An entry for the change that is in the queue already loses its record to the swap.
-/

namespace BitcoinCoordinator

open Foundation

variable {ctx : Ctx} {w w' : World}

/-- The funding inputs of a speedup. -/
def SpeedupKind.consumed (kind : SpeedupKind) : List OutPoint :=
  kind.context.fundingInputs.map Utxo.outPoint

/-- A queue after the entries that a speedup consumed gave way to its change output. -/
structure Store.Swapped (s s' : Store) (txid : Txid) (consumed : List OutPoint) (change : Utxo)
    (spent : Bool) : Prop where
  list : ∃ before first after, s.fundingList = before ++ first :: after ∧
    (∀ op ∈ before, op ∉ consumed) ∧ first ∈ consumed ∧
    s'.fundingList = before ++ change.outPoint :: after.filter fun op => decide (op ∉ consumed)
  record : s'.funding change.outPoint = some ⟨change, spent, true⟩
  removed : ∀ op ∈ s.fundingList, op ∈ consumed → op ≠ change.outPoint → s'.funding op = none
  kept : ∀ op ∈ s.fundingList, op ∉ consumed → s'.funding op = s.funding op
  speedups : s'.speedupList = s.speedupList.filter fun id => decide (id ≠ txid)
  txs : s'.txs = s.txs
  pending : s'.pendingSpeedupParents = s.pendingSpeedupParents

/-- A tracked speedup with a queued funding input. -/
def Store.Swaps (s : Store) (txid : Txid) (tx : CoordinatedTx) (kind : SpeedupKind) : Prop :=
  s.txs.get txid = some tx ∧ tx.speedup? = some kind ∧ ∃ op ∈ s.fundingList, op ∈ kind.consumed

/-- The queue is swapped for a tracked speedup with a queued input, and nothing changes otherwise. -/
def Store.FinalizesExactly (s s' : Store) (txid : Txid) : Prop :=
  (∀ tx kind, s.Swaps txid tx kind → ∃ change, tx.speedupChangeUtxo = .ok change ∧
    s.Swapped s' txid kind.consumed change kind.context.spent) ∧
  ((¬ ∃ tx kind, s.Swaps txid tx kind) → s' = s)

/-- The change output of a tracked speedup with a queued input is not in the queue, unless the speedup
consumes it or the queue holds the very record of the swap. -/
def Store.ChangeIsFree (s : Store) (txid : Txid) : Prop :=
  ∀ tx kind, s.Swaps txid tx kind → ∃ change, tx.speedupChangeUtxo = .ok change ∧
    (change.outPoint ∈ s.fundingList → change.outPoint ∉ kind.consumed →
      s.funding change.outPoint = some ⟨change, kind.context.spent, true⟩)

/-! ### Dropping entries -/

/-- The positions of a longer queue. -/
theorem queuePositions_append (consumed ops : List OutPoint) (op : OutPoint) :
    queuePositions consumed (ops ++ [op]) =
      queuePositions consumed ops ++ if op ∈ consumed then [ops.length] else [] := by
  unfold queuePositions
  rw [List.zipIdx_append, List.filter_append, List.map_append]
  congr 1
  by_cases hop : op ∈ consumed <;> simp [hop]

/-- The positions of a queue that starts with entries that are not consumed. -/
theorem queuePositions_of_not_mem {consumed before : List OutPoint}
    (hbefore : ∀ op ∈ before, op ∉ consumed) : queuePositions consumed before = [] := by
  unfold queuePositions
  rw [List.map_eq_nil_iff, List.filter_eq_nil_iff]
  rintro ⟨op, idx⟩ hmem
  simpa using hbefore op (List.fst_mem_of_mem_zipIdx hmem)

/-- The first position is the one of the first consumed entry. -/
theorem queuePositions_head {consumed before after : List OutPoint} {first : OutPoint}
    (hbefore : ∀ op ∈ before, op ∉ consumed) (hfirst : first ∈ consumed) :
    ∃ rest, queuePositions consumed (before ++ first :: after) = before.length :: rest := by
  induction after using List.reverseRecOn with
  | nil =>
    refine ⟨[], ?_⟩
    rw [queuePositions_append, queuePositions_of_not_mem hbefore, if_pos hfirst]
    rfl
  | append_singleton after op ih =>
    obtain ⟨rest, hrest⟩ := ih
    have hsplit : before ++ first :: (after ++ [op]) = (before ++ first :: after) ++ [op] := by simp
    rw [hsplit, queuePositions_append, hrest]
    exact ⟨_, rfl⟩

/-- The store without the funding records of some outpoints. -/
def Store.eraseFundings (s : Store) (ops : List OutPoint) : Store :=
  { s with funding := fun op => if op ∈ ops then none else s.funding op }

/-- How a program whose only errors are refused writes can end. -/
def UnlessRefused {α : Type} (Q : α → World → Prop) (r : Except Stop α) (w : World) : Prop :=
  (∃ e, r = .error (.error (.storageBackendError e))) ∨ ∃ a, r = .ok a ∧ Q a w

/-- One statement after another, when neither has errors but refused writes. -/
theorem UnlessRefused.bind {α β : Type} {Q : α → World → Prop} {R : β → World → Prop} {m : Coord α}
    {f : α → Coord β} (hm : Prog.Ends (UnlessRefused Q) m ctx w)
    (hf : ∀ a w', Q a w' → Prog.Ends (UnlessRefused R) (f a) ctx w') :
    Prog.Ends (UnlessRefused R) (m >>= f) ctx w := by
  apply Prog.Ends.bind hm
  · rintro e w₁ (⟨reason, he⟩ | ⟨_, he, -⟩)
    · exact Or.inl ⟨reason, by rw [Except.error.inj he]⟩
    · cases he
  · rintro a w₁ (⟨_, ha⟩ | ⟨_, ha, hQ⟩) -
    · cases ha
    · cases ha
      exact hf a w₁ hQ

/-- A write is taken unless it is refused. -/
theorem writeStore_ends {f : Store → Store} :
    Prog.Ends (UnlessRefused fun _ w' => w'.store = f w.store) (writeStore f) ctx w := by
  unfold Prog.Ends UnlessRefused writeStore
  split
  · exact Or.inr ⟨_, rfl, rfl⟩
  · exact Or.inl ⟨_, rfl⟩

/-- No record dropped. -/
theorem Store.eraseFundings_nil (s : Store) : s.eraseFundings [] = s := by
  simp [Store.eraseFundings]

/-- One more record dropped. -/
theorem Store.eraseFundings_append (s : Store) (ops : List OutPoint) (op : OutPoint) :
    (s.eraseFunding op).eraseFundings ops = s.eraseFundings (ops ++ [op]) := by
  unfold Store.eraseFunding Store.eraseFundings
  congr 1
  funext op'
  by_cases hops : op' ∈ ops <;> simp [hops]

/-- Dropping the consumed entries leaves the others, in their order. The induction goes from the last
entry to the first, as the loop does. -/
theorem dropQueued_ends (consumed before after : List OutPoint) :
    Prog.Ends
      (UnlessRefused fun list w' =>
        list = before.filter (fun op => decide (op ∉ consumed)) ++ after ∧
        w'.store = w.store.eraseFundings (before.filter fun op => decide (op ∈ consumed)))
      (dropQueued (queuePositions consumed before).reverse (before ++ after)) ctx w := by
  induction before using List.reverseRecOn generalizing after w with
  | nil => exact Or.inr ⟨after, rfl, rfl, w.store.eraseFundings_nil.symm⟩
  | append_singleton before op ih =>
    have hsplit : before ++ [op] ++ after = before ++ op :: after := by simp
    rw [queuePositions_append, hsplit, List.filter_append, List.filter_append]
    by_cases hop : op ∈ consumed
    · have hget : (before ++ op :: after)[before.length]? = some op := by simp
      have herase : (before ++ op :: after).eraseIdx before.length = before ++ after := by
        rw [List.eraseIdx_append_of_length_le le_rfl]
        simp
      rw [if_pos hop, List.reverse_append, List.reverse_singleton, List.singleton_append]
      unfold dropQueued
      simp only [hget]
      apply UnlessRefused.bind writeStore_ends
      intro u w₁ hstore
      rw [herase]
      refine (ih after).mono ?_
      rintro x w₂ (hrefused | ⟨list, rfl, rfl, hdropped⟩)
      · exact Or.inl hrefused
      · refine Or.inr ⟨_, rfl, by simp [hop], ?_⟩
        rw [hdropped, hstore, Store.eraseFundings_append]
        simp [hop]
    · rw [if_neg hop, List.append_nil]
      refine (ih (op :: after)).mono ?_
      rintro x w₁ (hrefused | ⟨list, rfl, rfl, hdropped⟩)
      · exact Or.inl hrefused
      · refine Or.inr ⟨_, rfl, by simp [hop], ?_⟩
        rw [hdropped]
        simp [hop]

/-- Taking a speedup off its list. -/
theorem removeSpeedupFromList_ends (txid : Txid) :
    Prog.Ends (UnlessRefused fun _ w' => w'.store = w.store.unlist txid)
      (removeSpeedupFromList txid) ctx w := by
  change Prog.Ends _
    (if txid ∈ w.store.speedupList then writeStore _ else pure () : Coord Unit) ctx w
  apply Prog.Ends.ite <;> intro hin
  · exact writeStore_ends
  · refine Or.inr ⟨(), rfl, ?_⟩
    unfold Store.unlist
    rw [filter_ne_eq_self hin]
    rfl

/-- The funding keys after a swap. -/
structure Store.SwappedKeys (s s' : Store) (txid : Txid) (consumed : List OutPoint) (change : Utxo)
    (spent : Bool) : Prop where
  list : ∃ before first after, s.fundingList = before ++ first :: after ∧
    (∀ op ∈ before, op ∉ consumed) ∧ first ∈ consumed ∧
    s'.fundingList = before ++ change.outPoint :: after.filter fun op => decide (op ∉ consumed)
  funding : ∀ op, s'.funding op = if op = change.outPoint then some ⟨change, spent, true⟩
    else if op ∈ s.fundingList ∧ op ∈ consumed then none else s.funding op
  speedups : s'.speedupList = s.speedupList.filter fun id => decide (id ≠ txid)
  txs : s'.txs = s.txs
  pending : s'.pendingSpeedupParents = s.pendingSpeedupParents

/-- A list with a member of a kind, taken apart at the first one. -/
theorem exists_first_mem {ops consumed : List OutPoint} (h : ∃ op ∈ ops, op ∈ consumed) :
    ∃ before first after, ops = before ++ first :: after ∧ (∀ op ∈ before, op ∉ consumed) ∧
      first ∈ consumed := by
  induction ops with
  | nil => simp at h
  | cons op rest ih =>
    by_cases hop : op ∈ consumed
    · exact ⟨[], op, rest, rfl, by simp, hop⟩
    · obtain ⟨later, hlater, hin⟩ := h
      rcases List.mem_cons.mp hlater with rfl | hlater
      · exact absurd hin hop
      · obtain ⟨before, first, after, rfl, hbefore, hfirst⟩ := ih ⟨later, hlater, hin⟩
        refine ⟨op :: before, first, after, rfl, ?_, hfirst⟩
        intro op' hop'
        rcases List.mem_cons.mp hop' with rfl | hop'
        · exact hop
        · exact hbefore op' hop'

/-- An entry inserted where a part of the queue ends. -/
theorem insertIdx_length_append (before after : List OutPoint) (op : OutPoint) :
    (before ++ after).insertIdx before.length op = before ++ op :: after := by
  induction before with
  | nil => rfl
  | cons first rest ih => simp [ih]

/-- Swapping a queue in which something is consumed. -/
theorem swapQueued_ends {txid : Txid} {change : Utxo} {spent : Bool} {consumed : List OutPoint}
    (hqueued : ∃ op ∈ w.store.fundingList, op ∈ consumed) :
    Prog.Ends (UnlessRefused fun _ w' => w.store.SwappedKeys w'.store txid consumed change spent)
      (swapQueued txid change spent (queuePositions consumed w.store.fundingList)
        w.store.fundingList) ctx w := by
  obtain ⟨before, first, after, hlist, hbefore, hfirst⟩ := exists_first_mem hqueued
  obtain ⟨rest, hpositions⟩ : ∃ rest,
      queuePositions consumed (before ++ first :: after) = before.length :: rest :=
    queuePositions_head hbefore hfirst
  have hdrop : Prog.Ends _ (dropQueued (queuePositions consumed w.store.fundingList).reverse
      (w.store.fundingList ++ [])) ctx w := dropQueued_ends consumed w.store.fundingList []
  rw [List.append_nil, List.append_nil] at hdrop
  rw [← hlist] at hpositions
  rw [hpositions] at hdrop ⊢
  unfold swapQueued
  apply UnlessRefused.bind hdrop
  rintro kept w₁ ⟨rfl, hstore₁⟩
  apply UnlessRefused.bind writeStore_ends
  intro _ w₂ hstore₂
  apply UnlessRefused.bind writeStore_ends
  intro _ w₃ hstore₃
  refine (removeSpeedupFromList_ends txid).mono ?_
  rintro x w₄ (hrefused | ⟨u, rfl, hstore₄⟩)
  · exact Or.inl hrefused
  refine Or.inr ⟨u, rfl, ?_⟩
  change w.store.SwappedKeys w₄.store txid consumed change spent
  rw [hstore₄, hstore₃, hstore₂, hstore₁]
  have hkept : w.store.fundingList.filter (fun op => decide (op ∉ consumed)) =
      before ++ after.filter fun op => decide (op ∉ consumed) := by
    rw [hlist, List.filter_append, List.filter_cons_of_neg (by simpa using hfirst)]
    congr 1
    rw [List.filter_eq_self]
    intro op hop
    simpa using hbefore op hop
  refine ⟨⟨before, first, after, hlist, hbefore, hfirst, ?_⟩, ?_, rfl, rfl, rfl⟩
  · change List.insertIdx _ _ _ = _
    rw [hkept, min_eq_left (by simp), insertIdx_length_append]
  · intro op
    simp [Store.unlist, Store.setFunding, Store.eraseFundings]

/-- The keys of a swapped queue are those the swap should leave exactly when the change output was free. -/
theorem Store.SwappedKeys.swapped_iff {s s' : Store} {txid : Txid} {consumed : List OutPoint}
    {change : Utxo} {spent : Bool} (h : s.SwappedKeys s' txid consumed change spent) :
    s.Swapped s' txid consumed change spent ↔
      (change.outPoint ∈ s.fundingList → change.outPoint ∉ consumed →
        s.funding change.outPoint = some ⟨change, spent, true⟩) := by
  have hrecord : s'.funding change.outPoint = some ⟨change, spent, true⟩ := by
    rw [h.funding, if_pos rfl]
  constructor
  · intro hswapped hin hout
    rw [← hswapped.kept _ hin hout]
    exact hrecord
  · intro hfree
    refine ⟨h.list, hrecord, ?_, ?_, h.speedups, h.txs, h.pending⟩
    · intro op hin hconsumed hne
      rw [h.funding, if_neg hne, if_pos ⟨hin, hconsumed⟩]
    · intro op hin hout
      by_cases hop : op = change.outPoint
      · rw [hop] at hin hout ⊢
        rw [hrecord, hfree hin hout]
      · rw [h.funding, if_neg hop, if_neg]
        rintro ⟨-, hconsumed⟩
        exact hout hconsumed

/-! ### Finalization -/

/-- Only a speedup has a change output. -/
theorem CoordinatedTx.exists_speedup?_of_change {tx : CoordinatedTx} {change : Utxo}
    (h : tx.speedupChangeUtxo = .ok change) : ∃ kind, tx.speedup? = some kind := by
  unfold CoordinatedTx.speedupChangeUtxo at h
  split at h
  · cases h
  · next kind hkind => exact ⟨kind, CoordinatedTx.speedupKind_ok.mp hkind⟩

/-- What finalization does to the store. -/
inductive Finalizing (txid : Txid) (w : World) (r : Except Stop Unit) (w' : World) : Prop where
  | refused (e : String) (he : r = .error (.error (.storageBackendError e)))
  | unchanged (hstore : w'.store = w.store)
      (hnone : ∀ tx kind, w.store.Swaps txid tx kind → ∀ change, tx.speedupChangeUtxo ≠ .ok change)
  | swapped (tx : CoordinatedTx) (kind : SpeedupKind) (change : Utxo)
      (hswaps : w.store.Swaps txid tx kind) (hchange : tx.speedupChangeUtxo = .ok change)
      (hkeys : w.store.SwappedKeys w'.store txid kind.consumed change kind.context.spent)

/-- Finalization refuses, changes nothing or swaps the queue. -/
theorem replaceFundingOnFinalize_ends (txid : Txid) :
    Prog.Ends (Finalizing txid w) (replaceFundingOnFinalize txid) ctx w := by
  have hnote : Prog.Ends (fun x w' => x = .ok () ∧ w' = w.noted (.finalizing txid w.store))
      (note (.finalizing txid)) ctx w := ⟨rfl, rfl⟩
  apply Prog.Ends.bind hnote
  · rintro e w₁ ⟨he, -⟩
    cases he
  rintro _ w₁ ⟨-, rfl⟩ -
  apply ends_read
  generalize hget : (w.noted (.finalizing txid w.store)).store.txs.get txid = found
  change w.store.txs.get txid = found at hget
  cases found with
  | none =>
    refine Finalizing.unchanged rfl ?_
    rintro tx kind ⟨hsome, -, -⟩
    rw [hget] at hsome
    cases hsome
  | some tx =>
    have hother : ∀ stop, tx.speedupChangeUtxo = .error stop →
        ∀ tx' kind, w.store.Swaps txid tx' kind → ∀ change, tx'.speedupChangeUtxo ≠ .ok change := by
      rintro stop hstop tx' kind ⟨hget', -, -⟩ change hchange
      rw [hget] at hget'
      cases hget'
      rw [hstop] at hchange
      cases hchange
    dsimp only
    cases hchange : tx.speedupChangeUtxo with
    | error stop =>
      cases stop <;> exact Finalizing.unchanged rfl (hother _ hchange)
    | ok change =>
      obtain ⟨kind, hkind⟩ := CoordinatedTx.exists_speedup?_of_change hchange
      dsimp only
      rw [CoordinatedTx.speedupKind_ok.mpr hkind, w.store.keyed _ _ hget]
      change Prog.Ends _ (swapQueued txid change kind.context.spent
        (queuePositions kind.consumed w.store.fundingList) w.store.fundingList) ctx _
      by_cases hqueued : ∃ op ∈ w.store.fundingList, op ∈ kind.consumed
      · refine Prog.Ends.mono (swapQueued_ends (w := w.noted (.finalizing txid w.store)) hqueued) ?_
        rintro x w₁ (⟨e, he⟩ | ⟨u, -, hkeys⟩)
        · exact Finalizing.refused e he
        · exact Finalizing.swapped tx kind change ⟨hget, hkind, hqueued⟩ hchange hkeys
      · have hnone : queuePositions kind.consumed w.store.fundingList = [] := by
          apply queuePositions_of_not_mem
          intro op hop hin
          exact hqueued ⟨op, hop, hin⟩
        rw [hnone]
        refine Finalizing.unchanged rfl ?_
        rintro tx' kind' ⟨hget', hkind', hin⟩
        rw [hget] at hget'
        cases hget'
        rw [hkind] at hkind'
        cases hkind'
        exact absurd hin hqueued

/-- Finalization swaps the queue exactly when the change output of the speedup is free. -/
theorem replaceFundingOnFinalize_exact_iff {txid : Txid} {r : Except Stop Unit}
    (hrun : replaceFundingOnFinalize txid ctx w = (r, w'))
    (hwrites : ∀ e, r ≠ .error (.error (.storageBackendError e))) :
    w.store.FinalizesExactly w'.store txid ↔ w.store.ChangeIsFree txid := by
  have hunique : ∀ {tx tx' kind kind'}, w.store.Swaps txid tx kind → w.store.Swaps txid tx' kind' →
      tx = tx' ∧ kind = kind' := by
    rintro tx tx' kind kind' ⟨hget, hkind, -⟩ ⟨hget', hkind', -⟩
    rw [hget] at hget'
    cases hget'
    rw [hkind] at hkind'
    cases hkind'
    exact ⟨rfl, rfl⟩
  cases (replaceFundingOnFinalize_ends txid).run hrun with
  | refused e he => exact absurd he (hwrites e)
  | unchanged hstore hnone =>
    constructor
    · intro hexact tx kind hswaps
      obtain ⟨change, hchange, -⟩ := hexact.1 tx kind hswaps
      exact absurd hchange (hnone tx kind hswaps change)
    · intro hfree
      refine ⟨?_, fun _ => hstore⟩
      intro tx kind hswaps
      obtain ⟨change, hchange, -⟩ := hfree tx kind hswaps
      exact absurd hchange (hnone tx kind hswaps change)
  | swapped tx kind change hswaps hchange hkeys =>
    constructor
    · intro hexact tx' kind' hswaps'
      obtain ⟨rfl, rfl⟩ := hunique hswaps hswaps'
      obtain ⟨change', hchange', hswapped⟩ := hexact.1 tx kind hswaps
      rw [hchange] at hchange'
      cases hchange'
      exact ⟨change, hchange, hkeys.swapped_iff.mp hswapped⟩
    · intro hfree
      refine ⟨?_, fun hnone => absurd ⟨tx, kind, hswaps⟩ hnone⟩
      intro tx' kind' hswaps'
      obtain ⟨rfl, rfl⟩ := hunique hswaps hswaps'
      obtain ⟨change', hchange', hfree⟩ := hfree tx kind hswaps
      rw [hchange] at hchange'
      cases hchange'
      exact ⟨change, hchange, hkeys.swapped_iff.mpr hfree⟩

/-- A queue without duplicates and with a record for each entry. -/
def Store.WellQueued (s : Store) : Prop :=
  s.fundingList.Nodup ∧ ∀ op ∈ s.fundingList, (s.funding op).isSome

instance (s : Store) : Decidable s.WellQueued := inferInstanceAs (Decidable (_ ∧ _))

/-- The change output of the CPFP of the example run. -/
def firstChange : Utxo := ⟨firstOfChain.computeTxid, 0, 996650, 7⟩

/-- A CPFP is built and accepted. -/
def acceptedCalls : List Call := growingChainCalls.take 4

/-- Its change output is registered as a funding UTXO. -/
def registerChangeCall : Call :=
  (sampleView 100 [sampleParent, firstOfChain] []).call fixedBuilder 10 0 (.addFunding firstChange)

/-- The answers to the tick that finds the CPFP buried. -/
def buriedCtx : Ctx :=
  ⟨defaultSettings, { sampleView 107 [] [] with
    chain := [(sampleParent, 7), (firstOfChain, 7)] }.answers fixedBuilder 10 0⟩

/-- The world in which a finalized CPFP is about to be swapped into the queue. -/
def finalizedWorld (calls : List Call) : World :=
  (markFinalized firstOfChain.computeTxid 107 buriedCtx
    (runCalls defaultSettings calls World.init)).2

/-- The change output of the CPFP of the example run is free, and the CPFP replaces the funding UTXO it
spends. -/
theorem replaceFundingOnFinalize_exact_acceptedCalls :
    (finalizedWorld acceptedCalls).store.ChangeIsFree firstOfChain.computeTxid ∧
      (finalizedWorld acceptedCalls).store.FinalizesExactly
        (replaceFundingOnFinalize firstOfChain.computeTxid buriedCtx
          (finalizedWorld acceptedCalls)).2.store firstOfChain.computeTxid := by
  have hfree : (finalizedWorld acceptedCalls).store.ChangeIsFree firstOfChain.computeTxid := by
    obtain ⟨tx, hget, hchange, hunqueued⟩ :
        ∃ tx ∈ (finalizedWorld acceptedCalls).store.txs.get firstOfChain.computeTxid,
          tx.speedupChangeUtxo = .ok firstChange ∧
            firstChange.outPoint ∉ (finalizedWorld acceptedCalls).store.fundingList := by decide +kernel
    rintro tx' kind ⟨hget', -, -⟩
    cases hget.symm.trans hget'
    exact ⟨firstChange, hchange, fun hqueued => absurd hqueued hunqueued⟩
  refine ⟨hfree, ?_⟩
  exact (replaceFundingOnFinalize_exact_iff (r := .ok ())
    (Prod.ext (by decide +kernel) rfl) (by simp)).mpr hfree

/-- The swap takes the record of a change output that was registered as a funding UTXO. -/
theorem exists_finalization_overwriting :
    ∃ (cfg : BitcoinSettings) (calls : List Call) (ctx : Ctx) (txid : Txid) (height : BlockHeight),
      cfg.validate = .ok () ∧ ctx.settings = cfg ∧
      (∀ call ∈ calls, call.SeesOneView ∧ call.answers.SpendsRequested) ∧
      OkRun cfg calls World.init (runCalls cfg calls World.init) ∧
      (runCalls cfg calls World.init).store.WellQueued ∧
      (markFinalized txid height ctx (runCalls cfg calls World.init)).1 = .ok () ∧
      (replaceFundingOnFinalize txid ctx
        (markFinalized txid height ctx (runCalls cfg calls World.init)).2).1 = .ok () ∧
      ¬ (markFinalized txid height ctx (runCalls cfg calls World.init)).2.store.FinalizesExactly
        (replaceFundingOnFinalize txid ctx
          (markFinalized txid height ctx (runCalls cfg calls World.init)).2).2.store txid := by
  refine ⟨defaultSettings, acceptedCalls ++ [registerChangeCall], buriedCtx,
    firstOfChain.computeTxid, 107, BitcoinSettings.validate_default _, rfl, ?_,
    okRun_runCalls (by decide +kernel), by decide +kernel, by decide +kernel, by decide +kernel, ?_⟩
  · intro call hcall
    simp only [acceptedCalls, growingChainCalls, List.take_succ_cons, List.take_zero,
      List.cons_append, List.nil_append, List.mem_cons, List.not_mem_nil, or_false] at hcall
    rcases hcall with rfl | rfl | rfl | rfl | rfl <;>
      exact ⟨NodeView.call_seesOneView (by decide +kernel) _ _ _ _,
        plainBuilder_spendsRequested _ _ _ _⟩
  · intro hexact
    change Store.FinalizesExactly
      (finalizedWorld (acceptedCalls ++ [registerChangeCall])).store _ _ at hexact
    obtain ⟨tx, hget, kind, hkind, hqueued⟩ :
        ∃ tx ∈ (finalizedWorld (acceptedCalls ++ [registerChangeCall])).store.txs.get
          firstOfChain.computeTxid, ∃ kind ∈ tx.speedup?,
          firstChange.outPoint ∉ kind.consumed ∧
          ∃ op ∈ (finalizedWorld (acceptedCalls ++ [registerChangeCall])).store.fundingList,
            op ∈ kind.consumed := by decide +kernel
    obtain ⟨change, -, hswapped⟩ := hexact.1 tx kind ⟨hget, hkind, hqueued.2⟩
    have hkept := hswapped.kept firstChange.outPoint (by decide +kernel) hqueued.1
    revert hkept
    decide +kernel

end BitcoinCoordinator
