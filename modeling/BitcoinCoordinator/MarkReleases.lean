import BitcoinCoordinator.BuildResults

/-!
# The marks a failure takes off

A speedup carries two marks that other transactions set: whether its change is reserved, and which RBF
replaces it. A failing speedup clears the reservations it made and the link of what it replaced. The cascade
does so for every transaction it reaches, so its effect on the marks is read off the transactions that fail
and the store before.
-/

namespace BitcoinCoordinator

open Foundation

variable {ctx : Ctx} {height : BlockHeight} {s s' s₁ : Store} {w₀ w w' : World}

/-- The RBF that a tracked speedup is marked as replaced by. -/
def Store.replacedBy (s : Store) (txid : Txid) : Option Txid :=
  ((s.txs.get txid).bind CoordinatedTx.speedup?).bind fun kind => kind.context.replacedBy

/-- The outputs a speedup gives back when it fails: every funding input of a CPFP, the newly claimed inputs of
an RBF. -/
def CoordinatedTx.givesBack (tx : CoordinatedTx) : List OutPoint :=
  match tx.kind with
  | .speedup (.cpfp _ context) => context.fundingInputs.map Utxo.outPoint
  | .speedup (.rbf _ new _) => new.map Utxo.outPoint
  | _ => []

/-- A tracked transaction gives back an output whose reservation is kept under the given flag. -/
def Store.Frees (s : Store) (txid : Txid) (flag : Flag) : Prop :=
  ∃ tx, s.txs.get txid = some tx ∧ ∃ op ∈ tx.givesBack, s.flagOf op = flag

/-- A tracked transaction is an RBF of the other one. -/
def Store.Replaces (s : Store) (txid replaced : Txid) : Prop :=
  ∃ tx, s.txs.get txid = some tx ∧ tx.replaces? = some replaced

/-- Between two stores some flags were cleared and some speedups are no longer being replaced; the other marks
are as they were. -/
structure Unmarks (freed : Flag → Prop) (unmasked : Txid → Prop) (s s' : Store) : Prop where
  flagOf : ∀ op, s'.flagOf op = s.flagOf op
  cleared : ∀ flag, freed flag → s'.flag flag = (s.flag flag).map fun _ => false
  kept : ∀ flag, ¬ freed flag → s'.flag flag = s.flag flag
  unlinked : ∀ txid, unmasked txid → s'.replacedBy txid = none
  linked : ∀ txid, ¬ unmasked txid → s'.replacedBy txid = s.replacedBy txid

/-- The same queue, and the same kinds of transactions. -/
structure SameKinds (s s' : Store) : Prop where
  funding : s'.funding = s.funding
  kinds : ∀ txid, (s'.txs.get txid).map CoordinatedTx.kind = (s.txs.get txid).map CoordinatedTx.kind

/-! ### Marks -/

/-- Where the queue and the kinds are the same, so are the marks. -/
theorem SameKinds.unmarks (h : SameKinds s s') : Unmarks (fun _ => False) (fun _ => False) s s' := by
  have hspeedups : ∀ txid, (s'.txs.get txid).bind CoordinatedTx.speedup? =
      (s.txs.get txid).bind CoordinatedTx.speedup? := by
    intro txid
    have hkinds := h.kinds txid
    cases hget : s.txs.get txid with
    | none =>
      rw [hget] at hkinds
      rw [Option.map_eq_none_iff.mp hkinds]
    | some tx =>
      rw [hget] at hkinds
      obtain ⟨tx', hget', hkind⟩ := Option.map_eq_some_iff.mp hkinds
      simp only [hget', Option.bind_some, CoordinatedTx.speedup?, hkind]
  constructor
  case flagOf =>
    intro op
    simp [Store.flagOf, h.funding]
  case cleared => exact fun _ h => h.elim
  case kept =>
    intro flag _
    cases flag with
    | queued op => simp [Store.flag, h.funding]
    | change txid => simp only [Store.flag, hspeedups]
  case unlinked => exact fun _ h => h.elim
  case linked =>
    intro txid _
    simp only [Store.replacedBy, hspeedups]

/-- Marks taken off one after another. -/
theorem Unmarks.trans {freed freed' : Flag → Prop} {unmasked unmasked' : Txid → Prop}
    (h : Unmarks freed unmasked s s₁) (h' : Unmarks freed' unmasked' s₁ s') :
    Unmarks (fun flag => freed flag ∨ freed' flag) (fun txid => unmasked txid ∨ unmasked' txid) s s' where
  flagOf op := (h'.flagOf op).trans (h.flagOf op)
  cleared := by
    intro flag hfreed
    by_cases hnow : freed' flag
    · rw [h'.cleared flag hnow]
      by_cases hbefore : freed flag
      · rw [h.cleared flag hbefore, Option.map_map]
        rfl
      · rw [h.kept flag hbefore]
    · rw [h'.kept flag hnow, h.cleared flag (hfreed.resolve_right hnow)]
  kept := by
    intro flag hkept
    rw [h'.kept flag fun hnow => hkept (Or.inr hnow), h.kept flag fun hbefore => hkept (Or.inl hbefore)]
  unlinked := by
    intro txid hunmasked
    by_cases hnow : unmasked' txid
    · exact h'.unlinked txid hnow
    · rw [h'.linked txid hnow, h.unlinked txid (hunmasked.resolve_right hnow)]
  linked := by
    intro txid hlinked
    rw [h'.linked txid fun hnow => hlinked (Or.inr hnow), h.linked txid fun hbefore => hlinked (Or.inl hbefore)]

/-- The same marks, described otherwise. -/
theorem Unmarks.congr {freed freed' : Flag → Prop} {unmasked unmasked' : Txid → Prop}
    (h : Unmarks freed unmasked s s') (hfreed : ∀ flag, freed' flag ↔ freed flag)
    (hunmasked : ∀ txid, unmasked' txid ↔ unmasked txid) : Unmarks freed' unmasked' s s' where
  flagOf := h.flagOf
  cleared flag hflag := h.cleared flag ((hfreed flag).mp hflag)
  kept flag hflag := h.kept flag fun hnow => hflag ((hfreed flag).mpr hnow)
  unlinked txid htxid := h.unlinked txid ((hunmasked txid).mp htxid)
  linked txid htxid := h.linked txid fun hnow => htxid ((hunmasked txid).mpr hnow)

/-- Setting a flag keeps what every speedup is replaced by. -/
theorem Store.replacedBy_setSpent (s : Store) (op : OutPoint) (spent : Bool) (txid : Txid) :
    (s.setSpent op spent).replacedBy txid = s.replacedBy txid := by
  unfold Store.setSpent
  split
  · rfl
  · split
    · rfl
    · next tx hget =>
      split
      · next kind hkind =>
        unfold Store.replacedBy
        rw [Store.get_setTx]
        split
        · next hid =>
          have hkey := s.keyed _ _ hget
          change txid = tx.txid at hid
          rw [hid, hkey, hget]
          simp only [Option.bind_some, CoordinatedTx.speedup?, hkind]
          cases kind <;> rfl
        · rfl
      · rfl

/-- Clearing flags takes these marks off. -/
theorem unmarks_setAllSpent (s : Store) (ops : List OutPoint) :
    Unmarks (fun flag => ∃ op ∈ ops, s.flagOf op = flag) (fun _ => False) s (s.setAllSpent ops false) where
  flagOf op := s.flagOf_setAllSpent ops op false
  cleared flag hfreed := by rw [s.flag_setAllSpent, if_pos hfreed]
  kept flag hkept := by rw [s.flag_setAllSpent, if_neg hkept]
  unlinked _ h := h.elim
  linked := by
    intro txid _
    unfold Store.setAllSpent
    induction ops generalizing s with
    | nil => rfl
    | cons op rest ih => rw [List.foldl_cons, ih, Store.replacedBy_setSpent]

/-- A record written back with another link changes nothing else of the marks. -/
theorem Store.relink_marks {tx : CoordinatedTx} {kind : SpeedupKind} {link : Option Txid}
    (hget : s.txs.get tx.txid = some tx) (hkind : tx.kind = .speedup kind) (hs' : s' = s.setTx { tx with
      kind := .speedup (kind.modifyContext fun c => { c with replacedBy := link }) }) :
    (∀ op, s'.flagOf op = s.flagOf op) ∧ (∀ flag, s'.flag flag = s.flag flag) ∧
      ∀ txid, s'.replacedBy txid = if txid = tx.txid then link else s.replacedBy txid := by
  subst hs'
  refine ⟨fun _ => rfl, ?_, ?_⟩
  · intro flag
    cases flag with
    | queued op => rfl
    | change txid =>
      unfold Store.flag
      simp only [Store.get_setTx]
      split
      · next hid =>
        rw [hid, hget]
        simp only [Option.bind_some, CoordinatedTx.speedup?, hkind]
        cases kind <;> rfl
      · rfl
  · intro txid
    unfold Store.replacedBy
    rw [Store.get_setTx]
    split
    · simp only [Option.bind_some, CoordinatedTx.speedup?]
      cases kind <;> rfl
    · rfl

/-- Taking the link of a speedup off. -/
theorem unmaskPredecessor_unmarks {replaces : Txid} {u : Unit}
    (hrun : unmaskPredecessor replaces ctx w = (.ok u, w')) :
    Unmarks (fun _ => False) (fun txid => replaces = txid) w.store w'.store := by
  have hnothing : w.store.replacedBy replaces = none →
      Unmarks (fun _ => False) (fun txid => replaces = txid) w.store w.store := by
    intro hnone
    constructor
    case flagOf => exact fun _ => rfl
    case cleared => exact fun _ h => h.elim
    case kept => exact fun _ _ => rfl
    case unlinked => rintro _ rfl; exact hnone
    case linked => exact fun _ _ => rfl
  obtain ⟨found, w₁, hread, hbody⟩ := Prog.bind_ok.mp hrun
  obtain ⟨hfound, hw₁⟩ := readStore_ok.mp hread
  subst w₁
  cases hget : w.store.txs.get replaces with
  | none =>
    rw [hfound, hget] at hbody
    obtain ⟨-, rfl⟩ := Prog.pure_ok.mp hbody
    apply hnothing
    simp [Store.replacedBy, hget]
  | some replaced =>
    rw [hfound, hget] at hbody
    dsimp only at hbody
    cases hupdated : replaced.modifyContext fun c => { c with replacedBy := none } with
    | ok updated =>
      rw [hupdated] at hbody
      obtain ⟨-, rfl⟩ := writeStore_ok.mp hbody
      obtain ⟨kind, hkind, rfl⟩ := CoordinatedTx.modifyContext_ok hupdated
      have hkey := w.store.keyed _ _ hget
      obtain ⟨hflagOf, hflags, hlinks⟩ := Store.relink_marks (hkey ▸ hget) hkind rfl
      constructor
      case flagOf => exact hflagOf
      case cleared => exact fun _ h => h.elim
      case kept => exact fun flag _ => hflags flag
      case unlinked =>
        rintro _ rfl
        exact (hlinks replaces).trans (if_pos hkey.symm)
      case linked =>
        intro txid hother
        exact (hlinks txid).trans (if_neg fun heq => hother (hkey.symm.trans heq.symm))
    | error e =>
      rw [hupdated] at hbody
      obtain ⟨-, rfl⟩ := Prog.pure_ok.mp hbody
      apply hnothing
      unfold CoordinatedTx.modifyContext at hupdated
      unfold Store.replacedBy CoordinatedTx.speedup?
      rw [hget, Option.bind_some]
      split at hupdated
      · cases hupdated
      · rfl

/-- A failed speedup gives back what it reserved, and what it replaced is no longer being replaced. -/
theorem releaseFailed_unmarks {tx : CoordinatedTx} {u : Unit}
    (hrun : releaseFailed tx ctx w = (.ok u, w')) :
    Unmarks (fun flag => ∃ op ∈ tx.givesBack, w.store.flagOf op = flag) (fun txid => tx.replaces? = some txid)
      w.store w'.store := by
  have hsame : SameKinds w.store w.store := ⟨rfl, fun _ => rfl⟩
  unfold releaseFailed at hrun
  cases hkind : tx.kind with
  | normal =>
    rw [hkind] at hrun
    obtain ⟨-, rfl⟩ := Prog.pure_ok.mp hrun
    exact hsame.unmarks.congr (by simp [CoordinatedTx.givesBack, hkind])
      (by simp [CoordinatedTx.replaces?, hkind])
  | needsSpeedup data =>
    rw [hkind] at hrun
    obtain ⟨-, rfl⟩ := Prog.pure_ok.mp hrun
    exact hsame.unmarks.congr (by simp [CoordinatedTx.givesBack, hkind])
      (by simp [CoordinatedTx.replaces?, hkind])
  | speedup kind =>
    rw [hkind] at hrun
    cases kind with
    | cpfp parents context =>
      have hcontext : tx.speedupKind = .ok (.cpfp parents context) := by
        simp [CoordinatedTx.speedupKind, hkind]
      dsimp only at hrun
      unfold markParentsUnspent at hrun
      rw [hcontext] at hrun
      obtain ⟨_, w₁, hread, hrelease⟩ := Prog.bind_ok.mp hrun
      obtain ⟨hcpfp, rfl⟩ := Prog.ofExcept_ok.mp hread
      cases hcpfp
      rw [releaseMarks_ok hrelease]
      apply (unmarks_setAllSpent _ _).congr
      · simp [CoordinatedTx.givesBack, hkind, SpeedupKind.context]
      · simp [CoordinatedTx.replaces?, hkind]
    | rbf replaces new context =>
      dsimp only at hrun
      obtain ⟨_, w₁, hrelease, hunmask⟩ := Prog.bind_ok.mp hrun
      have hfreed := unmarks_setAllSpent w.store (new.map Utxo.outPoint)
      rw [← releaseMarks_ok hrelease] at hfreed
      apply (hfreed.trans (unmaskPredecessor_unmarks hunmask)).congr
      · simp [CoordinatedTx.givesBack, hkind]
      · simp [CoordinatedTx.replaces?, hkind]

/-! ### Programs that leave the marks alone -/

/-- The kinds are steady. -/
theorem steady_sameKinds (s : Store) : Steady fun w => SameKinds s w.store where
  asked := fun _ h => h
  published := fun _ _ h => h
  signed := fun _ _ _ h => h

/-- A write keeps the kinds that its function keeps. -/
theorem writeStore_keeps_kinds {f : Store → Store} (h : SameKinds s w.store)
    (hf : SameKinds w.store (f w.store)) : SameKinds s (writeStore f ctx w).2.store := by
  unfold writeStore
  split
  · exact ⟨hf.funding.trans h.funding, fun txid => (hf.kinds txid).trans (h.kinds txid)⟩
  · exact h

/-- A write of a record of the stored kind keeps the kinds. -/
theorem updateTx_keeps_kinds {tx updated : CoordinatedTx} (h : SameKinds s w.store)
    (hget : w.store.txs.get tx.txid = some tx) (htxid : updated.txid = tx.txid)
    (hkind : updated.kind = tx.kind) : SameKinds s (updateTx updated ctx w).2.store := by
  apply writeStore_keeps_kinds h
  refine ⟨rfl, fun txid => ?_⟩
  rw [Store.get_setTx, htxid]
  split
  · next hid => rw [hid, hget, Option.map_some, Option.map_some, hkind]
  · rfl

/-- A lifecycle step keeps the kinds. -/
theorem settleTx_keeps_kinds (s : Store) (txid : Txid) (state : TransactionState) :
    Prog.Keeps (fun w => SameKinds s w.store) (settleTx txid state height) ctx := by
  apply Prog.Keeps.ite <;> intro _
  · apply Prog.Keeps.ite <;> intro _
    · exact Prog.Keeps.stop _
    · apply keeps_found (I := fun w => SameKinds s w.store) ((steady_sameKinds s).publish _)
      intro w tx hw hget
      have hself : w.store.txs.get tx.txid = some tx := w.store.keyed _ _ hget ▸ hget
      dsimp only
      split
      · exact updateTx_keeps_kinds hw hself rfl rfl
      · exact (steady_sameKinds s).publish _ w hw
  · exact Prog.Keeps.stop _

/-- Putting a record back to dispatch keeps the kinds. -/
theorem markAsRetry_keeps_kinds (s : Store) (txid : Txid) :
    Prog.Keeps (fun w => SameKinds s w.store) (markAsRetry txid) ctx := by
  apply keeps_found (I := fun w => SameKinds s w.store) ((steady_sameKinds s).publish _)
  intro w tx hw hget
  have hself : w.store.txs.get tx.txid = some tx := w.store.keyed _ _ hget ▸ hget
  dsimp only
  split
  · exact updateTx_keeps_kinds hw hself rfl rfl
  · exact (steady_sameKinds s).publish _ w hw

/-- Putting parents back on the pending list keeps the kinds. -/
theorem prependPendingSpeedupParents_keeps_kinds (s : Store) (txids : List Txid) :
    Prog.Keeps (fun w => SameKinds s w.store) (prependPendingSpeedupParents txids) ctx :=
  OneWrite.keeps (fun _ => prependPendingSpeedupParents_oneWrite txids) (fun _ h => h)
    fun _ h => ⟨h.funding, h.kinds⟩

/-- Requeueing the parents of a failed speedup keeps the kinds. -/
theorem requeueProtocolParents_keeps_kinds (s : Store) (tx : CoordinatedTx) :
    Prog.Keeps (fun w => SameKinds s w.store) (requeueProtocolParents tx) ctx := by
  unfold requeueProtocolParents
  split
  · exact Prog.Keeps.seq (Prog.Keeps.read _) fun _ => prependPendingSpeedupParents_keeps_kinds s _
  · exact Prog.Keeps.pure _

/-! ### The cascade -/

/-- Failing one transaction takes off the marks it made. -/
theorem settleFailedDispatch_unmarks {tx : CoordinatedTx} {fundingMissing : Bool} {u : Unit}
    (hrun : settleFailedDispatch tx height fundingMissing ctx w = (.ok u, w')) :
    Unmarks (fun flag => ∃ op ∈ tx.givesBack, w.store.flagOf op = flag) (fun txid => tx.replaces? = some txid)
      w.store w'.store := by
  have hsame : SameKinds w.store w.store := ⟨rfl, fun _ => rfl⟩
  obtain ⟨_, w₁, hsettle, hrest⟩ := Prog.bind_ok.mp hrun
  obtain ⟨_, w₂, hnews, hrest⟩ := Prog.bind_ok.mp hrest
  obtain ⟨_, w₃, hrelease, hrequeue⟩ := Prog.bind_ok.mp hrest
  have hsettled : SameKinds w.store w₁.store := (settleTx_keeps_kinds w.store _ _).run hsame hsettle
  rw [← (addNews_ok hnews).1] at hsettled
  have hreleased := hsettled.unmarks.trans (releaseFailed_unmarks hrelease)
  have hrequeued : SameKinds w₃.store w'.store := by
    rcases Prog.ite_ok.mp hrequeue with ⟨-, hrequeue⟩ | ⟨-, hrequeue⟩
    · exact (requeueProtocolParents_keeps_kinds w₃.store tx).run ⟨rfl, fun _ => rfl⟩ hrequeue
    · obtain ⟨-, rfl⟩ := Prog.pure_ok.mp hrequeue
      exact ⟨rfl, fun _ => rfl⟩
  apply (hreleased.trans hrequeued.unmarks).congr
  · simp [hsettled.unmarks.flagOf]
  · simp

/-- What a transaction gives back and replaces does not depend on its marks. -/
theorem CoordinatedTx.gives_of_unmarked {tx tx' : CoordinatedTx} (h : tx'.unmarked = tx.unmarked) :
    tx'.givesBack = tx.givesBack ∧ tx'.replaces? = tx.replaces? := by
  have hgives : ∀ tx : CoordinatedTx, tx.unmarked.givesBack = tx.givesBack ∧
      tx.unmarked.replaces? = tx.replaces? := by
    intro tx
    unfold CoordinatedTx.unmarked CoordinatedTx.givesBack CoordinatedTx.replaces? TxKind.unmarked
    cases tx.kind with
    | speedup kind => cases kind <;> exact ⟨rfl, rfl⟩
    | normal => exact ⟨rfl, rfl⟩
    | needsSpeedup data => exact ⟨rfl, rfl⟩
  rw [← (hgives tx').1, ← (hgives tx').2, h]
  exact hgives tx

/-- Some transactions have failed, and the marks that they made were taken off. -/
structure FailsWithMarks (height : BlockHeight) (failed : List Txid) (w w' : World) : Prop where
  settles : Settles height failed w w'
  unmarks : Unmarks (fun flag => ∃ txid ∈ failed, w.store.Frees txid flag)
    (fun replaced => ∃ txid ∈ failed, w.store.Replaces txid replaced) w.store w'.store

/-- Failing one more transaction of which a copy is at hand. -/
theorem FailsWithMarks.settleFailedDispatch {failed : List Txid} {d : CoordinatedTx} {fundingMissing : Bool}
    (h : FailsWithMarks height failed w₀ w) (hcopy : d.IsCopyIn w₀) :
    Prog.Ends (UnlessRefused fun _ w' => FailsWithMarks height (d.txid :: failed) w₀ w')
      (settleFailedDispatch d height fundingMissing) ctx w := by
  have hends : Prog.Ends (UnlessRefused fun _ w' => Settles height (d.txid :: failed) w₀ w')
      (BitcoinCoordinator.settleFailedDispatch d height fundingMissing) ctx w :=
    h.settles.settleFailedDispatch hcopy
  rcases hends with hrefused | ⟨u, hrun, hsettles⟩
  · exact Or.inl hrefused
  · refine Or.inr ⟨u, hrun, hsettles, ?_⟩
    obtain ⟨tx, hget, hunmarked⟩ := hcopy
    obtain ⟨hgives, hreplaces⟩ := CoordinatedTx.gives_of_unmarked hunmarked
    apply (h.unmarks.trans (settleFailedDispatch_unmarks (Prod.ext hrun rfl))).congr
    · intro flag
      have hone : w₀.store.Frees d.txid flag ↔ ∃ op ∈ d.givesBack, w.store.flagOf op = flag := by
        simp only [Store.Frees, hget, Option.some.injEq, exists_eq_left', hgives, h.unmarks.flagOf]
      simp only [List.mem_cons, exists_eq_or_imp, hone]
      exact or_comm
    · intro replaced
      have hone : w₀.store.Replaces d.txid replaced ↔ d.replaces? = some replaced := by
        simp only [Store.Replaces, hget, Option.some.injEq, exists_eq_left', hreplaces]
      simp only [List.mem_cons, exists_eq_or_imp, hone]
      exact or_comm

/-- What a cascade does: it fails what its root reaches through listed dependants, with the marks. -/
def CascadesFrom (height : BlockHeight) (txid : Txid) (w w' : World) : Prop :=
  ∃ failed, FailsWithMarks height failed w w' ∧
    ∀ id, id ∈ failed ↔ Relation.ReflTransGen w.store.IsListedDependant txid id

/-- Only a refused write stops a cascade. -/
theorem failAndCascade_cascades {tx : CoordinatedTx} {fundingMissing : Bool}
    (hget : w.store.txs.get tx.txid = some tx) :
    Prog.Ends (UnlessRefused fun _ w' => CascadesFrom height tx.txid w w')
      (failAndCascade tx height fundingMissing) ctx w := by
  have hnothing : FailsWithMarks height [] w w := by
    refine ⟨Settles.of_eq rfl rfl fun _ hitem => hitem, ?_⟩
    have hsame : SameKinds w.store w.store := ⟨rfl, fun _ => rfl⟩
    exact hsame.unmarks.congr (by simp) (by simp)
  have hdepth : remaining w.store.speedupList [tx.txid] < w.store.speedupList.length + 1 :=
    Nat.lt_succ_of_le (remaining_le_length _ _)
  apply ends_read
  have hsettles : ∀ failed w', FailsWithMarks height failed w w' → Settles height failed w w' :=
    fun _ _ h => h.settles
  apply UnlessRefused.mono (failAndCascadeWithin_visits hsettles
    (fun _ _ _ _ h hcopy => h.settleFailedDispatch hcopy) hnothing ⟨tx, hget, rfl⟩ hdepth)
  rintro _ w' ⟨failed, hfails, hvisit⟩
  exact ⟨failed, hfails, fun id => hvisit.mem_iff⟩

/-- Putting parents back on the pending list after a cascade. -/
theorem CascadesFrom.prepend {txid : Txid} {txids : List Txid} (h : CascadesFrom height txid w₀ w) :
    Prog.Ends (UnlessRefused fun _ w' => CascadesFrom height txid w₀ w')
      (prependPendingSpeedupParents txids) ctx w := by
  obtain ⟨failed, ⟨hsettles, hunmarks⟩, hmem⟩ := h
  have hends : Prog.Ends (UnlessRefused fun _ w' => Settles height [] w w')
      (prependPendingSpeedupParents txids) ctx w := by
    apply ends_read
    apply Prog.Ends.ite <;> intro _
    · exact UnlessRefused.pure (Settles.of_eq rfl rfl fun _ hitem => hitem)
    · exact writeStore_settles (fun _ => rfl) rfl
  apply UnlessRefused.of_ok hends
  intro u w' hrun
  have hkinds : SameKinds w.store w'.store :=
    (prependPendingSpeedupParents_keeps_kinds w.store txids).run ⟨rfl, fun _ => rfl⟩ hrun
  rcases hends with ⟨reason, hrefused⟩ | ⟨-, -, hsame⟩
  · rw [hrun] at hrefused
    cases hrefused
  · rw [hrun] at hsame
    refine ⟨failed, ⟨hsettles.trans hsame, ?_⟩, hmem⟩
    exact (hunmarks.trans hkinds.unmarks).congr (by simp) (by simp)

/-- Settling a doomed transaction is a cascade too. -/
theorem settleFailedChild_cascades {tx : CoordinatedTx} (hget : w.store.txs.get tx.txid = some tx) :
    Prog.Ends (UnlessRefused fun _ w' => CascadesFrom height tx.txid w w')
      (settleFailedChild tx height) ctx w := by
  have hrebuild : Prog.Ends (UnlessRefused fun _ w' => CascadesFrom height tx.txid w w')
      (rebuildSurvivors tx height) ctx w := by
    apply ends_read
    apply UnlessRefused.bind (failAndCascade_cascades hget)
    intro _ w₁ hcascade
    apply ends_read
    exact hcascade.prepend
  unfold settleFailedChild
  cases tx.speedup? with
  | none => exact failAndCascade_cascades hget
  | some kind =>
    apply Prog.Ends.ite <;> intro _
    · exact failAndCascade_cascades hget
    · exact hrebuild

end BitcoinCoordinator
