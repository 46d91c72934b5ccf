import BitcoinCoordinator.Coordinator

/-!
# What the writing functions do to the store

Many functions of the storage write at most once. Each is a function on stores here, and its program
either finds that function to change nothing, or has the backend take its result, or is refused and
leaves the store alone.
-/

namespace BitcoinCoordinator

open Foundation

variable {ctx : Ctx} {w w' : World}

/-- How a program that writes at most once, by a function on stores, can end. -/
inductive OneWrite (f : Store → Store) (w : World) : Except Stop Unit × World → Prop where
  | same (h : f w.store = w.store) : OneWrite f w (.ok (), w)
  | taken : OneWrite f w (.ok (), w.written (f w.store))
  | refused (stop : Stop) : OneWrite f w (.error stop, w.asked)

/-- A completed program that writes at most once has put its function's result in the store. -/
theorem OneWrite.store_eq {f : Store → Store} {u : Unit} (h : OneWrite f w (.ok u, w')) :
    w'.store = f w.store := by
  cases h with
  | same h => exact h.symm
  | taken => rfl

/-- A program that writes at most once keeps what asking and its write keep. -/
theorem OneWrite.keeps {f : Store → Store} {I : World → Prop} {m : Coord Unit}
    (h : ∀ w, OneWrite f w (m ctx w)) (hasked : ∀ w, I w → I w.asked)
    (hwritten : ∀ w, I w → I (w.written (f w.store))) : Prog.Keeps I m ctx := by
  intro w hw
  have hone := h w
  generalize m ctx w = result at hone ⊢
  cases hone with
  | same _ => exact hw
  | taken => exact hwritten w hw
  | refused _ => exact hasked w hw

/-- A write is one write. -/
theorem writeStore_oneWrite {f : Store → Store} : OneWrite f w (writeStore f ctx w) := by
  unfold writeStore
  split
  · exact OneWrite.taken
  · exact OneWrite.refused _

/-- A write whose function agrees with another on the current store. -/
theorem writeStore_oneWrite_of {f g : Store → Store} (h : f w.store = g w.store) :
    OneWrite g w (writeStore f ctx w) := by
  unfold writeStore
  split
  · rw [h]
    exact OneWrite.taken
  · exact OneWrite.refused _

/-- Writing what is there already changes nothing. -/
theorem Store.setTx_eq_self {s : Store} {tx : CoordinatedTx} (h : s.txs.get tx.txid = some tx) :
    s.setTx tx = s := by
  have htable : s.txs.set tx.txid tx = s.txs := Table.set_eq_self h
  unfold Store.setTx
  cases s
  simp only [Store.mk.injEq, and_true]
  exact htable

/-- The record found under an identifier after another was put. -/
theorem Store.get_setTx (s : Store) (tx : CoordinatedTx) (txid : Txid) :
    (s.setTx tx).txs.get txid = if txid = tx.txid then some tx else s.txs.get txid :=
  Table.get_set s.txs tx.txid txid tx

/-- The record found under an identifier after one was dropped. -/
theorem Store.get_eraseTx (s : Store) (id txid : Txid) :
    (s.eraseTx id).txs.get txid = if txid = id then none else s.txs.get txid :=
  Table.get_erase s.txs id txid

/-! ### Lists -/

/-- The store without an entry of the speedup list. -/
def Store.unlist (s : Store) (txid : Txid) : Store :=
  { s with speedupList := s.speedupList.filter fun id => decide (id ≠ txid) }

/-- The store with an entry at the end of the speedup list. -/
def Store.list (s : Store) (txid : Txid) : Store :=
  if txid ∈ s.speedupList then s else { s with speedupList := s.speedupList ++ [txid] }

/-- The store without a parent on its pending list. -/
def Store.unpend (s : Store) (txid : Txid) : Store :=
  { s with
    pendingSpeedupParents := s.pendingSpeedupParents.filter fun id => decide (id ≠ txid) }

/-- The store with a parent at the end of its pending list. -/
def Store.pend (s : Store) (txid : Txid) : Store :=
  if txid ∈ s.pendingSpeedupParents then s
  else { s with pendingSpeedupParents := s.pendingSpeedupParents ++ [txid] }

/-- The store with parents at the front of its pending list. -/
def Store.prepend (s : Store) (txids : List Txid) : Store :=
  { s with
    pendingSpeedupParents := (txids.filter fun id => decide (id ∉ s.pendingSpeedupParents)) ++
      s.pendingSpeedupParents }

/-- Filtering out what is not in a list keeps the list. -/
theorem filter_ne_eq_self {ids : List Txid} {txid : Txid} (h : txid ∉ ids) :
    (ids.filter fun id => decide (id ≠ txid)) = ids := by
  apply List.filter_eq_self.mpr
  intro id hid
  simpa using fun heq => h (by rw [← heq]; exact hid)

/-- Dropping an entry from the speedup list. -/
theorem removeSpeedupFromList_oneWrite (txid : Txid) :
    OneWrite (fun s => s.unlist txid) w (removeSpeedupFromList txid ctx w) := by
  change OneWrite _ w ((if txid ∈ w.store.speedupList then writeStore _ else pure () : Coord Unit)
    ctx w)
  split
  · exact writeStore_oneWrite_of rfl
  · next hout =>
    apply OneWrite.same
    unfold Store.unlist
    rw [filter_ne_eq_self hout]

/-- Appending to the speedup list. -/
theorem appendToSpeedupList_oneWrite (txid : Txid) :
    OneWrite (fun s => s.list txid) w (appendToSpeedupList txid ctx w) := by
  change OneWrite _ w ((if txid ∈ w.store.speedupList then pure () else writeStore _ : Coord Unit)
    ctx w)
  split
  · next hin => exact OneWrite.same (if_pos hin)
  · next hout => exact writeStore_oneWrite_of (if_neg hout).symm

/-- Dropping a parent from the pending list. -/
theorem removePendingSpeedupParent_oneWrite (txid : Txid) :
    OneWrite (fun s => s.unpend txid) w (removePendingSpeedupParent txid ctx w) := by
  change OneWrite _ w ((if txid ∈ w.store.pendingSpeedupParents then writeStore _ else pure () :
    Coord Unit) ctx w)
  split
  · exact writeStore_oneWrite_of rfl
  · next hout =>
    apply OneWrite.same
    unfold Store.unpend
    rw [filter_ne_eq_self hout]

/-- Putting a parent on the pending list. -/
theorem addPendingSpeedupParent_oneWrite (txid : Txid) :
    OneWrite (fun s => s.pend txid) w (addPendingSpeedupParent txid ctx w) := by
  change OneWrite _ w ((if txid ∈ w.store.pendingSpeedupParents then pure () else writeStore _ :
    Coord Unit) ctx w)
  split
  · next hin => exact OneWrite.same (if_pos hin)
  · next hout => exact writeStore_oneWrite_of (if_neg hout).symm

/-- Putting parents at the front of the pending list. -/
theorem prependPendingSpeedupParents_oneWrite (txids : List Txid) :
    OneWrite (fun s => s.prepend txids) w (prependPendingSpeedupParents txids ctx w) := by
  change OneWrite _ w ((if (txids.filter fun id => decide (id ∉ w.store.pendingSpeedupParents)) = []
    then pure () else writeStore _ : Coord Unit) ctx w)
  split
  · next hnone =>
    apply OneWrite.same
    unfold Store.prepend
    rw [hnone]
    rfl
  · exact writeStore_oneWrite_of rfl

/-! ### Spent flags -/

/-- The store with the spent flag of an outpoint set or cleared. -/
def Store.setSpent (s : Store) (op : OutPoint) (spent : Bool) : Store :=
  match s.funding op with
  | some record => s.setFunding op { record with spent := spent }
  | none =>
    match s.txs.get op.txid with
    | none => s
    | some tx =>
      match tx.kind with
      | .speedup kind => s.setTx { tx with
          kind := .speedup (kind.modifyContext fun c => { c with spent := spent }) }
      | _ => s

/-- Setting a flag to the value a kind has already. -/
theorem SpeedupKind.modifyContext_spent_self (kind : SpeedupKind) :
    (kind.modifyContext fun c => { c with spent := kind.context.spent }) = kind := by
  cases kind <;> rfl

/-- Setting the spent flag of an outpoint writes at most once. -/
theorem writeSpent_oneWrite (op : OutPoint) (spent : Bool) :
    OneWrite (fun s => s.setSpent op spent) w (writeSpent op spent ctx w) := by
  have hread : getFundingRecord op ctx w = (.ok (w.store.funding op), w) := rfl
  have hfound : getTxById op.txid ctx w = (.ok (w.store.txs.get op.txid), w) := rfl
  unfold writeSpent
  rw [Prog.bind_of_ok hread]
  cases hqueue : w.store.funding op with
  | some record =>
    by_cases hspent : record.spent = spent
    · simp only [hspent, if_true]
      apply OneWrite.same
      subst hspent
      simp only [Store.setSpent, hqueue]
      unfold Store.setFunding
      have hsame : (fun op' => if op' = op then some record else w.store.funding op') =
          w.store.funding := by
        funext op'
        split
        · next heq => rw [heq, hqueue]
        · rfl
      rw [hsame]
    · simp only [hspent, if_false]
      apply writeStore_oneWrite_of
      simp [Store.setSpent, hqueue]
  | none =>
    simp only
    rw [Prog.bind_of_ok hfound]
    cases hget : w.store.txs.get op.txid with
    | none =>
      apply OneWrite.same
      simp [Store.setSpent, hqueue, hget]
    | some tx =>
      change OneWrite _ w (setSpeedupSpent tx spent ctx w)
      unfold setSpeedupSpent
      cases hkind : tx.kind with
      | normal =>
        apply OneWrite.same
        simp [Store.setSpent, hqueue, hget, hkind]
      | needsSpeedup data =>
        apply OneWrite.same
        simp [Store.setSpent, hqueue, hget, hkind]
      | speedup kind =>
        by_cases hspent : kind.context.spent = spent
        · simp only [hspent, if_true]
          apply OneWrite.same
          have hsame : { tx with
              kind := .speedup (kind.modifyContext fun c => { c with spent := spent }) } = tx := by
            rw [← hspent, SpeedupKind.modifyContext_spent_self, ← hkind]
          simp only [Store.setSpent, hqueue, hget, hkind]
          rw [hsame]
          apply Store.setTx_eq_self
          rw [w.store.keyed _ _ hget, hget]
        · simp only [hspent, if_false]
          apply writeStore_oneWrite_of
          simp [Store.setSpent, hqueue, hget, hkind]

end BitcoinCoordinator
