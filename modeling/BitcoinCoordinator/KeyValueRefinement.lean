import BitcoinCoordinator.KeyValueStorage
import BitcoinCoordinator.Effects

/-!
# The backend implements the store

The store keeps one field for each kind of key, the backend one keyspace for all of them. No two keys coincide and
none but those of records lie below the path that a scan of the records visits, so every storage call answers over
the backend what it answers over the store, however the calls are strung together and whatever writes are refused.
-/

namespace BitcoinCoordinator

open Foundation

variable {α : Type} {text : KeyText} {ctx : Ctx} {b : Backend} {w : World}

/-! ### Keys -/

namespace CoordinatorStorage

/-- No two keys coincide. -/
theorem getKey_injective (text : KeyText) : Function.Injective (getKey text) := by
  intro k k' h
  cases k <;> cases k' <;>
    simp_all [getKey, coordinatorKey, speedupKey, fundingKey, text.txid_strictMono.injective.eq_iff,
      text.outPoint_injective.eq_iff]

/-- The keys of records are ordered as their identifiers. -/
theorem getKey_tx_strictMono (text : KeyText) : StrictMono fun txid => getKey text (.tx txid) := by
  intro txid txid' h
  have hlt := text.txid_strictMono h
  simp [getKey, coordinatorKey, List.cons_lt_cons_iff, hlt]

/-- Below the path of the records lie only the keys of records. -/
theorem exists_tx_of_below {text : KeyText} {key : StoreKey}
    (h : coordinatorKey ["txs"] [] <+: getKey text key) : ∃ txid, key = .tx txid := by
  cases key with
  | tx txid => exact ⟨txid, rfl⟩
  | _ => simp [getKey, coordinatorKey, speedupKey, fundingKey] at h

end CoordinatorStorage

open CoordinatorStorage (getKey getKey_injective)

/-! ### Backends that show a world -/

/-- A cell that holds a list, or nothing when the list is empty. -/
def ListCell (wrap : List α → StoredValue) (list : List α) (cell : Option StoredValue) : Prop :=
  cell = some (wrap list) ∨ cell = none ∧ list = []

/-- What the cell of a key holds. -/
def World.Content (w : World) : StoreKey → Option StoredValue → Prop
  | .tx txid, cell => cell = (w.store.txs.get txid).map .tx
  | .news, cell => ListCell .news w.news cell
  | .speedupList, cell => ListCell .txids w.store.speedupList cell
  | .pendingSpeedupParents, cell => ListCell .txids w.store.pendingSpeedupParents cell
  | .fundingList, cell => ListCell .outPoints w.store.fundingList cell
  | .funding op, cell => cell = (w.store.funding op).map .funding

/-- A backend shows a world: as many questions were asked, every cell holds what it should, and there are no other
cells. -/
structure Shows (text : KeyText) (b : Backend) (w : World) : Prop where
  clock : b.clock = w.clock
  content : ∀ key, w.Content key (b.cells.get (getKey text key))
  only : ∀ path value, b.cells.get path = some value → ∃ key, path = getKey text key

/-- Nothing is shown as nothing. -/
theorem shows_empty (text : KeyText) : Shows text Backend.empty World.init where
  clock := rfl
  content key := by
    cases key <;> first | rfl | exact Or.inr ⟨rfl, rfl⟩
  only path value h := by cases h

/-- Storing a value under a key shows a world that differs in it. -/
theorem Shows.set {w' : World} {key : StoreKey} {value : StoredValue} (h : Shows text b w)
    (hclock : w'.clock = w.clock + 1) (hself : w'.Content key (some value))
    (hothers : ∀ key' cell, key' ≠ key → w.Content key' cell → w'.Content key' cell) :
    Shows text ⟨b.cells.set (getKey text key) value, b.clock + 1⟩ w' where
  clock := by rw [hclock, h.clock]
  content key' := by
    rw [Table.get_set]
    split
    · next heq =>
      rw [getKey_injective text heq]
      exact hself
    · next hne => exact hothers key' _ (fun heq => hne (congrArg _ heq)) (h.content key')
  only path value' hget := by
    rw [Table.get_set] at hget
    split at hget
    · next heq => exact ⟨key, heq⟩
    · exact h.only path value' hget

/-- Removing a key shows a world that lacks it. -/
theorem Shows.erase {w' : World} {key : StoreKey} (h : Shows text b w) (hclock : w'.clock = w.clock + 1)
    (hself : w'.Content key none)
    (hothers : ∀ key' cell, key' ≠ key → w.Content key' cell → w'.Content key' cell) :
    Shows text ⟨b.cells.erase (getKey text key), b.clock + 1⟩ w' where
  clock := by rw [hclock, h.clock]
  content key' := by
    rw [Table.get_erase]
    split
    · next heq =>
      rw [getKey_injective text heq]
      exact hself
    · next hne => exact hothers key' _ (fun heq => hne (congrArg _ heq)) (h.content key')
  only path value' hget := by
    rw [Table.get_erase] at hget
    split at hget
    · cases hget
    · exact h.only path value' hget

/-- A refused write shows the world that was asked. -/
theorem Shows.asked (h : Shows text b w) : Shows text ⟨b.cells, b.clock + 1⟩ w.asked where
  clock := congrArg (· + 1) h.clock
  content key := h.content key
  only := h.only

/-- A note of the history does not show. -/
theorem Shows.noted (h : Shows text b w) (e : Event) : Shows text b (w.noted e) where
  clock := h.clock
  content key := h.content key
  only := h.only

/-! ### Reading and writing cells -/

namespace CoordinatorStorage

/-- Reading a record. -/
theorem getTxById_run (h : Shows text b w) (txid : Txid) :
    getTxById text txid ctx b = (.ok (w.store.txs.get txid), b) := by
  have hcell : b.cells.get (getKey text (.tx txid)) = (w.store.txs.get txid).map .tx := h.content (.tx txid)
  unfold getTxById get
  rw [hcell]
  cases w.store.txs.get txid <;> rfl

/-- Reading a funding record. -/
theorem getFundingRecord_run (h : Shows text b w) (op : OutPoint) :
    getFundingRecord text op ctx b = (.ok (w.store.funding op), b) := by
  have hcell : b.cells.get (getKey text (.funding op)) = (w.store.funding op).map .funding := h.content (.funding op)
  unfold getFundingRecord get
  rw [hcell]
  cases w.store.funding op <;> rfl

/-- Reading a list. -/
theorem getOrDefault_run {key : StoreKey} {wrap : List α → StoredValue} {decode : StoredValue → Option (List α)}
    {list : List α} (hcell : ListCell wrap list (b.cells.get (getKey text key)))
    (hdecode : decode (wrap list) = some list) :
    getOrDefault text decode key ctx b = (.ok list, b) := by
  have hget : ∃ found, get text decode key ctx b = (.ok found, b) ∧ found.getD [] = list := by
    unfold get
    rcases hcell with hsome | ⟨hnone, rfl⟩
    · rw [hsome]
      dsimp only
      rw [hdecode]
      exact ⟨some list, rfl, rfl⟩
    · rw [hnone]
      exact ⟨none, rfl, rfl⟩
  obtain ⟨found, hrun, hfound⟩ := hget
  unfold getOrDefault
  rw [Prog.bind_of_ok hrun, hfound]
  rfl

/-- Scanning the records. -/
theorem getAllTxs_run (h : Shows text b w) : getAllTxs text ctx b = (.ok w.store.txs.values, b) := by
  have hscan : b.cells.scan (coordinatorKey ["txs"] []) = w.store.txs.values.map .tx := by
    apply Table.scan_eq_values (getKey_tx_strictMono text)
    intro path value
    constructor
    · rintro ⟨hget, hbelow⟩
      obtain ⟨key, rfl⟩ := h.only path value hget
      obtain ⟨txid, rfl⟩ := exists_tx_of_below hbelow
      have hcell : b.cells.get (getKey text (.tx txid)) = (w.store.txs.get txid).map .tx := h.content (.tx txid)
      rw [hget] at hcell
      obtain ⟨tx, htx, hvalue⟩ := Option.map_eq_some_iff.mp hcell.symm
      exact ⟨txid, tx, htx, rfl, hvalue⟩
    · rintro ⟨txid, tx, htx, rfl, rfl⟩
      have hcell : b.cells.get (getKey text (.tx txid)) = (w.store.txs.get txid).map .tx := h.content (.tx txid)
      refine ⟨by rw [hcell, htx]; rfl, ?_⟩
      simp [getKey, coordinatorKey]
  have hdecode : ∀ txs : List CoordinatedTx, (txs.map StoredValue.tx).mapM StoredValue.tx? = some txs := by
    intro txs
    induction txs with
    | nil => rfl
    | cons tx rest ih => simp [StoredValue.tx?, ih]
  unfold getAllTxs partialGet decodeAll
  rw [hscan, hdecode]

/-- What reads a world off the backend simulates the reading of the world. -/
theorem simulates_of_run {m : Backed α} {f : World → α} (h : ∀ b w, Shows text b w → m ctx b = (.ok (f w), b)) :
    Prog.Simulates (Shows text) m (Prog.read f : Coord α) ctx := by
  intro b w hshows
  unfold Prog.SimulatesAt
  rw [h b w hshows]
  exact ⟨rfl, hshows⟩

/-- A write that shows the written world simulates the write of the store. -/
theorem write_simulates {f : Table StorageKey StoredValue → Table StorageKey StoredValue} {g : Store → Store}
    (h : ∀ b w, Shows text b w → Shows text ⟨f b.cells, b.clock + 1⟩ (w.written (g w.store))) :
    Prog.Simulates (Shows text) (write f) (writeStore g) ctx := by
  intro b w hshows
  unfold Prog.SimulatesAt write writeStore
  rw [hshows.clock]
  cases ctx.answers.storage w.clock with
  | error e => exact ⟨rfl, hshows.clock ▸ hshows.asked⟩
  | ok _ => exact ⟨rfl, hshows.clock ▸ h b w hshows⟩

/-- Storing a value simulates a write that changes the content of its cell only. -/
theorem set_simulates {key : StoreKey} {value : StoredValue} {g : Store → Store}
    (hself : ∀ w : World, (w.written (g w.store)).Content key (some value))
    (hothers : ∀ (w : World) key' cell, key' ≠ key → w.Content key' cell →
      (w.written (g w.store)).Content key' cell) :
    Prog.Simulates (Shows text) (set text key value) (writeStore g) ctx :=
  write_simulates fun _ w h => h.set rfl (hself w) (hothers w)

/-- Removing a key simulates a write that empties its cell only. -/
theorem remove_simulates {key : StoreKey} {g : Store → Store}
    (hself : ∀ w : World, (w.written (g w.store)).Content key none)
    (hothers : ∀ (w : World) key' cell, key' ≠ key → w.Content key' cell →
      (w.written (g w.store)).Content key' cell) :
    Prog.Simulates (Shows text) (remove text key) (writeStore g) ctx :=
  write_simulates fun _ w h => h.erase rfl (hself w) (hothers w)

/-- A write that shows the new news simulates the write of the news. -/
theorem writeNews_simulates {f : Table StorageKey StoredValue → Table StorageKey StoredValue}
    {g : List StoredNewsItem → List StoredNewsItem} (h : Shows text b w)
    (hwritten : Shows text ⟨f b.cells, b.clock + 1⟩ { w.asked with news := g w.news }) :
    Prog.SimulatesAt (Shows text) (write f) (writeNews g) ctx b w := by
  unfold Prog.SimulatesAt write writeNews
  rw [h.clock] at hwritten ⊢
  cases ctx.answers.storage w.clock with
  | error e => exact ⟨rfl, h.clock ▸ h.asked⟩
  | ok _ => exact ⟨rfl, hwritten⟩

/-! ### Cells one by one -/

/-- Storing a record. -/
theorem setTx_simulates (tx : CoordinatedTx) :
    Prog.Simulates (Shows text) (set text (.tx tx.txid) (.tx tx)) (writeStore fun s => s.setTx tx) ctx := by
  apply set_simulates
  · intro w
    change _ = ((w.store.setTx tx).txs.get tx.txid).map StoredValue.tx
    rw [Store.get_setTx, if_pos rfl]
    rfl
  · intro w key cell hne hcell
    cases key with
    | tx txid =>
      change _ = ((w.store.setTx tx).txs.get txid).map StoredValue.tx
      rw [Store.get_setTx, if_neg fun heq => hne (congrArg _ heq)]
      exact hcell
    | _ => exact hcell

/-- Removing a record. -/
theorem eraseTx_simulates (txid : Txid) :
    Prog.Simulates (Shows text) (remove text (.tx txid)) (writeStore fun s => s.eraseTx txid) ctx := by
  apply remove_simulates
  · intro w
    change _ = ((w.store.eraseTx txid).txs.get txid).map StoredValue.tx
    rw [Store.get_eraseTx, if_pos rfl]
    rfl
  · intro w key cell hne hcell
    cases key with
    | tx other =>
      change _ = ((w.store.eraseTx txid).txs.get other).map StoredValue.tx
      rw [Store.get_eraseTx, if_neg fun heq => hne (congrArg _ heq)]
      exact hcell
    | _ => exact hcell

/-- Storing a funding record. -/
theorem setFunding_simulates (op : OutPoint) (record : FundingData) :
    Prog.Simulates (Shows text) (putFundingRecord text op record) (writeStore fun s => s.setFunding op record) ctx := by
  apply set_simulates
  · intro w
    change _ = (if op = op then some record else w.store.funding op).map StoredValue.funding
    rw [if_pos rfl]
    rfl
  · intro w key cell hne hcell
    cases key with
    | funding other =>
      change _ = (if other = op then some record else w.store.funding other).map StoredValue.funding
      rw [if_neg fun heq => hne (congrArg _ heq)]
      exact hcell
    | _ => exact hcell

/-- Removing a funding record. -/
theorem eraseFunding_simulates (op : OutPoint) :
    Prog.Simulates (Shows text) (remove text (.funding op)) (writeStore fun s => s.eraseFunding op) ctx := by
  apply remove_simulates
  · intro w
    change _ = (if op = op then none else w.store.funding op).map StoredValue.funding
    rw [if_pos rfl]
    rfl
  · intro w key cell hne hcell
    cases key with
    | funding other =>
      change _ = (if other = op then none else w.store.funding other).map StoredValue.funding
      rw [if_neg fun heq => hne (congrArg _ heq)]
      exact hcell
    | _ => exact hcell

/-- Storing the speedup list. -/
theorem setSpeedupList_simulates (list : List Txid) : Prog.Simulates (Shows text)
    (set text .speedupList (.txids list)) (writeStore fun s => { s with speedupList := list }) ctx := by
  refine set_simulates (fun _ => Or.inl rfl) ?_
  intro w key cell hne hcell
  cases key <;> first | exact hcell | exact absurd rfl hne

/-- Storing the pending parents. -/
theorem setPendingParents_simulates (list : List Txid) : Prog.Simulates (Shows text)
    (set text .pendingSpeedupParents (.txids list)) (writeStore fun s => { s with pendingSpeedupParents := list })
    ctx := by
  refine set_simulates (fun _ => Or.inl rfl) ?_
  intro w key cell hne hcell
  cases key <;> first | exact hcell | exact absurd rfl hne

/-- Storing the funding queue. -/
theorem setFundingList_simulates (list : List OutPoint) : Prog.Simulates (Shows text)
    (setFundingList text list) (writeStore fun s => { s with fundingList := list }) ctx := by
  refine set_simulates (fun _ => Or.inl rfl) ?_
  intro w key cell hne hcell
  cases key <;> first | exact hcell | exact absurd rfl hne

/-- Removing the funding queue. -/
theorem eraseFundingList_simulates : Prog.Simulates (Shows text)
    (remove text .fundingList) (writeStore fun s => { s with fundingList := [] }) ctx := by
  refine remove_simulates (fun _ => Or.inr ⟨rfl, rfl⟩) ?_
  intro w key cell hne hcell
  cases key <;> first | exact hcell | exact absurd rfl hne

/-- Storing the news that a function makes of those stored. -/
theorem setNews_simulates (g : List StoredNewsItem → List StoredNewsItem) : Prog.Simulates (Shows text)
    (do
      let all ← getOrDefault text StoredValue.news? .news
      set text .news (.news (g all)))
    (writeNews g) ctx := by
  intro b w h
  have hread : getOrDefault text StoredValue.news? .news ctx b = (.ok w.news, b) :=
    getOrDefault_run (h.content .news) rfl
  unfold Prog.SimulatesAt
  rw [Prog.bind_of_ok hread]
  refine writeNews_simulates h (h.set rfl (Or.inl rfl) ?_)
  intro key cell hne hcell
  cases key <;> first | exact hcell | exact absurd rfl hne

/-- Reading a record. -/
theorem getTxById_simulates (txid : Txid) : Prog.Simulates (Shows text) (getTxById text txid)
    (BitcoinCoordinator.getTxById txid) ctx := simulates_of_run fun _ _ h => getTxById_run h txid

/-- Reading a funding record. -/
theorem getFundingRecord_simulates (op : OutPoint) : Prog.Simulates (Shows text) (getFundingRecord text op)
    (BitcoinCoordinator.getFundingRecord op) ctx := simulates_of_run fun _ _ h => getFundingRecord_run h op

/-- Reading the speedup list. -/
theorem speedupList_simulates : Prog.Simulates (Shows text) (getOrDefault text StoredValue.txids? .speedupList)
    (readStore Store.speedupList) ctx := simulates_of_run fun _ _ h => getOrDefault_run (h.content .speedupList) rfl

/-- Reading the pending parents. -/
theorem pendingParents_simulates : Prog.Simulates (Shows text)
    (getOrDefault text StoredValue.txids? .pendingSpeedupParents) (readStore Store.pendingSpeedupParents) ctx :=
  simulates_of_run fun _ _ h => getOrDefault_run (h.content .pendingSpeedupParents) rfl

/-- Reading the funding queue. -/
theorem fundingList_simulates : Prog.Simulates (Shows text) (fundingList text) (readStore Store.fundingList) ctx :=
  simulates_of_run fun _ _ h => getOrDefault_run (h.content .fundingList) rfl

/-! ### Storage calls -/

/-- A note of the store has no counterpart. -/
theorem noted_first {m : Backed α} {e : Store → Event} {n : Coord α}
    (h : Prog.Simulates (Shows text) m n ctx) : Prog.Simulates (Shows text) m (do note e; n) ctx :=
  Prog.Simulates.silent_first (fun _ w hs => ⟨(), _, rfl, hs.noted (e w.store)⟩) fun _ => h

/-- Nor does a note at the end. -/
theorem noted_last {m : Backed Unit} {e : Store → Event} {n : Coord Unit}
    (h : Prog.Simulates (Shows text) m n ctx) : Prog.Simulates (Shows text) m (do n; note e) ctx :=
  Prog.Simulates.silent_last h fun _ w hs => ⟨_, rfl, hs.noted (e w.store)⟩

/-- Storing a record with a note. -/
theorem putTx_simulates (tx : CoordinatedTx) (e : Store → Event) :
    Prog.Simulates (Shows text) (updateTx text tx) (putTx e tx) ctx :=
  Prog.Simulates.silent_first (fun _ w hs => ⟨w.store, w, rfl, hs⟩) fun _ => noted_last (setTx_simulates tx)

/-- Filtering an identifier out shortens a list exactly when it is there. -/
theorem length_filter_ne {list : List Txid} {txid : Txid} :
    (list.filter fun id => decide (id ≠ txid)).length ≠ list.length ↔ txid ∈ list := by
  rw [Ne, List.length_filter_eq_length_iff]
  simp

/-- Dropping an identifier from a list. -/
theorem removeFrom_simulates {key : StoreKey} {txid : Txid} {read : Store → List Txid}
    {store : List Txid → Store → Store}
    (hread : Prog.Simulates (Shows text) (getOrDefault text StoredValue.txids? key) (readStore read) ctx)
    (hset : ∀ list, Prog.Simulates (Shows text) (set text key (.txids list)) (writeStore (store list)) ctx) :
    Prog.Simulates (Shows text) (removeFrom text key txid)
      (do
        let list ← readStore read
        if txid ∈ list then writeStore (store (list.filter fun id => decide (id ≠ txid))) else pure ())
      ctx := by
  apply Prog.Simulates.bind hread
  intro list
  dsimp only
  by_cases hin : txid ∈ list
  · rw [if_pos hin, if_pos (length_filter_ne.mpr hin)]
    exact hset _
  · rw [if_neg hin, if_neg fun hne => hin (length_filter_ne.mp hne)]
    exact Prog.Simulates.pure ()

/-- Dropping a txid from the speedup list. -/
theorem removeSpeedupFromList_simulates (txid : Txid) : Prog.Simulates (Shows text)
    (removeSpeedupFromList text txid) (BitcoinCoordinator.removeSpeedupFromList txid) ctx :=
  removeFrom_simulates speedupList_simulates setSpeedupList_simulates

/-- Dropping a parent from the pending list. -/
theorem removePendingSpeedupParent_simulates (txid : Txid) : Prog.Simulates (Shows text)
    (removePendingSpeedupParent text txid) (BitcoinCoordinator.removePendingSpeedupParent txid) ctx :=
  removeFrom_simulates pendingParents_simulates setPendingParents_simulates

/-- Dropping a record. -/
theorem removeTx_simulates (txid : Txid) : Prog.Simulates (Shows text) (removeTx text txid)
    (BitcoinCoordinator.removeTx txid) ctx :=
  Prog.Simulates.bind (eraseTx_simulates txid) fun _ => removeSpeedupFromList_simulates txid

/-- Storing a news item. -/
theorem addNews_simulates (news : CoordinatorNews) : Prog.Simulates (Shows text) (addNews text news)
    (BitcoinCoordinator.addNews news) ctx := by
  intro b w h
  have hread : getOrDefault text StoredValue.news? .news ctx b = (.ok w.news, b) :=
    getOrDefault_run (h.content .news) rfl
  have hall : (Prog.read World.news : Coord _) ctx w = (.ok w.news, w) := rfl
  unfold Prog.SimulatesAt addNews BitcoinCoordinator.addNews
  rw [Prog.bind_of_ok hread, Prog.bind_of_ok hall]
  split
  · exact ⟨rfl, h⟩
  · have hset : Prog.SimulatesAt (Shows text) (set text .news (.news (w.news ++ [⟨news, none⟩])))
        (writeNews fun _ => w.news ++ [⟨news, none⟩]) ctx b w := by
      refine writeNews_simulates h (h.set rfl (Or.inl rfl) ?_)
      intro key cell hne hcell
      cases key <;> first | exact hcell | exact absurd rfl hne
    exact hset.bind fun _ _ _ _ _ hs => ⟨rfl, hs⟩

/-- Publishing a news item. -/
theorem publish_simulates (news : CoordinatorNews) : Prog.Simulates (Shows text) (publish text news)
    (do
      let _ ← BitcoinCoordinator.addNews news
      pure ())
    ctx :=
  Prog.Simulates.bind (addNews_simulates news) fun _ => Prog.Simulates.pure ()

/-- Reading the unacknowledged news. -/
theorem getNews_simulates : Prog.Simulates (Shows text) (getNews text) BitcoinCoordinator.getNews ctx :=
  simulates_of_run fun b w h => by
    have hread : getOrDefault text StoredValue.news? .news ctx b = (.ok w.news, b) :=
      getOrDefault_run (h.content .news) rfl
    unfold getNews
    rw [Prog.bind_of_ok hread]
    rfl

/-- Moving a record to a state. -/
theorem updateTxStateImpl_simulates (txid : Txid) (newState : TransactionState) (height : Option BlockHeight) :
    Prog.Simulates (Shows text) (updateTxStateImpl text txid newState height)
      (BitcoinCoordinator.updateTxStateImpl txid newState height) ctx := by
  apply Prog.Simulates.ite
  · exact fun _ => Prog.Simulates.stop _
  · intro _
    apply Prog.Simulates.bind (getTxById_simulates txid)
    intro found
    cases found with
    | none => exact publish_simulates _
    | some tx => exact Prog.Simulates.ite (fun _ => setTx_simulates _) fun _ => publish_simulates _

/-- Settling a record. -/
theorem settleTx_simulates (txid : Txid) (newState : TransactionState) (height : BlockHeight) :
    Prog.Simulates (Shows text) (settleTx text txid newState height)
      (BitcoinCoordinator.settleTx txid newState height) ctx :=
  Prog.Simulates.ite (fun _ => updateTxStateImpl_simulates _ _ _) fun _ => Prog.Simulates.stop _

/-- Putting a record back to dispatch. -/
theorem requeueWith_simulates {txid : Txid} {turn : CoordinatedTx → CoordinatedTx} {put : CoordinatedTx → Coord Unit}
    (hput : ∀ tx, Prog.Simulates (Shows text) (updateTx text (turn tx)) (put tx) ctx) :
    Prog.Simulates (Shows text) (requeueWith text txid turn) (BitcoinCoordinator.requeueWith txid put) ctx := by
  apply Prog.Simulates.bind (getTxById_simulates txid)
  intro found
  cases found with
  | none => exact publish_simulates _
  | some tx => exact Prog.Simulates.ite (fun _ => hput _) fun _ => publish_simulates _

/-- Collecting what a look finds at every entry, when the look reads the store. -/
theorem collect_run {K : Type} {look : K → Backed (Option α)} {f : K → Option α}
    (h : ∀ k, look k ctx b = (.ok (f k), b)) (list : List K) :
    collect look list ctx b = (.ok (list.filterMap f), b) := by
  induction list with
  | nil => rfl
  | cons k rest ih =>
    unfold collect
    rw [Prog.bind_of_ok (h k), Prog.bind_of_ok ih, List.filterMap_cons]
    cases f k <;> rfl

/-- Reading the speedups in creation order. -/
theorem getSpeedupsOrdered_run (h : Shows text b w) :
    getSpeedupsOrdered text ctx b = (.ok w.store.speedupsOrdered, b) := by
  have hlist : getOrDefault text StoredValue.txids? .speedupList ctx b = (.ok w.store.speedupList, b) :=
    getOrDefault_run (h.content .speedupList) rfl
  unfold getSpeedupsOrdered
  rw [Prog.bind_of_ok hlist]
  exact collect_run (fun txid => getTxById_run h txid) _

/-- Storing a speedup. -/
theorem insertSpeedup_simulates (tx : CoordinatedTx) : Prog.Simulates (Shows text) (insertSpeedup text tx)
    (BitcoinCoordinator.insertSpeedup tx) ctx := by
  apply Prog.Simulates.bind (putTx_simulates tx _)
  intro _
  apply noted_last
  apply Prog.Simulates.bind speedupList_simulates
  intro list
  exact Prog.Simulates.ite (fun _ => Prog.Simulates.pure ()) fun _ => setSpeedupList_simulates _

/-- Recording a pending parent. -/
theorem addPendingSpeedupParent_simulates (txid : Txid) : Prog.Simulates (Shows text)
    (addPendingSpeedupParent text txid) (BitcoinCoordinator.addPendingSpeedupParent txid) ctx := by
  apply Prog.Simulates.bind pendingParents_simulates
  intro list
  exact Prog.Simulates.ite (fun _ => Prog.Simulates.pure ()) fun _ => setPendingParents_simulates _

/-- Prepending pending parents. -/
theorem prependPendingSpeedupParents_simulates (txids : List Txid) : Prog.Simulates (Shows text)
    (prependPendingSpeedupParents text txids) (BitcoinCoordinator.prependPendingSpeedupParents txids) ctx := by
  unfold prependPendingSpeedupParents
  split
  · next hnone =>
    -- The store has no branch of its own for nothing to prepend.
    subst hnone
    exact simulates_of_run fun _ _ _ => rfl
  · apply Prog.Simulates.bind pendingParents_simulates
    intro list
    exact Prog.Simulates.ite (fun _ => Prog.Simulates.pure ()) fun _ => setPendingParents_simulates _

/-- Walking the pending list. -/
theorem collectPendingParents_simulates (list : List Txid) : Prog.Simulates (Shows text)
    (collectPendingParents text list) (BitcoinCoordinator.collectPendingParents list) ctx := by
  induction list with
  | nil => exact Prog.Simulates.pure []
  | cons txid rest ih =>
    apply Prog.Simulates.bind (getTxById_simulates txid)
    intro found
    have hdrop : Prog.Simulates (Shows text)
        (do removePendingSpeedupParent text txid; collectPendingParents text rest)
        (do
          BitcoinCoordinator.removePendingSpeedupParent txid
          BitcoinCoordinator.collectPendingParents rest)
        ctx := Prog.Simulates.bind (removePendingSpeedupParent_simulates txid) fun _ => ih
    have hkeep : ∀ tx, Prog.Simulates (Shows text)
        (do let live ← collectPendingParents text rest; pure (tx :: live))
        (do let live ← BitcoinCoordinator.collectPendingParents rest; pure (tx :: live)) ctx :=
      fun tx => Prog.Simulates.bind ih fun live => Prog.Simulates.pure (tx :: live)
    cases found with
    | none => exact hdrop
    | some tx =>
      dsimp only
      cases tx.state with
      | inMempool => exact hkeep tx
      | confirmed => exact hkeep tx
      | finalized => exact hkeep tx
      | failed => exact hdrop
      | toDispatch => exact ih

/-- Reading the pending parents a CPFP can be built for. -/
theorem getPendingSpeedupParents_simulates : Prog.Simulates (Shows text) (getPendingSpeedupParents text)
    BitcoinCoordinator.getPendingSpeedupParents ctx :=
  Prog.Simulates.bind pendingParents_simulates fun list => collectPendingParents_simulates list

/-- Looking for a tracked parent. -/
theorem neededParent_run (h : Shows text b w) (txid : Txid) :
    neededParent text txid ctx b = (.ok (if w.store.isNeedsSpeedup txid then some txid else none), b) := by
  unfold neededParent Store.isNeedsSpeedup
  rw [Prog.bind_of_ok (getTxById_run h txid)]
  cases w.store.txs.get txid <;> rfl

/-- Collecting the tracked parents of a list. -/
theorem neededParents_simulates (parents : List Txid) : Prog.Simulates (Shows text)
    (collect (neededParent text) parents) (readStore fun s => parents.filter s.isNeedsSpeedup) ctx := by
  apply simulates_of_run
  intro b w h
  have hfilter : (parents.filterMap fun txid => if w.store.isNeedsSpeedup txid then some txid else none) =
      parents.filter w.store.isNeedsSpeedup := by
    induction parents with
    | nil => rfl
    | cons txid rest ih =>
      rw [List.filterMap_cons, List.filter_cons, ih]
      cases w.store.isNeedsSpeedup txid <;> rfl
  rw [collect_run (fun txid => neededParent_run h txid) parents, hfilter]

/-- Putting the tracked parents of a failed CPFP back on the pending list. -/
theorem requeueProtocolParents_simulates (failedCpfp : CoordinatedTx) : Prog.Simulates (Shows text)
    (requeueProtocolParents text failedCpfp) (BitcoinCoordinator.requeueProtocolParents failedCpfp) ctx := by
  unfold requeueProtocolParents BitcoinCoordinator.requeueProtocolParents
  cases failedCpfp.kind with
  | speedup kind =>
    cases kind with
    | cpfp parents context =>
      exact Prog.Simulates.bind (neededParents_simulates parents) fun toPrepend =>
        prependPendingSpeedupParents_simulates toPrepend
    | rbf replaces inputs context => exact Prog.Simulates.pure ()
  | _ => exact Prog.Simulates.pure ()

/-- Reading the records that satisfy a condition. -/
theorem filtered_simulates (p : CoordinatedTx → Bool) : Prog.Simulates (Shows text)
    (do let txs ← getAllTxs text; pure (txs.filter p)) (readStore fun s => s.txs.values.filter p) ctx :=
  simulates_of_run fun _ _ h => by
    rw [Prog.bind_of_ok (getAllTxs_run h)]
    rfl

/-- Dropping a settled record. -/
theorem evictStaleTx_simulates (height : BlockHeight) (pending covered : List Txid) (tx : CoordinatedTx) :
    Prog.Simulates (Shows text) (evictStaleTx text height pending covered tx)
      (BitcoinCoordinator.evictStaleTx height pending covered tx) ctx := by
  apply Prog.Simulates.bind (Prog.Simulates.ask _)
  intro cfg
  cases tx.settledBlockHeight with
  | none => exact Prog.Simulates.pure ()
  | some settledHeight =>
    apply Prog.Simulates.ite
    · intro _
      apply Prog.Simulates.ite
      · exact fun _ => Prog.Simulates.pure ()
      · intro _
        apply noted_first
        exact Prog.Simulates.bind (removeTx_simulates _) fun _ => publish_simulates _
    · exact fun _ => Prog.Simulates.pure ()

/-- Dropping the settled records that are old enough. -/
theorem evictStaleTxs_simulates (height : BlockHeight) : Prog.Simulates (Shows text) (evictStaleTxs text height)
    (BitcoinCoordinator.evictStaleTxs height) ctx := by
  apply Prog.Simulates.bind (filtered_simulates _)
  intro settled
  apply Prog.Simulates.bind pendingParents_simulates
  intro pending b w h
  have hcovered : readStore Store.liveCovered ctx w = (.ok (liveCovered w.store.speedupsOrdered), w) := rfl
  unfold Prog.SimulatesAt
  rw [Prog.bind_of_ok (getSpeedupsOrdered_run h), Prog.bind_of_ok hcovered]
  exact Prog.Simulates.forEach (fun tx => evictStaleTx_simulates height pending _ tx) b w h

/-- Telling where an outpoint comes from. -/
theorem isSpeedupDerived_simulates (op : OutPoint) : Prog.Simulates (Shows text) (isSpeedupDerived text op)
    (readStore fun s => s.isSpeedupDerived op) ctx :=
  simulates_of_run fun b w h => by
    change _ = (Except.ok (w.store.isSpeedupDerived op), b)
    unfold isSpeedupDerived Store.isSpeedupDerived
    rw [Prog.bind_of_ok (getFundingRecord_run h op)]
    cases w.store.funding op with
    | some record => rfl
    | none =>
      dsimp only
      rw [Prog.bind_of_ok (getTxById_run h op.txid)]
      cases w.store.txs.get op.txid <;> rfl

/-- Reading the funding records in insertion order. -/
theorem readFundingRecords_simulates : Prog.Simulates (Shows text) (readFundingRecords text)
    BitcoinCoordinator.readFundingRecords ctx :=
  simulates_of_run fun b w h => by
    have hlist : fundingList text ctx b = (.ok w.store.fundingList, b) := getOrDefault_run (h.content .fundingList) rfl
    unfold readFundingRecords
    rw [Prog.bind_of_ok hlist]
    exact collect_run (fun op => getFundingRecord_run h op) _

/-- Appending a funding UTXO. -/
theorem appendFunding_simulates (utxo : Utxo) : Prog.Simulates (Shows text) (appendFunding text utxo)
    (BitcoinCoordinator.appendFunding utxo) ctx := by
  apply noted_first
  apply Prog.Simulates.bind (setFunding_simulates _ _)
  intro _
  apply Prog.Simulates.bind fundingList_simulates
  intro list
  exact Prog.Simulates.ite (fun _ => Prog.Simulates.pure ()) fun _ => setFundingList_simulates _

/-- Setting a spent flag. -/
theorem setSpent_simulates (op : OutPoint) (spent : Bool) : Prog.Simulates (Shows text) (setSpent text op spent)
    (BitcoinCoordinator.setSpent op spent) ctx := by
  apply noted_last
  apply Prog.Simulates.bind (getFundingRecord_simulates op)
  intro record
  cases record with
  | some record => exact Prog.Simulates.ite (fun _ => Prog.Simulates.pure ()) fun _ => setFunding_simulates _ _
  | none =>
    apply Prog.Simulates.bind (getTxById_simulates op.txid)
    intro found
    cases found with
    | none => exact Prog.Simulates.pure ()
    | some tx =>
      unfold setSpeedupSpent
      dsimp only
      cases tx.kind with
      | speedup kind => exact Prog.Simulates.ite (fun _ => Prog.Simulates.pure ()) fun _ => setTx_simulates _
      | _ => exact Prog.Simulates.pure ()

/-- Dropping every funding record. -/
theorem clearFundingRecords_simulates : Prog.Simulates (Shows text) (clearFundingRecords text)
    BitcoinCoordinator.clearFundingRecords ctx := by
  apply Prog.Simulates.bind fundingList_simulates
  intro list
  apply Prog.Simulates.bind (Prog.Simulates.forEach fun op => eraseFunding_simulates op)
  exact fun _ => eraseFundingList_simulates

/-- Dropping positions of the queue. -/
theorem dropQueued_simulates (positions : List ℕ) (list : List OutPoint) : Prog.Simulates (Shows text)
    (dropQueued text positions list) (BitcoinCoordinator.dropQueued positions list) ctx := by
  induction positions generalizing list with
  | nil => exact Prog.Simulates.pure list
  | cons position rest ih =>
    unfold dropQueued BitcoinCoordinator.dropQueued
    cases list[position]? with
    | none => exact Prog.Simulates.stop _
    | some removed => exact Prog.Simulates.bind (eraseFunding_simulates removed) fun _ => ih _

/-- Swapping the queue. -/
theorem swapQueued_simulates (txid : Txid) (change : Utxo) (spent : Bool) (positions : List ℕ)
    (list : List OutPoint) : Prog.Simulates (Shows text) (swapQueued text txid change spent positions list)
      (BitcoinCoordinator.swapQueued txid change spent positions list) ctx := by
  cases positions with
  | nil => exact Prog.Simulates.pure ()
  | cons first rest =>
    apply Prog.Simulates.bind (dropQueued_simulates _ _)
    intro list
    apply Prog.Simulates.bind (setFunding_simulates _ _)
    intro _
    apply Prog.Simulates.bind (setFundingList_simulates _)
    exact fun _ => removeSpeedupFromList_simulates txid

/-- Swapping a finalized speedup into the queue. -/
theorem replaceFundingOnFinalize_simulates (txid : Txid) : Prog.Simulates (Shows text)
    (replaceFundingOnFinalize text txid) (BitcoinCoordinator.replaceFundingOnFinalize txid) ctx := by
  apply noted_first
  apply Prog.Simulates.bind (getTxById_simulates txid)
  intro found
  cases found with
  | none => exact Prog.Simulates.pure ()
  | some tx =>
    dsimp only
    cases tx.speedupChangeUtxo with
    | error stop =>
      cases stop with
      | panic => exact Prog.Simulates.stop _
      | _ => exact Prog.Simulates.pure ()
    | ok change =>
      apply Prog.Simulates.bind (Prog.Simulates.ofExcept _)
      intro kind
      apply Prog.Simulates.bind fundingList_simulates
      intro list
      exact swapQueued_simulates _ _ _ _ _

end CoordinatorStorage

/-! ### Scripts of storage calls -/

/-- The calls of the storage, with what each returns. -/
inductive StorageCall : Type → Type where
  | insertTx (tx : CoordinatedTx) : StorageCall Unit
  | insertTxs (txs : List CoordinatedTx) : StorageCall Unit
  | updateTx (tx : CoordinatedTx) : StorageCall Unit
  | removeTx (txid : Txid) : StorageCall Unit
  | getTxById (txid : Txid) : StorageCall (Option CoordinatedTx)
  | getAllTxs : StorageCall (List CoordinatedTx)
  | getByState (state : TransactionState) : StorageCall (List CoordinatedTx)
  | getActiveTxs : StorageCall (List CoordinatedTx)
  | getSettledTxs : StorageCall (List CoordinatedTx)
  | existsTx (txid : Txid) : StorageCall Bool
  | updateTxState (txid : Txid) (newState : TransactionState) : StorageCall Unit
  | requeueNotFound (txid : Txid) (guardDeadline : BlockHeight) : StorageCall Unit
  | settleTx (txid : Txid) (newState : TransactionState) (height : BlockHeight) : StorageCall Unit
  | markAsRetry (txid : Txid) : StorageCall Unit
  | evictStaleTxs (height : BlockHeight) : StorageCall Unit
  | insertSpeedup (tx : CoordinatedTx) : StorageCall Unit
  | getSpeedupsOrdered : StorageCall (List CoordinatedTx)
  | addPendingSpeedupParent (txid : Txid) : StorageCall Unit
  | prependPendingSpeedupParents (txids : List Txid) : StorageCall Unit
  | removePendingSpeedupParent (txid : Txid) : StorageCall Unit
  | getPendingSpeedupParents : StorageCall (List CoordinatedTx)
  | requeueProtocolParents (failedCpfp : CoordinatedTx) : StorageCall Unit
  | getFundingRecord (op : OutPoint) : StorageCall (Option FundingData)
  | isSpeedupDerived (op : OutPoint) : StorageCall Bool
  | addNews (news : CoordinatorNews) : StorageCall Bool
  | getNews : StorageCall (List CoordinatorNews)
  | ackNews (news : CoordinatorNews) (height : BlockHeight) : StorageCall Unit
  | cleanupNews (height : BlockHeight) : StorageCall Unit
  | readFundingRecords : StorageCall (List FundingData)
  | appendFunding (utxo : Utxo) : StorageCall Unit
  | setSpent (op : OutPoint) (spent : Bool) : StorageCall Unit
  | clearFundingRecords : StorageCall Unit
  | replaceFundingOnFinalize (txid : Txid) : StorageCall Unit
  | isTxKnown (txid : Txid) : StorageCall Bool
  | isTxFailed (txid : Txid) : StorageCall Bool

/-- A storage call over the backend. -/
def StorageCall.onBackend (text : KeyText) {β : Type} : StorageCall β → Backed β
  | .insertTx tx => CoordinatorStorage.insertTx text tx
  | .insertTxs txs => CoordinatorStorage.insertTxs text txs
  | .updateTx tx => CoordinatorStorage.updateTx text tx
  | .removeTx txid => CoordinatorStorage.removeTx text txid
  | .getTxById txid => CoordinatorStorage.getTxById text txid
  | .getAllTxs => CoordinatorStorage.getAllTxs text
  | .getByState state => CoordinatorStorage.getByState text state
  | .getActiveTxs => CoordinatorStorage.getActiveTxs text
  | .getSettledTxs => CoordinatorStorage.getSettledTxs text
  | .existsTx txid => CoordinatorStorage.existsTx text txid
  | .updateTxState txid newState => CoordinatorStorage.updateTxState text txid newState
  | .requeueNotFound txid guardDeadline => CoordinatorStorage.requeueNotFound text txid guardDeadline
  | .settleTx txid newState height => CoordinatorStorage.settleTx text txid newState height
  | .markAsRetry txid => CoordinatorStorage.markAsRetry text txid
  | .evictStaleTxs height => CoordinatorStorage.evictStaleTxs text height
  | .insertSpeedup tx => CoordinatorStorage.insertSpeedup text tx
  | .getSpeedupsOrdered => CoordinatorStorage.getSpeedupsOrdered text
  | .addPendingSpeedupParent txid => CoordinatorStorage.addPendingSpeedupParent text txid
  | .prependPendingSpeedupParents txids => CoordinatorStorage.prependPendingSpeedupParents text txids
  | .removePendingSpeedupParent txid => CoordinatorStorage.removePendingSpeedupParent text txid
  | .getPendingSpeedupParents => CoordinatorStorage.getPendingSpeedupParents text
  | .requeueProtocolParents failedCpfp => CoordinatorStorage.requeueProtocolParents text failedCpfp
  | .getFundingRecord op => CoordinatorStorage.getFundingRecord text op
  | .isSpeedupDerived op => CoordinatorStorage.isSpeedupDerived text op
  | .addNews news => CoordinatorStorage.addNews text news
  | .getNews => CoordinatorStorage.getNews text
  | .ackNews news height => CoordinatorStorage.ackNews text news height
  | .cleanupNews height => CoordinatorStorage.cleanupNews text height
  | .readFundingRecords => CoordinatorStorage.readFundingRecords text
  | .appendFunding utxo => CoordinatorStorage.appendFunding text utxo
  | .setSpent op spent => CoordinatorStorage.setSpent text op spent
  | .clearFundingRecords => CoordinatorStorage.clearFundingRecords text
  | .replaceFundingOnFinalize txid => CoordinatorStorage.replaceFundingOnFinalize text txid
  | .isTxKnown txid => CoordinatorStorage.isTxKnown text txid
  | .isTxFailed txid => CoordinatorStorage.isTxFailed text txid

/-- A storage call over the store. -/
def StorageCall.onStore {β : Type} : StorageCall β → Coord β
  | .insertTx tx => BitcoinCoordinator.insertTx tx
  | .insertTxs txs => BitcoinCoordinator.insertTxs txs
  | .updateTx tx => BitcoinCoordinator.updateTx tx
  | .removeTx txid => BitcoinCoordinator.removeTx txid
  | .getTxById txid => BitcoinCoordinator.getTxById txid
  | .getAllTxs => BitcoinCoordinator.getAllTxs
  | .getByState state => BitcoinCoordinator.getByState state
  | .getActiveTxs => BitcoinCoordinator.getActiveTxs
  | .getSettledTxs => BitcoinCoordinator.getSettledTxs
  | .existsTx txid => BitcoinCoordinator.existsTx txid
  | .updateTxState txid newState => BitcoinCoordinator.updateTxState txid newState
  | .requeueNotFound txid guardDeadline => BitcoinCoordinator.requeueNotFound txid guardDeadline
  | .settleTx txid newState height => BitcoinCoordinator.settleTx txid newState height
  | .markAsRetry txid => BitcoinCoordinator.markAsRetry txid
  | .evictStaleTxs height => BitcoinCoordinator.evictStaleTxs height
  | .insertSpeedup tx => BitcoinCoordinator.insertSpeedup tx
  | .getSpeedupsOrdered => BitcoinCoordinator.getSpeedupsOrdered
  | .addPendingSpeedupParent txid => BitcoinCoordinator.addPendingSpeedupParent txid
  | .prependPendingSpeedupParents txids => BitcoinCoordinator.prependPendingSpeedupParents txids
  | .removePendingSpeedupParent txid => BitcoinCoordinator.removePendingSpeedupParent txid
  | .getPendingSpeedupParents => BitcoinCoordinator.getPendingSpeedupParents
  | .requeueProtocolParents failedCpfp => BitcoinCoordinator.requeueProtocolParents failedCpfp
  | .getFundingRecord op => BitcoinCoordinator.getFundingRecord op
  | .isSpeedupDerived op => readStore fun s => s.isSpeedupDerived op
  | .addNews news => BitcoinCoordinator.addNews news
  | .getNews => BitcoinCoordinator.getNews
  | .ackNews news height => BitcoinCoordinator.ackNews news height
  | .cleanupNews height => BitcoinCoordinator.cleanupNews height
  | .readFundingRecords => BitcoinCoordinator.readFundingRecords
  | .appendFunding utxo => BitcoinCoordinator.appendFunding utxo
  | .setSpent op spent => BitcoinCoordinator.setSpent op spent
  | .clearFundingRecords => BitcoinCoordinator.clearFundingRecords
  | .replaceFundingOnFinalize txid => BitcoinCoordinator.replaceFundingOnFinalize txid
  | .isTxKnown txid => readStore fun s => s.isTxKnown txid
  | .isTxFailed txid => readStore fun s => s.isTxFailed txid

open CoordinatorStorage in
/-- Every storage call over the backend simulates the one over the store. -/
theorem StorageCall.simulates (text : KeyText) (ctx : Ctx) {β : Type} (call : StorageCall β) :
    Prog.Simulates (Shows text) (call.onBackend text) call.onStore ctx := by
  cases call with
  | insertTx tx => exact setTx_simulates tx
  | insertTxs txs => exact Prog.Simulates.forEach fun tx => setTx_simulates tx
  | updateTx tx => exact setTx_simulates tx
  | removeTx txid => exact removeTx_simulates txid
  | getTxById txid => exact getTxById_simulates txid
  | getAllTxs => exact simulates_of_run fun _ _ h => getAllTxs_run h
  | getByState state => exact filtered_simulates _
  | getActiveTxs => exact filtered_simulates _
  | getSettledTxs => exact filtered_simulates _
  | existsTx txid =>
    exact simulates_of_run fun _ _ h => by
      rw [StorageCall.onBackend, CoordinatorStorage.existsTx, Prog.bind_of_ok (getTxById_run h txid)]
      rfl
  | updateTxState txid newState => exact updateTxStateImpl_simulates _ _ _
  | requeueNotFound txid guardDeadline => exact requeueWith_simulates fun tx => putTx_simulates _ _
  | settleTx txid newState height => exact settleTx_simulates _ _ _
  | markAsRetry txid => exact requeueWith_simulates fun tx => setTx_simulates _
  | evictStaleTxs height => exact evictStaleTxs_simulates height
  | insertSpeedup tx => exact insertSpeedup_simulates tx
  | getSpeedupsOrdered => exact simulates_of_run fun _ _ h => getSpeedupsOrdered_run h
  | addPendingSpeedupParent txid => exact addPendingSpeedupParent_simulates txid
  | prependPendingSpeedupParents txids => exact prependPendingSpeedupParents_simulates txids
  | removePendingSpeedupParent txid => exact removePendingSpeedupParent_simulates txid
  | getPendingSpeedupParents => exact getPendingSpeedupParents_simulates
  | requeueProtocolParents failedCpfp => exact requeueProtocolParents_simulates failedCpfp
  | getFundingRecord op => exact getFundingRecord_simulates op
  | isSpeedupDerived op => exact isSpeedupDerived_simulates op
  | addNews news => exact addNews_simulates news
  | getNews => exact getNews_simulates
  | ackNews news height => exact setNews_simulates _
  | cleanupNews height => exact setNews_simulates _
  | readFundingRecords => exact readFundingRecords_simulates
  | appendFunding utxo => exact appendFunding_simulates utxo
  | setSpent op spent => exact setSpent_simulates op spent
  | clearFundingRecords => exact clearFundingRecords_simulates
  | replaceFundingOnFinalize txid => exact replaceFundingOnFinalize_simulates txid
  | isTxKnown txid =>
    exact simulates_of_run fun _ _ h => by
      rw [StorageCall.onBackend, CoordinatorStorage.isTxKnown, Prog.bind_of_ok (getTxById_run h txid)]
      rfl
  | isTxFailed txid =>
    exact simulates_of_run fun b w h => by
      change _ = (Except.ok (w.store.isTxFailed txid), b)
      unfold Store.isTxFailed
      rw [StorageCall.onBackend, CoordinatorStorage.isTxFailed, Prog.bind_of_ok (getTxById_run h txid)]
      cases w.store.txs.get txid <;> rfl

/-- Whatever script of storage calls is run on a new backend, with whatever answers to the writes, it returns what it
returns over the store, or stops for the same reason, and leaves a backend that shows the world it leaves there. -/
theorem storage_refines (text : KeyText) (ctx : Ctx) (script : Script StorageCall α) :
    (script.run (StorageCall.onBackend text) ctx Backend.empty).1 =
        (script.run StorageCall.onStore ctx World.init).1 ∧
      Shows text (script.run (StorageCall.onBackend text) ctx Backend.empty).2
        (script.run StorageCall.onStore ctx World.init).2 :=
  Script.simulates (fun call => StorageCall.simulates text ctx call) script Backend.empty World.init
    (shows_empty text)

end BitcoinCoordinator
