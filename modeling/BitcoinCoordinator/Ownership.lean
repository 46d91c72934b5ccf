import BitcoinCoordinator.Departures
import BitcoinCoordinator.MonitorNews
import BitcoinCoordinator.Representation

/-!
# Whose transactions are tracked

A record is of the kind it was first stored with: a client transaction was registered, a speedup was built. The
speedup list names transactions that were built. So as long as no client registers a transaction that was built,
no client transaction is in the speedup list, and no record changes hands.
-/

namespace BitcoinCoordinator

open Foundation

variable {ctx : Ctx} {tidy : Prop} {phase : Phase} {w w' : World}

/-! ### Origins -/

/-- The history grows over moves. -/
theorem log_suffix_moves (hmoves : Relation.ReflTransGen (Move ctx tidy phase) w w') : w.log <:+ w'.log := by
  induction hmoves with
  | refl => exact List.suffix_rfl
  | tail _ hlast ih => exact ih.trans hlast.log_suffix

/-- A client transaction was registered under an identifier. -/
def IsRegistered (log : List Event) (txid : Txid) : Prop :=
  ∃ record s, .registering record s ∈ log ∧ record.txid = txid

/-- A speedup was built under an identifier. -/
def IsBuilt (log : List Event) (txid : Txid) : Prop :=
  ∃ record s, .inserted record s ∈ log ∧ record.txid = txid

/-- A record has the identifier and the transaction of a registration or of a build, depending on its kind. -/
structure CoordinatedTx.HasOrigin (log : List Event) (tx : CoordinatedTx) : Prop where
  registered : tx.speedup? = none →
    ∃ first s, .registering first s ∈ log ∧ first.txid = tx.txid ∧ first.tx = tx.tx
  built : tx.speedup?.isSome → ∃ first s, .inserted first s ∈ log ∧ first.txid = tx.txid ∧ first.tx = tx.tx

/-- A record that is no speedup was registered. -/
theorem CoordinatedTx.HasOrigin.client {log : List Event} {tx : CoordinatedTx} (h : tx.HasOrigin log)
    (hkind : tx.speedup? = none) : IsRegistered log tx.txid := by
  obtain ⟨first, s, hmem, hid, -⟩ := h.registered hkind
  exact ⟨first, s, hmem, hid⟩

/-- A record of a speedup was built. -/
theorem CoordinatedTx.HasOrigin.speedup {log : List Event} {tx : CoordinatedTx} (h : tx.HasOrigin log)
    (hkind : tx.speedup?.isSome) : IsBuilt log tx.txid := by
  obtain ⟨first, s, hmem, hid, -⟩ := h.built hkind
  exact ⟨first, s, hmem, hid⟩

/-- A record with the identifier and the body of one with an origin has one, also later. -/
theorem CoordinatedTx.HasOrigin.of_body {log log' : List Event} {tx tx' : CoordinatedTx}
    (h : tx.HasOrigin log) (hlog : log ⊆ log') (htxid : tx'.txid = tx.txid) (hbody : tx'.body = tx.body) :
    tx'.HasOrigin log' where
  registered hkind := by
    have hold : tx.speedup? = none := by
      by_contra hsome
      have hnew := CoordinatedTx.isSome_speedup?_of_body hbody.symm (Option.isSome_iff_ne_none.mpr hsome)
      rw [hkind] at hnew
      cases hnew
    obtain ⟨first, s, hmem, hid, htx⟩ := h.registered hold
    exact ⟨first, s, hlog hmem, hid.trans htxid.symm, htx.trans (congrArg Prod.fst hbody).symm⟩
  built hkind := by
    obtain ⟨first, s, hmem, hid, htx⟩ := h.built (CoordinatedTx.isSome_speedup?_of_body hbody hkind)
    exact ⟨first, s, hlog hmem, hid.trans htxid.symm, htx.trans (congrArg Prod.fst hbody).symm⟩

/-- A speedup that was just stored has its origin. -/
theorem CoordinatedTx.HasOrigin.of_inserted {log : List Event} {tx : CoordinatedTx} {s : Store}
    (htx : Insertable ctx w tx) (hnote : .inserted tx s ∈ log) : tx.HasOrigin log where
  registered hnone := by
    obtain ⟨kind, hkind, -⟩ := htx.funded
    rw [hkind] at hnone
    cases hnone
  built _ := ⟨tx, s, hnote, rfl, rfl⟩

/-- A client transaction that was just stored has its origin. -/
theorem CoordinatedTx.HasOrigin.of_registering {log : List Event} {tx : CoordinatedTx} {s : Store}
    (hkind : tx.speedup? = none) (hnote : .registering tx s ∈ log) : tx.HasOrigin log where
  registered _ := ⟨tx, s, hnote, rfl, rfl⟩
  built hsome := by
    rw [hkind] at hsome
    cases hsome

/-- What the history and the body of a record tell of it, a move keeps, once it is known of the records that are
stored for the first time. -/
theorem everyRecord_of_body {P : List Event → CoordinatedTx → Prop} (h : EveryRecord (P w.log) w)
    (hmove : Move ctx tidy phase w w')
    (hbody : ∀ log log' tx tx', P log tx → log ⊆ log' → tx'.txid = tx.txid → tx'.body = tx.body → P log' tx')
    (hinserted : ∀ tx, Insertable ctx w tx → .inserted tx w.store ∈ w'.log → P w'.log tx)
    (hregistered : ∀ tx, tx.speedup? = none → .registering tx w.store ∈ w'.log → P w'.log tx) :
    EveryRecord (P w'.log) w' := by
  have hlog : w.log ⊆ w'.log := hmove.log_suffix.subset
  have hold : EveryRecord (P w'.log) w :=
    fun s hversion txid tx hget => hbody _ _ tx tx (h s hversion txid tx hget) hlog rfl rfl
  apply hold.move hmove
  intro tx hput
  cases hput with
  | changed old _ hget hchange hinfo =>
    exact hbody _ _ old tx (hold.current hget) (List.Subset.refl _) hchange.txid_eq hchange.body_eq
  | vanished old height hget hstep hfrom =>
    exact hbody _ _ old _ (hold.current hget) (List.Subset.refl _) rfl rfl
  | rewrote copy _ hrewrite hread hdrift hnote =>
    exact hbody _ _ copy tx (hold.copy hread) (List.Subset.refl _) hrewrite.txid_eq hrewrite.body_eq
  | inserted _ htx hnote => exact hinserted tx htx hnote
  | registered _ hfresh hkind hnew hnote => exact hregistered tx hkind (hlog (List.mem_of_head? hnote))

/-- Every record of every version has an origin. -/
def OriginsKnown (w : World) : Prop := EveryRecord (CoordinatedTx.HasOrigin w.log) w

/-- Every move keeps the origins known. -/
theorem OriginsKnown.move (h : OriginsKnown w) (hmove : Move ctx tidy phase w w') : OriginsKnown w' := by
  apply everyRecord_of_body h hmove
  · exact fun _ _ _ _ horigin hlog htxid hbody => horigin.of_body hlog htxid hbody
  · exact fun tx htx hnote => CoordinatedTx.HasOrigin.of_inserted htx hnote
  · exact fun tx hkind hnote => CoordinatedTx.HasOrigin.of_registering hkind hnote

/-- Moves keep the origins known. -/
theorem origins_moves (hmoves : Relation.ReflTransGen (Move ctx tidy phase) w w') (h : OriginsKnown w) :
    OriginsKnown w' := by
  induction hmoves with
  | refl => exact h
  | tail _ hlast ih => exact ih.move hlast

/-! ### The speedup list -/

/-- Every listed transaction was built. -/
def ListsBuilt (w : World) : Prop := ∀ txid ∈ w.store.speedupList, IsBuilt w.log txid

/-- Outside the build steps the list only shrinks. -/
theorem Move.speedupList_sublist (h : Move ctx tidy phase w w') (hphase : phase ≠ .build) :
    w'.store.speedupList.Sublist w.store.speedupList := by
  rcases h with hplain | hpart
  · rw [hplain.speedupList_eq]
  · cases hpart with
    | inserted | listed => exact absurd rfl hphase
    | unlisted txid _ _ => exact List.filter_sublist
    | pended txid =>
      change (w.store.pend txid).speedupList.Sublist _
      rw [(w.store.pend_other txid).2.1]
    | queue s _ hwrite => cases hwrite <;> exact List.Sublist.refl _
    | _ => exact List.Sublist.refl _

/-- While the list only shrinks, what is listed was built. -/
theorem ListsBuilt.move (h : ListsBuilt w) (hmove : Move ctx tidy phase w w') (hphase : phase ≠ .build) :
    ListsBuilt w' := by
  intro txid hin
  obtain ⟨record, s, hmem, hid⟩ := h txid ((hmove.speedupList_sublist hphase).subset hin)
  exact ⟨record, s, hmove.log_suffix.subset hmem, hid⟩

/-- Storing and listing a speedup lists what was built, wherever it stops. -/
theorem Inserting.listsBuilt {tx : CoordinatedTx} {r : Except Stop Unit} (h : ListsBuilt w)
    (hend : Inserting tx w (r, w')) : ListsBuilt w' := by
  have hheld : ∀ txid ∈ w.store.speedupList, IsBuilt (w.holding tx).log txid := by
    intro txid hin
    obtain ⟨record, s, hmem, hid⟩ := h txid hin
    exact ⟨record, s, List.mem_cons_of_mem _ (List.mem_cons_of_mem _ hmem), hid⟩
  cases hend with
  | refused stop => exact h
  | unlisted stop => exact hheld
  | relisted hlisted =>
    intro txid hin
    obtain ⟨record, s, hmem, hid⟩ := hheld txid hin
    exact ⟨record, s, List.mem_cons_of_mem _ hmem, hid⟩
  | listed =>
    intro txid hin
    change txid ∈ ((w.store.setTx tx).list tx.txid).speedupList at hin
    rw [Store.speedupList_list] at hin
    have hbuilt : txid = tx.txid ∨ txid ∈ w.store.speedupList := by
      split at hin
      · exact Or.inr hin
      · exact (List.mem_append.mp hin).symm.imp_left List.mem_singleton.mp
    rcases hbuilt with rfl | hold
    · exact ⟨tx, w.store, by simp [World.written, World.noted, World.holding], rfl⟩
    · obtain ⟨record, s, hmem, hid⟩ := hheld txid hold
      exact ⟨record, s, List.mem_cons_of_mem _ (List.mem_cons_of_mem _ hmem), hid⟩

/-- An operation of several writes lists what was built. -/
theorem Whole.listsBuilt {r : Except Stop Unit} (h : ListsBuilt w) (hwhole : Whole ctx tidy r phase w w') :
    ListsBuilt w' := by
  by_cases hphase : phase = .build
  · subst hphase
    cases hwhole with
    | inserted tx htx hrun =>
      have hend : Inserting tx w (insertSpeedup tx ctx w) := insertSpeedup_inserting tx
      rw [hrun] at hend
      exact hend.listsBuilt h
  · have hmoves := hwhole.moves
    clear hwhole
    induction hmoves with
    | refl => exact h
    | tail _ hlast ih => exact ih.move hlast hphase

/-- A plain move leaves the list, so what is listed was built. -/
theorem Plain.listsBuilt (h : ListsBuilt w) (hplain : Plain ctx tidy phase w w') : ListsBuilt w' := by
  intro txid hin
  rw [hplain.speedupList_eq] at hin
  obtain ⟨record, s, hmem, hid⟩ := h txid hin
  exact ⟨record, s, (Move.plain hplain).log_suffix.subset hmem, hid⟩

/-- Every request lists what was built only, whatever it is answered and wherever it stops. -/
theorem exec_listsBuilt {request : Request} (h : ListsBuilt w) : ListsBuilt (exec request ctx w).2 := by
  have hserved : Served False (exec request) ctx w := exec_served request fun h => absurd h id
  apply hserved.preserves _ _ h
  · rintro w₁ w₂ hbuilt ⟨phase, hstep⟩
    cases hstep with
    | plain hplain => exact Plain.listsBuilt hbuilt hplain
    | whole hwhole => exact Whole.listsBuilt hbuilt hwhole
  · rintro w₁ w₂ hbuilt ⟨phase, stop, htorn⟩
    exact Whole.listsBuilt hbuilt htorn

/-! ### Owners -/

/-- Every record has an origin, what is listed was built, and records carry the identifiers of their
transactions as long as what is stored for the first time does. -/
structure Owned (w : World) : Prop where
  origins : OriginsKnown w
  lists : ListsBuilt w
  named : Throughout (fun e _ => e.Names) w.log → EveryRecord CoordinatedTx.IsNamed w

/-- Outside the build steps every move keeps the owners. -/
theorem Owned.move (h : Owned w) (hmove : Move ctx tidy phase w w') (hphase : phase ≠ .build) : Owned w' where
  origins := h.origins.move hmove
  lists := h.lists.move hmove hphase
  named := named_move h.named hmove

/-- Every request keeps the owners. -/
theorem Owned.exec {request : Request} (h : Owned w) : Owned (exec request ctx w).2 where
  origins := by
    have horigins : ∀ phase w w', OriginsKnown w → Move ctx False phase w w' → OriginsKnown w' :=
      fun _ _ _ hknown hmove => hknown.move hmove
    exact exec_keeps (fun h => absurd h id) horigins h.origins
  lists := exec_listsBuilt h.lists
  named := by
    have hnamed : ∀ phase w w', (Throughout (fun e _ => e.Names) w.log → EveryRecord CoordinatedTx.IsNamed w) →
        Move ctx False phase w w' →
        (Throughout (fun e _ => e.Names) w'.log → EveryRecord CoordinatedTx.IsNamed w') :=
      fun _ _ _ hnamed hmove => named_move hnamed hmove
    exact exec_keeps (fun h => absurd h id) hnamed h.named

/-- Before the first call nothing is owned. -/
theorem owned_init : Owned World.init where
  origins := by
    rintro s (rfl | ⟨after, hwrote⟩) txid tx hget
    · cases hget
    · cases hwrote
  lists := fun _ hin => absurd hin List.not_mem_nil
  named := by
    rintro - s (rfl | ⟨after, hwrote⟩) txid tx hget
    · cases hget
    · cases hwrote

/-- The owners are known after every run. -/
theorem owned_runCalls (cfg : BitcoinSettings) (calls : List Call) : Owned (runCalls cfg calls World.init) := by
  induction calls using List.reverseRecOn with
  | nil => exact owned_init
  | append_singleton calls call ih =>
    rw [runCalls_concat]
    exact ih.exec

/-- In every version of the store that a run ever makes, each record is found under the identifier computed from its
own transaction, and this very transaction was registered or built under it by a call of the run, depending on the
kind of the record. -/
theorem version_names_transaction (cfg : BitcoinSettings) (calls : List Call) :
    ∀ s, (runCalls cfg calls World.init).HasVersion s → ∀ txid record, s.txs.get txid = some record →
      record.txid = txid ∧ record.tx.computeTxid = txid ∧
        (record.speedup? = none → ∃ first before,
          .registering first before ∈ (runCalls cfg calls World.init).log ∧ first.txid = txid ∧
            first.tx = record.tx) ∧
        (record.speedup?.isSome → ∃ first before,
          .inserted first before ∈ (runCalls cfg calls World.init).log ∧ first.txid = txid ∧
            first.tx = record.tx) := by
  intro s hversion txid record hget
  have howned := owned_runCalls cfg calls
  have hkey : record.txid = txid := s.keyed txid record hget
  have hnamed : record.txid = record.tx.computeTxid :=
    howned.named (throughout_names cfg Store.empty [] none calls) s hversion txid record hget
  have horigin := howned.origins s hversion txid record hget
  refine ⟨hkey, hnamed.symm.trans hkey, ?_, ?_⟩
  · rw [← hkey]
    exact horigin.registered
  · rw [← hkey]
    exact horigin.built

/-- The parent of an example run is stored as the client registered it. -/
theorem version_names_transaction_rebuildCalls :
    ∃ record, (runCalls defaultSettings rebuildCalls World.init).store.txs.get sampleParent.computeTxid =
        some record ∧
      ∃ first before, .registering first before ∈ (runCalls defaultSettings rebuildCalls World.init).log ∧
        first.txid = sampleParent.computeTxid ∧ first.tx = record.tx := by
  have hstored : (((runCalls defaultSettings rebuildCalls World.init).store.txs.get
      sampleParent.computeTxid).map fun record => record.speedup?.isNone) = some true := by decide +kernel
  obtain ⟨record, hget, hclient⟩ := Option.map_eq_some_iff.mp hstored
  obtain ⟨-, -, hregistered, -⟩ :=
    version_names_transaction defaultSettings rebuildCalls _ (Or.inl rfl) _ record hget
  exact ⟨record, hget, hregistered (Option.isNone_iff_eq_none.mp hclient)⟩

/-- The speedup list holds no duplicates after any run. -/
theorem tidy_runCalls (cfg : BitcoinSettings) (calls : List Call) : IsTidy (runCalls cfg calls World.init) := by
  have hmove : ∀ call ∈ calls, ∀ phase w w', IsTidy w → Move ⟨cfg, call.answers⟩ False phase w w' → IsTidy w' :=
    fun _ _ _ _ _ hkept hmove => hkept.move hmove
  have hinit : IsTidy World.init := List.nodup_nil
  exact runCalls_induction hmove (fun h => absurd h id) hinit

/-- No client registered a transaction that was built. -/
def KeptApart (log : List Event) : Prop := ∀ txid, IsRegistered log txid → ¬ IsBuilt log txid

/-- The identifiers a history registered. -/
def registeredTxids (log : List Event) : List Txid :=
  log.filterMap fun e =>
    match e with
    | .registering record _ => some record.txid
    | _ => none

/-- An identifier is that of a registered transaction. -/
theorem mem_registeredTxids {log : List Event} {txid : Txid} :
    txid ∈ registeredTxids log ↔ IsRegistered log txid := by
  unfold registeredTxids
  rw [List.mem_filterMap]
  constructor
  · rintro ⟨e, hmem, he⟩
    cases e <;> cases he
    exact ⟨_, _, hmem, rfl⟩
  · rintro ⟨record, s, hmem, rfl⟩
    exact ⟨_, hmem, rfl⟩

instance (log : List Event) : Decidable (KeptApart log) :=
  decidable_of_iff (∀ txid ∈ registeredTxids log, txid ∉ builtTxids log) <|
    forall_congr' fun _ => by rw [mem_registeredTxids, mem_builtTxids]; rfl

/-- What was kept apart in a longer history was so before. -/
theorem KeptApart.of_subset {log log' : List Event} (h : KeptApart log') (hlog : log ⊆ log') : KeptApart log := by
  rintro txid ⟨client, s, hregistered, hid⟩ ⟨speedup, s', hbuilt, hid'⟩
  exact h txid ⟨client, s, hlog hregistered, hid⟩ ⟨speedup, s', hlog hbuilt, hid'⟩

/-- The record of a transaction that was built is a speedup. -/
theorem Owned.speedup_of_built (h : Owned w) (hapart : KeptApart w.log) {s : Store} {txid : Txid}
    {tx : CoordinatedTx} (hversion : w.HasVersion s) (hget : s.txs.get txid = some tx)
    (hbuilt : IsBuilt w.log txid) : tx.speedup?.isSome := by
  by_contra hnone
  have hclient := (h.origins s hversion txid tx hget).client (Option.not_isSome_iff_eq_none.mp hnone)
  rw [s.keyed txid tx hget] at hclient
  exact hapart txid hclient hbuilt

end BitcoinCoordinator
