import BitcoinCoordinator.CallTraces
import BitcoinCoordinator.RosterTraces

/-!
# What reviews and requests do to the roster

A review lets a speedup that vanished wait again only when it found nothing that replaces it. Evictions drop what
has settled, and the requests of a client concern no speedup.
-/

namespace BitcoinCoordinator

open Foundation

variable {ctx : Ctx} {w w' : World} {m₀ : Roster Txid} {G : Roster Txid → Prop} {P : Prop}

/-! ### Replacements -/

/-- A listed record is masked in the roster exactly when it has a live replacement among the listed speedups. -/
theorem Store.masked_iff {s : Store} {tx : CoordinatedTx} (hget : s.txs.get tx.txid = some tx)
    (hlisted : tx.txid ∈ s.speedupList) :
    s.roster.Masked tx.txid ↔ tx.hasLiveReplacement s.speedupsOrdered := by
  have hmark : (∃ a, s.roster tx.txid = some a ∧ a.marked) ↔
      (∃ kind, tx.speedup? = some kind ∧ kind.context.isBeingReplaced) := by
    rw [Store.roster_of_get hget hlisted]
    constructor
    · rintro ⟨a, hmember, hmarked⟩
      obtain ⟨kind, hkind, rfl⟩ := CoordinatedTx.of_member? hmember
      exact ⟨kind, hkind, hmarked⟩
    · rintro ⟨kind, hkind, hmarked⟩
      exact ⟨_, CoordinatedTx.member?_of_speedup? hkind, hmarked⟩
  have hreplacing : (∃ r, s.roster.Replacing r tx.txid) ↔
      ∃ other ∈ s.speedupsOrdered, other.state ≠ .failed ∧ other.replaces? = some tx.txid := by
    constructor
    · rintro ⟨r, a, hmember, hlive, hreplaces⟩
      obtain ⟨hin, other, hother, hmember⟩ := Store.roster_eq_some.mp hmember
      obtain ⟨_, _, rfl⟩ := CoordinatedTx.of_member? hmember
      refine ⟨other, List.mem_filterMap.mpr ⟨r, hin, hother⟩, fun hfailed => hlive ?_, hreplaces⟩
      exact TransactionState.stage_eq_failed.mpr hfailed
    · rintro ⟨other, hother, hlive, hreplaces⟩
      obtain ⟨hin, hother⟩ := mem_speedupsOrdered hother
      obtain ⟨kind, hkind⟩ := CoordinatedTx.exists_speedup?_of_replaces? hreplaces
      refine ⟨other.txid, _, (Store.roster_of_get hother hin).trans
        (CoordinatedTx.member?_of_speedup? hkind), fun hfailed => hlive ?_, hreplaces⟩
      exact TransactionState.stage_eq_failed.mp hfailed
  unfold Roster.Masked CoordinatedTx.hasLiveReplacement
  rw [hmark, hreplacing, Bool.or_eq_true, List.any_eq_true]
  apply or_congr
  · cases tx.speedup? <;> simp
  · simp

/-! ### Review of speedups -/

/-- A roster that follows another one of which something is known. -/
def Following (m₀ : Roster Txid) (P : Prop) (m : Roster Txid) : Prop := m₀.Follows m ∧ P

/-- A following roster stays so when a member fails. -/
theorem failStable_following : FailStable (Following m₀ P) :=
  fun _ _ _ h hget => ⟨h.1.fail hget, h.2⟩

/-- Putting a member that is there already changes nothing. -/
theorem Roster.set_eq_self {m : Roster Txid} {k : Txid} {a : Member Txid} (h : m k = some a) :
    m.set k a = m := by
  funext j
  rw [Roster.get_set]
  split
  · next heq => rw [heq, h]
  · rfl

/-- A copy that was in flight when the roster was taken. -/
structure Flying (m₀ : Roster Txid) (copy : CoordinatedTx) : Prop where
  flight : copy.isInFlight
  member : m₀ copy.txid = copy.member?

/-- A copy in flight did not wait. -/
theorem Flying.not_waits {copy : CoordinatedTx} (h : Flying m₀ copy) : ¬ m₀.Waits copy.txid := by
  rintro ⟨a, hmember, hwaiting⟩
  rw [h.member] at hmember
  obtain ⟨_, _, rfl⟩ := CoordinatedTx.of_member? hmember
  have hstate := TransactionState.stage_eq_waiting.mp hwaiting
  have hflight := h.flight
  unfold CoordinatedTx.isInFlight at hflight
  rw [hstate] at hflight
  cases hflight

/-- The stage of a record in flight. -/
theorem CoordinatedTx.stage_of_isInFlight {tx : CoordinatedTx} (h : tx.isInFlight) :
    tx.state.stage = .aloft ∨ tx.state.stage = .landed := by
  unfold isInFlight at h
  cases hstate : tx.state <;> simp_all [TransactionState.stage]

/-- A record in flight is active. -/
theorem CoordinatedTx.isActive_of_isInFlight {tx : CoordinatedTx} (h : tx.isInFlight) :
    tx.state.isActive := by
  unfold isInFlight at h
  cases hstate : tx.state <;> simp_all [TransactionState.isActive]

/-- A step of a copy in flight to a stage on chain. -/
theorem updateTxStateImpl_lands {copy : CoordinatedTx} {state : TransactionState}
    {height : Option BlockHeight} (hflight : copy.isInFlight) (hstored : StillStored copy w)
    (hstate : state = .confirmed ∨ state = .finalized) (h : Rostered (Following m₀ P) w) :
    Rostered (Following m₀ P) (updateTxStateImpl copy.txid state height ctx w).2 := by
  apply updateTxStateImpl_rostered h
  rintro tx a hget hstep - ⟨hfollows, hp⟩ hmember hstage
  have hcur : tx.isInFlight := by
    refine (hstored.drifted hget).isInFlight hflight hstep ?_
    rcases hstate with rfl | rfl <;> simp
  have hlanded : state.stage = .landed := by
    rcases hstate with rfl | rfl <;> rfl
  rw [hlanded]
  refine ⟨hfollows.land hmember ?_, hp⟩
  rw [hstage]
  exact CoordinatedTx.stage_of_isInFlight hcur

/-- An orphaned copy in flight. -/
theorem markOrphan_rostered {copy : CoordinatedTx} (hflight : copy.isInFlight)
    (hstored : StillStored copy w) (h : Rostered (Following m₀ P) w) :
    Rostered (Following m₀ P) (markOrphan copy.txid ctx w).2 := by
  apply updateTxStateImpl_rostered h
  rintro tx a hget hstep hstays hroster hmember hstage
  have hcur := (hstored.drifted hget).isInFlight hflight hstep (by simp)
  have haloft : tx.state = .inMempool := by
    unfold CoordinatedTx.isInFlight at hcur
    rcases Bool.or_eq_true_iff.mp hcur with hstate | hstate
    · exact of_decide_eq_true hstate
    · exact absurd rfl (hstays (of_decide_eq_true hstate)).1
  have hsame : ({ a with stage := TransactionState.inMempool.stage } : Member Txid) = a := by
    rw [← haloft, ← hstage]
  rw [hsame, Roster.set_eq_self hmember]
  exact hroster

/-- A copy in flight that is no longer found waits again, unless something replaces it. -/
theorem requeueNotFound_rostered {copy : CoordinatedTx} (deadline : BlockHeight)
    (hflight : copy.isInFlight) (hstored : StillStored copy w)
    (hout : P → ¬ m₀.Masked copy.txid) (h : Rostered (Following m₀ P) w) :
    Rostered (Following m₀ P) (requeueNotFound copy.txid deadline ctx w).2 := by
  apply requeueWith_rostered h
  intro tx hget hstep
  have hcur := (hstored.drifted hget).isInFlight hflight hstep (by simp)
  have hid : tx.txid = copy.txid := w.store.keyed _ _ hget
  rw [← hid] at hget hout
  apply putTx_rostered h
  refine h.putState hget rfl rfl (fun _ => CoordinatedTx.isActive_of_isInFlight hcur) ?_
  rintro a hstays ⟨hfollows, hp⟩ hmember hstage
  refine ⟨hfollows.requeue hmember (Or.inr ⟨?_, hout hp⟩), hp⟩
  unfold CoordinatedTx.isInFlight at hcur
  rcases Bool.or_eq_true_iff.mp hcur with hstate | hstate
  · rw [hstage, of_decide_eq_true hstate]
    rfl
  · exact absurd rfl (hstays (of_decide_eq_true hstate)).2

/-- No confirmed copy reappears in the mempool. -/
theorem markReorg_rostered {copy : CoordinatedTx} (height : BlockHeight) (hkept : IsKept copy w)
    (hstate : copy.state = .confirmed) (h : Rostered G w) : Rostered G (markReorg copy height ctx w).2 := by
  obtain ⟨⟨record, hget, hdrift⟩, hlisted⟩ := hkept
  have hid : record.txid = copy.txid := w.store.keyed _ _ hget
  apply putTx_rostered h
  apply h.put
  · exact fun hspeedup _ _ => hlisted hspeedup
  · intro hnone old hold
    change w.store.txs.get copy.txid = some old at hold
    rw [hget] at hold
    cases hold
    exact hdrift.speedup?_eq_none.mpr hnone
  · intro a hstays _ _ hmember
    have hsome : record.speedup?.isSome := by
      obtain ⟨kind, hkind, -⟩ := CoordinatedTx.of_member? hmember
      by_contra hnone
      rw [Option.not_isSome_iff_eq_none] at hnone
      have hcopy : copy.speedup? = some kind := hkind
      rw [hdrift.speedup?_eq_none.mp hnone] at hcopy
      cases hcopy
    have hconfirmed : record.state = .confirmed := by
      rcases hdrift.state with ⟨hsame, -⟩ | ⟨hfail, -, -⟩
      · rw [hsame, hstate]
      · rw [hstate] at hfail
        cases hfail
    rw [← hid] at hget
    exact absurd rfl (hstays.not_returned hget hid.symm hsome hconfirmed).1

/-- Settling what a finalized speedup replaced. -/
theorem removeReplacedRbf_rostered (hG : FailStable G) (tx : CoordinatedTx) (height : BlockHeight) :
    Prog.Keeps (Rostered G) (removeReplacedRbf tx height) ctx := by
  have hfrom : ∀ bound id, Prog.Keeps (Rostered G) (removeReplacedFrom tx.context height bound id) ctx := by
    intro bound
    induction bound with
    | zero => exact fun _ => Prog.Keeps.stop _
    | succ bound ih =>
      intro id
      refine Prog.Keeps.seq (Prog.Keeps.read _) fun found => ?_
      refine Prog.Keeps.seq (rostered_calm fun _ => monitorCancel_calm _) fun _ => ?_
      refine Prog.Keeps.seq (settleFailed_rostered hG id height) fun _ => ?_
      split
      · exact ih _
      · exact Prog.Keeps.pure _
  unfold removeReplacedRbf
  split
  · exact Prog.Keeps.pure _
  · exact Prog.Keeps.seq (Prog.Keeps.read _) fun tracked => hfrom _ _

/-- The roster after an entry left the speedup list. -/
theorem Store.roster_unlist (s : Store) (txid : Txid) : (s.unlist txid).roster = s.roster.erase txid := by
  funext id
  unfold roster unlist
  rw [Roster.get_erase]
  by_cases heq : id = txid <;> simp [heq]

/-- A settled transaction that did not wait leaves the speedup list. -/
theorem removeSpeedupFromList_rostered {txid : Txid} (hout : P → ¬ m₀.Waits txid) :
    Prog.Keeps (fun w => Rostered (Following m₀ P) w ∧ IsSettledAt txid w) (removeSpeedupFromList txid)
      ctx := by
  refine OneWrite.keeps (fun _ => removeSpeedupFromList_oneWrite txid) (fun _ hw => hw) ?_
  rintro w ⟨hroster, hsettled⟩
  refine ⟨hroster.step (List.suffix_cons _ _) ?_, hsettled⟩
  rintro - ⟨hfollows, hp⟩ hlists
  refine ⟨?_, ?_⟩
  · change Following m₀ P (w.store.unlist txid).roster
    rw [Store.roster_unlist]
    exact ⟨hfollows.erase (hout hp), hp⟩
  · intro id tx hget hspeedup hactive
    refine List.mem_filter.mpr ⟨hlists id tx hget hspeedup hactive, ?_⟩
    simp only [decide_eq_true_eq]
    rintro rfl
    have hterminal := hsettled tx hget
    cases hstate : tx.state <;> simp_all [TransactionState.isTerminal, TransactionState.isActive]

/-- Reaching the finality depth is a lifecycle step. -/
theorem markFinalized_eq (txid : Txid) (height : BlockHeight) :
    markFinalized txid height = updateTxStateImpl txid .finalized (some height) := rfl

/-- Settling a finalized speedup. -/
theorem finalizeSpeedup_rostered {copy : CoordinatedTx} (height : BlockHeight) (hflying : Flying m₀ copy)
    (hstored : StillStored copy w) (h : Rostered (Following m₀ P) w) :
    Rostered (Following m₀ P) (finalizeSpeedup copy height ctx w).2 := by
  have hfinalize : Rostered (Following m₀ P) (markFinalized copy.txid height ctx w).2 := by
    rw [markFinalized_eq]
    exact updateTxStateImpl_lands hflying.flight hstored (Or.inr rfl) h
  apply rostered_bind hfinalize
  intro _ w₁ h₁ hfinal
  have hremove : Prog.Keeps (fun w => Rostered (Following m₀ P) w ∧ IsSettledAt copy.txid w)
      (removeReplacedRbf copy height) ctx :=
    keeps_and (removeReplacedRbf_rostered failStable_following copy height)
      (removeReplacedRbf_keeps driftStable_settled copy height)
  have hswap : Prog.Keeps (fun w => Rostered (Following m₀ P) w ∧ IsSettledAt copy.txid w)
      (replaceFundingOnFinalize copy.txid) ctx := by
    apply replaceFundingOnFinalize_keeps
    · exact fun w e hw => ⟨hw.1.noted e, hw.2⟩
    · intro f hf
      have hsettled : Prog.Keeps (RecordAt copy.txid fun record => ∀ tx, record = some tx →
          tx.state.isTerminal = true) (writeStore f) ctx := writeStore_keeps_record fun s => (hf s).1
      exact keeps_and (writeOther_rostered (fun s => (hf s).1) fun s => (hf s).2.1) hsettled
    · exact removeSpeedupFromList_rostered fun _ => hflying.not_waits
  exact (Prog.Keeps.seq hremove (fun _ => hswap) w₁
    ⟨h₁, markFinalized_settles hflying.flight hstored hfinal⟩).1

/-- Reviewing one speedup. -/
theorem reviewSpeedup_handles {copy : CoordinatedTx} {all : List CoordinatedTx} (height : BlockHeight)
    (hflying : Flying m₀ copy) (hout : copy.hasLiveReplacement all = false → ¬ m₀.Masked copy.txid) :
    Handles (Following m₀ P) copy (reviewSpeedup all height copy) ctx := by
  have hflight := hflying.flight
  have hidle : Handles (Following m₀ P) copy (pure ()) ctx := fun _ hw _ => hw
  refine Handles.calm (m := settings) (fun _ => Prog.Reaches.ask _) fun cfg => ?_
  refine Handles.calm (fun _ => query_calm) fun status => ?_
  refine Handles.ite ?_ (Handles.ite ?_ (Handles.ite ?_ (Handles.ite ?_ (Handles.ite ?_ hidle))))
  · by_cases hstate : copy.state = .confirmed
    · rw [if_pos hstate]
      exact fun w hw hkept => markReorg_rostered height hkept hstate hw
    · rw [if_neg hstate]
      exact hidle
  · apply Handles.noted
    by_cases hlive : copy.hasLiveReplacement all = true
    · rw [if_pos hlive]
      exact hidle
    · rw [if_neg hlive]
      exact fun w hw hkept =>
        requeueNotFound_rostered _ hflight hkept.1 (fun _ => hout (by simpa using hlive)) hw
  · exact fun w hw hkept => finalizeSpeedup_rostered height hflying hkept.1 hw
  · exact fun w hw hkept => updateTxStateImpl_lands hflight hkept.1 (Or.inl rfl) hw
  · exact fun w hw hkept => markOrphan_rostered hflight hkept.1 hw

/-- A review of copies handles them one after the other, when a round keeps the copies still to come. -/
theorem review_rostered {txs : List CoordinatedTx} {body : CoordinatedTx → Coord Unit}
    (hbody : ∀ tx ∈ txs, Handles G tx (body tx) ctx)
    (hkeeps : ∀ tx (other : CoordinatedTx), other.txid ≠ tx.txid →
      Prog.Keeps (IsKept other) (body tx) ctx)
    (h : Rostered G w) (hready : ReviewReady True txs w) : Rostered G (Prog.forEach txs body ctx w).2 := by
  refine Prog.Keeps.forEach_inv (fun rest w₁ => rest ⊆ txs ∧ (rest.map CoordinatedTx.txid).Nodup ∧
    ∀ tx ∈ rest, IsKept tx w₁) ?_ ?_ h ⟨List.Subset.refl _, hready.1 trivial, ?_⟩
  · rintro tx rest w₁ hroster ⟨hsub, -, hkept⟩
    exact hbody tx (hsub List.mem_cons_self) w₁ hroster (hkept tx List.mem_cons_self)
  · rintro tx rest w₁ w₂ u ⟨hsub, hnodup, hkept⟩ hrun
    refine ⟨fun other hother => hsub (List.mem_cons_of_mem _ hother), (List.nodup_cons.mp hnodup).2, ?_⟩
    intro other hother
    refine (hkeeps tx other fun heq => ?_).run (hkept other (List.mem_cons_of_mem _ hother)) hrun
    exact (List.nodup_cons.mp hnodup).1 (List.mem_map.mpr ⟨other, hother, heq⟩)
  · intro tx htx
    have hcopy := hready.2 tx htx
    exact ⟨hcopy.drift trivial, hcopy.listed trivial⟩

/-- Step 2. -/
theorem reviewSpeedups_rostered {n : ℕ} (h : Rostered (Bounded n) w) (htidy : IsTidy w) :
    Rostered (Bounded n) (reviewSpeedups ctx w).2 := by
  apply rostered_bind (rostered_calm (fun _ => query_calm) w h)
  intro height w₁ h₁ hquery
  have htidy₁ : True → IsTidy w₁ := tidy_of_calm query_calm (fun _ => htidy) hquery
  have hstart : Rostered (Following w₁.store.roster (Bounded n w₁.store.roster)) w₁ :=
    h₁.mono fun hbounded => ⟨Roster.Follows.refl hbounded.1, hbounded⟩
  have hreview : Rostered (Following w₁.store.roster (Bounded n w₁.store.roster))
      (Prog.forEach (w₁.store.speedupsOrdered.filter CoordinatedTx.isInFlight)
        (reviewSpeedup w₁.store.speedupsOrdered height) ctx w₁).2 := by
    refine review_rostered ?_ ?_ hstart (reviewReady_speedups _ htidy₁)
    · intro tx htx
      obtain ⟨hordered, hflight⟩ := List.mem_filter.mp htx
      obtain ⟨hlisted, hget⟩ := mem_speedupsOrdered hordered
      refine reviewSpeedup_handles height ⟨hflight, Store.roster_of_get hget hlisted⟩ ?_
      intro hnone hmasked
      rw [Store.masked_iff hget hlisted, hnone] at hmasked
      cases hmasked
    · exact fun tx other hne => reviewSpeedup_keeps_copy hne
  exact hreview.mono fun hend => hend.2.follows hend.1

/-! ### Review of client transactions -/

/-- A lifecycle step of a client transaction changes no roster. -/
theorem updateTxStateImpl_client {copy : CoordinatedTx} {state : TransactionState}
    {height : Option BlockHeight} (hclient : copy.speedup? = none) (hstored : StillStored copy w)
    (h : Rostered G w) : Rostered G (updateTxStateImpl copy.txid state height ctx w).2 := by
  apply updateTxStateImpl_rostered h
  rintro tx a hget - - - hmember -
  obtain ⟨-, cur, hcur, hmember⟩ := Store.roster_eq_some.mp hmember
  rw [hget] at hcur
  cases hcur
  rw [CoordinatedTx.member?_eq_none.mpr ((hstored.drifted hget).speedup?_eq_none.mpr hclient)] at hmember
  cases hmember

/-- Reviewing one client transaction. -/
theorem reviewTransaction_handles {copy : CoordinatedTx} (height : BlockHeight)
    (hclient : copy.speedup? = none) : Handles G copy (reviewTransaction height copy) ctx := by
  have hidle : Handles G copy (pure ()) ctx := fun _ hw _ => hw
  refine Handles.calm (m := settings) (fun _ => Prog.Reaches.ask _) fun cfg => ?_
  refine Handles.calm (fun _ => query_calm) fun status => ?_
  refine Handles.ite ?_ (Handles.ite ?_ (Handles.ite ?_ (Handles.ite ?_ (Handles.ite ?_ hidle))))
  · by_cases hstate : copy.state = .confirmed
    · rw [if_pos hstate]
      exact fun w hw hkept => markReorg_rostered height hkept hstate hw
    · rw [if_neg hstate]
      refine Handles.ite ?_ hidle
      exact fun w hw _ => rostered_calm (fun _ => publish_calm _) w hw
  · apply Handles.noted
    intro w hw hkept
    apply requeueWith_rostered hw
    intro tx hget _
    have hnone : tx.speedup? = none := (hkept.1.drifted hget).speedup?_eq_none.mpr hclient
    have hid : tx.txid = copy.txid := w.store.keyed _ _ hget
    apply putTx_rostered hw
    apply hw.put
    · intro hspeedup
      have hsome : tx.speedup?.isSome := hspeedup
      rw [hnone] at hsome
      cases hsome
    · intro _ old hold
      have hsame : w.store.txs.get tx.txid = some old := hold
      rw [hid, hget] at hsame
      cases hsame
      exact hnone
    · intro a _ _ _ hmember
      obtain ⟨kind, hkind, -⟩ := CoordinatedTx.of_member? hmember
      have hsome : tx.speedup? = some kind := hkind
      rw [hnone] at hsome
      cases hsome
  · rw [markFinalized_eq]
    exact fun w hw hkept => updateTxStateImpl_client hclient hkept.1 hw
  · exact fun w hw hkept => updateTxStateImpl_client hclient hkept.1 hw
  · exact fun w hw hkept => updateTxStateImpl_client hclient hkept.1 hw

/-! ### Evictions and requests -/

/-- The roster after a record was dropped. -/
theorem Store.roster_eraseTx (s : Store) (txid : Txid) : (s.eraseTx txid).roster = s.roster.erase txid := by
  funext id
  unfold roster
  rw [Roster.get_erase, Store.get_eraseTx]
  by_cases heq : id = txid
  · rw [if_pos heq, if_pos heq]
    split <;> rfl
  · rw [if_neg heq, if_neg heq]
    rfl

/-- Dropping a record that settled, or of a client transaction. -/
theorem removeTx_rostered {n : ℕ} {txid : Txid}
    (hout : ∀ tx, w.store.txs.get txid = some tx → tx.state.isTerminal ∨ tx.speedup? = none)
    (h : Rostered (Bounded n) w) : Rostered (Bounded n) (removeTx txid ctx w).2 := by
  have hwaits : ¬ w.store.roster.Waits txid := by
    rintro ⟨a, hmember, hwaiting⟩
    obtain ⟨-, tx, hget, hmember⟩ := Store.roster_eq_some.mp hmember
    obtain ⟨kind, hkind, rfl⟩ := CoordinatedTx.of_member? hmember
    have hstate : tx.state = .toDispatch := TransactionState.stage_eq_waiting.mp hwaiting
    rcases hout tx hget with hterminal | hclient
    · rw [hstate] at hterminal
      cases hterminal
    · rw [hclient] at hkind
      cases hkind
  have herased : Rostered (Bounded n) (w.written (w.store.eraseTx txid)) := by
    apply h.step (List.suffix_cons _ _)
    intro _ hbounded hlists
    constructor
    · change Bounded n (w.store.eraseTx txid).roster
      rw [Store.roster_eraseTx]
      exact hbounded.follows ((Roster.Follows.refl hbounded.1).erase hwaits)
    · intro id tx hget
      change (w.store.eraseTx txid).txs.get id = some tx at hget
      rw [Store.get_eraseTx] at hget
      split at hget
      · cases hget
      · exact hlists id tx hget
  apply rostered_bind (writeStore_rostered h herased)
  intro _ w₁ h₁ hrun
  obtain ⟨-, rfl⟩ := writeStore_ok.mp hrun
  have hgone : (w.store.eraseTx txid).txs.get txid = none := by
    rw [Store.get_eraseTx, if_pos rfl]
  have hone : OneWrite (fun s => s.unlist txid) (w.written (w.store.eraseTx txid))
      (removeSpeedupFromList txid ctx (w.written (w.store.eraseTx txid))) :=
    removeSpeedupFromList_oneWrite txid
  generalize removeSpeedupFromList txid ctx (w.written (w.store.eraseTx txid)) = result at hone ⊢
  cases hone with
  | same _ => exact h₁
  | refused _ => exact h₁.asked
  | taken =>
    apply h₁.step (List.suffix_cons _ _)
    intro _ hbounded hlists
    constructor
    · change Bounded n ((w.store.eraseTx txid).unlist txid).roster
      rw [Store.roster_unlist]
      refine hbounded.follows ((Roster.Follows.refl hbounded.1).erase ?_)
      rintro ⟨a, hmember, -⟩
      obtain ⟨-, tx, hget, -⟩ := Store.roster_eq_some.mp hmember
      change (w.store.eraseTx txid).txs.get txid = some tx at hget
      rw [hgone] at hget
      cases hget
    · intro id tx hget hspeedup hactive
      refine List.mem_filter.mpr ⟨hlists id tx hget hspeedup hactive, ?_⟩
      simp only [decide_eq_true_eq]
      rintro rfl
      change (w.store.eraseTx id).txs.get id = some tx at hget
      rw [hgone] at hget
      cases hget

/-- Evicting one record. -/
theorem evictStaleTx_rostered {n : ℕ} (height : BlockHeight) {pending covered : List Txid}
    {tx : CoordinatedTx} (hsettled : IsSettledAt tx.txid w) (h : Rostered (Bounded n) w) :
    Rostered (Bounded n) (evictStaleTx height pending covered tx ctx w).2 := by
  apply rostered_bind (m := settings) h
  rintro cfg w₁ h₁ hcfg
  obtain ⟨-, rfl⟩ := settings_ok.mp hcfg
  generalize tx.settledBlockHeight = settled
  cases settled with
  | none => exact h₁
  | some settledHeight =>
    refine rostered_ite (fun _ => rostered_ite (fun _ => h₁) fun _ => ?_) fun _ => h₁
    apply rostered_bind (m := note fun _ => .evicting tx) (h₁.noted _)
    intro _ w₂ h₂ hnote
    obtain rfl := note_ok.mp hnote
    have hsettled₂ : IsSettledAt tx.txid (w₁.noted (.evicting tx)) := hsettled
    apply rostered_bind (removeTx_rostered (fun cur hcur => Or.inl (hsettled₂ cur hcur)) h₂)
    exact fun _ w₃ h₃ _ => rostered_calm (fun _ => publish_calm _) w₃ h₃

/-- Evicting the stale records. -/
theorem evictStaleTxs_rostered {n : ℕ} (height : BlockHeight) (h : Rostered (Bounded n) w) :
    Rostered (Bounded n) (evictStaleTxs height ctx w).2 := by
  apply rostered_read
  apply rostered_read
  apply rostered_read
  refine Prog.Keeps.forEach_inv (fun rest w₁ => (∀ tx ∈ rest, w.store.txs.get tx.txid = some tx ∧
    tx.state.isTerminal) ∧ w.store.Shrunk w₁.store) ?_ ?_ h ⟨?_, fun _ _ hget => hget, rfl, fun _ hid => hid⟩
  · rintro tx rest w₁ h₁ ⟨hrest, hshrunk⟩
    obtain ⟨hget, hterminal⟩ := hrest tx List.mem_cons_self
    refine evictStaleTx_rostered height (fun cur hcur => ?_) h₁
    have hsame := hshrunk.records _ _ hcur
    rw [hget] at hsame
    cases hsame
    exact hterminal
  · rintro tx rest w₁ w₂ u ⟨hrest, hshrunk⟩ hrun
    exact ⟨fun later hlater => hrest later (List.mem_cons_of_mem tx hlater),
      hshrunk.trans (evictStaleTx_shrunk hrun)⟩
  · intro tx htx
    obtain ⟨hvalues, hterminal⟩ := List.mem_filter.mp htx
    exact ⟨Store.mem_values.mp hvalues, hterminal⟩

/-- Step 1. -/
theorem reviewActive_rostered {n : ℕ} (h : Rostered (Bounded n) w) :
    Rostered (Bounded n) (reviewActive ctx w).2 := by
  apply rostered_bind (rostered_calm (fun _ => query_calm) w h)
  intro height w₁ h₁ _
  apply rostered_bind (evictStaleTxs_rostered height h₁)
  intro _ w₂ h₂ _
  apply rostered_read
  apply review_rostered
  · intro tx htx
    have hreviewable := (List.mem_filter.mp htx).2
    unfold CoordinatedTx.isReviewable at hreviewable
    apply reviewTransaction_handles
    exact Option.isNone_iff_eq_none.mp (Bool.and_eq_true_iff.mp hreviewable).1
  · exact fun tx other hne => reviewTransaction_keeps (spares_isKept hne)
  · exact h₂
  · rw [List.filter_filter]
    apply reviewReady_values
    intro tx htx
    simp only [CoordinatedTx.isReviewable, Bool.and_eq_true, Option.isNone_iff_eq_none] at htx
    exact htx.1.1

/-- Registering a client transaction. -/
theorem registerTx_rostered (tx : Transaction) {kind : TxKind} (context : String)
    (target : Option BlockHeight) (trigger stuck : Option ℕ)
    (hkind : (registeredTx tx kind context 0 trigger stuck 0).speedup? = none) (h : Rostered G w) :
    Rostered G (registerTx tx kind context target trigger stuck ctx w).2 := by
  apply rostered_read
  cases hfound : w.store.txs.get tx.computeTxid with
  | some found => exact h
  | none =>
    apply rostered_bind (rostered_calm (fun _ => query_calm) w h)
    intro height w₁ h₁ hheight
    apply rostered_bind (rostered_calm (fun _ => getNetworkFeeRate_calm) w₁ h₁)
    intro fee w₂ h₂ hfee
    apply rostered_bind (rostered_calm (fun _ => monitorWatch_calm _ _) w₂ h₂)
    intro _ w₃ h₃ hwatch
    have hfresh : w₃.store.txs.get tx.computeTxid = none := by
      rw [calm_txs (monitorWatch_calm _ _) hwatch, calm_txs getNetworkFeeRate_calm hfee,
        calm_txs query_calm hheight]
      exact hfound
    apply rostered_bind (m := note _) (h₃.noted _)
    intro _ w₄ h₄ hnote
    obtain rfl := note_ok.mp hnote
    refine rostered_bind (writeStore_rostered h₄ (h₄.put ?_ ?_ ?_)) ?_
    · intro hspeedup
      have hsome : (registeredTx tx kind context 0 trigger stuck 0).speedup?.isSome := hspeedup
      rw [hkind] at hsome
      cases hsome
    · intro _ old hold
      change w₃.store.txs.get tx.computeTxid = some old at hold
      rw [hfresh] at hold
      cases hold
    · intro a _ _ _ hmember
      obtain ⟨k, hk, -⟩ := CoordinatedTx.of_member? hmember
      have hsome : (registeredTx tx kind context 0 trigger stuck 0).speedup? = some k := hk
      rw [hkind] at hsome
      cases hsome
    · intro _ w₅ h₅ _
      apply rostered_ite
      · exact fun _ => oneWrite_rostered (fun _ => addPendingSpeedupParent_oneWrite _)
          (fun s => by unfold Store.pend; split <;> rfl) (fun s => by unfold Store.pend; split <;> rfl) w₅ h₅
      · exact fun _ => h₅

/-- Dropping cancelled transactions. -/
theorem dropCancelled_rostered {n : ℕ} {eligible : List Txid} (context : String) (trigger : Option ℕ)
    (hcancel : Cancellable eligible w) (h : Rostered (Bounded n) w) :
    Rostered (Bounded n) (dropCancelled eligible context trigger ctx w).2 := by
  have hpending : ∀ w, Calm (Prog.forEach eligible removePendingSpeedupParent) ctx w := fun _ =>
    Prog.Reaches.forEach fun txid _ _ => removePendingSpeedupParent_calm txid
  apply rostered_bind (m := note _) (h.noted _)
  intro _ w₁ h₁ hnote
  obtain rfl := note_ok.mp hnote
  apply rostered_bind (rostered_calm hpending _ h₁)
  intro _ w₂ h₂ hdrop
  apply rostered_bind (rostered_calm (fun _ => monitorCancel_calm _) w₂ h₂)
  intro _ w₃ h₃ hmonitor
  have hcancel₃ : Cancellable eligible w₃ := by
    intro txid hid tx hget
    rw [calm_txs (monitorCancel_calm _) hmonitor, calm_txs (hpending _) hdrop] at hget
    exact hcancel txid hid tx hget
  refine Prog.Keeps.forEach_inv Cancellable ?_ ?_ h₃ hcancel₃
  · intro txid rest w hw hready
    exact removeTx_rostered (fun tx hget => Or.inr (hready txid List.mem_cons_self tx hget).2) hw
  · intro txid rest w w' u hready hrun id hid tx hget
    rw [removeTx_store hrun] at hget
    exact hready id (List.mem_cons_of_mem _ hid) tx ((w.store.shrunk_erase txid).records id tx hget)

/-- Registering a funding UTXO changes no roster. -/
theorem addFunding_rostered (utxo : Utxo) : Prog.Keeps (Rostered G) (addFunding utxo) ctx := by
  have happend : Prog.Keeps (Rostered G) (appendFunding utxo) ctx := by
    refine Prog.Keeps.seq (fun _ hw => hw.noted _) fun _ => ?_
    refine Prog.Keeps.seq (writeOther_rostered (fun _ => rfl) fun _ => rfl) fun _ => ?_
    refine Prog.Keeps.seq (Prog.Keeps.read _) fun list => ?_
    refine Prog.Keeps.ite (fun _ => Prog.Keeps.pure _) fun _ => ?_
    exact writeOther_rostered (fun _ => rfl) fun _ => rfl
  refine Prog.Keeps.seq ?_ fun refused => rostered_calm fun _ => publishFeeNews_calm refused
  refine Prog.Keeps.seq (Prog.Keeps.ask _) fun cfg => ?_
  split
  · exact Prog.Keeps.pure _
  · exact Prog.Keeps.seq happend fun _ => Prog.Keeps.pure _

/-- A request other than a tick keeps a bound. -/
theorem exec_rostered {n : ℕ} {request : Request} (hrequest : request ≠ .tick)
    (h : Rostered (Bounded n) w) : Rostered (Bounded n) (exec request ctx w).2 := by
  cases request with
  | tick => exact absurd rfl hrequest
  | dispatchWithoutSpeedup tx context target trigger stuck =>
    exact registerTx_rostered tx context target trigger stuck rfl h
  | dispatchWithSpeedup tx data context target trigger =>
    exact registerTx_rostered tx context target trigger none rfl h
  | cancel data =>
    cases data with
    | transactions txids context trigger =>
      apply rostered_bind (rostered_calm (fun _ => eligibleToCancel_calm txids) w h)
      intro eligible w₁ h₁ hrun
      cases eligible with
      | nil => exact h₁
      | cons txid rest => exact dropCancelled_rostered context trigger (eligibleToCancel_ok hrun).2 h₁
    | other description => exact rostered_calm (fun _ => monitorCancel_calm _) w h
  | addFunding utxo => exact addFunding_rostered utxo w h
  | ackNews news =>
    have hack : Prog.Keeps (Rostered (Bounded n)) (ackCoordinatorNews news) ctx :=
      Prog.Keeps.seq (rostered_calm fun _ => query_calm) fun height =>
        rostered_calm fun _ => ackNews_calm news height
    exact hack w h
  | monitor data => exact rostered_calm (fun _ => monitorWatch_calm data false) w h

end BitcoinCoordinator
