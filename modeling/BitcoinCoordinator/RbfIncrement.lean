import BitcoinCoordinator.BoostTraces

/-!
# What an RBF pays on top of its predecessor

The price of a replacement sees only the floor of its predecessor's package rate. The step of one
sat/vB, the chain top-up and the predecessor's own size recover what the floor lost.
-/

namespace BitcoinCoordinator

open Foundation

/-- The total size of the parents a speedup was recorded with. -/
def CoordinatedTx.parentVbytes (tx : CoordinatedTx) : ℕ :=
  match tx.speedup? with
  | some kind => (kind.context.parentData.map fun p => p.2.2).sum
  | none => 0

/-- What is paid for a package is less than one step above its recorded rate. -/
theorem paid_lt_of_packageFeeRate {tx : Transaction} {fee parentVbytes rate : ℕ}
    (hrate : (feeInfoForPaidSpeedup tx fee parentVbytes).packageFeeRate = rate)
    (hsize : 0 < parentVbytes + tx.vsize) :
    parentVbytes + fee < (rate + 1) * (parentVbytes + tx.vsize) := by
  rw [packageFeeRate_feeInfoForPaidSpeedup] at hrate
  rw [← hrate, Nat.mul_comm]
  exact Nat.lt_mul_div_succ _ hsize

/-- A price above a package rate, with a top-up for a transaction no larger than the child, exceeds
what is one step above that rate by a sat for each vbyte of the child. -/
theorem step_add_childVsize_le {parentVbytes vsize childVsize rate feeRate chainDiffFee : ℕ}
    (hrate : rate + 1 ≤ feeRate) (hsize : vsize ≤ childVsize)
    (hdiff : vsize * (feeRate - rate) ≤ chainDiffFee) :
    (rate + 1) * (parentVbytes + vsize) + childVsize ≤
      feeRate * (parentVbytes + childVsize) + chainDiffFee := by
  have htopUp : vsize ≤ chainDiffFee :=
    calc vsize
        ≤ vsize * (feeRate - rate) := Nat.le_mul_of_pos_right _ (by omega)
      _ ≤ chainDiffFee := hdiff
  calc (rate + 1) * (parentVbytes + vsize) + childVsize
      = (rate + 1) * parentVbytes + rate * vsize + childVsize + vsize := by ring
    _ ≤ (rate + 1) * parentVbytes + rate * childVsize + childVsize + chainDiffFee := by
        have hgrow := Nat.mul_le_mul_left rate hsize
        omega
    _ = (rate + 1) * (parentVbytes + childVsize) + chainDiffFee := by ring
    _ ≤ feeRate * (parentVbytes + childVsize) + chainDiffFee :=
        Nat.add_le_add_right (Nat.mul_le_mul_right _ hrate) _

/-- An uncapped price covers the package at the rate and the chain top-up, net of the parents'
credit. -/
theorem mul_feeRate_le_price {cfg : FeeSettings} {pricing : Pricing} (hbump : 1 ≤ pricing.bumpFee)
    (huncapped : (cfg.price pricing).2 = false) :
    pricing.feeRate * (pricing.parentVbytes + pricing.childVsize) + pricing.chainDiffFee ≤
      pricing.parentVbytes + (cfg.price pricing).1 := by
  unfold FeeSettings.price at *
  rw [computeSpeedupFee_snd, decide_eq_false_iff_not] at huncapped
  rw [computeSpeedupFee_fst, min_eq_left (not_lt.mp huncapped)]
  exact (mul_feeRate_le_totalSpeedupFee _ _ _ _ _).trans
    (Nat.add_le_add_left (totalSpeedupFee_le_bumpedSpeedupFee _ _ _ _ _ hbump) _)

/-- The latest live speedup is the last of the unconfirmed ones. -/
theorem BoostPlan.Sound.getLast? {plan : BoostPlan} {cfg : BitcoinSettings} {s : Store}
    (h : plan.Sound cfg s.speedupsOrdered) : s.unconfirmedSpeedups.getLast? = some plan.last := by
  unfold Store.unconfirmedSpeedups
  rw [← List.head?_reverse, ← List.filter_reverse, List.head?_filter]
  exact h.last

/-- The top-up of a planned boost covers the predecessor itself. -/
theorem BoostPlan.Sound.le_chainFeeDiff {plan : BoostPlan} {cfg : BitcoinSettings} {s : Store}
    (h : plan.Sound cfg s.speedupsOrdered) (feeRate : ℕ) :
    plan.last.tx.vsize * (feeRate - plan.last.feeInfo.packageFeeRate) ≤
      (chainFeeDiff feeRate s.unconfirmedSpeedups).1 := by
  rw [chainFeeDiff_fst feeRate h.getLast?]
  exact List.le_sum_of_mem
    (List.mem_map.mpr ⟨plan.last, List.mem_of_getLast? h.getLast?, rfl⟩)

/-- An RBF of a plan credits the parents its predecessor was recorded with. -/
theorem BoostPlan.Sound.sum_parentEntries {plan : BoostPlan} {cfg : BitcoinSettings}
    {all : List CoordinatedTx} (h : plan.Sound cfg all) (hrbf : plan.useRbf = true) :
    (plan.parentEntries.map Prod.snd).sum = plan.last.parentVbytes := by
  obtain ⟨kind, hkind, hcontext⟩ := h.speedup
  unfold BoostPlan.parentEntries CoordinatedTx.parentVbytes
  rw [if_pos hrbf, hkind, hcontext, List.map_map]
  rfl

/-- A boost that replaces a speedup is an RBF of its plan's predecessor. -/
theorem BoostPlan.useRbf_of_replaces? {plan : BoostPlan} {tx : CoordinatedTx} {txid : Txid}
    {inputs : List Utxo} {context : SpeedupContext}
    (hkind : tx.kind = .speedup (plan.kind inputs context)) (h : tx.replaces? = some txid) :
    plan.useRbf = true ∧ plan.last.txid = txid := by
  unfold BoostPlan.kind at hkind
  unfold CoordinatedTx.replaces? at h
  rw [hkind] at h
  split at h
  · next hrbf =>
    split at hrbf
    · next huse =>
      cases hrbf
      exact ⟨huse, Option.some.inj h⟩
    · cases hrbf
  · cases h

/-- An entry whose past contains a history is no insertion of that history. -/
theorem not_mem_insertions_of_suffix {p : CoordinatedTx × Store × List Event} {log : List Event}
    (h : log <:+ p.2.2) : p ∉ insertions log := by
  have hshorter : ∀ {log : List Event}, p ∈ insertions log → p.2.2.length < log.length := by
    intro log hmem
    induction log with
    | nil => cases hmem
    | cons e older ih =>
      have hlater : p ∈ insertions older → p.2.2.length < (e :: older).length := by
        intro hold
        have hlength := ih hold
        simp only [List.length_cons]
        omega
      cases e with
      | inserted tx before =>
        rcases List.mem_cons.mp hmem with rfl | hold
        · exact Nat.lt_succ_self _
        · exact hlater hold
      | _ => exact hlater hmem
  intro hmem
  have hlength := h.length_le
  have hlt := hshorter hmem
  omega

/-- An uncapped RBF that the boost step stores, sized at least as large as the speedup it replaces,
pays the fee of that speedup and a sat for each of its own vbytes. -/
theorem boost_rbf_pays_increment (ctx : Ctx) (w : World) (skip : Bool) (tx last : CoordinatedTx)
    (before : Store) (older : List Event) (pricing : Pricing)
    (hsaved : (tx, before, older) ∈ insertions (boostIfStale skip ctx w).2.log)
    (hnew : w.log <:+ older) (hlast : w.store.txs.get last.txid = some last)
    (hreplaces : tx.replaces? = some last.txid)
    (hpaid : last.feeInfo = feeInfoForPaidSpeedup last.tx last.feeInfo.fee last.parentVbytes)
    (hvsize : 0 < last.tx.vsize) (hsigned : lastSigned older = some (pricing, tx.tx.vsize))
    (hbump : 1 ≤ pricing.bumpFee) (huncapped : (ctx.settings.fee.price pricing).2 = false)
    (hsize : last.tx.vsize ≤ pricing.childVsize) :
    tx.tx.vsize ≤ pricing.childVsize ∧
      last.feeInfo.fee + pricing.childVsize ≤ tx.feeInfo.fee := by
  have hboosted : Boosted ctx w (boostIfStale skip ctx w).1 (boostIfStale skip ctx w).2 :=
    boostIfStale_boosted skip
  have hfresh : (tx, before, older) ∉ insertions w.log := not_mem_insertions_of_suffix hnew
  rcases hboosted with hsame | ⟨plan, height, tx', before', older', hplan, hstored, hyields, -⟩
  · rw [hsame] at hsaved
    exact absurd hsaved hfresh
  rw [hstored] at hsaved
  rcases List.mem_cons.mp hsaved with heq | hold
  swap
  · exact absurd hold hfresh
  cases heq
  have hsound := planBoost_sound hplan
  obtain ⟨inputs, context, hkind⟩ := hyields.kind
  obtain ⟨hrbf, hid⟩ := BoostPlan.useRbf_of_replaces? hkind hreplaces
  have hsame : plan.last = last := by
    have hget := (mem_speedupsOrdered hsound.mem).2
    rw [hid, hlast] at hget
    exact (Option.some.inj hget).symm
  obtain ⟨networkFeeRate, childVsize, hpriced, hchild, hfee⟩ := hyields.signed
  rw [hsigned] at hpriced
  obtain ⟨rfl, -⟩ := Prod.mk.inj (Option.some.inj hpriced)
  refine ⟨hchild, ?_⟩
  generalize hprice : plan.pricing ctx.settings w.store.unconfirmedSpeedups networkFeeRate
    childVsize = pricing at *
  have hparents : pricing.parentVbytes = last.parentVbytes := by
    rw [← hprice, ← hsame]
    exact hsound.sum_parentEntries hrbf
  have hrate : last.feeInfo.packageFeeRate + 1 ≤ pricing.feeRate := by
    rw [← hprice, ← hsame]
    exact le_max_right _ _
  have hdiff : last.tx.vsize * (pricing.feeRate - last.feeInfo.packageFeeRate) ≤
      pricing.chainDiffFee := by
    rw [← hprice, ← hsame]
    exact hsound.le_chainFeeDiff _
  have hstep : (last.feeInfo.packageFeeRate + 1) * (last.parentVbytes + last.tx.vsize) +
      pricing.childVsize ≤ pricing.feeRate * (last.parentVbytes + pricing.childVsize) +
        pricing.chainDiffFee := step_add_childVsize_le hrate hsize hdiff
  have hfloor := paid_lt_of_packageFeeRate (congrArg FeeInfo.packageFeeRate hpaid).symm
    (Nat.add_pos_right _ hvsize)
  have hcovers : pricing.feeRate * (last.parentVbytes + pricing.childVsize) +
      pricing.chainDiffFee ≤ last.parentVbytes + tx.feeInfo.fee := by
    rw [hfee, ← hparents]
    exact mul_feeRate_le_price hbump huncapped
  omega

/-- The store of the example run: one CPFP in the mempool, and no free slot. -/
def staleTipStore : Store :=
  (runCalls singleSpeedupSettings (growingChainCalls.take 4) World.init).store

/-- The call that finds the CPFP stale a block later. -/
def staleTipCtx : Ctx :=
  ⟨singleSpeedupSettings,
    (sampleView 101 [sampleParent, firstOfChain] []).answers fixedBuilder 10 0⟩

/-- The CPFP of the example run is replaced at the price of the increment. -/
theorem boost_rbf_pays_increment_staleTip :
    ∃ p ∈ insertions (boostIfStale false staleTipCtx (World.start staleTipStore [] none)).2.log,
      ∃ last ∈ staleTipStore.speedupsOrdered, ∃ pricing,
        p.1.replaces? = some last.txid ∧ lastSigned p.2.2 = some (pricing, p.1.tx.vsize) ∧
        p.1.tx.vsize ≤ pricing.childVsize ∧
        last.feeInfo.fee + pricing.childVsize ≤ p.1.feeInfo.fee := by
  obtain ⟨p, hp, last, hlast, ⟨pricing, vsize⟩, hsigned, hreplaces, hpaid, hvsize, hsame, hbump,
      huncapped, hsize⟩ :
      ∃ p ∈ insertions
          (boostIfStale false staleTipCtx (World.start staleTipStore [] none)).2.log,
        ∃ last ∈ staleTipStore.speedupsOrdered,
          ∃ signed ∈ lastSigned p.2.2, p.1.replaces? = some last.txid ∧
            last.feeInfo =
              feeInfoForPaidSpeedup last.tx last.feeInfo.fee last.parentVbytes ∧
            0 < last.tx.vsize ∧ signed.2 = p.1.tx.vsize ∧ 1 ≤ signed.1.bumpFee ∧
            (staleTipCtx.settings.fee.price signed.1).2 = false ∧
            last.tx.vsize ≤ signed.1.childVsize := by decide +kernel
  obtain rfl : vsize = p.1.tx.vsize := hsame
  obtain ⟨tx, before, older⟩ := p
  exact ⟨_, hp, last, hlast, pricing, hreplaces, hsigned,
    boost_rbf_pays_increment staleTipCtx (World.start staleTipStore [] none) false tx last before
      older pricing hp List.nil_suffix (mem_speedupsOrdered hlast).2 hreplaces hpaid hvsize
      hsigned hbump huncapped hsize⟩

end BitcoinCoordinator
