import BitcoinCoordinator.NodeView
import Mathlib.Tactic.Linarith
import Mathlib.Tactic.Ring

/-!
# Package rates of saved speedups

The rate a speedup is recorded with comes from the size it is signed at, its fee from the size it was
priced at. The cap on the rate holds exactly when the difference of the two sizes does not exceed
what the cap leaves over, and a boost out-pays its predecessor exactly when its bump multiplier
exceeds a threshold that every multiplier of at least one exceeds.
-/

namespace BitcoinCoordinator

/-- The total size of the parents a pricing credits. -/
def Pricing.parentVbytes (pricing : Pricing) : ℕ := pricing.parentVsizes.sum

/-- The fee of a pricing before the multiplier and the cap. -/
def Pricing.totalFee (pricing : Pricing) : ℕ :=
  totalSpeedupFee pricing.parentVbytes pricing.childVsize pricing.feeRate pricing.isRbf
    pricing.chainDiffFee

/-- The fee of a pricing before the cap. -/
def Pricing.uncappedFee (pricing : Pricing) : ℕ :=
  bumpedSpeedupFee pricing.parentVbytes pricing.childVsize pricing.bumpFee pricing.feeRate
    pricing.isRbf pricing.chainDiffFee

/-- The signed transaction is so much smaller than the size it was priced at that the cap of that
size exceeds the maximum rate, and the fee asked for reaches beyond the maximum rate. -/
def Pricing.Overshoots (pricing : Pricing) (maxFeerate vsize : ℕ) : Prop :=
  0 < pricing.parentVbytes + vsize ∧
    pricing.parentVbytes + vsize ≤ maxFeerate * (pricing.childVsize - vsize) ∧
    (maxFeerate + 1) * (pricing.parentVbytes + vsize) ≤
      pricing.parentVbytes + pricing.uncappedFee

/-- The cap is the package at the maximum rate less the parents' credit. -/
theorem add_speedupFeeCap {maxFeerate : ℕ} (parentVbytes childVsize : ℕ) (hmax : 1 ≤ maxFeerate) :
    parentVbytes + speedupFeeCap maxFeerate parentVbytes childVsize =
      maxFeerate * (parentVbytes + childVsize) := by
  have hcredit : parentVbytes ≤ maxFeerate * (parentVbytes + childVsize) :=
    calc parentVbytes
        ≤ 1 * (parentVbytes + childVsize) := by omega
      _ ≤ maxFeerate * (parentVbytes + childVsize) := Nat.mul_le_mul_right _ hmax
  unfold speedupFeeCap minRelayFeeRate
  omega

/-- The total covers the package at the rate and the chain top-up, net of the parents' credit. -/
theorem mul_feeRate_le_totalSpeedupFee (parentVbytes childVsize feeRate : ℕ) (isRbf : Bool)
    (chainDiffFee : ℕ) :
    feeRate * (parentVbytes + childVsize) + chainDiffFee ≤
      parentVbytes + totalSpeedupFee parentVbytes childVsize feeRate isRbf chainDiffFee := by
  have hcomm := Nat.mul_comm feeRate (parentVbytes + childVsize)
  unfold totalSpeedupFee
  simp only [minRelayFeeRate, Nat.mul_one]
  split <;> omega

/-- The fee is the smaller of the multiplied total and the cap. -/
theorem computeSpeedupFee_fst (cfg : FeeSettings) (parentVsizes : List ℕ) (childVsize : ℕ)
    (bumpFee : ℚ) (feeRate : ℕ) (isRbf : Bool) (chainDiffFee : ℕ) :
    (cfg.computeSpeedupFee parentVsizes childVsize bumpFee feeRate isRbf chainDiffFee).1 =
      min (bumpedSpeedupFee parentVsizes.sum childVsize bumpFee feeRate isRbf chainDiffFee)
        (speedupFeeCap cfg.maxFeerateSatVb parentVsizes.sum childVsize) := by
  unfold FeeSettings.computeSpeedupFee
  simp only
  split
  · next h => exact (min_eq_right (le_of_lt h)).symm
  · next h => exact (min_eq_left (not_lt.mp h)).symm

/-- The fee counts as capped when the multiplied total exceeds the cap. -/
theorem computeSpeedupFee_snd (cfg : FeeSettings) (parentVsizes : List ℕ) (childVsize : ℕ)
    (bumpFee : ℚ) (feeRate : ℕ) (isRbf : Bool) (chainDiffFee : ℕ) :
    (cfg.computeSpeedupFee parentVsizes childVsize bumpFee feeRate isRbf chainDiffFee).2 =
      decide (speedupFeeCap cfg.maxFeerateSatVb parentVsizes.sum childVsize <
        bumpedSpeedupFee parentVsizes.sum childVsize bumpFee feeRate isRbf chainDiffFee) := by
  unfold FeeSettings.computeSpeedupFee
  simp only
  split
  · next h => exact (decide_eq_true h).symm
  · next h => exact (decide_eq_false h).symm

/-- The parents' credit and the fee of a pricing: at most the maximum rate times the priced size. -/
theorem price_add_parentVbytes {cfg : FeeSettings} (pricing : Pricing)
    (hmax : 0 < cfg.maxFeerateSatVb) :
    pricing.parentVbytes + (cfg.price pricing).1 =
      min (pricing.parentVbytes + pricing.uncappedFee)
        (cfg.maxFeerateSatVb * (pricing.parentVbytes + pricing.childVsize)) := by
  have hcap := add_speedupFeeCap pricing.parentVbytes pricing.childVsize hmax
  have hprice : (cfg.price pricing).1 = min pricing.uncappedFee
      (speedupFeeCap cfg.maxFeerateSatVb pricing.parentVbytes pricing.childVsize) :=
    computeSpeedupFee_fst cfg _ _ _ _ _ _
  omega

/-- The recorded package rate of a speedup. -/
theorem packageFeeRate_feeInfoForPaidSpeedup (tx : Transaction) (fee parentVbytes : ℕ) :
    (feeInfoForPaidSpeedup tx fee parentVbytes).packageFeeRate =
      (parentVbytes + fee) / (parentVbytes + tx.vsize) := by
  simp [feeInfoForPaidSpeedup, minRelayFeeRate]

/-- The recorded rate stays within the maximum unless the pricing overshoots. -/
theorem packageFeeRate_le_max_iff {cfg : FeeSettings} {pricing : Pricing} {tx : Transaction}
    (hmax : 0 < cfg.maxFeerateSatVb) (hsize : tx.vsize ≤ pricing.childVsize) :
    (feeInfoForPaidSpeedup tx (cfg.price pricing).1 pricing.parentVbytes).packageFeeRate ≤
        cfg.maxFeerateSatVb ↔ ¬ pricing.Overshoots cfg.maxFeerateSatVb tx.vsize := by
  rw [packageFeeRate_feeInfoForPaidSpeedup, price_add_parentVbytes pricing hmax]
  unfold Pricing.Overshoots
  have hsplit : cfg.maxFeerateSatVb * (pricing.parentVbytes + pricing.childVsize) =
      cfg.maxFeerateSatVb * (pricing.parentVbytes + tx.vsize) +
        cfg.maxFeerateSatVb * (pricing.childVsize - tx.vsize) := by
    rw [← Nat.mul_add]
    congr 1
    omega
  have hnext : (cfg.maxFeerateSatVb + 1) * (pricing.parentVbytes + tx.vsize) =
      cfg.maxFeerateSatVb * (pricing.parentVbytes + tx.vsize) +
        (pricing.parentVbytes + tx.vsize) := Nat.succ_mul _ _
  rcases Nat.eq_zero_or_pos (pricing.parentVbytes + tx.vsize) with hzero | hpos
  · simp [hzero]
  · rw [← Nat.lt_succ_iff, Nat.div_lt_iff_lt_mul hpos]
    rw [Nat.succ_eq_add_one, hsplit, hnext]
    omega

/-- A boost pays more than its predecessor when its multiplier lifts the fee over a threshold set by
the predecessor's rate and the signed size. -/
def Pricing.Outpays (pricing : Pricing) (lastRate vsize : ℕ) : Prop :=
  0 < pricing.parentVbytes + vsize ∧
    ((lastRate + 1) * (pricing.parentVbytes + vsize) ≤ pricing.parentVbytes ∨
      ((lastRate + 1) * (pricing.parentVbytes + vsize) : ℚ) - pricing.parentVbytes - 1 <
        pricing.totalFee * pricing.bumpFee)

/-- The fee before the cap reaches a bound exactly when the multiplied total exceeds it less one. -/
theorem le_uncappedFee_iff (pricing : Pricing) (n : ℕ) :
    n ≤ pricing.parentVbytes + pricing.uncappedFee ↔
      n ≤ pricing.parentVbytes ∨
        (n : ℚ) - pricing.parentVbytes - 1 < pricing.totalFee * pricing.bumpFee := by
  by_cases hcredit : n ≤ pricing.parentVbytes
  · simp [hcredit, le_trans hcredit (Nat.le_add_right _ _)]
  · have hfee : pricing.uncappedFee =
        ⌈(pricing.totalFee : ℚ) * pricing.bumpFee⌉.toNat := rfl
    have hceil : n ≤ pricing.parentVbytes + pricing.uncappedFee ↔
        ((n : ℤ) - pricing.parentVbytes - 1) < ⌈(pricing.totalFee : ℚ) * pricing.bumpFee⌉ := by
      rw [hfee]
      omega
    rw [hceil, Int.lt_ceil]
    push_cast
    simp [hcredit]

/-- A recorded rate exceeds the predecessor's exactly when the pricing out-pays it. -/
theorem lt_packageFeeRate_iff {cfg : FeeSettings} {pricing : Pricing} {tx : Transaction}
    {lastRate : ℕ} (hlast : lastRate < cfg.maxFeerateSatVb)
    (hsize : tx.vsize ≤ pricing.childVsize) :
    lastRate < (feeInfoForPaidSpeedup tx (cfg.price pricing).1
        pricing.parentVbytes).packageFeeRate ↔ pricing.Outpays lastRate tx.vsize := by
  have hmax : 0 < cfg.maxFeerateSatVb := Nat.zero_lt_of_lt hlast
  rw [packageFeeRate_feeInfoForPaidSpeedup, price_add_parentVbytes pricing hmax]
  unfold Pricing.Outpays
  rcases Nat.eq_zero_or_pos (pricing.parentVbytes + tx.vsize) with hzero | hpos
  · simp [hzero]
  · have hcapped : (lastRate + 1) * (pricing.parentVbytes + tx.vsize) ≤
        cfg.maxFeerateSatVb * (pricing.parentVbytes + pricing.childVsize) :=
      Nat.mul_le_mul hlast (by omega)
    have hiff := le_uncappedFee_iff pricing
      ((lastRate + 1) * (pricing.parentVbytes + tx.vsize))
    push_cast at hiff
    rw [← Nat.succ_le_iff, Nat.le_div_iff_mul_le hpos, le_min_iff]
    simp only [hpos, true_and]
    rw [← hiff]
    exact and_iff_left hcapped

/-- A multiplier of at least one out-pays every predecessor the pricing is above. -/
theorem Pricing.outpays_of_one_le_bumpFee {pricing : Pricing} {lastRate vsize : ℕ}
    (hbump : 1 ≤ pricing.bumpFee) (hrate : lastRate + 1 ≤ pricing.feeRate)
    (hsize : vsize ≤ pricing.childVsize) (hpos : 0 < pricing.parentVbytes + vsize) :
    pricing.Outpays lastRate vsize := by
  have hbase : pricing.feeRate * (pricing.parentVbytes + pricing.childVsize) ≤
      pricing.parentVbytes + pricing.totalFee :=
    (Nat.le_add_right _ _).trans (mul_feeRate_le_totalSpeedupFee _ _ _ _ _)
  have htarget : (lastRate + 1) * (pricing.parentVbytes + vsize) ≤
      pricing.parentVbytes + pricing.totalFee :=
    calc (lastRate + 1) * (pricing.parentVbytes + vsize)
        ≤ pricing.feeRate * (pricing.parentVbytes + pricing.childVsize) :=
          Nat.mul_le_mul hrate (by omega)
      _ ≤ pricing.parentVbytes + pricing.totalFee := hbase
  refine ⟨hpos, Or.inr ?_⟩
  have hcast : ((lastRate + 1) * (pricing.parentVbytes + vsize) : ℚ) ≤
      pricing.parentVbytes + pricing.totalFee := by exact_mod_cast htarget
  have hmul : (pricing.totalFee : ℚ) ≤ pricing.totalFee * pricing.bumpFee :=
    le_mul_of_one_le_right (Nat.cast_nonneg _) hbump
  linarith

/-- Every speedup the history of a world stored was built by one of the calls, and signed and priced
just before. -/
def InsertionsSound (cfg : BitcoinSettings) (calls : List Call) (w : World) : Prop :=
  ∀ tx before older, (tx, before, older) ∈ insertions w.log → ∃ call ∈ calls, ∃ w₀,
    Insertable ⟨cfg, call.answers⟩ w₀ tx ∧ before = w₀.store ∧
      older = .wrote w₀.store (w₀.store.setTx tx) :: w₀.log

/-- A move stores only speedups that were just built. -/
theorem InsertionsSound.move {cfg : BitcoinSettings} {calls : List Call} {call : Call} {tidy : Prop}
    {phase : Phase} (hcall : call ∈ calls) {w w' : World} (h : InsertionsSound cfg calls w)
    (hmove : Move ⟨cfg, call.answers⟩ tidy phase w w') : InsertionsSound cfg calls w' := by
  unfold InsertionsSound
  rcases hmove.insertions_cases with hsame | ⟨-, built, hbuilt, -, hstored⟩
  · rw [hsame]
    exact h
  · rw [hstored]
    intro tx before older hin
    rcases List.mem_cons.mp hin with heq | hin
    · cases heq
      exact ⟨call, hcall, w, hbuilt, rfl, rfl⟩
    · exact h tx before older hin

/-- Whatever the calls are answered and wherever they stop, a run stores only speedups that were just
built. -/
theorem insertionsSound_runCalls (cfg : BitcoinSettings) (s : Store) (news : List StoredNewsItem)
    (lastRetryAt : Option ℕ) (calls : List Call) :
    InsertionsSound cfg calls (runCalls cfg calls (World.start s news lastRetryAt)) := by
  have hmove : ∀ call ∈ calls, ∀ phase w w', InsertionsSound cfg calls w →
      Move ⟨cfg, call.answers⟩ False phase w w' → InsertionsSound cfg calls w' :=
    fun call hcall phase w w' h hmove => h.move hcall hmove
  apply runCalls_induction hmove (fun h => absurd h id)
  intro tx before older hin
  cases hin

/-- Every saved speedup is recorded at no more than the maximum rate, unless its pricing overshoots
it. -/
theorem saved_packageFeeRate_le_max_iff (cfg : BitcoinSettings) (hcfg : cfg.validate = .ok ())
    (s : Store) (news : List StoredNewsItem) (lastRetryAt : Option ℕ) (calls : List Call)
    (tx : CoordinatedTx) (before : Store) (older : List Event)
    (hsaved : (tx, before, older) ∈
      insertions (runCalls cfg calls (World.start s news lastRetryAt)).log) :
    ∃ pricing, lastSigned older = some (pricing, tx.tx.vsize) ∧
      (tx.feeInfo.packageFeeRate ≤ cfg.fee.maxFeerateSatVb ↔
        ¬ pricing.Overshoots cfg.fee.maxFeerateSatVb tx.tx.vsize) := by
  obtain ⟨call, -, w₀, hinsertable, rfl, rfl⟩ :=
    insertionsSound_runCalls cfg s news lastRetryAt calls _ _ _ hsaved
  obtain ⟨pricing, hsigned, hsize, hfee, -⟩ := hinsertable.signed
  refine ⟨pricing, hsigned, ?_⟩
  rw [hfee]
  exact packageFeeRate_le_max_iff (BitcoinSettings.validate_fee_bounds hcfg).1 hsize

/-- A parent and a funding UTXO are registered and a tick builds a CPFP. The estimate is at the maximum
rate, and the CPFP is signed one byte smaller than it was sized. -/
def overshootCalls : List Call :=
  let view := sampleView 100 [] [sampleParent]
  let builder := plainBuilder fun fee => if fee = 1 then 201 else 200
  [view.call builder 1000 0 (.addFunding sampleFunding),
    view.call builder 1000 0 (.dispatchWithSpeedup sampleParent sampleAnchor "parent" none none),
    view.call builder 1000 0 .tick]

/-- The rate recorded in the example run: its pricing overshoots. -/
theorem saved_packageFeeRate_overshootCalls :
    ∃ p ∈ insertions (runCalls defaultSettings overshootCalls World.init).log,
      ∃ pricing, lastSigned p.2.2 = some (pricing, p.1.tx.vsize) ∧
        (p.1.feeInfo.packageFeeRate ≤ defaultSettings.fee.maxFeerateSatVb ↔
          ¬ pricing.Overshoots defaultSettings.fee.maxFeerateSatVb p.1.tx.vsize) := by
  obtain ⟨p, hp, -⟩ : ∃ p ∈ insertions (runCalls defaultSettings overshootCalls World.init).log,
      True := by decide +kernel
  exact ⟨p, hp, saved_packageFeeRate_le_max_iff defaultSettings
    (BitcoinSettings.validate_default _) Store.empty [] none overshootCalls p.1 p.2.1 p.2.2 hp⟩

/-- A saved CPFP is recorded above the maximum rate. -/
theorem exists_saved_above_max :
    ∃ (cfg : BitcoinSettings) (calls : List Call), cfg.validate = .ok () ∧
      (∀ call ∈ calls, call.answers.SpendsRequested) ∧
      OkRun cfg calls World.init (runCalls cfg calls World.init) ∧
      ∃ p ∈ insertions (runCalls cfg calls World.init).log,
        ¬ p.1.feeInfo.packageFeeRate ≤ cfg.fee.maxFeerateSatVb := by
  refine ⟨defaultSettings, overshootCalls, BitcoinSettings.validate_default _, ?_,
    okRun_runCalls (by decide +kernel), by decide +kernel⟩
  intro call hcall
  simp only [overshootCalls, List.mem_cons, List.not_mem_nil, or_false] at hcall
  rcases hcall with rfl | rfl | rfl <;> exact plainBuilder_spendsRequested _ _ _ _

/-- Every saved boost is recorded at a higher rate than its predecessor, exactly when its multiplier
exceeds the threshold. -/
theorem saved_boost_outpays_iff (cfg : BitcoinSettings) (s : Store)
    (news : List StoredNewsItem) (lastRetryAt : Option ℕ) (calls : List Call)
    (tx : CoordinatedTx) (before : Store) (older : List Event)
    (hsaved : (tx, before, older) ∈
      insertions (runCalls cfg calls (World.start s news lastRetryAt)).log)
    (hboost : tx.isBoost) :
    ∃ pricing txid last, lastSigned older = some (pricing, tx.tx.vsize) ∧
      tx.predecessor? = some txid ∧ before.txs.get txid = some last ∧
      (last.feeInfo.packageFeeRate < tx.feeInfo.packageFeeRate ↔
        pricing.Outpays last.feeInfo.packageFeeRate tx.tx.vsize) := by
  obtain ⟨call, -, w₀, hinsertable, rfl, rfl⟩ :=
    insertionsSound_runCalls cfg s news lastRetryAt calls _ _ _ hsaved
  obtain ⟨pricing, hsigned, hsize, hfee, hprev⟩ := hinsertable.signed
  obtain ⟨txid, last, hid, hget, -, -, hmax, -⟩ := hprev hboost
  refine ⟨pricing, txid, last, hsigned, hid, hget, ?_⟩
  rw [hfee]
  exact lt_packageFeeRate_iff hmax hsize

/-- A saved boost whose multiplier is at least one is recorded at a higher rate than its predecessor. -/
theorem saved_boost_outpays_of_one_le_bumpFee (cfg : BitcoinSettings) (s : Store) (news : List StoredNewsItem)
    (lastRetryAt : Option ℕ) (calls : List Call) (tx : CoordinatedTx) (before : Store) (older : List Event)
    (hsaved : (tx, before, older) ∈ insertions (runCalls cfg calls (World.start s news lastRetryAt)).log)
    (hboost : tx.isBoost) (hsize : 0 < tx.tx.vsize) :
    ∃ pricing txid last, lastSigned older = some (pricing, tx.tx.vsize) ∧
      tx.predecessor? = some txid ∧ before.txs.get txid = some last ∧
      (1 ≤ pricing.bumpFee → last.feeInfo.packageFeeRate < tx.feeInfo.packageFeeRate) := by
  obtain ⟨call, -, w₀, hinsertable, rfl, rfl⟩ :=
    insertionsSound_runCalls cfg s news lastRetryAt calls _ _ _ hsaved
  obtain ⟨pricing, hsigned, hfits, hfee, hprev⟩ := hinsertable.signed
  obtain ⟨txid, last, hid, hget, -, -, hmax, hstep⟩ := hprev hboost
  refine ⟨pricing, txid, last, hsigned, hid, hget, fun hbump => ?_⟩
  rw [hfee]
  exact (lt_packageFeeRate_iff hmax hfits).mpr
    (Pricing.outpays_of_one_le_bumpFee hbump hstep hfits (Nat.add_pos_right _ hsize))

/-- Settings whose multiplier halves the fee of the first speedup. -/
def halvingSettings : BitcoinSettings :=
  { fee := { baseFeeMultiplier := 1 / 2 }, monitor := ⟨6⟩ }

/-- A CPFP is built and accepted; a block later the estimate has fallen and a tick boosts it. -/
def halvingCalls : List Call :=
  let builder := plainBuilder fun _ => 200
  let cpfp := builder [sampleAnchor] [sampleFunding] 7 1675
  let first := sampleView 100 [] [sampleParent]
  [first.call builder 10 0 (.addFunding sampleFunding),
    first.call builder 10 0 (.dispatchWithSpeedup sampleParent sampleAnchor "parent" none none),
    first.call builder 10 0 .tick,
    (sampleView 100 [sampleParent] [cpfp]).call builder 10 0 .tick,
    (sampleView 101 [sampleParent, cpfp] []).call builder 1 0 .tick]

/-- The boost of the example run: its multiplier is below the threshold. -/
theorem saved_boost_halvingCalls :
    ∃ p ∈ insertions (runCalls halvingSettings halvingCalls World.init).log,
      ∃ pricing txid last, lastSigned p.2.2 = some (pricing, p.1.tx.vsize) ∧
        p.1.predecessor? = some txid ∧ p.2.1.txs.get txid = some last ∧
        (last.feeInfo.packageFeeRate < p.1.feeInfo.packageFeeRate ↔
          pricing.Outpays last.feeInfo.packageFeeRate p.1.tx.vsize) := by
  obtain ⟨p, hp, hboost⟩ :
      ∃ p ∈ insertions (runCalls halvingSettings halvingCalls World.init).log,
        p.1.isBoost = true := by decide +kernel
  exact ⟨p, hp, saved_boost_outpays_iff halvingSettings Store.empty [] none halvingCalls
    p.1 p.2.1 p.2.2 hp hboost⟩

/-- A saved boost is recorded at no more than its predecessor's rate. -/
theorem exists_boost_not_outpaying :
    ∃ (cfg : BitcoinSettings) (calls : List Call), cfg.validate = .ok () ∧
      (∀ call ∈ calls, call.answers.SpendsRequested) ∧
      OkRun cfg calls World.init (runCalls cfg calls World.init) ∧
      ∃ p ∈ insertions (runCalls cfg calls World.init).log, p.1.isBoost = true ∧
        ∃ txid ∈ p.1.predecessor?, ∃ last ∈ p.2.1.txs.get txid,
          ¬ last.feeInfo.packageFeeRate < p.1.feeInfo.packageFeeRate := by
  refine ⟨halvingSettings, halvingCalls, by decide +kernel, ?_,
    okRun_runCalls (by decide +kernel), by decide +kernel⟩
  intro call hcall
  simp only [halvingCalls, List.mem_cons, List.not_mem_nil, or_false] at hcall
  rcases hcall with rfl | rfl | rfl | rfl | rfl <;>
    exact plainBuilder_spendsRequested _ _ _ _

end BitcoinCoordinator
