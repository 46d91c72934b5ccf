import BitcoinCoordinator.CancelledTransactions

/-!
# Bounds and monotonicity of the speedup fee

The fee is the smaller of the multiplied total and the cap. Both grow with every argument, across
the points where the bandwidth floor or the cap takes over.
-/

namespace BitcoinCoordinator

/-- The cap grows with both sizes. -/
theorem speedupFeeCap_mono {maxFeerate parentVbytes parentVbytes' childVsize childVsize' : ℕ}
    (hmax : 1 ≤ maxFeerate) (hparents : parentVbytes ≤ parentVbytes')
    (hchild : childVsize ≤ childVsize') :
    speedupFeeCap maxFeerate parentVbytes childVsize ≤
      speedupFeeCap maxFeerate parentVbytes' childVsize' := by
  have hcap := add_speedupFeeCap parentVbytes childVsize hmax
  have hcap' := add_speedupFeeCap parentVbytes' childVsize' hmax
  -- what the parents add to the package at the maximum rate is at least their credit
  have hgrowth : maxFeerate * (parentVbytes + childVsize) + (parentVbytes' - parentVbytes) ≤
      maxFeerate * (parentVbytes' + childVsize') :=
    calc maxFeerate * (parentVbytes + childVsize) + (parentVbytes' - parentVbytes)
        ≤ maxFeerate * (parentVbytes + childVsize) +
            maxFeerate * (parentVbytes' - parentVbytes) :=
          Nat.add_le_add_left (Nat.le_mul_of_pos_left _ hmax) _
      _ = maxFeerate * (parentVbytes' + childVsize) := by
          rw [← Nat.mul_add]
          congr 1
          omega
      _ ≤ maxFeerate * (parentVbytes' + childVsize') :=
          Nat.mul_le_mul_left _ (Nat.add_le_add_left hchild _)
  omega

/-- The total of an RBF is at least twice the child's own cost. -/
theorem bandwidth_le_totalSpeedupFee (parentVbytes childVsize feeRate chainDiffFee : ℕ) :
    2 * childVsize * feeRate ≤
      totalSpeedupFee parentVbytes childVsize feeRate true chainDiffFee := by
  have hcomm : 2 * childVsize * feeRate = childVsize * feeRate * 2 := by
    rw [Nat.mul_assoc, Nat.mul_comm]
  unfold totalSpeedupFee
  simp only [true_and]
  split <;> omega

/-- The total grows with the sizes, the rate and the chain top-up. -/
theorem totalSpeedupFee_mono {parentVbytes parentVbytes' childVsize childVsize' feeRate feeRate'
    chainDiffFee chainDiffFee' : ℕ} (isRbf : Bool) (hrate : 1 ≤ feeRate)
    (hparents : parentVbytes ≤ parentVbytes') (hchild : childVsize ≤ childVsize')
    (hfeeRate : feeRate ≤ feeRate') (hdiff : chainDiffFee ≤ chainDiffFee') :
    totalSpeedupFee parentVbytes childVsize feeRate isRbf chainDiffFee ≤
      totalSpeedupFee parentVbytes' childVsize' feeRate' isRbf chainDiffFee' := by
  have hfloor : childVsize * feeRate ≤ childVsize' * feeRate' := Nat.mul_le_mul hchild hfeeRate
  -- more parents raise the package cost by at least their credit
  have hparent : parentVbytes * feeRate + (parentVbytes' - parentVbytes) ≤
      parentVbytes' * feeRate' :=
    calc parentVbytes * feeRate + (parentVbytes' - parentVbytes)
        ≤ parentVbytes * feeRate + (parentVbytes' - parentVbytes) * feeRate :=
          Nat.add_le_add_left (Nat.le_mul_of_pos_right _ hrate) _
      _ = parentVbytes' * feeRate := by
          rw [← Nat.add_mul]
          congr 1
          omega
      _ ≤ parentVbytes' * feeRate' := Nat.mul_le_mul_left _ hfeeRate
  have hbase : (parentVbytes + childVsize) * feeRate - parentVbytes * minRelayFeeRate ≤
      (parentVbytes' + childVsize') * feeRate' - parentVbytes' * minRelayFeeRate := by
    simp only [minRelayFeeRate, Nat.mul_one, Nat.add_mul]
    omega
  unfold totalSpeedupFee
  cases isRbf with
  | false =>
    simp only [Bool.false_eq_true, false_and, if_false]
    exact Nat.add_le_add hbase hdiff
  | true =>
    -- the floor on either side is below the base on the other when the two switch differently
    simp only [true_and]
    split <;> split <;> omega

/-- A multiplier of at least one never lowers the total. -/
theorem totalSpeedupFee_le_bumpedSpeedupFee {bumpFee : ℚ} (parentVbytes childVsize feeRate : ℕ)
    (isRbf : Bool) (chainDiffFee : ℕ) (hbump : 1 ≤ bumpFee) :
    totalSpeedupFee parentVbytes childVsize feeRate isRbf chainDiffFee ≤
      bumpedSpeedupFee parentVbytes childVsize bumpFee feeRate isRbf chainDiffFee := by
  have hmul : (totalSpeedupFee parentVbytes childVsize feeRate isRbf chainDiffFee : ℚ) ≤
      totalSpeedupFee parentVbytes childVsize feeRate isRbf chainDiffFee * bumpFee :=
    le_mul_of_one_le_right (Nat.cast_nonneg _) hbump
  have hceil := hmul.trans (Int.le_ceil _)
  have hint : (totalSpeedupFee parentVbytes childVsize feeRate isRbf chainDiffFee : ℤ) ≤
      ⌈(totalSpeedupFee parentVbytes childVsize feeRate isRbf chainDiffFee : ℚ) * bumpFee⌉ := by
    exact_mod_cast hceil
  unfold bumpedSpeedupFee
  omega

/-- The multiplied total grows with every argument. -/
theorem bumpedSpeedupFee_mono {parentVbytes parentVbytes' childVsize childVsize' feeRate feeRate'
    chainDiffFee chainDiffFee' : ℕ} {bumpFee bumpFee' : ℚ} (isRbf : Bool) (hrate : 1 ≤ feeRate)
    (hbump : 1 ≤ bumpFee) (hparents : parentVbytes ≤ parentVbytes')
    (hchild : childVsize ≤ childVsize') (hbumpFee : bumpFee ≤ bumpFee')
    (hfeeRate : feeRate ≤ feeRate') (hdiff : chainDiffFee ≤ chainDiffFee') :
    bumpedSpeedupFee parentVbytes childVsize bumpFee feeRate isRbf chainDiffFee ≤
      bumpedSpeedupFee parentVbytes' childVsize' bumpFee' feeRate' isRbf chainDiffFee' := by
  have htotal : (totalSpeedupFee parentVbytes childVsize feeRate isRbf chainDiffFee : ℚ) ≤
      totalSpeedupFee parentVbytes' childVsize' feeRate' isRbf chainDiffFee' := by
    exact_mod_cast totalSpeedupFee_mono isRbf hrate hparents hchild hfeeRate hdiff
  have hbumped := mul_le_mul htotal hbumpFee (by linarith) (Nat.cast_nonneg _)
  unfold bumpedSpeedupFee
  exact Int.toNat_le_toNat (Int.ceil_mono hbumped)

/-- The fee keeps the package at or below the maximum rate, and at that rate exactly when capped. Not
capped, it covers the package at the rate and the chain top-up, and for an RBF twice the child's own
cost. It never falls when the parents, the child, the multiplier, the rate or the top-up grow. -/
theorem computeSpeedupFee_bounds_and_mono (cfg : FeeSettings) (parentVsizes : List ℕ)
    (childVsize : ℕ) (bumpFee : ℚ) (feeRate : ℕ) (isRbf : Bool) (chainDiffFee : ℕ)
    (hmax : 1 ≤ cfg.maxFeerateSatVb) (_hchild : 1 ≤ childVsize) (hbump : 1 ≤ bumpFee)
    (hrate : 1 ≤ feeRate) :
    ∃ fee capped,
      cfg.computeSpeedupFee parentVsizes childVsize bumpFee feeRate isRbf chainDiffFee =
        (fee, capped) ∧
      parentVsizes.sum + fee ≤ cfg.maxFeerateSatVb * (parentVsizes.sum + childVsize) ∧
      (capped = true →
        parentVsizes.sum + fee = cfg.maxFeerateSatVb * (parentVsizes.sum + childVsize)) ∧
      (capped = false →
        feeRate * (parentVsizes.sum + childVsize) + chainDiffFee ≤ parentVsizes.sum + fee ∧
          (isRbf = true → 2 * childVsize * feeRate ≤ fee)) ∧
      ∀ (parentVsizes' : List ℕ) (childVsize' : ℕ) (bumpFee' : ℚ) (feeRate' chainDiffFee' : ℕ),
        parentVsizes.sum ≤ parentVsizes'.sum → childVsize ≤ childVsize' → bumpFee ≤ bumpFee' →
        feeRate ≤ feeRate' → chainDiffFee ≤ chainDiffFee' →
        fee ≤ (cfg.computeSpeedupFee parentVsizes' childVsize' bumpFee' feeRate' isRbf
          chainDiffFee').1 := by
  have hcap := add_speedupFeeCap parentVsizes.sum childVsize hmax
  have htotal := mul_feeRate_le_totalSpeedupFee parentVsizes.sum childVsize feeRate isRbf
    chainDiffFee
  have hbumped := totalSpeedupFee_le_bumpedSpeedupFee parentVsizes.sum childVsize feeRate isRbf
    chainDiffFee hbump
  refine ⟨(cfg.computeSpeedupFee parentVsizes childVsize bumpFee feeRate isRbf chainDiffFee).1,
    (cfg.computeSpeedupFee parentVsizes childVsize bumpFee feeRate isRbf chainDiffFee).2, rfl,
    ?_, ?_, ?_, ?_⟩
  · rw [computeSpeedupFee_fst]
    omega
  · rw [computeSpeedupFee_fst, computeSpeedupFee_snd, decide_eq_true_iff]
    omega
  · rw [computeSpeedupFee_fst, computeSpeedupFee_snd, decide_eq_false_iff_not]
    intro huncapped
    refine ⟨by omega, ?_⟩
    intro hrbf
    subst hrbf
    have hfloor := bandwidth_le_totalSpeedupFee parentVsizes.sum childVsize feeRate chainDiffFee
    omega
  · intro parentVsizes' childVsize' bumpFee' feeRate' chainDiffFee' hparents hchild hbumpFee
      hfeeRate hdiff
    rw [computeSpeedupFee_fst, computeSpeedupFee_fst]
    exact min_le_min
      (bumpedSpeedupFee_mono isRbf hrate hbump hparents hchild hbumpFee hfeeRate hdiff)
      (speedupFeeCap_mono hmax hparents hchild)

/-- The bounds at an RBF that pays for one parent. -/
theorem computeSpeedupFee_bounds_and_mono_rbf :
    ∃ fee capped,
      FeeSettings.computeSpeedupFee {} [150] 200 (3 / 2) 10 true 40 = (fee, capped) ∧
      [150].sum + fee ≤ defaultMaxFeerateSatVb * ([150].sum + 200) ∧
      (capped = true → [150].sum + fee = defaultMaxFeerateSatVb * ([150].sum + 200)) ∧
      (capped = false →
        10 * ([150].sum + 200) + 40 ≤ [150].sum + fee ∧ (true = true → 2 * 200 * 10 ≤ fee)) ∧
      ∀ (parentVsizes' : List ℕ) (childVsize' : ℕ) (bumpFee' : ℚ) (feeRate' chainDiffFee' : ℕ),
        [150].sum ≤ parentVsizes'.sum → 200 ≤ childVsize' → 3 / 2 ≤ bumpFee' → 10 ≤ feeRate' →
        40 ≤ chainDiffFee' →
        fee ≤ (FeeSettings.computeSpeedupFee {} parentVsizes' childVsize' bumpFee' feeRate' true
          chainDiffFee').1 :=
  computeSpeedupFee_bounds_and_mono {} [150] 200 (3 / 2) 10 true 40 (by decide) (by decide)
    (by norm_num) (by decide)

end BitcoinCoordinator
