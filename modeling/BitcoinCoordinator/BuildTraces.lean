import BitcoinCoordinator.EngineTraces

/-!
# What a build returns

Choosing and reserving the inputs of a speedup, and the fee loop. Every output the builder is asked to
spend has a known origin when the speedup is returned: it is an unfailed speedup's change, a queued
record, an output a parent names, or an input inherited from the predecessor.
-/

namespace BitcoinCoordinator

open Foundation

variable {ctx : Ctx} {tidy : Prop} {w : World}

/-! ### Origins -/

/-- A mark of a speedup keeps what it takes. -/
theorem CoordinatedTx.takes_mark {tx : CoordinatedTx} {kind : SpeedupKind} (mark : Mark)
    (hkind : tx.kind = .speedup kind) :
    { tx with kind := .speedup (kind.modifyContext mark.apply) : CoordinatedTx }.takes = tx.takes := by
  simp only [CoordinatedTx.takes, CoordinatedTx.speedup?, hkind, SpeedupKind.context_modifyContext]
  cases mark <;> rfl

/-- Setting a spent flag keeps the outputs that are queued. -/
theorem Store.exists_queued_setSpent {s : Store} {op : OutPoint} (op' : OutPoint) (spent : Bool)
    (h : ∃ record ∈ s.fundingRecords, record.utxo.outPoint = op) :
    ∃ record ∈ (s.setSpent op' spent).fundingRecords, record.utxo.outPoint = op := by
  obtain ⟨record, hrecord, hop⟩ := h
  obtain ⟨queued, hqueued, hget⟩ := List.mem_filterMap.mp hrecord
  unfold Store.setSpent
  split
  · next marked hmarked =>
    by_cases heq : queued = op'
    · have hsame : marked = record := by
        rw [← heq, hget] at hmarked
        exact (Option.some.inj hmarked).symm
      refine ⟨{ marked with spent := spent }, List.mem_filterMap.mpr ⟨queued, hqueued, ?_⟩, ?_⟩
      · exact if_pos heq
      · rw [hsame]
        exact hop
    · exact ⟨record, List.mem_filterMap.mpr ⟨queued, hqueued, (if_neg heq).trans hget⟩, hop⟩
  · split
    · exact ⟨record, hrecord, hop⟩
    · split <;> exact ⟨record, hrecord, hop⟩

/-- Setting a spent flag keeps the origin of an output. -/
theorem Source.setSpent {s : Store} {op : OutPoint} (h : Source s op) (op' : OutPoint)
    (spent : Bool) : Source (s.setSpent op' spent) op := by
  cases h with
  | change tip hget hspeedup hstate =>
    have hstable : MarkStable (Holds fun tip => tip.speedup?.isSome ∧ tip.state.isOnChainSide) :=
      markStable_holds fun _ _ _ hP _ => ⟨rfl, hP.2⟩
    obtain ⟨tip', hget', hspeedup', hstate'⟩ :=
      hstable.setSpent op' spent ⟨tip, hget, hspeedup, hstate⟩
    exact Source.change tip' hget' hspeedup' hstate'
  | queued record hqueued hop =>
    obtain ⟨record', hqueued', hop'⟩ :=
      Store.exists_queued_setSpent op' spent ⟨record, hqueued, hop⟩
    exact Source.queued record' hqueued' hop'
  | parent tx data hget hkind hstate hop =>
    have hstable : MarkStable
        (Holds fun tx => tx.kind = .needsSpeedup data ∧ tx.state.isOnChainSide) :=
      markStable_holds fun _ _ _ hP hspeedup => by
        rw [hP.1] at hspeedup
        cases hspeedup
    obtain ⟨tx', hget', hkind', hstate'⟩ := hstable.setSpent op' spent ⟨tx, hget, hkind, hstate⟩
    have hid : tx'.txid = tx.txid := (s.setSpent op' spent).keyed _ _ hget'
    rw [← hid] at hget'
    exact Source.parent tx' data hget' hkind' hstate' hop
  | inherited last hget hspeedup hstate hop =>
    have hstable : MarkStable
        (Holds fun last => last.speedup?.isSome ∧ last.state = .inMempool ∧ op ∈ last.takes) :=
      markStable_holds fun tx kind mark hP hkind => by
        refine ⟨rfl, hP.2.1, ?_⟩
        rw [CoordinatedTx.takes_mark mark hkind]
        exact hP.2.2
    obtain ⟨last', hget', hspeedup', hstate', hop'⟩ :=
      hstable.setSpent op' spent ⟨last, hget, hspeedup, hstate, hop⟩
    have hid : last'.txid = last.txid := (s.setSpent op' spent).keyed _ _ hget'
    rw [← hid] at hget'
    exact Source.inherited last' hget' hspeedup' hstate' hop'

/-- Setting a spent flag leaves the speedup list alone. -/
theorem Store.speedupList_setSpent (s : Store) (op : OutPoint) (spent : Bool) :
    (s.setSpent op spent).speedupList = s.speedupList := by
  unfold Store.setSpent
  split
  · rfl
  · split
    · rfl
    · split <;> rfl

/-- Setting a spent flag leaves every state alone. -/
theorem Store.Idle.setSpent {s : Store} (h : s.Idle) (op : OutPoint) (spent : Bool) :
    (s.setSpent op spent).Idle := by
  intro txid hlisted
  rw [s.speedupList_setSpent] at hlisted
  have hstable : MarkStable fun record => ∀ tx, record = some tx → tx.state ≠ .toDispatch := by
    intro tx kind mark hold _ tx' heq
    cases heq
    exact hold tx rfl
  exact hstable.setSpent op spent (h txid hlisted)

/-- The origin of an output is known. -/
def Sourced (op : OutPoint) (w : World) : Prop := Source w.store op

/-- The origin of an output is steady. -/
theorem steady_sourced (op : OutPoint) : Steady (Sourced op) where
  asked := fun _ h => h
  published := fun _ _ h => h
  signed := fun _ _ _ h => h

/-- Setting a spent flag keeps the known origins. -/
theorem setSpent_keeps_sourced (op op' : OutPoint) (spent : Bool) :
    Prog.Keeps (Sourced op) (BitcoinCoordinator.setSpent op' spent) ctx :=
  setSpent_keeps_store (P := fun s => Source s op) op' spent fun _ h => h.setSpent op' spent

/-! ### Building -/

/-- Choosing the primary input. -/
theorem getFunding_plainly (speedups : List CoordinatedTx) :
    Plainly tidy .build (getFunding speedups) ctx w := by
  have hmark : ∀ (op : OutPoint) (a : Option (Utxo × Bool)) (w : World),
      Plainly tidy .build (do setSpent op true; pure a) ctx w :=
    fun op a w => Prog.Reaches.seq (setSpent_plainly op true) fun _ _ => Prog.Reaches.pure a
  apply Prog.Reaches.seq (Prog.Reaches.ofExcept _)
  intro tip w₁
  cases tip with
  | some tx =>
    apply Prog.Reaches.seq (Prog.Reaches.ofExcept _)
    intro utxo w₂
    exact hmark _ _ w₂
  | none =>
    apply reaches_read
    split
    · exact hmark _ _ w₁
    · exact Prog.Reaches.pure _

/-- Choosing a second input. -/
theorem getCombineFunding_plainly : Plainly tidy .build getCombineFunding ctx w := by
  apply reaches_read
  split
  · apply Prog.Reaches.seq (setSpent_plainly _ true)
    intro _ _
    exact Prog.Reaches.pure _
  · exact Prog.Reaches.pure _

/-- Looking for a second input. -/
theorem combineInput_plainly (plan : BuildPlan) (inputs : List Utxo) :
    Plainly tidy .build (combineInput plan inputs) ctx w := by
  apply Prog.Reaches.ite
  · intro _
    exact getCombineFunding_plainly
  · intro _
    exact Prog.Reaches.pure _

/-- Giving up a build. -/
theorem abandonBuild_plainly (plan : BuildPlan) (inputs : List Utxo) (available required : ℕ) :
    Plainly tidy .build (abandonBuild plan inputs available required) ctx w := by
  apply Prog.Reaches.seq (releaseMarks_plainly _)
  intro _ _
  exact plainly_of_calm (emitInsufficientFunds_calm _ _)

/-- The fee loop. -/
theorem buildRound_plainly (plan : BuildPlan) (rounds : ℕ) (inputs : List Utxo)
    (childVsize : ℕ) : Plainly tidy .build (buildRound plan rounds inputs childVsize) ctx w := by
  induction rounds generalizing inputs childVsize w with
  | zero => exact Prog.Reaches.stop _
  | succ rounds ih =>
    apply reaches_settings
    apply Prog.Reaches.seq (Prog.Reaches.ask _)
    intro maxDustLimit _
    apply Prog.Reaches.seq (plainly_of_calm (speedupTransactions_calm _ _ _))
    intro dummy _
    apply Prog.Reaches.ite <;> intro _
    · apply Prog.Reaches.seq (combineInput_plainly plan inputs)
      intro extra _
      cases extra with
      | some extra => exact ih _ _
      | none =>
        apply Prog.Reaches.seq (abandonBuild_plainly plan inputs _ _)
        intro _ _
        exact Prog.Reaches.pure _
    · apply Prog.Reaches.seq (plainly_of_calm (speedupTransactions_calm _ _ _))
      intro final w'
      apply Prog.Reaches.ite
      · intro hsize
        have hsigned : Plainly tidy .build (note fun _ => .signed
            (plan.pricing (if childVsize = 0 then dummy.vsize else childVsize)) final.vsize)
            ctx w' :=
          note_plainly (Plain.signed _ _ hsize)
        exact Prog.Reaches.seq hsigned fun _ _ => Prog.Reaches.pure _
      · intro _
        exact ih _ _

/-- A record with a speedup kind. -/
theorem CoordinatedTx.speedupKind_ok {tx : CoordinatedTx} {kind : SpeedupKind} :
    tx.speedupKind = .ok kind ↔ tx.speedup? = some kind := by
  unfold CoordinatedTx.speedupKind CoordinatedTx.speedup?
  split <;> simp [*]

/-- The change of a speedup is its last output. -/
theorem CoordinatedTx.speedupChangeUtxo_ok {tx : CoordinatedTx} {utxo : Utxo}
    (h : tx.speedupChangeUtxo = .ok utxo) :
    utxo.txid = tx.txid ∧ ∃ out, tx.lastOutput = .ok (out, utxo.vout) := by
  unfold CoordinatedTx.speedupChangeUtxo at h
  split at h
  · cases h
  split at h
  · cases h
  next out vout hlast =>
  split at h
  · cases h
  · cases h
    exact ⟨rfl, out, hlast⟩

/-- The chain tip is a speedup in the mempool or on chain, neither replaced nor spent. -/
theorem findChainTip_ok {speedups older : List CoordinatedTx} {tx : CoordinatedTx}
    (h : findChainTip speedups older = .ok (some tx)) :
    tx ∈ older ∧ tx.state.isOnChainSide ∧ tx.hasLiveReplacement speedups = false ∧
      ∃ kind, tx.speedup? = some kind ∧ kind.context.spent = false := by
  induction older with
  | nil => cases h
  | cons newest older ih =>
    unfold findChainTip at h
    split at h
    · next hstate =>
      split at h
      · cases h
      · next kind hkind =>
        split at h
        · obtain ⟨hmem, hrest⟩ := ih h
          exact ⟨List.mem_cons_of_mem _ hmem, hrest⟩
        · next hfree =>
          cases h
          simp only [Bool.or_eq_true, not_or, Bool.not_eq_true] at hfree
          exact ⟨List.mem_cons_self, hstate, hfree.1, kind, CoordinatedTx.speedupKind_ok.mp hkind,
            hfree.2⟩
    · obtain ⟨hmem, hrest⟩ := ih h
      exact ⟨List.mem_cons_of_mem _ hmem, hrest⟩

/-- The origins of a list of funding inputs are known. -/
def AllSourced (inputs : List Utxo) (w : World) : Prop := ∀ u ∈ inputs, Sourced u.outPoint w

/-- What keeps every origin keeps those of a list. -/
theorem keeps_allSourced {α : Type} {m : Coord α} (h : ∀ op, Prog.Keeps (Sourced op) m ctx)
    (inputs : List Utxo) : Prog.Keeps (AllSourced inputs) m ctx :=
  fun w hw u hu => h u.outPoint w (hw u hu)

/-- A queued record is sourced, also after it was reserved. -/
theorem sourced_of_queued {record : FundingData} {w' : World} {u : Unit}
    (hrecord : record ∈ w.store.fundingRecords)
    (hrun : BitcoinCoordinator.setSpent record.utxo.outPoint true ctx w = (.ok u, w')) :
    Sourced record.utxo.outPoint w' :=
  (setSpent_keeps_sourced _ _ true).run (Source.queued record hrecord rfl) hrun

/-- The primary input is sourced. -/
theorem getFunding_ok {utxo : Utxo} {isSpeedup : Bool} {w' : World}
    (hrun : getFunding w.store.speedupsOrdered ctx w = (.ok (some (utxo, isSpeedup)), w')) :
    Sourced utxo.outPoint w' ∧ w.store.primaryInput? = some utxo := by
  obtain ⟨tip, w₁, hread, hchoose⟩ := Prog.bind_ok.mp hrun
  obtain ⟨htip, rfl⟩ := Prog.ofExcept_ok.mp hread
  clear hrun hread
  cases tip with
  | some tx =>
    obtain ⟨change, w₂, hread, hreserve⟩ := Prog.bind_ok.mp hchoose
    obtain ⟨hchange, rfl⟩ := Prog.ofExcept_ok.mp hread
    obtain ⟨_, w₃, hmark, hpure⟩ := Prog.bind_ok.mp hreserve
    obtain ⟨hsome, rfl⟩ := Prog.pure_ok.mp hpure
    cases hsome
    obtain ⟨hmem, hstate, -, kind, hkind, -⟩ := findChainTip_ok htip
    have hget := (mem_speedupsOrdered (List.mem_reverse.mp hmem)).2
    rw [← (CoordinatedTx.speedupChangeUtxo_ok hchange).1] at hget
    have hsource : Source w₂.store utxo.outPoint :=
      Source.change tx hget (by rw [hkind]; rfl) hstate
    refine ⟨(setSpent_keeps_sourced _ _ true).run hsource hmark, ?_⟩
    unfold Store.primaryInput?
    rw [htip]
    simp only [hchange, Except.toOption]
  | none =>
    obtain ⟨records, w₂, hread, hreserve⟩ := Prog.bind_ok.mp hchoose
    obtain ⟨rfl, rfl⟩ := readStore_ok.mp hread
    clear hchoose hread
    generalize hfind : List.find? _ _ = found at hreserve
    cases found with
    | some record =>
      obtain ⟨_, w₃, hmark, hpure⟩ := Prog.bind_ok.mp hreserve
      obtain ⟨hsome, rfl⟩ := Prog.pure_ok.mp hpure
      cases hsome
      refine ⟨sourced_of_queued (List.mem_of_find?_eq_some hfind) hmark, ?_⟩
      unfold Store.primaryInput?
      rw [htip]
      simp only [hfind, Option.map_some]
    | none =>
      obtain ⟨hnone, -⟩ := Prog.pure_ok.mp hreserve
      cases hnone

/-- A second input is sourced. -/
theorem combineInput_ok {plan : BuildPlan} {inputs : List Utxo} {extra : Utxo} {w' : World}
    (hrun : combineInput plan inputs ctx w = (.ok (some extra), w')) :
    Sourced extra.outPoint w' := by
  rcases Prog.ite_ok.mp hrun with ⟨-, hrun⟩ | ⟨-, hrun⟩
  · obtain ⟨records, w₁, hread, hreserve⟩ := Prog.bind_ok.mp hrun
    obtain ⟨rfl, rfl⟩ := readStore_ok.mp hread
    clear hrun hread
    generalize hfind : List.find? _ _ = found at hreserve
    cases found with
    | some record =>
      obtain ⟨_, w₂, hmark, hpure⟩ := Prog.bind_ok.mp hreserve
      obtain ⟨hsome, rfl⟩ := Prog.pure_ok.mp hpure
      cases hsome
      exact sourced_of_queued (List.mem_of_find?_eq_some hfind) hmark
    | none =>
      obtain ⟨hnone, -⟩ := Prog.pure_ok.mp hreserve
      cases hnone
  · obtain ⟨hnone, -⟩ := Prog.pure_ok.mp hrun
    cases hnone

/-- Looking for a second input keeps a property that setting one spent flag keeps. -/
theorem combineInput_keeps {I : World → Prop}
    (hspent : ∀ op spent, Prog.Keeps I (BitcoinCoordinator.setSpent op spent) ctx)
    (plan : BuildPlan) (inputs : List Utxo) : Prog.Keeps I (combineInput plan inputs) ctx :=
  Prog.Keeps.ite (fun _ => getCombineFunding_keeps hspent) fun _ => Prog.Keeps.pure _

/-- What a build that returned a speedup leaves: the speedup was signed last, no larger than the
size it was priced at, for the fee of the pricing, from inputs of known origin that start with the
given ones. -/
structure BuiltWith (ctx : Ctx) (data : List SpeedupData) (pricing : ℕ → Pricing)
    (inputs : List Utxo) (built : SpeedupBuildResult) (w : World) : Prop where
  signed : ∃ childVsize, lastSigned w.log = some (pricing childVsize, built.tx.vsize) ∧
    built.tx.vsize ≤ (pricing childVsize).childVsize ∧
    (built.fee, built.capped) = ctx.settings.fee.price (pricing childVsize)
  answered : ∃ n key,
    ctx.answers.speedupTransactions n data built.fundingInputs key built.fee = .ok built.tx
  funded : built.fundingInputs ≠ []
  starts : inputs <+: built.fundingInputs
  sourced : AllSourced built.fundingInputs w

/-- A signed speedup is an answer of the builder, which was given inputs. -/
theorem speedupTransactions_ok {data : List SpeedupData} {inputs : List Utxo} {fee : ℕ}
    {tx : Transaction} {w' : World}
    (hrun : speedupTransactions data inputs fee ctx w = (.ok tx, w')) :
    inputs ≠ [] ∧ ∃ n key, ctx.answers.speedupTransactions n data inputs key fee = .ok tx := by
  unfold speedupTransactions at hrun
  split at hrun
  · exact (Prog.stop_ok.mp hrun).elim
  · exact ⟨by simp, _, _, (query_ok.mp hrun).1⟩

/-- The fee loop returns what it signed last. -/
theorem buildRound_ok {plan : BuildPlan} {rounds : ℕ} {inputs : List Utxo} {childVsize : ℕ}
    {built : SpeedupBuildResult} {w' : World} (hinputs : AllSourced inputs w)
    (hrun : buildRound plan rounds inputs childVsize ctx w = (.ok (some built), w')) :
    BuiltWith ctx (plan.parentEntries.map Prod.fst) plan.pricing inputs built w' := by
  have hsign : ∀ data inputs' fee, Prog.Keeps (AllSourced inputs')
      (speedupTransactions data inputs' fee) ctx := fun data inputs' fee =>
    keeps_allSourced (fun op => (steady_sourced op).speedupTransactions data inputs' fee) inputs'
  induction rounds generalizing inputs childVsize w with
  | zero => exact (Prog.stop_ok.mp hrun).elim
  | succ rounds ih =>
    obtain ⟨cfg, w₁, hcfg, hbody⟩ := Prog.bind_ok.mp hrun
    obtain ⟨rfl, hw₁⟩ := settings_ok.mp hcfg
    obtain ⟨maxDustLimit, w₂, hdust, hsized⟩ := Prog.bind_ok.mp hbody
    obtain ⟨-, hw₂⟩ := Prog.ask_ok.mp hdust
    obtain ⟨dummy, w₃, hdummy, hpriced⟩ := Prog.bind_ok.mp hsized
    rw [hw₂, hw₁] at hdummy
    have hinputs₃ := (hsign _ _ _).run hinputs hdummy
    rcases Prog.ite_ok.mp hpriced with ⟨-, hrun⟩ | ⟨-, hrun⟩
    · obtain ⟨extra, w₄, hcombine, hrun⟩ := Prog.bind_ok.mp hrun
      cases extra with
      | some extra =>
        have hkept := (keeps_allSourced (fun op => combineInput_keeps (setSpent_keeps_sourced op)
          plan inputs) inputs).run hinputs₃ hcombine
        have hall : AllSourced (inputs ++ [extra]) w₄ := by
          intro u hu
          rcases List.mem_append.mp hu with hold | hnew
          · exact hkept u hold
          · rw [List.mem_singleton.mp hnew]
            exact combineInput_ok hcombine
        have hbuilt := ih hall hrun
        exact { hbuilt with starts := (List.prefix_append _ _).trans hbuilt.starts }
      | none =>
        obtain ⟨u, w₅, -, hpure⟩ := Prog.bind_ok.mp hrun
        obtain ⟨hnone, -⟩ := Prog.pure_ok.mp hpure
        cases hnone
    · obtain ⟨final, w₄, hfinal, hrun⟩ := Prog.bind_ok.mp hrun
      have hinputs₄ := (hsign _ _ _).run hinputs₃ hfinal
      rcases Prog.ite_ok.mp hrun with ⟨hsize, hrun⟩ | ⟨-, hrun⟩
      · obtain ⟨u, w₅, hnote, hpure⟩ := Prog.bind_ok.mp hrun
        obtain ⟨hsome, rfl⟩ := Prog.pure_ok.mp hpure
        obtain rfl := note_ok.mp hnote
        cases hsome
        obtain ⟨hfunded, hanswer⟩ := speedupTransactions_ok hfinal
        exact ⟨⟨_, rfl, hsize, rfl⟩, hanswer, hfunded, List.prefix_rfl, hinputs₄⟩
      · exact ih hinputs₄ hrun

/-- The pricing of a build, for each size of the child. -/
def pricingOf (parentEntries : List (SpeedupData × ℕ)) (bumpFee : ℚ) (feeRate : ℕ) (isRbf : Bool)
    (chainDiffFee childVsize : ℕ) : Pricing :=
  ⟨parentEntries.map Prod.snd, childVsize, bumpFee, feeRate, isRbf, chainDiffFee⟩

variable {parentEntries : List (SpeedupData × ℕ)} {initial : Option (List Utxo)} {bumpFee : ℚ}
  {feeRate chainDiffFee : ℕ}

/-- Building a speedup. -/
theorem buildSpeedup_plainly :
    Plainly tidy .build (buildSpeedup parentEntries initial bumpFee feeRate chainDiffFee) ctx w := by
  have hwith : ∀ plan inputs w, Plainly tidy .build (buildWith plan inputs) ctx w := by
    intro plan inputs w
    apply Prog.Reaches.seq (Prog.Reaches.ask _)
    intro rounds _
    exact buildRound_plainly plan rounds inputs 0
  unfold buildSpeedup
  split
  · exact reaches_read (hwith _ _ _)
  · apply reaches_read
    apply Prog.Reaches.seq (getFunding_plainly _)
    intro funding _
    cases funding with
    | some funding => exact hwith _ _ _
    | none =>
      apply Prog.Reaches.seq (plainly_of_calm emitFundingNotAvailable_calm)
      intro _ _
      exact Prog.Reaches.pure _

/-- A build returns what it signed last, at the pricing of its arguments. Without initial inputs it
starts from the primary input. -/
theorem buildSpeedup_ok {built : SpeedupBuildResult} {w' : World}
    (hinitial : ∀ inputs, initial = some inputs → AllSourced inputs w)
    (hrun : buildSpeedup parentEntries initial bumpFee feeRate chainDiffFee ctx w =
      (.ok (some built), w')) :
    ∃ inputs, BuiltWith ctx (parentEntries.map Prod.fst)
      (pricingOf parentEntries bumpFee feeRate initial.isSome chainDiffFee) inputs built w' ∧
        (initial = none → ∃ primary, inputs = [primary] ∧ w.store.primaryInput? = some primary) := by
  unfold buildSpeedup at hrun
  split at hrun
  · next inputs =>
    obtain ⟨primary, w₁, hread, hrun⟩ := Prog.bind_ok.mp hrun
    obtain ⟨-, rfl⟩ := readStore_ok.mp hread
    obtain ⟨rounds, w₂, hrounds, hrun⟩ := Prog.bind_ok.mp hrun
    obtain ⟨-, rfl⟩ := Prog.ask_ok.mp hrounds
    refine ⟨inputs, buildRound_ok (hinitial inputs rfl) hrun, fun hnone => ?_⟩
    cases hnone
  · obtain ⟨all, w₁, hread, hrun⟩ := Prog.bind_ok.mp hrun
    obtain ⟨rfl, rfl⟩ := readStore_ok.mp hread
    obtain ⟨funding, w₂, hfunding, hrun⟩ := Prog.bind_ok.mp hrun
    cases funding with
    | some funding =>
      obtain ⟨utxo, isSpeedup⟩ := funding
      obtain ⟨rounds, w₃, hrounds, hrun⟩ := Prog.bind_ok.mp hrun
      obtain ⟨-, rfl⟩ := Prog.ask_ok.mp hrounds
      obtain ⟨hsourced, hprimary⟩ := getFunding_ok hfunding
      refine ⟨[utxo], buildRound_ok (fun u hu => ?_) hrun, fun _ => ⟨utxo, rfl, hprimary⟩⟩
      rw [List.mem_singleton.mp hu]
      exact hsourced
    | none =>
      obtain ⟨u, w₃, -, hpure⟩ := Prog.bind_ok.mp hrun
      obtain ⟨hnone, -⟩ := Prog.pure_ok.mp hpure
      cases hnone

/-- A build keeps a steady property that setting one spent flag keeps. -/
theorem buildSpeedup_keeps {I : World → Prop} (hI : Steady I)
    (hspent : ∀ op spent, Prog.Keeps I (setSpent op spent) ctx) :
    Prog.Keeps I (buildSpeedup parentEntries initial bumpFee feeRate chainDiffFee) ctx := by
  have hround : ∀ plan rounds inputs childVsize,
      Prog.Keeps I (buildRound plan rounds inputs childVsize) ctx := by
    intro plan rounds
    induction rounds with
    | zero => exact fun _ _ => Prog.Keeps.stop _
    | succ rounds ih =>
      intro inputs childVsize
      refine Prog.Keeps.seq (Prog.Keeps.ask _) fun cfg => ?_
      refine Prog.Keeps.seq (Prog.Keeps.ask _) fun maxDustLimit => ?_
      refine Prog.Keeps.seq (hI.speedupTransactions _ _ _) fun dummy => ?_
      apply Prog.Keeps.ite <;> intro _
      · refine Prog.Keeps.seq (combineInput_keeps hspent plan inputs) fun extra => ?_
        cases extra with
        | some extra => exact ih _ _
        | none =>
          refine Prog.Keeps.seq (Prog.Keeps.seq (releaseMarks_keeps hspent _) fun _ => ?_)
            fun _ => Prog.Keeps.pure _
          exact hI.publish _
      · refine Prog.Keeps.seq (hI.speedupTransactions _ _ _) fun final => ?_
        apply Prog.Keeps.ite <;> intro _
        · exact fun w hw => hI.signed w _ _ hw
        · exact ih _ _
  unfold buildSpeedup
  split
  · apply keeps_read
    intro w hw
    exact hround _ _ _ _ w hw
  · apply keeps_read
    intro w hw
    refine Prog.Keeps.seq (getFunding_keeps hspent _) (fun funding => ?_) w hw
    cases funding with
    | some funding => exact fun w hw => hround _ _ _ _ w hw
    | none => exact Prog.Keeps.seq (hI.publish _) fun _ => Prog.Keeps.pure _

end BitcoinCoordinator
