import BitcoinCoordinator.BuildResults

/-!
# Which funding a build tries

A CPFP starts from the input the funding manager hands out. Beside one derived from a speedup it takes the
first unspent record provided by the user, and no other: when these fall short the build gives up, whatever
stands behind them in the queue.

Over fixed inputs the fee loop depends only on how a build prices and signs, so it is a function of the
inputs, and whether some inputs cover the fee can be asked of any of them.
-/

namespace BitcoinCoordinator

open Foundation

variable {ctx : Ctx} {w w' : World} {isSpeedup : Bool} {inputs : List Utxo} {rounds childVsize : ℕ}

/-- What a CPFP is priced and signed with, whatever funds it. -/
structure FeeQuote where
  settings : BitcoinSettings
  parentEntries : List (SpeedupData × ℕ)
  bumpFee : ℚ
  feeRate : ℕ
  chainDiffFee : ℕ
  maxDustLimit : ℕ
  speedupTransactions : List SpeedupData → List Utxo → PublicKey → ℕ → Except String Transaction

/-- How the fee loop over fixed inputs ends: a signed speedup within its price, inputs below the fee, or
neither within the rounds. -/
inductive FeeVerdict where
  | covered
  | short
  | unsettled
  deriving DecidableEq

/-- The plan of the build. -/
def FeeQuote.plan (q : FeeQuote) (isSpeedup : Bool) : BuildPlan :=
  ⟨q.parentEntries, q.bumpFee, q.feeRate, false, q.chainDiffFee, 0, isSpeedup⟩

/-- The speedup signed for the given inputs and fee. -/
def FeeQuote.sign (q : FeeQuote) (inputs : List Utxo) (fee : ℕ) : Except String Transaction :=
  match inputs with
  | [] => .error "no funding input"
  | first :: _ => q.speedupTransactions (q.parentEntries.map Prod.fst) inputs first.pubKey fee

/-- The fee of a child of the given size. -/
def FeeQuote.fee (q : FeeQuote) (childVsize : ℕ) : ℕ :=
  (q.settings.fee.price ((q.plan false).pricing childVsize)).1

/-- The fee loop without a second input: size the speedup, price it, and price it again while it signs
larger than it was priced. -/
def FeeQuote.settle (q : FeeQuote) (inputs : List Utxo) : ℕ → ℕ → FeeVerdict
  | 0, _ => .unsettled
  | rounds + 1, childVsize =>
    match q.sign inputs 1 with
    | .error _ => .unsettled
    | .ok dummy =>
      let sized := if childVsize = 0 then dummy.vsize else childVsize
      if (inputs.map Utxo.amount).sum - q.fee sized < q.maxDustLimit then
        .short
      else
        match q.sign inputs (q.fee sized) with
        | .error _ => .unsettled
        | .ok final => if final.vsize ≤ sized then .covered else q.settle inputs rounds final.vsize

/-- The inputs cover the computed fee and leave at least the dust limit. -/
def FeeQuote.Covers (q : FeeQuote) (inputs : List Utxo) : Prop :=
  ∃ rounds, q.settle inputs rounds 0 = .covered

/-- The inputs do not cover the computed fee and the dust limit. -/
def FeeQuote.FallsShort (q : FeeQuote) (inputs : List Utxo) : Prop :=
  ∃ rounds, q.settle inputs rounds 0 = .short

/-- True when the primary input is the change of the chain tip or of a finalized speedup. -/
def Store.primaryIsSpeedup (s : Store) : Bool :=
  match findChainTip s.speedupsOrdered s.speedupsOrdered.reverse with
  | .ok (some _) => true
  | .ok none => (s.fundingRecords.find? fun record => !record.spent).any FundingData.fromSpeedup
  | .error _ => false

/-- A record of the queue that a user provided and nothing reserved. -/
def Store.Offers (s : Store) (record : FundingData) : Prop :=
  record ∈ s.fundingRecords ∧ record.fromSpeedup = false ∧ record.spent = false

/-- Some choice of funding covers the fee: a record provided by the user alone, when the primary input
comes from the queue, or a primary input derived from a speedup together with such a record. -/
def FeeQuote.SomeCovers (q : FeeQuote) (s : Store) : Prop :=
  ∃ primary, s.primaryInput? = some primary ∧
    (findChainTip s.speedupsOrdered s.speedupsOrdered.reverse = .ok none ∧
        (∃ record, s.Offers record ∧ q.Covers [record.utxo]) ∨
      s.primaryIsSpeedup = true ∧
        ∃ record, (s.setSpent primary.outPoint true).Offers record ∧ q.Covers [primary, record.utxo])

/-- The inputs that are tried fall short: the primary input and, if it is derived from a speedup, that
input with the first record of the queue that a user provided and nothing reserved. -/
def FeeQuote.PicksFallShort (q : FeeQuote) (s : Store) : Prop :=
  ∃ primary, s.primaryInput? = some primary ∧ q.FallsShort [primary] ∧
    (s.primaryIsSpeedup = true → ∀ record,
      (s.setSpent primary.outPoint true).combineRecord? = some record → q.FallsShort [primary, record.utxo])

/-- The builder and the dust limit of a call are those of the quote. -/
structure Answers.Quotes (answers : Answers) (q : FeeQuote) : Prop where
  speedupTransactions : ∀ n, answers.speedupTransactions n = q.speedupTransactions
  maxDustLimit : answers.maxDustLimit = q.maxDustLimit

/-- The CPFP of the quote is not built, and `InsufficientFunds` is published. -/
def EndsInsufficient (q : FeeQuote) (answers : Answers) (w : World) : Prop :=
  ∃ w' available required, buildSpeedup q.parentEntries none q.bumpFee q.feeRate q.chainDiffFee
      ⟨q.settings, answers⟩ w = (.ok none, w') ∧
    w'.Noted (.insufficientFunds available required)

/-! ### Rounds -/

/-- A signature of a call that quotes. -/
theorem speedupTransactions_quoted {q : FeeQuote} (hquotes : ctx.answers.Quotes q) {fee : ℕ}
    {tx : Transaction} :
    speedupTransactions (q.parentEntries.map Prod.fst) inputs fee ctx w = (.ok tx, w') ↔
      q.sign inputs fee = .ok tx ∧ w' = w.asked := by
  cases inputs with
  | nil =>
    have hsign : q.sign [] fee = .error "no funding input" := rfl
    rw [hsign]
    constructor
    · intro h
      cases h
    · simp
  | cons first rest =>
    have hsign : q.sign (first :: rest) fee =
      q.speedupTransactions (q.parentEntries.map Prod.fst) (first :: rest) first.pubKey fee := rfl
    rw [hsign, ← hquotes.speedupTransactions w.clock]
    unfold speedupTransactions
    exact query_ok

/-- The second input is the first record of the queue that a user provided and nothing reserved. -/
theorem combineInput_choice {plan : BuildPlan} {extra : Option Utxo}
    (hrun : combineInput plan inputs ctx w = (.ok extra, w')) :
    extra = if inputs.length = 1 ∧ plan.primaryIsSpeedup = true then
      w.store.combineRecord?.map FundingData.utxo else none := by
  rcases Prog.ite_ok.mp hrun with ⟨hcombines, hrun⟩ | ⟨hsingle, hrun⟩
  · obtain ⟨records, w₁, hread, hreserve⟩ := Prog.bind_ok.mp hrun
    obtain ⟨rfl, rfl⟩ := readStore_ok.mp hread
    rw [if_pos hcombines]
    unfold Store.combineRecord?
    clear hrun hread
    generalize List.find? _ _ = found at hreserve ⊢
    cases found with
    | none =>
      obtain ⟨rfl, -⟩ := Prog.pure_ok.mp hreserve
      rfl
    | some record =>
      obtain ⟨v, w₂, -, hpure⟩ := Prog.bind_ok.mp hreserve
      obtain ⟨rfl, -⟩ := Prog.pure_ok.mp hpure
      rfl
  · rw [if_neg hsingle]
    exact (Prog.pure_ok.mp hrun).1

/-- A fee loop that gave up was left by its inputs, and by those with the second input beside a single one
derived from a speedup. The induction is on the rounds. -/
theorem buildRound_gaveUp {q : FeeQuote} (hsettings : ctx.settings = q.settings)
    (hquotes : ctx.answers.Quotes q)
    (hrun : buildRound (q.plan isSpeedup) rounds inputs childVsize ctx w = (.ok none, w')) :
    q.settle inputs rounds childVsize = .short ∧
      (inputs.length = 1 → isSpeedup = true → ∀ record, w.store.combineRecord? = some record →
        q.FallsShort (inputs ++ [record.utxo])) := by
  induction rounds generalizing inputs childVsize w with
  | zero => exact (Prog.stop_ok.mp hrun).elim
  | succ rounds ih =>
    obtain ⟨cfg, w₁, hcfg, hbody⟩ := Prog.bind_ok.mp hrun
    obtain ⟨rfl, rfl⟩ := settings_ok.mp hcfg
    obtain ⟨maxDustLimit, w₂, hdust, hsized⟩ := Prog.bind_ok.mp hbody
    obtain ⟨rfl, rfl⟩ := Prog.ask_ok.mp hdust
    obtain ⟨dummy, w₃, hdummy, hpriced⟩ := Prog.bind_ok.mp hsized
    obtain ⟨hsign, rfl⟩ := (speedupTransactions_quoted hquotes).mp hdummy
    rw [hsettings, hquotes.maxDustLimit] at hpriced
    unfold FeeQuote.settle
    rw [hsign]
    rcases Prog.ite_ok.mp hpriced with ⟨hshort, hrun⟩ | ⟨hcovered, hrun⟩
    · refine ⟨if_pos hshort, ?_⟩
      intro hone hprimary record hrecord
      obtain ⟨extra, w₄, hcombine, hrun⟩ := Prog.bind_ok.mp hrun
      have hextra := combineInput_choice hcombine
      rw [if_pos ⟨hone, hprimary⟩] at hextra
      have hfound : extra = some record.utxo := by
        rw [hextra]
        exact congrArg (Option.map FundingData.utxo) hrecord
      subst hfound
      exact ⟨rounds, (ih hrun).1⟩
    · obtain ⟨final, w₄, hfinal, hrun⟩ := Prog.bind_ok.mp hrun
      obtain ⟨hsigned, rfl⟩ := (speedupTransactions_quoted hquotes).mp hfinal
      rcases Prog.ite_ok.mp hrun with ⟨hsize, hrun⟩ | ⟨hgrown, hrun⟩
      · obtain ⟨u, w₅, -, hpure⟩ := Prog.bind_ok.mp hrun
        obtain ⟨hnone, -⟩ := Prog.pure_ok.mp hpure
        cases hnone
      · obtain ⟨hsettles, hextra⟩ := ih hrun
        have hsame : ∀ childVsize, ((q.settings.fee.price ((q.plan isSpeedup).pricing childVsize)).1) =
          q.fee childVsize := fun _ => rfl
        rw [hsame] at hcovered hsigned
        have hlarger : ¬ final.vsize ≤ if childVsize = 0 then dummy.vsize else childVsize := hgrown
        refine ⟨?_, hextra⟩
        simp only [if_neg hcovered, hsigned, if_neg hlarger, hsettles]

/-- A backend that takes every write refuses none. -/
theorem accepts_of_storage {answers : Answers} (hstorage : ∀ n, answers.storage n = .ok ()) :
    (∃ n e, answers.storage n = .error e) → False := by
  rintro ⟨n, e, hrefused⟩
  rw [hstorage n] at hrefused
  cases hrefused

/-- Giving up completes when nothing is refused, and publishes `InsufficientFunds`. -/
theorem abandonBuild_noted {plan : BuildPlan} {available required : ℕ}
    (hstorage : ∀ n, ctx.answers.storage n = .ok ()) :
    ∃ u w', abandonBuild plan inputs available required ctx w = (.ok u, w') ∧
      w'.Noted (.insufficientFunds available required) := by
  have haccepts := accepts_of_storage hstorage
  have hends : Prog.Ends (StopsWhen False) (abandonBuild plan inputs available required) ctx w :=
    StopsWhen.bind (releaseMarks_stops haccepts _) fun _ _ _ => publish_stops haccepts _
  obtain ⟨u, w', hrun⟩ := StopsWhen.completes hends
  obtain ⟨v, w₁, -, hpublish⟩ := Prog.bind_ok.mp hrun
  obtain ⟨published, w₂, hnews, hpure⟩ := Prog.bind_ok.mp hpublish
  obtain ⟨-, rfl⟩ := Prog.pure_ok.mp hpure
  exact ⟨u, _, hrun, (addNews_ok hnews).2.2.1⟩

/-- When the inputs that are tried fall short, the fee loop gives up and publishes it. The induction is on
the rounds; a second input starts over with the rounds left for it. -/
theorem buildRound_fallsShort {q : FeeQuote} {settling second : ℕ} (hsettings : ctx.settings = q.settings)
    (hquotes : ctx.answers.Quotes q) (hstorage : ∀ n, ctx.answers.storage n = .ok ())
    (hshort : q.settle inputs settling childVsize = .short)
    (hsecond : inputs.length = 1 → isSpeedup = true → ∀ record, w.store.combineRecord? = some record →
      q.settle (inputs ++ [record.utxo]) second 0 = .short)
    (hrounds : settling + second ≤ rounds) :
    ∃ w' available required,
      buildRound (q.plan isSpeedup) rounds inputs childVsize ctx w = (.ok none, w') ∧
        w'.Noted (.insufficientFunds available required) := by
  have haccepts := accepts_of_storage hstorage
  induction rounds generalizing inputs childVsize settling second w with
  | zero =>
    obtain rfl : settling = 0 := by omega
    cases hshort
  | succ rounds ih =>
    cases settling with
    | zero => cases hshort
    | succ settling =>
      unfold FeeQuote.settle at hshort
      cases hsign : q.sign inputs 1 with
      | error e =>
        rw [hsign] at hshort
        cases hshort
      | ok dummy =>
        simp only [hsign] at hshort
        have hsigns : ∀ {fee tx w}, q.sign inputs fee = .ok tx → speedupTransactions
            ((q.plan isSpeedup).parentEntries.map Prod.fst) inputs fee ctx w = (.ok tx, w.asked) :=
          fun hsign => (speedupTransactions_quoted hquotes).mpr ⟨hsign, rfl⟩
        unfold buildRound
        have hcfg : settings ctx w = (.ok ctx.settings, w) := rfl
        have hdust : (Prog.ask fun ctx => ctx.answers.maxDustLimit : Coord ℕ) ctx w =
          (.ok ctx.answers.maxDustLimit, w) := rfl
        rw [Prog.bind_of_ok hcfg, Prog.bind_of_ok hdust, Prog.bind_of_ok (hsigns hsign), hsettings,
          hquotes.maxDustLimit]
        have hsame : ∀ childVsize, ((q.settings.fee.price ((q.plan isSpeedup).pricing childVsize)).1) =
          q.fee childVsize := fun _ => rfl
        simp only [hsame]
        generalize (if childVsize = 0 then dummy.vsize else childVsize) = sized at hshort ⊢
        split at hshort
        · next hbelow =>
          rw [if_pos hbelow]
          have hends : Prog.Ends (StopsWhen False) (combineInput (q.plan isSpeedup) inputs) ctx w.asked :=
            combineInput_stops haccepts _ _
          obtain ⟨extra, w₁, hcombine⟩ := StopsWhen.completes hends
          rw [Prog.bind_of_ok hcombine]
          have hchoice := combineInput_choice hcombine
          cases extra with
          | none =>
            have hgives : ∃ u w', abandonBuild (q.plan isSpeedup) inputs (inputs.map Utxo.amount).sum
                (q.fee sized + q.maxDustLimit) ctx w₁ = (.ok u, w') ∧
                  w'.Noted (.insufficientFunds (inputs.map Utxo.amount).sum (q.fee sized + q.maxDustLimit)) :=
              abandonBuild_noted hstorage
            obtain ⟨u, w', habandon, hnoted⟩ := hgives
            exact ⟨w', _, _, Prog.bind_of_ok habandon, hnoted⟩
          | some extra =>
            split at hchoice
            · next hcombines =>
              obtain ⟨record, hrecord, rfl⟩ := Option.map_eq_some_iff.mp hchoice.symm
              have hrestart := hsecond hcombines.1 hcombines.2 record hrecord
              have halone : (inputs ++ [record.utxo]).length = 1 → isSpeedup = true → ∀ third,
                  w₁.store.combineRecord? = some third →
                    q.settle (inputs ++ [record.utxo] ++ [third.utxo]) 0 0 = .short := by
                intro hone
                simp [hcombines.1] at hone
              exact ih hrestart halone (by omega)
            · cases hchoice
        · next hcovered =>
          rw [if_neg hcovered]
          cases hfinal : q.sign inputs (q.fee sized) with
          | error e =>
            rw [hfinal] at hshort
            cases hshort
          | ok final =>
            simp only [hfinal] at hshort
            rw [Prog.bind_of_ok (hsigns hfinal)]
            split at hshort
            · cases hshort
            · next hlarger =>
              have hgrown : ¬ final.vsize ≤ ((q.plan isSpeedup).pricing sized).childVsize := hlarger
              rw [if_neg hgrown]
              exact ih hshort hsecond (by omega)

/-! ### The whole build -/

/-- The flag of a chosen primary input tells whether it is derived from a speedup. -/
theorem getFunding_isSpeedup {primary : Utxo}
    (hrun : getFunding w.store.speedupsOrdered ctx w = (.ok (some (primary, isSpeedup)), w')) :
    isSpeedup = w.store.primaryIsSpeedup := by
  obtain ⟨tip, w₁, hread, hchoose⟩ := Prog.bind_ok.mp hrun
  obtain ⟨htip, rfl⟩ := Prog.ofExcept_ok.mp hread
  unfold Store.primaryIsSpeedup
  rw [htip]
  clear hrun hread
  cases tip with
  | some tx =>
    obtain ⟨change, w₂, -, hreserve⟩ := Prog.bind_ok.mp hchoose
    obtain ⟨u, w₃, -, hpure⟩ := Prog.bind_ok.mp hreserve
    obtain ⟨hsome, -⟩ := Prog.pure_ok.mp hpure
    cases hsome
    rfl
  | none =>
    obtain ⟨records, w₂, hread, hreserve⟩ := Prog.bind_ok.mp hchoose
    obtain ⟨rfl, rfl⟩ := readStore_ok.mp hread
    clear hchoose hread
    simp only
    generalize List.find? _ _ = found at hreserve ⊢
    cases found with
    | some record =>
      obtain ⟨u, w₃, -, hpure⟩ := Prog.bind_ok.mp hreserve
      obtain ⟨hsome, -⟩ := Prog.pure_ok.mp hpure
      cases hsome
      rfl
    | none =>
      obtain ⟨hnone, -⟩ := Prog.pure_ok.mp hreserve
      cases hnone

/-- A build with a primary input that returned nothing tried inputs that fall short. -/
theorem buildSpeedup_picksFallShort {q : FeeQuote} {answers : Answers} {primary : Utxo}
    (hquotes : answers.Quotes q) (hprimary : w.store.primaryInput? = some primary)
    (hends : EndsInsufficient q answers w) : q.PicksFallShort w.store := by
  obtain ⟨w', available, required, hrun, -⟩ := hends
  obtain ⟨all, w₁, hread, hchoose⟩ := Prog.bind_ok.mp hrun
  obtain ⟨rfl, rfl⟩ := readStore_ok.mp hread
  obtain ⟨funding, w₂, hfunding, hbuild⟩ := Prog.bind_ok.mp hchoose
  cases funding with
  | none =>
    rw [(getFunding_none hfunding).2] at hprimary
    cases hprimary
  | some funding =>
    obtain ⟨chosen, isSpeedup⟩ := funding
    obtain ⟨rounds, w₃, hrounds, hloop⟩ := Prog.bind_ok.mp hbuild
    obtain ⟨-, rfl⟩ := Prog.ask_ok.mp hrounds
    have hmarked := getFunding_store hfunding
    have hflag := getFunding_isSpeedup hfunding
    obtain ⟨hshort, hsecond⟩ := buildRound_gaveUp (q := q) rfl hquotes hloop
    refine ⟨chosen, (getFunding_ok hfunding).2, ⟨rounds, hshort⟩, ?_⟩
    rw [← hmarked, ← hflag]
    exact hsecond rfl

/-- The answers of a quote while nothing else is refused. -/
def FeeQuote.answers (q : FeeQuote) (rounds : ℕ) : Answers :=
  { (sampleView 0 [] []).answers (plainBuilder id) 0 0 with
    speedupTransactions := fun _ => q.speedupTransactions
    maxDustLimit := q.maxDustLimit
    buildRounds := rounds }

/-- The answers of a quote are those of the quote. -/
theorem FeeQuote.answers_quotes (q : FeeQuote) (rounds : ℕ) : (q.answers rounds).Quotes q :=
  ⟨fun _ => rfl, rfl⟩

/-- When the inputs that are tried fall short, a build with enough rounds gives up. -/
theorem buildSpeedup_endsInsufficient {q : FeeQuote} (hshort : q.PicksFallShort w.store) :
    ∃ rounds, EndsInsufficient q (q.answers rounds) w := by
  obtain ⟨primary, hprimary, ⟨settling, hsettling⟩, hsecond⟩ := hshort
  obtain ⟨second, hsecond⟩ : ∃ second, w.store.primaryIsSpeedup = true → ∀ record,
      (w.store.setSpent primary.outPoint true).combineRecord? = some record →
        q.settle ([primary] ++ [record.utxo]) second 0 = .short := by
    cases hfound : (w.store.setSpent primary.outPoint true).combineRecord? with
    | none => exact ⟨0, fun _ record hrecord => absurd hrecord (by simp)⟩
    | some record =>
      by_cases hspeedup : w.store.primaryIsSpeedup = true
      · obtain ⟨second, hsettles⟩ := hsecond hspeedup record hfound
        refine ⟨second, ?_⟩
        intro _ record' hrecord'
        cases hrecord'
        exact hsettles
      · exact ⟨0, fun h => absurd h hspeedup⟩
  have hquotes := q.answers_quotes (settling + second)
  have hstorage : ∀ n, (q.answers (settling + second)).storage n = .ok () := fun _ => rfl
  have haccepts := accepts_of_storage hstorage
  have hfunds : Prog.Ends (StopsWhen False) (getFunding w.store.speedupsOrdered)
      ⟨q.settings, q.answers (settling + second)⟩ w := by
    apply getFunding_stops haccepts
    rw [hprimary]
    simp
  obtain ⟨funding, w₁, hfunding⟩ := StopsWhen.completes hfunds
  cases funding with
  | none =>
    rw [(getFunding_none hfunding).2] at hprimary
    cases hprimary
  | some funding =>
    obtain ⟨chosen, isSpeedup⟩ := funding
    obtain rfl : chosen = primary := Option.some.inj ((getFunding_ok hfunding).2.symm.trans hprimary)
    have hmarked := getFunding_store hfunding
    rw [← hmarked, ← getFunding_isSpeedup hfunding] at hsecond
    have hloop : ∃ w' available required, buildRound (q.plan isSpeedup) (settling + second) [chosen] 0
        ⟨q.settings, q.answers (settling + second)⟩ w₁ = (.ok none, w') ∧
          w'.Noted (.insufficientFunds available required) :=
      buildRound_fallsShort rfl hquotes (fun _ => rfl) hsettling (fun _ => hsecond) le_rfl
    obtain ⟨w', available, required, hgivesUp, hnoted⟩ := hloop
    refine ⟨settling + second, w', available, required, ?_, hnoted⟩
    have hall : readStore Store.speedupsOrdered ⟨q.settings, q.answers (settling + second)⟩ w =
      (.ok w.store.speedupsOrdered, w) := rfl
    have hround : (Prog.ask fun ctx => ctx.answers.buildRounds : Coord ℕ)
      ⟨q.settings, q.answers (settling + second)⟩ w₁ = (.ok (settling + second), w₁) := rfl
    exact (Prog.bind_of_ok hall).trans ((Prog.bind_of_ok hfunding).trans
      ((Prog.bind_of_ok hround).trans hgivesUp))

/-- The choice of funding is blocked when some choice covers the fee and the inputs that are tried fall
short. -/
def FeeQuote.IsBlocked (q : FeeQuote) (s : Store) : Prop := q.SomeCovers s ∧ q.PicksFallShort s

/-- Whatever is answered besides the quote, a build for which some choice of funding covers the fee does not
end with `InsufficientFunds`, exactly when the inputs that are tried do not fall short of a fee that another
choice covers. -/
theorem buildSpeedup_endsInsufficient_iff (q : FeeQuote) (w : World) :
    (∀ answers : Answers, answers.Quotes q → q.SomeCovers w.store → ¬ EndsInsufficient q answers w) ↔
      ¬ q.IsBlocked w.store := by
  constructor
  · rintro hnever ⟨hcovers, hshort⟩
    obtain ⟨rounds, hends⟩ := buildSpeedup_endsInsufficient hshort
    exact hnever (q.answers rounds) (q.answers_quotes rounds) hcovers hends
  · intro hopen answers hquotes hcovers hends
    obtain ⟨primary, hprimary, hchoice⟩ := hcovers
    exact hopen ⟨⟨primary, hprimary, hchoice⟩, buildSpeedup_picksFallShort hquotes hprimary hends⟩

/-- A quote of the example runs: one parent, at a rate no small UTXO covers. -/
def steepQuote : FeeQuote where
  settings := defaultSettings
  parentEntries := [(sampleAnchor, 150)]
  bumpFee := 1
  feeRate := 100
  chainDiffFee := 0
  maxDustLimit := 540
  speedupTransactions := fun data inputs key fee => .ok (fixedBuilder data inputs key fee)

/-- A small funding UTXO is registered before a large one. -/
def smallFirstCalls : List Call :=
  let view := sampleView 100 [] []
  [view.call fixedBuilder 100 0 (.addFunding ⟨8, 0, 20000, 7⟩),
    view.call fixedBuilder 100 0 (.addFunding sampleFunding)]

/-- The build tries the small UTXO alone and gives up, and the large one behind it stays unspent. -/
theorem exists_build_blocked :
    ∃ (cfg : BitcoinSettings) (calls : List Call) (q : FeeQuote) (rounds : ℕ),
      cfg.validate = .ok () ∧ q.settings = cfg ∧ (∀ call ∈ calls, call.SeesOneView) ∧
      OkRun cfg calls World.init (runCalls cfg calls World.init) ∧
      q.SomeCovers (runCalls cfg calls World.init).store ∧
      EndsInsufficient q (q.answers rounds) (runCalls cfg calls World.init) := by
  have hcovers : steepQuote.SomeCovers (runCalls defaultSettings smallFirstCalls World.init).store := by
    have hnone : (runCalls defaultSettings smallFirstCalls World.init).store.speedupsOrdered = [] := by
      rw [← List.isEmpty_iff]
      decide +kernel
    refine ⟨⟨8, 0, 20000, 7⟩, by decide +kernel, Or.inl ⟨?_, ⟨sampleFunding, false, false⟩, ?_, 1, ?_⟩⟩
    · rw [hnone]
      rfl
    · exact ⟨by decide +kernel, rfl, rfl⟩
    · decide +kernel
  have hshort : steepQuote.PicksFallShort (runCalls defaultSettings smallFirstCalls World.init).store := by
    refine ⟨⟨8, 0, 20000, 7⟩, by decide +kernel, ⟨1, by decide +kernel⟩, ?_⟩
    intro hspeedup
    exact absurd hspeedup (by decide +kernel)
  obtain ⟨rounds, hends⟩ := buildSpeedup_endsInsufficient hshort
  refine ⟨defaultSettings, smallFirstCalls, steepQuote, rounds, BitcoinSettings.validate_default _, rfl, ?_,
    okRun_runCalls (by decide +kernel), hcovers, hends⟩
  intro call hcall
  simp only [smallFirstCalls, List.mem_cons, List.not_mem_nil, or_false] at hcall
  rcases hcall with rfl | rfl <;> exact NodeView.call_seesOneView (by decide +kernel) _ _ _ _

end BitcoinCoordinator
