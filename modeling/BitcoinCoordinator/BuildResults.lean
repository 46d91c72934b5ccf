import BitcoinCoordinator.FailureCascade

/-!
# What a build returns

The fee loop sizes the speedup, prices it and takes at most one more input. A build that gives up releases
what it marked, so the reservations are as before, unless it marked an output that was reserved already:
the change of the chain tip, when the queue holds a record of it that another build reserved.
-/

namespace BitcoinCoordinator

open Foundation

variable {ctx : Ctx} {w w' : World}

/-- The change of the chain tip, if it is queued, is not reserved. -/
def Store.TipIsFree (s : Store) : Prop :=
  ∀ tip change record, findChainTip s.speedupsOrdered s.speedupsOrdered.reverse = .ok (some tip) →
    tip.speedupChangeUtxo = .ok change → s.funding change.outPoint = some record → record.spent = false

/-- None of the outputs was reserved before, all of them are afterwards, and no other flag changed. -/
structure Store.Reserves (s s' : Store) (ops : List OutPoint) : Prop where
  free : ∀ op ∈ ops, s.flag (s.flagOf op) = some false
  taken : ∀ op ∈ ops, s'.flag (s.flagOf op) = some true
  others : ∀ flag, (∀ op ∈ ops, s.flagOf op ≠ flag) → s'.flag flag = s.flag flag

/-- What a build returned: its inputs are the given ones and at most one unspent record provided by the
user, they cover the fee, the build reserved what it claimed itself, and a fee that is not capped pays the
rate for the whole package. -/
structure BuildConsistent (ctx : Ctx) (s s' : Store) (entries : List (SpeedupData × ℕ))
    (initial : Option (List Utxo)) (feeRate : ℕ) (built : SpeedupBuildResult)
    (start extra : List Utxo) : Prop where
  starts : initial = some start ∨ initial = none ∧ ∃ primary, s.primaryInput? = some primary ∧
    start = [primary]
  inputs : built.fundingInputs = start ++ extra
  single : extra.length ≤ 1
  provided : ∀ u ∈ extra, ∃ record ∈ s.fundingRecords, record.utxo = u ∧ record.fromSpeedup = false ∧
    record.spent = false
  covered : built.fee + ctx.answers.maxDustLimit ≤ (built.fundingInputs.map Utxo.amount).sum
  reserved : s.Reserves s' ((if initial.isSome then extra else start ++ extra).map Utxo.outPoint)
  paid : built.capped = false → feeRate * ((entries.map Prod.snd).sum + built.tx.vsize) ≤
    (entries.map Prod.snd).sum * minRelayFeeRate + built.fee

/-- The call with another bound on the rounds of the fee loop. -/
def Ctx.withRounds (ctx : Ctx) (rounds : ℕ) : Ctx :=
  { ctx with answers := { ctx.answers with buildRounds := rounds } }

/-- The builder's signed transactions have a size bounded by what they spend. -/
def Answers.BoundsSize (answers : Answers) : Prop :=
  ∃ bound : List SpeedupData → List Utxo → ℕ, ∀ n data inputs key fee tx,
    answers.speedupTransactions n data inputs key fee = .ok tx → tx.vsize ≤ bound data inputs

/-- A build comes to an end, what it returns is consistent, and when it gives up every reservation is as
before. -/
structure BuildSound (ctx : Ctx) (w : World) (entries : List (SpeedupData × ℕ))
    (initial : Option (List Utxo)) (bumpFee : ℚ) (feeRate chainDiffFee : ℕ) : Prop where
  terminates : ∃ enough, ∀ rounds, enough ≤ rounds → Prog.Avoids .unfinished
    (buildSpeedup entries initial bumpFee feeRate chainDiffFee) (ctx.withRounds rounds) w
  built : ∀ built w', buildSpeedup entries initial bumpFee feeRate chainDiffFee ctx w =
      (.ok (some built), w') →
    ∃ start extra, BuildConsistent ctx w.store w'.store entries initial feeRate built start extra
  gaveUp : ∀ w', buildSpeedup entries initial bumpFee feeRate chainDiffFee ctx w = (.ok none, w') →
    ∀ flag, w'.store.flag flag = w.store.flag flag

/-! ### Marks -/

/-- The store with the flags of some outputs set or cleared. -/
def Store.setAllSpent (s : Store) (ops : List OutPoint) (spent : Bool) : Store :=
  ops.foldl (fun s op => s.setSpent op spent) s

/-- Setting a flag keeps where every flag is kept. -/
theorem Store.flagOf_setSpent (s : Store) (op op' : OutPoint) (spent : Bool) :
    (s.setSpent op spent).flagOf op' = s.flagOf op' := by
  have hqueue := (FlagSet.setSpent s op spent).queue op'
  simp [Store.flagOf, hqueue]

/-- Setting flags keeps where every flag is kept. -/
theorem Store.flagOf_setAllSpent (s : Store) (ops : List OutPoint) (op : OutPoint) (spent : Bool) :
    (s.setAllSpent ops spent).flagOf op = s.flagOf op := by
  unfold Store.setAllSpent
  induction ops generalizing s with
  | nil => rfl
  | cons first rest ih =>
    rw [List.foldl_cons, ih]
    exact s.flagOf_setSpent first op spent

/-- Setting the flags of some outputs sets these flags and no others. -/
theorem Store.flag_setAllSpent (s : Store) (ops : List OutPoint) (spent : Bool) (flag : Flag) :
    (s.setAllSpent ops spent).flag flag =
      if ∃ op ∈ ops, s.flagOf op = flag then (s.flag flag).map fun _ => spent else s.flag flag := by
  unfold Store.setAllSpent
  induction ops generalizing s with
  | nil => simp
  | cons first rest ih =>
    rw [List.foldl_cons, ih, (FlagSet.setSpent s first spent).flags flag]
    have hsame : (∃ op ∈ rest, (s.setSpent first spent).flagOf op = flag) ↔
        ∃ op ∈ rest, s.flagOf op = flag := by
      simp only [Store.flagOf_setSpent]
    by_cases hrest : ∃ op ∈ rest, s.flagOf op = flag
    · have hany : ∃ op ∈ first :: rest, s.flagOf op = flag := by
        obtain ⟨op, hop, heq⟩ := hrest
        exact ⟨op, List.mem_cons_of_mem first hop, heq⟩
      rw [if_pos (hsame.mpr hrest), if_pos hany]
      split
      · rw [Option.map_map]
        rfl
      · rfl
    · rw [if_neg fun h => hrest (hsame.mp h)]
      by_cases hfirst : s.flagOf first = flag
      · rw [if_pos hfirst, if_pos ⟨first, List.mem_cons_self, hfirst⟩]
      · rw [if_neg hfirst, if_neg]
        rintro ⟨op, hop, heq⟩
        rcases List.mem_cons.mp hop with rfl | hop
        · exact hfirst heq
        · exact hrest ⟨op, hop, heq⟩

/-- Outputs that were free are reserved by setting their flags. -/
theorem Store.reserves_setAllSpent {s : Store} {ops : List OutPoint}
    (hfree : ∀ op ∈ ops, s.flag (s.flagOf op) = some false) :
    s.Reserves (s.setAllSpent ops true) ops where
  free := hfree
  taken := by
    intro op hop
    rw [s.flag_setAllSpent, if_pos ⟨op, hop, rfl⟩, hfree op hop]
    rfl
  others := by
    intro flag hothers
    rw [s.flag_setAllSpent, if_neg]
    rintro ⟨op, hop, heq⟩
    exact hothers op hop heq

/-- Reserving outputs and releasing them leaves the value `false` where a flag was touched. -/
theorem Store.flag_release (s : Store) (ops : List OutPoint) (flag : Flag) :
    ((s.setAllSpent ops true).setAllSpent ops false).flag flag =
      if ∃ op ∈ ops, s.flagOf op = flag then (s.flag flag).map fun _ => false else s.flag flag := by
  rw [Store.flag_setAllSpent, Store.flag_setAllSpent]
  simp only [Store.flagOf_setAllSpent]
  split
  · rw [Option.map_map]
    rfl
  · rfl

/-- A queued record after a flag was set. -/
theorem Store.funding_setSpent (s : Store) (op op' : OutPoint) (spent : Bool) :
    (s.setSpent op spent).funding op' =
      if op' = op then (s.funding op').map fun record => { record with spent := spent }
      else s.funding op' := by
  unfold Store.setSpent
  split
  · next record hget =>
    by_cases hop : op' = op
    · simp [Store.setFunding, hop, hget]
    · simp [Store.setFunding, hop]
  · next hnone =>
    have hsame : (if op' = op then (s.funding op').map fun record => { record with spent := spent }
        else s.funding op') = s.funding op' := by
      split
      · next heq => rw [heq, hnone]; rfl
      · rfl
    rw [hsame]
    split
    · rfl
    · split <;> rfl

/-- Setting a flag keeps the order of the queue. -/
theorem Store.fundingList_setSpent (s : Store) (op : OutPoint) (spent : Bool) :
    (s.setSpent op spent).fundingList = s.fundingList := by
  unfold Store.setSpent
  split
  · rfl
  · split
    · rfl
    · split <;> rfl

/-- Setting a flag keeps every record under the output it names. -/
theorem Store.FundingKeyed.setSpent {s : Store} (h : s.FundingKeyed) (op : OutPoint) (spent : Bool) :
    (s.setSpent op spent).FundingKeyed := by
  intro op' record hget
  rw [s.funding_setSpent] at hget
  split at hget
  · next heq =>
    obtain ⟨old, hold, rfl⟩ := Option.map_eq_some_iff.mp hget
    exact h op' old hold
  · exact h op' record hget

/-! ### The fee loop -/

/-- A store that no question, no news and no signature touches. -/
theorem steady_store (s : Store) : Steady fun w => w.store = s where
  asked := fun _ h => h
  published := fun _ _ h => h
  signed := fun _ _ _ h => h

/-- Setting a flag. -/
theorem setSpent_ok {op : OutPoint} {spent : Bool} {u : Unit}
    (hrun : setSpent op spent ctx w = (.ok u, w')) : w'.store = w.store.setSpent op spent := by
  obtain ⟨v, w₁, hwrite, hnote⟩ := Prog.bind_ok.mp hrun
  have hone : OneWrite _ w (writeSpent op spent ctx w) := writeSpent_oneWrite op spent
  rw [hwrite] at hone
  obtain rfl := note_ok.mp hnote
  exact hone.store_eq

/-- Releasing inputs. -/
theorem releaseMarks_ok {utxos : List Utxo} {u : Unit}
    (hrun : releaseMarks utxos ctx w = (.ok u, w')) :
    w'.store = w.store.setAllSpent (utxos.map Utxo.outPoint) false := by
  unfold releaseMarks at hrun
  induction utxos generalizing w with
  | nil =>
    obtain ⟨-, rfl⟩ := Prog.pure_ok.mp hrun
    rfl
  | cons first rest ih =>
    obtain ⟨v, w₁, hfirst, hrest⟩ := Prog.bind_ok.mp hrun
    rw [ih hrest, setSpent_ok hfirst]
    rfl

/-- The record a second input is taken from. -/
def Store.combineRecord? (s : Store) : Option FundingData :=
  s.fundingRecords.find? fun record => !record.fromSpeedup && !record.spent

/-- What a build may have taken besides its first inputs: nothing, or one unspent record provided by the
user, beside a single input derived from a speedup. -/
def BuildPlan.Combines (plan : BuildPlan) (s : Store) (start extra : List Utxo) : Prop :=
  extra = [] ∨ start.length = 1 ∧ plan.primaryIsSpeedup = true ∧
    ∃ record, s.combineRecord? = some record ∧ extra = [record.utxo]

/-- The fee loop started on a store with the given inputs and may have taken one more. -/
def BuildPlan.InLoop (plan : BuildPlan) (s : Store) (start inputs : List Utxo) (v : Store) : Prop :=
  ∃ extra, plan.Combines s start extra ∧ inputs = start ++ extra ∧
    v = s.setAllSpent (extra.map Utxo.outPoint) true

/-- The inputs of a built speedup cover its fee, which is that of a size not below the signed one. -/
structure BuildPlan.Accepts (plan : BuildPlan) (ctx : Ctx) (built : SpeedupBuildResult) : Prop where
  priced : ∃ childVsize, built.tx.vsize ≤ childVsize ∧
    (built.fee, built.capped) = ctx.settings.fee.price (plan.pricing childVsize)
  answered : ∃ n data key,
    ctx.answers.speedupTransactions n data built.fundingInputs key built.fee = .ok built.tx
  covered : ctx.answers.maxDustLimit ≤ (built.fundingInputs.map Utxo.amount).sum - built.fee

/-- Taking a second input. -/
theorem BuildPlan.InLoop.combine {plan : BuildPlan} {s : Store} {start inputs : List Utxo} {extra : Utxo}
    (h : plan.InLoop s start inputs w.store)
    (hrun : combineInput plan inputs ctx w = (.ok (some extra), w')) :
    plan.InLoop s start (inputs ++ [extra]) w'.store := by
  obtain ⟨taken, hcombines, rfl, hstore⟩ := h
  rcases Prog.ite_ok.mp hrun with ⟨⟨hone, hprimary⟩, hrun⟩ | ⟨-, hrun⟩
  · obtain ⟨records, w₁, hread, hreserve⟩ := Prog.bind_ok.mp hrun
    obtain ⟨rfl, rfl⟩ := readStore_ok.mp hread
    have htaken : taken = [] := by
      rcases hcombines with hnone | ⟨hstart, -, record, -, rfl⟩
      · exact hnone
      · rw [List.length_append, hstart] at hone
        cases hone
    subst htaken
    have hsame : w₁.store = s := hstore
    clear hrun hread
    generalize hfind : List.find? _ _ = found at hreserve
    cases found with
    | none =>
      obtain ⟨hnone, -⟩ := Prog.pure_ok.mp hreserve
      cases hnone
    | some record =>
      obtain ⟨v, w₂, hmark, hpure⟩ := Prog.bind_ok.mp hreserve
      obtain ⟨hsome, rfl⟩ := Prog.pure_ok.mp hpure
      cases hsome
      have hrecord : s.combineRecord? = some record := by rw [← hsame]; exact hfind
      refine ⟨[record.utxo], Or.inr ⟨by simpa using hone, hprimary, record, hrecord, rfl⟩, by simp, ?_⟩
      rw [setSpent_ok hmark, hsame]
      rfl
  · obtain ⟨hnone, -⟩ := Prog.pure_ok.mp hrun
    cases hnone

/-- Looking for a second input in vain. -/
theorem combineInput_none (plan : BuildPlan) {inputs : List Utxo}
    (hrun : combineInput plan inputs ctx w = (.ok none, w')) : w'.store = w.store := by
  rcases Prog.ite_ok.mp hrun with ⟨-, hrun⟩ | ⟨-, hrun⟩
  · obtain ⟨records, w₁, hread, hreserve⟩ := Prog.bind_ok.mp hrun
    obtain ⟨rfl, rfl⟩ := readStore_ok.mp hread
    clear hrun hread
    generalize List.find? _ _ = found at hreserve
    cases found with
    | none =>
      obtain ⟨-, rfl⟩ := Prog.pure_ok.mp hreserve
      rfl
    | some record =>
      obtain ⟨v, w₂, -, hpure⟩ := Prog.bind_ok.mp hreserve
      obtain ⟨hnone, -⟩ := Prog.pure_ok.mp hpure
      cases hnone
  · obtain ⟨-, rfl⟩ := Prog.pure_ok.mp hrun
    rfl

/-- What the fee loop returns and leaves. The induction is on the rounds. -/
theorem buildRound_result {plan : BuildPlan} {s : Store} {start inputs : List Utxo} {rounds childVsize : ℕ}
    {result : Option SpeedupBuildResult} (h : plan.InLoop s start inputs w.store)
    (hrun : buildRound plan rounds inputs childVsize ctx w = (.ok result, w')) :
    ∃ extra, plan.Combines s start extra ∧
      ((∃ built, result = some built ∧ built.fundingInputs = start ++ extra ∧ plan.Accepts ctx built ∧
          w'.store = s.setAllSpent (extra.map Utxo.outPoint) true) ∨
        result = none ∧ w'.store = (s.setAllSpent (extra.map Utxo.outPoint) true).setAllSpent
          (((start ++ extra).drop plan.inheritedCount).map Utxo.outPoint) false) := by
  have hsign : ∀ {data inputs fee tx w w'}, speedupTransactions data inputs fee ctx w = (.ok tx, w') →
      w'.store = w.store :=
    fun hrun => ((steady_store _).speedupTransactions _ _ _).run rfl hrun
  induction rounds generalizing inputs childVsize w with
  | zero => exact (Prog.stop_ok.mp hrun).elim
  | succ rounds ih =>
    obtain ⟨cfg, w₁, hcfg, hbody⟩ := Prog.bind_ok.mp hrun
    obtain ⟨rfl, rfl⟩ := settings_ok.mp hcfg
    obtain ⟨maxDustLimit, w₂, hdust, hsized⟩ := Prog.bind_ok.mp hbody
    obtain ⟨rfl, rfl⟩ := Prog.ask_ok.mp hdust
    obtain ⟨dummy, w₃, hdummy, hpriced⟩ := Prog.bind_ok.mp hsized
    rw [← hsign hdummy] at h
    rcases Prog.ite_ok.mp hpriced with ⟨-, hrun⟩ | ⟨hcovered, hrun⟩
    · obtain ⟨extra, w₄, hcombine, hrun⟩ := Prog.bind_ok.mp hrun
      cases extra with
      | some extra => exact ih (h.combine hcombine) hrun
      | none =>
        obtain ⟨u, w₅, habandon, hpure⟩ := Prog.bind_ok.mp hrun
        obtain ⟨rfl, rfl⟩ := Prog.pure_ok.mp hpure
        obtain ⟨v, w₆, hrelease, hpublish⟩ := Prog.bind_ok.mp habandon
        obtain ⟨taken, hcombines, rfl, hstore⟩ := h
        refine ⟨taken, hcombines, Or.inr ⟨rfl, ?_⟩⟩
        rw [((steady_store w₆.store).publish _).run rfl hpublish, releaseMarks_ok hrelease,
          combineInput_none plan hcombine, hstore]
    · obtain ⟨final, w₄, hfinal, hrun⟩ := Prog.bind_ok.mp hrun
      rw [← hsign hfinal] at h
      rcases Prog.ite_ok.mp hrun with ⟨hsize, hrun⟩ | ⟨-, hrun⟩
      · obtain ⟨u, w₅, hnote, hpure⟩ := Prog.bind_ok.mp hrun
        obtain ⟨rfl, rfl⟩ := Prog.pure_ok.mp hpure
        obtain rfl := note_ok.mp hnote
        obtain ⟨taken, hcombines, rfl, hstore⟩ := h
        obtain ⟨-, n, key, hanswer⟩ := speedupTransactions_ok hfinal
        exact ⟨taken, hcombines, Or.inl ⟨_, rfl, rfl,
          ⟨⟨_, hsize, rfl⟩, ⟨n, _, key, hanswer⟩, not_lt.mp hcovered⟩, hstore⟩⟩
      · exact ih h hrun

/-! ### The whole build -/

variable {entries : List (SpeedupData × ℕ)} {initial : Option (List Utxo)} {bumpFee : ℚ}
  {feeRate chainDiffFee : ℕ}

/-- Choosing the primary input marks it and nothing else. -/
theorem getFunding_store {primary : Utxo} {isSpeedup : Bool}
    (hrun : getFunding w.store.speedupsOrdered ctx w = (.ok (some (primary, isSpeedup)), w')) :
    w'.store = w.store.setSpent primary.outPoint true := by
  obtain ⟨tip, w₁, hread, hchoose⟩ := Prog.bind_ok.mp hrun
  obtain ⟨-, rfl⟩ := Prog.ofExcept_ok.mp hread
  clear hrun hread
  cases tip with
  | some tx =>
    obtain ⟨change, w₂, hread, hreserve⟩ := Prog.bind_ok.mp hchoose
    obtain ⟨-, rfl⟩ := Prog.ofExcept_ok.mp hread
    obtain ⟨u, w₃, hmark, hpure⟩ := Prog.bind_ok.mp hreserve
    obtain ⟨hsome, rfl⟩ := Prog.pure_ok.mp hpure
    cases hsome
    exact setSpent_ok hmark
  | none =>
    obtain ⟨records, w₂, hread, hreserve⟩ := Prog.bind_ok.mp hchoose
    obtain ⟨rfl, rfl⟩ := readStore_ok.mp hread
    clear hchoose hread
    generalize List.find? _ _ = found at hreserve
    cases found with
    | some record =>
      obtain ⟨u, w₃, hmark, hpure⟩ := Prog.bind_ok.mp hreserve
      obtain ⟨hsome, rfl⟩ := Prog.pure_ok.mp hpure
      cases hsome
      exact setSpent_ok hmark
    | none =>
      obtain ⟨hnone, -⟩ := Prog.pure_ok.mp hreserve
      cases hnone

/-- Without a primary input nothing is changed. -/
theorem getFunding_none (hrun : getFunding w.store.speedupsOrdered ctx w = (.ok none, w')) :
    w'.store = w.store ∧ w.store.primaryInput? = none := by
  obtain ⟨tip, w₁, hread, hchoose⟩ := Prog.bind_ok.mp hrun
  obtain ⟨htip, rfl⟩ := Prog.ofExcept_ok.mp hread
  clear hrun hread
  cases tip with
  | some tx =>
    obtain ⟨change, w₂, hread, hreserve⟩ := Prog.bind_ok.mp hchoose
    obtain ⟨u, w₃, -, hpure⟩ := Prog.bind_ok.mp hreserve
    obtain ⟨hnone, -⟩ := Prog.pure_ok.mp hpure
    cases hnone
  | none =>
    obtain ⟨records, w₂, hread, hreserve⟩ := Prog.bind_ok.mp hchoose
    obtain ⟨rfl, rfl⟩ := readStore_ok.mp hread
    clear hchoose hread
    generalize hfind : List.find? _ _ = found at hreserve
    cases found with
    | some record =>
      obtain ⟨u, w₃, -, hpure⟩ := Prog.bind_ok.mp hreserve
      obtain ⟨hnone, -⟩ := Prog.pure_ok.mp hpure
      cases hnone
    | none =>
      obtain ⟨-, rfl⟩ := Prog.pure_ok.mp hreserve
      refine ⟨rfl, ?_⟩
      unfold Store.primaryInput?
      rw [htip]
      simp only [hfind, Option.map_none]

/-- The inputs a build starts from: the given ones, or the primary input. -/
def Store.StartsFrom (s : Store) (initial : Option (List Utxo)) (start : List Utxo) : Prop :=
  initial = some start ∨ initial = none ∧ ∃ primary, s.primaryInput? = some primary ∧ start = [primary]

/-- The inputs a build claims itself. -/
def claimedInputs (initial : Option (List Utxo)) (start extra : List Utxo) : List OutPoint :=
  (if initial.isSome then extra else start ++ extra).map Utxo.outPoint

/-- The store in which the fee loop starts. -/
def Store.atLoop (s : Store) (initial : Option (List Utxo)) (start : List Utxo) : Store :=
  s.setAllSpent (if initial.isSome then [] else start.map Utxo.outPoint) true

/-- What a build returns and leaves: without a primary input, nothing; otherwise a speedup from the inputs
it claimed, or nothing after it released them. -/
theorem buildSpeedup_result {result : Option SpeedupBuildResult}
    (hrun : buildSpeedup entries initial bumpFee feeRate chainDiffFee ctx w = (.ok result, w')) :
    (result = none ∧ w'.store = w.store ∧ initial = none ∧ w.store.primaryInput? = none) ∨
    ∃ start extra inherited primaryIsSpeedup, w.store.StartsFrom initial start ∧
      BuildPlan.Combines ⟨entries, bumpFee, feeRate, initial.isSome, chainDiffFee, inherited,
        primaryIsSpeedup⟩ (w.store.atLoop initial start) start extra ∧
      ((∃ built, result = some built ∧ built.fundingInputs = start ++ extra ∧
          BuildPlan.Accepts ⟨entries, bumpFee, feeRate, initial.isSome, chainDiffFee, inherited,
            primaryIsSpeedup⟩ ctx built ∧
          w'.store = w.store.setAllSpent (claimedInputs initial start extra) true) ∨
        result = none ∧
          w'.store = (w.store.setAllSpent (claimedInputs initial start extra) true).setAllSpent
            (claimedInputs initial start extra) false) := by
  cases initial with
  | some inputs =>
    obtain ⟨primary, w₁, hread, hbuild⟩ := Prog.bind_ok.mp hrun
    obtain ⟨-, rfl⟩ := readStore_ok.mp hread
    obtain ⟨rounds, w₂, hrounds, hloop⟩ := Prog.bind_ok.mp hbuild
    obtain ⟨-, rfl⟩ := Prog.ask_ok.mp hrounds
    have hstart : BuildPlan.InLoop ⟨entries, bumpFee, feeRate, true, chainDiffFee, inputs.length, primary⟩
        w₂.store inputs inputs w₂.store := ⟨[], Or.inl rfl, by simp, rfl⟩
    obtain ⟨extra, hcombines, hresult⟩ := buildRound_result hstart hloop
    refine Or.inr ⟨inputs, extra, inputs.length, primary, Or.inl rfl, hcombines, ?_⟩
    rw [List.drop_left] at hresult
    exact hresult
  | none =>
    obtain ⟨all, w₁, hread, hchoose⟩ := Prog.bind_ok.mp hrun
    obtain ⟨rfl, rfl⟩ := readStore_ok.mp hread
    obtain ⟨funding, w₂, hfunding, hbuild⟩ := Prog.bind_ok.mp hchoose
    cases funding with
    | none =>
      obtain ⟨u, w₃, hpublish, hpure⟩ := Prog.bind_ok.mp hbuild
      obtain ⟨rfl, rfl⟩ := Prog.pure_ok.mp hpure
      obtain ⟨hstore, hprimary⟩ := getFunding_none hfunding
      refine Or.inl ⟨rfl, ?_, rfl, hprimary⟩
      rw [((steady_store w₂.store).publish _).run rfl hpublish, hstore]
    | some funding =>
      obtain ⟨primary, isSpeedup⟩ := funding
      obtain ⟨rounds, w₃, hrounds, hloop⟩ := Prog.bind_ok.mp hbuild
      obtain ⟨-, rfl⟩ := Prog.ask_ok.mp hrounds
      have hmarked := getFunding_store hfunding
      have hstart : BuildPlan.InLoop ⟨entries, bumpFee, feeRate, false, chainDiffFee, 0, isSpeedup⟩
          (w₁.store.setSpent primary.outPoint true) [primary] [primary] w₃.store :=
        ⟨[], Or.inl rfl, by simp, hmarked⟩
      obtain ⟨extra, hcombines, hresult⟩ := buildRound_result hstart hloop
      exact Or.inr ⟨[primary], extra, 0, isSpeedup,
        Or.inr ⟨rfl, primary, (getFunding_ok hfunding).2, rfl⟩, hcombines, hresult⟩

/-- A record that is not reserved after some outputs were reserved is as it was before. -/
theorem Store.mem_fundingRecords_of_free {s : Store} {ops : List OutPoint} {record : FundingData}
    (hmem : record ∈ (s.setAllSpent ops true).fundingRecords) (hfree : record.spent = false) :
    record ∈ s.fundingRecords := by
  unfold Store.setAllSpent at hmem
  induction ops generalizing s with
  | nil => exact hmem
  | cons first rest ih =>
    obtain ⟨op, hop, hget⟩ := List.mem_filterMap.mp (ih hmem)
    rw [s.fundingList_setSpent] at hop
    rw [s.funding_setSpent] at hget
    split at hget
    · obtain ⟨old, -, rfl⟩ := Option.map_eq_some_iff.mp hget
      cases hfree
    · exact List.mem_filterMap.mpr ⟨op, hop, hget⟩

/-- What a build takes besides its first inputs was provided by the user and not reserved. -/
theorem BuildPlan.Combines.provided {plan : BuildPlan} {s : Store} {ops : List OutPoint}
    {start extra : List Utxo} (h : plan.Combines (s.setAllSpent ops true) start extra) :
    extra.length ≤ 1 ∧ ∀ u ∈ extra, ∃ record ∈ s.fundingRecords, record.utxo = u ∧
      record.fromSpeedup = false ∧ record.spent = false := by
  rcases h with rfl | ⟨-, -, record, hfind, rfl⟩
  · simp
  · have huser := List.find?_some hfind
    simp only [Bool.and_eq_true, Bool.not_eq_true'] at huser
    have hmem := Store.mem_fundingRecords_of_free (List.mem_of_find?_eq_some hfind) huser.2
    refine ⟨by simp, ?_⟩
    intro u hu
    rw [List.mem_singleton.mp hu]
    exact ⟨record, hmem, rfl, huser.1, huser.2⟩

/-- A queued record that is not reserved has a clear flag. -/
theorem Store.FundingKeyed.flag_eq {s : Store} (hkeyed : s.FundingKeyed) {record : FundingData}
    (hmem : record ∈ s.fundingRecords) :
    s.flagOf record.utxo.outPoint = .queued record.utxo.outPoint ∧
      s.flag (.queued record.utxo.outPoint) = some record.spent := by
  obtain ⟨op, -, hget⟩ := List.mem_filterMap.mp hmem
  have hop := hkeyed op record hget
  subst hop
  simp [Store.flagOf, Store.flag, hget]

/-- The primary input is not reserved. -/
theorem Store.TipIsFree.flag_primary {s : Store} (htip : s.TipIsFree) (hkeyed : s.FundingKeyed)
    {primary : Utxo} (h : s.primaryInput? = some primary) :
    s.flag (s.flagOf primary.outPoint) = some false := by
  unfold Store.primaryInput? at h
  split at h
  · next tip hfind =>
    have hchange : tip.speedupChangeUtxo = .ok primary := by
      cases hresult : tip.speedupChangeUtxo with
      | ok change =>
        rw [hresult] at h
        cases h
        rfl
      | error e =>
        rw [hresult] at h
        cases h
    cases hqueue : s.funding primary.outPoint with
    | some record =>
      have hfree := htip tip primary record hfind hchange hqueue
      simp [Store.flagOf, Store.flag, hqueue, hfree]
    | none =>
      obtain ⟨hmem, -, -, kind, hkind, hspent⟩ := findChainTip_ok hfind
      have hget := (mem_speedupsOrdered (List.mem_reverse.mp hmem)).2
      rw [← (CoordinatedTx.speedupChangeUtxo_ok hchange).1] at hget
      have hrecord : s.txs.get primary.outPoint.txid = some tip := hget
      simp [Store.flagOf, Store.flag, hqueue, hrecord, hkind, hspent]
  · next hfind =>
    obtain ⟨record, hrecord, rfl⟩ := Option.map_eq_some_iff.mp h
    have hfree := List.find?_some hrecord
    simp only [Bool.not_eq_true'] at hfree
    obtain ⟨hflagOf, hflag⟩ := hkeyed.flag_eq (List.mem_of_find?_eq_some hrecord)
    rw [hflagOf, hflag, hfree]
  · cases h

/-- Nothing a build claims is reserved before, when the change of the chain tip is not. -/
theorem claimed_free {s : Store} {start extra : List Utxo} {plan : BuildPlan}
    (htip : initial = none → s.TipIsFree) (hkeyed : s.FundingKeyed) (hstart : s.StartsFrom initial start)
    (hcombines : plan.Combines (s.atLoop initial start) start extra) :
    ∀ op ∈ claimedInputs initial start extra, s.flag (s.flagOf op) = some false := by
  have hextra : ∀ u ∈ extra, s.flag (s.flagOf u.outPoint) = some false := by
    intro u hu
    obtain ⟨record, hmem, rfl, -, hfree⟩ := hcombines.provided.2 u hu
    obtain ⟨hflagOf, hflag⟩ := hkeyed.flag_eq hmem
    rw [hflagOf, hflag, hfree]
  intro op hop
  obtain ⟨u, hu, rfl⟩ := List.mem_map.mp hop
  rcases hstart with rfl | ⟨rfl, primary, hprimary, rfl⟩
  · exact hextra u hu
  · rcases List.mem_append.mp hu with hfirst | hu
    · rw [List.mem_singleton.mp hfirst]
      exact (htip rfl).flag_primary hkeyed hprimary
    · exact hextra u hu

/-- A fee that is not capped pays the rate for the package, at any size up to the priced one. -/
theorem uncapped_price_le {cfg : FeeSettings} {pricing : Pricing} {vsize : ℕ}
    (hbump : 1 ≤ pricing.bumpFee) (hsize : vsize ≤ pricing.childVsize)
    (huncapped : (cfg.price pricing).2 = false) :
    pricing.feeRate * (pricing.parentVsizes.sum + vsize) ≤
      pricing.parentVsizes.sum * minRelayFeeRate + (cfg.price pricing).1 := by
  have hgrow : pricing.feeRate * (pricing.parentVsizes.sum + vsize) ≤
      pricing.feeRate * (pricing.parentVsizes.sum + pricing.childVsize) :=
    Nat.mul_le_mul_left _ (by omega)
  have htotal := mul_feeRate_le_totalSpeedupFee pricing.parentVsizes.sum pricing.childVsize
    pricing.feeRate pricing.isRbf pricing.chainDiffFee
  have hbumped := totalSpeedupFee_le_bumpedSpeedupFee pricing.parentVsizes.sum pricing.childVsize
    pricing.feeRate pricing.isRbf pricing.chainDiffFee hbump
  unfold FeeSettings.price at huncapped ⊢
  rw [computeSpeedupFee_snd, decide_eq_false_iff_not, not_lt] at huncapped
  rw [computeSpeedupFee_fst, min_eq_left huncapped]
  unfold minRelayFeeRate
  omega

/-- When it inherits its inputs, or the change of the chain tip is not reserved, a build that returned a speedup is
consistent. -/
theorem buildSpeedup_consistent {built : SpeedupBuildResult} (htip : initial = none → w.store.TipIsFree)
    (hkeyed : w.store.FundingKeyed) (hdust : 0 < ctx.answers.maxDustLimit) (hbump : 1 ≤ bumpFee)
    (hrun : buildSpeedup entries initial bumpFee feeRate chainDiffFee ctx w =
      (.ok (some built), w')) :
    ∃ start extra, BuildConsistent ctx w.store w'.store entries initial feeRate built start extra := by
  rcases buildSpeedup_result hrun with ⟨hnone, -⟩ | ⟨start, extra, _, _, hstart, hcombines, hresult⟩
  · cases hnone
  · rcases hresult with ⟨built', hsome, hinputs, haccepts, hstore⟩ | ⟨hnone, -⟩
    · cases hsome
      obtain ⟨hsingle, hprovided⟩ := hcombines.provided
      obtain ⟨childVsize, hsize, hprice⟩ := haccepts.priced
      have hcovered := haccepts.covered
      refine ⟨start, extra, hstart, hinputs, hsingle, hprovided, by omega, ?_, ?_⟩
      · rw [hstore]
        exact Store.reserves_setAllSpent (claimed_free htip hkeyed hstart hcombines)
      · intro huncapped
        have hfee := congrArg Prod.fst hprice
        have hcapped := congrArg Prod.snd hprice
        simp only at hfee hcapped
        rw [hcapped] at huncapped
        rw [hfee]
        exact uncapped_price_le hbump hsize huncapped
    · cases hnone

/-- When it inherits its inputs, or the change of the chain tip is not reserved, a build that gave up leaves every
reservation. -/
theorem buildSpeedup_gaveUp (htip : initial = none → w.store.TipIsFree) (hkeyed : w.store.FundingKeyed)
    (hrun : buildSpeedup entries initial bumpFee feeRate chainDiffFee ctx w = (.ok none, w'))
    (flag : Flag) : w'.store.flag flag = w.store.flag flag := by
  rcases buildSpeedup_result hrun with ⟨-, hstore, -⟩ |
    ⟨start, extra, _, _, hstart, hcombines, hresult⟩
  · rw [hstore]
  · rcases hresult with ⟨built', hsome, -⟩ | ⟨-, hstore⟩
    · cases hsome
    · have hfree := claimed_free htip hkeyed hstart hcombines
      rw [hstore, Store.flag_release]
      split
      · next hclaimed =>
        obtain ⟨op, hop, rfl⟩ := hclaimed
        rw [hfree op hop]
        rfl
      · rfl

/-! ### Termination -/

/-- The search for the chain tip is bounded by the list. -/
theorem findChainTip_error {speedups older : List CoordinatedTx} {e : Stop}
    (h : findChainTip speedups older = .error e) : e ≠ .unfinished := by
  induction older with
  | nil => cases h
  | cons newest older ih =>
    unfold findChainTip at h
    split at h
    · split at h
      · cases h
        simp
      · split at h
        · exact ih h
        · cases h
    · exact ih h

/-- Reading a change output is no loop. -/
theorem CoordinatedTx.speedupChangeUtxo_error {tx : CoordinatedTx} {e : Stop}
    (h : tx.speedupChangeUtxo = .error e) : e ≠ .unfinished := by
  unfold CoordinatedTx.speedupChangeUtxo at h
  repeat' split at h
  all_goals first
    | cases h
      simp
    | cases h

/-- Some write is refused, or some signature. -/
def Answers.Refuses (answers : Answers) : Prop :=
  (∃ n e, answers.storage n = .error e) ∨
    ∃ n data inputs key fee e, answers.speedupTransactions n data inputs key fee = .error e

/-- A program stops for a reason other than its bound, and only when the given condition holds. -/
def StopsWhen {α : Type} (P : Prop) (r : Except Stop α) (_ : World) : Prop :=
  ∀ e, r = .error e → e ≠ .unfinished ∧ P

variable {α β : Type} {P : Prop}

/-- A value returned at once. -/
theorem StopsWhen.pure (a : α) : Prog.Ends (StopsWhen P) (Pure.pure a : Coord α) ctx w := by
  intro e he
  cases he

/-- One statement after another. -/
theorem StopsWhen.bind {m : Coord α} {f : α → Coord β} (hm : Prog.Ends (StopsWhen P) m ctx w)
    (hf : ∀ a w', m ctx w = (.ok a, w') → Prog.Ends (StopsWhen P) (f a) ctx w') :
    Prog.Ends (StopsWhen P) (m >>= f) ctx w := by
  apply Prog.Ends.bind hm
  · rintro e w₁ hstop e' he
    cases he
    exact hstop e rfl
  · intro a w₁ _ hrun
    exact hf a w₁ hrun

/-- A program that stops under no condition completes. -/
theorem StopsWhen.completes {m : Coord α} (h : Prog.Ends (StopsWhen False) m ctx w) :
    Prog.Completes m ctx w := by
  generalize hrun : m ctx w = outcome
  obtain ⟨result, w'⟩ := outcome
  cases result with
  | ok a => exact ⟨a, w', hrun⟩
  | error e => exact ((h.run hrun) e rfl).2.elim

section Storage

variable (hstorage : (∃ n e, ctx.answers.storage n = .error e) → P)

include hstorage

/-- A refused write. -/
theorem writeStore_stops (f : Store → Store) : Prog.Ends (StopsWhen P) (writeStore f) ctx w := by
  unfold Prog.Ends writeStore
  intro e he
  split at he
  · cases he
  · next reason hrefused =>
    cases he
    exact ⟨by simp, hstorage ⟨_, _, hrefused⟩⟩

/-- Setting a flag stops only when its write is refused. -/
theorem setSpent_stops (op : OutPoint) (spent : Bool) :
    Prog.Ends (StopsWhen P) (setSpent op spent) ctx w := by
  have hwrite : Prog.Ends (StopsWhen P) (writeSpent op spent) ctx w := by
    apply ends_read
    split
    · apply Prog.Ends.ite <;> intro _
      · exact StopsWhen.pure _
      · exact writeStore_stops hstorage _
    · apply ends_read
      split
      · exact StopsWhen.pure _
      · unfold setSpeedupSpent
        split
        · apply Prog.Ends.ite <;> intro _
          · exact StopsWhen.pure _
          · exact writeStore_stops hstorage _
        · exact StopsWhen.pure _
  apply StopsWhen.bind hwrite
  intro _ w₁ _ e he
  cases he

/-- Releasing inputs stops only when a write is refused. -/
theorem releaseMarks_stops (utxos : List Utxo) :
    Prog.Ends (StopsWhen P) (releaseMarks utxos) ctx w := by
  unfold releaseMarks
  induction utxos generalizing w with
  | nil => exact StopsWhen.pure _
  | cons first rest ih => exact StopsWhen.bind (setSpent_stops hstorage _ _) fun _ _ _ => ih

/-- Publishing stops only when a write is refused. -/
theorem publish_stops (news : CoordinatorNews) :
    Prog.Ends (StopsWhen P) (do let _ ← addNews news; pure () : Coord Unit) ctx w := by
  have hwrite : ∀ f w, Prog.Ends (StopsWhen P) (writeNews f) ctx w := by
    intro f w
    unfold Prog.Ends writeNews
    intro e he
    split at he
    · cases he
    · next reason hrefused =>
      cases he
      exact ⟨by simp, hstorage ⟨_, _, hrefused⟩⟩
  have hread : Prog.Ends (StopsWhen P) (Prog.read World.news : Coord _) ctx w := by
    intro e he
    cases he
  refine StopsWhen.bind (StopsWhen.bind hread fun all w₁ _ => ?_) fun _ _ _ => StopsWhen.pure _
  apply Prog.Ends.ite <;> intro _
  · exact StopsWhen.pure _
  · exact StopsWhen.bind (hwrite _ _) fun _ _ _ => StopsWhen.pure _

/-- Looking for a second input stops only when its mark is refused. -/
theorem combineInput_stops (plan : BuildPlan) (inputs : List Utxo) :
    Prog.Ends (StopsWhen P) (combineInput plan inputs) ctx w := by
  apply Prog.Ends.ite <;> intro _
  · apply ends_read
    split
    · exact StopsWhen.bind (setSpent_stops hstorage _ _) fun _ _ _ => StopsWhen.pure _
    · exact StopsWhen.pure _
  · exact StopsWhen.pure _

/-- Choosing the primary input stops only when its mark is refused, if there is one. -/
theorem getFunding_stops (hfunded : w.store.primaryInput? = none → P) :
    Prog.Ends (StopsWhen P) (getFunding w.store.speedupsOrdered) ctx w := by
  have hread : Prog.Ends (StopsWhen P)
      (Prog.ofExcept (findChainTip w.store.speedupsOrdered w.store.speedupsOrdered.reverse) :
        Coord (Option CoordinatedTx)) ctx w := by
    intro e he
    have htip : findChainTip w.store.speedupsOrdered w.store.speedupsOrdered.reverse = .error e := he
    refine ⟨findChainTip_error htip, hfunded ?_⟩
    unfold Store.primaryInput?
    rw [htip]
  apply StopsWhen.bind hread
  intro tip w₁ hfind
  obtain ⟨htip, rfl⟩ := Prog.ofExcept_ok.mp hfind
  cases tip with
  | some tx =>
    have hchange : Prog.Ends (StopsWhen P) (Prog.ofExcept tx.speedupChangeUtxo : Coord Utxo) ctx w₁ := by
      intro e he
      have herror : tx.speedupChangeUtxo = .error e := he
      refine ⟨CoordinatedTx.speedupChangeUtxo_error herror, hfunded ?_⟩
      unfold Store.primaryInput?
      rw [htip]
      simp only [herror]
      rfl
    apply StopsWhen.bind hchange
    intro utxo w₂ _
    exact StopsWhen.bind (setSpent_stops hstorage _ _) fun _ _ _ => StopsWhen.pure _
  | none =>
    apply ends_read
    split
    · exact StopsWhen.bind (setSpent_stops hstorage _ _) fun _ _ _ => StopsWhen.pure _
    · exact StopsWhen.pure _

end Storage

/-- Having a speedup signed stops only when the builder refuses or there are no inputs. -/
theorem speedupTransactions_stops {data : List SpeedupData} {inputs : List Utxo} {fee : ℕ}
    (hinputs : inputs = [] → P)
    (hbuilder : (∃ n data inputs key fee e, ctx.answers.speedupTransactions n data inputs key fee =
      .error e) → P) :
    Prog.Ends (StopsWhen P) (speedupTransactions data inputs fee) ctx w := by
  unfold speedupTransactions
  split
  · intro e he
    cases he
    exact ⟨by simp, hinputs rfl⟩
  · unfold Prog.Ends query
    intro e he
    split at he
    · cases he
    · next reason hrefused =>
      cases he
      exact ⟨by simp, hbuilder ⟨_, _, _, _, _, _, hrefused⟩⟩

/-- The rounds a fee loop may need: one for each size of the child and, while a second input can be taken,
one for each size with any of the queued records. -/
def roundsNeeded (bound : List Utxo → ℕ) (s : Store) (inputs : List Utxo) (childVsize : ℕ) : ℕ :=
  bound inputs - childVsize + if inputs.length = 1 then
    1 + (s.fundingRecords.map fun record => bound (inputs ++ [record.utxo])).sum else 0

/-- With a round for each size of the child, the fee loop ends. Every round that goes on has taken the
second input or made the child larger. -/
theorem buildRound_stops {plan : BuildPlan} {bound : List Utxo → ℕ} {inputs : List Utxo}
    {rounds childVsize : ℕ} (hrefused : ctx.answers.Refuses → P)
    (hbound : ∀ n inputs key fee tx, ctx.answers.speedupTransactions n
      (plan.parentEntries.map Prod.fst) inputs key fee = .ok tx → tx.vsize ≤ bound inputs)
    (hinputs : inputs = [] → P)
    (hrounds : roundsNeeded bound w.store inputs childVsize < rounds) :
    Prog.Ends (StopsWhen P) (buildRound plan rounds inputs childVsize) ctx w := by
  have hask : ∀ {γ : Type} (f : Ctx → γ) (w : World),
      Prog.Ends (StopsWhen P) (Prog.ask f : Coord γ) ctx w := by
    intro γ f w e he
    cases he
  have hstorage : (∃ n e, ctx.answers.storage n = .error e) → P := fun h => hrefused (Or.inl h)
  have hsign : ∀ {data inputs fee tx w w'}, speedupTransactions data inputs fee ctx w = (.ok tx, w') →
      w'.store = w.store :=
    fun hrun => ((steady_store _).speedupTransactions _ _ _).run rfl hrun
  induction rounds generalizing inputs childVsize w with
  | zero => omega
  | succ rounds ih =>
    apply StopsWhen.bind (hask _ w)
    intro cfg w₁ hcfg
    obtain ⟨rfl, rfl⟩ := settings_ok.mp hcfg
    apply StopsWhen.bind (hask _ w₁)
    intro maxDustLimit w₂ hdust
    obtain ⟨rfl, rfl⟩ := Prog.ask_ok.mp hdust
    apply StopsWhen.bind (speedupTransactions_stops hinputs fun h => hrefused (Or.inr h))
    intro dummy w₃ hdummy
    rw [← hsign hdummy] at hrounds
    apply Prog.Ends.ite <;> intro _
    · apply StopsWhen.bind (combineInput_stops hstorage plan inputs)
      intro extra w₄ hcombine
      cases extra with
      | none =>
        apply StopsWhen.bind
        · exact StopsWhen.bind (releaseMarks_stops hstorage _) fun _ _ _ => publish_stops hstorage _
        · exact fun _ _ _ => StopsWhen.pure _
      | some extra =>
        have hloop : plan.InLoop w₃.store inputs inputs w₃.store := ⟨[], Or.inl rfl, by simp, rfl⟩
        obtain ⟨taken, hcombines, htaken, -⟩ := hloop.combine hcombine
        have hextra : [extra] = taken := List.append_cancel_left htaken
        rcases hcombines with hnone | ⟨hone, -, record, hfind, hrecord⟩
        · rw [hnone] at hextra
          cases hextra
        · rw [hrecord] at hextra
          cases hextra
          apply ih (fun h => absurd h (by simp))
          have hle : bound (inputs ++ [record.utxo]) ≤
              (w₃.store.fundingRecords.map fun record => bound (inputs ++ [record.utxo])).sum :=
            List.single_le_sum (by simp) _
              (List.mem_map.mpr ⟨record, List.mem_of_find?_eq_some hfind, rfl⟩)
          have htwo : (inputs ++ [record.utxo]).length ≠ 1 := by simp [hone]
          unfold roundsNeeded at hrounds ⊢
          rw [if_pos hone] at hrounds
          rw [if_neg htwo]
          omega
    · apply StopsWhen.bind (speedupTransactions_stops hinputs fun h => hrefused (Or.inr h))
      intro final w₄ hfinal
      rw [← hsign hfinal] at hrounds
      apply Prog.Ends.ite <;> intro hsize
      · intro e he
        cases he
      · apply ih hinputs
        obtain ⟨-, n, key, hanswer⟩ := speedupTransactions_ok hfinal
        have hle := hbound n inputs key _ final hanswer
        have hgrown : childVsize < final.vsize := by
          simp only [BuildPlan.pricing] at hsize
          split at hsize <;> omega
        unfold roundsNeeded at hrounds ⊢
        omega

/-- With a round for each size of the child, a build ends, and with inputs to start from it stops only when
something is refused. -/
theorem buildSpeedup_stops {bound : List Utxo → ℕ} {start : List Utxo}
    (hrefused : ctx.answers.Refuses → P)
    (hbound : ∀ n inputs key fee tx, ctx.answers.speedupTransactions n (entries.map Prod.fst) inputs key
      fee = .ok tx → tx.vsize ≤ bound inputs)
    (hstart : initial.getD w.store.primaryInput?.toList = start) (hfunded : start = [] → P)
    (hrounds : roundsNeeded bound (w.store.atLoop initial start) start 0 < ctx.answers.buildRounds) :
    Prog.Ends (StopsWhen P) (buildSpeedup entries initial bumpFee feeRate chainDiffFee) ctx w := by
  have hstorage : (∃ n e, ctx.answers.storage n = .error e) → P := fun h => hrefused (Or.inl h)
  have hask : ∀ w, Prog.Ends (StopsWhen P)
      (Prog.ask fun ctx => ctx.answers.buildRounds : Coord ℕ) ctx w := by
    intro w e he
    cases he
  cases initial with
  | some inputs =>
    obtain rfl : inputs = start := hstart
    apply ends_read
    apply StopsWhen.bind (hask w)
    intro rounds w₁ hread
    obtain ⟨rfl, rfl⟩ := Prog.ask_ok.mp hread
    exact buildRound_stops hrefused hbound hfunded hrounds
  | none =>
    apply ends_read
    apply StopsWhen.bind
    · apply getFunding_stops hstorage
      intro hnone
      rw [hnone] at hstart
      exact hfunded hstart.symm
    · intro funding w₁ hfunding
      cases funding with
      | none => exact StopsWhen.bind (publish_stops hstorage _) fun _ _ _ => StopsWhen.pure _
      | some funding =>
        obtain ⟨primary, isSpeedup⟩ := funding
        have hprimary := (getFunding_ok hfunding).2
        have hmarked := getFunding_store hfunding
        rw [hprimary] at hstart
        subst hstart
        apply StopsWhen.bind (hask w₁)
        intro rounds w₂ hread
        obtain ⟨rfl, rfl⟩ := Prog.ask_ok.mp hread
        apply buildRound_stops hrefused hbound fun h => absurd h (by simp)
        rw [hmarked]
        exact hrounds

/-- A build comes to an end, whatever is answered. -/
theorem buildSpeedup_terminates (hsize : ctx.answers.BoundsSize) :
    ∃ enough, ∀ rounds, enough ≤ rounds → Prog.Avoids .unfinished
      (buildSpeedup entries initial bumpFee feeRate chainDiffFee) (ctx.withRounds rounds) w := by
  obtain ⟨bound, hbound⟩ := hsize
  refine ⟨roundsNeeded (bound (entries.map Prod.fst))
    (w.store.atLoop initial (initial.getD w.store.primaryInput?.toList))
    (initial.getD w.store.primaryInput?.toList) 0 + 1, fun rounds hrounds => ?_⟩
  have hends : Prog.Ends (StopsWhen True)
      (buildSpeedup entries initial bumpFee feeRate chainDiffFee) (ctx.withRounds rounds) w :=
    buildSpeedup_stops (fun _ => trivial) (fun n inputs key fee tx => hbound n _ inputs key fee tx) rfl
      (fun _ => trivial) hrounds
  intro herror
  exact (hends .unfinished herror).1 rfl

/-! ### Funding records in a run -/

/-- A write that leaves the funding records alone, or puts each under the output it names. -/
theorem writeStore_keyed {f : Store → Store} (hf : ∀ s, s.FundingKeyed → (f s).FundingKeyed) :
    Prog.Keeps (fun w => w.store.FundingKeyed) (writeStore f) ctx :=
  OneWrite.keeps (fun _ => writeStore_oneWrite) (fun _ hw => hw) fun w hw => hf w.store hw

/-- A plain move keeps every funding record under the output it names. -/
theorem Store.FundingKeyed.plain {tidy : Prop} {phase : Phase} (h : w.store.FundingKeyed)
    (hmove : Plain ctx tidy phase w w') : w'.store.FundingKeyed := by
  cases hmove with
  | quiet hquiet =>
    cases hquiet with
    | wrote s hwrite =>
      cases hwrite with
      | unpended txid => exact h
      | flagged op record hget spent =>
        have hop : record.utxo.outPoint = op := h op record hget
        exact h.setFunding hop
    | _ => exact h
  | _ => exact h

/-- A whole operation, completed or not, keeps every funding record under the output it names. -/
theorem Store.FundingKeyed.whole {tidy : Prop} {phase : Phase} {r : Except Stop Unit}
    (h : w.store.FundingKeyed) (hwhole : Whole ctx tidy r phase w w') : w'.store.FundingKeyed := by
  have hunlist : ∀ txid, Prog.Keeps (fun w => w.store.FundingKeyed) (removeSpeedupFromList txid) ctx :=
    fun txid => OneWrite.keeps (fun _ => removeSpeedupFromList_oneWrite txid) (fun _ hw => hw)
      fun _ hw => hw
  have hnote : ∀ e, Prog.Keeps (fun w => w.store.FundingKeyed) (note e) ctx := fun _ _ hw => hw
  have hremove : ∀ txid, Prog.Keeps (fun w => w.store.FundingKeyed) (removeTx txid) ctx :=
    fun txid => Prog.Keeps.seq (writeStore_keyed fun _ hs => hs) fun _ => hunlist txid
  cases hwhole with
  | inserted tx htx hrun =>
    have hlist : Prog.Keeps (fun w => w.store.FundingKeyed) (appendToSpeedupList tx.txid) ctx := by
      refine Prog.Keeps.seq (Prog.Keeps.read _) fun list => Prog.Keeps.ite (fun _ => ?_) fun _ => ?_
      · exact Prog.Keeps.pure _
      · exact writeStore_keyed fun _ hs => hs
    have hput : Prog.Keeps (fun w => w.store.FundingKeyed) (putTx (.inserted tx) tx) ctx :=
      Prog.Keeps.seq (Prog.Keeps.read _) fun before =>
        Prog.Keeps.seq (writeStore_keyed fun _ hs => hs) fun _ => hnote _
    have hinsert : Prog.Keeps (fun w => w.store.FundingKeyed) (insertSpeedup tx) ctx :=
      Prog.Keeps.seq hput fun _ => Prog.Keeps.seq hlist fun _ => hnote _
    exact hinsert.run h hrun
  | evicted tx _ _ _ hrun => exact (hremove _).run h hrun
  | dropped txid _ _ hrun => exact (hremove _).run h hrun
  | registered tx _ _ _ hrun =>
    have hpend : Prog.Keeps (fun w => w.store.FundingKeyed) (addPendingSpeedupParent tx.txid) ctx := by
      refine Prog.Keeps.seq (Prog.Keeps.read _) fun list => Prog.Keeps.ite (fun _ => ?_) fun _ => ?_
      · exact Prog.Keeps.pure _
      · exact writeStore_keyed fun _ hs => hs
    have hregister : Prog.Keeps (fun w => w.store.FundingKeyed) (storeRegistered tx) ctx :=
      Prog.Keeps.seq (hnote _) fun _ => Prog.Keeps.seq (writeStore_keyed fun _ hs => hs) fun _ =>
        Prog.Keeps.ite (fun _ => hpend) fun _ => Prog.Keeps.pure _
    exact hregister.run h hrun
  | funded utxo hrun =>
    have hqueue : ∀ list : List OutPoint, Prog.Keeps (fun w => w.store.FundingKeyed)
        (if utxo.outPoint ∈ list then pure () else
          writeStore fun s => { s with fundingList := list ++ [utxo.outPoint] } : Coord Unit) ctx :=
      fun list => Prog.Keeps.ite (fun _ => Prog.Keeps.pure _) fun _ => writeStore_keyed fun _ hs => hs
    have hwrite : Prog.Keeps (fun w => w.store.FundingKeyed)
        (writeStore fun s => s.setFunding utxo.outPoint ⟨utxo, false, false⟩) ctx :=
      writeStore_keyed fun _ hs => hs.setFunding rfl
    have happend : Prog.Keeps (fun w => w.store.FundingKeyed) (appendFunding utxo) ctx :=
      Prog.Keeps.seq (hnote _) fun _ => Prog.Keeps.seq hwrite fun _ =>
        Prog.Keeps.seq (Prog.Keeps.read _) hqueue
    exact happend.run h hrun
  | swapped txid _ hrun =>
    have hswap : Prog.Keeps (fun w => w.store.FundingKeyed) (replaceFundingOnFinalize txid) ctx :=
      replaceFundingOnFinalize_keeps (fun _ _ hw => hw)
        (fun f hf => writeStore_keyed fun s => (hf s).2.2) (hunlist txid)
    exact hswap.run h hrun

/-- After any calls, completed or stopped, every funding record is stored under the output it names. -/
theorem fundingKeyed_runCalls (cfg : BitcoinSettings) (calls : List Call) :
    (runCalls cfg calls World.init).store.FundingKeyed := by
  have hcall : ∀ (call : Call) (w : World), w.store.FundingKeyed →
      (exec call.request ⟨cfg, call.answers⟩ w).2.store.FundingKeyed := by
    intro call w hw
    have hserved : Served False (exec call.request) ⟨cfg, call.answers⟩ w :=
      exec_served call.request False.elim
    have hstep : ∀ v v', v.store.FundingKeyed → AnyStep ⟨cfg, call.answers⟩ False v v' →
        v'.store.FundingKeyed := by
      rintro v v' hv ⟨phase, hplain | hwhole⟩
      · exact hv.plain hplain
      · exact hv.whole hwhole
    have hsteps : ∀ v, Relation.ReflTransGen (AnyStep ⟨cfg, call.answers⟩ False) w v →
        v.store.FundingKeyed := by
      intro v hsteps
      induction hsteps with
      | refl => exact hw
      | tail _ hlast ih => exact hstep _ _ ih hlast
    generalize hrun : exec call.request ⟨cfg, call.answers⟩ w = outcome
    obtain ⟨result, w'⟩ := outcome
    cases result with
    | ok a => exact hsteps w' (hserved.done a w' hrun)
    | error e =>
      obtain ⟨v, hreach, rfl | ⟨phase, stop, htorn⟩⟩ := hserved.stopped e w' hrun
      · exact hsteps _ hreach
      · exact (hsteps v hreach).whole htorn
  have hall : ∀ (calls : List Call) (w : World), w.store.FundingKeyed →
      (runCalls cfg calls w).store.FundingKeyed := by
    intro calls
    induction calls with
    | nil => exact fun _ hw => hw
    | cons call rest ih => exact fun w hw => ih _ (hcall call w hw)
  apply hall
  intro op record hget
  cases hget

/-! ### A reserved tip -/

/-- A fee at one sat for each vbyte covers at least the size of the child. -/
theorem childVsize_le_price {cfg : FeeSettings} {pricing : Pricing} (hmax : 0 < cfg.maxFeerateSatVb)
    (hparents : pricing.parentVsizes = []) (hrate : pricing.feeRate = 1) (hbump : 1 ≤ pricing.bumpFee) :
    pricing.childVsize ≤ (cfg.price pricing).1 := by
  have htotal := mul_feeRate_le_totalSpeedupFee pricing.parentVsizes.sum pricing.childVsize
    pricing.feeRate pricing.isRbf pricing.chainDiffFee
  have hbumped := totalSpeedupFee_le_bumpedSpeedupFee pricing.parentVsizes.sum pricing.childVsize
    pricing.feeRate pricing.isRbf pricing.chainDiffFee hbump
  have hcap := add_speedupFeeCap pricing.parentVsizes.sum pricing.childVsize hmax
  have hgrow : 1 * pricing.childVsize ≤ cfg.maxFeerateSatVb * pricing.childVsize :=
    Nat.mul_le_mul_right _ hmax
  unfold FeeSettings.price
  rw [computeSpeedupFee_fst, le_min_iff]
  rw [hparents] at htotal hbumped hcap ⊢
  rw [hrate] at htotal hbumped ⊢
  simp only [List.sum_nil, Nat.zero_add] at htotal hbumped hcap ⊢
  omega

/-- A call during which nothing is refused and every speedup is signed at the same size. -/
def oversizedCtx (cfg : BitcoinSettings) (vsize : ℕ) : Ctx :=
  ⟨cfg, (sampleView 100 [] []).answers (fun _ _ _ _ => ⟨0, [], [], vsize, 4 * vsize⟩) 1 0⟩

/-- A build that no funding covers gives up after it marked the primary input. -/
theorem buildSpeedup_oversized {cfg : BitcoinSettings} {primary : Utxo} {vsize rounds : ℕ}
    (hmax : 0 < cfg.fee.maxFeerateSatVb) (hprimary : w.store.primaryInput? = some primary)
    (hvsize : vsize = primary.amount + (w.store.fundingRecords.map fun r => r.utxo.amount).sum)
    (hrounds : roundsNeeded (fun _ => vsize) (w.store.atLoop none [primary]) [primary] 0 < rounds) :
    ∃ w', buildSpeedup [] none 1 1 0 ((oversizedCtx cfg vsize).withRounds rounds) w = (.ok none, w') ∧
      w'.store.flag (w.store.flagOf primary.outPoint) ≠ some true := by
  have hends : Prog.Ends (StopsWhen False) (buildSpeedup [] none 1 1 0)
      ((oversizedCtx cfg vsize).withRounds rounds) w := by
    refine buildSpeedup_stops ?_ ?_ ?_ (fun h => absurd h (by simp)) hrounds
    · rintro (⟨n, e, hrefused⟩ | ⟨n, data, inputs, key, fee, e, hrefused⟩) <;> cases hrefused
    · intro n inputs key fee tx hanswer
      cases hanswer
      exact Nat.le_refl _
    · rw [hprimary]
      rfl
  generalize hrun : buildSpeedup [] none 1 1 0 ((oversizedCtx cfg vsize).withRounds rounds) w = outcome
  obtain ⟨result, w'⟩ := outcome
  cases result with
  | error e => exact (hends.run hrun e rfl).2.elim
  | ok result =>
    rcases buildSpeedup_result hrun with ⟨-, -, -, hnone⟩ |
      ⟨start, extra, _, _, hstart, hcombines, hresult⟩
    · rw [hprimary] at hnone
      cases hnone
    · obtain ⟨-, primary', hprimary', rfl⟩ := hstart.resolve_left (by simp)
      obtain rfl : primary = primary' := Option.some.inj (hprimary.symm.trans hprimary')
      rcases hresult with ⟨built, rfl, hinputs, haccepts, -⟩ | ⟨rfl, hstore⟩
      · obtain ⟨hsingle, hprovided⟩ := hcombines.provided
        obtain ⟨childVsize, hsize, hprice⟩ := haccepts.priced
        obtain ⟨n, data, key, hanswer⟩ := haccepts.answered
        have hcovered := haccepts.covered
        have htx : built.tx.vsize = vsize := by rw [← Except.ok.inj hanswer]
        have hfee : childVsize ≤ built.fee := by
          have hfirst := congrArg Prod.fst hprice
          simp only at hfirst
          rw [hfirst]
          have hlow : (Pricing.mk [] childVsize 1 1 false 0).childVsize ≤
              (cfg.fee.price (Pricing.mk [] childVsize 1 1 false 0)).1 :=
            childVsize_le_price hmax rfl rfl (le_refl (1 : ℚ))
          exact hlow
        have hdust : ((oversizedCtx cfg vsize).withRounds rounds).answers.maxDustLimit = 540 := rfl
        have hextra : (extra.map Utxo.amount).sum ≤
            (w.store.fundingRecords.map fun r => r.utxo.amount).sum := by
          rcases List.length_eq_zero_iff.or List.length_eq_one_iff |>.mp
            (Nat.le_one_iff_eq_zero_or_eq_one.mp hsingle) with rfl | ⟨u, rfl⟩
          · simp
          · obtain ⟨record, hmem, rfl, -⟩ := hprovided u List.mem_cons_self
            rw [List.map_singleton, List.sum_singleton]
            exact List.single_le_sum (by simp) _ (List.mem_map.mpr ⟨record, hmem, rfl⟩)
        rw [hinputs, List.map_append, List.sum_append, List.map_singleton, List.sum_singleton]
          at hcovered
        omega
      · refine ⟨w', rfl, ?_⟩
        rw [hstore, Store.flag_release]
        rw [if_pos ⟨primary.outPoint, by simp [claimedInputs], rfl⟩]
        cases w.store.flag (w.store.flagOf primary.outPoint) <;> simp

/-- When every build is sound, the change of the chain tip is not reserved: a build that takes it and then
gives up would release it. -/
theorem tipIsFree_of_sound {cfg : BitcoinSettings} (hmax : 0 < cfg.fee.maxFeerateSatVb)
    (hsound : ∀ answers entries initial bumpFee feeRate chainDiffFee, answers.BoundsSize →
      0 < answers.maxDustLimit → 1 ≤ bumpFee →
        BuildSound ⟨cfg, answers⟩ w entries initial bumpFee feeRate chainDiffFee) :
    w.store.TipIsFree := by
  intro tip change record hfind hchange hqueue
  by_contra hspent
  rw [Bool.not_eq_false] at hspent
  have hprimary : w.store.primaryInput? = some change := by
    unfold Store.primaryInput?
    rw [hfind]
    simp only [hchange, Except.toOption]
  obtain ⟨w', hrun, hreleased⟩ := buildSpeedup_oversized hmax hprimary rfl (Nat.lt_succ_self _)
  have hsize : ((oversizedCtx cfg (change.amount +
      (w.store.fundingRecords.map fun r => r.utxo.amount).sum)).withRounds
        ((roundsNeeded (fun _ => change.amount + (w.store.fundingRecords.map fun r => r.utxo.amount).sum)
          (w.store.atLoop none [change]) [change] 0).succ)).answers.BoundsSize := by
    refine ⟨fun _ _ => change.amount + (w.store.fundingRecords.map fun r => r.utxo.amount).sum, ?_⟩
    intro n data inputs key fee tx hanswer
    rw [← Except.ok.inj hanswer]
  have hdust : 0 < (540 : ℕ) := by decide
  have hkept := (hsound _ [] none 1 1 0 hsize hdust le_rfl).gaveUp w' hrun
    (w.store.flagOf change.outPoint)
  apply hreleased
  rw [hkept]
  simp [Store.flagOf, Store.flag, hqueue, hspent]

/-- A build that inherits its inputs is sound in every store; one that takes its primary input from the funding
manager is when the change of the chain tip is not reserved in the queue. -/
theorem buildSpeedup_sound (htip : initial = none → w.store.TipIsFree) (hkeyed : w.store.FundingKeyed)
    (hsize : ctx.answers.BoundsSize) (hdust : 0 < ctx.answers.maxDustLimit) (hbump : 1 ≤ bumpFee) :
    BuildSound ctx w entries initial bumpFee feeRate chainDiffFee where
  terminates := buildSpeedup_terminates hsize
  built _ _ hrun := buildSpeedup_consistent htip hkeyed hdust hbump hrun
  gaveUp _ hrun := buildSpeedup_gaveUp htip hkeyed hrun

/-- Whatever the parents, the inputs, the rates and the builder, every build comes to an end, returns a
consistent speedup or leaves every reservation, exactly when the change of the chain tip is not reserved in
the queue. -/
theorem buildSpeedup_sound_iff {cfg : BitcoinSettings} (hcfg : cfg.validate = .ok ())
    (hkeyed : w.store.FundingKeyed) :
    (∀ answers entries initial bumpFee feeRate chainDiffFee, answers.BoundsSize →
      0 < answers.maxDustLimit → 1 ≤ bumpFee →
        BuildSound ⟨cfg, answers⟩ w entries initial bumpFee feeRate chainDiffFee) ↔
      w.store.TipIsFree := by
  constructor
  · exact tipIsFree_of_sound (BitcoinSettings.validate_fee_bounds hcfg).1
  · intro htip answers entries initial bumpFee feeRate chainDiffFee hsize hdust hbump
    exact buildSpeedup_sound (fun _ => htip) hkeyed hsize hdust hbump

/-- A CPFP is accepted and its change is the next funding, which no queue record holds: whatever is built next is
sound. -/
theorem buildSpeedup_sound_acceptedCalls :
    (runCalls defaultSettings acceptedCalls World.init).store.TipIsFree ∧
      ∀ answers entries initial bumpFee feeRate chainDiffFee, answers.BoundsSize →
        0 < answers.maxDustLimit → 1 ≤ bumpFee →
          BuildSound ⟨defaultSettings, answers⟩ (runCalls defaultSettings acceptedCalls World.init) entries
            initial bumpFee feeRate chainDiffFee := by
  have hfree : (runCalls defaultSettings acceptedCalls World.init).store.TipIsFree := by
    intro tip change record hfind hchange hqueue
    have hfree : ((findChainTip (runCalls defaultSettings acceptedCalls World.init).store.speedupsOrdered
        (runCalls defaultSettings acceptedCalls World.init).store.speedupsOrdered.reverse).toOption.join.all
          fun tip => tip.speedupChangeUtxo.toOption.all fun change =>
            ((runCalls defaultSettings acceptedCalls World.init).store.funding change.outPoint).all
              fun record => !record.spent) = true := by decide +kernel
    rw [hfind] at hfree
    simp only [Except.toOption, Option.join_some, Option.all_some, hchange, hqueue] at hfree
    simpa using hfree
  exact ⟨hfree, (buildSpeedup_sound_iff (BitcoinSettings.validate_default _) (fundingKeyed_runCalls _ _)).mpr hfree⟩

/-- The change of an accepted CPFP is registered as a funding UTXO, and the tick that takes it for a second
parent stops when the builder fails. -/
def unsignedCalls : List Call :=
  let view := pairView 100 [sampleParent, firstOfChain] [secondParent]
  let tick := view.call fixedBuilder 10 0 .tick
  acceptedCalls ++ [registerChangeCall,
    view.call fixedBuilder 10 0 (.dispatchWithSpeedup secondParent secondAnchor "second" none none),
    { tick with answers := { tick.answers with
        speedupTransactions := fun _ _ _ _ _ => .error "signing failed" } }]

/-- The answers to the next build, whose speedup costs more than the change. -/
def costlyAnswers : Answers :=
  (pairView 101 [sampleParent, firstOfChain, secondParent] []).answers
    (plainBuilder fun _ => 100000) 10 0

/-- The record of the change is reserved and the CPFP is not marked spent, so the next build takes the change
again, does not cover its fee and releases a reservation it did not make. -/
theorem exists_unsound_build :
    ∃ (cfg : BitcoinSettings) (calls : List Call) (answers : Answers)
      (entries : List (SpeedupData × ℕ)), cfg.validate = .ok () ∧ answers.BoundsSize ∧
        0 < answers.maxDustLimit ∧
        ¬ BuildSound ⟨cfg, answers⟩ (runCalls cfg calls World.init) entries none 1 10 0 := by
  have hsize : costlyAnswers.BoundsSize := by
    refine ⟨fun _ _ => 100000, ?_⟩
    intro n data inputs key fee tx hanswer
    rw [← Except.ok.inj hanswer]
    exact Nat.le_refl _
  refine ⟨defaultSettings, unsignedCalls, costlyAnswers, [(secondAnchor, 150)],
    BitcoinSettings.validate_default _, hsize, by decide, ?_⟩
  intro hsound
  have hreserved : (runCalls defaultSettings unsignedCalls World.init).store.flag
      (.queued firstChange.outPoint) = some true := by decide +kernel
  have hgaveUp : (buildSpeedup [(secondAnchor, 150)] none 1 10 0 ⟨defaultSettings, costlyAnswers⟩
      (runCalls defaultSettings unsignedCalls World.init)).1.toOption.map Option.isNone = some true ∧
    (buildSpeedup [(secondAnchor, 150)] none 1 10 0 ⟨defaultSettings, costlyAnswers⟩
      (runCalls defaultSettings unsignedCalls World.init)).2.store.flag
        (.queued firstChange.outPoint) = some false := by decide +kernel
  generalize hrun : buildSpeedup [(secondAnchor, 150)] none 1 10 0 ⟨defaultSettings, costlyAnswers⟩
    (runCalls defaultSettings unsignedCalls World.init) = outcome at hgaveUp
  obtain ⟨result, w'⟩ := outcome
  obtain ⟨hnone, hreleased⟩ := hgaveUp
  cases result with
  | error e => cases hnone
  | ok result =>
    cases result with
    | some built => cases hnone
    | none =>
      have hkept := hsound.gaveUp w' hrun (.queued firstChange.outPoint)
      rw [hreserved] at hkept
      exact absurd (hreleased.symm.trans hkept) (by simp)

end BitcoinCoordinator
