import BitcoinCoordinator.FundingSwap

/-!
# No boost after a capped RBF

Saving a capped RBF leaves its predecessor recorded at the maximum rate. Every later write of the record
keeps that rate, and no speedup at the maximum rate is boosted. The mark is lost only with the record,
when a speedup with the same identifier is built anew.
-/

namespace BitcoinCoordinator

open Foundation

variable {ctx : Ctx} {tidy : Prop} {phase : Phase} {cfg : BitcoinSettings} {txid : Txid} {w w' : World}

/-- A speedup, if it is tracked, is recorded at the maximum rate at least. -/
def AtCap (cfg : BitcoinSettings) (txid : Txid) (w : World) : Prop :=
  ∀ tx, w.store.txs.get txid = some tx → tx.speedup?.isSome →
    cfg.fee.maxFeerateSatVb ≤ tx.feeInfo.packageFeeRate

/-- A stored speedup is a capped RBF of a transaction. -/
def IsCappedRbf (cfg : BitcoinSettings) (p : CoordinatedTx × Store × List Event) (txid : Txid) :
    Prop :=
  p.1.replaces? = some txid ∧
    ∃ pricing vsize, lastSigned p.2.2 = some (pricing, vsize) ∧ (cfg.fee.price pricing).2 = true

/-- A stored speedup is a boost of a transaction. -/
def IsBoostedFrom (p : CoordinatedTx × Store × List Event) (txid : Txid) : Prop :=
  p.1.isBoost = true ∧ p.1.predecessor? = some txid

/-- After a capped RBF of a transaction no boost of it is stored, unless a speedup with its identifier is
stored in between. -/
def CapsAreFinal (cfg : BitcoinSettings) (w : World) : Prop :=
  ∀ newer q mid p older txid, insertions w.log = newer ++ q :: (mid ++ p :: older) →
    IsCappedRbf cfg p txid → IsBoostedFrom q txid → ∃ r ∈ mid, r.1.txid = txid

/-- The predecessor of a capped RBF is recorded at the maximum rate, unless a speedup with its identifier
was stored since. -/
def CapsAreMarked (cfg : BitcoinSettings) (w : World) : Prop :=
  ∀ newer p older txid, insertions w.log = newer ++ p :: older → IsCappedRbf cfg p txid →
    (∀ q ∈ newer, q.1.txid ≠ txid) → AtCap cfg txid w

/-! ### One move -/

/-- A record that has at most drifted from a copy has the fees of the copy, and is a speedup when the copy
is. -/
theorem Drifted.feeInfo_eq {copy record : CoordinatedTx} (h : Drifted copy record) :
    record.feeInfo = copy.feeInfo ∧ record.speedup?.isSome = copy.speedup?.isSome := by
  have hunmarked : ∀ tx : CoordinatedTx, tx.core.speedup?.isSome = tx.speedup?.isSome := by
    intro tx
    unfold CoordinatedTx.core CoordinatedTx.speedup? TxKind.unmarked
    cases tx.kind <;> rfl
  constructor
  · have hcore := congrArg CoordinatedTx.feeInfo h.core
    exact hcore
  · have hkind := hunmarked record
    rw [h.core, hunmarked] at hkind
    exact hkind.symm

/-- A record changed in place keeps the maximum rate. -/
theorem AtCap.changed {tx tx' : CoordinatedTx} {log : List Event}
    (h : AtCap ctx.settings tx.txid w) (hget : w.store.txs.get tx.txid = some tx)
    (hchange : Change tidy log tx phase tx') (hinfo : KeepsInfo ctx tx tx')
    (hspeedup : tx'.speedup?.isSome) :
    ctx.settings.fee.maxFeerateSatVb ≤ tx'.feeInfo.packageFeeRate := by
  rw [hchange.speedup_isSome_eq] at hspeedup
  rcases hinfo with hsame | hmax
  · rw [hsame]
    exact h tx hget hspeedup
  · exact hmax.ge

/-- A record written back from a copy keeps the maximum rate, since the copy has the rate of the record it
is written over. -/
theorem AtCap.rewrote {copy updated : CoordinatedTx} (h : AtCap cfg copy.txid w)
    (hrewrite : Rewrite copy updated) (hdrift : StillStored copy w)
    (hspeedup : updated.speedup?.isSome) :
    cfg.fee.maxFeerateSatVb ≤ updated.feeInfo.packageFeeRate := by
  obtain ⟨record, hget, hdrifted⟩ := hdrift
  obtain ⟨hinfo, hkind⟩ := hdrifted.feeInfo_eq
  have hcopy : copy.speedup?.isSome := by
    cases hrewrite <;> exact hspeedup
  have hrate := h record hget (hkind.trans hcopy)
  rw [hinfo] at hrate
  cases hrewrite with
  | reorg height hstate => exact hrate
  | accepted height feeInfo hstate hfee =>
    rw [← hfee hcopy] at hrate
    exact hrate
  | confirmed height hstate => exact hrate

/-- A move keeps the maximum rate, unless it stores a speedup with the identifier. -/
theorem AtCap.move (h : AtCap ctx.settings txid w) (hmove : Move ctx True phase w w') :
    AtCap ctx.settings txid w' ∨ ∃ tx, tx.txid = txid ∧ insertions w'.log =
      (tx, w.store, .wrote w.store (w.store.setTx tx) :: w.log) :: insertions w.log := by
  have hsame : w'.store.txs = w.store.txs → AtCap ctx.settings txid w' := by
    intro htxs tx hget
    rw [htxs] at hget
    exact h tx hget
  have hput : ∀ tx, w'.store = w.store.setTx tx → (tx.txid = txid → tx.speedup?.isSome →
      ctx.settings.fee.maxFeerateSatVb ≤ tx.feeInfo.packageFeeRate) →
      AtCap ctx.settings txid w' := by
    intro tx hstore hrate tx' hget hspeedup
    rw [hstore, Store.get_setTx] at hget
    split at hget
    · next hid =>
      cases hget
      exact hrate hid.symm hspeedup
    · exact h tx' hget hspeedup
  have hdrop : ∀ id, w'.store = w.store.eraseTx id → AtCap ctx.settings txid w' := by
    intro id hstore tx hget
    rw [hstore, Store.get_eraseTx] at hget
    split at hget
    · cases hget
    · exact h tx hget
  rcases hmove with hplain | hpart
  · left
    cases hplain with
    | quiet hquiet => exact hsame hquiet.txs_eq
    | changed tx tx' hget hchange hinfo =>
      apply hput tx' rfl
      rw [hchange.txid_eq]
      rintro rfl
      exact h.changed hget hchange hinfo
    | vanished tx height hget hstep hfrom hnote =>
      apply hput _ rfl
      rintro rfl
      exact h tx hget
    | rewrote copy updated hrewrite hread hdrift hlisted =>
      apply hput updated rfl
      rw [hrewrite.txid_eq]
      rintro rfl
      exact h.rewrote hrewrite (hdrift trivial)
    | _ => exact hsame rfl
  · cases hpart with
    | inserted tx htx =>
      by_cases hid : tx.txid = txid
      · exact Or.inr ⟨tx, hid, rfl⟩
      · left
        apply hput tx rfl
        intro heq
        exact absurd heq hid
    | registered tx hfresh hkind hnew hnote =>
      left
      apply hput tx rfl
      intro _ hspeedup
      rw [hkind] at hspeedup
      cases hspeedup
    | listed id => exact Or.inl (hsame (Store.txs_list _ _))
    | pended id => exact Or.inl (hsame (Store.txs_pend _ _))
    | queue s hphase hwrite => exact Or.inl (hsame hwrite.txs_eq)
    | evicted tx hnote hstale haged => exact Or.inl (hdrop tx.txid rfl)
    | dropped id hcancel hpending => exact Or.inl (hdrop id rfl)
    | unlisted id hphase hterminal => exact Or.inl (hsame rfl)

/-! ### Chains of moves -/

/-- What a part of a run stores: the maximum rate stays recorded where no speedup is stored anew, and
nothing that had it before is boosted. -/
def Keeping (cfg : BitcoinSettings) (w w' : World) : Prop :=
  ∃ new, insertions w'.log = new ++ insertions w.log ∧
    ∀ txid, AtCap cfg txid w →
      ((∀ p ∈ new, p.1.txid ≠ txid) → AtCap cfg txid w') ∧
      ∀ newer q mid, new = newer ++ q :: mid → IsBoostedFrom q txid → ∃ r ∈ mid, r.1.txid = txid

/-- A boost that is stored is priced below the maximum rate. -/
theorem Insertable.not_atCap {tx : CoordinatedTx} {before : Store} {older : List Event}
    (htx : Insertable ctx w tx) (hboost : IsBoostedFrom (tx, before, older) txid) :
    ¬ AtCap ctx.settings txid w := by
  intro hcap
  obtain ⟨pricing, -, -, -, hprev⟩ := htx.signed
  obtain ⟨id, last, hid, hget, hspeedup, -, hrate, -⟩ := hprev hboost.1
  have hsame : id = txid := Option.some.inj (hid.symm.trans hboost.2)
  rw [hsame] at hget
  have hmax := hcap last hget hspeedup
  omega

/-- A chain of moves keeps the maximum rates. -/
theorem keeping_of_moves (h : Relation.ReflTransGen (Move ctx True phase) w w') :
    Keeping ctx.settings w w' := by
  induction h with
  | refl =>
    refine ⟨[], rfl, fun txid hcap => ⟨fun _ => hcap, ?_⟩⟩
    intro newer q mid hsplit
    simp at hsplit
  | @tail w₁ w₂ _ hmove ih =>
    obtain ⟨new, hnew, hkeeps⟩ := ih
    rcases hmove.insertions_cases with hsame | ⟨-, tx, htx, -, hstored⟩
    · refine ⟨new, hsame.trans hnew, fun txid hcap => ⟨fun hout => ?_, (hkeeps txid hcap).2⟩⟩
      rcases ((hkeeps txid hcap).1 hout).move hmove with hkept | ⟨tx, -, hins⟩
      · exact hkept
      · rw [hsame] at hins
        simp at hins
    · refine ⟨_ :: new, by rw [hstored, hnew]; rfl, fun txid hcap => ⟨fun hout => ?_, ?_⟩⟩
      · have hrest := (hkeeps txid hcap).1 fun p hp => hout p (List.mem_cons_of_mem _ hp)
        rcases hrest.move hmove with hkept | ⟨tx', hid, hins⟩
        · exact hkept
        · rw [hstored] at hins
          cases hins
          exact absurd hid (hout _ List.mem_cons_self)
      · intro newer q mid hsplit hboost
        cases newer with
        | nil =>
          cases hsplit
          by_contra hnone
          refine htx.not_atCap hboost ((hkeeps txid hcap).1 ?_)
          intro p hp hid
          exact hnone ⟨p, hp, hid⟩
        | cons first rest =>
          cases hsplit
          exact (hkeeps txid hcap).2 rest q mid rfl hboost

/-- Two ways to take a list apart, one of them at an element: the element is in the first part, or in the
second. -/
theorem append_eq_append_cons {α : Type} {new old newer older : List α} {p : α}
    (h : new ++ old = newer ++ p :: older) :
    (∃ rest, new = newer ++ p :: rest ∧ older = rest ++ old) ∨
      ∃ rest, newer = new ++ rest ∧ old = rest ++ p :: older := by
  rcases List.append_eq_append_iff.mp h with ⟨rest, hnewer, hold⟩ | ⟨rest, hnew, hrest⟩
  · exact Or.inr ⟨rest, hnewer, hold⟩
  · cases rest with
    | nil => exact Or.inr ⟨[], by simpa using hnew.symm, hrest.symm⟩
    | cons first rest =>
      cases hrest
      exact Or.inl ⟨rest, hnew, rfl⟩

/-- What holds of a history about capped RBFs. -/
structure CapsHold (cfg : BitcoinSettings) (w : World) : Prop where
  final : CapsAreFinal cfg w
  marked : CapsAreMarked cfg w

/-- What holds about capped RBFs holds after a part of a run that stores none, or one whose predecessor is
marked at the end. -/
theorem CapsHold.keeping (h : CapsHold cfg w) (hkeeping : Keeping cfg w w')
    (hcapped : ∀ new p txid, insertions w'.log = new ++ insertions w.log → p ∈ new →
      IsCappedRbf cfg p txid → new = [p] ∧ AtCap cfg txid w') : CapsHold cfg w' := by
  obtain ⟨new, hlog, hkeeps⟩ := hkeeping
  constructor
  · intro newer q mid p older txid hsplit hcap hboost
    rw [hlog, ← List.cons_append, ← List.append_assoc] at hsplit
    rcases append_eq_append_cons hsplit with ⟨rest, hnew, -⟩ | ⟨rest, hnewer, hold⟩
    · have hmem : p ∈ new := by simp [hnew]
      have hlength := congrArg List.length hnew
      rw [(hcapped new p txid hlog hmem hcap).1] at hlength
      simp only [List.length_cons, List.length_nil, List.length_append] at hlength
      omega
    · rcases append_eq_append_cons hnewer.symm with ⟨mid', hnew, hmid⟩ | ⟨rest', hnewer', hrest⟩
      · by_contra hnone
        have hout : ∀ r ∈ mid, r.1.txid ≠ txid := fun r hr hid => hnone ⟨r, hr, hid⟩
        have hmarked : AtCap cfg txid w := by
          apply h.marked rest p older txid hold hcap
          intro r hr
          exact hout r (by simp [hmid, hr])
        obtain ⟨r, hr, hid⟩ := (hkeeps txid hmarked).2 newer q mid' hnew hboost
        exact hout r (by simp [hmid, hr]) hid
      · rw [hrest, List.append_assoc] at hold
        exact h.final rest' q mid p older txid hold hcap hboost
  · intro newer p older txid hsplit hcap hout
    rw [hlog] at hsplit
    rcases append_eq_append_cons hsplit with ⟨rest, hnew, -⟩ | ⟨rest, hnewer, hold⟩
    · exact (hcapped new p txid hlog (by simp [hnew]) hcap).2
    · have hmarked : AtCap cfg txid w := by
        apply h.marked rest p older txid hold hcap
        intro r hr
        exact hout r (by simp [hnewer, hr])
      apply (hkeeps txid hmarked).1
      intro r hr
      exact hout r (by simp [hnewer, hr])

/-! ### Calls -/

/-- The moves of a computation that takes steps. -/
theorem Stepwise.keeping {α : Type} {m : Coord α} {r : Except Stop α}
    (h : Stepwise True phase m ctx w) (hrun : m ctx w = (r, w')) : Keeping ctx.settings w w' := by
  have hmoves := h.traced
  unfold Traced Prog.Reaches at hmoves
  rw [hrun] at hmoves
  exact keeping_of_moves hmoves

/-- Outside of the two build steps no speedup is stored. -/
theorem Stepwise.insertions_eq {α : Type} {m : Coord α} {r : Except Stop α}
    (h : Stepwise tidy phase m ctx w) (hphase : phase ≠ .build) (hrun : m ctx w = (r, w')) :
    insertions w'.log = insertions w.log := by
  have hmove : ∀ w₁ w₂, insertions w₁.log = insertions w.log → Move ctx tidy phase w₁ w₂ →
      insertions w₂.log = insertions w.log := by
    intro w₁ w₂ hsame hmove
    rcases hmove.insertions_cases with hkept | ⟨hbuild, -⟩
    · exact hkept.trans hsame
    · exact absurd hbuild hphase
  exact Stepwise.keeps h hmove rfl hrun

/-- What holds about capped RBFs holds after a part of a run that does not build. -/
theorem CapsHold.stepwise {α : Type} {m : Coord α} {r : Except Stop α}
    (h : CapsHold ctx.settings w) (hsteps : Stepwise True phase m ctx w) (hphase : phase ≠ .build)
    (hrun : m ctx w = (r, w')) : CapsHold ctx.settings w' := by
  apply h.keeping (hsteps.keeping hrun)
  intro new p txid hlog hmem
  rw [hsteps.insertions_eq hphase hrun, List.self_eq_append_left] at hlog
  rw [hlog] at hmem
  cases hmem

/-- The boost step keeps what holds about capped RBFs when it completes. -/
theorem CapsHold.boostIfStale (h : CapsHold ctx.settings w) {skip : Bool}
    (hrun : boostIfStale skip ctx w = (.ok (), w')) : CapsHold ctx.settings w' := by
  apply h.keeping ((boostIfStale_stepwise skip).keeping hrun)
  intro new p txid hlog hmem hcap
  rcases (boostIfStale_boosted skip).run hrun with
    hsame | ⟨plan, height, tx, before, older, hplan, hstored, hyields, hmarked⟩
  · rw [hsame, List.self_eq_append_left] at hlog
    rw [hlog] at hmem
    cases hmem
  · have hone : [(tx, before, older)] ++ insertions w.log = new ++ insertions w.log :=
      hstored.symm.trans hlog
    obtain rfl := List.append_cancel_right hone
    obtain rfl := List.mem_singleton.mp hmem
    obtain ⟨hreplaces, pricing, vsize, hsigned, hprice⟩ := hcap
    obtain ⟨inputs, context, hkind⟩ := hyields.kind
    obtain ⟨hrbf, hid⟩ := BoostPlan.useRbf_of_replaces? hkind hreplaces
    refine ⟨rfl, fun record hget _ => ?_⟩
    rw [← hid] at hget
    exact (hmarked pricing vsize hsigned hprice hrbf rfl record hget).ge

/-- The CPFP step keeps what holds about capped RBFs. -/
theorem CapsHold.createCpfpBatch (h : CapsHold ctx.settings w) {r : Except Stop Unit}
    (hrun : createCpfpBatch ctx w = (r, w')) : CapsHold ctx.settings w' := by
  apply h.keeping (createCpfpBatch_stepwise.keeping hrun)
  intro new p txid hlog hmem hcap
  rcases createCpfpBatch_storesCpfp.run hrun with hsame | ⟨q, hnone, hstored⟩
  · rw [hsame, List.self_eq_append_left] at hlog
    rw [hlog] at hmem
    cases hmem
  · have hone : [q] ++ insertions w.log = new ++ insertions w.log := hstored.symm.trans hlog
    obtain rfl := List.append_cancel_right hone
    obtain rfl := List.mem_singleton.mp hmem
    rw [hcap.1] at hnone
    cases hnone

/-- The six steps keep what holds about capped RBFs when they complete. -/
theorem CapsHold.pipeline (h : CapsHold ctx.settings w) (htidy : IsTidy w)
    (hrun : pipeline ctx w = (.ok (), w')) : CapsHold ctx.settings w' := by
  obtain ⟨_, w₁, hreview, hrun⟩ := Prog.bind_ok.mp hrun
  obtain ⟨_, w₂, hspeedups, hrun⟩ := Prog.bind_ok.mp hrun
  obtain ⟨_, w₃, hdispatch, hrun⟩ := Prog.bind_ok.mp hrun
  obtain ⟨failed, w₄, hdispatched, hrun⟩ := Prog.bind_ok.mp hrun
  obtain ⟨_, w₅, hboost, hcpfp⟩ := Prog.bind_ok.mp hrun
  have hsettle : Phase.settle ≠ .build := by simp
  have hkept : ∀ {α : Type} {m : Coord α} {a : Except Stop α} {w w' : World},
      Stepwise True .settle m ctx w → IsTidy w → m ctx w = (a, w') → IsTidy w' :=
    fun hsteps htidy hrun => Stepwise.keeps_tidy hsteps (fun _ => htidy) hrun trivial
  have htidy₁ := hkept reviewActive_stepwise htidy hreview
  have htidy₂ := hkept (reviewSpeedups_stepwise fun _ => htidy₁) htidy₁ hspeedups
  have htidy₃ := hkept (stepwise_of_plainly dispatchPending_plainly) htidy₂ hdispatch
  have h₁ := h.stepwise reviewActive_stepwise hsettle hreview
  have h₂ := h₁.stepwise (reviewSpeedups_stepwise fun _ => htidy₁) hsettle hspeedups
  have h₃ := h₂.stepwise (stepwise_of_plainly dispatchPending_plainly) hsettle hdispatch
  have h₄ := h₃.stepwise (stepwise_of_plainly (dispatchPendingSpeedups_plainly fun _ => htidy₃))
    hsettle hdispatched
  exact (h₄.boostIfStale hboost).createCpfpBatch hcpfp

/-- A tick keeps what holds about capped RBFs when it completes. -/
theorem CapsHold.tick (h : CapsHold ctx.settings w) (htidy : IsTidy w)
    (hrun : tick ctx w = (.ok (), w')) : CapsHold ctx.settings w' := by
  have hserve : Phase.serve ≠ .build := by simp
  have hcalm : ∀ {α : Type} {m : Coord α} {a : Except Stop α} {w w' : World},
      Calm m ctx w → CapsHold ctx.settings w ∧ IsTidy w → m ctx w = (a, w') →
        CapsHold ctx.settings w' ∧ IsTidy w' := by
    rintro α m a w w' hquiet ⟨h, htidy⟩ hrun
    have hsteps : Stepwise True .serve m ctx w := stepwise_of_calm hquiet
    exact ⟨h.stepwise hsteps hserve hrun, tidy_of_calm hquiet (fun _ => htidy) hrun trivial⟩
  obtain ⟨_, w₁, htick, hrun⟩ := Prog.bind_ok.mp hrun
  obtain ⟨ready, w₂, hready, hrun⟩ := Prog.bind_ok.mp hrun
  have h₂ := hcalm query_calm (hcalm query_calm ⟨h, htidy⟩ htick) hready
  rcases Prog.ite_ok.mp hrun with ⟨-, hrun⟩ | ⟨-, hrun⟩
  · obtain ⟨height, w₃, hheight, hrun⟩ := Prog.bind_ok.mp hrun
    obtain ⟨_, w₄, hcleanup, hpipeline⟩ := Prog.bind_ok.mp hrun
    obtain ⟨h₄, htidy₄⟩ := hcalm (cleanupNews_calm height) (hcalm query_calm h₂ hheight) hcleanup
    exact h₄.pipeline htidy₄ hpipeline
  · obtain ⟨-, rfl⟩ := Prog.pure_ok.mp hrun
    exact h₂.1

/-- A call keeps what holds about capped RBFs when it completes. -/
theorem CapsHold.exec (h : CapsHold ctx.settings w) (htidy : IsTidy w) {request : Request}
    (hrun : exec request ctx w = (.ok (), w')) : CapsHold ctx.settings w' := by
  by_cases hrequest : request = .tick
  · rw [hrequest] at hrun
    exact h.tick htidy hrun
  · exact h.stepwise (exec_stepwise hrequest) (by simp) hrun

/-- In every run whose calls all return `Ok`, a transaction whose RBF was capped is not boosted again,
unless a speedup with its identifier is built and stored anew in between. -/
theorem capsAreFinal_of_okRun (cfg : BitcoinSettings) (calls : List Call) (w : World)
    (hrun : OkRun cfg calls World.init w) : CapsAreFinal cfg w := by
  have hinduction : ∀ {calls : List Call} {w w' : World}, OkRun cfg calls w w' → CapsHold cfg w →
      IsTidy w → CapsHold cfg w' := by
    intro calls w w' hrun
    induction hrun with
    | nil w => exact fun h _ => h
    | @cons call rest w w₁ w₂ hcall hrest ih =>
      intro h htidy
      have htidy₁ : IsTidy (exec call.request ⟨cfg, call.answers⟩ w).2 := exec_tidy htidy
      rw [hcall] at htidy₁
      exact ih (CapsHold.exec h htidy hcall) htidy₁
  refine (hinduction hrun ⟨?_, ?_⟩ List.nodup_nil).final
  · intro newer q mid p older txid hsplit
    simp [World.init, World.start, insertions] at hsplit
  · intro newer p older txid hsplit
    simp [World.init, World.start, insertions] at hsplit

/-- Settings under which the second speedup is an RBF that reaches the maximum rate. -/
def lowCapSettings : BitcoinSettings :=
  { speedup := { maxUnconfirmedSpeedups := 1 }, fee := { maxFeerateSatVb := 12 }, monitor := ⟨6⟩ }

/-- A transaction of someone else that spends the funding UTXO. -/
def conflictingSpend : Transaction := ⟨77, [⟨⟨9, 0⟩⟩], [⟨1000⟩], 100, 400⟩

/-- A CPFP is accepted and a capped RBF of it is built and rejected. The CPFP then drops out of the
mempool and fails when its guard ends, since its funding is spent, and is built anew from the same
inputs. The funding comes back, the CPFP is accepted, and a block later it is boosted. -/
def rebuiltTipCalls : List Call :=
  let first := sampleView 100 [] [sampleParent]
  [first.call fixedBuilder 10 0 (.addFunding sampleFunding),
    first.call fixedBuilder 10 0 (.dispatchWithSpeedup sampleParent sampleAnchor "parent" none none),
    first.call fixedBuilder 10 0 .tick,
    (sampleView 100 [sampleParent] [firstOfChain]).call fixedBuilder 10 0 .tick,
    (sampleView 101 [sampleParent, firstOfChain] []).call fixedBuilder 10 0 .tick,
    (sampleView 101 [sampleParent, firstOfChain] []).call fixedBuilder 10 10 .tick,
    (sampleView 102 [sampleParent, conflictingSpend] []).call fixedBuilder 10 20 .tick,
    (sampleView 108 [sampleParent, conflictingSpend] []).call fixedBuilder 10 30 .tick,
    (sampleView 108 [sampleParent] [firstOfChain]).call fixedBuilder 10 40 .tick,
    (sampleView 109 [sampleParent, firstOfChain] []).call fixedBuilder 10 50 .tick]

/-- The boosts of the example run. -/
theorem capsAreFinal_rebuiltTipCalls :
    CapsAreFinal lowCapSettings (runCalls lowCapSettings rebuiltTipCalls World.init) :=
  capsAreFinal_of_okRun lowCapSettings rebuiltTipCalls _ (okRun_runCalls (by decide +kernel))

/-- A transaction whose RBF was capped is boosted again after it was built anew. -/
theorem exists_boost_after_cap :
    ∃ (cfg : BitcoinSettings) (calls : List Call), cfg.validate = .ok () ∧
      (∀ call ∈ calls, call.SeesOneView ∧ call.answers.SpendsRequested) ∧
      OkRun cfg calls World.init (runCalls cfg calls World.init) ∧
      ∃ newer q mid p older txid,
        insertions (runCalls cfg calls World.init).log = newer ++ q :: (mid ++ p :: older) ∧
        IsCappedRbf cfg p txid ∧ IsBoostedFrom q txid := by
  refine ⟨lowCapSettings, rebuiltTipCalls, by decide +kernel, ?_, okRun_runCalls (by decide +kernel), ?_⟩
  · intro call hcall
    simp only [rebuiltTipCalls, List.mem_cons, List.not_mem_nil, or_false] at hcall
    rcases hcall with rfl | rfl | rfl | rfl | rfl | rfl | rfl | rfl | rfl | rfl <;>
      exact ⟨NodeView.call_seesOneView (by decide +kernel) _ _ _ _,
        plainBuilder_spendsRequested _ _ _ _⟩
  · generalize hstored : insertions (runCalls lowCapSettings rebuiltTipCalls World.init).log = stored
    obtain ⟨q, hq, hboost⟩ : ∃ q ∈ stored.head?, q.1.isBoost = true ∧
        q.1.predecessor? = some firstOfChain.computeTxid := by
      rw [← hstored]
      decide +kernel
    obtain ⟨p, hp, hreplaces, ⟨pricing, vsize⟩, hsigned, hcapped⟩ : ∃ p ∈ stored.tail,
        p.1.replaces? = some firstOfChain.computeTxid ∧
        ∃ signed ∈ lastSigned p.2.2, (lowCapSettings.fee.price signed.1).2 = true := by
      rw [← hstored]
      decide +kernel
    obtain ⟨rest, rfl⟩ := List.head?_eq_some_iff.mp hq
    obtain ⟨mid, older, hrest⟩ := List.append_of_mem hp
    refine ⟨[], q, mid, p, older, firstOfChain.computeTxid, ?_, ?_, hboost⟩
    · rw [← hrest]
      rfl
    · exact ⟨hreplaces, pricing, vsize, hsigned, hcapped⟩

end BitcoinCoordinator
