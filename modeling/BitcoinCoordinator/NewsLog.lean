import BitcoinCoordinator.NodeView
import BitcoinCoordinator.Foundation.Acknowledgements

/-!
# The news log

A news item is stored once, hidden when it is acknowledged, and dropped by the first cleanup at a later
block. Which items a client sees and which additions are refused are read off the history of the calls alone.
Only a call that finds an item unacknowledged acknowledges it: repeating it leaves the first height.
-/

namespace BitcoinCoordinator

open Foundation

variable {ctx : Ctx} {w w' : World} {news other : CoordinatorNews} {height : BlockHeight}
  {log : List StoredNewsItem} {history : List (LogEvent CoordinatorNews)}

/-- The calls that change the news log. -/
inductive NewsCall where
  | add (news : CoordinatorNews)
  | ack (news : CoordinatorNews) (height : BlockHeight)
  | cleanup (height : BlockHeight)

/-- Carry out a call and return what happened. -/
def NewsCall.exec : NewsCall → Coord (LogEvent CoordinatorNews)
  | .add news => do
    let inserted ← addNews news
    pure (.added news inserted)
  | .ack news height => do
    ackNews news height
    pure (.acked news height)
  | .cleanup height => do
    cleanupNews height
    pure (.cleaned height)

/-- A run of the log from the empty one, with the calls that returned, oldest first. A call may also be
stopped by the backend, and anything that leaves the log alone may happen in between. -/
inductive NewsRun : List (LogEvent CoordinatorNews) → World → Prop where
  | start {w : World} (hempty : w.news = []) : NewsRun [] w
  | returned {history : List (LogEvent CoordinatorNews)} {w w' : World} {call : NewsCall} {ctx : Ctx}
      {event : LogEvent CoordinatorNews} (hrun : NewsRun history w)
      (hcall : call.exec ctx w = (.ok event, w')) : NewsRun (history ++ [event]) w'
  | stopped {history : List (LogEvent CoordinatorNews)} {w w' : World} {call : NewsCall} {ctx : Ctx}
      {stop : Stop} (hrun : NewsRun history w) (hcall : call.exec ctx w = (.error stop, w')) :
      NewsRun history w'
  | aside {history : List (LogEvent CoordinatorNews)} {w w' : World} (hrun : NewsRun history w)
      (hsame : w'.news = w.news) : NewsRun history w'

/-- The values of a log that are not acknowledged. -/
def unacknowledged (log : List StoredNewsItem) : List CoordinatorNews :=
  (log.filter fun item => item.ackedAtBlock.isNone).map StoredNewsItem.news

/-- The items that a cleanup keeps. -/
def keptByCleanup (height : BlockHeight) (log : List StoredNewsItem) : List StoredNewsItem :=
  log.filter fun item => item.ackedAtBlock.all fun acked => decide (height ≤ acked)

/-- A log agrees with a history: no value is stored twice, the unacknowledged values are those that stand,
and a value is stored as acknowledged at the height it is held at. -/
structure Reflects (history : List (LogEvent CoordinatorNews)) (log : List StoredNewsItem) : Prop where
  distinct : (log.map StoredNewsItem.news).Nodup
  visible : unacknowledged log = standing history
  held : ∀ news height, ⟨news, some height⟩ ∈ log ↔ HeldAt history news height

/-! ### The calls -/

/-- A write that the backend refuses leaves the log. -/
theorem writeNews_stopped {f : List StoredNewsItem → List StoredNewsItem} {stop : Stop}
    (h : writeNews f ctx w = (.error stop, w')) : w'.news = w.news := by
  unfold writeNews at h
  split at h
  · cases h
  · cases h
    rfl

/-- A call that is stopped leaves the log. -/
theorem NewsCall.exec_stopped {call : NewsCall} {stop : Stop}
    (h : call.exec ctx w = (.error stop, w')) : w'.news = w.news := by
  cases call with
  | add news =>
    rcases Prog.bind_error.mp h with hadd | ⟨inserted, w₁, hadd, hpure⟩
    · rcases Prog.bind_error.mp hadd with hread | ⟨all, w₁, hread, hbody⟩
      · cases hread
      · obtain ⟨rfl, rfl⟩ := Prog.read_ok.mp hread
        split at hbody
        · cases hbody
        · rcases Prog.bind_error.mp hbody with hwrite | ⟨u, w₂, -, hpure⟩
          · exact writeNews_stopped hwrite
          · cases hpure
    · cases hpure
  | ack news height =>
    rcases Prog.bind_error.mp h with hwrite | ⟨u, w₁, -, hpure⟩
    · exact writeNews_stopped hwrite
    · cases hpure
  | cleanup height =>
    rcases Prog.bind_error.mp h with hwrite | ⟨u, w₁, -, hpure⟩
    · exact writeNews_stopped hwrite
    · cases hpure

/-- A completed cleanup leaves what it keeps. -/
theorem cleanupNews_ok {u : Unit} (h : cleanupNews height ctx w = (.ok u, w')) :
    w'.news = keptByCleanup height w.news := by
  obtain ⟨-, rfl⟩ := writeNews_ok.mp h
  apply List.filter_congr
  rintro ⟨value, acked⟩ -
  cases acked <;> rfl

/-! ### What an acknowledgement does to the log -/

/-- An acknowledgement keeps the values. -/
theorem ackFirst_values : (ackFirst news height log).map StoredNewsItem.news =
    log.map StoredNewsItem.news := by
  induction log with
  | nil => rfl
  | cons item rest ih =>
    unfold ackFirst
    split
    · rfl
    · simp [ih]

/-- An acknowledgement hides its value, once. -/
theorem ackFirst_unacknowledged : unacknowledged (ackFirst news height log) =
    (unacknowledged log).erase news := by
  induction log with
  | nil => rfl
  | cons item rest ih =>
    unfold unacknowledged at ih ⊢
    unfold ackFirst
    split
    · next hfirst => simp [hfirst.1, hfirst.2]
    · next hother =>
      by_cases hopen : item.ackedAtBlock.isNone
      · have hne : item.news ≠ news := fun heq => hother ⟨hopen, heq⟩
        simp [hopen, ih, List.erase_cons_tail, hne]
      · simp [hopen, ih]

/-- An acknowledged item of the log after an acknowledgement was one before, or it is the value that has
just been acknowledged. -/
theorem mem_ackFirst {blockHeight : BlockHeight} :
    ⟨other, some blockHeight⟩ ∈ ackFirst news height log ↔
      ⟨other, some blockHeight⟩ ∈ log ∨
        (other = news ∧ blockHeight = height ∧ news ∈ unacknowledged log) := by
  induction log with
  | nil => simp [ackFirst, unacknowledged]
  | cons item rest ih =>
    unfold unacknowledged at ih ⊢
    obtain ⟨value, acked⟩ := item
    cases acked with
    | none =>
      by_cases hsame : value = news
      · simp [ackFirst, hsame, or_comm]
      · simp [ackFirst, hsame, ih, Ne.symm hsame]
    | some a => simp [ackFirst, ih, or_assoc]

/-- An acknowledgement keeps an unacknowledged item, or acknowledges it. -/
theorem ackFirst_keeps {item : StoredNewsItem} (hmem : item ∈ log) :
    item ∈ ackFirst news height log ∨
      (item.news = news ∧ ⟨news, some height⟩ ∈ ackFirst news height log) := by
  induction log with
  | nil => cases hmem
  | cons first rest ih =>
    unfold ackFirst
    rcases List.mem_cons.mp hmem with rfl | hrest
    · split
      · next hfirst =>
        right
        simp [hfirst.2]
      · exact Or.inl List.mem_cons_self
    · split
      · exact Or.inl (List.mem_cons_of_mem _ hrest)
      · rcases ih hrest with hkept | ⟨hvalue, hacked⟩
        · exact Or.inl (List.mem_cons_of_mem _ hkept)
        · exact Or.inr ⟨hvalue, List.mem_cons_of_mem _ hacked⟩

/-! ### The log along a run -/

/-- A value is stored exactly when it stands or is held back. -/
theorem Reflects.mem_values_iff (h : Reflects history log) :
    news ∈ log.map StoredNewsItem.news ↔ news ∈ standing history ∨ HeldBack history news := by
  rw [← h.visible]
  constructor
  · intro hmem
    obtain ⟨⟨value, acked⟩, hitem, rfl⟩ := List.mem_map.mp hmem
    cases acked with
    | none => exact Or.inl (List.mem_map.mpr ⟨_, List.mem_filter.mpr ⟨hitem, rfl⟩, rfl⟩)
    | some a => exact Or.inr ⟨a, (h.held _ _).mp hitem⟩
  · rintro (hstands | ⟨a, hheld⟩)
    · obtain ⟨item, hitem, rfl⟩ := List.mem_map.mp hstands
      exact List.mem_map.mpr ⟨item, (List.mem_filter.mp hitem).1, rfl⟩
    · exact List.mem_map.mpr ⟨_, (h.held _ _).mpr hheld, rfl⟩

/-- The empty log agrees with no calls. -/
theorem reflects_nil : Reflects [] [] where
  distinct := List.nodup_nil
  visible := rfl
  held := by simp [HeldAt]

/-- A refused addition leaves the log. -/
theorem Reflects.refused (h : Reflects history log) :
    Reflects (history ++ [.added news false]) log where
  distinct := h.distinct
  visible := by rw [standing_notInserted, h.visible]
  held := by
    intro value a
    rw [h.held, heldAt_append]
    simp

/-- A value that is not stored is put in behind the others. -/
theorem Reflects.inserted (h : Reflects history log) (hnew : news ∉ log.map StoredNewsItem.news) :
    Reflects (history ++ [.added news true]) (log ++ [⟨news, none⟩]) where
  distinct := by
    rw [List.map_append]
    refine List.nodup_append.mpr ⟨h.distinct, List.pairwise_singleton _ _, ?_⟩
    rintro value hold _ hmem rfl
    rw [List.mem_singleton.mp hmem] at hold
    exact hnew hold
  visible := by
    rw [standing_inserted, ← h.visible]
    simp [unacknowledged]
  held := by
    intro value a
    rw [heldAt_append, ← h.held]
    have hfresh : ⟨value, some a⟩ ∈ log → news ≠ value := by
      rintro hmem rfl
      exact hnew (List.mem_map.mpr ⟨_, hmem, rfl⟩)
    simpa using hfresh

/-- An acknowledgement of a value that stands hides it and holds it at the height. -/
theorem Reflects.acked (h : Reflects history log) :
    Reflects (history ++ [.acked news height]) (ackFirst news height log) where
  distinct := by
    rw [ackFirst_values]
    exact h.distinct
  visible := by
    have hnodup : (unacknowledged log).Nodup := h.distinct.sublist (List.filter_sublist.map _)
    rw [standing_acked, ackFirst_unacknowledged, hnodup.erase_eq_filter, h.visible]
    apply List.filter_congr
    intro value _
    by_cases hsame : value = news <;> simp [hsame]
  held := by
    intro value a
    rw [mem_ackFirst, heldAt_append, h.held, h.visible]
    simp only [LogEvent.acked.injEq]
    constructor
    · rintro (hheld | ⟨rfl, rfl, hstands⟩)
      · exact Or.inr ⟨hheld, by simp, by simp⟩
      · exact Or.inl ⟨⟨rfl, rfl⟩, hstands⟩
    · rintro (⟨⟨rfl, rfl⟩, hstands⟩ | ⟨hheld, -, -⟩)
      · exact Or.inr ⟨rfl, rfl, hstands⟩
      · exact Or.inl hheld

/-- A cleanup drops what is held at an earlier block. -/
theorem Reflects.cleaned (h : Reflects history log) :
    Reflects (history ++ [.cleaned height]) (keptByCleanup height log) where
  distinct := h.distinct.sublist (List.filter_sublist.map _)
  visible := by
    rw [standing_cleaned, ← h.visible]
    unfold unacknowledged keptByCleanup
    rw [List.filter_filter]
    congr 1
    apply List.filter_congr
    intro item _
    cases item.ackedAtBlock <;> rfl
  held := by
    intro value a
    rw [heldAt_append, ← h.held]
    simp [keptByCleanup]

/-- One call that returns keeps the log and the history in agreement. -/
theorem Reflects.exec {call : NewsCall} {event : LogEvent CoordinatorNews}
    (h : Reflects history w.news) (hcall : call.exec ctx w = (.ok event, w')) :
    Reflects (history ++ [event]) w'.news := by
  cases call with
  | add news =>
    obtain ⟨inserted, w₁, hadd, hpure⟩ := Prog.bind_ok.mp hcall
    obtain ⟨rfl, rfl⟩ := Prog.pure_ok.mp hpure
    rcases (addNews_cases hadd).2 with ⟨rfl, -, hlog⟩ | ⟨rfl, hnew, hlog⟩
    · rw [hlog]
      exact h.refused
    · rw [hlog]
      exact h.inserted hnew
  | ack news height =>
    obtain ⟨u, w₁, hack, hpure⟩ := Prog.bind_ok.mp hcall
    obtain ⟨rfl, rfl⟩ := Prog.pure_ok.mp hpure
    obtain ⟨-, rfl⟩ := writeNews_ok.mp hack
    exact h.acked
  | cleanup height =>
    obtain ⟨u, w₁, hclean, hpure⟩ := Prog.bind_ok.mp hcall
    obtain ⟨rfl, rfl⟩ := Prog.pure_ok.mp hpure
    rw [cleanupNews_ok hclean]
    exact h.cleaned

/-- The log agrees with the history of every run. -/
theorem NewsRun.reflects (hrun : NewsRun history w) : Reflects history w.news := by
  induction hrun with
  | start hempty =>
    rw [hempty]
    exact reflects_nil
  | returned hrun hcall ih => exact ih.exec hcall
  | stopped hrun hcall ih =>
    rw [NewsCall.exec_stopped hcall]
    exact ih
  | aside hrun hsame ih =>
    rw [hsame]
    exact ih

/-- No call removes an unacknowledged item: it stays as it is, or the call acknowledges it. -/
theorem NewsCall.exec_keeps {call : NewsCall} {result : Except Stop (LogEvent CoordinatorNews)}
    (hcall : call.exec ctx w = (result, w')) {item : StoredNewsItem} (hmem : item ∈ w.news)
    (hopen : item.ackedAtBlock = none) :
    item ∈ w'.news ∨
      ∃ height, call = .ack item.news height ∧ ⟨item.news, some height⟩ ∈ w'.news := by
  cases result with
  | error stop =>
    rw [NewsCall.exec_stopped hcall]
    exact Or.inl hmem
  | ok event =>
    cases call with
    | add news =>
      obtain ⟨inserted, w₁, hadd, hpure⟩ := Prog.bind_ok.mp hcall
      obtain ⟨-, rfl⟩ := Prog.pure_ok.mp hpure
      left
      rcases (addNews_cases hadd).2 with ⟨-, -, hlog⟩ | ⟨-, -, hlog⟩
      · rwa [hlog]
      · rw [hlog]
        exact List.mem_append_left _ hmem
    | ack news height =>
      obtain ⟨u, w₁, hack, hpure⟩ := Prog.bind_ok.mp hcall
      obtain ⟨-, rfl⟩ := Prog.pure_ok.mp hpure
      obtain ⟨-, rfl⟩ := writeNews_ok.mp hack
      have hcases : item ∈ ackFirst news height w.news ∨
          (item.news = news ∧ ⟨news, some height⟩ ∈ ackFirst news height w.news) :=
        ackFirst_keeps hmem
      rcases hcases with hkept | ⟨rfl, hacked⟩
      · exact Or.inl hkept
      · exact Or.inr ⟨height, rfl, hacked⟩
    | cleanup height =>
      obtain ⟨u, w₁, hclean, hpure⟩ := Prog.bind_ok.mp hcall
      obtain ⟨-, rfl⟩ := Prog.pure_ok.mp hpure
      left
      rw [cleanupNews_ok hclean]
      exact List.mem_filter.mpr ⟨hmem, by simp [hopen]⟩

/-- Acknowledging a value that does not stand changes nothing. -/
theorem ackFirst_eq_self (h : news ∉ unacknowledged log) : ackFirst news height log = log := by
  induction log with
  | nil => rfl
  | cons item rest ih =>
    unfold unacknowledged at ih h
    unfold ackFirst
    by_cases hopen : item.ackedAtBlock.isNone
    · simp only [hopen, List.filter_cons_of_pos, List.map_cons, List.mem_cons, not_or] at h
      simp [Ne.symm h.1, ih h.2]
    · simp only [hopen, Bool.false_eq_true, not_false_eq_true, List.filter_cons_of_neg] at h
      simp [hopen, ih h]

/-- The log of a run holds no value twice, and a client sees the values that were put in and not
acknowledged since, in that order. No call removes an unacknowledged item, and an acknowledgement of a value
that does not stand changes nothing. An addition is refused exactly when its value stands or is held back. -/
theorem newsLog_law (hrun : NewsRun history w) :
    (w.news.map StoredNewsItem.news).Nodup ∧
    (∀ ctx : Ctx, getNews ctx w = (.ok (standing history), w)) ∧
    (∀ (call : NewsCall) (ctx : Ctx) (result : Except Stop (LogEvent CoordinatorNews)) (w' : World),
      call.exec ctx w = (result, w') → ∀ item ∈ w.news, item.ackedAtBlock = none →
        item ∈ w'.news ∨
          ∃ height, call = .ack item.news height ∧ ⟨item.news, some height⟩ ∈ w'.news) ∧
    (∀ (ctx : Ctx) (news : CoordinatorNews) (height : BlockHeight) (w' : World),
      news ∉ standing history → ackNews news height ctx w = (.ok (), w') → w'.news = w.news) ∧
    ∀ (ctx : Ctx) (news : CoordinatorNews) (inserted : Bool) (w' : World),
      addNews news ctx w = (.ok inserted, w') →
        (inserted = false ↔ news ∈ standing history ∨ HeldBack history news) := by
  have hlog := hrun.reflects
  refine ⟨hlog.distinct, fun ctx => ?_, ?_, ?_, ?_⟩
  · rw [← hlog.visible]
    rfl
  · intro call ctx result w' hcall item hmem hopen
    exact NewsCall.exec_keeps hcall hmem hopen
  · intro ctx news height w' hgone hack
    obtain ⟨-, rfl⟩ := writeNews_ok.mp hack
    rw [← hlog.visible] at hgone
    exact ackFirst_eq_self hgone
  · intro ctx news inserted w' hadd
    rw [← hlog.mem_values_iff]
    rcases (addNews_cases hadd).2 with ⟨rfl, hmem, -⟩ | ⟨rfl, hnew, -⟩
    · simpa using hmem
    · simpa using hnew

/-- A context whose backend takes every write. -/
def newsCtx : Ctx := ⟨defaultSettings, (sampleView 100 [] []).answers (plainBuilder fun _ => 200) 5 0⟩

/-- The world after a call. -/
def NewsCall.after (call : NewsCall) (w : World) : World := (call.exec newsCtx w).2

/-- An item is published. -/
def publishedNews : World := (NewsCall.add .fundingNotAvailable).after World.init

/-- The item is acknowledged at block 101. -/
def acknowledgedNews : World := (NewsCall.ack .fundingNotAvailable 101).after publishedNews

/-- After a reorg, the tick at block 100 cleans up. -/
def reorgedNews : World := (NewsCall.cleanup 100).after acknowledgedNews

/-- The three calls are a run. -/
theorem newsRun_reorgedNews :
    NewsRun ([.added .fundingNotAvailable true] ++ [.acked .fundingNotAvailable 101] ++ [.cleaned 100])
      reorgedNews := by
  have hadd : (NewsCall.add .fundingNotAvailable).exec newsCtx World.init =
    (.ok (.added .fundingNotAvailable true), publishedNews) := rfl
  have hack : (NewsCall.ack .fundingNotAvailable 101).exec newsCtx publishedNews =
    (.ok (.acked .fundingNotAvailable 101), acknowledgedNews) := rfl
  have hclean : (NewsCall.cleanup 100).exec newsCtx acknowledgedNews =
    (.ok (.cleaned 100), reorgedNews) := rfl
  exact (((NewsRun.start rfl).returned hadd).returned hack).returned hclean

/-- After the reorg the item is hidden, and it is held back: publishing it again is refused. -/
theorem newsLog_law_reorgedNews : getNews newsCtx reorgedNews = (.ok [], reorgedNews) ∧
    HeldBack [.added .fundingNotAvailable true, .acked .fundingNotAvailable 101, .cleaned 100]
      CoordinatorNews.fundingNotAvailable := by
  obtain ⟨-, hseen, -, -, hadd⟩ := newsLog_law newsRun_reorgedNews
  refine ⟨hseen newsCtx, ?_⟩
  rcases (hadd newsCtx .fundingNotAvailable false reorgedNews rfl).mp rfl with hstands | hheld
  · exact absurd hstands (by decide)
  · exact hheld

end BitcoinCoordinator
