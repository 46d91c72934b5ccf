import Mathlib.Data.Set.Card

/-!
# Members that replace each other

A roster holds members that wait, are aloft, have landed or have failed. A member may have been admitted in
the place of another one, which it masks until it fails. Two signals say so: the replacing member itself, and
a mark that is left on the other once the replacing member is aloft. What follows a sound roster is sound
again, and no more members stand in it than before.
-/

namespace Foundation

/-- How far a member has come. -/
inductive Stage where
  | waiting
  | aloft
  | landed
  | failed
  deriving DecidableEq, Repr

/-- A member, the one it replaces, and whether it is marked as replaced. -/
structure Member (κ : Type) where
  stage : Stage
  replaces : Option κ
  marked : Bool

/-- The members by their keys. -/
abbrev Roster (κ : Type) : Type := κ → Option (Member κ)

/-- A set is no larger than another one when each of its elements that is not in the other takes the place of
an element that has left, which gives its place to one element only. -/
theorem encard_le_of_handover {κ : Type} {A B : Set κ} (heir : κ → κ → Prop)
    (hfun : ∀ r k k', heir r k → heir r k' → k = k')
    (h : ∀ k ∈ B, k ∈ A ∨ ∃ r ∈ A, r ∉ B ∧ heir r k) : B.encard ≤ A.encard := by
  classical
  have hplace : ∀ k ∈ B, ∃ r ∈ A, r = k ∨ (k ∉ A ∧ r ∉ B ∧ heir r k) := by
    intro k hk
    by_cases hin : k ∈ A
    · exact ⟨k, hin, Or.inl rfl⟩
    · obtain ⟨r, hr, hout, hheir⟩ := (h k hk).resolve_left hin
      exact ⟨r, hr, Or.inr ⟨hin, hout, hheir⟩⟩
  choose! place hplaceIn hplaceIs using hplace
  apply Set.encard_le_encard_of_injOn hplaceIn
  intro k hk k' hk' heq
  rcases hplaceIs k hk with hsame | ⟨-, hout, hheir⟩
  · rcases hplaceIs k' hk' with hsame' | ⟨-, hout', -⟩
    · rw [← hsame, heq, hsame']
    · rw [← heq, hsame] at hout'
      exact absurd hk hout'
  · rcases hplaceIs k' hk' with hsame' | ⟨-, -, hheir'⟩
    · rw [heq, hsame'] at hout
      exact absurd hk' hout
    · rw [← heq] at hheir'
      exact hfun _ _ _ hheir hheir'

namespace Roster

variable {κ : Type} {m₀ m : Roster κ} {k p r : κ} {a a₀ : Member κ}

/-- The roster with another member under a key. -/
def set [DecidableEq κ] (m : Roster κ) (k : κ) (a : Member κ) : Roster κ :=
  fun j => if j = k then some a else m j

/-- The roster without the member under a key. -/
def erase [DecidableEq κ] (m : Roster κ) (k : κ) : Roster κ := fun j => if j = k then none else m j

/-- The member found after one was put. -/
theorem get_set [DecidableEq κ] (m : Roster κ) (k : κ) (a : Member κ) (j : κ) :
    m.set k a j = if j = k then some a else m j := rfl

/-- The member found after one was dropped. -/
theorem get_erase [DecidableEq κ] (m : Roster κ) (k j : κ) :
    m.erase k j = if j = k then none else m j := rfl

/-- A member that has not failed replaces the other one. -/
def Replacing (m : Roster κ) (r k : κ) : Prop :=
  ∃ a, m r = some a ∧ a.stage ≠ .failed ∧ a.replaces = some k

/-- A waiting member replaces the other one. -/
def Challenges (m : Roster κ) (r k : κ) : Prop :=
  ∃ a, m r = some a ∧ a.stage = .waiting ∧ a.replaces = some k

/-- A member waits. -/
def Waits (m : Roster κ) (k : κ) : Prop := ∃ a, m k = some a ∧ a.stage = .waiting

/-- A member is marked, or is being replaced. -/
def Masked (m : Roster κ) (k : κ) : Prop :=
  (∃ a, m k = some a ∧ a.marked) ∨ ∃ r, m.Replacing r k

/-- The members that wait or are aloft, and are not masked. -/
def standing (m : Roster κ) : Set κ :=
  {k | (∃ a, m k = some a ∧ (a.stage = .waiting ∨ a.stage = .aloft)) ∧ ¬ m.Masked k}

/-- A member that waits is not masked, one that came further has left its mark, and each is replaced by one
other member at most. -/
structure Sound (m : Roster κ) : Prop where
  waiting : ∀ k, m.Waits k → ¬ m.Masked k
  marked : ∀ r a k b, m r = some a → a.stage = .aloft ∨ a.stage = .landed → a.replaces = some k →
    m k = some b → b.marked
  unique : ∀ r r' k, m.Replacing r k → m.Replacing r' k → r = r'

/-- What may have become of a member: it went to wait again only when it was not masked, it came back from no
failure, and its mark changed only through a challenge. -/
structure Became (m₀ : Roster κ) (k : κ) (a₀ a : Member κ) : Prop where
  replaces : a.replaces = a₀.replaces
  waiting : a.stage = .waiting → a₀.stage = .waiting ∨ (a₀.stage = .aloft ∧ ¬ m₀.Masked k)
  aloft : a.stage = .aloft → a₀.stage = .waiting ∨ a₀.stage = .aloft
  failed : a₀.stage = .failed → a.stage = .failed
  mark : a.marked = a₀.marked ∨ ∃ r, m₀.Challenges r k

/-- A roster that follows another one: no member is new, those that waited are still there, and the members
that came further have left their marks. -/
structure Follows (m₀ m : Roster κ) : Prop where
  came : ∀ k a, m k = some a → ∃ a₀, m₀ k = some a₀ ∧ Became m₀ k a₀ a
  stayed : ∀ k, m₀.Waits k → ∃ a, m k = some a
  marked : ∀ r a k b, m r = some a → a.stage = .aloft ∨ a.stage = .landed → a.replaces = some k →
    m k = some b → b.marked

/-- A challenge is a replacement. -/
theorem Challenges.replacing (h : m.Challenges r k) : m.Replacing r k := by
  obtain ⟨a, hget, hstage, hreplaces⟩ := h
  exact ⟨a, hget, by rw [hstage]; simp, hreplaces⟩

/-- The member that challenges waits. -/
theorem Challenges.waits (h : m.Challenges r k) : m.Waits r := by
  obtain ⟨a, hget, hstage, -⟩ := h
  exact ⟨a, hget, hstage⟩

/-- A member that did not change became what it was. -/
theorem Became.refl : Became m₀ k a a where
  replaces := rfl
  waiting := Or.inl
  aloft := Or.inr
  failed := id
  mark := Or.inl rfl

/-- A sound roster follows itself. -/
theorem Follows.refl (hs : m.Sound) : Follows m m where
  came := fun _ a hget => ⟨a, hget, Became.refl⟩
  stayed := by
    rintro k ⟨a, hget, -⟩
    exact ⟨a, hget⟩
  marked := hs.marked

namespace Follows

/-- Who replaces a member replaced it before. -/
theorem replacing (h : Follows m₀ m) (hr : m.Replacing r k) : m₀.Replacing r k := by
  obtain ⟨a, hget, hlive, hreplaces⟩ := hr
  obtain ⟨a₀, hget₀, hbecame⟩ := h.came r a hget
  refine ⟨a₀, hget₀, fun hfailed => hlive (hbecame.failed hfailed), ?_⟩
  rw [← hbecame.replaces]
  exact hreplaces

/-- Who waits was not masked before. -/
theorem not_masked_of_waits (hs : m₀.Sound) (h : Follows m₀ m) (hk : m.Waits k) : ¬ m₀.Masked k := by
  obtain ⟨a, hget, hstage⟩ := hk
  obtain ⟨a₀, hget₀, hbecame⟩ := h.came k a hget
  rcases hbecame.waiting hstage with hwaiting | ⟨-, hout⟩
  · exact hs.waiting k ⟨a₀, hget₀, hwaiting⟩
  · exact hout

/-- Who is masked was masked before. -/
theorem masked (h : Follows m₀ m) (hk : m.Masked k) : m₀.Masked k := by
  rcases hk with ⟨a, hget, hmarked⟩ | ⟨r, hr⟩
  · obtain ⟨a₀, hget₀, hbecame⟩ := h.came k a hget
    rcases hbecame.mark with hsame | ⟨r, hr⟩
    · exact Or.inl ⟨a₀, hget₀, by rw [← hsame]; exact hmarked⟩
    · exact Or.inr ⟨r, hr.replacing⟩
  · exact Or.inr ⟨r, h.replacing hr⟩

/-- What follows a sound roster is sound. -/
theorem sound (hs : m₀.Sound) (h : Follows m₀ m) : m.Sound where
  waiting := fun _ hk hmasked => h.not_masked_of_waits hs hk (h.masked hmasked)
  marked := h.marked
  unique := fun r r' k hr hr' => hs.unique r r' k (h.replacing hr) (h.replacing hr')

/-- A member that is no longer masked was challenged. -/
theorem challenged (hs : m₀.Sound) (h : Follows m₀ m) (hget : m k = some a) (hout : ¬ m.Masked k)
    (hmasked : m₀.Masked k) : ∃ r, m₀.Challenges r k := by
  obtain ⟨a₀, hget₀, hbecame⟩ := h.came k a hget
  have hofMark : a₀.marked → ∃ r, m₀.Challenges r k := by
    intro hmarked
    rcases hbecame.mark with hsame | hchallenge
    · exact absurd (Or.inl ⟨a, hget, by rw [hsame]; exact hmarked⟩) hout
    · exact hchallenge
  rcases hmasked with ⟨b, hb, hmarked⟩ | ⟨r, b, hb, hlive, hreplaces⟩
  · rw [hget₀] at hb
    cases hb
    exact hofMark hmarked
  · cases hstage : b.stage with
    | waiting => exact ⟨r, b, hb, hstage, hreplaces⟩
    | aloft => exact hofMark (hs.marked r b k a₀ hb (Or.inl hstage) hreplaces hget₀)
    | landed => exact hofMark (hs.marked r b k a₀ hb (Or.inr hstage) hreplaces hget₀)
    | failed => exact absurd hstage hlive

/-- No more members stand than before: who stands now stood already, or stood down for a challenger that has
failed since. -/
theorem encard_standing_le (hs : m₀.Sound) (h : Follows m₀ m) : m.standing.encard ≤ m₀.standing.encard := by
  apply encard_le_of_handover (fun r k => m₀.Challenges r k)
  · rintro r k k' ⟨a, hget, -, hreplaces⟩ ⟨a', hget', -, hreplaces'⟩
    rw [hget] at hget'
    cases hget'
    rw [hreplaces] at hreplaces'
    exact Option.some.inj hreplaces'
  · rintro k ⟨⟨a, hget, hstage⟩, hout⟩
    obtain ⟨a₀, hget₀, hbecame⟩ := h.came k a hget
    have hstage₀ : a₀.stage = .waiting ∨ a₀.stage = .aloft := by
      rcases hstage with hwaiting | haloft
      · exact (hbecame.waiting hwaiting).imp id And.left
      · exact hbecame.aloft haloft
    by_cases hmasked : m₀.Masked k
    · right
      obtain ⟨r, hr⟩ := h.challenged hs hget hout hmasked
      obtain ⟨b, hb⟩ := h.stayed r hr.waits
      obtain ⟨b₀, hb₀, hstage₁, hreplaces⟩ := hr
      obtain ⟨b₁, hb₁, hbecame₁⟩ := h.came r b hb
      rw [hb₀] at hb₁
      cases hb₁
      have hfailed : b.stage = .failed := by
        by_contra hlive
        exact hout (Or.inr ⟨r, b, hb, hlive, hbecame₁.replaces.trans hreplaces⟩)
      refine ⟨r, ⟨⟨b₀, hb₀, Or.inl hstage₁⟩, hs.waiting r ⟨b₀, hb₀, hstage₁⟩⟩, ?_,
        b₀, hb₀, hstage₁, hreplaces⟩
      rintro ⟨⟨b', hb', hactive⟩, -⟩
      rw [hb] at hb'
      cases hb'
      rw [hfailed] at hactive
      simp at hactive
    · exact Or.inl ⟨⟨a₀, hget₀, hstage₀⟩, hmasked⟩

variable [DecidableEq κ]

/-- A member changes, as it may. -/
theorem set (h : Follows m₀ m) (hget₀ : m₀ k = some a₀) (hbecame : Became m₀ k a₀ a)
    (hleft : a.stage = .aloft ∨ a.stage = .landed →
      ∀ p b, a.replaces = some p → m.set k a p = some b → b.marked)
    (hmarked : ∀ r b, r ≠ k → m r = some b → b.stage = .aloft ∨ b.stage = .landed →
      b.replaces = some k → a.marked) : Follows m₀ (m.set k a) where
  came := by
    intro j b hb
    rw [get_set] at hb
    split at hb
    · next heq =>
      cases hb
      rw [heq]
      exact ⟨a₀, hget₀, hbecame⟩
    · exact h.came j b hb
  stayed := by
    intro j hj
    rw [get_set]
    split
    · exact ⟨a, rfl⟩
    · exact h.stayed j hj
  marked := by
    intro r b p c hb hstage hreplaces hc
    rw [get_set] at hb
    split at hb
    · cases hb
      exact hleft hstage p c hreplaces hc
    · next hne =>
      rw [get_set] at hc
      split at hc
      · next heq =>
        cases hc
        rw [heq] at hreplaces
        exact hmarked r b hne hb hstage hreplaces
      · exact h.marked r b p c hb hstage hreplaces hc

/-- A member that comes to another stage leaves the marks as they have to be. -/
theorem come {stage : Stage} (h : Follows m₀ m) (hget : m k = some a) (hget₀ : m₀ k = some a₀)
    (hbecame : Became m₀ k a₀ { a with stage := stage })
    (hstage : stage = .aloft ∨ stage = .landed → a.stage = .aloft ∨ a.stage = .landed) :
    Follows m₀ (m.set k { a with stage := stage }) := by
  apply h.set hget₀ hbecame
  · intro haway p b hp hb
    rw [get_set] at hb
    split at hb
    · next heq =>
      cases hb
      exact h.marked k a p a hget (hstage haway) hp (by rw [heq]; exact hget)
    · exact h.marked k a p b hget (hstage haway) hp hb
  · exact fun r b _ hb haway hr => h.marked r b k a hb haway hr hget

/-- A member fails. -/
theorem fail (h : Follows m₀ m) (hget : m k = some a) :
    Follows m₀ (m.set k { a with stage := .failed }) := by
  obtain ⟨a₀, hget₀, hbecame⟩ := h.came k a hget
  apply h.come hget hget₀
  · exact ⟨hbecame.replaces, by simp, by simp, fun _ => rfl, hbecame.mark⟩
  · simp

/-- A member that waits, or was aloft and not masked, waits again. -/
theorem requeue (h : Follows m₀ m) (hget : m k = some a)
    (hfrom : a.stage = .waiting ∨ (a.stage = .aloft ∧ ¬ m₀.Masked k)) :
    Follows m₀ (m.set k { a with stage := .waiting }) := by
  obtain ⟨a₀, hget₀, hbecame⟩ := h.came k a hget
  apply h.come hget hget₀
  · refine ⟨hbecame.replaces, fun _ => ?_, by simp, fun hfailed => ?_, hbecame.mark⟩
    · rcases hfrom with hwaiting | ⟨haloft, hout⟩
      · exact hbecame.waiting hwaiting
      · exact (hbecame.aloft haloft).imp id fun h => ⟨h, hout⟩
    · have hnow := hbecame.failed hfailed
      rw [hnow] at hfrom
      simp at hfrom
  · simp

/-- A member that is aloft or has landed lands. -/
theorem land (h : Follows m₀ m) (hget : m k = some a) (hfrom : a.stage = .aloft ∨ a.stage = .landed) :
    Follows m₀ (m.set k { a with stage := .landed }) := by
  obtain ⟨a₀, hget₀, hbecame⟩ := h.came k a hget
  apply h.come hget hget₀
  · refine ⟨hbecame.replaces, by simp, by simp, fun hfailed => ?_, hbecame.mark⟩
    have hnow := hbecame.failed hfailed
    rw [hnow] at hfrom
    simp at hfrom
  · exact fun _ => hfrom

/-- A member that waited goes on, as it was admitted, once its mark is left. -/
theorem accept (hs : m₀.Sound) (h : Follows m₀ m) {stage : Stage} (hget₀ : m₀ k = some a₀)
    (hwaiting : a₀.stage = .waiting) (hleft : ∀ p b, a₀.replaces = some p → m p = some b → b.marked) :
    Follows m₀ (m.set k { a₀ with stage := stage }) := by
  have hout : ¬ m₀.Masked k := hs.waiting k ⟨a₀, hget₀, hwaiting⟩
  apply h.set hget₀
  · refine ⟨rfl, fun _ => Or.inl hwaiting, fun _ => Or.inl hwaiting, fun hfailed => ?_, Or.inl rfl⟩
    rw [hwaiting] at hfailed
    cases hfailed
  · intro _ p b hp hb
    rw [get_set] at hb
    split at hb
    · next heq =>
      refine absurd (Or.inr ⟨k, a₀, hget₀, by rw [hwaiting]; simp, ?_⟩) hout
      rw [hp, heq]
    · exact hleft p b hp hb
  · intro r b _ hb haway hr
    have hlive : b.stage ≠ .failed := by
      intro hfailed
      rw [hfailed] at haway
      simp at haway
    exact absurd (Or.inr ⟨r, h.replacing ⟨b, hb, hlive, hr⟩⟩) hout

/-- A challenged member is marked. -/
theorem mark (h : Follows m₀ m) (hget : m k = some a) (hr : m₀.Challenges r k) :
    Follows m₀ (m.set k { a with marked := true }) := by
  obtain ⟨a₀, hget₀, hbecame⟩ := h.came k a hget
  apply h.set hget₀
  · exact ⟨hbecame.replaces, hbecame.waiting, hbecame.aloft, hbecame.failed, Or.inr ⟨r, hr⟩⟩
  · intro haway p b hp hb
    rw [get_set] at hb
    split at hb
    · cases hb
      rfl
    · exact h.marked k a p b hget haway hp hb
  · exact fun _ _ _ _ _ _ => rfl

/-- A member loses its mark once its challenger has failed. -/
theorem unmark (hs : m₀.Sound) (h : Follows m₀ m) (hget : m k = some a) (hr : m₀.Challenges r k)
    (hdown : ¬ m.Replacing r k) : Follows m₀ (m.set k { a with marked := false }) := by
  obtain ⟨a₀, hget₀, hbecame⟩ := h.came k a hget
  -- Nobody else replaced the member, so nobody is left whose mark it would have to bear.
  have hnone : ∀ r' b, m r' = some b → b.stage = .aloft ∨ b.stage = .landed → b.replaces ≠ some k := by
    intro r' b hb haway hreplaces
    have hlive : b.stage ≠ .failed := by
      intro hfailed
      rw [hfailed] at haway
      simp at haway
    have hreplacing : m.Replacing r' k := ⟨b, hb, hlive, hreplaces⟩
    have hsame : r' = r := hs.unique r' r k (h.replacing hreplacing) hr.replacing
    exact hdown (hsame ▸ hreplacing)
  apply h.set hget₀
  · exact ⟨hbecame.replaces, hbecame.waiting, hbecame.aloft, hbecame.failed, Or.inr ⟨r, hr⟩⟩
  · intro haway p b hp hb
    rw [get_set] at hb
    split at hb
    · next heq =>
      rw [heq] at hp
      exact absurd hp (hnone k a hget haway)
    · exact h.marked k a p b hget haway hp hb
  · exact fun r' b _ hb haway hreplaces => absurd hreplaces (hnone r' b hb haway)

/-- A member that did not wait leaves the roster. -/
theorem erase (h : Follows m₀ m) (hk : ¬ m₀.Waits k) : Follows m₀ (m.erase k) where
  came := by
    intro j b hb
    rw [get_erase] at hb
    split at hb
    · cases hb
    · exact h.came j b hb
  stayed := by
    intro j hj
    rw [get_erase]
    split
    · next heq => exact absurd (heq ▸ hj) hk
    · exact h.stayed j hj
  marked := by
    intro r b p c hb haway hreplaces hc
    rw [get_erase] at hb hc
    split at hb
    · cases hb
    split at hc
    · cases hc
    exact h.marked r b p c hb haway hreplaces hc

end Follows

/-! ### Passes in which nobody goes to wait again -/

/-- A roster that follows another one, and in which those wait who waited already. -/
structure Settles (m₀ m : Roster κ) : Prop where
  follows : Follows m₀ m
  waits : ∀ k, m.Waits k → m₀.Waits k

/-- A sound roster settles to itself. -/
theorem Settles.refl (hs : m.Sound) : Settles m m := ⟨Follows.refl hs, fun _ => id⟩

/-- Who challenges now challenged before. -/
theorem Settles.challenges (h : Settles m₀ m) (hr : m.Challenges r k) : m₀.Challenges r k := by
  obtain ⟨b, hb, hstage⟩ := h.waits r hr.waits
  obtain ⟨b₀, hget₀, hlive, hreplaces⟩ := h.follows.replacing hr.replacing
  rw [hb] at hget₀
  cases hget₀
  exact ⟨b, hb, hstage, hreplaces⟩

/-- A member changes, and goes to wait only when it waited before. -/
theorem Settles.set [DecidableEq κ] (h : Settles m₀ m) (hfollows : Follows m₀ (m.set k a))
    (hwaits : a.stage = .waiting → m₀.Waits k) : Settles m₀ (m.set k a) := by
  refine ⟨hfollows, ?_⟩
  rintro j ⟨b, hb, hstage⟩
  rw [get_set] at hb
  split at hb
  · next heq =>
    cases hb
    rw [heq]
    exact hwaits hstage
  · exact h.waits j ⟨b, hb, hstage⟩

/-! ### Admission -/

variable [DecidableEq κ] {replaces : Option κ}

/-- A roster without waiting members stays sound when a member is admitted that nobody replaces, in the place
of nobody or of a member that is not masked. -/
theorem Sound.admitted (hs : m.Sound) (hidle : ∀ j, ¬ m.Waits j) (hfree : ∀ r, ¬ m.Replacing r k)
    (hself : replaces ≠ some k) (hplace : ∀ p, replaces = some p → ¬ m.Masked p) :
    (m.set k ⟨.waiting, replaces, false⟩).Sound := by
  have hreplacing : ∀ {r j}, (m.set k ⟨.waiting, replaces, false⟩).Replacing r j →
      r = k ∧ replaces = some j ∨ r ≠ k ∧ m.Replacing r j := by
    rintro r j ⟨b, hb, hlive, hr⟩
    rw [get_set] at hb
    split at hb
    · next heq =>
      cases hb
      exact Or.inl ⟨heq, hr⟩
    · next hne => exact Or.inr ⟨hne, b, hb, hlive, hr⟩
  constructor
  · rintro j ⟨b, hb, hwaiting⟩ hmasked
    rw [get_set] at hb
    split at hb
    · next heq =>
      subst heq
      rcases hmasked with ⟨c, hc, hmarked⟩ | ⟨r, hr⟩
      · rw [get_set, if_pos rfl] at hc
        cases hc
        cases hmarked
      · rcases hreplacing hr with ⟨-, hself'⟩ | ⟨-, hold⟩
        · exact hself hself'
        · exact hfree r hold
    · exact hidle j ⟨b, hb, hwaiting⟩
  · intro r b j c hb haway hr hc
    rw [get_set] at hb hc
    split at hb
    · cases hb
      simp at haway
    split at hc
    · next heq =>
      have hlive : b.stage ≠ .failed := by
        intro hfailed
        rw [hfailed] at haway
        simp at haway
      exact absurd ⟨b, hb, hlive, heq ▸ hr⟩ (hfree r)
    · exact hs.marked r b j c hb haway hr hc
  · intro r r' j hr hr'
    rcases hreplacing hr with ⟨heq, hp⟩ | ⟨-, hold⟩
    · rcases hreplacing hr' with ⟨heq', -⟩ | ⟨-, hold'⟩
      · rw [heq, heq']
      · exact absurd (Or.inr ⟨r', hold'⟩) (hplace j hp)
    · rcases hreplacing hr' with ⟨-, hp⟩ | ⟨-, hold'⟩
      · exact absurd (Or.inr ⟨r, hold⟩) (hplace j hp)
      · exact hs.unique r r' j hold hold'

/-- After an admission those stand who stood, but the one that is replaced, and the new member. -/
theorem standing_admit_subset (hs : m.Sound) (hidle : ∀ j, ¬ m.Waits j) :
    (m.set k ⟨.waiting, replaces, false⟩).standing ⊆ insert k {j ∈ m.standing | replaces ≠ some j} := by
  rintro j ⟨⟨b, hb, hactive⟩, hout⟩
  by_cases heq : j = k
  · exact Or.inl heq
  right
  rw [get_set, if_neg heq] at hb
  have hmark : ¬ b.marked := by
    intro hmarked
    exact hout (Or.inl ⟨b, by rw [get_set, if_neg heq]; exact hb, hmarked⟩)
  refine ⟨⟨⟨b, hb, hactive⟩, ?_⟩, ?_⟩
  · rintro (⟨c, hc, hmarked⟩ | ⟨r, c, hc, hlive, hr⟩)
    · rw [hb] at hc
      cases hc
      exact hmark hmarked
    · by_cases hrk : r = k
      · -- The record that is written over had come further, so its mark is still there.
        subst hrk
        apply hmark
        cases hstage : c.stage with
        | waiting => exact absurd ⟨c, hc, hstage⟩ (hidle r)
        | aloft => exact hs.marked r c j b hc (Or.inl hstage) hr hb
        | landed => exact hs.marked r c j b hc (Or.inr hstage) hr hb
        | failed => exact absurd hstage hlive
      · exact hout (Or.inr ⟨r, c, by rw [get_set, if_neg hrk]; exact hc, hlive, hr⟩)
  · intro hreplaces
    exact hout (Or.inr ⟨k, ⟨.waiting, replaces, false⟩, by rw [get_set, if_pos rfl], by simp, hreplaces⟩)

/-- An admission in nobody's place adds one standing member at most. -/
theorem encard_standing_admit_le (hs : m.Sound) (hidle : ∀ j, ¬ m.Waits j) :
    (m.set k ⟨.waiting, replaces, false⟩).standing.encard ≤ m.standing.encard + 1 := by
  apply (Set.encard_le_encard (standing_admit_subset hs hidle)).trans
  apply (Set.encard_insert_le _ _).trans
  gcongr
  exact Set.sep_subset _ _

/-- An admission in the place of a standing member adds none. -/
theorem encard_standing_replace_le (hs : m.Sound) (hidle : ∀ j, ¬ m.Waits j) (hp : p ∈ m.standing) :
    (m.set k ⟨.waiting, some p, false⟩).standing.encard ≤ m.standing.encard := by
  apply (Set.encard_le_encard (standing_admit_subset hs hidle)).trans
  apply (Set.encard_insert_le _ _).trans
  rw [← Set.encard_sdiff_singleton_add_one hp]
  gcongr
  rintro j ⟨hj, hne⟩
  exact ⟨hj, fun heq => hne (congrArg some heq.symm)⟩

end Roster

end Foundation
