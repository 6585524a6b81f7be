import Mathlib.Data.Prod.Lex
import Mathlib.Tactic.IntervalCases
import Intake.Proofs.Calendar.Reading
import Intake.Proofs.Rule.Texts

/-!
# Ages

An age is reached on an anniversary: `n` years are full when the day that has the month and the
day of the birth, `n` years later, is not after today.  That day need not exist, and in a common
year the anniversary of 29 February is passed on 1 March.

* `Date.Occurs`: the calendar, month by month; `Date.isDate_iff_occurs`.
* `Date.rank`: year, month and day in the order in which days follow each other.
* `Date.le_fullYears_iff`: counting full years is comparing with an anniversary.
* `Date.rank_leapDay_le_iff`: the anniversaries of 29 February.
* `Rule.Checks.minAge_iff_anniversary`: what the rule for ages says of a date that is written.
-/

namespace Intake

open Rule

namespace Date

/-! ### The calendar -/

/-- A leap year: four divides it, and if it ends a century, 400 does. -/
def Leap (year : Int) : Prop :=
  4 ∣ year ∧ (100 ∣ year → 400 ∣ year)

/-- How many days the months have in common years, from January on. -/
def monthLengths : List Nat := [31, 28, 31, 30, 31, 30, 31, 31, 30, 31, 30, 31]

/-- A day of some year: one that every year has, or 29 February of a leap year. -/
inductive Occurs (year : Int) (month day : Nat) : Prop where
  | common (first : 1 ≤ month) {length : Nat} (found : monthLengths[month - 1]? = some length)
      (first_day : 1 ≤ day) (last_day : day ≤ length)
  | leapDay (february : month = 2) (last : day = 29) (leap : Leap year)

theorem isLeapYear_iff (year : Int) : isLeapYear year = true ↔ Leap year := by
  simp only [isLeapYear, Leap, Bool.and_eq_true, Bool.or_eq_true, beq_iff_eq, bne_iff_ne,
    Int.dvd_iff_emod_eq_zero]
  tauto

theorem daysInMonth_leap {year : Int} (h : isLeapYear year = true) : daysInMonth year 2 = 29 := by
  simp [daysInMonth, h]

/-- A month has its common length, unless it is February of a leap year. -/
theorem monthLengths_eq (year : Int) {month : Nat} (first : 1 ≤ month) (last : month ≤ 12) :
    monthLengths[month - 1]? =
      some (if month = 2 ∧ isLeapYear year = true then 28 else daysInMonth year month) := by
  interval_cases month <;> simp [monthLengths, daysInMonth]

/-- **A year, a month and a day make up a date if and only if there is such a day**, in the years
that dates are kept for. -/
theorem isDate_iff_occurs {year : Int} {month day : Nat} (hfirst : yearRange.1 ≤ year)
    (hlast : year ≤ yearRange.2) : isDate year month day = true ↔ Occurs year month day := by
  simp only [isDate, Bool.and_eq_true, decide_eq_true_eq, hfirst, hlast, true_and]
  constructor
  · rintro ⟨⟨⟨first, last⟩, first_day⟩, last_day⟩
    have hfound := monthLengths_eq year first last
    by_cases hleap : month = 2 ∧ isLeapYear year = true
    · rw [if_pos hleap] at hfound
      obtain ⟨rfl, hyear⟩ := hleap
      rw [daysInMonth_leap hyear] at last_day
      obtain hshort | rfl : day ≤ 28 ∨ day = 29 := by omega
      · exact .common first hfound first_day hshort
      · exact .leapDay rfl rfl ((isLeapYear_iff year).1 hyear)
    · rw [if_neg hleap] at hfound
      exact .common first hfound first_day last_day
  · intro h
    cases h with
    | @common first length found first_day last_day =>
      have last : month ≤ 12 := by
        have hlt := (List.getElem?_eq_some_iff.1 found).1
        simp only [monthLengths, List.length_cons, List.length_nil] at hlt
        omega
      rw [monthLengths_eq year first last, Option.some.injEq] at found
      refine ⟨⟨⟨first, last⟩, first_day⟩, ?_⟩
      by_cases hleap : month = 2 ∧ isLeapYear year = true
      · rw [hleap.1, daysInMonth_leap hleap.2]
        rw [if_pos hleap] at found
        omega
      · rw [if_neg hleap] at found
        rwa [found]
    | leapDay february last leap =>
      subst february last
      rw [daysInMonth_leap ((isLeapYear_iff year).2 leap)]
      decide

/-! ### The order of days -/

/-- Where a year, a month and a day stand in the order of days, whether or not they are a date. -/
def rank (year : Int) (month day : Nat) : Int ×ₗ Nat ×ₗ Nat :=
  toLex (year, toLex (month, day))

theorem rank_le_rank_iff {year year' : Int} {month month' day day' : Nat} :
    rank year month day ≤ rank year' month' day' ↔
      year < year' ∨ year = year' ∧ (month < month' ∨ month = month' ∧ day ≤ day') := by
  unfold rank
  rw [Prod.Lex.toLex_le_toLex, Prod.Lex.toLex_le_toLex]

/-- An earlier year comes first, whatever month and day are. -/
theorem rank_mono_year {year year' : Int} (h : year ≤ year') (month day : Nat) :
    rank year month day ≤ rank year' month day := by
  rw [rank_le_rank_iff]
  omega

/-- Where a date stands in the order of days. -/
def place (d : Date) : Int ×ₗ Nat ×ₗ Nat :=
  rank d.year d.month d.day

/-- **As many years are full as there are anniversaries up to today.** -/
theorem le_fullYears_iff (born today : Date) (years : Int) :
    years ≤ born.fullYears today ↔
      rank (born.year + years) born.month born.day ≤ today.place := by
  rw [place, rank_le_rank_iff]
  unfold fullYears
  by_cases hearlier : today.earlierInYear born = true
  · rw [if_pos hearlier]
    simp only [earlierInYear, Bool.or_eq_true, Bool.and_eq_true, decide_eq_true_eq,
      beq_iff_eq] at hearlier
    omega
  · rw [if_neg hearlier]
    simp only [earlierInYear, Bool.or_eq_true, Bool.and_eq_true, decide_eq_true_eq,
      beq_iff_eq] at hearlier
    omega

theorem day_bounds (d : Date) : 1 ≤ d.day ∧ d.day ≤ daysInMonth d.year d.month := by
  have hvalid := d.valid
  simp only [isDate, Bool.and_eq_true, decide_eq_true_eq] at hvalid
  exact ⟨hvalid.1.2, hvalid.2⟩

/-- **In a common year 29 February is passed on 1 March.** -/
theorem rank_leapDay_le_iff {year : Int} (hcommon : ¬Leap year) (today : Date) :
    rank year 2 29 ≤ today.place ↔ rank year 3 1 ≤ today.place := by
  obtain ⟨hfirst, hlast⟩ := today.day_bounds
  have hfebruary : today.year = year → today.month = 2 → today.day ≤ 28 := by
    intro hyear hmonth
    rw [hyear, hmonth] at hlast
    simpa [daysInMonth, mt (isLeapYear_iff year).1 hcommon] using hlast
  rw [place, rank_le_rank_iff, rank_le_rank_iff]
  omega

end Date

/-- **The rule for ages is the test for an anniversary.**  The text of a date passes on the day
that has its month and its day `n` years later, and from then on; it also passes for every smaller
`n`.  The anniversary of 29 February in a common year is 1 March.  A text of the same form that is
no date never passes. -/
theorem Rule.Checks.minAge_iff_anniversary (r : Record) (field t : String) (more : List Param)
    {year month day : Nat} (hyear : year ≤ 9999) (hmonth : month ≤ 99) (hday : day ≤ 99)
    {front back : List Char} (hfront : ∀ c ∈ front, Text.isWhite c = true)
    (hback : ∀ c ∈ back, Text.isWhite c = true)
    (ht : t.toList = front ++ Date.written year month day ++ back)
    (htext : r.get? field = some (.text t)) :
    let passes (n : Int64) (today : Date) : Prop :=
      Checks.minAge ⟨r, field, today⟩ (.int n :: more) = true
    (¬Date.Occurs year month day → ∀ n today, ¬passes n today) ∧
    (Date.Occurs year month day → ∀ n today,
      (passes n today ↔ Date.rank (year + n.toInt) month day ≤ today.place) ∧
      (passes n today → ∀ m later, m ≤ n → today.place ≤ later.place → passes m later) ∧
      (month = 2 ∧ day = 29 ∧ ¬Date.Leap (year + n.toInt) →
        (passes n today ↔ Date.rank (year + n.toInt) 3 1 ≤ today.place))) := by
  intro passes
  have hoccurs : isDate year month day = true ↔ Date.Occurs year month day := by
    refine Date.isDate_iff_occurs ?_ ?_ <;> simp only [yearRange] <;> omega
  rw [← hoccurs]
  have hread := Date.read?_written hyear hmonth hday hfront hback ht
  have hpasses : ∀ n today, passes n today ↔
      ∃ born, Date.of? year month day = some born ∧ n.toInt ≤ born.fullYears today := by
    intro n today
    rw [← hread]
    exact Checks.minAge_iff_of_text (s := ⟨r, field, today⟩) htext n more
  constructor
  · intro hno n today h
    obtain ⟨born, hborn, -⟩ := (hpasses n today).1 h
    rw [Date.of?, dif_neg hno] at hborn
    cases hborn
  · intro hdate
    have hanniversary : ∀ n today, passes n today ↔
        Date.rank (year + n.toInt) month day ≤ today.place := by
      intro n today
      have hof : Date.of? year month day = some ⟨year, month, day, hdate⟩ := dif_pos hdate
      simp only [hpasses, hof, Option.some.injEq, exists_eq_left']
      exact Date.le_fullYears_iff _ _ _
    intro n today
    refine ⟨hanniversary n today, fun h m later hm hlater => ?_, fun h => ?_⟩
    · rw [hanniversary] at h ⊢
      have hyears : (year : Int) + m.toInt ≤ year + n.toInt := by
        have hle := Int64.le_iff_toInt_le.1 hm
        omega
      exact ((Date.rank_mono_year hyears month day).trans h).trans hlater
    · obtain ⟨rfl, rfl, hcommon⟩ := h
      rw [hanniversary, Date.rank_leapDay_le_iff hcommon]

/-- Someone born on 29 February comes of age on 1 March, and 29 February of a common year is no
birthday at all. -/
theorem Rule.Checks.minAge_iff_anniversary_of_leapDay :
    let r : Record := Dict.ofList [("born", .text " 2004-02-29\n"), ("typed", .text "2023-02-29")]
    let passes (field : String) (n : Int64) (today : Date) : Prop :=
      Checks.minAge ⟨r, field, today⟩ [.int n] = true
    ¬passes "born" 18 ⟨2022, 2, 28, by decide⟩ ∧ passes "born" 18 ⟨2022, 3, 1, by decide⟩ ∧
      passes "born" (-1) ⟨2023, 1, 1, by decide⟩ ∧ ∀ n today, ¬passes "typed" n today := by
  intro r passes
  have hspace : ∀ c ∈ [' '], Text.isWhite c = true := by simp [Text.isWhite, Text.whiteRanges]
  have hbreak : ∀ c ∈ ['\n'], Text.isWhite c = true := by simp [Text.isWhite, Text.whiteRanges]
  have hnone : ∀ c ∈ [], Text.isWhite c = true := by simp
  have hborn := (minAge_iff_anniversary r "born" " 2004-02-29\n" [] (by decide : 2004 ≤ 9999)
    (by decide : 2 ≤ 99) (by decide : 29 ≤ 99) hspace hbreak rfl rfl).2
    (.leapDay rfl rfl ⟨by decide, by decide⟩)
  have htyped := (minAge_iff_anniversary r "typed" "2023-02-29" [] (by decide : 2023 ≤ 9999)
    (by decide : 2 ≤ 99) (by decide : 29 ≤ 99) hnone hnone rfl rfl).1
    (mt (Date.isDate_iff_occurs (by decide) (by decide)).2 (by decide))
  have hage : passes "born" 18 ⟨2022, 3, 1, by decide⟩ :=
    ((hborn 18 ⟨2022, 3, 1, by decide⟩).2.2 ⟨rfl, rfl, fun h => absurd h.1 (by decide)⟩).2
      (by decide)
  have heve : ¬passes "born" 18 ⟨2022, 2, 28, by decide⟩ :=
    mt (hborn 18 ⟨2022, 2, 28, by decide⟩).1.1 (by decide)
  exact ⟨heve, hage, (hborn 18 ⟨2022, 3, 1, by decide⟩).2.1 hage (-1) ⟨2023, 1, 1, by decide⟩
    (by decide) (by decide), htyped⟩

end Intake
