import Mathlib.Data.Prod.Lex
import PagedQuery.Calendar.Date

/-!
# Days

Dates are ordered by year, month and day, and numbered from the first day of the
year 1, which is a Monday. The day before a date is the greatest date below it
and has the number before. So going back as many days as a date is past Monday
leads to the latest Monday that is not after it.

* `Date.le_iff`: the order of dates;
* `Date.number`, `Date.weekday`: the number of a day, and its place in the week;
* `Date.exists_previous?`: the day before;
* `Date.back?`, `Date.exists_monday`: the Monday of a week.
-/

namespace PagedQuery.Date

/-! ## Order -/

/-- The year, the month and the day, in this order. -/
def key (d : Date) : ℤ ×ₗ ℕ ×ₗ ℕ :=
  toLex (d.year, toLex (d.month, d.day))

theorem key_injective : Function.Injective key := by
  intro d d' h
  obtain ⟨year, month, day, valid⟩ := d
  obtain ⟨year', month', day', valid'⟩ := d'
  obtain ⟨rfl, hrest⟩ := Prod.mk.inj (toLex.injective h)
  obtain ⟨rfl, rfl⟩ := Prod.mk.inj (toLex.injective hrest)
  rfl

instance : LinearOrder Date :=
  LinearOrder.lift' key key_injective

theorem le_iff {d d' : Date} : d ≤ d' ↔ d.year < d'.year ∨
    d.year = d'.year ∧ (d.month < d'.month ∨ d.month = d'.month ∧ d.day ≤ d'.day) :=
  (Prod.Lex.toLex_le_toLex).trans
    (or_congr Iff.rfl (and_congr Iff.rfl Prod.Lex.toLex_le_toLex))

theorem lt_iff {d d' : Date} : d < d' ↔ d.year < d'.year ∨
    d.year = d'.year ∧ (d.month < d'.month ∨ d.month = d'.month ∧ d.day < d'.day) :=
  (Prod.Lex.toLex_lt_toLex).trans
    (or_congr Iff.rfl (and_congr Iff.rfl Prod.Lex.toLex_lt_toLex))

/-! ## Numbers of days -/

/-- The days from the beginning of the calendar to the beginning of a year. -/
def daysBeforeYear (year : Int) : Int :=
  365 * (year - 1) + (year - 1) / 4 - (year - 1) / 100 + (year - 1) / 400

/-- The days of a year before a month. -/
def daysBeforeMonth (year : Int) : Nat → Nat
  | 0 => 0
  | 1 => 0
  | month + 2 => daysBeforeMonth year (month + 1) + daysInMonth year (month + 1)

/-- The number of a day; the first day of the year 1 has number 1. -/
def number (d : Date) : Int :=
  daysBeforeYear d.year + daysBeforeMonth d.year d.month + d.day

/-- The place of a day in its week, 0 for Monday. -/
def weekday (d : Date) : Nat :=
  ((d.number - 1) % 7).toNat

example : (of? 2024 2 29).map weekday = some 3 := by decide

theorem daysBeforeMonth_december (year : Int) :
    daysBeforeMonth year 12 = if isLeapYear year then 335 else 334 := by
  simp [daysBeforeMonth, daysInMonth]
  split <;> rfl

theorem daysBeforeYear_add_one (year : Int) : daysBeforeYear (year + 1) =
    daysBeforeYear year + daysBeforeMonth year 12 + 31 := by
  rw [daysBeforeMonth_december]
  unfold daysBeforeYear isLeapYear
  split
  · simp_all
    omega
  · simp_all
    omega

/-! ## The day before -/

variable {d p : Date}

/-- The day before is the greatest of the days below, and has the number before. -/
structure Precedes (p d : Date) : Prop where
  lt : p < d
  le_of_lt : ∀ u, u < d → u ≤ p
  number_eq : p.number = d.number - 1

theorem le_daysInMonth (year : Int) (month : Nat) : 28 ≤ daysInMonth year month := by
  unfold daysInMonth
  split
  · split <;> omega
  · split <;> omega

/-- Every day after the first one of the year 1 has a day before. -/
theorem exists_previous? (h : 1 < d.number) : ∃ p, d.previous? = some p ∧ Precedes p d := by
  obtain ⟨year, month, day, valid⟩ := d
  obtain ⟨hleast, hmost, hmonth, hmonth', hday, hday'⟩ := id valid
  unfold previous?
  dsimp only
  by_cases hfirst : 1 < day
  · rw [if_pos hfirst, of?, dif_pos ⟨hleast, hmost, hmonth, hmonth', by omega, by omega⟩]
    refine ⟨_, rfl, lt_iff.mpr (by dsimp only; omega), fun u hu => ?_, ?_⟩
    · rw [lt_iff] at hu
      rw [le_iff]
      dsimp only at hu ⊢
      omega
    · simp only [number]
      omega
  obtain rfl : day = 1 := by omega
  by_cases hjanuary : 1 < month
  · -- the last day of the month before
    obtain ⟨before, rfl⟩ : ∃ before, month = before + 2 := ⟨month - 2, by omega⟩
    have hmonths : before + 2 - 1 = before + 1 := rfl
    have hlength := le_daysInMonth year (before + 1)
    rw [if_neg hfirst, if_pos hjanuary, hmonths, of?,
      dif_pos ⟨hleast, hmost, by omega, by omega, by omega, le_rfl⟩]
    refine ⟨_, rfl, lt_iff.mpr (by dsimp only; omega), fun u hu => ?_, ?_⟩
    · have hlast : u.year = year → u.month = before + 1 →
          u.day ≤ daysInMonth year (before + 1) := by
        rintro rfl hmonth
        exact hmonth ▸ u.valid.2.2.2.2.2
      have hday := u.valid.2.2.2.2.1
      rw [lt_iff] at hu
      rw [le_iff]
      dsimp only at hu ⊢
      omega
    · simp only [number, daysBeforeMonth]
      push_cast
      omega
  · -- the last day of the year before
    obtain rfl : month = 1 := by omega
    have hyear : 1 < year := by
      simp only [number, daysBeforeYear, daysBeforeMonth] at h
      omega
    rw [if_neg hfirst, if_neg hjanuary, of?,
      dif_pos ⟨by omega, by omega, by decide, by decide, by decide, le_rfl⟩]
    refine ⟨_, rfl, lt_iff.mpr (by dsimp only; omega), fun u hu => ?_, ?_⟩
    · have hday := u.valid.2.2.2.2.1
      have hmonth := u.valid.2.2.1
      have hmonth' := u.valid.2.2.2.1
      have hlast : u.month = 12 → u.day ≤ 31 := by
        intro hmonth
        have hday' := u.valid.2.2.2.2.2
        rw [hmonth] at hday'
        exact hday'
      rw [lt_iff] at hu
      rw [le_iff]
      dsimp only at hu ⊢
      omega
    · have hbefore := daysBeforeYear_add_one (year - 1)
      rw [Int.sub_add_cancel] at hbefore
      have hjanuary : daysBeforeMonth year 1 = 0 := rfl
      simp only [number, hbefore, hjanuary]
      omega

/-! ## The Monday of a week -/

/-- The date a number of days before. -/
def back? : Nat → Date → Option Date
  | 0, d => some d
  | n + 1, d => d.previous?.bind (back? n)

theorem weekday_of_precedes (h : Precedes p d) {n : Nat} (hd : d.weekday = n + 1) :
    p.weekday = n := by
  have hnumber := h.number_eq
  unfold weekday at hd ⊢
  omega

/-- From a date that is past Monday by some days, so many days back is a Monday, and the latest one
that is not after the date. -/
theorem exists_back?_monday {n : Nat} (h : n < d.number) (hd : d.weekday = n) :
    ∃ m, back? n d = some m ∧ m.weekday = 0 ∧ m ≤ d ∧ ∀ u, u.weekday = 0 → u ≤ d → u ≤ m := by
  induction n generalizing d with
  | zero => exact ⟨d, rfl, hd, le_rfl, fun u _ hu => hu⟩
  | succ n ih =>
    obtain ⟨p, hp, hprecedes⟩ := exists_previous? (d := d) (by omega)
    have hnumber := hprecedes.number_eq
    obtain ⟨m, hm, hmonday, hle, hlatest⟩ :=
      ih (d := p) (by omega) (weekday_of_precedes hprecedes hd)
    refine ⟨m, ?_, hmonday, hle.trans hprecedes.lt.le, fun u hu hud => ?_⟩
    · rw [back?, hp, Option.bind_some, hm]
    · -- the date itself is no Monday
      have hne : u ≠ d := by
        rintro rfl
        omega
      exact hlatest u hu (hprecedes.le_of_lt u (lt_of_le_of_ne hud hne))

theorem one_le_number (h : 1 ≤ d.year) : 1 ≤ d.number := by
  have hday := d.valid.2.2.2.2.1
  unfold number daysBeforeYear
  omega

/-- **The Monday of a week.** As many days before a date as it is past Monday is the latest Monday
that is not after it. -/
theorem exists_monday (h : 1 ≤ d.year) : ∃ m, back? d.weekday d = some m ∧ m.weekday = 0 ∧
    m ≤ d ∧ ∀ u, u.weekday = 0 → u ≤ d → u ≤ m := by
  have hnumber := one_le_number h
  have hlt : (d.weekday : Int) < d.number := by
    unfold weekday
    omega
  exact exists_back?_monday hlt rfl

end PagedQuery.Date
