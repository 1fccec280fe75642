import Mathlib.Order.Bounds.Basic
import PagedQuery.Proofs.Calendar.Days
import PagedQuery.Request.Aggregate

/-!
# The beginnings of units

A time lies in one second, one minute, one week, and so on. Each unit begins
where the smaller fields of a time are the least that they can be, and the unit
that a time lies in begins at the latest such time that is not after it.

* `Timestamp.le_iff`: the order of times;
* `Granularity.IsStart`: where units begin;
* `Timestamp.IsStartOf`: the latest beginning of a unit that is not after a time;
* `Timestamp.start?`, `Timestamp.exists_start?`: the time with its smaller fields reset is that
  beginning;
* `Timestamp.IsStartOf.self`, `Timestamp.IsStartOf.mono`: beginnings of beginnings, and of later
  times.
-/

namespace PagedQuery

/-! ## Order -/

namespace Timestamp

/-- The date, the hour, the minute, the second and the nanoseconds, in this order. -/
def key (t : Timestamp) : Date ×ₗ ℕ ×ₗ ℕ ×ₗ ℕ ×ₗ ℕ :=
  toLex (t.date, toLex (t.hour, toLex (t.minute, toLex (t.second, t.nanos))))

theorem key_injective : Function.Injective key := by
  intro t t' h
  obtain ⟨date, hour, minute, second, nanos, valid⟩ := t
  obtain ⟨date', hour', minute', second', nanos', valid'⟩ := t'
  obtain ⟨rfl, hhour⟩ := Prod.mk.inj (toLex.injective h)
  obtain ⟨rfl, hminute⟩ := Prod.mk.inj (toLex.injective hhour)
  obtain ⟨rfl, hsecond⟩ := Prod.mk.inj (toLex.injective hminute)
  obtain ⟨rfl, rfl⟩ := Prod.mk.inj (toLex.injective hsecond)
  rfl

instance : LinearOrder Timestamp :=
  LinearOrder.lift' key key_injective

variable {t u s : Timestamp}

/-- The order of the times of a day. -/
def ClockLe (t u : Timestamp) : Prop :=
  t.hour < u.hour ∨ t.hour = u.hour ∧ (t.minute < u.minute ∨
    t.minute = u.minute ∧ (t.second < u.second ∨ t.second = u.second ∧ t.nanos ≤ u.nanos))

theorem le_iff : t ≤ u ↔ t.date < u.date ∨ t.date = u.date ∧ t.ClockLe u := by
  change t.key ≤ u.key ↔ _
  simp only [key, Prod.Lex.toLex_le_toLex, ClockLe]

/-- The beginning of a day. -/
def midnight (d : Date) : Timestamp :=
  ⟨d, 0, 0, 0, 0, by decide⟩

theorem midnight_le_iff {d : Date} : midnight d ≤ t ↔ d ≤ t.date := by
  rw [le_iff, le_iff_lt_or_eq (a := d)]
  refine or_congr Iff.rfl ⟨And.left, fun heq => ⟨heq, ?_⟩⟩
  simp only [ClockLe, midnight]
  omega

end Timestamp

/-! ## Units -/

/-- Where a unit begins. -/
def Granularity.IsStart : Granularity → Timestamp → Prop
  | .second, t => t.nanos = 0
  | .minute, t => t.second = 0 ∧ t.nanos = 0
  | .hour, t => t.minute = 0 ∧ t.second = 0 ∧ t.nanos = 0
  | .day, t => t = .midnight t.date
  | .week, t => t = .midnight t.date ∧ t.date.weekday = 0
  | .month, t => t = .midnight t.date ∧ t.date.day = 1
  | .quarter, t => t = .midnight t.date ∧ t.date.day = 1 ∧ t.date.month % 3 = 1
  | .year, t => t = .midnight t.date ∧ t.date.day = 1 ∧ t.date.month = 1

instance (g : Granularity) (t : Timestamp) : Decidable (g.IsStart t) := by
  cases g <;> unfold Granularity.IsStart <;> infer_instance

theorem Date.fields_of_of? {year : Int} {month day : Nat} {d : Date}
    (h : of? year month day = some d) : d.year = year ∧ d.month = month ∧ d.day = day := by
  unfold of? at h
  split at h
  · cases h
    exact ⟨rfl, rfl, rfl⟩
  · cases h

namespace Timestamp

/-- A time with the fields below the unit reset; a week goes back to its Monday. -/
def start? (t : Timestamp) : Granularity → Option Timestamp
  | .second => of? t.date t.hour t.minute t.second 0
  | .minute => of? t.date t.hour t.minute 0 0
  | .hour => of? t.date t.hour 0 0 0
  | .day => some (midnight t.date)
  | .week => (t.date.back? t.date.weekday).map midnight
  | .month => (Date.of? t.date.year t.date.month 1).map midnight
  | .quarter => (Date.of? t.date.year ((t.date.month - 1) / 3 * 3 + 1) 1).map midnight
  | .year => (Date.of? t.date.year 1 1).map midnight

variable {s s' t t' : Timestamp} {g : Granularity}

theorem fields_of_of? {date : Date} {hour minute second nanos : Nat}
    (h : of? date hour minute second nanos = some s) : s.date = date ∧ s.hour = hour ∧
      s.minute = minute ∧ s.second = second ∧ s.nanos = nanos := by
  unfold of? at h
  split at h
  · cases h
    exact ⟨rfl, rfl, rfl, rfl, rfl⟩
  · cases h

/-- The beginning of the unit that a time lies in: the latest one that is not after it. -/
def IsStartOf (s : Timestamp) (g : Granularity) (t : Timestamp) : Prop :=
  IsGreatest {u | g.IsStart u ∧ u ≤ t} s

namespace IsStartOf

theorem isStart (h : s.IsStartOf g t) : g.IsStart s :=
  h.1.1

theorem le (h : s.IsStartOf g t) : s ≤ t :=
  h.1.2

theorem unique (h : s.IsStartOf g t) (h' : s'.IsStartOf g t) : s = s' :=
  IsGreatest.unique h h'

/-- A beginning is the beginning of its own unit. -/
theorem self (h : s.IsStartOf g t) : s.IsStartOf g s :=
  ⟨⟨h.isStart, le_rfl⟩, fun _ hu => hu.2⟩

/-- Later times lie in later units. -/
theorem mono (h : s.IsStartOf g t) (h' : s'.IsStartOf g t') (hle : t ≤ t') : s ≤ s' :=
  h'.2 ⟨h.isStart, h.le.trans hle⟩

/-- A unit that begins with the first day of a year does not reach back beyond it. -/
theorem year_le {d : Date} (h : s.IsStartOf g t) (hstart : g.IsStart (midnight d))
    (hmonth : d.month = 1) (hday : d.day = 1) (hyear : d.year ≤ t.date.year) :
    d.year ≤ s.date.year := by
  have hmonth' := t.date.valid.2.2.1
  have hday' := t.date.valid.2.2.2.2.1
  have hd : d ≤ t.date := by
    rw [Date.le_iff]
    omega
  have hle := midnight_le_iff.mp (h.2 ⟨hstart, midnight_le_iff.mpr hd⟩)
  rw [Date.le_iff] at hle
  omega

theorem year_le_year (h : s.IsStartOf g t) : s.date.year ≤ t.date.year := by
  rcases le_iff.mp h.le with hlt | ⟨heq, -⟩
  · have hle := Date.le_iff.mp hlt.le
    omega
  · rw [heq]

/-- The first day of the year 1 begins a unit of every size. -/
theorem one_le_year (h : s.IsStartOf g t) (ht : 1 ≤ t.date.year) : 1 ≤ s.date.year := by
  have hstart : g.IsStart (midnight ⟨1, 1, 1, by decide⟩) := by
    cases g <;> decide
  exact h.year_le hstart rfl rfl ht

end IsStartOf

/-- Units of days begin at the midnights of certain days. -/
theorem isStartOf_midnight {P : Date → Prop} {d : Date}
    (hstart : ∀ u, g.IsStart u ↔ u = midnight u.date ∧ P u.date) (hd : P d) (hle : d ≤ t.date)
    (hlatest : ∀ u, P u → u ≤ t.date → u ≤ d) : (midnight d).IsStartOf g t := by
  refine ⟨⟨(hstart _).mpr ⟨rfl, hd⟩, midnight_le_iff.mpr hle⟩, ?_⟩
  rintro u ⟨hu, hut⟩
  obtain ⟨hmidnight, hP⟩ := (hstart u).mp hu
  rw [hmidnight, midnight_le_iff] at hut ⊢
  exact hlatest u.date hP hut

/-- Units within a day begin at certain times of the same day. -/
theorem isStartOf_of_clockLe (hdate : s.date = t.date) (hstart : g.IsStart s) (hle : s.ClockLe t)
    (hlatest : ∀ u, g.IsStart u → u.ClockLe t → u.ClockLe s) : s.IsStartOf g t := by
  refine ⟨⟨hstart, le_iff.mpr (.inr ⟨hdate, hle⟩)⟩, ?_⟩
  rintro u ⟨hu, hut⟩
  rw [le_iff, hdate]
  exact (le_iff.mp hut).imp_right (And.imp_right (hlatest u hu))

/-- **The beginning of a unit.** With the fields below the unit reset, a time is the latest
beginning that is not after it. -/
theorem exists_start? (t : Timestamp) (g : Granularity) (h : 1 ≤ t.date.year) :
    ∃ s, t.start? g = some s ∧ s.IsStartOf g t := by
  obtain ⟨hleast, hmost, hmonth, hmonth', hday, -⟩ := t.date.valid
  obtain ⟨hhour, hminute, hsecond, -, -⟩ := t.valid
  have hlength (month : Nat) : 1 ≤ Date.daysInMonth t.date.year month :=
    le_trans (by decide) (Date.le_daysInMonth t.date.year month)
  cases g with
  | second =>
    have hvalid : Valid t.hour t.minute t.second 0 := ⟨hhour, hminute, hsecond, by omega, by omega⟩
    refine ⟨_, dif_pos hvalid, isStartOf_of_clockLe rfl rfl ?_ fun u hu hut => ?_⟩
    · simp only [ClockLe, true_and]
      omega
    · simp only [Granularity.IsStart, ClockLe] at hu hut ⊢
      omega
  | minute =>
    have hvalid : Valid t.hour t.minute 0 0 := ⟨hhour, hminute, by omega, by omega, by omega⟩
    refine ⟨_, dif_pos hvalid, isStartOf_of_clockLe rfl ⟨rfl, rfl⟩ ?_ fun u hu hut => ?_⟩
    · simp only [ClockLe, true_and]
      omega
    · simp only [Granularity.IsStart, ClockLe] at hu hut ⊢
      omega
  | hour =>
    have hvalid : Valid t.hour 0 0 0 := ⟨hhour, by omega, by omega, by omega, by omega⟩
    refine ⟨_, dif_pos hvalid, isStartOf_of_clockLe rfl ⟨rfl, rfl, rfl⟩ ?_ fun u hu hut => ?_⟩
    · simp only [ClockLe, true_and]
      omega
    · simp only [Granularity.IsStart, ClockLe] at hu hut ⊢
      omega
  | day =>
    have hstart (u : Timestamp) : Granularity.day.IsStart u ↔ u = midnight u.date ∧ True := by
      rw [and_true, Granularity.IsStart]
    refine ⟨_, rfl, ?_⟩
    exact isStartOf_midnight (P := fun _ => True) hstart trivial le_rfl fun u _ hu => hu
  | week =>
    obtain ⟨m, hm, hmonday, hle, hlatest⟩ := Date.exists_monday h
    refine ⟨midnight m, ?_, isStartOf_midnight (fun u => Iff.rfl) hmonday hle hlatest⟩
    rw [start?, hm, Option.map_some]
  | month =>
    have hvalid : Date.Valid t.date.year t.date.month 1 :=
      ⟨hleast, hmost, hmonth, hmonth', le_rfl, hlength _⟩
    refine ⟨_, congrArg (Option.map midnight) (dif_pos hvalid),
      isStartOf_midnight (P := fun d => d.day = 1) (fun u => Iff.rfl) rfl ?_ fun u hu hut => ?_⟩
    · rw [Date.le_iff]
      dsimp only
      omega
    · rw [Date.le_iff] at hut ⊢
      dsimp only
      omega
  | quarter =>
    have hvalid : Date.Valid t.date.year ((t.date.month - 1) / 3 * 3 + 1) 1 :=
      ⟨hleast, hmost, by omega, by omega, le_rfl, hlength _⟩
    refine ⟨_, congrArg (Option.map midnight) (dif_pos hvalid),
      isStartOf_midnight (P := fun d => d.day = 1 ∧ d.month % 3 = 1) (fun u => Iff.rfl) ⟨rfl, ?_⟩ ?_
        fun u hu hut => ?_⟩
    · dsimp only
      omega
    · rw [Date.le_iff]
      dsimp only
      omega
    · rw [Date.le_iff] at hut ⊢
      dsimp only
      omega
  | year =>
    have hvalid : Date.Valid t.date.year 1 1 :=
      ⟨hleast, hmost, by decide, by decide, le_rfl, hlength _⟩
    refine ⟨_, congrArg (Option.map midnight) (dif_pos hvalid),
      isStartOf_midnight (P := fun d => d.day = 1 ∧ d.month = 1) (fun u => Iff.rfl) ⟨rfl, rfl⟩ ?_
        fun u hu hut => ?_⟩
    · rw [Date.le_iff]
      dsimp only
      omega
    · rw [Date.le_iff] at hut ⊢
      dsimp only
      omega

theorem IsStartOf.start?_eq (h : s.IsStartOf g t) (ht : 1 ≤ t.date.year) :
    t.start? g = some s := by
  obtain ⟨s', hs', hof⟩ := exists_start? t g ht
  rw [hs', h.unique hof]

end Timestamp

end PagedQuery
