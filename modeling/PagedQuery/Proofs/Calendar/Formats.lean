import PagedQuery.Proofs.Calendar.Texts

/-!
# Times in formats

A format is a text in which a percent sign and a letter stand for a field of a
time. Here are the fields that truncation writes and reads, and the texts that
are read as dates and times without a format: four digits of the year and two of
everything else.

* `Format.write?`: a time written in a format;
* `Format.readDate?`, `Format.readDateTime?`: texts with a fixed number of digits;
* `Format.scanDate?`: a date read by a format;
* `Format.readDate?_chars`, `Format.readDateTime?_clock`, `Format.scanDate?_firstOfMonth`: what is
  read back.
-/

namespace PagedQuery.Format

open Calendar Text

/-! ## Writing -/

/-- A field in full width, by the letter of its specifier. Others are left open. -/
def field? (t : Timestamp) : Char → Option (List Char)
  | 'Y' => some (pad 4 t.date.year.natAbs)
  | 'm' => some (pad 2 t.date.month)
  | 'd' => some (pad 2 t.date.day)
  | 'H' => some (pad 2 t.hour)
  | 'i' => some (pad 2 t.minute)
  | 's' => some (pad 2 t.second)
  | _ => none

/-- A time in a format. -/
def write? (t : Timestamp) : List Char → Option (List Char)
  | [] => some []
  | ['%'] => none
  | '%' :: c :: format =>
    (field? t c).bind fun text => (write? t format).map fun rest => text ++ rest
  | c :: format => (write? t format).map fun rest => c :: rest

/-! ## Reading -/

/-- A date at the beginning of a text. -/
def takeDate? (text : List Char) : Option (Date × List Char) := do
  let (year, rest) ← takeExact? 4 text
  let (month, rest) ← takeExact? 2 (← expect? '-' rest)
  let (day, rest) ← takeExact? 2 (← expect? '-' rest)
  some (← Date.of? year month day, rest)

/-- A date and nothing else. -/
def readDate? (text : List Char) : Option Date := do
  let (date, rest) ← takeDate? text
  if rest = [] then some date else none

/-- A date, a blank and a time in whole seconds. -/
def readDateTime? (text : List Char) : Option Timestamp := do
  let (date, rest) ← takeDate? text
  let (hour, rest) ← takeExact? 2 (← expect? ' ' rest)
  let (minute, rest) ← takeExact? 2 (← expect? ':' rest)
  let (second, rest) ← takeExact? 2 (← expect? ':' rest)
  if rest = [] then Timestamp.of? date hour minute second 0 else none

/-- The fields that were read so far. -/
structure DateFields where
  year : Option Nat
  month : Option Nat
  day : Option Nat

namespace DateFields

def none : DateFields :=
  ⟨.none, .none, .none⟩

def date? (fields : DateFields) : Option Date := do
  Date.of? (← fields.year) (← fields.month) (← fields.day)

end DateFields

/-- The fields of a text that follows a format: the year in four digits, the month in one or two,
the day in two. Other specifiers are left open. -/
def scan? : (format text : List Char) → DateFields → Option DateFields
  | [], [], fields => some fields
  | '%' :: 'Y' :: format, text, fields =>
    (takeExact? 4 text).bind fun (year, rest) => scan? format rest { fields with year }
  | '%' :: 'c' :: format, text, fields =>
    (takeNumber? 1 2 text).bind fun (month, rest) => scan? format rest { fields with month }
  | '%' :: 'd' :: format, text, fields =>
    (takeExact? 2 text).bind fun (day, rest) => scan? format rest { fields with day }
  | '%' :: _, _, _ => none
  | c :: format, d :: text, fields => if c = d then scan? format text fields else none
  | _, _, _ => none

/-- The date of a text that follows a format. -/
def scanDate? (format text : List Char) : Option Date :=
  (scan? format text .none).bind DateFields.date?

/-! ## What is read back -/

variable {d : Date} {t : Timestamp}

theorem chars_eq (hleast : 0 ≤ d.year) (hmost : d.year ≤ 9999) :
    d.chars = pad 4 d.year.natAbs ++ '-' :: (pad 2 d.month ++ '-' :: pad 2 d.day) := by
  rw [Date.chars, Date.yearText, if_neg (by omega), if_neg (by omega), List.append_assoc]
  rfl

theorem takeDate?_chars (rest : List Char) (hleast : 0 ≤ d.year) (hmost : d.year ≤ 9999)
    (hrest : ∀ c ∈ rest.head?, c.isDigit = false) :
    takeDate? (d.chars ++ rest) = some (d, rest) := by
  obtain ⟨year, month, day, valid⟩ := d
  obtain ⟨-, -, -, hmonth, -, hday⟩ := id valid
  have hday : day ≤ 31 := hday.trans (Date.daysInMonth_le year month)
  dsimp only at hleast hmost
  have hyears := takeExact?_pad 4 year.natAbs
    ('-' :: (pad 2 month ++ '-' :: (pad 2 day ++ rest))) (by decide) (by omega) (by simp)
  have hmonths := takeExact?_pad 2 month ('-' :: (pad 2 day ++ rest)) (by decide) (by omega)
    (by simp)
  have hdays := takeExact?_pad 2 day rest (by decide) (by omega) hrest
  have hvalue : (year.natAbs : Int) = year := by omega
  rw [chars_eq hleast hmost]
  simp only [takeDate?, List.append_assoc, List.cons_append, hyears, hmonths, hdays, expect?_cons,
    hvalue, Date.of?, dif_pos valid, Option.bind_eq_bind, Option.bind_some]

theorem readDate?_chars (hleast : 0 ≤ d.year) (hmost : d.year ≤ 9999) :
    readDate? d.chars = some d := by
  have htake := takeDate?_chars [] hleast hmost nofun
  rw [List.append_nil] at htake
  rw [readDate?, htake]
  rfl

theorem clock_eq (hnanos : t.nanos = 0) :
    t.clock = pad 2 t.hour ++ ':' :: (pad 2 t.minute ++ ':' :: pad 2 t.second) := by
  rw [Timestamp.clock, Timestamp.writtenSecond, hnanos]
  simp [Timestamp.fractionText]

/-- A time in whole seconds. -/
theorem readDateTime?_clock (hleast : 0 ≤ t.date.year) (hmost : t.date.year ≤ 9999)
    (hnanos : t.nanos = 0) : readDateTime? (t.date.chars ++ ' ' :: t.clock) = some t := by
  obtain ⟨date, hour, minute, second, nanos, valid⟩ := t
  obtain ⟨hhour, hminute, hsecond, -, -⟩ := id valid
  obtain rfl : nanos = 0 := hnanos
  have htake := takeDate?_chars (' ' :: (pad 2 hour ++ ':' :: (pad 2 minute ++
    ':' :: pad 2 second))) hleast hmost (by simp)
  have hhours := takeExact?_pad 2 hour
    (':' :: (pad 2 minute ++ ':' :: pad 2 second)) (by decide) (by omega) (by simp)
  have hminutes := takeExact?_pad 2 minute (':' :: pad 2 second) (by decide) (by omega)
    (by simp)
  have hseconds := takeExact?_pad 2 second [] (by decide) (by omega) nofun
  rw [List.append_nil] at hseconds
  rw [clock_eq rfl, readDateTime?, htake]
  simp only [Option.bind_eq_bind, Option.bind_some, expect?_cons, hhours, hminutes, hseconds,
    if_true, Timestamp.of?, dif_pos valid]

theorem scan?_dash (format text : List Char) (fields : DateFields) :
    scan? ('-' :: format) ('-' :: text) fields = scan? format text fields := rfl

/-- The first day of a month whose number is written without a leading zero. -/
theorem scanDate?_firstOfMonth {year month : Nat} (hyear : 1000 ≤ year) (hyear' : year ≤ 9999)
    (hmonth : month ≤ 12) :
    scanDate? "%Y-%c-%d".toList
      (Nat.toDigits 10 year ++ '-' :: (Nat.toDigits 10 month ++ "-01".toList)) =
        Date.of? year month 1 := by
  have hdigits (n : Nat) : ∀ c ∈ Nat.toDigits 10 n, c.isDigit = true :=
    fun c hc => Nat.isDigit_of_mem_toDigits (by decide) (by decide) hc
  have hlength : (Nat.toDigits 10 year).length ≤ 4 :=
    (Nat.length_toDigits_le_iff (by decide) (by decide)).mpr (by omega)
  have hlength' : ¬ (Nat.toDigits 10 year).length ≤ 3 := by
    rw [Nat.length_toDigits_le_iff (by decide) (by decide)]
    omega
  have hshort : (Nat.toDigits 10 month).length ≤ 2 :=
    (Nat.length_toDigits_le_iff (by decide) (by decide)).mpr (by omega)
  have hnonempty : 1 ≤ (Nat.toDigits 10 month).length :=
    List.length_pos_iff.mpr Nat.toDigits_ne_nil
  have hyears : takeExact? 4
      (Nat.toDigits 10 year ++ '-' :: (Nat.toDigits 10 month ++ "-01".toList)) =
        some (year, '-' :: (Nat.toDigits 10 month ++ "-01".toList)) := by
    rw [takeExact?, takeNumber?_append (hdigits year) (by simp) (by omega) hlength,
      Nat.ofDigitChars_ten_toDigits]
  have hmonths : takeNumber? 1 2 (Nat.toDigits 10 month ++ "-01".toList) =
      some (month, "-01".toList) := by
    rw [takeNumber?_append (hdigits month) (by simp) hnonempty hshort,
      Nat.ofDigitChars_ten_toDigits]
  have hday : takeExact? 2 ['0', '1'] = some (1, []) := rfl
  have hformat : "%Y-%c-%d".toList = ['%', 'Y', '-', '%', 'c', '-', '%', 'd'] := rfl
  have hrest : "-01".toList = ['-', '0', '1'] := rfl
  rw [hrest] at hyears hmonths ⊢
  simp only [scanDate?, hformat, scan?, scan?_dash, hyears, hmonths, hday, DateFields.date?,
    Option.bind_eq_bind, Option.bind_some]

end PagedQuery.Format
