import PagedQuery.Calendar.Date
import PagedQuery.Text.Blank

/-!
# Reading dates and timestamps

Four forms are tried in turn: a date, a timestamp with `T`, a timestamp with a
blank, and a timestamp with a zone, which is moved to UTC. The first three are
lenient about blanks before numbers and about their width; the last one has
exactly as many digits as its form says.

* `Date.read?`, `Timestamp.readLocal?`, `Timestamp.readZoned?`.
-/

namespace PagedQuery

namespace Calendar

/-- The rest of a text that begins with `c`. -/
def expect? (c : Char) : List Char → Option (List Char)
  | [] => none
  | d :: rest => if c = d then some rest else none

/-- A number of one or two digits, after blanks, not above `most`. -/
def takeField? (most : Nat) (text : List Char) : Option (Nat × List Char) := do
  let (n, rest) ← Text.takeNumber? 1 2 (Text.trimStart text)
  if n ≤ most then some (n, rest) else none

/-- A year, after blanks: up to four digits, or a sign and any number of digits. -/
def takeYear? (text : List Char) : Option (Int × List Char) :=
  match Text.trimStart text with
  | '-' :: rest => (Text.takeNumber? 1 rest.length rest).map fun (n, rest) => (-(n : Int), rest)
  | '+' :: rest => (Text.takeNumber? 1 rest.length rest).map fun (n, rest) => ((n : Int), rest)
  | text => (Text.takeNumber? 1 4 text).map fun (n, rest) => ((n : Int), rest)

/-- Nanoseconds from an optional point and at least one digit; digits past the ninth are
dropped. -/
def takeFraction? : List Char → Option (Nat × List Char)
  | '.' :: text => do
    let (n, rest) ← Text.takeNumber? 1 9 text
    let places := text.length - rest.length
    some (n * Nat.pow 10 (9 - places), rest.dropWhile Char.isDigit)
  | text => some (0, text)

/-- Joins the parts of a time; second 60 is a leap second after second 59. -/
def timestamp? (date : Date) (hour minute second nanos : Nat) : Option Timestamp :=
  if second = 60 then Timestamp.of? date hour minute 59 (nanos + 1000000000)
  else Timestamp.of? date hour minute second nanos

/-- A date `Y-M-D` at the beginning of a text. -/
def takeDate? (text : List Char) : Option (Date × List Char) := do
  let (year, rest) ← takeYear? text
  let (month, rest) ← takeField? 12 (← expect? '-' rest)
  let (day, rest) ← takeField? 31 (← expect? '-' rest)
  some (← Date.of? year month day, rest)

/-- A time `H:M:S` with an optional fraction, to the end of the text. -/
def readTime? (date : Date) (text : List Char) : Option Timestamp := do
  let (hour, rest) ← takeField? 23 text
  let (minute, rest) ← takeField? 59 (← expect? ':' rest)
  let (second, rest) ← takeField? 60 (← expect? ':' rest)
  let (nanos, rest) ← takeFraction? rest
  if rest = [] then timestamp? date hour minute second nanos else none

/-- A number of exactly `width` digits. -/
def takeExact? (width : Nat) (text : List Char) : Option (Nat × List Char) :=
  Text.takeNumber? width width text

/-- The minutes that a zone is ahead of UTC: `Z`, or a sign and `hh:mm`. The minus may be the
hyphen or the mathematical sign. -/
def readZone? : List Char → Option Int
  | [] => none
  | [c] => if c = 'Z' ∨ c = 'z' then some 0 else none
  | sign :: text => do
    let negative ←
      if sign = '+' then some false
      else if sign = '-' ∨ sign = '\u2212' then some true
      else none
    let (hours, rest) ← takeExact? 2 text
    let (minutes, rest) ← takeExact? 2 (← expect? ':' rest)
    if rest ≠ [] ∨ 23 < hours ∨ 59 < minutes then none
    else some (if negative then -(hours * 60 + minutes : Int) else hours * 60 + minutes)

/-- The timestamp `minutes` earlier, for less than a day of either sign. -/
def back? (t : Timestamp) (minutes : Int) : Option Timestamp := do
  let total := (t.hour * 60 + t.minute : Int) - minutes
  let date ←
    if total < 0 then t.date.previous?
    else if 1440 ≤ total then t.date.next?
    else some t.date
  let inDay := (total % 1440).toNat
  Timestamp.of? date (inDay / 60) (inDay % 60) t.second t.nanos

end Calendar

open Calendar

/-- A date and nothing else. -/
def Date.read? (text : List Char) : Option Date := do
  let (date, rest) ← takeDate? text
  if rest = [] then some date else none

/-- A date, one character that `separates` it, and a time. -/
def Timestamp.readLocal? (separates : Char → Bool) (text : List Char) : Option Timestamp := do
  match ← takeDate? text with
  | (date, c :: rest) => if separates c then readTime? date rest else none
  | _ => none

/-- A timestamp with a zone, in UTC. -/
def Timestamp.readZoned? (text : List Char) : Option Timestamp := do
  let (year, rest) ← takeExact? 4 text
  let (month, rest) ← takeExact? 2 (← expect? '-' rest)
  let (day, rest) ← takeExact? 2 (← expect? '-' rest)
  let date ← Date.of? year month day
  match rest with
  | [] => none
  | c :: rest =>
    if !(c = 'T' || c = 't' || c = ' ') then none
    else
      let (hour, rest) ← takeExact? 2 rest
      let (minute, rest) ← takeExact? 2 (← expect? ':' rest)
      let (second, rest) ← takeExact? 2 (← expect? ':' rest)
      let (nanos, rest) ← takeFraction? rest
      if 60 < second then none
      else back? (← timestamp? date hour minute second nanos) (← readZone? rest)

end PagedQuery
