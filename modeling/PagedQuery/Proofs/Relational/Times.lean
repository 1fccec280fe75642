import PagedQuery.Proofs.Calendar.Formats
import PagedQuery.Proofs.Calendar.Starts
import PagedQuery.Proofs.Relational.Exact

/-!
# Functions of times

What the documentation of a database says about its functions of dates and
times. A date counts as its midnight where a time is asked for.

* `TimeValue`: dates and times among the data of a database;
* `Warehouse.IsMySql`: formats, casts and the parts of a date;
* `Warehouse.IsPostgres`: truncation to a unit;
* `StoredDatum.mySqlTables`, `StoredDatum.postgresTables`: databases in memory that do so.
-/

namespace PagedQuery

/-- A date, or a date with a time of day. -/
inductive TimeValue where
  | date (date : Date)
  | dateTime (time : Timestamp)
deriving DecidableEq

namespace TimeValue

/-- The time that a value stands for. -/
def instant : TimeValue → Timestamp
  | .date d => .midnight d
  | .dateTime t => t

/-- The years that have at most four digits, from the first year on. -/
def InRange (v : TimeValue) : Prop :=
  1 ≤ v.instant.date.year ∧ v.instant.date.year ≤ 9999

end TimeValue

namespace Warehouse

variable {δ : Type} [LinearOrder δ]

/-- The text of a whole number or of a text. -/
def plainText : Int ⊕ String → String
  | .inl i => toString i
  | .inr s => s

/-- The datum of a whole number or of a text. -/
def plainDatum (db : Warehouse δ) : Int ⊕ String → δ
  | .inl i => db.number i
  | .inr s => db.text s

/-- The functions of MySQL that truncation is made of. -/
structure IsMySql (db : Warehouse δ) (time : TimeValue ↪ δ) : Prop where
  /-- A time in a format. -/
  dateFormat : ∀ (v : TimeValue) (format : String) (text : List Char), v.InRange →
    Format.write? v.instant format.toList = some text →
    db.call "DATE_FORMAT" [some (time v), some (db.text format)] =
      some (db.text (String.ofList text))
  /-- The time that a text writes. -/
  castDateTime : ∀ (text : String) (t : Timestamp), Format.readDateTime? text.toList = some t →
    db.cast "DATETIME" (some (db.text text)) = some (time (.dateTime t))
  /-- The date that a text writes. -/
  castDate : ∀ (text : String) (d : Date), Format.readDate? text.toList = some d →
    db.cast "DATE" (some (db.text text)) = some (time (.date d))
  /-- The date of a time. -/
  date : ∀ v : TimeValue, v.InRange →
    db.call "DATE" [some (time v)] = some (time (.date v.instant.date))
  /-- The number of the day in the week, 0 for Monday. -/
  weekday : ∀ v : TimeValue, v.InRange →
    db.call "WEEKDAY" [some (time v)] = some (db.number v.instant.date.weekday)
  /-- The date some days before. -/
  subdate : ∀ (d d' : Date) (n : Nat), (TimeValue.date d).InRange → d.back? n = some d' →
    db.call "SUBDATE" [some (time (.date d)), some (db.number n)] = some (time (.date d'))
  /-- The number of the quarter in the year, 1 for the first one. -/
  quarter : ∀ v : TimeValue, v.InRange →
    db.call "QUARTER" [some (time v)] =
      some (db.number ((((v.instant.date.month + 2) / 3 : Nat) : Int) : ℚ))
  year : ∀ v : TimeValue, v.InRange →
    db.call "YEAR" [some (time v)] = some (db.number v.instant.date.year)
  /-- Texts and whole numbers one after the other. -/
  concat : ∀ parts : List (Int ⊕ String),
    db.call "CONCAT" (parts.map fun part => some (db.plainDatum part)) =
      some (db.text (String.join (parts.map plainText)))
  /-- The date of a text that follows a format. -/
  strToDate : ∀ (text format : String) (d : Date),
    Format.scanDate? format.toList text.toList = some d →
    db.call "STR_TO_DATE" [some (db.text text), some (db.text format)] = some (time (.date d))
  add : ∀ a b : Int, db.arithmetic .add (db.number a) (db.number b) =
    some (db.number ((a + b : Int) : ℚ))
  subtract : ∀ a b : Int, db.arithmetic .subtract (db.number a) (db.number b) =
    some (db.number ((a - b : Int) : ℚ))
  multiply : ∀ a b : Int, db.arithmetic .multiply (db.number a) (db.number b) =
    some (db.number ((a * b : Int) : ℚ))

/-- The function of Postgres that truncates: the fields below the unit are reset. -/
structure IsPostgres (db : Warehouse δ) (time : TimeValue ↪ δ) : Prop where
  dateTrunc : ∀ (v : TimeValue) (g : Granularity) (s : Timestamp), v.InRange →
    v.instant.start? g = some s →
    db.call "DATE_TRUNC" [some (db.text g.unit), some (time v)] = some (time (.dateTime s))

end Warehouse

/-! ## Databases in memory -/

namespace StoredDatum

/-- Dates and times are kept as texts. -/
def ofTime : TimeValue → StoredDatum
  | .date d => text d.text
  | .dateTime t => text t.text

def toText? (datum : StoredDatum) : Option String :=
  match ofLex datum with
  | .inl _ => none
  | .inr s => some s

/-- The date or the time that a text writes. -/
def toTime? (datum : StoredDatum) : Option TimeValue :=
  (toText? datum).bind fun s =>
    match Date.read? s.toList with
    | some d => some (.date d)
    | none => (Timestamp.readLocal? (· = 'T') s.toList).map .dateTime

theorem toTime?_ofTime (v : TimeValue) : toTime? (ofTime v) = some v := by
  cases v with
  | date d =>
    have htext : toText? (ofTime (.date d)) = some d.text := rfl
    have hchars : d.text.toList = d.chars := String.toList_ofList
    rw [toTime?, htext, Option.bind_some, hchars, Date.read?_chars]
  | dateTime t =>
    have htext : toText? (ofTime (.dateTime t)) = some t.text := rfl
    have hchars : t.text.toList = t.chars := String.toList_ofList
    rw [toTime?, htext, Option.bind_some, hchars, Date.read?_timestamp, Timestamp.readLocal?_chars,
      Option.map_some]

/-- The dates and times among the data in memory. -/
def time : TimeValue ↪ StoredDatum where
  toFun := ofTime
  inj' v v' h := by
    have hread := toTime?_ofTime v
    rw [h, toTime?_ofTime] at hread
    exact (Option.some.inj hread).symm

@[simp] theorem toTime?_time (v : TimeValue) : toTime? (time v) = some v :=
  toTime?_ofTime v

@[simp] theorem toText?_text (s : String) : toText? (text s) = some s := rfl

/-- The plain text of a whole number or of a text. -/
def plain? (datum : StoredDatum) : Option String :=
  match ofLex datum with
  | .inl x => if x.den = 1 then some (toString x.num) else none
  | .inr s => some s

/-- The functions of MySQL. -/
def mySqlCall : String → List (Option StoredDatum) → Option StoredDatum
  | "DATE_FORMAT", [some x, some format] => do
    let v ← toTime? x
    let chars ← Format.write? v.instant (← toText? format).toList
    some (text (String.ofList chars))
  | "DATE", [some x] => (toTime? x).map fun v => time (.date v.instant.date)
  | "WEEKDAY", [some x] => (toTime? x).map fun v => number v.instant.date.weekday
  | "SUBDATE", [some x, some days] => do
    let v ← toTime? x
    let d ← v.instant.date.back? days.amount.num.toNat
    some (time (.date d))
  | "QUARTER", [some x] =>
    (toTime? x).map fun v => number ((((v.instant.date.month + 2) / 3 : Nat) : Int) : ℚ)
  | "YEAR", [some x] => (toTime? x).map fun v => number v.instant.date.year
  | "CONCAT", parts => do
    let texts ← parts.mapM fun part : Option StoredDatum => part.bind plain?
    some (text (String.join texts))
  | "STR_TO_DATE", [some x, some format] => do
    let d ← Format.scanDate? (← toText? format).toList (← toText? x).toList
    some (time (.date d))
  | _, _ => none

/-- The casts of MySQL. -/
def mySqlCast (typeName : String) (value : Option StoredDatum) : Option StoredDatum := do
  let s ← toText? (← value)
  match typeName with
  | "DATETIME" => (Format.readDateTime? s.toList).map fun t => time (.dateTime t)
  | "DATE" => (Format.readDate? s.toList).map fun d => time (.date d)
  | _ => none

/-- The function of Postgres that truncates. -/
def postgresCall : String → List (Option StoredDatum) → Option StoredDatum
  | "DATE_TRUNC", [some unit, some x] => do
    let g ← Granularity.ofName? (← toText? unit)
    let v ← toTime? x
    let s ← v.instant.start? g
    some (time (.dateTime s))
  | _, _ => none

/-- Tables in memory with the functions of MySQL. -/
def mySqlTables (table : String → String → List (Row StoredDatum)) : Warehouse StoredDatum :=
  { Warehouse.inMemory table with
    call := mySqlCall
    cast := mySqlCast }

/-- Tables in memory with the function of Postgres. -/
def postgresTables (table : String → String → List (Row StoredDatum)) : Warehouse StoredDatum :=
  { Warehouse.inMemory table with call := postgresCall }

variable (table : String → String → List (Row StoredDatum))

theorem plain?_plainDatum (part : Int ⊕ String) :
    plain? ((mySqlTables table).plainDatum part) = some (Warehouse.plainText part) := by
  cases part with
  | inl i =>
    change (if (i : ℚ).den = 1 then some (toString (i : ℚ).num) else none) = _
    rw [Rat.den_intCast, Rat.num_intCast]
    rfl
  | inr s => rfl

theorem mapM_plain? (parts : List (Int ⊕ String)) :
    ((parts.map fun part => some ((mySqlTables table).plainDatum part)).mapM
      fun part : Option StoredDatum => part.bind plain?) =
        some (parts.map Warehouse.plainText) := by
  induction parts with
  | nil => rfl
  | cons part rest ih =>
    rw [List.map_cons, List.mapM_cons, ih, Option.bind_some, plain?_plainDatum]
    rfl

theorem isMySql_mySqlTables : (mySqlTables table).IsMySql time where
  dateFormat v format chars _ hwrite := by
    change mySqlCall "DATE_FORMAT" [some (time v), some (text format)] = _
    simp only [mySqlCall, toTime?_time, toText?_text, Option.bind_eq_bind, Option.bind_some, hwrite]
    rfl
  castDateTime s t hread := by
    change mySqlCast "DATETIME" (some (text s)) = _
    simp only [mySqlCast, toText?_text, Option.bind_eq_bind, Option.bind_some, hread]
    rfl
  castDate s d hread := by
    change mySqlCast "DATE" (some (text s)) = _
    simp only [mySqlCast, toText?_text, Option.bind_eq_bind, Option.bind_some, hread]
    rfl
  date v _ := by
    change mySqlCall "DATE" [some (time v)] = _
    rw [mySqlCall, toTime?_time]
    rfl
  weekday v _ := by
    change mySqlCall "WEEKDAY" [some (time v)] = _
    rw [mySqlCall, toTime?_time]
    rfl
  subdate d d' n _ hback := by
    change mySqlCall "SUBDATE" [some (time (.date d)), some (number n)] = _
    have hdays : (number n).amount.num.toNat = n := by
      change (n : ℚ).num.toNat = n
      rw [Rat.num_natCast, Int.toNat_natCast]
    have hdate : (TimeValue.date d).instant.date = d := rfl
    simp only [mySqlCall, toTime?_time, Option.bind_eq_bind, Option.bind_some, hdays, hdate, hback]
  quarter v _ := by
    change mySqlCall "QUARTER" [some (time v)] = _
    rw [mySqlCall, toTime?_time]
    rfl
  year v _ := by
    change mySqlCall "YEAR" [some (time v)] = _
    rw [mySqlCall, toTime?_time]
    rfl
  concat parts := by
    change mySqlCall "CONCAT" (parts.map fun part => some ((mySqlTables table).plainDatum part)) = _
    simp only [mySqlCall, mapM_plain?, Option.bind_eq_bind, Option.bind_some]
    rfl
  strToDate s format d hscan := by
    change mySqlCall "STR_TO_DATE" [some (text s), some (text format)] = _
    simp only [mySqlCall, toText?_text, Option.bind_eq_bind, Option.bind_some, hscan]
  add a b := by
    change some (number ((a : ℚ) + b)) = some (number ((a + b : Int) : ℚ))
    push_cast
    rfl
  subtract a b := by
    change some (number ((a : ℚ) - b)) = some (number ((a - b : Int) : ℚ))
    push_cast
    rfl
  multiply a b := by
    change some (number ((a : ℚ) * b)) = some (number ((a * b : Int) : ℚ))
    push_cast
    rfl

theorem isPostgres_postgresTables : (postgresTables table).IsPostgres time where
  dateTrunc v g s _ hstart := by
    have hunit : Granularity.ofName? g.unit = some g := by
      cases g <;> rfl
    change postgresCall "DATE_TRUNC" [some (text g.unit), some (time v)] = _
    simp only [postgresCall, toText?_text, toTime?_time, Option.bind_eq_bind, Option.bind_some,
      hunit, hstart]

end StoredDatum

end PagedQuery
