import PagedQuery.Proofs.Relational.Times

/-!
# Truncation in MySQL and Postgres

Postgres truncates a time by a function of its own, MySQL by writing it in a
format and reading that back, or by going back to a Monday, or by putting the
first day of a quarter together. Both come to the beginning of the unit that the
time lies in.

* `Warehouse.IsMySql.eval_truncate`: what MySQL makes of a date or a time;
* `Warehouse.IsPostgres.eval_truncate`: what Postgres makes of it;
* `Dialect.truncate_isStartOf`: the buckets of a table under either database.
-/

namespace PagedQuery

/-! ## Formats of beginnings -/

namespace Format

open Text

variable {t s : Timestamp} {format : List Char}

theorem write?_clock (hleast : 0 ≤ t.date.year) (hmost : t.date.year ≤ 9999)
    (hdate : s.date = t.date) (hhour : s.hour = t.hour) (hnanos : s.nanos = 0)
    (hformat : write? t format = some (pad 2 s.minute ++ ':' :: pad 2 s.second)) :
    write? t ("%Y-%m-%d %H:".toList ++ format) = some (s.date.chars ++ ' ' :: s.clock) := by
  have htext : "%Y-%m-%d %H:".toList =
      ['%', 'Y', '-', '%', 'm', '-', '%', 'd', ' ', '%', 'H', ':'] := rfl
  rw [clock_eq hnanos, hdate, chars_eq hleast hmost, hhour, htext]
  simp [write?, field?, hformat]

theorem write?_month (hleast : 0 ≤ t.date.year) (hmost : t.date.year ≤ 9999) {d : Date}
    (hyear : d.year = t.date.year) (hmonth : d.month = t.date.month) (hday : d.day = 1) :
    write? t "%Y-%m-01".toList = some d.chars := by
  have htext : "%Y-%m-01".toList = ['%', 'Y', '-', '%', 'm', '-', '0', '1'] := rfl
  have hone : pad 2 1 = ['0', '1'] := rfl
  rw [chars_eq (by omega) (by omega), hyear, hmonth, hday, htext, hone]
  simp [write?, field?]

theorem write?_year (hleast : 0 ≤ t.date.year) (hmost : t.date.year ≤ 9999) {d : Date}
    (hyear : d.year = t.date.year) (hmonth : d.month = 1) (hday : d.day = 1) :
    write? t "%Y-01-01".toList = some d.chars := by
  have htext : "%Y-01-01".toList = ['%', 'Y', '-', '0', '1', '-', '0', '1'] := rfl
  have hone : pad 2 1 = ['0', '1'] := rfl
  rw [chars_eq (by omega) (by omega), hyear, hmonth, hday, htext, hone]
  simp [write?, field?]

end Format

/-! ## Values of truncations -/

section

variable {δ : Type} [LinearOrder δ] {db : Warehouse δ} {env : Env δ}

theorem Expr.eval_call (function : String) (args : List Expr) :
    (Expr.call function args).eval db env = db.call function (args.map (Expr.eval db env)) := by
  rw [Expr.eval, Expr.evalList_eq_map]

theorem Expr.eval_string (s : String) : (Expr.string s).eval db env = some (db.text s) := by
  rw [Expr.string, Expr.eval]
  rfl

theorem Expr.eval_int (i : Int) : (Expr.int i).eval db env = some (db.number (i : ℚ)) := by
  rw [Expr.int, Expr.eval]
  rfl

theorem Expr.eval_arithmetic (op : ArithmeticOp) {left right : Expr} {a b : δ}
    (hleft : left.eval db env = some a) (hright : right.eval db env = some b) :
    (Expr.arithmetic op left right).eval db env = db.arithmetic op a b := by
  rw [Expr.eval, hleft, hright, Option.bind_some, Option.bind_some]

end

/-- MySQL has times within a day, and dates for the other units. -/
def Granularity.mySqlValue : Granularity → Timestamp → TimeValue
  | .second, s => .dateTime s
  | .minute, s => .dateTime s
  | .hour, s => .dateTime s
  | _, s => .date s.date

theorem Granularity.instant_mySqlValue {g : Granularity} {s : Timestamp} (h : g.IsStart s) :
    (g.mySqlValue s).instant = s := by
  cases g with
  | second => rfl
  | minute => rfl
  | hour => rfl
  | day => exact h.symm
  | week => exact h.1.symm
  | month => exact h.1.symm
  | quarter => exact h.1.symm
  | year => exact h.1.symm

/-- A year and a month number without leading zeros, with the first day of the month. -/
theorem Warehouse.toList_join_firstOfMonth {year : Int} {month : Nat} (hyear : 0 ≤ year) :
    (String.join ([.inl year, .inr "-", .inl (month : Int), .inr "-01"].map plainText)).toList =
      Nat.toDigits 10 year.natAbs ++ '-' :: (Nat.toDigits 10 month ++ "-01".toList) := by
  simp only [List.map_cons, List.map_nil, plainText, String.join, List.foldl_cons, List.foldl_nil,
    String.toList_append, Text.toList_toString_int, Int.natAbs_natCast]
  rw [if_neg (by omega), if_neg (by omega)]
  simp

namespace Warehouse.IsMySql

variable {δ : Type} [LinearOrder δ] {db : Warehouse δ} {time : TimeValue ↪ δ} {env : Env δ}
  {e : Expr} {v : TimeValue} {s : Timestamp}

/-- What is made of a time in a format. -/
theorem eval_reformatted (h : db.IsMySql time) (he : e.eval db env = some (time v))
    (hrange : v.InRange) {format : String} {text : List Char}
    (hwrite : Format.write? v.instant format.toList = some text) (typeName : String) :
    (Dialect.reformatted e format typeName).eval db env =
      db.cast typeName (some (db.text (String.ofList text))) := by
  rw [Dialect.reformatted, Expr.eval, Expr.eval_call, List.map_cons, List.map_cons, List.map_nil,
    he, Expr.eval_string, h.dateFormat v format text hrange hwrite]

/-- Units within a day leave the date and the hour as they are. -/
theorem eval_clock (h : db.IsMySql time) (he : e.eval db env = some (time v)) (hrange : v.InRange)
    {format : String} {rest : List Char} {minute second : Nat}
    (hformat : format.toList = "%Y-%m-%d %H:".toList ++ rest)
    (hwrite : Format.write? v.instant rest =
      some (Text.pad 2 minute ++ ':' :: Text.pad 2 second))
    (hs : Timestamp.of? v.instant.date v.instant.hour minute second 0 = some s) :
    (Dialect.reformatted e format "DATETIME").eval db env = some (time (.dateTime s)) := by
  obtain ⟨hdate, hhour, rfl, rfl, hnanos⟩ := Timestamp.fields_of_of? hs
  have hyear : 0 ≤ v.instant.date.year ∧ v.instant.date.year ≤ 9999 :=
    ⟨by have := hrange.1; omega, hrange.2⟩
  have hwhole : Format.write? v.instant format.toList = some (s.date.chars ++ ' ' :: s.clock) := by
    rw [hformat]
    exact Format.write?_clock hyear.1 hyear.2 hdate hhour hnanos hwrite
  rw [← hdate] at hyear
  rw [h.eval_reformatted he hrange hwhole]
  refine h.castDateTime _ s ?_
  rw [String.toList_ofList]
  exact Format.readDateTime?_clock hyear.1 hyear.2 hnanos

theorem eval_reformatted_date (h : db.IsMySql time) (he : e.eval db env = some (time v))
    (hrange : v.InRange) {format : String} {d : Date} (hyear : 0 ≤ d.year ∧ d.year ≤ 9999)
    (hwrite : Format.write? v.instant format.toList = some d.chars) :
    (Dialect.reformatted e format "DATE").eval db env = some (time (.date d)) := by
  rw [h.eval_reformatted he hrange hwrite]
  refine h.castDate _ d ?_
  rw [String.toList_ofList]
  exact Format.readDate?_chars hyear.1 hyear.2

/-- The Monday is found by going back as many days as the date is past it. -/
theorem eval_week (h : db.IsMySql time) (he : e.eval db env = some (time v)) (hrange : v.InRange)
    {d : Date} (hback : v.instant.date.back? v.instant.date.weekday = some d) :
    (Dialect.truncateByFormat e .week).eval db env = some (time (.date d)) := by
  have hdate : (Expr.call "DATE" [e]).eval db env = some (time (.date v.instant.date)) := by
    rw [Expr.eval_call, List.map_singleton, he, h.date v hrange]
  have hweekday : (Expr.call "WEEKDAY" [e]).eval db env =
      some (db.number v.instant.date.weekday) := by
    rw [Expr.eval_call, List.map_singleton, he, h.weekday v hrange]
  rw [Dialect.truncateByFormat, Expr.eval_call, List.map_cons, List.map_singleton, hdate, hweekday]
  exact h.subdate _ d _ hrange hback

/-- The number of the first month of the quarter. -/
theorem eval_firstMonth (h : db.IsMySql time) (he : e.eval db env = some (time v))
    (hrange : v.InRange) :
    (Expr.arithmetic .add (.arithmetic .multiply
      (.arithmetic .subtract (.call "QUARTER" [e]) (.int 1)) (.int 3)) (.int 1)).eval db env =
        some (db.number ((((v.instant.date.month - 1) / 3 * 3 + 1 : Nat) : Int) : ℚ)) := by
  obtain ⟨-, -, hmonth, -, -, -⟩ := v.instant.date.valid
  have hquarter : (Expr.call "QUARTER" [e]).eval db env =
      some (db.number ((((v.instant.date.month + 2) / 3 : Nat) : Int) : ℚ)) := by
    rw [Expr.eval_call, List.map_singleton, he, h.quarter v hrange]
  have hbefore := (Expr.eval_arithmetic .subtract hquarter (Expr.eval_int 1)).trans
    (h.subtract _ 1)
  have hmonths := (Expr.eval_arithmetic .multiply hbefore (Expr.eval_int 3)).trans (h.multiply _ 3)
  have hfirst := (Expr.eval_arithmetic .add hmonths (Expr.eval_int 1)).trans (h.add _ 1)
  have hvalue : ((((v.instant.date.month + 2) / 3 : Nat) : Int) - 1) * 3 + 1 =
      (((v.instant.date.month - 1) / 3 * 3 + 1 : Nat) : Int) := by omega
  rw [hfirst, hvalue]

/-- The first day of a quarter is put together from the year and the number of the month. -/
theorem eval_quarter (h : db.IsMySql time) (he : e.eval db env = some (time v))
    (hrange : v.InRange) (hyear : 1000 ≤ v.instant.date.year) {d : Date}
    (hd : Date.of? v.instant.date.year ((v.instant.date.month - 1) / 3 * 3 + 1) 1 = some d) :
    (Dialect.truncateByFormat e .quarter).eval db env = some (time (.date d)) := by
  obtain ⟨-, -, -, hmonth, -, -⟩ := v.instant.date.valid
  have hyears : (Expr.call "YEAR" [e]).eval db env = some (db.number v.instant.date.year) := by
    rw [Expr.eval_call, List.map_singleton, he, h.year v hrange]
  have hfirst := h.eval_firstMonth he hrange
  have hle : (v.instant.date.month - 1) / 3 * 3 + 1 ≤ 12 := by omega
  -- Only the number counts from here on, not how the month was found.
  generalize (v.instant.date.month - 1) / 3 * 3 + 1 = month at hd hfirst hle
  have hconcat := h.concat [.inl v.instant.date.year, .inr "-", .inl (month : Int), .inr "-01"]
  rw [Dialect.truncateByFormat, Expr.eval_call, List.map_cons, List.map_singleton, Expr.eval_string,
    Expr.eval_call, List.map_cons, List.map_cons, List.map_cons, List.map_singleton, hyears, hfirst,
    Expr.eval_string, Expr.eval_string]
  refine (congrArg (fun text => db.call "STR_TO_DATE" [text, some (db.text "%Y-%c-%d")])
    hconcat).trans (h.strToDate _ _ d ?_)
  rw [toList_join_firstOfMonth (by omega), Format.scanDate?_firstOfMonth (by omega)
    (by have := hrange.2; omega) hle, Int.natAbs_of_nonneg (by omega)]
  exact hd

/-- **What MySQL makes of a date or a time.** A year before 1000 has too few digits to be read back
where a quarter is put together. -/
theorem eval_truncate (h : db.IsMySql time) (he : e.eval db env = some (time v))
    (hrange : v.InRange) {g : Granularity} (hyear : g = .quarter → 1000 ≤ v.instant.date.year)
    (hs : v.instant.start? g = some s) :
    (Dialect.truncate .mysql e g).eval db env = some (time (g.mySqlValue s)) := by
  have hwithin : 0 ≤ v.instant.date.year ∧ v.instant.date.year ≤ 9999 :=
    ⟨by have := hrange.1; omega, hrange.2⟩
  have hzero : Text.pad 2 0 = ['0', '0'] := rfl
  cases g with
  | second =>
    have hwrite : Format.write? v.instant ['%', 'i', ':', '%', 's'] =
        some (Text.pad 2 v.instant.minute ++ ':' :: Text.pad 2 v.instant.second) := by
      simp [Format.write?, Format.field?]
    exact h.eval_clock he hrange rfl hwrite hs
  | minute =>
    have hwrite : Format.write? v.instant ['%', 'i', ':', '0', '0'] =
        some (Text.pad 2 v.instant.minute ++ ':' :: Text.pad 2 0) := by
      rw [hzero]
      simp [Format.write?, Format.field?]
    exact h.eval_clock he hrange rfl hwrite hs
  | hour =>
    have hwrite : Format.write? v.instant ['0', '0', ':', '0', '0'] =
        some (Text.pad 2 0 ++ ':' :: Text.pad 2 0) := rfl
    exact h.eval_clock he hrange rfl hwrite hs
  | day =>
    cases hs
    rw [Dialect.truncate, Dialect.truncateByFormat, Expr.eval_call, List.map_singleton, he,
      h.date v hrange]
    rfl
  | week =>
    obtain ⟨d, hd, rfl⟩ := Option.map_eq_some_iff.mp hs
    exact h.eval_week he hrange hd
  | month =>
    obtain ⟨d, hd, rfl⟩ := Option.map_eq_some_iff.mp hs
    obtain ⟨hyear, hmonth, hday⟩ := Date.fields_of_of? hd
    exact h.eval_reformatted_date he hrange (hyear ▸ hwithin)
      (Format.write?_month hwithin.1 hwithin.2 hyear hmonth hday)
  | quarter =>
    obtain ⟨d, hd, rfl⟩ := Option.map_eq_some_iff.mp hs
    exact h.eval_quarter he hrange (hyear rfl) hd
  | year =>
    obtain ⟨d, hd, rfl⟩ := Option.map_eq_some_iff.mp hs
    obtain ⟨hyear, hmonth, hday⟩ := Date.fields_of_of? hd
    exact h.eval_reformatted_date he hrange (hyear ▸ hwithin)
      (Format.write?_year hwithin.1 hwithin.2 hyear hmonth hday)

end Warehouse.IsMySql

/-- What Postgres makes of a date or a time. -/
theorem Warehouse.IsPostgres.eval_truncate {δ : Type} [LinearOrder δ] {db : Warehouse δ}
    {time : TimeValue ↪ δ} {env : Env δ} {e : Expr} {v : TimeValue} {s : Timestamp}
    {g : Granularity} (h : db.IsPostgres time) (he : e.eval db env = some (time v))
    (hrange : v.InRange) (hs : v.instant.start? g = some s) :
    (Dialect.truncate .postgres e g).eval db env = some (time (.dateTime s)) := by
  rw [Dialect.truncate, Expr.eval_call, List.map_cons, List.map_singleton, he, Expr.eval_string]
  exact h.dateTrunc v g s hrange hs

/-! ## Buckets of rows -/

section

variable {δ ε ρ : Type} [LinearOrder δ] [LinearOrder ε] {my : Warehouse δ} {pg : Warehouse ε}
  {time : TimeValue ↪ δ} {time' : TimeValue ↪ ε} {s t : Timestamp} {g : Granularity}

/-- MySQL truncates to the beginning of the unit, and once more changes nothing. -/
theorem Warehouse.IsMySql.eval_truncate_isStartOf (h : my.IsMySql time) {e : Expr} {env : Env δ}
    (he : e.eval my env = some (time (.dateTime t))) (hleast : 1000 ≤ t.date.year)
    (hmost : t.date.year ≤ 9999) (hs : s.IsStartOf g t) :
    (Dialect.truncate .mysql e g).eval my env = some (time (g.mySqlValue s)) ∧
      (Dialect.truncate .mysql (Dialect.truncate .mysql e g) g).eval my env =
        some (time (g.mySqlValue s)) := by
  have hone : 1 ≤ t.date.year := by omega
  have hfirst := h.eval_truncate he ⟨hone, hmost⟩ (fun _ => hleast) (hs.start?_eq hone)
  have hinstant := g.instant_mySqlValue hs.isStart
  -- A week may begin in the year before, but no unit begins before the year 1.
  have hrange : (g.mySqlValue s).InRange := by
    rw [TimeValue.InRange, hinstant]
    exact ⟨hs.one_le_year hone, hs.year_le_year.trans hmost⟩
  have hquarter : g = .quarter → 1000 ≤ (g.mySqlValue s).instant.date.year := by
    rintro rfl
    rw [hinstant]
    exact hs.year_le (d := ⟨1000, 1, 1, by decide⟩) (by decide) rfl rfl hleast
  have hself : (g.mySqlValue s).instant.start? g = some s := by
    rw [hinstant]
    exact hs.self.start?_eq (hs.one_le_year hone)
  exact ⟨hfirst, h.eval_truncate hfirst hrange hquarter hself⟩

/-- Postgres truncates to the beginning of the unit, and once more changes nothing. -/
theorem Warehouse.IsPostgres.eval_truncate_isStartOf (h : pg.IsPostgres time') {e : Expr}
    {env : Env ε} (he : e.eval pg env = some (time' (.dateTime t))) (hleast : 1 ≤ t.date.year)
    (hmost : t.date.year ≤ 9999) (hs : s.IsStartOf g t) :
    (Dialect.truncate .postgres e g).eval pg env = some (time' (.dateTime s)) ∧
      (Dialect.truncate .postgres (Dialect.truncate .postgres e g) g).eval pg env =
        some (time' (.dateTime s)) := by
  have hfirst := h.eval_truncate he ⟨hleast, hmost⟩ (hs.start?_eq hleast)
  have hrange : (TimeValue.dateTime s).InRange :=
    ⟨hs.one_le_year hleast, hs.year_le_year.trans hmost⟩
  exact ⟨hfirst, h.eval_truncate hfirst hrange (hs.self.start?_eq hrange.1)⟩

/-- **Truncation.** Where both databases store the same times in their rows, either truncates each
of them to the beginning of the unit it lies in: the latest one that is not after it. Truncating
again changes nothing, later times have later beginnings, and two rows have one value under MySQL
exactly if they do under Postgres. -/
theorem Dialect.truncate_isStartOf (hmy : my.IsMySql time) (hpg : pg.IsPostgres time')
    {stamp : ρ → Timestamp}
    (hyear : ∀ row, 1000 ≤ (stamp row).date.year ∧ (stamp row).date.year ≤ 9999)
    {e e' : Expr} {env : ρ → Env δ} {env' : ρ → Env ε}
    (he : ∀ row, e.eval my (env row) = some (time (.dateTime (stamp row))))
    (he' : ∀ row, e'.eval pg (env' row) = some (time' (.dateTime (stamp row)))) (g : Granularity) :
    ∃ start : ρ → Timestamp,
      (∀ row, (start row).IsStartOf g (stamp row) ∧
        (g.mySqlValue (start row)).instant = start row) ∧
      (∀ row, (truncate .mysql e g).eval my (env row) = some (time (g.mySqlValue (start row))) ∧
        (truncate .mysql (truncate .mysql e g) g).eval my (env row) =
          some (time (g.mySqlValue (start row)))) ∧
      (∀ row, (truncate .postgres e' g).eval pg (env' row) =
          some (time' (.dateTime (start row))) ∧
        (truncate .postgres (truncate .postgres e' g) g).eval pg (env' row) =
          some (time' (.dateTime (start row)))) ∧
      (∀ row row', stamp row ≤ stamp row' → start row ≤ start row') ∧
      (∀ row row',
        (truncate .mysql e g).eval my (env row) = (truncate .mysql e g).eval my (env row') ↔
          (truncate .postgres e' g).eval pg (env' row) =
            (truncate .postgres e' g).eval pg (env' row')) := by
  have hexists (row : ρ) : ∃ s : Timestamp, s.IsStartOf g (stamp row) := by
    have hone : 1 ≤ (stamp row).date.year := by
      have := (hyear row).1
      omega
    obtain ⟨s, -, hs⟩ := Timestamp.exists_start? (stamp row) g hone
    exact ⟨s, hs⟩
  choose start hstart using hexists
  have hmysql (row : ρ) := hmy.eval_truncate_isStartOf (he row) (hyear row).1 (hyear row).2
    (hstart row)
  have hpostgres (row : ρ) := hpg.eval_truncate_isStartOf (he' row)
    (le_trans (by decide) (hyear row).1) (hyear row).2 (hstart row)
  have hinstant (row : ρ) := g.instant_mySqlValue (hstart row).isStart
  refine ⟨start, fun row => ⟨hstart row, hinstant row⟩, hmysql, hpostgres,
    fun row row' hle => (hstart row).mono (hstart row') hle, fun row row' => ?_⟩
  rw [(hmysql row).1, (hmysql row').1, (hpostgres row).1, (hpostgres row').1]
  constructor
  · intro heq
    have hvalue := time.injective (Option.some.inj heq)
    have hsame : start row = start row' := by
      rw [← hinstant row, hvalue, hinstant row']
    rw [hsame]
  · intro heq
    have hvalue := time'.injective (Option.some.inj heq)
    rw [TimeValue.dateTime.inj hvalue]

end

/-- Half a second before a month ends, and the first moment of the next one. -/
def turnOfMonth : Bool → Timestamp
  | false => ⟨⟨2024, 2, 29, by decide⟩, 23, 59, 59, 500000000, by decide⟩
  | true => .midnight ⟨2024, 3, 1, by decide⟩

/-- The rows that hold the two times. -/
def turnOfMonthRow (row : Bool) : Env StoredDatum :=
  .ofRow (.single none [("time", some (StoredDatum.time (.dateTime (turnOfMonth row))))])

/-- Both times lie in the week of the same Monday. -/
theorem Dialect.truncate_isStartOf_turnOfMonth :
    ∃ monday : Date, monday = ⟨2024, 2, 26, by decide⟩ ∧ ∀ row : Bool,
      (truncate .mysql (.bare "time") .week).eval (StoredDatum.mySqlTables fun _ _ => [])
          (turnOfMonthRow row) = some (StoredDatum.time (.date monday)) ∧
        (truncate .postgres (.bare "time") .week).eval (StoredDatum.postgresTables fun _ _ => [])
          (turnOfMonthRow row) = some (StoredDatum.time (.dateTime (.midnight monday))) := by
  have hyear : ∀ row, 1000 ≤ (turnOfMonth row).date.year ∧ (turnOfMonth row).date.year ≤ 9999 := by
    decide
  have hstored (db : Warehouse StoredDatum) (row : Bool) : (Expr.bare "time").eval db
      (turnOfMonthRow row) = some (StoredDatum.time (.dateTime (turnOfMonth row))) := by
    rw [Expr.bare, Expr.eval]
    cases row <;> rfl
  obtain ⟨start, hstart, hmysql, hpostgres, -, -⟩ := truncate_isStartOf
    (StoredDatum.isMySql_mySqlTables fun _ _ => [])
    (StoredDatum.isPostgres_postgresTables fun _ _ => []) hyear (hstored _) (hstored _) .week
  refine ⟨_, rfl, fun row => ?_⟩
  have hmonday : start row = .midnight ⟨2024, 2, 26, by decide⟩ := by
    have hof := (hstart row).1.start?_eq (le_trans (by decide) (hyear row).1)
    refine (Option.some.inj (hof.symm.trans ?_))
    cases row <;> decide
  have hdate := (hmysql row).1
  have htime := (hpostgres row).1
  rw [hmonday] at hdate htime
  exact ⟨hdate, htime⟩

end PagedQuery
