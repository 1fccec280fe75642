import PagedQuery.Dialect.Basic
import PagedQuery.Statement.Expr

/-!
# Functions that differ between dialects

* `Dialect.epochSeconds`, `Dialect.epochMillis`: timestamps from numbers;
* `Dialect.truncate`: the beginning of the second, the day, the quarter, …;
* `Dialect.textSearch`: whether a text matches a search string;
* `Dialect.timestampSentinel`: a timestamp that stands for null in join conditions.
-/

namespace PagedQuery.Dialect

/-- The timestamp of a number of seconds since 1970. -/
def epochSeconds (dialect : Dialect) (e : Expr) : Expr :=
  match dialect with
  | .postgres => .call "TO_TIMESTAMP" [e]
  | .mysql => .call "FROM_UNIXTIME" [e]
  | .clickhouse => .call "toDateTime" [e]

/-- The timestamp of a number of milliseconds since 1970. -/
def epochMillis (dialect : Dialect) (e : Expr) : Expr :=
  match dialect with
  | .postgres => .call "TO_TIMESTAMP" [.arithmetic .divide e (.int 1000)]
  | .mysql => .call "FROM_UNIXTIME" [.arithmetic .divide e (.int 1000)]
  | .clickhouse => .call "toDateTime" [.call "intDiv" [e, .int 1000]]

/-! ## Truncation -/

/-- A timestamp written in a format and read back as a date or a time. -/
def reformatted (e : Expr) (format typeName : String) : Expr :=
  .cast (.call "DATE_FORMAT" [e, .string format]) typeName

/-- Truncation by formats and date functions. The first month of a quarter is computed from
its number. -/
def truncateByFormat (e : Expr) : Granularity → Expr
  | .second => reformatted e "%Y-%m-%d %H:%i:%s" "DATETIME"
  | .minute => reformatted e "%Y-%m-%d %H:%i:00" "DATETIME"
  | .hour => reformatted e "%Y-%m-%d %H:00:00" "DATETIME"
  | .day => .call "DATE" [e]
  | .week => .call "SUBDATE" [.call "DATE" [e], .call "WEEKDAY" [e]]
  | .month => reformatted e "%Y-%m-01" "DATE"
  | .quarter =>
    let firstMonth :=
      Expr.arithmetic .add
        (.arithmetic .multiply
          (.arithmetic .subtract (.call "QUARTER" [e]) (.int 1)) (.int 3)) (.int 1)
    .call "STR_TO_DATE"
      [.call "CONCAT" [.call "YEAR" [e], .string "-", firstMonth, .string "-01"],
       .string "%Y-%c-%d"]
  | .year => reformatted e "%Y-01-01" "DATE"

/-- The function that truncates to a unit, where there is one for each. -/
def truncateFunction : Granularity → String
  | .second => "toDateTime"
  | .minute => "toStartOfMinute"
  | .hour => "toStartOfHour"
  | .day => "toStartOfDay"
  | .week => "toMonday"
  | .month => "toStartOfMonth"
  | .quarter => "toStartOfQuarter"
  | .year => "toStartOfYear"

/-- The beginning of the unit that a timestamp lies in. -/
def truncate (dialect : Dialect) (e : Expr) (granularity : Granularity) : Expr :=
  match dialect with
  | .postgres => .call "DATE_TRUNC" [.string granularity.unit, e]
  | .mysql => truncateByFormat e granularity
  | .clickhouse => .call (truncateFunction granularity) [e]

/-! ## Text search and sentinels -/

/-- Whether a text matches a search string. -/
def textSearch (dialect : Dialect) (e query : Expr) : Expr :=
  match dialect with
  | .postgres =>
    .compare (.call "TO_TSVECTOR" [e]) .textMatch (.call "PLAINTO_TSQUERY" [query])
  | .mysql =>
    .compare (.call "INSTR" [.call "LOWER" [e], .call "LOWER" [query]]) .gt (.int 0)
  | .clickhouse =>
    .compare (.call "positionCaseInsensitive" [e, query]) .gt (.int 0)

/-- A timestamp in the far future that stands for null in join conditions. -/
def timestampSentinel : Dialect → Expr
  | .postgres => .raw "TIMESTAMP '9999-12-31 23:59:59'"
  | .mysql => .raw "TIMESTAMP('9999-12-31 23:59:59')"
  | .clickhouse => .raw "toDateTime('2105-12-31 23:59:59')"

end PagedQuery.Dialect
