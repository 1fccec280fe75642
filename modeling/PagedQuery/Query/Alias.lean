import Std.Data.HashMap
import Std.Data.HashSet

/-!
# Aliases

Output columns get names that every database takes: lower case letters,
digits and underscores, of bounded length, no two alike. The first request
for a name gives the name itself, later ones a counter after it.

* `Aliases`: the names issued so far;
* `Aliases.base`, `Aliases.candidate`: a name made fit, and its numbered forms;
* `Aliases.generate`, `Aliases.fit`: the next unused form of a name.
-/

namespace PagedQuery

/-- The names issued so far, and for each base the number of its next form. -/
structure Aliases where
  maxLength : Nat
  counters : Std.HashMap String Nat
  issued : Std.HashSet String

namespace Aliases

/-- The length up to which every database takes names. -/
def defaultMaxLength : Nat := 63

/-- The least length bound, which has room for a character and the longest counter. -/
def leastMaxLength : Nat := 8

/-- The number of forms of one base. -/
def maxForms : Nat := 99999

def new (maxLength : Nat) : Aliases :=
  { maxLength := max maxLength leastMaxLength, counters := ∅, issued := ∅ }

/-- A character of an alias: ASCII letters in lower case, digits and underscores; an underscore
stands for every other one. -/
def cleanChar (c : Char) : Char :=
  let c := c.toLower
  if c.isLower || c.isDigit || c = '_' then c else '_'

/-- A name in the characters of aliases. -/
def clean (name : String) : List Char :=
  if name.toList = [] then "expr".toList else name.toList.map cleanChar

/-- A name made fit for an alias, without regard to the names issued. -/
def base (a : Aliases) (name : String) : List Char :=
  (clean name).take a.maxLength

/-- The counter of a form; the first form has none. -/
def suffix (n : Nat) : List Char :=
  if n = 0 then [] else '_' :: Nat.toDigits 10 n

/-- The `n`-th form of a base, shortened so that the counter fits. -/
def candidate (a : Aliases) (base : List Char) (n : Nat) : String :=
  String.ofList (base.take (a.maxLength - (suffix n).length) ++ suffix n)

/-- The first form that has not been issued, of `forms` forms from the `n`-th on. -/
def search (a : Aliases) (base : List Char) (n : Nat) : (forms : Nat) → Option (Nat × String)
  | 0 => none
  | forms + 1 =>
    let aliasName := a.candidate base n
    if a.issued.contains aliasName then a.search base (n + 1) forms else some (n, aliasName)

/-- The number of the next form of a base. -/
def counter (a : Aliases) (base : List Char) : Nat :=
  a.counters.getD (String.ofList base) 0

/-- The next unused form of a name, `none` once all forms are used up. -/
def generate (a : Aliases) (name : String) : Option String × Aliases :=
  let base := a.base name
  let n := a.counter base
  match a.search base n (maxForms - n) with
  | some (n, aliasName) =>
    (some aliasName,
      { a with
        counters := a.counters.insert (String.ofList base) (n + 1)
        issued := a.issued.insert aliasName })
  | none => (none, { a with counters := a.counters.insert (String.ofList base) maxForms })

/-- A name made fit, for columns that live in a scope of their own. -/
def fit (a : Aliases) (name : String) : String :=
  String.ofList (a.base name)

end Aliases

end PagedQuery
