/-!
# Task identifiers

* `TaskId`: 128 bits, as 32 hexadecimal digits;
* `TaskId.read?`, `TaskId.text`: the forms that are read, and the one that is written.
-/

namespace PagedQuery.Task

/-- A task identifier, by its hexadecimal digits from the first to the last. -/
structure TaskId where
  digits : List (Fin 16)
deriving DecidableEq

namespace TaskId

/-- The number of digits. -/
def length : Nat := 32

def hexDigit? (c : Char) : Option (Fin 16) :=
  if '0' ≤ c ∧ c ≤ '9' then some (Fin.ofNat 16 (c.toNat - '0'.toNat))
  else if 'a' ≤ c ∧ c ≤ 'f' then some (Fin.ofNat 16 (c.toNat - 'a'.toNat + 10))
  else if 'A' ≤ c ∧ c ≤ 'F' then some (Fin.ofNat 16 (c.toNat - 'A'.toNat + 10))
  else none

def hexChar (d : Fin 16) : Char :=
  if d.val < 10 then Char.ofNat ('0'.toNat + d.val) else Char.ofNat ('a'.toNat + d.val - 10)

/-- The lengths of the groups that hyphens make. -/
def groups : List Nat := [8, 4, 4, 4, 12]

/-- Puts a hyphen after each group of characters. -/
def hyphenate : List Nat → List Char → List Char
  | [], text => text
  | [_], text => text
  | length :: rest, text => text.take length ++ '-' :: hyphenate rest (text.drop length)

/-- Digits without hyphens. -/
def ofDigits? (text : List Char) : Option TaskId :=
  if text.length = length then (text.mapM hexDigit?).map TaskId.mk else none

/-- Digits with hyphens between the groups. -/
def ofGroups? (text : List Char) : Option TaskId :=
  let digits := text.filter (· ≠ '-')
  if hyphenate groups digits = text then ofDigits? digits else none

/-- What may stand before the digits of an identifier. -/
def urn : List Char := "urn:uuid:".toList

/-- An identifier in either case of letters: with or without hyphens, or with them in braces or
after a scheme. -/
def read? (text : String) : Option TaskId :=
  let text := text.toList
  match text with
  | '\x7b' :: rest =>
    if rest.getLast? = some '\x7d' then ofGroups? rest.dropLast else none
  | text =>
    if urn.isPrefixOf text then ofGroups? (text.drop urn.length)
    else (ofDigits? text).or (ofGroups? text)

/-- The digits in lower case, with hyphens. -/
def text (id : TaskId) : String :=
  String.ofList (hyphenate groups (id.digits.map hexChar))

end TaskId

end PagedQuery.Task
