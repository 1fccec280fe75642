import PagedQuery.Field.Reader
import PagedQuery.Settings

/-!
# Documents

Settings, catalogs and requests are kept in documents. Reading the characters
of one is left to the caller, who hands over the text or the reason why there
is none.

* `Document.Fault`, `Fault.message?`: why nothing could be loaded;
* `Document.load`: what a document holds.
-/

namespace PagedQuery.Document

inductive Fault where
  /-- The text could not be read. -/
  | unreadable (path reason : String)
  /-- The text is not a document of its kind. -/
  | malformed
deriving DecidableEq

/-- What is said about a fault. What is wrong with a malformed text is not told. -/
def Fault.message? : Fault → Option String
  | .unreadable path reason => some ("Failed to read '" ++ path ++ "': " ++ reason)
  | .malformed => none

/-- What the document at a path holds, of which the contents or a reason are given. -/
def load (read : String → Option α) (path : String) (contents : Except String String) :
    Except Fault α :=
  match contents with
  | .error reason => .error (.unreadable path reason)
  | .ok text =>
    match read text with
    | some value => .ok value
    | none => .error .malformed

/-- Why there is no text at a path without a file. -/
def noSuchFile : String := "No such file or directory (os error 2)"

end PagedQuery.Document
