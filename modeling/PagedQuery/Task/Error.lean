import PagedQuery.Task.Cursor

/-!
# Task errors

* `TaskError`: why an operation on a task was refused or failed;
* `TaskError.isTerminal`: the errors after which the task is closed;
* `TaskError.message?`: what is said about it.
-/

namespace PagedQuery.Task

inductive TaskError where
  /-- The name of the task is taken. -/
  | duplicateTask
  /-- There is no task of that name. -/
  | notFound
  /-- Another fetch of the task has not returned yet. -/
  | fetchInProgress
  | closed
  /-- The batch was not complete in time. -/
  | timeout
  /-- Creating, computing or reading did not succeed. -/
  | execution (cause : Fault)
  /-- The worker of the batch broke off. -/
  | join
deriving DecidableEq

namespace TaskError

/-- Whether the task is closed after the error. -/
def isTerminal : TaskError → Bool
  | .closed => true
  | .timeout => true
  | .execution _ => true
  | .join => true
  | .duplicateTask => false
  | .notFound => false
  | .fetchInProgress => false

/-- The message about a task of the given name. Code that broke off leaves no fixed text. -/
def message? (task : String) : TaskError → Option String
  | .duplicateTask => some ("Task " ++ task ++ " already exists")
  | .notFound => some ("Task " ++ task ++ " not found")
  | .fetchInProgress => some ("Task " ++ task ++ " is already being fetched")
  | .closed => some ("Task " ++ task ++ " is closed")
  | .timeout => some ("Fetch on task " ++ task ++ " timed out")
  | .execution (.failed message) => some ("Task " ++ task ++ " failed: " ++ message)
  | .execution .crashed => none
  | .join => none

end TaskError

end PagedQuery.Task
