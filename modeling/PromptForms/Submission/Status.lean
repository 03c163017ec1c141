/-
  PromptForms.Submission.Status
  ─────────────────────────────
  **THE STATUS OF A SUBMISSION.**

      pending ──► processing ──► completed
         │             └───────► failed
         └──────────────────────► completed   (a form without a pipeline)

  `completed` and `failed` end an attempt.  Only a new attempt leads back to `pending`.

      Status, targets    the statuses and where each may lead
      transition         a change of status, or its refusal
      sources            the statuses that lead to one
      newAttempt         back to `pending`, or its refusal
-/
import PromptForms.Failure
import PromptForms.Schema.Scalar

namespace PromptForms

open Schema

/-- The statuses. -/
inductive Status where
  | pending | processing | completed | failed
  deriving DecidableEq, Repr

namespace Status

/-- The word for a status. -/
def name : Status → String
  | pending => "pending"
  | processing => "processing"
  | completed => "completed"
  | failed => "failed"

/-- All statuses. -/
def all : List Status := [pending, processing, completed, failed]

/-- The status of a word. -/
def ofName? (word : String) : Option Status := all.find? fun s => s.name == word

theorem ofName?_name (s : Status) : ofName? s.name = some s := by cases s <;> decide

/-- Reads a status. -/
def check : Json → Checked Status := oneOf (all.map fun s => (s.name, s))

/-- Where a status may lead within an attempt. -/
def targets : Status → List Status
  | pending => [processing, completed]
  | processing => [completed, failed]
  | completed => []
  | failed => []

/-- Does a status end an attempt? -/
def isTerminal : Status → Bool
  | completed | failed => true
  | pending | processing => false

/-- May a status lead to another one? -/
def canBecome (current target : Status) : Bool := current.targets.contains target

/-- A change of status, or its refusal. -/
def transition (current target : Status) : Except Cause Status :=
  if current.canBecome target then .ok target
  else .error (.statusTransition current.name target.name)

/-- The statuses that lead to one. -/
def sources (target : Status) : List Status := all.filter fun s => s.canBecome target

/-- A finished submission may start again. -/
def newAttempt (current : Status) : Except Cause Status :=
  if current.isTerminal then .ok pending
  else .error (.statusTransition current.name pending.name)

end Status

end PromptForms
