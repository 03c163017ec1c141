/-
  PromptForms.Failure
  ───────────────────
  **HOW OPERATIONS FAIL.**

  The program's own errors have a cause, and the cause fixes their kind, their wording
  and what else a client may read from them.  Kinds form groups, so that a whole group
  can be answered in one way.  An operation may also fail because a document is
  invalid, because the store refuses a statement, or with an error of its surroundings.

      Cause, Kind     the program's own errors
      DomainError     a cause, perhaps worded anew
      Failure         everything that ends an operation
      Failure.toJson  the document of a failure
-/
import PromptForms.Schema.Checked

namespace PromptForms

/-! ## §1. Causes and kinds. -/

/-- The kinds of the program's own errors. -/
inductive Kind where
  | any | entityNotFound | entityAlreadyExists | validation | ruleViolation
  | formNotFound | formInactive | formField | pipelineNotFound | templateVariable
  | pipelineConfiguration | submissionNotFound | submissionData | statusTransition
  | concurrentRun | unresolvedVariable | generation | step
  deriving DecidableEq, Repr

namespace Kind

/-- The name of a kind. -/
def name : Kind → String
  | any => "FormchainError"
  | entityNotFound => "EntityNotFoundError"
  | entityAlreadyExists => "EntityAlreadyExistsError"
  | validation => "ValidationError"
  | ruleViolation => "BusinessRuleViolationError"
  | formNotFound => "FormNotFoundError"
  | formInactive => "FormInactiveError"
  | formField => "FormFieldError"
  | pipelineNotFound => "PipelineNotFoundError"
  | templateVariable => "TemplateVariableError"
  | pipelineConfiguration => "PipelineConfigurationError"
  | submissionNotFound => "SubmissionNotFoundError"
  | submissionData => "SubmissionValidationError"
  | statusTransition => "InvalidStatusTransitionError"
  | concurrentRun => "ConcurrentRunConflictError"
  | unresolvedVariable => "UnresolvedVariableError"
  | generation => "GenerationFailure"
  | step => "StepFailure"

/-- The group that a kind belongs to, if it is not directly under `any`. -/
def group? : Kind → Option Kind
  | formNotFound | pipelineNotFound | submissionNotFound => some entityNotFound
  | formField | templateVariable | submissionData => some validation
  | formInactive | statusTransition | concurrentRun => some ruleViolation
  | _ => none

/-- The kind itself, its group, and the kind of every error. -/
def ancestors (k : Kind) : List Kind :=
  k :: k.group?.toList ++ (if k = any then [] else [any])

/-- Is a kind another one or in its group? -/
def isA (k other : Kind) : Bool := k.ancestors.contains other

end Kind

/-- Why the program refuses or gives up an operation. -/
inductive Cause where
  /-- An error of a general kind with its wording. -/
  | general (message : String)
  | entityNotFound (message : String)
  | entityAlreadyExists (message : String)
  | validation (message : String)
  | ruleViolation (message : String)
  /-- No form has the id or public id. -/
  | formNotFound (form : String)
  | formInactive (form : Int)
  | formField (message : String)
  | pipelineNotFound (form : Int)
  | templateVariable (step : Int) (variableName reason : String)
  | pipelineConfiguration (message : String)
  | submissionNotFound (id : Int)
  | submissionData (reasons : Dictionary String)
  | statusTransition (current target : String)
  | concurrentRun (submission : Int)
  | unresolvedVariable (names : List String)
  | generation (message : String)
  | step (number : Int) (cause : String)
  deriving DecidableEq, Repr

namespace Cause

/-- The kind of a cause. -/
def kind : Cause → Kind
  | general _ => .any
  | entityNotFound _ => .entityNotFound
  | entityAlreadyExists _ => .entityAlreadyExists
  | validation _ => .validation
  | ruleViolation _ => .ruleViolation
  | formNotFound _ => .formNotFound
  | formInactive _ => .formInactive
  | formField _ => .formField
  | pipelineNotFound _ => .pipelineNotFound
  | templateVariable .. => .templateVariable
  | pipelineConfiguration _ => .pipelineConfiguration
  | submissionNotFound _ => .submissionNotFound
  | submissionData _ => .submissionData
  | statusTransition .. => .statusTransition
  | concurrentRun _ => .concurrentRun
  | unresolvedVariable _ => .unresolvedVariable
  | generation _ => .generation
  | step .. => .step

/-- The wording of a cause. -/
def message : Cause → String
  | general m | entityNotFound m | entityAlreadyExists m | validation m | ruleViolation m => m
  | formNotFound form => s!"Form '{form}' not found"
  | formInactive form => s!"Form {form} is not accepting submissions"
  | formField m => m
  | pipelineNotFound form => s!"Pipeline for form {form} not found"
  | templateVariable number name reason => s!"Step {number}: variable '\x7b{name}\x7d' {reason}"
  | pipelineConfiguration m => m
  | submissionNotFound id => s!"Submission with ID {id} not found"
  | submissionData reasons =>
    "Submission data is invalid: " ++
      "; ".intercalate (reasons.map fun pair => s!"{pair.1}: {pair.2}")
  | statusTransition current target => s!"Cannot move submission from '{current}' to '{target}'"
  | concurrentRun id => s!"Submission {id} already has an active pipeline run"
  | unresolvedVariable names =>
    "Unresolved template variables: " ++
      ", ".intercalate (names.map fun name => s!"\x7b{name}\x7d")
  | generation m => m
  | step number cause => s!"Step {number} failed: {cause}"

/-- What a client may read from an error besides its wording. -/
def details : Cause → Members
  | templateVariable number name _ => [("step_number", .int number), ("variable", .str name)]
  | submissionData reasons => [("errors", .obj (reasons.map fun pair => (pair.1, .str pair.2)))]
  | statusTransition current target => [("current", .str current), ("target", .str target)]
  | concurrentRun id => [("submission_id", .int id)]
  | unresolvedVariable names => [("names", .texts names)]
  | step number cause => [("step_number", .int number), ("cause", .str cause)]
  | _ => []

end Cause

/-! ## §2. Domain errors. -/

/-- A cause, with another wording in place of its own if one is given. -/
structure DomainError where
  cause : Cause
  wording : Option String := none
  deriving DecidableEq, Repr

namespace DomainError

/-- The kind of an error. -/
def kind (e : DomainError) : Kind := e.cause.kind

/-- The wording of an error. -/
def message (e : DomainError) : String := e.wording.getD e.cause.message

/-- The same error worded anew; what a client may read from it stays. -/
def withContext (e : DomainError) (detail : String) : DomainError :=
  { e with wording := some detail }

end DomainError

/-! ## §3. Failures. -/

/-- Why the store refuses a statement. -/
inductive StoreFault where
  /-- A constraint on the rows would not hold. -/
  | integrity
  /-- The statement cannot be carried out. -/
  | operational
  /-- A value does not fit its column. -/
  | statement
  /-- Another fault, by name. -/
  | other (name : String)
  deriving DecidableEq, Repr

/-- The name of a fault of the store. -/
def StoreFault.name : StoreFault → String
  | integrity => "IntegrityError"
  | operational => "OperationalError"
  | statement => "StatementError"
  | other name => name

/-- What ends an operation. -/
inductive Failure where
  | domain (error : DomainError)
  /-- A document does not fit its schema. -/
  | invalid (issues : List Schema.Issue)
  /-- An answer does not fit its own schema. -/
  | badAnswer
  | store (fault : StoreFault)
  /-- An error of the surroundings, by name and wording. -/
  | outside (name message : String)
  /-- The operation was interrupted from outside. -/
  | interrupted
  deriving DecidableEq, Repr

namespace Failure

/-- One of the program's own errors. -/
def ofCause (cause : Cause) : Failure := .domain ⟨cause, none⟩

/-- The name of a failure. -/
def name : Failure → String
  | domain e => e.kind.name
  | invalid _ => "ValidationError"
  | badAnswer => "ResponseValidationError"
  | store fault => fault.name
  | outside name _ => name
  | interrupted => "CancelledError"

/-- The document of an issue. -/
def issueToJson (issue : Schema.Issue) : Json :=
  .obj [("loc", .texts issue.path), ("type", .str issue.fault.kind),
    ("msg", .str issue.fault.message)]

/-- The document of a failure. -/
def toJson (f : Failure) : Json :=
  .obj (("error", .str f.name) :: match f with
    | domain e => ("message", .str e.message) :: e.cause.details
    | invalid issues => [("issues", .arr (issues.map issueToJson))]
    | outside _ message => [("message", .str message)]
    | badAnswer | store _ | interrupted => [])

end Failure

/-- The meaning of a document, or the failure that its issues are.  A number that is too large
for what it counts ends the operation on its own. -/
def Schema.Checked.orFail {α : Type} : Schema.Checked α → Except Failure α
  | good a => .ok a
  | bad first more =>
    let tooLarge? := (first :: more).findSome? fun issue => match issue.fault with
      | .beyondRange reason => some reason
      | _ => none
    .error (match tooLarge? with
      | some reason => .outside "OverflowError" reason
      | none => .invalid (first :: more))

end PromptForms
