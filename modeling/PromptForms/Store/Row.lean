/-
  PromptForms.Store.Row
  ─────────────────────
  **ROWS.**

  Four kinds of rows are stored: forms, their pipelines, submissions, and the outputs of
  the steps that ran over them.  Fields, steps, submitted values and snapshots are
  stored as documents and are checked when they are used, not when they are written.

      FormRow, PipelineRow, SubmissionRow, OutputRow
      columns                the document of a row: every column by name
      storedFields, storedSteps, storedValues    what the documents of a row mean
-/
import PromptForms.Calendar.Instant
import PromptForms.Form.Field
import PromptForms.Pipeline.Step
import PromptForms.Store.Table
import PromptForms.Submission.Status
import PromptForms.Submission.Value

namespace PromptForms

open Calendar (Instant)

/-! ## §1. The kinds of rows. -/

/-- A form. -/
structure FormRow where
  id : Int
  name : String
  description : Option String := none
  isActive : Bool := true
  /-- The token by which the public reaches the form. -/
  publicId : String
  fields : Json := .arr []
  createdAt : Instant
  updatedAt : Instant

/-- The pipeline of a form. -/
structure PipelineRow where
  id : Int
  formId : Int
  name : String := "Pipeline"
  isActive : Bool := true
  steps : Json := .arr []
  createdAt : Instant
  updatedAt : Instant

/-- A submission and how far it has been processed. -/
structure SubmissionRow where
  id : Int
  formId : Int
  data : Json := .obj []
  /-- The fields of the form when the submission was accepted; null if they are not known. -/
  fieldSnapshot : Json := .null
  status : Status := .pending
  errorMessage : Option String := none
  attempt : Int := 1
  ipAddress : Option String := none
  userAgent : Option String := none
  submittedAt : Instant
  processedAt : Option Instant := none

/-- The output of one step in one attempt. -/
structure OutputRow where
  id : Int
  submissionId : Int
  attempt : Int := 1
  stepNumber : Int
  stepName : String
  prompt : String
  output : String
  tokenCount : Option Int := none
  /-- In milliseconds. -/
  duration : Option Int := none
  model : Option String := none
  executedAt : Instant

instance : HasId FormRow := ⟨FormRow.id⟩
instance : HasId PipelineRow := ⟨PipelineRow.id⟩
instance : HasId SubmissionRow := ⟨SubmissionRow.id⟩
instance : HasId OutputRow := ⟨OutputRow.id⟩

/-! ## §2. Columns. -/

/-- A point in time in a column. -/
def instantColumn (t : Instant) : Json := .str t.rowText

/-- The columns of a form. -/
def FormRow.columns (r : FormRow) : Members :=
  [("name", .str r.name), ("description", .ofOption .str r.description),
    ("is_active", .bool r.isActive), ("id", .int r.id), ("public_id", .str r.publicId),
    ("fields", r.fields), ("created_at", instantColumn r.createdAt),
    ("updated_at", instantColumn r.updatedAt)]

/-- The columns of a pipeline. -/
def PipelineRow.columns (r : PipelineRow) : Members :=
  [("name", .str r.name), ("is_active", .bool r.isActive), ("id", .int r.id),
    ("form_id", .int r.formId), ("steps", r.steps), ("created_at", instantColumn r.createdAt),
    ("updated_at", instantColumn r.updatedAt)]

/-- The columns of a submission. -/
def SubmissionRow.columns (r : SubmissionRow) : Members :=
  [("id", .int r.id), ("form_id", .int r.formId), ("data", r.data),
    ("field_snapshot", r.fieldSnapshot), ("status", .str r.status.name),
    ("error_message", .ofOption .str r.errorMessage), ("attempt", .int r.attempt),
    ("ip_address", .ofOption .str r.ipAddress), ("user_agent", .ofOption .str r.userAgent),
    ("submitted_at", instantColumn r.submittedAt),
    ("processed_at", .ofOption instantColumn r.processedAt)]

/-- The columns of an output. -/
def OutputRow.columns (r : OutputRow) : Members :=
  [("id", .int r.id), ("submission_id", .int r.submissionId), ("attempt", .int r.attempt),
    ("step_number", .int r.stepNumber), ("step_name", .str r.stepName), ("prompt", .str r.prompt),
    ("output", .str r.output), ("token_count", .ofOption .int r.tokenCount),
    ("duration", .ofOption .int r.duration), ("model", .ofOption .str r.model),
    ("executed_at", instantColumn r.executedAt)]

/-! ## §3. What stored documents mean. -/

/-- The word for the type of a value in messages about misuse. -/
def Json.typeWord : Json → String
  | .null => "NoneType"
  | .bool _ => "bool"
  | .int _ => "int"
  | .real _ => "float"
  | .str _ => "str"
  | .arr _ => "list"
  | .obj _ => "dict"

/-- The elements of a document: the items of a list, the names of an object, the characters of a
text. -/
def Json.elements : Json → Except Failure (List Json)
  | .arr items => .ok items
  | .obj members => .ok (members.map fun pair => .str pair.1)
  | .str s => .ok (s.toList.map fun c => .str (String.ofList [c]))
  | value => .error (.outside "TypeError" s!"'{value.typeWord}' object is not iterable")

/-- Checks the elements of a document one after the other, up to the first bad one. -/
def checkElements {α : Type} (check : Json → Schema.Checked α) (document : Json) :
    Except Failure (List α) :=
  document.elements.bind fun items => items.mapM fun item => (check item).orFail

/-- The same for a document that may be empty or null. -/
def checkElementsIfAny {α : Type} (check : Json → Schema.Checked α) (document : Json) :
    Except Failure (List α) :=
  if document.truthy then checkElements check document else .ok []

/-- The fields of a form. -/
def FormRow.storedFields (r : FormRow) : Except Failure (List Field) :=
  checkElementsIfAny Field.check r.fields

/-- The steps of a pipeline, in the order in which they are stored. -/
def PipelineRow.storedSteps (r : PipelineRow) : Except Failure (List Step) :=
  checkElementsIfAny Step.check r.steps

/-- The fields with which a submission was accepted, if they are known. -/
def SubmissionRow.storedFields (r : SubmissionRow) : Except Failure (Option (List Field)) :=
  match r.fieldSnapshot with
  | .null => .ok none
  | document => (checkElements Field.check document).map some

/-- The values of a submission. -/
def SubmissionRow.storedValues (r : SubmissionRow) : Except Failure (Dictionary Value) :=
  if r.data.truthy then
    match r.data with
    | .obj members => (Value.checkAll members).orFail
    | other => .error (.outside "AttributeError" s!"'{other.typeWord}' object has no attribute 'items'")
  else .ok []

end PromptForms
