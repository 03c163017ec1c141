/-
  PromptForms.Web.View
  ────────────────────
  **WHAT ANSWERS SHOW.**

  An answer shows a row only if the documents in it are still good: fields, steps and
  data are checked again on their way out.

      formView, formSummary, publicForm      forms
      pipelineView, savedPipeline            pipelines
      submissionView, submissionDetail       submissions
      statsView                              numbers of submissions
-/
import PromptForms.Form.Draft
import PromptForms.Store.Basic

namespace PromptForms.Web

open Schema

/-! ## §1. Forms. -/

/-- A point in time. -/
def instantView (t : Calendar.Instant) : Json := .str t.webText

/-- A list of checked elements as a document. -/
def listView {α : Type} (encode : α → Json) (items : List α) : Json := .arr (items.map encode)

/-- The parts of a form that are checked on their way out. -/
def checkForm (row : FormRow) : Checked (List Field) :=
  (fun _ _ fields => fields) <$>
    (boundedText 1 (some 200) (.str row.name)).under "name" <*>
    (orNull (boundedText 0 (some 3000)) (.ofOption .str row.description)).under "description" <*>
    (listOf Field.check row.fields).under "fields"

/-- The members of a form. -/
def formMembers (row : FormRow) (fields : List Field) : Members :=
  [("name", .str row.name), ("description", .ofOption .str row.description),
    ("is_active", .bool row.isActive), ("id", .int row.id), ("public_id", .str row.publicId),
    ("fields", listView Field.toJson fields), ("created_at", instantView row.createdAt),
    ("updated_at", instantView row.updatedAt)]

/-- A form. -/
def formView (row : FormRow) : Checked Json :=
  (fun fields => .obj (formMembers row fields)) <$> checkForm row

/-- A form with its number of submissions. -/
def formSummary (pair : FormRow × Nat) : Checked Json :=
  (fun fields => .obj (formMembers pair.1 fields ++ [("submission_count", .int pair.2)])) <$>
    checkForm pair.1

/-- A form as the public sees it. -/
def publicForm (row : FormRow) : Checked Json :=
  (fun fields => .obj [("public_id", .str row.publicId), ("name", .str row.name),
    ("description", .ofOption .str row.description), ("fields", listView Field.toJson fields)]) <$>
    (listOf Field.check row.fields).under "fields"

/-! ## §2. Pipelines. -/

/-- A pipeline. -/
def pipelineView (row : PipelineRow) : Checked Json :=
  (fun _ steps => .obj [("name", .str row.name), ("is_active", .bool row.isActive),
    ("id", .int row.id), ("form_id", .int row.formId), ("steps", listView Step.toJson steps),
    ("created_at", instantView row.createdAt), ("updated_at", instantView row.updatedAt)]) <$>
    (boundedText 1 (some 200) (.str row.name)).under "name" <*>
    (listOf Step.check row.steps).under "steps"

/-- A saved pipeline with its warnings. -/
def savedPipeline (row : PipelineRow) (warnings : List String) : Checked Json :=
  (fun pipeline => .obj [("pipeline", pipeline), ("warnings", .texts warnings)]) <$>
    pipelineView row

/-! ## §3. Submissions. -/

/-- The members of a submission. -/
def submissionMembers (row : SubmissionRow) (data : Members) : Members :=
  [("id", .int row.id), ("form_id", .int row.formId), ("data", .obj data),
    ("status", .str row.status.name), ("error_message", .ofOption .str row.errorMessage),
    ("attempt", .int row.attempt), ("submitted_at", instantView row.submittedAt),
    ("processed_at", .ofOption instantView row.processedAt)]

/-- A submission. -/
def submissionView (row : SubmissionRow) : Checked Json :=
  (fun data => .obj (submissionMembers row data)) <$> (dictionary row.data).under "data"

/-- An output. -/
def outputView (row : OutputRow) : Json :=
  .obj [("id", .int row.id), ("submission_id", .int row.submissionId),
    ("attempt", .int row.attempt), ("step_number", .int row.stepNumber),
    ("step_name", .str row.stepName), ("prompt", .str row.prompt), ("output", .str row.output),
    ("token_count", .ofOption .int row.tokenCount), ("duration", .ofOption .int row.duration),
    ("model", .ofOption .str row.model), ("executed_at", instantView row.executedAt)]

/-- A submission with the outputs of its attempt. -/
def submissionDetail (row : SubmissionRow) (outputs : List OutputRow) : Checked Json :=
  (fun data => .obj (submissionMembers row data ++ [("outputs", listView outputView outputs)])) <$>
    (dictionary row.data).under "data"

/-- Numbers of submissions. -/
def statsView (s : Store.Stats) : Json :=
  .obj [("total", .int s.total), ("pending", .int s.pending), ("processing", .int s.processing),
    ("completed", .int s.completed), ("failed", .int s.failed),
    ("completed_today", .int s.completedToday)]

end PromptForms.Web
