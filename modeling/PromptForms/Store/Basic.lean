/-
  PromptForms.Store.Basic
  ───────────────────────
  **THE STORE.**

  The store keeps the rows and what must hold of them: ids are unique, so are the public
  ids of forms, a form has one pipeline, and a step has one output per attempt of a
  submission.  A form may be deleted under its rows; nothing else ties rows together.

      Store                     the tables
      insert…                   adds a row unless a constraint forbids it
      compareAndSet             changes a submission if it has one of some statuses
      deleteForm, deleteSubmission    delete with everything that depends
-/
import PromptForms.Store.Row

namespace PromptForms

open Calendar (Instant)

/-- All tables. -/
structure Store where
  forms : Table FormRow := []
  pipelines : Table PipelineRow := []
  submissions : Table SubmissionRow := []
  outputs : Table OutputRow := []

namespace Store

/-! ## §1. Numbers that columns hold. -/

/-- Does a number fit an integer column? -/
def fits (i : Int) : Bool := -0x8000000000000000 ≤ i && i < 0x8000000000000000

/-- The failure of a number that does not fit. -/
def tooLarge : Failure :=
  .outside "OverflowError" "Python int too large to convert to SQLite INTEGER"

/-- Refuses a number that does not fit. -/
def checkFits (i : Int) : Except Failure Unit := if fits i then .ok () else .error tooLarge

/-! ## §2. Forms. -/

/-- The form of a public id. -/
def formByToken? (s : Store) (publicId : String) : Option FormRow :=
  s.forms.find? fun f => f.publicId == publicId

/-- Adds a form unless its id or public id is taken. -/
def insertForm (s : Store) (row : FormRow) : Option Store :=
  if s.forms.any fun f => f.id == row.id || f.publicId == row.publicId then none
  else some { s with forms := s.forms.insert row }

theorem eq_of_insertForm {s s' : Store} {row : FormRow} (h : s.insertForm row = some s') :
    s' = { s with forms := s.forms.insert row } := by
  unfold insertForm at h
  split at h <;> cases h
  rfl

/-- The forms with their numbers of submissions, the newest first.  A form without submissions has no
group among the numbers. -/
def formsWithCounts (s : Store) (skip limit : Nat) : List (FormRow × Nat) :=
  let counts := Query.tally (·.formId) s.submissions
  let joined := Query.outerJoin (fun f count => count.1 == f.id) s.forms counts
  let pairs := joined.map fun pair => (pair.1, (pair.2.map (·.2)).getD 0)
  Query.page skip limit
    (pairs.mergeSort fun a b => b.1.createdAt.micros ≤ a.1.createdAt.micros)

/-- A submission of a form that is being processed. -/
def processingOf? (s : Store) (form : Int) : Option Int :=
  (s.submissions.find? fun r => r.formId == form && r.status == .processing).map (·.id)

/-- Deletes a form with its pipeline, its submissions and their outputs. -/
def deleteForm (s : Store) (form : Int) : Store :=
  -- The outputs go by the submissions that they belong to; they do not name their form.
  let gone := (s.submissions.filter fun r => r.formId == form).map (·.id)
  { forms := s.forms.remove fun f => f.id == form
    pipelines := s.pipelines.remove fun p => p.formId == form
    submissions := s.submissions.remove fun r => r.formId == form
    outputs := s.outputs.remove fun o => gone.contains o.submissionId }

/-! ## §3. Pipelines. -/

/-- The pipeline of a form. -/
def pipelineOf? (s : Store) (form : Int) : Option PipelineRow :=
  s.pipelines.find? fun p => p.formId == form

/-- The steps of the pipeline of a form, in the order in which they are stored; none if it has no
active pipeline. -/
def activeSteps (s : Store) (form : Int) : Except Failure (List Step) :=
  match s.pipelineOf? form with
  | some pipeline => if pipeline.isActive then pipeline.storedSteps else .ok []
  | none => .ok []

/-- Adds a pipeline unless its id is taken or its form has one. -/
def insertPipeline (s : Store) (row : PipelineRow) : Option Store :=
  if s.pipelines.any fun p => p.id == row.id || p.formId == row.formId then none
  else some { s with pipelines := s.pipelines.insert row }

theorem eq_of_insertPipeline {s s' : Store} {row : PipelineRow}
    (h : s.insertPipeline row = some s') : s' = { s with pipelines := s.pipelines.insert row } := by
  unfold insertPipeline at h
  split at h <;> cases h
  rfl

/-! ## §4. Submissions. -/

/-- The submission of an id. -/
def submission (s : Store) (id : Int) : Except Failure SubmissionRow := do
  checkFits id
  match s.submissions.get? id with
  | some row => .ok row
  | none => .error (Failure.ofCause (.submissionNotFound id))

/-- Adds a submission unless its id is taken. -/
def insertSubmission (s : Store) (row : SubmissionRow) : Option Store :=
  if s.submissions.any fun r => r.id == row.id then none
  else some { s with submissions := s.submissions.insert row }

theorem eq_of_insertSubmission {s s' : Store} {row : SubmissionRow}
    (h : s.insertSubmission row = some s') :
    s' = { s with submissions := s.submissions.insert row } := by
  unfold insertSubmission at h
  split at h <;> cases h
  rfl

/-- The submissions of a form, perhaps of one status only, the newest first. -/
def submissionsOf (s : Store) (form : Int) (status : Option Status) (skip limit : Nat) :
    List SubmissionRow :=
  let chosen := s.submissions.filter fun r => r.formId == form && status.all (r.status == ·)
  let newestFirst := chosen.mergeSort fun a b =>
    b.submittedAt.micros < a.submittedAt.micros ||
      (a.submittedAt.micros == b.submittedAt.micros && b.id ≤ a.id)
  Query.page skip limit newestFirst

/-- Changes a submission if it has one of the expected statuses, and says whether it did.  The
test and the change are one statement: of two attempts to leave a status only one succeeds. -/
def compareAndSet (s : Store) (id : Int) (expected : List Status)
    (change : SubmissionRow → SubmissionRow) : Bool × Store :=
  match s.submissions.get? id with
  | some row =>
    if expected.contains row.status then
      (true, { s with submissions := s.submissions.replace id change })
    else (false, s)
  | none => (false, s)

/-- Deletes a submission with its outputs. -/
def deleteSubmission (s : Store) (id : Int) : Store :=
  { s with
    submissions := s.submissions.remove fun r => r.id == id
    outputs := s.outputs.remove fun o => o.submissionId == id }

/-- Numbers of submissions. -/
structure Stats where
  total : Nat
  pending : Nat
  processing : Nat
  completed : Nat
  failed : Nat
  /-- Completed since the midnight before. -/
  completedToday : Nat
  deriving DecidableEq, Repr

/-- The numbers of submissions of a form by status; a status that none has is left out. -/
def statusCounts (s : Store) (form : Int) : List (Status × Nat) :=
  Query.tally (·.status) (s.submissions.filter fun r => r.formId == form)

/-- The number of completed submissions of a form that were processed at a point in time or later. -/
def completedSince (s : Store) (form : Int) (t : Instant) : Nat :=
  s.submissions.countP fun r =>
    r.formId == form && r.status == .completed &&
      r.processedAt.any fun processed => t.micros ≤ processed.micros

/-- The numbers of submissions of a form, given the numbers by status. -/
def Stats.ofCounts (counts : List (Status × Nat)) (completedToday : Nat) : Stats :=
  let count (status : Status) : Nat := (counts.lookup status).getD 0
  { total := Query.total counts, pending := count .pending, processing := count .processing
    completed := count .completed, failed := count .failed, completedToday }

/-! ## §5. Outputs. -/

/-- Adds an output unless its id is taken or its step has one in its attempt. -/
def insertOutput (s : Store) (row : OutputRow) : Option Store :=
  if s.outputs.any fun o => o.id == row.id ||
      (o.submissionId == row.submissionId && o.attempt == row.attempt &&
        o.stepNumber == row.stepNumber) then none
  else some { s with outputs := s.outputs.insert row }

theorem eq_of_insertOutput {s s' : Store} {row : OutputRow} (h : s.insertOutput row = some s') :
    s' = { s with outputs := s.outputs.insert row } := by
  unfold insertOutput at h
  split at h <;> cases h
  rfl

/-- The outputs of one attempt in the order of the steps. -/
def outputsOfAttempt (s : Store) (submission attempt : Int) : List OutputRow :=
  (s.outputs.filter fun o => o.submissionId == submission && o.attempt == attempt).mergeSort
    fun a b => a.stepNumber ≤ b.stepNumber

/-- The outputs of all attempts in their order, and in the order of the steps. -/
def outputsOf (s : Store) (submission : Int) : List OutputRow :=
  (s.outputs.filter fun o => o.submissionId == submission).mergeSort fun a b =>
    a.attempt < b.attempt || (a.attempt == b.attempt && a.stepNumber ≤ b.stepNumber)

end Store

end PromptForms
