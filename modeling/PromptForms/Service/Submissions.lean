/-
  PromptForms.Service.Submissions
  ───────────────────────────────
  **MANAGING SUBMISSIONS.**

  A submission is accepted for an active form if its data fits the fields.  The fields
  are stored with it, so that later changes of the form do not change how it is
  processed.  A submission that is being processed is not deleted.

      submit                         accepts data
      list, stats, get, detail       what there is
      delete                         with all outputs
-/
import PromptForms.Run.Runner
import PromptForms.Service.Forms
import PromptForms.Submission.Intake

namespace PromptForms.Submissions

/-- Who submits. -/
structure Sender where
  address : Option String := none
  agent : Option String := none

/-- The most characters of an agent that are kept. -/
def agentLimit : Nat := 500

/-- An agent as far as it is kept; an empty one is none. -/
def keptAgent (agent : Option String) : Option String :=
  match agent with
  | some text => if text.isEmpty then none else some (String.ofList (text.toList.take agentLimit))
  | none => none

/-- The values of submitted data. -/
def valuesOf (fields : List Field) (data : Members) : Except Failure (Dictionary Value) :=
  match Intake.readData fields data with
  | .ok values => .ok values
  | .error (.rejected reasons) => .error (Failure.ofCause (.submissionData reasons))
  | .error .endlessLimit => .error (.outside "OverflowError" Intake.endlessLimitMessage)

/-- Accepts data for a form. -/
def submit (publicId : String) (data : Members) (sender : Sender) : Job SubmissionRow := do
  let form ← Forms.getPublic publicId
  let fields ← Job.ofExcept form.storedFields
  let values ← Job.ofExcept (valuesOf fields data)
  Job.statement fun w =>
    let row : SubmissionRow :=
      { id := w.store.submissions.nextId, formId := form.id, data := Value.allToJson values
        fieldSnapshot := Forms.fieldDocuments fields, ipAddress := sender.address
        userAgent := keptAgent sender.agent, submittedAt := w.now }
    match w.store.insertSubmission row with
    | some store => .ok (row, w.withStore store)
    | none =>
      .error (Failure.ofCause (.entityAlreadyExists "Submission conflicts with an existing row"))

/-- A part of the submissions of a form, the newest first. -/
def list (form : Int) (status : Option Status) (skip limit : Int) : Job (List SubmissionRow) := do
  let _ ← Forms.get form
  Job.read fun w => do
    Store.checkFits skip
    return w.store.submissionsOf form status skip.toNat limit.toNat

/-- The numbers of submissions of a form.  Those of today are counted by a statement of their own. -/
def stats (form : Int) : Job Store.Stats := do
  let _ ← Forms.get form
  let counts ← Job.ask fun w => w.store.statusCounts form
  let completedToday ← Job.ask fun w => w.store.completedSince form w.now.startOfDay
  return .ofCounts counts completedToday

/-- The submission of an id. -/
def get (submission : Int) : Job SubmissionRow := Runner.reload submission

/-- A submission with the outputs of its current attempt. -/
def detail (submission : Int) : Job (SubmissionRow × List OutputRow) := do
  let row ← get submission
  let outputs ← Job.ask fun w => w.store.outputsOfAttempt submission row.attempt
  return (row, outputs)

/-- Deletes a submission with all its outputs. -/
def delete (submission : Int) : Job Unit := do
  let row ← get submission
  if row.status = .processing then Job.fail (.concurrentRun submission)
  Job.statement fun w => .ok ((), w.withStore (w.store.deleteSubmission submission))

end PromptForms.Submissions
