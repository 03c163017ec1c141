/-
  PromptForms.Web.Handle
  ──────────────────────
  **ANSWERING REQUESTS.**

  A request is routed, read as an action, and carried out.  Errors of the program's own
  become answers, each group of kinds with a status of its own; any other failure is
  left to the server.  An answer may leave runs to be started.

      Answer            an answer
      answerOfError     the answer to an error of the program's own
      perform           carries out an action
      handle            answers a request
-/
import PromptForms.Json.Writer
import PromptForms.Web.Action
import PromptForms.Web.View

namespace PromptForms.Web

open Schema

/-! ## §1. Answers. -/

/-- An answer. -/
structure Answer where
  status : Nat
  body : Option Json := none
  /-- Where the request should go instead. -/
  location : Option String := none

/-- An answer with a document; numbers that are not finite are null. -/
def Answer.document (status : Nat) (body : Json) : Answer := { status, body := some body.finiteOnly }

/-- An answer that tells what is wrong. -/
def Answer.detail (status : Nat) (message : String) (more : Members := []) : Answer :=
  .document status (.obj (("detail", .str message) :: more))

/-- A message, or another one in place of an empty message. -/
def orElse (message other : String) : String := if message.isEmpty then other else message

/-- The answer to an error of the program's own; some kinds have none. -/
def answerOfError (e : DomainError) : Option Answer :=
  let kind := e.kind
  if kind.isA .entityNotFound then some (.detail 404 (orElse e.message "Resource not found"))
  else if kind.isA .entityAlreadyExists then
    some (.detail 409 (orElse e.message "Resource already exists"))
  else if kind = .submissionData || kind = .templateVariable then
    some (.detail 422 e.message e.cause.details)
  else if kind.isA .validation then some (.detail 422 (orElse e.message "Validation failed"))
  else if kind.isA .ruleViolation then
    some (.detail 409 (orElse e.message "Business rule violation"))
  else none

/-- The answer to a failure, or the failure itself. -/
def answerOfFailure (failure : Failure) : Except Failure Answer :=
  match failure with
  | .domain e => match answerOfError e with
    | some answer => .ok answer
    | none => .error failure
  | _ => .error failure

/-- The answer to a refused request, or a failure. -/
def answerOfRefusal : Refusal → Except Failure Answer
  | .invalid issues =>
    .ok (.document 422 (.obj [("detail", .arr (issues.map Failure.issueToJson))]))
  | .unreadable => .ok (.detail 400 "There was an error parsing the body")
  | .failed failure => .error failure

/-! ## §2. Carrying out actions. -/

/-- How a request has been handled: the answer or a failure, and the submissions whose runs are
to be started. -/
structure Handled where
  outcome : Except Failure Answer
  dispatched : List Int := []

/-- The version of the program. -/
def version : String := "0.1.0"

/-- A document on its way out; a bad one is no answer. -/
def shown (document : Checked Json) : Job Json :=
  match document.orFail with
  | .ok json => pure json
  | .error (.invalid _) => throw .badAnswer
  | .error failure => throw failure

/-- A list of documents on their way out. -/
def shownAll (documents : List (Checked Json)) : Job Json := do
  return .arr (← documents.mapM shown)

/-- The status of an answer that leaves a run to be started. -/
def Start.status : Start → Nat
  | submit .. => 201
  | rerun _ => 202

/-- The submission whose run is to be started. -/
def startedRow (r : Runner) : Start → Job SubmissionRow
  | .submit token data sender => Submissions.submit token data sender
  | .rerun submission => r.newAttempt submission

/-- Carries out an action. -/
def answer (r : Runner) : Action → Job Answer
  | .createForm draft => do return .document 201 (← shown (formView (← Forms.create draft)))
  | .listForms page => do
    let pairs ← Forms.list page.skip page.limit
    let documents ← Job.ofExcept (pairs.mapM fun pair => (formSummary pair).orFail)
    return .document 200 (.arr documents)
  | .publicForm token => do return .document 200 (← shown (publicForm (← Forms.getPublic token)))
  | .getForm form => do return .document 200 (← shown (formView (← Forms.get form)))
  | .updateForm form patch => do
    return .document 200 (← shown (formView (← Forms.update form patch)))
  | .deleteForm form => do
    Forms.delete form
    return { status := 204 }
  | .getPipeline form => do
    return .document 200 (← shown (pipelineView (← Forms.getPipeline form)))
  | .savePipeline form draft => do
    let (row, warnings) ← Forms.savePipeline form draft
    return .document 200 (← shown (savedPipeline row warnings))
  | .deletePipeline form => do
    Forms.deletePipeline form
    return { status := 204 }
  | .stepVariables form step => do
    let found ← Forms.stepVariables form step
    return .document 200 (listView Template.VariableInfo.toJson found)
  | .listSubmissions form status page => do
    let rows ← Submissions.list form status page.skip page.limit
    return .document 200 (← shownAll (rows.map submissionView))
  | .stats form => do return .document 200 (statsView (← Submissions.stats form))
  | .getSubmission submission => do
    let (row, outputs) ← Submissions.detail submission
    return .document 200 (← Job.ofExcept (submissionDetail row outputs).orFail)
  | .cancel submission => do
    let _ ← Submissions.get submission
    if ← r.cancel submission then
      return .document 200
        (.obj [("message", .str s!"Cancellation requested for submission {submission}")])
    else return .detail 409 s!"Submission {submission} has no active run"
  | .deleteSubmission submission => do
    Submissions.delete submission
    return { status := 204 }
  | .health => return .document 200 (.obj [("status", .str "ok"), ("version", .str version)])
  | .start what => do
    return .document what.status (← shown (submissionView (← startedRow r what)))

/-- The outcome of a job as an answer, if it can be one. -/
def asAnswer (result : Except Failure Answer) : Except Failure Answer :=
  match result with
  | .ok answer => .ok answer
  | .error failure => answerOfFailure failure

/-- Carries out an action.  The run of a submission is to be started even if its row is not good
enough to be shown. -/
def perform (r : Runner) : Action → Plan Handled
  | .start what => do
    match ← (startedRow r what).run with
    | .error failure => return { outcome := answerOfFailure failure }
    | .ok row =>
      let view ← (shown (submissionView row)).run
      return { outcome := asAnswer (view.map (Answer.document what.status)), dispatched := [row.id] }
  | action => do return { outcome := asAnswer (← (answer r action).run) }

/-! ## §3. Handling requests. -/

/-- An address on the server. -/
def addressOf (host path query : String) : String :=
  escaped ("http://" ++ host ++ path ++ (if query.isEmpty then "" else "?" ++ query))

/-- Answers a request. -/
def handle (r : Runner) (q : HttpRequest) : Plan Handled :=
  let target := Target.ofText q.target
  match route q.method target.path with
  | .found endpoint => match readAction q endpoint with
    | .ok action => perform r action
    | .error refusal => return { outcome := answerOfRefusal refusal }
  | .wrongMethod =>
    return { outcome := .ok (withoutBodyForHead (.detail 405 "Method Not Allowed")) }
  | .redirected path =>
    return { outcome := .ok { status := 307, location := some (addressOf q.host path target.query) } }
  | .notFound => return { outcome := .ok (withoutBodyForHead (.detail 404 "Not Found")) }
where
  /-- The answer to a request for the head alone has no body. -/
  withoutBodyForHead (answer : Answer) : Answer :=
    if q.method = "HEAD" then { answer with body := none } else answer

end PromptForms.Web
