/-
  PromptForms.Run.Runner
  ──────────────────────
  **RUNS.**

  A run takes a pending submission through the steps of its form's pipeline to a status
  that ends the attempt.  It is claimed twice: first in the registry of its process, then
  in the store, by the one statement that leaves `pending`.  Each output is stored as
  soon as it is produced, so a run that breaks off leaves the outputs of its first steps.

      run           runs a pending submission
      newAttempt    makes a finished submission pending again
      rerun         both, one after the other
      cancel        asks the active run of a submission to stop
-/
import PromptForms.Run.Execute

namespace PromptForms

namespace SubmissionRow

/-- A submission that moves on from `pending`. -/
def movedOn (row : SubmissionRow) (target : Status) (now : Calendar.Instant) : SubmissionRow :=
  { row with
    status := target
    processedAt := if target.isTerminal then some now else row.processedAt }

/-- A submission whose attempt is ended. -/
def settled (row : SubmissionRow) (target : Status) (message : Option String)
    (now : Calendar.Instant) : SubmissionRow :=
  { row with status := target, errorMessage := message, processedAt := some now }

/-- A submission under its next attempt. -/
def restarted (row : SubmissionRow) (target : Status) : SubmissionRow :=
  { row with
    status := target, attempt := row.attempt + 1, errorMessage := none, processedAt := none }

end SubmissionRow

/-- What runs in one process. -/
structure Runner where
  process : Nat
  executor : Executor

namespace Runner

/-! ## §1. The registry of the process. -/

/-- Takes the slot of a submission; the answer is the number of the run. -/
def claimSlot (r : Runner) (submission : Int) : Job Nat :=
  Job.inMemory fun w => match (w.registries r.process).start submission with
    | .ok (run, registry) => .ok (run, w.withRegistry r.process registry)
    | .error cause => .error (Failure.ofCause cause)

/-- Frees the slot of a submission. -/
def freeSlot (r : Runner) (submission : Int) : Job Unit :=
  Job.inMemory fun w =>
    .ok ((), w.withRegistry r.process ((w.registries r.process).finish submission))

/-- Has the run been asked to stop? -/
def isCancelled (r : Runner) (run : Nat) : Job Bool :=
  Job.readMemory fun w => (w.registries r.process).isCancelled run

/-- Asks the active run of a submission to stop, and says whether there is one. -/
def cancel (r : Runner) (submission : Int) : Job Bool :=
  Job.inMemory fun w =>
    let (found, registry) := (w.registries r.process).cancel submission
    .ok (found, w.withRegistry r.process registry)

/-! ## §2. The row of a submission. -/

/-- The row of a submission as it is now. -/
def reload (submission : Int) : Job SubmissionRow :=
  Job.read fun w => w.store.submission submission

/-- Changes a submission if it has one of the expected statuses. -/
def compareAndSet (submission : Int) (expected : List Status)
    (change : Calendar.Instant → SubmissionRow → SubmissionRow) : Job Bool :=
  Job.statement fun w =>
    let (moved, store) := w.store.compareAndSet submission expected (change w.now)
    .ok (moved, w.withStore store)

/-- Moves a pending submission on, or reports a conflict. -/
def leavePending (submission : Int) (target : Status) : Job Unit := do
  let moved ← compareAndSet submission [.pending] fun now row => row.movedOn target now
  if !moved then Job.fail (.concurrentRun submission)

/-- Ends the attempt of a submission that is being processed.  A submission that has left that
status in the meantime stays as it is. -/
def finish (submission : Int) (target : Status) (message : Option String) : Job SubmissionRow := do
  let _ ← compareAndSet submission [.processing] fun now row => row.settled target message now
  reload submission

/-! ## §3. Steps. -/

/-- The row of the output of a step. -/
def outputRow (row : SubmissionRow) (result : StepResult) (id : Int) (now : Calendar.Instant) :
    OutputRow :=
  { id, submissionId := row.id, attempt := row.attempt, stepNumber := result.number
    stepName := result.name, prompt := result.prompt, output := result.output
    tokenCount := result.tokenCount, duration := some result.duration
    model := some result.model, executedAt := now }

/-- The wording for a row that a constraint forbids. -/
def conflictMessage (kindOfRow : String) : String := s!"{kindOfRow} conflicts with an existing row"

/-- Stores the output of a step. -/
def storeOutput (row : SubmissionRow) (result : StepResult) : Job Unit :=
  Job.statement fun w => do
    w.checkOutage
    Store.checkFits (result.tokenCount.getD 0)
    Store.checkFits result.duration
    match w.store.insertOutput (outputRow row result w.store.outputs.nextId w.now) with
    | some store => .ok ((), w.withStore store)
    | none => .error (Failure.ofCause (.entityAlreadyExists (conflictMessage "StepOutput")))

/-- How a step that failed or was not reached is named in the message of a submission. -/
def stepTitle (step : Step) : String := s!"{step.number} ({step.name})"

/-- Runs the remaining steps.  A request to stop is heeded before each step and right after it;
what a step produced while it came in is thrown away. -/
def runSteps (r : Runner) (row : SubmissionRow) (run : Nat) (fields : List Field)
    (values : Dictionary Value) (produced : List Template.Output) : List Step → Job SubmissionRow
  | [] => finish row.id .completed none
  | step :: rest => do
    if ← r.isCancelled run then
      finish row.id .failed (some s!"Run cancelled before step {stepTitle step}")
    else
      let outcome ← Job.outcome
        (r.executor.execute step (Template.context fields values produced step.number))
      match outcome with
      -- An interruption is nobody's failure, and it leaves the run at once.
      | .error .interrupted => throw .interrupted
      | outcome =>
        if ← r.isCancelled run then
          finish row.id .failed (some s!"Run cancelled during step {stepTitle step}")
        else match outcome with
          | .ok result => do
            storeOutput row result
            r.runSteps row run fields values (produced ++ [⟨step.number, result.output⟩]) rest
          -- Only the failure of the step itself is recorded as one; any other breaks the run off.
          | .error (.domain ⟨.step _ cause, _⟩) =>
            finish row.id .failed (some s!"Step {stepTitle step} failed: {cause}")
          | .error failure => throw failure

/-- The fields with which a submission was accepted, or else those that its form has now. -/
def fieldsFor (row : SubmissionRow) : Job (List Field) := do
  match ← Job.ofExcept row.storedFields with
  | some fields => return fields
  | none =>
    Job.read fun w => do
      w.checkOutage
      Store.checkFits row.formId
      match w.store.forms.get? row.formId with
      | some form => form.storedFields
      | none => .error (Failure.ofCause (.formNotFound (toString row.formId)))

/-- Runs all steps. -/
def runAllSteps (r : Runner) (row : SubmissionRow) (run : Nat) (steps : List Step) :
    Job SubmissionRow := do
  let fields ← fieldsFor row
  let values ← Job.ofExcept row.storedValues
  r.runSteps row run fields values [] steps

/-! ## §4. Runs. -/

/-- The steps of the pipeline of a form; none if it has no active pipeline. -/
def stepsFor (form : Int) : Job (List Step) := Job.read fun w => w.store.activeSteps form

/-- What a run that breaks off leaves behind: the submission has failed, and the failure goes
on. -/
def breakOff (submission : Int) : Failure → Job SubmissionRow
  | .interrupted => do
    let _ ← finish submission .failed (some "Run interrupted")
    throw .interrupted
  | failure => do
    -- What goes wrong while the failure is recorded gives way to the failure itself.
    let _ ← Job.outcome do
      let _ ← reload submission
      finish submission .failed (some s!"Run aborted: {failure.name}")
    throw failure

/-- A run that holds the slot of its submission. -/
def runClaimed (r : Runner) (submission : Int) (run : Nat) : Job SubmissionRow := do
  let row ← reload submission
  if row.status = .processing then Job.fail (.concurrentRun submission)
  let steps ← stepsFor row.formId
  if steps.isEmpty then
    -- There is nothing to do, so the submission is never seen being processed.
    let target ← Job.ofCauses (row.status.transition .completed)
    leavePending submission target
    reload submission
  else
    let target ← Job.ofCauses (row.status.transition .processing)
    leavePending submission target
    -- The numbers are looked at only now: a pipeline that is out of order fails the submission.
    match checkDense steps with
    | .error e => do
      let message := s!"Pipeline configuration error: {e.message}"
      let _ ← finish submission .failed (some message)
      Job.fail (.pipelineConfiguration message)
    | .ok ordered => do
      match ← Job.outcome (r.runAllSteps row run ordered) with
      | .ok final => return final
      | .error failure => breakOff submission failure

/-- Runs a pending submission to the end of its attempt. -/
def run (r : Runner) (submission : Int) : Job SubmissionRow := do
  let number ← r.claimSlot submission
  (r.runClaimed submission number).andFinally (r.freeSlot submission)

/-! ## §5. New attempts. -/

/-- Makes a finished submission pending under the next attempt; the outputs of earlier attempts
stay. -/
def newAttempt (r : Runner) (submission : Int) : Job SubmissionRow := do
  if ← Job.readMemory fun w => (w.registries r.process).isActive submission then
    Job.fail (.concurrentRun submission)
  let row ← reload submission
  if row.status = .processing then Job.fail (.concurrentRun submission)
  let target ← Job.ofCauses row.status.newAttempt
  let moved ← compareAndSet submission [.completed, .failed] fun _ row => row.restarted target
  if !moved then Job.fail (.concurrentRun submission)
  reload submission

/-- A new attempt, run from its first step. -/
def rerun (r : Runner) (submission : Int) : Job SubmissionRow := do
  let _ ← r.newAttempt submission
  r.run submission

/-- A run whose failure nobody waits for; what there is to know of it is in the submission. -/
def runUnattended (r : Runner) (submission : Int) : Job (Except Failure SubmissionRow) :=
  Job.outcome (r.run submission)

end Runner

end PromptForms
