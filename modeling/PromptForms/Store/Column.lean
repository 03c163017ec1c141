/-
  PromptForms.Store.Column
  ────────────────────────
  **ROWS BY COLUMNS.**

  Rows can also be written and found by the names of their columns.  A new row takes the
  default of every column that is not given.  A document is stored as it is; any other
  value has to fit its column, and null fits only some of them.

      RowKind               the tables by name
      createRow, updateRow, deleteRow, getRow, findRow
      allRows               everything that is stored
-/
import PromptForms.Run.Runner
import PromptForms.Service.Forms

namespace PromptForms.Columns

open Calendar (Instant)

/-! ## §1. Reading columns. -/

/-- The value of a column; null if it is absent. -/
def valueOf (m : Members) (name : String) : Json := (m.lookup name).getD .null

/-- A column that may be null. -/
def orNull {α : Type} (read : Json → Except Failure α) : Json → Except Failure (Option α)
  | .null => .ok none
  | value => (read value).map some

/-- A column that may not be null. -/
def notNull {α : Type} (read : Json → Except Failure α) : Json → Except Failure α
  | .null => .error (.store .integrity)
  | value => read value

/-- A text; a number becomes one. -/
def text : Json → Except Failure String
  | .str s => .ok s
  | .int i => .ok (toString i)
  | .real x => .ok x.shortest
  | .bool b => .ok (if b then "1" else "0")
  | _ => .error (.store .statement)

/-- An integer. -/
def int : Json → Except Failure Int
  | .int i => (Store.checkFits i).map fun _ => i
  | .bool b => .ok (if b then 1 else 0)
  | _ => .error (.store .statement)

/-- A truth value. -/
def bool : Json → Except Failure Bool
  | .bool b => .ok b
  | .int 0 => .ok false
  | .int 1 => .ok true
  | _ => .error (.store .statement)

/-- A point in time. -/
def instant : Json → Except Failure Instant
  | .str s => match Instant.ofText? s with
    | some t => .ok t
    | none => .error (.store .statement)
  | _ => .error (.store .statement)

/-- A status. -/
def status : Json → Except Failure Status
  | .str s => match Status.ofName? s with
    | some status => .ok status
    | none => .error (.store .statement)
  | _ => .error (.store .statement)

/-- A form by its columns. -/
def formRow (m : Members) : Except Failure FormRow := do
  return {
    createdAt := ← notNull instant (valueOf m "created_at")
    updatedAt := ← notNull instant (valueOf m "updated_at")
    isActive := ← notNull bool (valueOf m "is_active")
    id := ← notNull int (valueOf m "id"), name := ← notNull text (valueOf m "name")
    description := ← orNull text (valueOf m "description")
    publicId := ← notNull text (valueOf m "public_id"), fields := valueOf m "fields" }

/-- A pipeline by its columns. -/
def pipelineRow (m : Members) : Except Failure PipelineRow := do
  return {
    createdAt := ← notNull instant (valueOf m "created_at")
    updatedAt := ← notNull instant (valueOf m "updated_at")
    isActive := ← notNull bool (valueOf m "is_active")
    id := ← notNull int (valueOf m "id"), formId := ← notNull int (valueOf m "form_id")
    name := ← notNull text (valueOf m "name"), steps := valueOf m "steps" }

/-- A submission by its columns. -/
def submissionRow (m : Members) : Except Failure SubmissionRow := do
  return {
    status := ← notNull status (valueOf m "status")
    submittedAt := ← notNull instant (valueOf m "submitted_at")
    processedAt := ← orNull instant (valueOf m "processed_at")
    id := ← notNull int (valueOf m "id"), formId := ← notNull int (valueOf m "form_id")
    data := valueOf m "data", fieldSnapshot := valueOf m "field_snapshot"
    errorMessage := ← orNull text (valueOf m "error_message")
    attempt := ← notNull int (valueOf m "attempt")
    ipAddress := ← orNull text (valueOf m "ip_address")
    userAgent := ← orNull text (valueOf m "user_agent") }

/-- An output by its columns. -/
def outputRow (m : Members) : Except Failure OutputRow := do
  return {
    executedAt := ← notNull instant (valueOf m "executed_at")
    id := ← notNull int (valueOf m "id")
    submissionId := ← notNull int (valueOf m "submission_id")
    attempt := ← notNull int (valueOf m "attempt")
    stepNumber := ← notNull int (valueOf m "step_number")
    stepName := ← notNull text (valueOf m "step_name")
    prompt := ← notNull text (valueOf m "prompt"), output := ← notNull text (valueOf m "output")
    tokenCount := ← orNull int (valueOf m "token_count")
    duration := ← orNull int (valueOf m "duration"), model := ← orNull text (valueOf m "model") }

/-! ## §2. Tables by name. -/

/-- The tables. -/
inductive RowKind where
  | form | pipeline | submission | output
  deriving DecidableEq, Repr

namespace RowKind

/-- The name of a table. -/
def name : RowKind → String
  | form => "form"
  | pipeline => "pipeline"
  | submission => "submission"
  | output => "step_output"

/-- All tables. -/
def all : List RowKind := [form, pipeline, submission, output]

/-- The table of a name. -/
def ofName? (name : String) : Option RowKind := all.find? fun k => k.name == name

/-- The word for a row of a table in messages. -/
def title : RowKind → String
  | form => "Form"
  | pipeline => "Pipeline"
  | submission => "Submission"
  | output => "StepOutput"

/-- The rows of a table, each by its id and its columns. -/
def rows (k : RowKind) (s : Store) : List (Int × Members) :=
  match k with
  | form => s.forms.map fun r => (r.id, r.columns)
  | pipeline => s.pipelines.map fun r => (r.id, r.columns)
  | submission => s.submissions.map fun r => (r.id, r.columns)
  | output => s.outputs.map fun r => (r.id, r.columns)

/-- The id of the next row of a table. -/
def nextId (k : RowKind) (s : Store) : Int :=
  match k with
  | form => s.forms.nextId
  | pipeline => s.pipelines.nextId
  | submission => s.submissions.nextId
  | output => s.outputs.nextId

/-- What a new row has in the columns that are not given. -/
def defaults (k : RowKind) (now : Instant) (token : String) : Members :=
  match k with
  | form => [("name", .null), ("description", .null), ("is_active", .bool true),
      ("public_id", .str token), ("fields", .arr []), ("created_at", instantColumn now),
      ("updated_at", instantColumn now)]
  | pipeline => [("form_id", .null), ("name", .str "Pipeline"), ("is_active", .bool true),
      ("steps", .arr []), ("created_at", instantColumn now), ("updated_at", instantColumn now)]
  | submission => [("form_id", .null), ("data", .obj []), ("field_snapshot", .null),
      ("status", .str Status.pending.name), ("error_message", .null), ("attempt", .int 1),
      ("ip_address", .null), ("user_agent", .null), ("submitted_at", instantColumn now),
      ("processed_at", .null)]
  | output => [("submission_id", .null), ("attempt", .int 1), ("step_number", .null),
      ("step_name", .null), ("prompt", .null), ("output", .null), ("token_count", .null),
      ("duration", .null), ("model", .null), ("executed_at", instantColumn now)]

/-- Adds a row that is given by its columns. -/
def insert (k : RowKind) (s : Store) (m : Members) : Except Failure Store := do
  let added ← match k with
    | form => s.insertForm <$> formRow m
    | pipeline => s.insertPipeline <$> pipelineRow m
    | submission => s.insertSubmission <$> submissionRow m
    | output => s.insertOutput <$> outputRow m
  match added with
  | some store => return store
  | none => throw (.store .integrity)

/-- Removes the row of an id. -/
def remove (k : RowKind) (s : Store) (id : Int) : Store :=
  match k with
  | form => { s with forms := s.forms.remove fun r => r.id == id }
  | pipeline => { s with pipelines := s.pipelines.remove fun r => r.id == id }
  | submission => { s with submissions := s.submissions.remove fun r => r.id == id }
  | output => { s with outputs := s.outputs.remove fun r => r.id == id }

/-- The columns of the row of an id. -/
def find? (k : RowKind) (s : Store) (id : Int) : Option Members := (k.rows s).lookup id

/-- The cause of a missing row, as the service of its table words it or in the general wording. -/
def missing (k : RowKind) (general : Bool) (id : Int) : Cause :=
  match k, general with
  | form, false => .formNotFound (toString id)
  | submission, false => .submissionNotFound id
  | _, _ => .entityNotFound s!"{k.title} with ID {id} not found"

end RowKind

/-! ## §3. Statements. -/

/-- The row of an id. -/
def getRow (k : RowKind) (general : Bool) (id : Int) : Job Members :=
  Job.read fun w => do
    Store.checkFits id
    match k.find? w.store id with
    | some columns => .ok columns
    | none => .error (Failure.ofCause (k.missing general id))

/-- The columns of a new row: those that are given and exist, and defaults for the others. -/
def newColumns (k : RowKind) (now : Instant) (token : String) (id : Int) (values : Members) :
    Members :=
  let defaults : Members := ("id", .int id) :: k.defaults now token
  let known := values.filter fun pair => defaults.hasKey pair.1 && pair != ("id", .null)
  defaults.setAll known

/-- Creates a row. -/
def createRow (k : RowKind) (values : Members) : Job Members := do
  let token ← if k = .form && !values.hasKey "public_id" then Forms.drawToken else pure ""
  Job.statement fun w =>
    let columns := newColumns k w.now token (k.nextId w.store) values
    match k.insert w.store columns with
    | .ok store =>
      let id := match columns.lookup "id" with
        | some (.int i) => i
        | _ => 0
      .ok ((k.find? store id).getD columns, w.withStore store)
    | .error (.store .integrity) =>
      .error (Failure.ofCause (.entityAlreadyExists (Runner.conflictMessage k.title)))
    | .error failure => .error failure

/-- Changes columns of a row.  With `keepNull` a null is not written. -/
def updateRow (k : RowKind) (id : Int) (values : Members) (keepNull : Bool) : Job Members := do
  let old ← getRow k true id
  let changes := values.filter fun pair => !(keepNull && pair.2 == .null)
  match changes.find? fun pair => !old.hasKey pair.1 with
  | some (name, _) =>
    throw (Failure.outside "ValueError" s!"\"{k.title}\" object has no field \"{name}\"")
  | none =>
    Job.statement fun w => do
      let columns := old.setAll changes
      let store ← k.insert (k.remove w.store id) columns
      return ((k.find? store id).getD columns, w.withStore store)

/-- Deletes a row and nothing else. -/
def deleteRow (k : RowKind) (id : Int) : Job Unit := do
  let _ ← getRow k true id
  Job.statement fun w => .ok ((), w.withStore (k.remove w.store id))

/-- A value as columns compare it: truth values are numbers. -/
def compared : Json → Json
  | .bool b => .int (if b then 1 else 0)
  | value => value

/-- Does a row have the given values? -/
def hasValues (columns values : Members) : Bool :=
  values.all fun pair => compared (valueOf columns pair.1) == compared pair.2

/-- The first row with the given values. -/
def findRow (k : RowKind) (values : Members) : Job (Option Members) :=
  Job.ask fun w => ((k.rows w.store).map (·.2)).find? fun columns => hasValues columns values

/-- Changes the status of a submission if it has one of the expected ones. -/
def compareAndSet (submission : Int) (expected : List Status) (target : Status) : Job Bool := do
  Job.ofExcept (Store.checkFits submission)
  Runner.compareAndSet submission expected fun _ row => { row with status := target }

/-- The outputs of a submission, of all attempts or of one. -/
def outputs (submission : Int) (attempt : Option Int) : Job (List OutputRow) :=
  Job.ask fun w => match attempt with
    | some n => w.store.outputsOfAttempt submission n
    | none => w.store.outputsOf submission

/-- Everything that is stored, by table. -/
def allRows (s : Store) : Json :=
  .obj (RowKind.all.map fun k => (k.name, .arr ((k.rows s).map fun row => .obj row.2)))

end PromptForms.Columns
