/-
  PromptForms.Service.Forms
  ─────────────────────────
  **MANAGING FORMS AND PIPELINES.**

  Forms are created, changed and deleted, and each may be given a pipeline.  No field
  may have the name of a variable of the program's own.  A form with a submission that
  is being processed is not deleted.  A pipeline is saved only after its templates have
  been checked against the fields of its form.

      create, list, get, getPublic, update, delete      forms
      getPipeline, savePipeline, deletePipeline         pipelines
      stepVariables                                     what an editor offers
-/
import PromptForms.Form.Draft
import PromptForms.Run.Plan
import PromptForms.Template.Check

namespace PromptForms.Forms

/-! ## §1. Fields. -/

/-- Refuses fields that have the name of a variable of the program's own. -/
def checkIds (fields : List Field) : Except Cause Unit :=
  match reservedIds fields with
  | [] => .ok ()
  | reserved =>
    let names := ", ".intercalate (reserved.map fun id => s!"'{id}'")
    .error (.formField s!"Field ids {names} are reserved template variable names")

theorem reservedIds_of_checkIds {fields : List Field} (h : checkIds fields = .ok ()) :
    reservedIds fields = [] := by
  unfold checkIds at h
  split at h
  · assumption
  · cases h

/-- The documents of fields as a row keeps them. -/
def fieldDocuments (fields : List Field) : Json := .arr (fields.map Field.toJson)

/-! ## §2. Forms. -/

/-- A new token for a public id. -/
def drawToken : Job String :=
  Job.inMemory fun w => .ok (w.tokens w.drawn, { w with drawn := w.drawn + 1 })

/-- Creates a form. -/
def create (draft : FormDraft) : Job FormRow := do
  Job.ofCauses (checkIds draft.fields)
  let publicId ← drawToken
  Job.statement fun w =>
    let row : FormRow :=
      { id := w.store.forms.nextId, name := draft.name, description := draft.description
        isActive := draft.isActive, publicId, fields := fieldDocuments draft.fields
        createdAt := w.now, updatedAt := w.now }
    match w.store.insertForm row with
    | some store => .ok (row, w.withStore store)
    | none => .error (Failure.ofCause (.entityAlreadyExists "Form conflicts with an existing row"))

/-- A part of all forms, the newest first, each with its number of submissions. -/
def list (skip limit : Int) : Job (List (FormRow × Nat)) :=
  Job.read fun w => do
    Store.checkFits skip
    return w.store.formsWithCounts skip.toNat limit.toNat

/-- The form of an id. -/
def get (form : Int) : Job FormRow :=
  Job.read fun w => do
    Store.checkFits form
    match w.store.forms.get? form with
    | some row => .ok row
    | none => .error (Failure.ofCause (.formNotFound (toString form)))

/-- The form of a public id, whether it is active or not. -/
def getByToken (publicId : String) : Job FormRow :=
  Job.read fun w => match w.store.formByToken? publicId with
    | some row => .ok row
    | none => .error (Failure.ofCause (.formNotFound publicId))

/-- The active form of a public id. -/
def getPublic (publicId : String) : Job FormRow := do
  let row ← getByToken publicId
  if !row.isActive then Job.fail (.formInactive row.id)
  return row

/-- The row that a patch makes of another one; a name and a state of activity cannot be null. -/
def patched (row : FormRow) (patch : FormPatch) (now : Calendar.Instant) : Except Failure FormRow :=
  match patch.name, patch.isActive with
  | some none, _ => .error (.store .integrity)
  | _, some none => .error (.store .integrity)
  | name, isActive =>
    .ok { row with
      name := name.join.getD row.name
      isActive := isActive.join.getD row.isActive
      description := patch.description.getD row.description
      fields := (patch.newFields?.map fieldDocuments).getD row.fields
      updatedAt := now }

/-- Changes a form. -/
def update (form : Int) (patch : FormPatch) : Job FormRow := do
  let row ← get form
  Job.ofCauses (checkIds (patch.newFields?.getD []))
  Job.statement fun w => do
    let new ← patched row patch w.now
    return (new, w.withStore { w.store with forms := w.store.forms.replace form fun _ => new })

/-- Deletes a form with everything that belongs to it. -/
def delete (form : Int) : Job Unit := do
  let _ ← get form
  if let some submission ← Job.ask fun w => w.store.processingOf? form then
    Job.fail (.concurrentRun submission)
  Job.statement fun w => .ok ((), w.withStore (w.store.deleteForm form))

/-! ## §3. Pipelines. -/

/-- The pipeline of a form, whether the form exists or not. -/
def pipelineOf (form : Int) : Job PipelineRow :=
  Job.read fun w => match w.store.pipelineOf? form with
    | some row => .ok row
    | none => .error (Failure.ofCause (.pipelineNotFound form))

/-- The pipeline of a form. -/
def getPipeline (form : Int) : Job PipelineRow := do
  let _ ← get form
  pipelineOf form

/-- The documents of steps as a row keeps them. -/
def stepDocuments (steps : List Step) : Json := .arr (steps.map Step.toJson)

/-- Writes the pipeline of a form in place of an earlier one, if there is one. -/
def putPipeline (form : Int) (draft : PipelineDraft) : Job PipelineRow :=
  Job.statement fun w =>
    let steps := stepDocuments draft.steps
    match w.store.pipelineOf? form with
    | some old =>
      let new := { old with
        name := draft.name, isActive := draft.isActive, steps, updatedAt := w.now }
      .ok (new, w.withStore
        { w.store with pipelines := w.store.pipelines.replace old.id fun _ => new })
    | none =>
      let row : PipelineRow :=
        { id := w.store.pipelines.nextId, formId := form, name := draft.name
          isActive := draft.isActive, steps, createdAt := w.now, updatedAt := w.now }
      match w.store.insertPipeline row with
      | some store => .ok (row, w.withStore store)
      | none =>
        .error (Failure.ofCause (.entityAlreadyExists "Pipeline conflicts with an existing row"))

/-- The cause of a name that may not stand in a prompt. -/
def variableCause (e : Template.VariableError) : Cause :=
  .templateVariable e.step e.variableName e.fault.message

/-- Saves the pipeline of a form; the answer has the warnings about its templates. -/
def savePipeline (form : Int) (draft : PipelineDraft) : Job (PipelineRow × List String) := do
  let row ← get form
  let fields ← Job.ofExcept row.storedFields
  let warnings ← Job.ofCauses ((Template.checkSteps draft.steps fields).mapError variableCause)
  let saved ← putPipeline form draft
  return (saved, warnings)

/-- Deletes the pipeline of a form. -/
def deletePipeline (form : Int) : Job Unit := do
  let row ← getPipeline form
  Job.statement fun w => .ok ((), w.withStore
    { w.store with pipelines := w.store.pipelines.remove fun p => p.id == row.id })

/-- The variables that a step of the pipeline of a form may use. -/
def stepVariables (form step : Int) : Job (List Template.VariableInfo) := do
  let row ← get form
  let fields ← Job.ofExcept row.storedFields
  return Template.availableVariables fields step

end PromptForms.Forms
