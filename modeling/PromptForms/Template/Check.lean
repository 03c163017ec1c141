/-
  PromptForms.Template.Check
  ──────────────────────────
  **CHECKING TEMPLATES.**

  Before a pipeline is saved, every name in its prompts is looked at.  A step may
  refer to the fields of the form and to the outputs of earlier steps; a malformed
  name or one of a later step is refused.  Any other name is only warned about,
  because it is left in the text as it is.

      checkStep            the warnings of one step, or its first fault
      checkSteps           the warnings of a pipeline, or its first fault
      availableVariables   what an editor offers for a step
-/
import PromptForms.Form.Field
import PromptForms.Pipeline.Step
import PromptForms.Template.Reference
import PromptForms.Template.Scan

namespace PromptForms.Template

/-! ## §1. Faults. -/

/-- Why a name may not stand in the prompt of a step. -/
inductive VariableFault where
  | malformed (reason : ReferenceError)
  /-- It names a step that is not before this one. -/
  | notEarlier (referenced step : Nat)
  deriving DecidableEq, Repr

/-- The wording of a fault. -/
def VariableFault.message : VariableFault → String
  | malformed reason => reason.message
  | notEarlier referenced step =>
    s!"refers to step {referenced}, only steps before {step} are available"

/-- A name that may not stand in the prompt of a step. -/
structure VariableError where
  step : Nat
  variableName : String
  fault : VariableFault
  deriving DecidableEq, Repr

/-! ## §2. Steps and pipelines. -/

/-- The warning about an unknown name. -/
def unknownWarning (step : Nat) (name : String) : String :=
  s!"Step {step}: '\x7b{name}\x7d' is not a known variable and will be left as is"

/-- One name of a step: nothing to say, a warning, or a fault. -/
def checkName (step : Nat) (fieldIds : List String) (name : String) :
    Except VariableError (Option String) :=
  if name == allFieldsName || fieldIds.contains name then .ok none
  else match reference name with
    | .error reason => .error ⟨step, name, .malformed reason⟩
    | .ok none => .ok (some (unknownWarning step name))
    | .ok (some k) => if step ≤ k then .error ⟨step, name, .notEarlier k step⟩ else .ok none

/-- The warnings of one step. -/
def checkStep (fieldIds : List String) (step : Step) : Except VariableError (List String) := do
  let found ← (findVariables step.prompt).mapM (checkName step.number fieldIds)
  return found.filterMap id

/-- The warnings of the steps in their order. -/
def checkSteps (steps : List Step) (fields : List Field) : Except VariableError (List String) := do
  let found ← (Step.inStepOrder steps).mapM (checkStep (fields.map (·.id)))
  return found.flatten

/-! ## §3. What an editor offers. -/

/-- A variable that a template may use. -/
structure VariableInfo where
  name : String
  source : String
  label : Option String
  deriving DecidableEq, Repr

/-- The document of a variable. -/
def VariableInfo.toJson (v : VariableInfo) : Json :=
  .obj [("name", .str v.name), ("source", .str v.source), ("label", .ofOption .str v.label)]

/-- The variables that the prompt of a step may use. -/
def availableVariables (fields : List Field) (step : Int) : List VariableInfo :=
  ⟨allFieldsName, "submission", some "All fields"⟩ ::
    fields.map (fun f => ⟨f.id, "field", some f.label⟩) ++
    (List.range' 1 (step - 1).toNat).map fun k =>
      ⟨stepOutputName k, "step", some s!"Step {k} output"⟩

end PromptForms.Template
