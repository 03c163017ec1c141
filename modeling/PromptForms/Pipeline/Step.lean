/-
  PromptForms.Pipeline.Step
  ─────────────────────────
  **STEPS OF A PIPELINE.**

  A pipeline is a list of prompt steps.  Steps are numbered from 1 without gaps; the
  numbers decide their order, whatever the order in which they are listed.

      Step               one prompt, and its `check`
      inStepOrder        steps by their number
      checkDense         the steps in order, if they are numbered 1 … N
      PipelineDraft      a pipeline to be saved
-/
import PromptForms.Schema.Scalar

namespace PromptForms

open Schema

/-! ## §1. Steps. -/

/-- One prompt of a pipeline. -/
structure Step where
  number : Nat
  name : String
  prompt : String
  description : Option String := none
  /-- The model to ask; the default one if there is none. -/
  model : Option String := none
  deriving DecidableEq, Repr, Inhabited

namespace Step

/-- A text with at least one visible character. -/
def visibleText (greatest : Option Nat) (value : Json) : Checked String :=
  (boundedText 1 greatest value).andThen
    (Checked.ensure (fun s => !Text.blankText s) fun _ => .violated "must not be blank")

/-- Reads a step. -/
def check (value : Json) : Checked Step :=
  (record value).andThen fun m =>
    Step.mk <$> m.required "step_number" (fun v => (intFrom 1 v).map Int.toNat) <*>
      m.required "name" (visibleText (some 200)) <*> m.required "prompt" (visibleText none) <*>
      m.nullable "description" text <*> m.nullable "model" text

/-- The document of a step. -/
def toJson (s : Step) : Json :=
  .obj [("step_number", .int s.number), ("name", .str s.name), ("prompt", .str s.prompt),
    ("description", .ofOption .str s.description), ("model", .ofOption .str s.model)]

/-- Steps by their number; steps of one number stay as they were listed. -/
def inStepOrder (steps : List Step) : List Step :=
  steps.mergeSort fun a b => a.number ≤ b.number

end Step

/-! ## §2. Dense numbering. -/

/-- The numbers found where 1 … N are expected. -/
structure NumberingError where
  found : List Nat
  deriving DecidableEq, Repr

/-- Numbers between square brackets. -/
def bracketed (numbers : List Nat) : String :=
  "[" ++ ", ".intercalate (numbers.map toString) ++ "]"

/-- The wording of a numbering error. -/
def NumberingError.message (e : NumberingError) : String :=
  let expected := bracketed (List.range' 1 e.found.length)
  s!"Step numbers must be exactly {expected}, got {bracketed e.found}"

/-- The steps in order if their numbers are exactly 1 … N. -/
def checkDense (steps : List Step) : Except NumberingError (List Step) :=
  let ordered := Step.inStepOrder steps
  let numbers := ordered.map (·.number)
  if numbers = List.range' 1 ordered.length then .ok ordered else .error ⟨numbers⟩

/-! ## §3. Drafts. -/

/-- A pipeline to be saved; its steps are in order and numbered without gaps. -/
structure PipelineDraft where
  name : String := "Pipeline"
  isActive : Bool := true
  steps : List Step := []
  deriving DecidableEq, Repr

/-- Reads the steps of a pipeline. -/
def checkSteps (value : Json) : Checked (List Step) :=
  (listOf Step.check value).andThen fun steps =>
    match checkDense steps with
    | .ok ordered => .good ordered
    | .error e => .fault (.violated e.message)

/-- Reads a draft. -/
def PipelineDraft.check (value : Json) : Checked PipelineDraft :=
  (record value).andThen fun m =>
    PipelineDraft.mk <$> m.optional "name" "Pipeline" (boundedText 1 (some 200)) <*>
      m.optional "is_active" true bool <*> m.optional "steps" [] checkSteps

/-- The document of a draft. -/
def PipelineDraft.toJson (d : PipelineDraft) : Json :=
  .obj [("name", .str d.name), ("is_active", .bool d.isActive),
    ("steps", .arr (d.steps.map Step.toJson))]

end PromptForms
