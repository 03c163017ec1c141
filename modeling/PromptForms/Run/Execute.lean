/-
  PromptForms.Run.Execute
  ───────────────────────
  **ONE STEP.**

  A step resolves its prompt, requests text for it, and accepts a reply whose text is not
  blank.  Whatever else happens fails the step with a cause: names without a text in
  strict mode, a refusal, a timeout, an error of the generator, an empty reply.  A reply
  that reports a model or a number of tokens of the wrong type is an invalid document.

      Executor       what all steps share
      StepResult     what an executed step leaves
      execute        one step
-/
import PromptForms.Run.Plan
import PromptForms.Template.Context

namespace PromptForms

open Schema

/-! ## §1. Executors and results. -/

/-- What all steps share. -/
structure Executor where
  /-- For steps that name no model. -/
  defaultModel : String
  /-- The time for one request, in seconds. -/
  timeout : Number
  mode : Template.Mode := .lenient

/-- What an executed step leaves. -/
structure StepResult where
  number : Nat
  name : String
  prompt : String
  output : String
  tokenCount : Option Int
  /-- In milliseconds. -/
  duration : Int
  model : String

/-- The document of a result. -/
def StepResult.toJson (r : StepResult) : Json :=
  .obj [("step_number", .int r.number), ("step_name", .str r.name), ("prompt", .str r.prompt),
    ("output", .str r.output), ("token_count", .ofOption .int r.tokenCount),
    ("duration", .int r.duration), ("model", .str r.model)]

namespace Executor

/-! ## §2. Judging a reply. -/

/-- A time in seconds as a message shows it. -/
def secondsText : Number → String
  | .int i => match Binary64.ofInt? i with
    | some x => x.general
    | none => toString i
  | .real x => x.general

/-- Whole milliseconds. -/
def milliseconds (seconds : Binary64) : Int :=
  let thousand := (Binary64.ofInt? 1000).getD .nan
  ((seconds.mul thousand).truncate).getD 0

/-- The model that a step asks for. -/
def modelFor (x : Executor) (step : Step) : String :=
  let own := step.model.getD ""
  if own.isEmpty then x.defaultModel else own

/-- What is wrong with a reply without a text that can be seen. -/
def emptyReply : String := "generation returned empty or invalid output"

/-- The text of a reply if it can be seen. -/
def visibleText? (reply : Reply) : Option String :=
  match reply.text with
  | .str s => if Text.blankText s then none else some s
  | _ => none

/-- The model that a reply names, or else the one that was asked for. -/
def modelOf (reply : Reply) (asked : String) : Json :=
  if reply.model.truthy then reply.model else .str asked

/-- The result of a step with a visible text. -/
def resultOf (step : Step) (sent : Request) (text : String) (reply : Reply) (seconds : Binary64) :
    Checked StepResult :=
  (fun tokenCount model =>
    { number := step.number, name := step.name, prompt := sent.prompt, output := text
      tokenCount, duration := milliseconds seconds, model }) <$>
    (orNull int reply.tokenCount).under "token_count" <*>
    (Schema.text (modelOf reply sent.model)).under "model"

/-- What an outcome means for a step. -/
def judge (x : Executor) (step : Step) (sent : Request) : Outcome → Except Failure StepResult
  | .replied reply seconds => match visibleText? reply with
    | some text => (resultOf step sent text reply seconds).orFail
    | none => refuse emptyReply
  | .refused message => refuse message
  | .failed error message => refuse s!"{error}: {message}"
  | .timedOut => refuse s!"generation timed out after {secondsText x.timeout}s"
  | .interrupted => .error .interrupted
where
  /-- The step fails with a cause. -/
  refuse (cause : String) : Except Failure StepResult :=
    .error (Failure.ofCause (.step step.number cause))

/-! ## §3. Executing. -/

/-- One step in a context. -/
def execute (x : Executor) (step : Step) (context : Template.Context) : Job StepResult :=
  match Template.resolve x.mode step.prompt context with
  | .error names =>
    Job.fail (.step step.number (Cause.unresolvedVariable names).message)
  | .ok prompt => do
    let sent : Request := ⟨prompt, x.modelFor step⟩
    let outcome ← Job.request sent
    Job.ofExcept (x.judge step sent outcome)

end Executor

end PromptForms
