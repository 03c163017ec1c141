/-
  PromptForms.Proofs.Course
  ─────────────────────────
  **THE COURSE OF A RUN.**

  What a run is meant to do, said without plans, statements and tables: it goes through
  the steps in order, resolves the prompt of each from the fields, the values and the
  outputs before it, asks the generator once, and keeps a text that can be seen as the
  output of the step.  The first step that fails ends the course.

      TypedReply, TypedOutcome    how a request ends if the generator keeps to the types
      Backend                     what answers the requests of a run
      Course                      how far a run has come
      Assignment.advance          one step
      Assignment.course           all steps, a left fold

  Main result:
    • `Assignment.course_numbers` — which outputs there are at the end, and how many
      requests were sent, whether a step has failed or not.
-/
import PromptForms.Proofs.Trail

namespace PromptForms

/-! ## §1. Generators. -/

/-- A reply that keeps to the types; its numbers fit the columns in which they are stored. -/
structure TypedReply where
  text : String
  model : String
  tokens : Option Int
  seconds : Binary64
  tokens_fit : Store.fits (tokens.getD 0) = true
  duration_fits : Store.fits (Executor.milliseconds seconds) = true

/-- How a request ends if the generator keeps to the types and nobody interrupts the plan. -/
inductive TypedOutcome where
  | replied (reply : TypedReply)
  | refused (message : String)
  | failed (error message : String)
  | timedOut

namespace TypedOutcome

/-- What the plan sees of it. -/
def outcome : TypedOutcome → Outcome
  | replied r => .replied ⟨.str r.text, .str r.model, .ofOption .int r.tokens⟩ r.seconds
  | refused message => .refused message
  | failed error message => .failed error message
  | timedOut => .timedOut

/-- The reply, if its text can be seen, or else why the step fails. -/
def verdict (timeout : Number) : TypedOutcome → Except String TypedReply
  | replied r =>
    if Text.blankText r.text then .error "generation returned empty or invalid output" else .ok r
  | refused message => .error message
  | failed error message => .error s!"{error}: {message}"
  | timedOut => .error s!"generation timed out after {Executor.secondsText timeout}s"

end TypedOutcome

/-- What answers the requests of a run, given those that were sent before. -/
structure Backend where
  answer : (earlier : List Request) → Request → TypedOutcome
  /-- What the clock shows when the request has ended. -/
  clock : (earlier : List Request) → Request → Calendar.Instant

/-! ## §2. Courses. -/

/-- How far a run has come. -/
structure Course where
  rows : List OutputRow := []
  /-- The requests that were sent. -/
  sent : List Request := []
  /-- The step that failed, and why. -/
  failed : Option (Step × String) := none
  now : Calendar.Instant

namespace Course

/-- The outputs that a later step may use. -/
def produced (c : Course) : List Template.Output := c.rows.map fun o => ⟨o.stepNumber, o.output⟩

/-- What the course makes of its submission in the end.  Without any step a message from before
is left alone. -/
def settle (c : Course) (row : SubmissionRow) : SubmissionRow :=
  match c.failed with
  | some (step, cause) =>
    { row with
      status := .failed
      errorMessage := some s!"Step {step.number} ({step.name}) failed: {cause}"
      processedAt := some c.now }
  | none =>
    { row with
      status := .completed
      errorMessage := if c.rows.isEmpty then row.errorMessage else none
      processedAt := some c.now }

end Course

/-- What a run is given. -/
structure Assignment where
  executor : Executor
  backend : Backend
  submission : SubmissionRow
  fields : List Field
  values : Dictionary Value
  /-- The id of the first output. -/
  firstId : Int

namespace Assignment

/-- The prompt of a step, or the names that strict mode misses in it. -/
def prompt (a : Assignment) (c : Course) (step : Step) : Except (List String) String :=
  Template.resolve a.executor.mode step.prompt
    (Template.context a.fields a.values c.produced step.number)

/-- The output of a step. -/
def output (a : Assignment) (c : Course) (step : Step) (request : Request) (reply : TypedReply) :
    OutputRow :=
  { id := a.firstId + c.rows.length
    submissionId := a.submission.id
    attempt := a.submission.attempt
    stepNumber := step.number
    stepName := step.name
    prompt := request.prompt
    output := reply.text
    tokenCount := reply.tokens
    duration := some (Executor.milliseconds reply.seconds)
    model := some (if reply.model.isEmpty then request.model else reply.model)
    executedAt := a.backend.clock c.sent request }

/-- One step.  After a step that failed there are no others. -/
def advance (a : Assignment) (c : Course) (step : Step) : Course :=
  match c.failed, a.prompt c step with
  | some _, _ => c
  | none, .error names =>
    { c with failed := some (step, (Cause.unresolvedVariable names).message) }
  | none, .ok prompt =>
    let request : Request := ⟨prompt, a.executor.modelFor step⟩
    let asked : Course :=
      { c with sent := c.sent ++ [request], now := a.backend.clock c.sent request }
    match (a.backend.answer c.sent request).verdict a.executor.timeout with
    | .error cause => { asked with failed := some (step, cause) }
    | .ok reply => { asked with rows := c.rows ++ [a.output c step request reply] }

/-- All steps, from a point in time on. -/
def course (a : Assignment) (steps : List Step) (start : Calendar.Instant) : Course :=
  steps.foldl a.advance { now := start }

variable {a : Assignment} {c : Course} {step : Step}

theorem advance_of_failed {failed : Step × String} (hf : c.failed = some failed) (step : Step) :
    a.advance c step = c := by
  unfold advance
  rw [hf]

theorem foldl_advance_of_failed {failed : Step × String} (hf : c.failed = some failed)
    (steps : List Step) : steps.foldl a.advance c = c := by
  induction steps with
  | nil => rfl
  | cons step rest ih =>
    rw [List.foldl_cons, advance_of_failed hf]
    exact ih

theorem advance_unresolved {names : List String} (hf : c.failed = none)
    (hp : a.prompt c step = .error names) :
    a.advance c step =
      { c with failed := some (step, (Cause.unresolvedVariable names).message) } := by
  unfold advance
  rw [hf, hp]

theorem advance_unanswered {prompt cause : String} {request : Request} (hf : c.failed = none)
    (hp : a.prompt c step = .ok prompt) (hq : request = ⟨prompt, a.executor.modelFor step⟩)
    (hv : (a.backend.answer c.sent request).verdict a.executor.timeout = .error cause) :
    a.advance c step =
      { c with
        sent := c.sent ++ [request]
        now := a.backend.clock c.sent request
        failed := some (step, cause) } := by
  subst hq
  unfold advance
  rw [hf, hp]
  show (match (a.backend.answer c.sent _).verdict a.executor.timeout with
    | .error cause => _
    | .ok reply => _) = _
  rw [hv]

theorem advance_answered {prompt : String} {request : Request} {reply : TypedReply}
    (hf : c.failed = none) (hp : a.prompt c step = .ok prompt)
    (hq : request = ⟨prompt, a.executor.modelFor step⟩)
    (hv : (a.backend.answer c.sent request).verdict a.executor.timeout = .ok reply) :
    a.advance c step =
      { c with
        sent := c.sent ++ [request]
        now := a.backend.clock c.sent request
        rows := c.rows ++ [a.output c step request reply] } := by
  subst hq
  unfold advance
  rw [hf, hp]
  show (match (a.backend.answer c.sent _).verdict a.executor.timeout with
    | .error cause => _
    | .ok reply => _) = _
  rw [hv]

end Assignment

/-! ## §3. Outputs and requests. -/

/-- No step has failed, and there are `k` of them behind the course. -/
structure Course.Clear (c : Course) (k : Nat) : Prop where
  failed : c.failed = none
  numbers : c.rows.map (·.stepNumber) = upTo k
  sent : c.sent.length = k

/-- A course with steps behind it, none of which failed, completes its submission. -/
theorem Course.settle_of_clear {c : Course} {k : Nat} (h : c.Clear k) (hk : 0 < k) :
    c.settle = fun row => row.settled .completed none c.now := by
  -- There is at least one output, so no message from before is left.
  have hrows : c.rows.isEmpty = false := by
    cases hr : c.rows with
    | nil =>
      have hnil := h.numbers
      rw [hr] at hnil
      have hlen := congrArg List.length hnil
      rw [length_upTo] at hlen
      exact absurd hlen.symm (Nat.ne_of_gt hk)
    | cons first rest => rfl
  funext row
  unfold Course.settle
  rw [h.failed, hrows]
  rfl

/-- A step has failed: the ones before it have outputs, and the generator was asked for it unless
its prompt could not be resolved. -/
structure Assignment.Stopped (a : Assignment) (c : Course) (step : Step) : Prop where
  numbers : c.rows.map (·.stepNumber) = upTo (step.number - 1)
  sent : c.sent.length =
    match a.prompt c step with
    | .ok _ => step.number
    | .error _ => step.number - 1

namespace Assignment

variable {a : Assignment} {c : Course} {k : Nat}

theorem clear_of_answered {step : Step} {prompt : String} {request : Request} {reply : TypedReply}
    (hc : c.Clear k) (hstep : step.number = k + 1) (hp : a.prompt c step = .ok prompt)
    (hq : request = ⟨prompt, a.executor.modelFor step⟩)
    (hv : (a.backend.answer c.sent request).verdict a.executor.timeout = .ok reply) :
    (a.advance c step).Clear (k + 1) := by
  rw [advance_answered hc.failed hp hq hv]
  refine ⟨hc.failed, ?_, ?_⟩
  · show (c.rows ++ [_]).map OutputRow.stepNumber = upTo (k + 1)
    rw [List.map_append, hc.numbers, upTo_succ, List.map_singleton]
    show upTo k ++ [(step.number : Int)] = upTo k ++ [(k : Int) + 1]
    rw [hstep]
    rfl
  · show (c.sent ++ [_]).length = k + 1
    rw [List.length_append, hc.sent]
    rfl

/-- **One step** either adds an output or fails. -/
theorem clear_or_stopped_of_advance (hc : c.Clear k) {step : Step} (hstep : step.number = k + 1) :
    (a.advance c step).Clear (k + 1) ∨
      ∃ cause, (a.advance c step).failed = some (step, cause) ∧
        a.Stopped (a.advance c step) step := by
  have hlast : step.number - 1 = k := by omega
  cases hp : a.prompt c step with
  | error names =>
    rw [advance_unresolved hc.failed hp]
    refine .inr ⟨_, rfl, ?_, ?_⟩
    · rw [hlast]
      exact hc.numbers
    · -- The prompt of a step depends on the outputs only, and there is no new one.
      show c.sent.length = match a.prompt c step with
        | .ok _ => step.number
        | .error _ => step.number - 1
      rw [hp, hc.sent, hlast]
  | ok prompt =>
    obtain ⟨request, hq⟩ : ∃ request : Request, request = ⟨prompt, a.executor.modelFor step⟩ :=
      ⟨_, rfl⟩
    cases hv : (a.backend.answer c.sent request).verdict a.executor.timeout with
    | error cause =>
      rw [advance_unanswered hc.failed hp hq hv]
      refine .inr ⟨cause, rfl, ?_, ?_⟩
      · rw [hlast]
        exact hc.numbers
      · show (c.sent ++ [request]).length = match a.prompt c step with
          | .ok _ => step.number
          | .error _ => step.number - 1
        rw [hp, List.length_append, hc.sent, hstep]
        rfl
    | ok reply => exact .inl (clear_of_answered hc hstep hp hq hv)

/-- The remaining steps, by induction; the first one that fails is the last one that counts. -/
theorem clear_or_stopped_of_foldl (steps : List Step) :
    ∀ (c : Course) (k : Nat), c.Clear k →
      steps.map (·.number) = List.range' (k + 1) steps.length →
      (steps.foldl a.advance c).Clear (k + steps.length) ∨
        ∃ step ∈ steps, ∃ cause, (steps.foldl a.advance c).failed = some (step, cause) ∧
          a.Stopped (steps.foldl a.advance c) step := by
  induction steps with
  | nil =>
    intro c k hc _
    exact .inl hc
  | cons step rest ih =>
    intro c k hc hnum
    rw [List.map_cons, List.length_cons, List.range'_succ, List.cons.injEq] at hnum
    obtain ⟨hstep, hrest⟩ := hnum
    rw [List.foldl_cons]
    rcases clear_or_stopped_of_advance hc hstep with hclear | ⟨cause, hf, hstop⟩
    · -- One more step is behind the course, and the rest goes on from there.
      rcases ih _ (k + 1) hclear hrest with hend | ⟨other, hmem, cause, hf, hstop⟩
      · left
        have hlen : k + 1 + rest.length = k + (step :: rest).length := by
          rw [List.length_cons]
          omega
        rw [← hlen]
        exact hend
      · exact .inr ⟨other, List.mem_cons_of_mem _ hmem, cause, hf, hstop⟩
    · -- The rest of the fold leaves a course that has failed as it is.
      right
      rw [foldl_advance_of_failed hf]
      exact ⟨step, List.mem_cons_self, cause, hf, hstop⟩

/-- **The end of a course.**  Either it has an output for each step and has sent a request for each,
or a step has failed. -/
theorem course_numbers (steps : List Step) (start : Calendar.Instant)
    (hnum : steps.map (·.number) = List.range' 1 steps.length) :
    (a.course steps start).Clear steps.length ∨
      ∃ step ∈ steps, ∃ cause, (a.course steps start).failed = some (step, cause) ∧
        a.Stopped (a.course steps start) step := by
  have h := clear_or_stopped_of_foldl (a := a) steps { now := start } 0 ⟨rfl, rfl, rfl⟩ hnum
  rw [Nat.zero_add] at h
  exact h

end Assignment

end PromptForms
