/-
  PromptForms.Proofs.Undisturbed
  ──────────────────────────────
  **RUNS THAT NOBODY DISTURBS.**

  A run that nobody asks to stop or interrupts, with a generator that keeps to the types,
  follows its course: it writes the outputs that the course has, sends its requests, and
  leaves the submission as the course settles it.

      World.along             the world in the middle of a course
      Assignment.Underway     a run that holds its submission
      Prepared                a submission that is ready to be run

  Main results:
    • `run_runSteps` — the loop over the steps follows the fold over the steps, by
      induction on the steps that remain.
    • `run_eq_course` — the whole run.
-/
import PromptForms.Proofs.Alone
import PromptForms.Proofs.Numbering

namespace PromptForms

/-! ## §1. One step. -/

/-- The result of a step with a reply that it can use. -/
def TypedReply.result (reply : TypedReply) (step : Step) (request : Request) : StepResult :=
  { number := step.number, name := step.name, prompt := request.prompt, output := reply.text
    tokenCount := reply.tokens, duration := Executor.milliseconds reply.seconds
    model := if reply.model.isEmpty then request.model else reply.model }

/-- The result or the failure that a verdict on a step is. -/
def judged (step : Step) (request : Request) : Except String TypedReply → Except Failure StepResult
  | .ok reply => .ok (reply.result step request)
  | .error cause => .error (Failure.ofCause (.step step.number cause))

/-- A reply that keeps to the types passes the checks on a result. -/
theorem resultOf_typed (reply : TypedReply) (step : Step) (request : Request) :
    Executor.resultOf step request reply.text
      ⟨.str reply.text, .str reply.model, .ofOption .int reply.tokens⟩ reply.seconds =
        .good (reply.result step request) := by
  unfold Executor.resultOf Executor.modelOf TypedReply.result
  cases ht : reply.tokens <;> cases hm : reply.model.isEmpty <;>
    simp only [Json.truthy, hm] <;> rfl

theorem judge_outcome (x : Executor) (step : Step) (request : Request) (o : TypedOutcome) :
    x.judge step request o.outcome = judged step request (o.verdict x.timeout) := by
  cases o with
  | replied reply =>
    unfold Executor.judge Executor.visibleText? TypedOutcome.outcome TypedOutcome.verdict
    by_cases hblank : Text.blankText reply.text = true
    · simp only [hblank, if_true]
      rfl
    · simp only [hblank, Bool.false_eq_true, if_false, resultOf_typed]
      rfl
  | refused message => rfl
  | failed error message => rfl
  | timedOut => rfl

section

variable {a : Assignment} {c : Course} {step : Step} {w : World}

theorem run_execute_unresolved {names : List String} (hp : a.prompt c step = .error names)
    (sent : List Request) :
    a.backend.run (a.executor.execute step
        (Template.context a.fields a.values c.produced step.number)) w sent =
      (.error (Failure.ofCause (.step step.number (Cause.unresolvedVariable names).message)), w,
        sent) := by
  unfold Assignment.prompt at hp
  unfold Executor.execute
  rw [hp]
  rfl

/-- Once its prompt is resolved, a step sends one request. -/
theorem run_execute_resolved {prompt : String} {request : Request}
    (hp : a.prompt c step = .ok prompt) (hq : request = ⟨prompt, a.executor.modelFor step⟩)
    (sent : List Request) :
    a.backend.run (a.executor.execute step
        (Template.context a.fields a.values c.produced step.number)) w sent =
      (judged step request ((a.backend.answer sent request).verdict a.executor.timeout),
        { w with now := a.backend.clock sent request }, sent ++ [request]) := by
  subst hq
  unfold Assignment.prompt at hp
  unfold Executor.execute
  rw [hp]
  show a.backend.run (Job.request ⟨prompt, a.executor.modelFor step⟩ >>= fun outcome =>
    Job.ofExcept (a.executor.judge step ⟨prompt, a.executor.modelFor step⟩ outcome)) w sent = _
  rw [Backend.run_bind_ok (Backend.run_request _), Backend.run_ofExcept, judge_outcome]

end

/-! ## §2. The loop. -/

/-- The world in the middle of a course. -/
def World.along (w : World) (c : Course) : World :=
  { w with store := { w.store with outputs := w.store.outputs ++ c.rows }, now := c.now }

/-- The outputs of the course are the only ones of the attempt, and the next one gets the id that
the assignment has for it. -/
structure Assignment.Placed (a : Assignment) (w : World) (c : Course) : Prop where
  nextId : (w.along c).store.outputs.nextId = a.firstId + c.rows.length
  numbers : (w.along c).store.numbers a.submission.id a.submission.attempt =
    c.rows.map (·.stepNumber)

/-- The submission is being processed by a run that nobody has asked to stop, and the store takes
part. -/
structure Assignment.Underway (a : Assignment) (r : Runner) (run : Nat) (row : SubmissionRow)
    (w : World) : Prop where
  executor : r.executor = a.executor
  found : w.store.submissions.get? a.submission.id = some row
  status : row.status = .processing
  fits : Store.fits a.submission.id = true
  up : w.outage = none
  unasked : (w.registries r.process).isCancelled run = false

section

variable {a : Assignment} {c c' : Course} {step : Step} {w : World} {o : OutputRow}

theorem store_along_append (hc : c'.rows = c.rows ++ [o]) :
    (w.along c').store = (w.along c).store.withOutput o := by
  show ({ w.store with outputs := w.store.outputs ++ c'.rows } : Store) =
    { w.store with outputs := (w.store.outputs ++ c.rows) ++ [o] }
  rw [hc, List.append_assoc]

/-- The output of the next step takes its place. -/
theorem Assignment.Placed.append (h : a.Placed w c) (hc : c'.rows = c.rows ++ [o])
    (hid : o.id = a.firstId + c.rows.length) (hsub : o.submissionId = a.submission.id)
    (ha : o.attempt = a.submission.attempt) : a.Placed w c' where
  nextId := by
    have hnext : HasId.id o = (w.along c).store.outputs.nextId := hid.trans h.nextId.symm
    rw [store_along_append hc, hc, List.length_append]
    show Table.nextId ((w.along c).store.outputs ++ [o]) = _
    rw [Table.nextId_append_singleton hnext, h.nextId, List.length_singleton]
    omega
  numbers := by
    rw [store_along_append hc, Store.numbers_withOutput, if_pos ⟨hsub, ha⟩, h.numbers, hc,
      List.map_append]
    rfl

/-- Whatever becomes of a step, the outputs of the course stay in their places. -/
theorem Assignment.Placed.advance (h : a.Placed w c) (step : Step) :
    a.Placed w (a.advance c step) := by
  cases hf : c.failed with
  | some failed =>
    rw [Assignment.advance_of_failed hf]
    exact h
  | none =>
    cases hp : a.prompt c step with
    | error names =>
      rw [Assignment.advance_unresolved hf hp]
      exact ⟨h.nextId, h.numbers⟩
    | ok prompt =>
      obtain ⟨request, hq⟩ : ∃ request : Request, request = ⟨prompt, a.executor.modelFor step⟩ :=
        ⟨_, rfl⟩
      cases hv : (a.backend.answer c.sent request).verdict a.executor.timeout with
      | error cause =>
        rw [Assignment.advance_unanswered hf hp hq hv]
        exact ⟨h.nextId, h.numbers⟩
      | ok reply =>
        rw [Assignment.advance_answered hf hp hq hv]
        exact h.append rfl rfl rfl rfl

theorem Assignment.Placed.foldl (h : a.Placed w c) (steps : List Step) :
    a.Placed w (steps.foldl a.advance c) := by
  induction steps generalizing c with
  | nil => exact h
  | cons step rest ih => exact ih (h.advance step)

/-- **Storing the output** that the course has for a step. -/
theorem run_storeOutput_along {k : Nat} {request : Request} {reply : TypedReply}
    (hup : w.outage = none) (hc : c.Clear k) (hp : a.Placed w c) (hstep : step.number = k + 1)
    (hc' : c'.rows = c.rows ++ [a.output c step request reply])
    (hnow : c'.now = a.backend.clock c.sent request) (sent : List Request) :
    a.backend.run (Runner.storeOutput a.submission (reply.result step request))
        { w.along c with now := a.backend.clock c.sent request } sent =
      (.ok (), w.along c', sent) := by
  have hrow : Runner.outputRow a.submission (reply.result step request)
      (w.along c).store.outputs.nextId (a.backend.clock c.sent request) =
        a.output c step request reply := by
    rw [hp.nextId]
    rfl
  have hnumbers : (w.along c).store.numbers a.submission.id a.submission.attempt = upTo k :=
    hp.numbers.trans hc.numbers
  have hnumber : (a.output c step request reply).stepNumber = k + 1 := by
    show (step.number : Int) = k + 1
    omega
  rw [run_storeOutput (w := { w.along c with now := a.backend.clock c.sent request }) hrow hup
    reply.tokens_fit reply.duration_fits
    (Store.exists_insertOutput hp.nextId.symm hnumbers hnumber)]
  have hworld : ({ w.along c with now := a.backend.clock c.sent request } : World).withStore
      ((w.along c).store.withOutput (a.output c step request reply)) = w.along c' := by
    rw [← store_along_append hc', ← hnow]
    rfl
  rw [hworld]

/-- A step that fails ends the attempt. -/
theorem run_finish_failed {r : Runner} {run : Nat} {row : SubmissionRow} {cause : String}
    (hu : a.Underway r run row w) (hf : c.failed = some (step, cause)) (sent : List Request) :
    a.backend.run (Runner.finish a.submission.id .failed
        (some s!"Step {Runner.stepTitle step} failed: {cause}")) (w.along c) sent =
      (.ok (c.settle row), (w.along c).withSubmission a.submission.id c.settle, sent) := by
  have hsettle : c.settle = fun row =>
      row.settled .failed (some s!"Step {Runner.stepTitle step} failed: {cause}") c.now := by
    funext row
    unfold Course.settle Runner.stepTitle
    rw [hf]
    -- The loop puts the title of the step together before the message.
    simp [SubmissionRow.settled, String.append_assoc, toString]
  rw [hsettle]
  exact run_finish (w := w.along c) hu.found hu.status hu.fits

/-- What follows a step that fails, unless the run has been asked to stop. -/
theorem run_failed_step {r : Runner} {run : Nat} {row : SubmissionRow} {cause : String}
    (hu : a.Underway r run row w) (hf : c.failed = some (step, cause))
    (stopped : Job SubmissionRow) (sent : List Request) :
    a.backend.run (r.isCancelled run >>= fun stop =>
        if stop = true then stopped
        else Runner.finish a.submission.id .failed
          (some s!"Step {Runner.stepTitle step} failed: {cause}")) (w.along c) sent =
      (.ok (c.settle row), (w.along c).withSubmission a.submission.id c.settle, sent) := by
  rw [Backend.run_bind_ok (run_isCancelled (w := w.along c) hu.unasked),
    if_neg Bool.false_ne_true]
  exact run_finish_failed hu hf sent

/-- What follows a step with a text that can be seen: its output is stored, and the run goes on. -/
theorem run_kept_step {r : Runner} {run k : Nat} {row : SubmissionRow} {request : Request}
    {reply : TypedReply} (hu : a.Underway r run row w) (hc : c.Clear k) (hp : a.Placed w c)
    (hstep : step.number = k + 1) (hc' : c'.rows = c.rows ++ [a.output c step request reply])
    (hnow : c'.now = a.backend.clock c.sent request) (stopped next : Job SubmissionRow)
    (sent : List Request) :
    a.backend.run (r.isCancelled run >>= fun stop =>
        if stop = true then stopped
        else Runner.storeOutput a.submission (reply.result step request) >>= fun _ => next)
          { w.along c with now := a.backend.clock c.sent request } sent =
      a.backend.run next (w.along c') sent := by
  rw [Backend.run_bind_ok (run_isCancelled
      (w := { w.along c with now := a.backend.clock c.sent request }) hu.unasked),
    if_neg Bool.false_ne_true,
    Backend.run_bind_ok (run_storeOutput_along hu.up hc hp hstep hc' hnow sent)]

/-- The last step has been executed. -/
theorem run_finish_completed {r : Runner} {run k : Nat} {row : SubmissionRow}
    (hu : a.Underway r run row w) (hc : c.Clear k) (hk : 0 < k) (sent : List Request) :
    a.backend.run (Runner.finish a.submission.id .completed none) (w.along c) sent =
      (.ok (c.settle row), (w.along c).withSubmission a.submission.id c.settle, sent) := by
  rw [Course.settle_of_clear hc hk]
  exact run_finish (w := w.along c) hu.found hu.status hu.fits

/-- **The loop follows the fold.**  With `k` steps behind it, and the remaining ones numbered from
`k + 1`, the run writes and sends what the rest of the course has. -/
theorem run_runSteps {r : Runner} {run : Nat} {row : SubmissionRow} (hu : a.Underway r run row w)
    (steps : List Step) :
    ∀ (c : Course) (k : Nat), c.Clear k → a.Placed w c → 0 < k + steps.length →
      steps.map (·.number) = List.range' (k + 1) steps.length →
      a.backend.run (r.runSteps a.submission run a.fields a.values c.produced steps) (w.along c)
          c.sent =
        (.ok ((steps.foldl a.advance c).settle row),
          (w.along (steps.foldl a.advance c)).withSubmission a.submission.id
            (steps.foldl a.advance c).settle,
          (steps.foldl a.advance c).sent) := by
  induction steps with
  | nil =>
    intro c k hc _ hk _
    unfold Runner.runSteps
    exact run_finish_completed hu hc hk c.sent
  | cons step rest ih =>
    intro c k hc hplaced _ hnum
    rw [List.map_cons, List.length_cons, List.range'_succ, List.cons.injEq] at hnum
    obtain ⟨hstep, hrest⟩ := hnum
    -- One turn of the loop against one application of `advance`, split as `advance` is: a prompt
    -- that cannot be resolved, a request without a usable reply, and an output.
    unfold Runner.runSteps
    rw [Backend.run_bind_ok (run_isCancelled (w := w.along c) hu.unasked),
      if_neg Bool.false_ne_true, List.foldl_cons, hu.executor]
    cases hp : a.prompt c step with
    | error names =>
      have hadvance := Assignment.advance_unresolved hc.failed hp
      have hf : (a.advance c step).failed =
          some (step, (Cause.unresolvedVariable names).message) := by rw [hadvance]
      have hworld : w.along (a.advance c step) = w.along c := by
        rw [hadvance]
        rfl
      have hsent : (a.advance c step).sent = c.sent := by rw [hadvance]
      rw [Backend.run_bind_ok (Backend.run_outcome (run_execute_unresolved hp c.sent)),
        Assignment.foldl_advance_of_failed hf, ← hworld, ← hsent]
      exact run_failed_step hu hf _ _
    | ok prompt =>
      obtain ⟨request, hq⟩ : ∃ request : Request, request = ⟨prompt, a.executor.modelFor step⟩ :=
        ⟨_, rfl⟩
      have hask := run_execute_resolved (w := w.along c) hp hq c.sent
      cases hv : (a.backend.answer c.sent request).verdict a.executor.timeout with
      | error cause =>
        have hadvance := Assignment.advance_unanswered hc.failed hp hq hv
        have hf : (a.advance c step).failed = some (step, cause) := by rw [hadvance]
        have hworld : w.along (a.advance c step) =
            { w.along c with now := a.backend.clock c.sent request } := by
          rw [hadvance]
          rfl
        have hsent : (a.advance c step).sent = c.sent ++ [request] := by rw [hadvance]
        rw [hv] at hask
        rw [Backend.run_bind_ok (Backend.run_outcome hask),
          Assignment.foldl_advance_of_failed hf, ← hworld, ← hsent]
        exact run_failed_step hu hf _ _
      | ok reply =>
        have hadvance := Assignment.advance_answered hc.failed hp hq hv
        have hrows : (a.advance c step).rows = c.rows ++ [a.output c step request reply] := by
          rw [hadvance]
        have hnow : (a.advance c step).now = a.backend.clock c.sent request := by rw [hadvance]
        have hsent : (a.advance c step).sent = c.sent ++ [request] := by rw [hadvance]
        -- What later prompts may use is what the loop hands on.
        have hproduced : (a.advance c step).produced =
            c.produced ++ [⟨step.number, (reply.result step request).output⟩] := by
          unfold Course.produced
          rw [hrows, List.map_append]
          rfl
        rw [hv] at hask
        rw [Backend.run_bind_ok (Backend.run_outcome hask), ← hsent]
        refine (run_kept_step hu hc hplaced hstep hrows hnow _ _ _).trans ?_
        rw [← hproduced]
        exact ih _ (k + 1) (Assignment.clear_of_answered hc hstep hp hq hv)
          (hplaced.advance step) (by omega) hrest

end

/-! ## §3. The run. -/

/-- A pending submission of known fields and values, without outputs under its attempt, and the
steps of its form in the order of their numbers `1 … N`, in whatever order they are stored; there
are none if the form has no active pipeline. -/
structure Prepared (w : World) (row : SubmissionRow) (fields : List Field)
    (values : Dictionary Value) (ordered : List Step) : Prop where
  found : w.store.submissions.get? row.id = some row
  pending : row.status = .pending
  fits : Store.fits row.id = true
  snapshot : row.storedFields = .ok (some fields)
  typed : row.storedValues = .ok values
  fresh : ∀ o ∈ w.store.outputs, o.submissionId = row.id → o.attempt ≠ row.attempt
  stored : ∃ steps, w.store.activeSteps row.formId = .ok steps ∧ ordered.Perm steps
  numbered : ordered.map (·.number) = List.range' 1 ordered.length
  up : w.outage = none

/-- What a run of a submission is given. -/
def Runner.assignment (r : Runner) (b : Backend) (w : World) (row : SubmissionRow)
    (fields : List Field) (values : Dictionary Value) : Assignment :=
  ⟨r.executor, b, row, fields, values, w.store.outputs.nextId⟩

section

variable {b : Backend} {r : Runner} {w : World} {row : SubmissionRow} {fields : List Field}
  {values : Dictionary Value} {ordered : List Step}

theorem World.along_start {now : Calendar.Instant} (h : w.now = now) :
    w.along { now } = w := by
  subst h
  unfold World.along
  rw [List.append_nil]

/-- It makes no difference for the end that the submission was being processed. -/
theorem settle_movedOn (c : Course) (row : SubmissionRow) (now : Calendar.Instant) :
    c.settle (row.movedOn .processing now) = c.settle row := by
  unfold Course.settle
  cases c.failed <;> rfl

theorem withSubmission_settle (w : World) (c : Course) (id : Int) (now : Calendar.Instant) :
    ((w.withSubmission id fun row => row.movedOn .processing now).along c).withSubmission id
      c.settle = (w.along c).withSubmission id c.settle := by
  have hrows : (w.store.submissions.replace id fun row => row.movedOn .processing now).replace id
      c.settle = w.store.submissions.replace id c.settle := by
    have hid : ∀ row : SubmissionRow, HasId.id (row.movedOn .processing now) = HasId.id row :=
      fun _ => rfl
    rw [Table.replace_replace hid, funext fun row => settle_movedOn c row now]
  show ({ w with
      store := { w.store with
        submissions := (w.store.submissions.replace id fun row =>
          row.movedOn .processing now).replace id c.settle
        outputs := w.store.outputs ++ c.rows }
      now := c.now } : World) = _
  rw [hrows]
  rfl

theorem Prepared.withRegistry (h : Prepared w row fields values ordered) (process : Nat)
    (registry : Registry) :
    Prepared (w.withRegistry process registry) row fields values ordered :=
  ⟨h.found, h.pending, h.fits, h.snapshot, h.typed, h.fresh, h.stored, h.numbered, h.up⟩

/-- At the start the course has no outputs, and neither has the attempt. -/
theorem Prepared.placed (h : Prepared w row fields values ordered) :
    (r.assignment b w row fields values).Placed w { now := w.now } where
  nextId := by
    rw [World.along_start rfl]
    show w.store.outputs.nextId = w.store.outputs.nextId + (0 : Nat)
    omega
  numbers := by
    rw [World.along_start rfl]
    exact Store.numbers_eq_nil h.fresh

/-- Without steps the submission is completed at once. -/
theorem run_runClaimed_nil (h : Prepared w row fields values []) (number : Nat) :
    b.run (r.runClaimed row.id number) w [] =
      (.ok (({ now := w.now } : Course).settle row),
        w.withSubmission row.id ({ now := w.now } : Course).settle, []) := by
  obtain ⟨steps, hsteps, hperm⟩ := h.stored
  obtain rfl : steps = [] := hperm.symm.eq_nil
  have hprocessing : ¬row.status = .processing := by
    rw [h.pending]
    decide
  have hbecome : row.status.canBecome .completed = true := by
    rw [h.pending]
    decide
  unfold Runner.runClaimed
  rw [Backend.run_bind_ok (run_reload h.found h.fits), if_neg hprocessing,
    Backend.run_bind_ok (run_stepsFor hsteps), if_pos List.isEmpty_nil,
    Backend.run_bind_ok (run_transition hbecome),
    Backend.run_bind_ok (run_leavePending h.found h.pending)]
  exact run_reload (World.get?_withSubmission_self _ (fun _ => rfl) h.found) h.fits

/-- All steps, once the submission is being processed. -/
theorem run_runAllSteps (h : Prepared w row fields values ordered) (hne : ordered ≠ [])
    {number : Nat} (hunasked : (w.registries r.process).isCancelled number = false) :
    b.run (r.runAllSteps row number ordered)
        (w.withSubmission row.id fun row => row.movedOn .processing w.now) [] =
      (.ok (((r.assignment b w row fields values).course ordered w.now).settle row),
        (w.along ((r.assignment b w row fields values).course ordered w.now)).withSubmission row.id
          ((r.assignment b w row fields values).course ordered w.now).settle,
        ((r.assignment b w row fields values).course ordered w.now).sent) := by
  let a := r.assignment b w row fields values
  have hstart : (w.withSubmission row.id fun row => row.movedOn .processing w.now).along
      { now := w.now } = w.withSubmission row.id fun row => row.movedOn .processing w.now :=
    World.along_start rfl
  have hunderway : a.Underway r number (row.movedOn .processing w.now)
      (w.withSubmission row.id fun row => row.movedOn .processing w.now) :=
    ⟨rfl, World.get?_withSubmission_self _ (fun _ => rfl) h.found, rfl, h.fits, h.up, hunasked⟩
  have hplaced : a.Placed (w.withSubmission row.id fun row => row.movedOn .processing w.now)
      { now := w.now } := ⟨h.placed.nextId, h.placed.numbers⟩
  have hloop := run_runSteps hunderway ordered { now := w.now } 0 ⟨rfl, rfl, rfl⟩ hplaced
    (by rw [Nat.zero_add]; exact List.length_pos_iff.2 hne) h.numbered
  rw [hstart, settle_movedOn] at hloop
  unfold Runner.runAllSteps
  rw [h.typed, Backend.run_bind_ok (run_fieldsFor h.snapshot),
    Backend.run_bind_ok (Backend.run_ofExcept _), ← withSubmission_settle w _ row.id w.now]
  exact hloop

/-- A run that holds its slot follows the course of its submission. -/
theorem run_runClaimed (h : Prepared w row fields values ordered) {number : Nat}
    (hunasked : (w.registries r.process).isCancelled number = false) :
    b.run (r.runClaimed row.id number) w [] =
      (.ok (((r.assignment b w row fields values).course ordered w.now).settle row),
        (w.along ((r.assignment b w row fields values).course ordered w.now)).withSubmission row.id
          ((r.assignment b w row fields values).course ordered w.now).settle,
        ((r.assignment b w row fields values).course ordered w.now).sent) := by
  by_cases hne : ordered = []
  · -- No steps: the course has not moved.
    subst hne
    show _ = (_, (w.along { now := w.now }).withSubmission row.id _, _)
    rw [World.along_start rfl]
    exact run_runClaimed_nil h number
  · obtain ⟨steps, hsteps, hperm⟩ := h.stored
    have hsome : ¬steps.isEmpty = true := fun he =>
      hne (List.Perm.eq_nil (List.isEmpty_iff.1 he ▸ hperm))
    have hprocessing : ¬row.status = .processing := by
      rw [h.pending]
      decide
    have hbecome : row.status.canBecome .processing = true := by
      rw [h.pending]
      decide
    unfold Runner.runClaimed
    rw [Backend.run_bind_ok (run_reload h.found h.fits), if_neg hprocessing,
      Backend.run_bind_ok (run_stepsFor hsteps), if_neg hsome,
      Backend.run_bind_ok (run_transition hbecome),
      Backend.run_bind_ok (run_leavePending h.found h.pending),
      checkDense_eq_ok.2 ⟨hperm, h.numbered⟩]
    exact Backend.run_bind_ok (Backend.run_outcome (run_runAllSteps h hne hunasked)) _

/-- The world after a run: the course has been followed, and the slot is free. -/
def World.concluded (w : World) (process : Nat) (id : Int) (c : Course) : World :=
  ((w.along c).withSubmission id c.settle).withRegistry process (w.registries process).outlived

/-- **A whole run** follows the course of its submission. -/
theorem run_run (h : Prepared w row fields values ordered)
    (hfree : (w.registries r.process).isActive row.id = false) :
    b.run (r.run row.id) w [] =
      (.ok (((r.assignment b w row fields values).course ordered w.now).settle row),
        w.concluded r.process row.id ((r.assignment b w row fields values).course ordered w.now),
        ((r.assignment b w row fields values).course ordered w.now).sent) := by
  have hself := w.registries_withRegistry_self r.process
    ((w.registries r.process).holding row.id)
  have hclaimed := run_runClaimed (b := b) (r := r)
    (h.withRegistry r.process ((w.registries r.process).holding row.id))
    (by rw [hself]; exact Registry.isCancelled_holding _ _)
  unfold Runner.run
  rw [Backend.run_bind_ok (run_claimSlot hfree)]
  refine (Backend.run_andFinally hclaimed run_freeSlot).trans ?_
  show (_, ((w.along _).withSubmission row.id _).withRegistry r.process
    ((w.registries r.process).holding row.id) |>.withRegistry r.process
      (((w.withRegistry r.process ((w.registries r.process).holding row.id)).registries
        r.process).finish row.id), _) = _
  -- The slot is given back, and all that is left of the run is its number.
  rw [hself, Registry.finish_holding hfree, World.withRegistry_withRegistry]
  rfl

end

/-! ## §4. The result. -/

namespace Undisturbed

/-- A step, and another one that uses its output. -/
def twoSteps : List Step :=
  [⟨1, "Draft", "Write", none, none⟩, ⟨2, "Review", "Check {step_1_output}", none, none⟩]

def submission : SubmissionRow :=
  { id := 1, formId := 1, fieldSnapshot := .arr [], submittedAt := ⟨0⟩ }

/-- The steps are stored the other way round. -/
def world : World where
  store :=
    { pipelines := [{ id := 1, formId := 1, steps := .arr (twoSteps.reverse.map Step.toJson)
                      createdAt := ⟨0⟩, updatedAt := ⟨0⟩ }]
      submissions := [submission] }
  tokens := fun _ => ""

/-- The first request is answered, and all others take too long. -/
def tired : Backend where
  answer earlier _ :=
    if earlier.isEmpty then .replied ⟨"a rhyme", "base", some 3, .finite false 3 (-1), rfl, rfl⟩ else .timedOut
  clock earlier _ := ⟨earlier.length⟩

def runner : Runner := ⟨0, { defaultModel := "base", timeout := .int 1 }⟩

theorem prepared : Prepared world submission [] [] twoSteps where
  found := rfl
  pending := rfl
  fits := rfl
  snapshot := rfl
  typed := rfl
  fresh := fun _ ho => absurd ho List.not_mem_nil
  stored := ⟨twoSteps.reverse, rfl, (List.reverse_perm _).symm⟩
  numbered := rfl
  up := rfl

end Undisturbed

end PromptForms
