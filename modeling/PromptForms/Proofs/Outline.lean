/-
  PromptForms.Proofs.Outline
  ──────────────────────────
  **THE OUTLINE OF A RUN.**

  A run passes through few conditions: it has not touched its submission, it has read
  the row, it has loaded the steps, it holds the submission and has stored the outputs
  of its first steps, it is over.  An outline says what these conditions are under a
  contract and that each single statement leads from one to the next.  That the whole
  run then keeps to the contract is proved here, once.

  Main results:
    • `Outline.runSteps` — the loop over the steps, by induction on the steps that
      remain; `k` outputs are stored when step `k + 1` is next.
    • `Outline.run` — a run ends as the outline says.
-/
import PromptForms.Proofs.Collision
import PromptForms.Proofs.Contract
import PromptForms.Proofs.Numbering

namespace PromptForms

/-! ## §1. Outlines. -/

/-- The conditions that a run of a submission passes through under a contract, and what its single
statements do to them. -/
structure Outline (C : Contract) (r : Runner) (id : Int) where
  before : Deeds → World → Prop
  /-- The slot is taken, and nothing has been written. -/
  idle : Deeds → World → Prop
  /-- The row has been read as it was. -/
  seen : SubmissionRow → Deeds → World → Prop
  /-- The steps have been loaded too. -/
  ready : SubmissionRow → List Step → Deeds → World → Prop
  /-- The submission is held, and `k` of the `n` steps have stored their outputs. -/
  held : SubmissionRow → (n k : Nat) → Deeds → World → Prop
  /-- The attempt has been ended. -/
  closed : Deeds → World → Prop
  /-- The run fails without having held the submission. -/
  lost : Failure → Deeds → World → Prop
  /-- The run may fail in this way once it holds the submission. -/
  mishap : Failure → Prop
  /-- How the run ends, with its slot free. -/
  ended : Except Failure SubmissionRow → Deeds → World → Prop
  mishap_of_not_isCollision : ∀ e, ¬e.IsCollision → mishap e
  held_id : ∀ row n k g w, held row n k g w → row.id = id
  lost_of_processing : ∀ row, row.status = .processing →
    ∀ g w, seen row g w → lost (Failure.ofCause (.concurrentRun id)) g w
  lost_of_transition : ∀ row steps target c, row.status.transition target = .error c →
    ∀ g w, ready row steps g w → lost (Failure.ofCause c) g w
  claimSlot : C.Triple before (r.claimSlot id) fun
    | .ok _ => idle
    | .error e => ended (.error e)
  reload : C.Triple idle (Runner.reload id) fun
    | .ok row => seen row
    | .error e => lost e
  stepsFor : ∀ row, C.Triple (seen row) (Runner.stepsFor row.formId) fun
    | .ok steps => ready row steps
    | .error e => lost e
  complete : ∀ row, C.Triple (ready row []) (Runner.leavePending id .completed) fun
    | .ok () => closed
    | .error e => lost e
  reload_held : ∀ row n k,
    C.Triple (held row n k) (Runner.reload id) (Contract.surely fun _ => held row n k)
  reload_closed : C.Triple closed (Runner.reload id) fun res g w =>
    closed g w ∧ ∀ e, res = .error e → mishap e
  start : ∀ row steps, steps ≠ [] →
    C.Triple (ready row steps) (Runner.leavePending id .processing) fun
      | .ok () => held row steps.length 0
      | .error e => lost e
  isCancelled : ∀ row n k run,
    C.Triple (held row n k) (r.isCancelled run) (Contract.surely fun _ => held row n k)
  fieldsFor : ∀ row n k, C.Triple (held row n k) (Runner.fieldsFor row) fun res g w =>
    held row n k g w ∧ ∀ e, res = .error e → mishap e
  request : ∀ row n k q,
    C.Triple (held row n k) (Job.request q) (Contract.surely fun _ => held row n k)
  storeOutput : ∀ row n k (result : StepResult), result.number = k + 1 →
    C.Triple (held row n k) (Runner.storeOutput row result) fun
      | .ok () => held row n (k + 1)
      | .error e => fun g w => held row n k g w ∧ mishap e
  finish_completed : ∀ row n, C.Triple (held row n n) (Runner.finish id .completed none)
    (Contract.surely fun _ => closed)
  finish_failed : ∀ row n k message,
    C.Triple (held row n k) (Runner.finish id .failed (some message)) (Contract.surely fun _ => closed)
  freeSlot_lost : ∀ e, C.Triple (lost e) (r.freeSlot id) fun _ => ended (.error e)
  freeSlot_closed : ∀ res, (∀ e, res = .error e → mishap e) →
    C.Triple closed (r.freeSlot id) fun _ => ended res

namespace Outline

variable {C : Contract} {r : Runner} {id : Int}

/-- Either the attempt has been ended, or something went wrong on the way and the submission is
still held. -/
def carried (o : Outline C r id) (row : SubmissionRow) (n : Nat) :
    Except Failure SubmissionRow → Deeds → World → Prop
  | .ok _, g, w => o.closed g w
  | .error e, g, w => o.mishap e ∧ ∃ k, o.held row n k g w

/-- How a run ends before its slot is free. -/
def stopped (o : Outline C r id) : Except Failure SubmissionRow → Deeds → World → Prop
  | .ok _, g, w => o.closed g w
  | .error e, g, w => o.lost e g w ∨ o.closed g w ∧ o.mishap e

/-! ## §2. The loop over the steps. -/

theorem carried_of_surely (o : Outline C r id) {row : SubmissionRow} {n : Nat}
    (res : Except Failure SubmissionRow) (g : Deeds) (w : World)
    (h : Contract.surely (fun _ => o.closed) res g w) : o.carried row n res g w := by
  cases res with
  | ok final => exact h
  | error e => exact h.elim

theorem execute (o : Outline C r id) (row : SubmissionRow) (n k : Nat) (step : Step)
    (context : Template.Context) :
    C.Triple (o.held row n k) (r.executor.execute step context) fun res g w =>
      o.held row n k g w ∧ Executed step res := by
  unfold Executor.execute
  cases Template.resolve r.executor.mode step.prompt context with
  | error names =>
    refine Contract.triple_fail fun g w h => ⟨h, ?_⟩
    rintro ⟨message, h⟩
    cases h
  | ok prompt =>
    refine Contract.triple_bind (o.request row n k _) (fun outcome => ?_) fun e g w h => h.elim
    exact Contract.triple_ofExcept fun g w h => ⟨h, executed_judge _ _ _ _⟩

/-- Ending the attempt as failed. -/
theorem finish_carried (o : Outline C r id) {row : SubmissionRow} {n k : Nat} (message : String)
    (hid : row.id = id) :
    C.Triple (o.held row n k) (Runner.finish row.id .failed (some message)) (o.carried row n) := by
  rw [hid]
  exact (o.finish_failed row n k message).mono (fun _ _ h => h) o.carried_of_surely

/-- **The loop.**  With `k` outputs stored and the remaining steps numbered from `k + 1`, the run
carries the attempt to its end or reports what went wrong. -/
theorem runSteps (o : Outline C r id) (row : SubmissionRow) (run : Nat) (fields : List Field)
    (values : Dictionary Value) (hid : row.id = id) (n : Nat) (steps : List Step) :
    ∀ (produced : List Template.Output) (k : Nat),
      steps.map (·.number) = List.range' (k + 1) steps.length → k + steps.length = n →
      C.Triple (o.held row n k) (r.runSteps row run fields values produced steps)
        (o.carried row n) := by
  -- On the remaining steps; `k` counts the outputs, whose texts do not matter here.
  induction steps with
  | nil =>
    intro produced k _ hn
    obtain rfl : k = n := by simpa using hn
    unfold Runner.runSteps
    rw [hid]
    exact (o.finish_completed row k).mono (fun _ _ h => h) o.carried_of_surely
  | cons step rest ih =>
    intro produced k hnum hn
    rw [List.map_cons, List.length_cons, List.range'_succ, List.cons.injEq] at hnum
    obtain ⟨hstep, hrest⟩ := hnum
    unfold Runner.runSteps
    refine Contract.triple_bind (o.isCancelled row n k run) (fun stop => ?_) fun e g w h => h.elim
    refine Contract.triple_ite (fun _ => o.finish_carried _ hid) fun _ => ?_
    refine Contract.triple_bind (Contract.triple_outcome (o.execute row n k step _))
      (fun outcome => ?_) fun e g w h => h.elim
    refine Contract.Triple.of_fact (fun g w h => h.2) fun hex => ?_
    -- An interruption goes on at once; everything else waits for the second look at the request
    -- to stop.
    split
    · exact Contract.triple_throw fun g w h => ⟨o.mishap_of_not_isCollision _ hex, k, h.1⟩
    · refine Contract.triple_bind (R := Contract.surely fun _ => o.held row n k)
        ((o.isCancelled row n k run).mono (fun _ _ h => h.1) fun _ _ _ h => h)
        (fun stop => ?_) fun e g w h => h.elim
      refine Contract.triple_ite (fun _ => o.finish_carried _ hid) fun _ => ?_
      split
      · rename_i result _
        have hresult : result.number = step.number := hex
        refine Contract.triple_bind (o.storeOutput row n k result (hresult.trans hstep)) (fun _ => ?_)
          fun e g w h => ⟨h.2, k, h.1⟩
        exact ih _ (k + 1) hrest (by rw [List.length_cons] at hn; omega)
      · exact o.finish_carried _ hid
      · exact Contract.triple_throw fun g w h => ⟨o.mishap_of_not_isCollision _ hex, k, h⟩

/-! ## §3. The run. -/

theorem runAllSteps (o : Outline C r id) (row : SubmissionRow) (run : Nat) (hid : row.id = id)
    {steps : List Step} (hnum : steps.map (·.number) = List.range' 1 steps.length) :
    C.Triple (o.held row steps.length 0) (r.runAllSteps row run steps)
      (o.carried row steps.length) := by
  unfold Runner.runAllSteps
  refine Contract.triple_bind (o.fieldsFor row steps.length 0) (fun fields => ?_)
    fun e g w h => ⟨h.2 e rfl, 0, h.1⟩
  refine Contract.triple_bind (R := fun values g w => o.held row steps.length 0 g w ∧
      NoCollision values)
    (Contract.triple_ofExcept fun g w h => ⟨h.1, noCollision_of_foreign (foreign_storedValues row)⟩)
    (fun values => ?_) fun e g w h => ⟨o.mishap_of_not_isCollision e (h.2 e rfl), 0, h.1⟩
  exact (o.runSteps row run fields values hid steps.length steps [] 0 hnum (Nat.zero_add _)).mono
    (fun g w h => h.1) fun _ _ _ h => h

/-- A run that breaks off ends the attempt, and its failure goes on. -/
theorem breakOff (o : Outline C r id) (row : SubmissionRow) (n k : Nat) (e : Failure)
    (he : o.mishap e) : C.Triple (o.held row n k) (Runner.breakOff id e) o.stopped := by
  have hthrow : C.Triple o.closed (throw e : Job SubmissionRow) o.stopped :=
    Contract.triple_throw fun g w h => .inr ⟨h, he⟩
  unfold Runner.breakOff
  split
  · exact Contract.triple_bind (o.finish_failed row n k _) (fun _ => hthrow) fun e g w h => h.elim
  · have hrecord : C.Triple (o.held row n k) (Job.outcome do
        let _ ← Runner.reload id
        Runner.finish id .failed (some s!"Run aborted: {e.name}"))
        (Contract.surely (Contract.surely fun _ => o.closed)) :=
      Contract.triple_outcome (Contract.triple_bind (o.reload_held row n k)
        (fun _ => o.finish_failed row n k _) fun e g w h => h.elim)
    refine Contract.triple_bind hrecord (fun recorded => ?_) fun e g w h => h.elim
    refine hthrow.mono (fun g w h => ?_) fun _ _ _ h => h
    cases recorded with
    | ok final => exact h
    | error e => exact h.elim

theorem eq_of_transition {current target reached : Status}
    (h : current.transition target = .ok reached) : reached = target := by
  unfold Status.transition at h
  split at h
  · cases h
    rfl
  · cases h

/-- A run that has loaded at least one step. -/
theorem runLoaded (o : Outline C r id) (row : SubmissionRow) (run : Nat) (steps : List Step) :
    C.Triple (o.held row steps.length 0)
      (match checkDense steps with
        | .error e => do
          let message := s!"Pipeline configuration error: {e.message}"
          let _ ← Runner.finish id .failed (some message)
          Job.fail (.pipelineConfiguration message)
        | .ok ordered => do
          match ← Job.outcome (r.runAllSteps row run ordered) with
          | .ok final => return final
          | .error failure => Runner.breakOff id failure) o.stopped := by
  refine Contract.Triple.of_fact (o.held_id row steps.length 0) fun hid => ?_
  cases hd : checkDense steps with
  | error e =>
    refine Contract.triple_bind (o.finish_failed row _ 0 _) (fun _ => ?_) fun e g w h => h.elim
    refine Contract.triple_fail fun g w h => .inr ⟨h, o.mishap_of_not_isCollision _ ?_⟩
    rintro ⟨message, h⟩
    cases h
  | ok ordered =>
    obtain ⟨hperm, hnum⟩ := checkDense_eq_ok.1 hd
    rw [← hperm.length_eq]
    refine Contract.triple_bind (Contract.triple_outcome (o.runAllSteps row run hid hnum))
      (fun outcome => ?_) fun e g w h => h.elim
    cases outcome with
    | ok final => exact Contract.triple_pure fun g w h => h
    | error failure =>
      intro g w h
      obtain ⟨he, k, hk⟩ := h
      exact o.breakOff row ordered.length k failure he g w hk

/-- The check before the status changes. -/
theorem transition (o : Outline C r id) (row : SubmissionRow) (steps : List Step)
    (target : Status) :
    C.Triple (o.ready row steps) (Job.ofCauses (row.status.transition target)) fun
      | .ok reached => fun g w => o.ready row steps g w ∧ reached = target
      | .error e => o.lost e := by
  refine Contract.triple_ofCauses (fun reached ht g w h => ⟨h, ?_⟩)
    fun c hc g w h => o.lost_of_transition row steps target c hc g w h
  exact eq_of_transition ht

/-- A run without steps only completes the submission. -/
theorem runEmpty (o : Outline C r id) (row : SubmissionRow) :
    C.Triple (o.ready row [])
      (do
        let target ← Job.ofCauses (row.status.transition .completed)
        Runner.leavePending id target
        Runner.reload id) o.stopped := by
  refine Contract.triple_bind (o.transition row [] .completed) (fun target => ?_)
    fun e g w h => .inl h
  refine Contract.Triple.of_fact (fun g w h => h.2) ?_
  rintro rfl
  refine Contract.triple_bind ((o.complete row).mono (fun _ _ h => h.1) fun _ _ _ h => h)
    (fun _ => ?_) fun e g w h => .inl h
  refine o.reload_closed.mono (fun _ _ h => h) fun res g w h => ?_
  cases res with
  | ok final => exact h.1
  | error e => exact .inr ⟨h.1, h.2 e rfl⟩

theorem runClaimed (o : Outline C r id) (run : Nat) :
    C.Triple o.idle (r.runClaimed id run) o.stopped := by
  unfold Runner.runClaimed
  refine Contract.triple_bind o.reload (fun row => ?_) fun e g w h => .inl h
  refine Contract.triple_refuse (fun hp g w h => .inl (o.lost_of_processing row hp g w h)) fun _ => ?_
  refine Contract.triple_bind (o.stepsFor row) (fun steps => ?_) fun e g w h => .inl h
  refine Contract.triple_ite (fun hempty => ?_) fun hsome => ?_
  · obtain rfl : steps = [] := List.isEmpty_iff.1 hempty
    exact o.runEmpty row
  · have hne : steps ≠ [] := fun h => hsome (List.isEmpty_iff.2 h)
    refine Contract.triple_bind (o.transition row steps .processing) (fun target => ?_)
      fun e g w h => .inl h
    refine Contract.Triple.of_fact (fun g w h => h.2) ?_
    rintro rfl
    exact Contract.triple_bind ((o.start row steps hne).mono (fun _ _ h => h.1) fun _ _ _ h => h)
      (fun _ => o.runLoaded row run steps) fun e g w h => .inl h

/-- **A run.**  However it goes, a run keeps to the contract and ends as the outline says. -/
theorem run (o : Outline C r id) : C.Triple o.before (r.run id) o.ended := by
  unfold Runner.run
  refine Contract.triple_bind o.claimSlot (fun number => ?_) fun e g w h => h
  refine Contract.triple_andFinally (o.runClaimed number) fun res => ?_
  cases res with
  | ok final => exact o.freeSlot_closed (.ok final) fun e he => nomatch he
  | error e =>
    intro g w h
    rcases h with h | ⟨h, he⟩
    · exact o.freeSlot_lost e g w h
    · exact o.freeSlot_closed (.error e) (fun e' he' => by cases he'; exact he) g w h

end Outline

end PromptForms
