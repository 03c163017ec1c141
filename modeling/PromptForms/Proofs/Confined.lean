/-
  PromptForms.Proofs.Confined
  ───────────────────────────
  **THE WAYS IN WHICH A RUN FAILS.**

  Once it has taken its submission, a run ends the attempt with one of a few verdicts, and
  it fails, if at all, in one of a few ways.  What has to be said of each statement of such
  a run depends on what is to be shown; that the whole run follows from its statements does
  not.  So the run is gone through once, in any logic that speaks about what jobs end with.

      Verdict       how a run ends an attempt
      JobLogic      what a job ends with, and how that goes with building jobs
      Confines      what single statements have to do

  Main results:
    • Confines.runOrdered    the part of a run that executes steps
    • Contract.jobLogic      keeping to a contract is such a logic
-/
import PromptForms.Proofs.Statements

namespace PromptForms

/-! ## §1. Verdicts. -/

/-- How a run that executes steps ends the attempt: the status and the message. -/
inductive Verdict : Status → Option String → Prop
  | completed : Verdict .completed none
  | cancelledBefore (step : Step) :
      Verdict .failed (some s!"Run cancelled before step {Runner.stepTitle step}")
  | cancelledDuring (step : Step) :
      Verdict .failed (some s!"Run cancelled during step {Runner.stepTitle step}")
  | stepFailed (step : Step) (cause : String) :
      Verdict .failed (some s!"Step {Runner.stepTitle step} failed: {cause}")
  | interrupted : Verdict .failed (some "Run interrupted")
  | aborted (failure : Failure) : Verdict .failed (some s!"Run aborted: {failure.name}")

theorem Verdict.shape {target : Status} {message : Option String} (h : Verdict target message) :
    target = .completed ∧ message = none ∨ target = .failed ∧ message.isSome = true := by
  cases h with
  | completed => exact .inl ⟨rfl, rfl⟩
  | cancelledBefore | cancelledDuring | stepFailed | interrupted | aborted => exact .inr ⟨rfl, rfl⟩

/-! ## §2. Logics of jobs. -/

/-- A way to say that a job does what it should from anywhere, and what it ends with. -/
structure JobLogic (K : {α : Type} → Job α → (Except Failure α → Prop) → Prop) : Prop where
  mono : ∀ {α : Type} {j : Job α} {Q Q' : Except Failure α → Prop}, K j Q →
    (∀ res, Q res → Q' res) → K j Q'
  ofExcept : ∀ {α : Type} {x : Except Failure α} {Q : Except Failure α → Prop}, Q x →
    K (Job.ofExcept x) Q
  bind : ∀ {α β : Type} {j : Job β} {f : β → Job α} {R : Except Failure β → Prop}
    {Q : Except Failure α → Prop}, K j R → (∀ b, R (.ok b) → K (f b) Q) →
    (∀ e, R (.error e) → Q (.error e)) → K (j >>= f) Q
  outcome : ∀ {α : Type} {j : Job α} {Q : Except Failure α → Prop}, K j Q →
    K (Job.outcome j) fun res => ∃ found, res = .ok found ∧ Q found
  request : ∀ request, K (Job.request request) fun res => ∃ outcome, res = .ok outcome

namespace JobLogic

variable {K : {α : Type} → Job α → (Except Failure α → Prop) → Prop} {α β : Type}
  {P : Failure → Prop}

theorem pure (h : JobLogic K) {a : α} {Q : Except Failure α → Prop} (ha : Q (.ok a)) :
    K (pure a : Job α) Q := h.ofExcept ha

theorem throw (h : JobLogic K) {e : Failure} {Q : Except Failure α → Prop} (he : Q (.error e)) :
    K (throw e : Job α) Q := h.ofExcept he

/-- A job after one that fails in some ways only. -/
theorem failsOnly_bind (h : JobLogic K) {j : Job β} {f : β → Job α} (hj : K j (FailsOnly P))
    (hf : ∀ b, K (f b) (FailsOnly P)) : K (j >>= f) (FailsOnly P) :=
  h.bind hj (fun b _ => hf b) fun e he => failsOnly_error (he e rfl)

theorem ite (_ : JobLogic K) {c : Prop} [Decidable c] {j k : Job α}
    {Q : Except Failure α → Prop} (hj : K j Q)
    (hk : K k Q) : K (if c then j else k) Q := by
  split
  · exact hj
  · exact hk

/-- A job that refuses to go on in some case. -/
theorem refuse (h : JobLogic K) {c : Prop} [Decidable c] {cause : Cause} {rest : PUnit → Job α}
    {Q : Except Failure α → Prop} (hfail : Q (.error (Failure.ofCause cause)))
    (hrest : K (rest ⟨⟩) Q) : K (if c then Job.fail cause >>= rest else rest ⟨⟩) Q :=
  h.ite (h.throw hfail) hrest

/-- A job after one that does not fail. -/
theorem surely_bind (h : JobLogic K) {j : Job β} {f : β → Job α} {Q : Except Failure α → Prop}
    (hj : K j fun res => ∃ b, res = .ok b) (hf : ∀ b, K (f b) Q) : K (j >>= f) Q :=
  h.bind hj (fun b _ => hf b) fun _ he => nomatch he

/-- The outcome of a job as a value: what it ends with is known. -/
theorem outcome_bind (h : JobLogic K) {j : Job β} {f : Except Failure β → Job α}
    {R : Except Failure β → Prop} {Q : Except Failure α → Prop} (hj : K j R)
    (hf : ∀ res, R res → K (f res) Q) : K (Job.outcome j >>= f) Q := by
  apply h.bind (h.outcome hj)
  · rintro res ⟨_, ⟨⟩, hres⟩
    exact hf res hres
  · rintro e ⟨res, hres, -⟩
    cases hres

end JobLogic

/-! ## §3. A run that has taken its submission. -/

/-- What the statements of a run have to do. -/
structure Confines (K : {α : Type} → Job α → (Except Failure α → Prop) → Prop)
    (P : Failure → Prop) : Prop extends JobLogic K where
  foreign : ∀ e : Failure, e.IsForeign → P e
  step : ∀ number cause, P (Failure.ofCause (.step number cause))
  isCancelled : ∀ (r : Runner) run, K (r.isCancelled run) fun res => ∃ stop, res = .ok stop
  finish : ∀ id {target message}, Verdict target message →
    K (Runner.finish id target message) (FailsOnly P)
  storeOutput : ∀ row result, K (Runner.storeOutput row result) (FailsOnly P)
  reload : ∀ id, K (Runner.reload id) (FailsOnly P)

namespace Confines

variable {K : {α : Type} → Job α → (Except Failure α → Prop) → Prop} {P : Failure → Prop}
  {r : Runner} {id : Int}

theorem ofStep (h : Confines K P) {step : Step} {e : Failure} (he : e.IsOfStep step) : P e := by
  rcases he with he | ⟨cause, rfl⟩
  · exact h.foreign e he
  · exact h.step step.number cause

theorem execute (h : Confines K P) (step : Step) (context : Template.Context) :
    K (r.executor.execute step context) (FailsOnly P) := by
  unfold Executor.execute
  cases Template.resolve r.executor.mode step.prompt context with
  | error names => exact h.throw (failsOnly_error (h.step step.number _))
  | ok prompt =>
    apply h.surely_bind (h.request _)
    intro outcome
    exact h.ofExcept ((failsOnly_judge _ _ _ _).mono fun _ => h.ofStep)

theorem runSteps (h : Confines K P) (row : SubmissionRow) (run : Nat) (fields : List Field)
    (values : Dictionary Value) (steps : List Step) :
    ∀ produced, K (r.runSteps row run fields values produced steps) (FailsOnly P) := by
  induction steps with
  | nil => exact fun _ => h.finish row.id .completed
  | cons step rest ih =>
    intro produced
    unfold Runner.runSteps
    apply h.surely_bind (h.isCancelled r run)
    intro stop
    apply h.ite (h.finish row.id (.cancelledBefore step))
    apply h.outcome_bind (h.execute step _)
    intro outcome houtcome
    -- An interruption goes on at once; everything else waits for the second look at the request
    -- to stop.
    split
    · exact h.throw (failsOnly_error (houtcome _ rfl))
    · apply h.surely_bind (h.isCancelled r run)
      intro stop
      apply h.ite (h.finish row.id (.cancelledDuring step))
      split
      · exact h.failsOnly_bind (h.storeOutput row _) fun _ => ih _
      · exact h.finish row.id (.stepFailed step _)
      · exact h.throw (failsOnly_error (houtcome _ rfl))

/-- All steps, once the fields can be looked up. -/
theorem runAllSteps (h : Confines K P) {row : SubmissionRow}
    (hfields : K (Runner.fieldsFor row) (FailsOnly P)) (run : Nat) (steps : List Step) :
    K (r.runAllSteps row run steps) (FailsOnly P) := by
  unfold Runner.runAllSteps
  apply h.failsOnly_bind hfields
  intro fields
  apply h.failsOnly_bind (h.ofExcept ((foreign_storedValues row).mono h.foreign))
  intro values
  exact h.runSteps row run fields values steps []

/-- A run that breaks off fails as it did before. -/
theorem breakOff (h : Confines K P) {e : Failure} (he : P e) :
    K (Runner.breakOff id e) (FailsOnly P) := by
  unfold Runner.breakOff
  split
  · exact h.failsOnly_bind (h.finish id .interrupted) fun _ => h.throw (failsOnly_error he)
  · apply h.outcome_bind
    · exact h.failsOnly_bind (h.reload id) fun _ => h.finish id (.aborted e)
    · exact fun _ _ => h.throw (failsOnly_error he)

/-- A run whose steps are in order. -/
theorem runOrdered (h : Confines K P) {row : SubmissionRow}
    (hfields : K (Runner.fieldsFor row) (FailsOnly P)) (run : Nat) (steps : List Step) :
    K (do
      match ← Job.outcome (r.runAllSteps row run steps) with
      | .ok final => return final
      | .error failure => Runner.breakOff id failure : Job SubmissionRow) (FailsOnly P) := by
  apply h.outcome_bind (h.runAllSteps hfields run steps)
  intro outcome houtcome
  cases outcome with
  | ok final => exact h.pure (failsOnly_ok final)
  | error failure => exact h.breakOff (houtcome failure rfl)

end Confines

/-! ## §4. Contracts. -/

namespace Contract

variable {α : Type} {C : Contract}

/-- From anywhere, the job keeps to the contract; what it ends with. -/
def Ensures (C : Contract) (j : Job α) (Q : Except Failure α → Prop) : Prop :=
  C.Triple (fun _ _ => True) j fun res _ _ => Q res

theorem jobLogic (C : Contract) : JobLogic C.Ensures where
  mono := fun h hQ => Triple.mono h (fun _ _ h => h) fun res _ _ => hQ res
  ofExcept := fun h => triple_ofExcept fun _ _ _ => h
  bind := by
    intro α β j f R Q hj hf he
    apply triple_bind hj
    · intro b
      apply Triple.of_fact fun _ _ hR => hR
      exact fun hR => Triple.mono (hf b hR) (fun _ _ _ => trivial) fun _ _ _ h => h
    · exact fun e _ _ => he e
  outcome := by
    intro α j Q hj
    apply Triple.mono (triple_outcome hj) fun _ _ h => h
    rintro (e | found) g w h
    · exact h.elim
    · exact ⟨found, rfl, h⟩
  request := fun _ => triple_request fun _ _ _ outcome _ _ => ⟨outcome, rfl⟩

/-- From an invariant on, the job keeps to the contract, and the invariant holds at its end. -/
theorem keepingLogic {I : Deeds → World → Prop}
    (hpause : ∀ g w w', I g w → C.pause g w w' → I g w') :
    JobLogic fun j Q => C.Triple I j fun res g w => I g w ∧ Q res where
  mono := fun h hQ => Triple.mono h (fun _ _ h => h) fun res _ _ h => ⟨h.1, hQ res h.2⟩
  ofExcept := fun h => triple_ofExcept fun _ _ hI => ⟨hI, h⟩
  bind := by
    intro α β j f R Q hj hf he
    apply triple_bind hj
    · intro b
      apply Triple.of_fact fun _ _ h => h.2
      exact fun hR => Triple.mono (hf b hR) (fun _ _ h => h.1) fun _ _ _ h => h
    · exact fun e g w h => ⟨h.1, he e h.2⟩
  outcome := by
    intro α j Q hj
    apply Triple.mono (triple_outcome hj) fun _ _ h => h
    rintro (e | found) g w h
    · exact h.elim
    · exact ⟨h.1, found, rfl, h.2⟩
  request := fun _ => triple_request fun g w hI outcome w' hw => ⟨hpause g w w' hI hw, outcome, rfl⟩

/-- Looking up the fields does not touch the store. -/
theorem ensures_fieldsFor (hquiet : C.Quiet fun _ _ => True) {P : Failure → Prop}
    (hforeign : ∀ e : Failure, e.IsForeign → P e)
    (hmissing : ∀ form, P (Failure.ofCause (.formNotFound form))) (row : SubmissionRow) :
    C.Ensures (Runner.fieldsFor row) (FailsOnly P) := by
  apply (triple_fieldsFor hquiet row).mono (fun _ _ h => h)
  intro res g w hres e he
  rcases hres.2 e he with he | rfl
  · exact hforeign e he
  · exact hmissing _

/-- Looking whether a run has been asked to stop. -/
theorem ensures_isCancelled (hquiet : C.Quiet fun _ _ => True) (r : Runner) (run : Nat) :
    C.Ensures (r.isCancelled run) fun res => ∃ stop, res = .ok stop := by
  apply (triple_isCancelled hquiet run).mono (fun _ _ h => h)
  rintro (e | stop) g w h
  · exact h.elim
  · exact ⟨stop, rfl⟩

end Contract

end PromptForms
