/-
  PromptForms.Proofs.Alone
  ────────────────────────
  **JOBS BY THEMSELVES.**

  A generator that keeps to the types answers the requests of one job, and nobody else
  does anything.  Then a job is a function of the world and of the requests that were
  sent before: one law for each way of building a job, and one for each statement of a
  run, where it does what it is there for.

      Backend.surroundings    what surrounds the job
      Backend.run             its outcome, the world after it, and everything it sends
      run_…                   what the statements of a run come to
-/
import PromptForms.Proofs.Course

namespace PromptForms

/-! ## §1. Jobs by themselves. -/

namespace Backend

/-- Only requests let time pass, and nobody else does anything. -/
def surroundings (b : Backend) : Plan.Surroundings (List Request) where
  answer request w sent :=
    ((b.answer sent request).outcome, { w with now := b.clock sent request }, sent ++ [request])
  react _ after sent := (after, sent)

/-- Runs a job by itself, after some requests. -/
def run {α : Type} (b : Backend) (job : Job α) (w : World) (sent : List Request) :
    Except Failure α × World × List Request := Plan.run b.surroundings job.run w sent

variable {b : Backend} {α β : Type} {w w' : World} {sent sent' : List Request}

theorem run_bind_ok {job : Job α} {a : α} (h : b.run job w sent = (.ok a, w', sent'))
    (f : α → Job β) : b.run (job >>= f) w sent = b.run (f a) w' sent' := by
  show Plan.run b.surroundings (Plan.bind job.run (ExceptT.bindCont f)) w sent = _
  rw [Plan.run_bind]
  unfold run at h
  rw [h]
  rfl

theorem run_outcome {job : Job α} {res : Except Failure α}
    (h : b.run job w sent = (res, w', sent')) :
    b.run (Job.outcome job) w sent = (.ok res, w', sent') := by
  show Plan.run b.surroundings
    (Plan.bind job.run fun result => Plan.done (Except.ok result)) w sent = _
  rw [Plan.run_bind]
  unfold run at h
  rw [h]
  rfl

theorem run_andFinally {job : Job α} {cleanup : Job Unit} {res : Except Failure α}
    {done : Except Failure Unit} {w'' : World} {sent'' : List Request}
    (h : b.run job w sent = (res, w', sent')) (hc : b.run cleanup w' sent' = (done, w'', sent'')) :
    b.run (job.andFinally cleanup) w sent = (res, w'', sent'') := by
  show Plan.run b.surroundings
    (Plan.bind job.run fun result => Plan.bind cleanup.run fun _ => .done result) w sent = _
  rw [Plan.run_bind]
  unfold run at h hc
  rw [h]
  show Plan.run b.surroundings (Plan.bind cleanup.run fun _ => .done res) w' sent' = _
  rw [Plan.run_bind, hc]
  rfl

theorem run_statementOn {access : Access} {f : World → Except Failure (α × World)} {a : α}
    (h : f w = .ok (a, w')) : b.run (Job.statementOn access f) w sent = (.ok a, w', sent) := by
  unfold run Job.statementOn
  simp only [ExceptT.run_mk, Plan.run, surroundings, h]
  rfl

theorem run_read (f : World → Except Failure α) : b.run (Job.read f) w sent = (f w, w, sent) := rfl

theorem run_ask (f : World → α) : b.run (Job.ask f) w sent = (.ok (f w), w, sent) := rfl

theorem run_readMemory (f : World → α) : b.run (Job.readMemory f) w sent = (.ok (f w), w, sent) :=
  rfl

theorem run_request (request : Request) :
    b.run (Job.request request) w sent =
      (.ok (b.answer sent request).outcome, { w with now := b.clock sent request },
        sent ++ [request]) := rfl

theorem run_ofExcept (x : Except Failure α) : b.run (Job.ofExcept x) w sent = (x, w, sent) := rfl

end Backend

/-! ## §2. Statements of a run. -/

/-- The registry after a run has come and gone that nobody asked to stop. -/
def Registry.outlived (registry : Registry) : Registry :=
  { registry with flags := registry.flags ++ [false] }

/-- The registry while the run holds the slot of its submission. -/
def Registry.holding (registry : Registry) (submission : Int) : Registry :=
  { slots := registry.slots ++ [(submission, registry.flags.length)]
    flags := registry.flags ++ [false] }

/-- A run takes a free slot. -/
theorem Registry.start_of_free {registry : Registry} {submission : Int}
    (h : registry.isActive submission = false) :
    registry.start submission = .ok (registry.flags.length, registry.holding submission) := by
  unfold start
  rw [if_neg (by rw [h]; exact Bool.false_ne_true)]
  rfl

/-- What is left of the slots when the last one is freed. -/
theorem Registry.filter_slots_append {registry : Registry} {submission : Int}
    (h : registry.isActive submission = false) (run : Nat) :
    (registry.slots ++ [(submission, run)]).filter (·.1 != submission) = registry.slots := by
  unfold isActive at h
  rw [List.any_eq_false] at h
  rw [List.filter_append, List.filter_eq_self.2 fun slot hslot => ?_]
  · simp
  · simpa using h slot hslot

theorem Registry.finish_holding {registry : Registry} {submission : Int}
    (h : registry.isActive submission = false) :
    (registry.holding submission).finish submission = registry.outlived := by
  unfold finish holding outlived
  rw [Registry.filter_slots_append h]

theorem Registry.isCancelled_holding (registry : Registry) (submission : Int) :
    (registry.holding submission).isCancelled registry.flags.length = false := by
  unfold isCancelled holding
  simp [List.getD_eq_getElem?_getD]

theorem World.withRegistry_withRegistry (w : World) (process : Nat) (first second : Registry) :
    (w.withRegistry process first).withRegistry process second =
      w.withRegistry process second := by
  unfold World.withRegistry
  congr 1
  funext p
  by_cases hp : p = process <;> simp [hp]

section

variable {b : Backend} {r : Runner} {w : World} {sent : List Request} {id : Int}
  {row : SubmissionRow}

theorem run_claimSlot (h : (w.registries r.process).isActive id = false) :
    b.run (r.claimSlot id) w sent =
      (.ok (w.registries r.process).flags.length,
        w.withRegistry r.process ((w.registries r.process).holding id), sent) := by
  unfold Runner.claimSlot Job.inMemory
  refine Backend.run_statementOn ?_
  rw [Registry.start_of_free h]

theorem run_reload (hrow : w.store.submissions.get? id = some row)
    (hfits : Store.fits id = true) : b.run (Runner.reload id) w sent = (.ok row, w, sent) := by
  unfold Runner.reload
  rw [Backend.run_read, Store.submission_eq_ok.2 ⟨hfits, hrow⟩]

theorem run_stepsFor {form : Int} {steps : List Step}
    (h : w.store.activeSteps form = .ok steps) :
    b.run (Runner.stepsFor form) w sent = (.ok steps, w, sent) := by
  unfold Runner.stepsFor
  rw [Backend.run_read, h]

/-- A change of status that is allowed. -/
theorem run_transition {current target : Status} (h : current.canBecome target = true) :
    b.run (Job.ofCauses (current.transition target)) w sent = (.ok target, w, sent) := by
  unfold Status.transition
  rw [if_pos h]
  rfl

theorem run_compareAndSet {expected : List Status}
    (change : Calendar.Instant → SubmissionRow → SubmissionRow)
    (hrow : w.store.submissions.get? id = some row) (hs : row.status ∈ expected) :
    b.run (Runner.compareAndSet id expected change) w sent =
      (.ok true, w.withSubmission id (change w.now), sent) := by
  unfold Runner.compareAndSet Job.statement
  refine Backend.run_statementOn ?_
  rw [Store.compareAndSet_of_mem hrow hs]
  rfl

theorem run_leavePending {target : Status} (hrow : w.store.submissions.get? id = some row)
    (hs : row.status = .pending) :
    b.run (Runner.leavePending id target) w sent =
      (.ok (), w.withSubmission id fun row => row.movedOn target w.now, sent) := by
  unfold Runner.leavePending
  rw [Backend.run_bind_ok (run_compareAndSet _ hrow (by rw [hs]; exact List.mem_singleton.2 rfl))]
  rfl

theorem run_finish {target : Status} {message : Option String}
    (hrow : w.store.submissions.get? id = some row) (hs : row.status = .processing)
    (hfits : Store.fits id = true) :
    b.run (Runner.finish id target message) w sent =
      (.ok (row.settled target message w.now),
        w.withSubmission id fun row => row.settled target message w.now, sent) := by
  unfold Runner.finish
  rw [Backend.run_bind_ok (run_compareAndSet _ hrow (by rw [hs]; exact List.mem_singleton.2 rfl))]
  exact run_reload (World.get?_withSubmission_self _ (fun _ => rfl) hrow) hfits

/-- Nobody has asked the run to stop. -/
theorem run_isCancelled {run : Nat} (h : (w.registries r.process).isCancelled run = false) :
    b.run (r.isCancelled run) w sent = (.ok false, w, sent) := by
  unfold Runner.isCancelled
  rw [Backend.run_readMemory, h]

theorem run_fieldsFor {fields : List Field} (h : row.storedFields = .ok (some fields)) :
    b.run (Runner.fieldsFor row) w sent = (.ok fields, w, sent) := by
  unfold Runner.fieldsFor
  rw [h, Backend.run_bind_ok (Backend.run_ofExcept _)]
  rfl

/-- An output is stored if its numbers fit and its step has none yet. -/
theorem run_storeOutput {result : StepResult} {o : OutputRow}
    (ho : Runner.outputRow row result w.store.outputs.nextId w.now = o) (hup : w.outage = none)
    (ht : Store.fits (result.tokenCount.getD 0) = true) (hd : Store.fits result.duration = true)
    (hnew : w.store.insertOutput o = some (w.store.withOutput o)) :
    b.run (Runner.storeOutput row result) w sent =
      (.ok (), w.withStore (w.store.withOutput o), sent) := by
  unfold Runner.storeOutput Job.statement
  refine Backend.run_statementOn ?_
  unfold World.checkOutage Store.checkFits
  simp only [hup, ht, hd, ho, hnew, if_true, bind, Except.bind]

theorem run_freeSlot :
    b.run (r.freeSlot id) w sent =
      (.ok (), w.withRegistry r.process ((w.registries r.process).finish id), sent) := by
  unfold Runner.freeSlot Job.inMemory
  exact Backend.run_statementOn rfl

end

end PromptForms
