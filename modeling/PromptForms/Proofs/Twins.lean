/-
  PromptForms.Proofs.Twins
  ────────────────────────
  **ONE RUN IN TWO WORLDS.**

  A run looks at few things: forms and pipelines, the row and the outputs of its own
  submission, and whether it has been asked to stop.  In two worlds that agree on these,
  up to the times of rows and the ids of outputs, a run goes the same way: its statements
  do the same to both, it sends the same requests, and it ends with the same failure or
  with rows that differ at most in their times.  Its number and its slot are its own.

      World.Agree        two worlds agree on what a run of a submission looks at
      World.later        some time passes, and perhaps somebody asks the run to stop
      Twins              the condition that carries the run, in both worlds

  Main results:
    • `Agree.compareAndSet`, `Agree.storeOutput`   the writing statements, in both worlds
    • inStep_runSteps    the loop, by induction on the steps
    • inStep_run         a run, from its first statement to its last
-/
import PromptForms.Proofs.Alone
import PromptForms.Proofs.Heeding
import PromptForms.Proofs.InStep

namespace PromptForms

/-! ## §1. Rows up to their times. -/

/-- The row without its time; whether there is one can still be seen. -/
def SubmissionRow.timeless (row : SubmissionRow) : SubmissionRow :=
  { row with processedAt := row.processedAt.map fun _ => ⟨0⟩ }

/-- The output without its id and its time. -/
def OutputRow.content (o : OutputRow) : OutputRow := { o with id := 0, executedAt := ⟨0⟩ }

/-- Two rows of a submission that differ at most in their times. -/
structure SubmissionRow.Alike (id : Int) (row row' : SubmissionRow) : Prop where
  id_eq : row.id = id
  same : row.timeless = row'.timeless

namespace SubmissionRow.Alike

variable {id : Int} {row row' : SubmissionRow}

theorem id_eq' (h : Alike id row row') : row'.id = id := by
  show row'.timeless.id = id
  rw [← h.same]
  exact h.id_eq

theorem status (h : Alike id row row') : row.status = row'.status := by
  show row.timeless.status = row'.timeless.status
  rw [h.same]

theorem formId (h : Alike id row row') : row.formId = row'.formId := by
  show row.timeless.formId = row'.timeless.formId
  rw [h.same]

theorem attempt (h : Alike id row row') : row.attempt = row'.attempt := by
  show row.timeless.attempt = row'.timeless.attempt
  rw [h.same]

theorem storedFields (h : Alike id row row') : row.storedFields = row'.storedFields := by
  show row.timeless.storedFields = row'.timeless.storedFields
  rw [h.same]

theorem storedValues (h : Alike id row row') : row.storedValues = row'.storedValues := by
  show row.timeless.storedValues = row'.timeless.storedValues
  rw [h.same]

end SubmissionRow.Alike

/-- A change of a submission that looks at no time, and that puts in none but the one it is given. -/
structure Timeless (change : Calendar.Instant → SubmissionRow → SubmissionRow) : Prop where
  id_eq : ∀ now row, (change now row).id = row.id
  timeless_eq : ∀ now row, (change now row).timeless = (change ⟨0⟩ row.timeless).timeless

namespace Timeless

variable {change : Calendar.Instant → SubmissionRow → SubmissionRow}

theorem movedOn (target : Status) : Timeless fun now row => row.movedOn target now where
  id_eq := fun _ _ => rfl
  timeless_eq := by
    intro now row
    unfold SubmissionRow.movedOn SubmissionRow.timeless
    cases target.isTerminal with
    | true => rfl
    | false => cases row.processedAt <;> rfl

theorem settled (target : Status) (message : Option String) :
    Timeless fun now row => row.settled target message now where
  id_eq := fun _ _ => rfl
  timeless_eq := fun _ _ => rfl

/-- Rows that are the same but for their times stay so, at whatever times they are changed. -/
theorem map_eq (hc : Timeless change) {rows rows' : List SubmissionRow}
    (h : rows.map SubmissionRow.timeless = rows'.map SubmissionRow.timeless)
    (now now' : Calendar.Instant) :
    (rows.map (change now)).map SubmissionRow.timeless =
      (rows'.map (change now')).map SubmissionRow.timeless := by
  have hmap (rows : List SubmissionRow) (now : Calendar.Instant) :
      (rows.map (change now)).map SubmissionRow.timeless =
        (rows.map SubmissionRow.timeless).map fun row => (change ⟨0⟩ row).timeless := by
    rw [List.map_map, List.map_map]
    exact List.map_congr_left fun row _ => hc.timeless_eq now row
  rw [hmap, hmap, h]

end Timeless

/-! ## §2. What two worlds agree on. -/

/-- The worlds agree on what a run of the submission looks at in the store. -/
structure World.Agree (id : Int) (w w' : World) : Prop where
  forms : w.store.forms = w'.store.forms
  pipelines : w.store.pipelines = w'.store.pipelines
  rows : (w.store.submissions.rowsOf id).map SubmissionRow.timeless =
    (w'.store.submissions.rowsOf id).map SubmissionRow.timeless
  trail : (w.store.trail id).map OutputRow.content = (w'.store.trail id).map OutputRow.content
  outage : w.outage = w'.outage

namespace World.Agree

variable {id : Int} {w w' : World}

/-- The agreement is about the store and about its outage. -/
theorem of_eq {v v' : World} (h : World.Agree id w w') (hs : v.store = w.store)
    (hs' : v'.store = w'.store) (ho : v.outage = w.outage) (ho' : v'.outage = w'.outage) :
    World.Agree id v v' where
  forms := by rw [hs, hs', h.forms]
  pipelines := by rw [hs, hs', h.pipelines]
  rows := by rw [hs, hs', h.rows]
  trail := by rw [hs, hs', h.trail]
  outage := by rw [ho, ho', h.outage]

/-- Either submission is there, with rows that are alike, or neither is. -/
theorem get? (h : World.Agree id w w') :
    (w.store.submissions.get? id = none ∧ w'.store.submissions.get? id = none) ∨
      ∃ row row', w.store.submissions.get? id = some row ∧
        w'.store.submissions.get? id = some row' ∧ SubmissionRow.Alike id row row' := by
  -- What a reading finds is the first of the rows with the id.
  have hhead := congrArg List.head? h.rows
  rw [List.head?_map, List.head?_map, ← Table.get?_eq_head?, ← Table.get?_eq_head?] at hhead
  cases hrow : w.store.submissions.get? id with
  | none =>
    rw [hrow] at hhead
    exact .inl ⟨rfl, Option.map_eq_none_iff.1 hhead.symm⟩
  | some row =>
    rw [hrow] at hhead
    obtain ⟨row', hrow', hsame⟩ := Option.map_eq_some_iff.1 hhead.symm
    exact .inr ⟨row, row', rfl, hrow', Table.id_of_get? hrow, hsame.symm⟩

theorem submission (h : World.Agree id w w') :
    Corresponds (SubmissionRow.Alike id) (w.store.submission id) (w'.store.submission id) := by
  unfold Store.submission
  apply Corresponds.after rfl
  intro _
  rcases h.get? with ⟨hnone, hnone'⟩ | ⟨row, row', hrow, hrow', halike⟩
  · rw [hnone, hnone']
    exact .error _
  · rw [hrow, hrow']
    exact .ok halike

theorem activeSteps (h : World.Agree id w w') (form : Int) :
    w.store.activeSteps form = w'.store.activeSteps form := by
  unfold Store.activeSteps Store.pipelineOf?
  rw [h.pipelines]

theorem checkOutage (h : World.Agree id w w') : w.checkOutage = w'.checkOutage := by
  unfold World.checkOutage
  rw [h.outage]

/-- Changing the submission in both worlds. -/
theorem replaced (h : World.Agree id w w')
    {change : Calendar.Instant → SubmissionRow → SubmissionRow} (hc : Timeless change) :
    World.Agree id (w.withSubmission id (change w.now)) (w'.withSubmission id (change w'.now)) where
  forms := h.forms
  pipelines := h.pipelines
  rows := by
    show ((w.store.submissions.replace id (change w.now)).rowsOf id).map SubmissionRow.timeless =
      ((w'.store.submissions.replace id (change w'.now)).rowsOf id).map SubmissionRow.timeless
    rw [Table.rowsOf_replace (hc.id_eq w.now), Table.rowsOf_replace (hc.id_eq w'.now), if_pos rfl,
      if_pos rfl]
    exact hc.map_eq h.rows w.now w'.now
  trail := h.trail
  outage := h.outage

/-- The test and the change come out alike in both worlds. -/
theorem compareAndSet (h : World.Agree id w w') (expected : List Status)
    {change : Calendar.Instant → SubmissionRow → SubmissionRow} (hc : Timeless change) :
    (w.store.compareAndSet id expected (change w.now)).1 =
        (w'.store.compareAndSet id expected (change w'.now)).1 ∧
      World.Agree id (w.withStore (w.store.compareAndSet id expected (change w.now)).2)
        (w'.withStore (w'.store.compareAndSet id expected (change w'.now)).2) := by
  have stays (s : Store) (c : SubmissionRow → SubmissionRow)
      (hs : ∀ row, s.submissions.get? id = some row → row.status ∉ expected) :
      s.compareAndSet id expected c = (false, s) := Store.compareAndSet_of_not_mem hs
  rcases h.get? with ⟨hnone, hnone'⟩ | ⟨row, row', hrow, hrow', halike⟩
  · rw [stays w.store _ fun row hrow => by simp [hnone] at hrow,
      stays w'.store _ fun row hrow => by simp [hnone'] at hrow]
    exact ⟨rfl, h⟩
  · by_cases hmem : row.status ∈ expected
    · rw [Store.compareAndSet_of_mem hrow hmem,
        Store.compareAndSet_of_mem hrow' (halike.status ▸ hmem)]
      exact ⟨rfl, h.replaced hc⟩
    · have hmem' : row'.status ∉ expected := halike.status ▸ hmem
      rw [stays w.store _ fun other hother => Option.some.inj (hrow.symm.trans hother) ▸ hmem,
        stays w'.store _ fun other hother => Option.some.inj (hrow'.symm.trans hother) ▸ hmem']
      exact ⟨rfl, h⟩

/-- Has the step an output already?  The contents of the outputs of the submission tell. -/
theorem any_outputs (s : Store) (id attempt step : Int) :
    (s.outputs.any fun o => o.submissionId == id && o.attempt == attempt && o.stepNumber == step) =
      ((s.trail id).map OutputRow.content).any fun o =>
        o.attempt == attempt && o.stepNumber == step := by
  unfold Store.trail
  rw [List.any_map, List.any_filter]
  simp only [Bool.and_assoc]
  rfl

/-- Storing the same output in both worlds. -/
theorem storeOutput (h : World.Agree id w w') {row row' : SubmissionRow}
    (halike : SubmissionRow.Alike id row row') (result : StepResult) :
    (w.store.insertOutput (Runner.outputRow row result w.store.outputs.nextId w.now) = none ∧
      w'.store.insertOutput (Runner.outputRow row' result w'.store.outputs.nextId w'.now) = none) ∨
    ∃ store store',
      w.store.insertOutput (Runner.outputRow row result w.store.outputs.nextId w.now) = some store ∧
      w'.store.insertOutput (Runner.outputRow row' result w'.store.outputs.nextId w'.now) =
        some store' ∧ World.Agree id (w.withStore store) (w'.withStore store') := by
  have hany : (w.store.outputs.any fun o => o.submissionId == row.id && o.attempt == row.attempt &&
      o.stepNumber == result.number) = w'.store.outputs.any fun o => o.submissionId == row'.id &&
        o.attempt == row'.attempt && o.stepNumber == result.number := by
    rw [any_outputs, any_outputs, halike.id_eq, halike.id_eq', halike.attempt, h.trail]
  have hcontent : (Runner.outputRow row result w.store.outputs.nextId w.now).content =
      (Runner.outputRow row' result w'.store.outputs.nextId w'.now).content := by
    unfold Runner.outputRow OutputRow.content
    dsimp only
    rw [halike.id_eq, halike.id_eq', halike.attempt]
  -- The new ids are free in both worlds, so only an output of the same step is in the way.
  rw [Store.insertOutput_nextId rfl, Store.insertOutput_nextId rfl]
  by_cases hhas : (w.store.outputs.any fun o => o.submissionId == row.id &&
      o.attempt == row.attempt && o.stepNumber == result.number) = true
  · exact .inl ⟨if_pos hhas, if_pos (hany ▸ hhas)⟩
  · refine .inr ⟨_, _, if_neg hhas, if_neg fun hhas' => hhas (hany.trans hhas'), ?_⟩
    refine ⟨h.forms, h.pipelines, h.rows, ?_, h.outage⟩
    show ((w.store.withOutput _).trail id).map OutputRow.content =
      ((w'.store.withOutput _).trail id).map OutputRow.content
    have hid : (Runner.outputRow row result w.store.outputs.nextId w.now).submissionId = id :=
      halike.id_eq
    have hid' : (Runner.outputRow row' result w'.store.outputs.nextId w'.now).submissionId = id :=
      halike.id_eq'
    rw [Store.trail_withOutput, Store.trail_withOutput, if_pos hid, if_pos hid', List.map_append,
      List.map_append, h.trail, List.map_singleton, List.map_singleton, hcontent]

end World.Agree

/-! ## §3. The slot of the run. -/

/-- A while later; perhaps the active run of the submission, if there is one, has been asked to stop
meanwhile. -/
def World.later (w : World) (process : Nat) (id : Int) (stop : Bool) (now : Calendar.Instant) :
    World :=
  { (if stop then w.withRegistry process ((w.registries process).cancel id).2 else w) with now }

namespace World

variable (w : World) (process : Nat) (id : Int) (stop : Bool) (now : Calendar.Instant)

@[simp] theorem store_later : (w.later process id stop now).store = w.store := by
  cases stop <;> rfl

@[simp] theorem outage_later : (w.later process id stop now).outage = w.outage := by
  cases stop <;> rfl

@[simp] theorem registries_later : (w.later process id stop now).registries process =
    if stop then ((w.registries process).cancel id).2 else w.registries process := by
  cases stop with
  | true => exact registries_withRegistry_self w process _
  | false => rfl

theorem slots_later : ((w.later process id stop now).registries process).slots =
    (w.registries process).slots := by
  rw [registries_later]
  split
  · exact Heeding.slots_cancel _ _
  · rfl

end World

/-- The run has the slot of its submission, after the slots that there were at its start. -/
structure HoldsSlot (r : Runner) (id : Int) (start : World) (run : Nat) (w : World) : Prop where
  slots : (w.registries r.process).slots = (start.registries r.process).slots ++ [(id, run)]
  started : run < (w.registries r.process).flags.length
  free : (start.registries r.process).isActive id = false
  outage : w.outage = start.outage

namespace HoldsSlot

variable {r : Runner} {id : Int} {start w : World} {run : Nat}

theorem lookup (h : HoldsSlot r id start run w) :
    (w.registries r.process).slots.lookup id = some run := by
  have hnone : (start.registries r.process).slots.lookup id = none := by
    have hfree := h.free
    rw [Heeding.isActive_eq_isSome_lookup] at hfree
    simpa using hfree
  rw [h.slots, List.lookup_append, hnone]
  simp

theorem later (h : HoldsSlot r id start run w) (stop : Bool) (now : Calendar.Instant) :
    HoldsSlot r id start run (w.later r.process id stop now) where
  slots := (w.slots_later r.process id stop now).trans h.slots
  started := by
    rw [World.registries_later]
    split
    · rw [Heeding.length_flags_cancel]
      exact h.started
    · exact h.started
  free := h.free
  outage := (w.outage_later r.process id stop now).trans h.outage

/-- A request to stop reaches the run. -/
theorem isCancelled_later (h : HoldsSlot r id start run w) (stop : Bool) (now : Calendar.Instant) :
    ((w.later r.process id stop now).registries r.process).isCancelled run =
      (stop || (w.registries r.process).isCancelled run) := by
  rw [World.registries_later]
  cases stop with
  | false => rfl
  | true =>
    unfold Registry.cancel
    rw [h.lookup]
    show ((w.registries r.process).flags.set run true).getD run false = _
    have hlt := h.started
    simp [List.getD_eq_getElem?_getD, hlt]

end HoldsSlot

/-- The slots and the outage are those of an earlier world. -/
structure GaveBack (r : Runner) (start w : World) : Prop where
  slots : (w.registries r.process).slots = (start.registries r.process).slots
  outage : w.outage = start.outage

theorem GaveBack.later {r : Runner} {start w : World} (h : GaveBack r start w) (id : Int)
    (stop : Bool) (now : Calendar.Instant) : GaveBack r start (w.later r.process id stop now) where
  slots := (w.slots_later r.process id stop now).trans h.slots
  outage := (w.outage_later r.process id stop now).trans h.outage

/-! ## §4. Both worlds during the run. -/

/-- In both worlds the run is asked to stop at the same moments; the times are any. -/
def drift (r : Runner) (id : Int) : Drift := fun w w' v v' =>
  ∃ stop now now', v = w.later r.process id stop now ∧ v' = w'.later r.process id stop now'

/-- The worlds agree on what the run looks at, and in each of them the run has a slot. -/
structure Twins (r : Runner) (id : Int) (start start' : World) (run run' : Nat) (w w' : World) :
    Prop where
  agree : World.Agree id w w'
  left : HoldsSlot r id start run w
  right : HoldsSlot r id start' run' w'
  asked : (w.registries r.process).isCancelled run = (w'.registries r.process).isCancelled run'

namespace Twins

open Job

variable {r : Runner} {id : Int} {start start' : World} {run run' : Nat} {w w' : World}
  {row row' : SubmissionRow}

/-- **What becomes of both worlds** keeps them twins. -/
theorem keeps : (drift r id).Keeps (Twins r id start start' run run') := by
  rintro w w' v v' h ⟨stop, now, now', rfl, rfl⟩
  refine ⟨?_, h.left.later stop now, h.right.later stop now', ?_⟩
  · exact h.agree.of_eq (by simp) (by simp) (by simp) (by simp)
  · rw [h.left.isCancelled_later, h.right.isCancelled_later, h.asked]

theorem withStore (h : Twins r id start start' run run' w w') {s s' : Store}
    (ha : World.Agree id (w.withStore s) (w'.withStore s')) :
    Twins r id start start' run run' (w.withStore s) (w'.withStore s') :=
  ⟨ha, ⟨h.left.slots, h.left.started, h.left.free, h.left.outage⟩,
    ⟨h.right.slots, h.right.started, h.right.free, h.right.outage⟩, h.asked⟩

/-! ## §5. Statements of the run. -/

/-- As parts of the two runs, the jobs keep in step. -/
abbrev Together {α β : Type} (r : Runner) (id : Int) (start start' : World) (run run' : Nat)
    (j : Job α) (j' : Job β) (Q : α → β → Prop) : Prop :=
  Job.InStep (drift r id) (Twins r id start start' run run') j j' Q

theorem together_reload :
    Together r id start start' run run' (Runner.reload id) (Runner.reload id)
      (SubmissionRow.Alike id) :=
  inStep_read keeps fun _ _ h => h.agree.submission

theorem together_stepsFor (form : Int) :
    Together r id start start' run run' (Runner.stepsFor form) (Runner.stepsFor form) Eq :=
  inStep_read keeps fun _ _ h => Corresponds.of_eq (h.agree.activeSteps form)

theorem together_compareAndSet (expected : List Status)
    {change : Calendar.Instant → SubmissionRow → SubmissionRow} (hc : Timeless change) :
    Together r id start start' run run' (Runner.compareAndSet id expected change)
      (Runner.compareAndSet id expected change) Eq := by
  apply inStep_statement keeps
  intro w w' h
  obtain ⟨hmoved, hagree⟩ := h.agree.compareAndSet expected hc
  exact .ok ⟨h.withStore hagree, hmoved⟩

theorem together_leavePending (target : Status) :
    Together r id start start' run run' (Runner.leavePending id target)
      (Runner.leavePending id target) fun _ _ => True := by
  unfold Runner.leavePending
  apply inStep_bind_eq (together_compareAndSet [.pending] (.movedOn target))
  intro moved
  exact inStep_ite Iff.rfl (inStep_fail _) (inStep_pure trivial)

theorem together_finish (target : Status) (message : Option String) :
    Together r id start start' run run' (Runner.finish id target message)
      (Runner.finish id target message) (SubmissionRow.Alike id) := by
  unfold Runner.finish
  apply inStep_bind_eq (together_compareAndSet [.processing] (.settled target message))
  exact fun _ => together_reload

theorem together_isCancelled :
    Together r id start start' run run' (r.isCancelled run) (r.isCancelled run') Eq :=
  inStep_readMemory keeps fun _ _ h => h.asked

theorem together_execute (step : Step) (context : Template.Context) :
    Together r id start start' run run' (r.executor.execute step context)
      (r.executor.execute step context) Eq := by
  unfold Executor.execute
  cases Template.resolve r.executor.mode step.prompt context with
  | error names => exact inStep_fail _
  | ok prompt =>
    apply inStep_bind_eq (inStep_request keeps _)
    exact fun outcome => inStep_ofExcept (Corresponds.of_eq rfl)

theorem together_storeOutput (halike : SubmissionRow.Alike id row row') (result : StepResult) :
    Together r id start start' run run' (Runner.storeOutput row result)
      (Runner.storeOutput row' result) fun _ _ => True := by
  apply inStep_statement keeps
  intro w w' h
  apply Corresponds.after h.agree.checkOutage
  intro _
  apply Corresponds.after rfl
  intro _
  apply Corresponds.after rfl
  intro _
  rcases h.agree.storeOutput halike result with ⟨hnone, hnone'⟩ | ⟨s, s', hsome, hsome', hagree⟩
  · rw [hnone, hnone']
    exact .error _
  · rw [hsome, hsome']
    exact .ok ⟨h.withStore hagree, trivial⟩

theorem together_fieldsFor (halike : SubmissionRow.Alike id row row') :
    Together r id start start' run run' (Runner.fieldsFor row) (Runner.fieldsFor row') Eq := by
  unfold Runner.fieldsFor
  rw [halike.storedFields, halike.formId]
  apply inStep_bind_eq (inStep_ofExcept (Corresponds.of_eq rfl))
  intro stored
  cases stored with
  | some fields => exact inStep_pure rfl
  | none =>
    apply inStep_read keeps
    intro w w' h
    apply Corresponds.after h.agree.checkOutage
    intro _
    rw [h.agree.forms]
    exact Corresponds.of_eq rfl

/-! ## §6. The run. -/

/-- **The loop** over the steps that remain. -/
theorem together_runSteps (halike : SubmissionRow.Alike id row row') (fields : List Field)
    (values : Dictionary Value) (steps : List Step) :
    ∀ produced, Together r id start start' run run'
      (r.runSteps row run fields values produced steps)
      (r.runSteps row' run' fields values produced steps) (SubmissionRow.Alike id) := by
  have ended (target : Status) (message : Option String) :
      Together r id start start' run run' (Runner.finish row.id target message)
        (Runner.finish row'.id target message) (SubmissionRow.Alike id) := by
    rw [halike.id_eq, halike.id_eq']
    exact together_finish target message
  -- On the remaining steps; what they produce is the same in both worlds.
  induction steps with
  | nil => exact fun _ => ended .completed none
  | cons step rest ih =>
    intro produced
    unfold Runner.runSteps
    apply inStep_bind_eq together_isCancelled
    intro stop
    apply inStep_ite Iff.rfl (ended _ _)
    apply inStep_bind (inStep_outcome (together_execute step _))
    intro outcome outcome' houtcome
    -- The step ends in the same way in both worlds.
    obtain rfl : outcome = outcome' := by
      cases houtcome with
      | ok h => rw [h]
      | error e => rfl
    split
    · exact inStep_throw _
    · apply inStep_bind_eq together_isCancelled
      intro stop
      apply inStep_ite Iff.rfl (ended _ _)
      split
      · exact inStep_bind (together_storeOutput halike _) fun _ _ _ => ih _
      · exact ended _ _
      · exact inStep_throw _

theorem together_runAllSteps (halike : SubmissionRow.Alike id row row') (steps : List Step) :
    Together r id start start' run run' (r.runAllSteps row run steps)
      (r.runAllSteps row' run' steps) (SubmissionRow.Alike id) := by
  unfold Runner.runAllSteps
  apply inStep_bind_eq (together_fieldsFor halike)
  intro fields
  rw [halike.storedValues]
  apply inStep_bind_eq (inStep_ofExcept (Corresponds.of_eq rfl))
  exact fun values => together_runSteps halike fields values steps []

theorem together_breakOff (e : Failure) :
    Together r id start start' run run' (Runner.breakOff id e) (Runner.breakOff id e)
      (SubmissionRow.Alike id) := by
  unfold Runner.breakOff
  split
  · exact inStep_bind (together_finish .failed _) fun _ _ _ => inStep_throw _
  · apply inStep_bind (inStep_outcome (Q := SubmissionRow.Alike id) _)
    · exact fun _ _ _ => inStep_throw _
    · exact inStep_bind together_reload fun _ _ _ => together_finish .failed _

theorem together_runClaimed :
    Together r id start start' run run' (r.runClaimed id run) (r.runClaimed id run')
      (SubmissionRow.Alike id) := by
  unfold Runner.runClaimed
  apply inStep_bind together_reload
  intro row row' halike
  apply inStep_refuse (by rw [halike.status])
  rw [halike.formId, halike.status]
  apply inStep_bind_eq (together_stepsFor _)
  intro steps
  apply inStep_ite Iff.rfl
  · apply inStep_bind_eq (inStep_ofCauses _)
    intro target
    exact inStep_bind (together_leavePending target) fun _ _ _ => together_reload
  · apply inStep_bind_eq (inStep_ofCauses _)
    intro target
    apply inStep_bind (together_leavePending target)
    intro _ _ _
    cases checkDense steps with
    | error e => exact inStep_bind (together_finish .failed _) fun _ _ _ => inStep_fail _
    | ok ordered =>
      apply inStep_bind (inStep_outcome (together_runAllSteps halike ordered))
      intro found found' hfound
      cases hfound with
      | ok halike => exact inStep_pure halike
      | error failure => exact together_breakOff failure

end Twins

/-- After a run, the worlds still agree, and in each of them the run has given its slot back. -/
structure Rested (r : Runner) (id : Int) (start start' w w' : World) : Prop where
  agree : World.Agree id w w'
  left : GaveBack r start w
  right : GaveBack r start' w'

/-- In both worlds the run has its slot, or in both of them it is refused. -/
def Begun (r : Runner) (id : Int) (start start' : World) :
    Except Failure Nat → Except Failure Nat → World → World → Prop
  | .ok run, .ok run', w, w' => Twins r id start start' run run' w w'
  | .error e, .error e', w, w' => e = e' ∧ Rested r id start start' w w'
  | _, _, _, _ => False

section

variable {r : Runner} {id : Int} {start start' w w' : World}

/-- What becomes of both worlds after the run does not matter. -/
theorem Rested.keeps : (drift r id).Keeps (Rested r id start start') := by
  rintro w w' v v' h ⟨stop, now, now', rfl, rfl⟩
  refine ⟨?_, h.left.later id stop now, h.right.later id stop now'⟩
  exact h.agree.of_eq (by simp) (by simp) (by simp) (by simp)

theorem HoldsSlot.of_free (hfree : (w.registries r.process).isActive id = false) :
    HoldsSlot r id w (w.registries r.process).flags.length
      (w.withRegistry r.process ((w.registries r.process).holding id)) where
  slots := by
    rw [World.registries_withRegistry_self]
    rfl
  started := by
    rw [World.registries_withRegistry_self]
    unfold Registry.holding
    simp
  free := hfree
  outage := rfl

/-- A run that holds its slot gives it back. -/
theorem HoldsSlot.gaveBack {run : Nat} (h : HoldsSlot r id start run w) :
    GaveBack r start (w.withRegistry r.process ((w.registries r.process).finish id)) where
  slots := by
    rw [World.registries_withRegistry_self]
    show (w.registries r.process).slots.filter (·.1 != id) = _
    rw [h.slots]
    exact Registry.filter_slots_append h.free run
  outage := h.outage

theorem inStep_claimSlot (hagree : World.Agree id w w')
    (hactive : (w.registries r.process).isActive id = (w'.registries r.process).isActive id) :
    Plan.InStep (drift r id) (r.claimSlot id).run (r.claimSlot id).run (Begun r id w w') w w' := by
  have refused (e : Failure) (v v' : World) (hv : drift r id w w' v v') :
      Begun r id w w' (.error e) (.error e) v v' :=
    ⟨rfl, Rested.keeps w w' v v' ⟨hagree, ⟨rfl, rfl⟩, ⟨rfl, rfl⟩⟩ hv⟩
  cases hfree : (w.registries r.process).isActive id with
  | false =>
    have hfree' : (w'.registries r.process).isActive id = false := hactive ▸ hfree
    -- The numbers of the two runs differ; each of them is the next one in its world.
    refine Job.inStep_statementOn ?_ fun e _ => refused e
    rw [Registry.start_of_free hfree, Registry.start_of_free hfree']
    have htwins : Twins r id w w' (w.registries r.process).flags.length
        (w'.registries r.process).flags.length
        (w.withRegistry r.process ((w.registries r.process).holding id))
        (w'.withRegistry r.process ((w'.registries r.process).holding id)) := by
      refine ⟨hagree.of_eq rfl rfl rfl rfl, .of_free hfree, .of_free hfree', ?_⟩
      rw [World.registries_withRegistry_self, World.registries_withRegistry_self,
        Registry.isCancelled_holding, Registry.isCancelled_holding]
    exact .ok fun v v' hv => Twins.keeps _ _ v v' htwins hv
  | true =>
    have hactive' : (w'.registries r.process).isActive id = true := hactive ▸ hfree
    refine Job.inStep_statementOn ?_ fun e _ => refused e
    unfold Registry.start
    rw [if_pos hfree, if_pos hactive']
    exact .error _

theorem inStep_freeSlot {run run' : Nat} (h : Twins r id start start' run run' w w') :
    Plan.InStep (drift r id) (r.freeSlot id).run (r.freeSlot id).run
      (fun _ _ => Rested r id start start') w w' := by
  have hrested : Rested r id start start'
      (w.withRegistry r.process ((w.registries r.process).finish id))
      (w'.withRegistry r.process ((w'.registries r.process).finish id)) :=
    ⟨h.agree.of_eq rfl rfl rfl rfl, h.left.gaveBack, h.right.gaveBack⟩
  unfold Runner.freeSlot Job.inMemory
  apply Job.inStep_statementOn
  · exact .ok fun v v' hv => Rested.keeps _ _ v v' hrested hv
  · exact fun e he => nomatch he

/-- **A run in two worlds** that agree on what it looks at keeps in step with itself, and it ends
with the same failure or with rows that are alike. -/
theorem inStep_run (r : Runner) (hagree : World.Agree id w w')
    (hactive : (w.registries r.process).isActive id = (w'.registries r.process).isActive id) :
    Plan.InStep (drift r id) (r.run id).run (r.run id).run
      (fun res res' v v' => Rested r id w w' v v' ∧ Corresponds (SubmissionRow.Alike id) res res')
      w w' := by
  refine Plan.inStep_bind (inStep_claimSlot hagree hactive) ?_
  rintro (e | run) (e' | run') v v' hbegun
  · obtain ⟨rfl, hrested⟩ := hbegun
    exact ⟨hrested, .error e⟩
  · exact hbegun.elim
  · exact hbegun.elim
  · refine Plan.inStep_bind (Twins.together_runClaimed v v' hbegun) ?_
    rintro res res' v v' ⟨htwins, hres⟩
    refine Plan.inStep_bind (inStep_freeSlot htwins) ?_
    exact fun _ _ v v' hrested => ⟨hrested, hres⟩

end

end PromptForms
