/-
  PromptForms.Proofs.Heeding
  ──────────────────────────
  **RUNS HEED THE REQUEST TO STOP.**

  A run looks whether it has been asked to stop before each step and right after it, and
  each look is followed by what depends on it without waiting.  So whatever it begins
  after it has been asked is no request and stores nothing, and if it ends its attempt as
  failed then the message names the step that comes after the outputs stored so far.

      Minds, Beside      what others may do to a run
      AskedDuring        a run is asked to stop while it waits
      Stops              the messages of runs that stop
      Late               what a run may still begin

  Main results:
    • `obeys_runSteps` — the loop over the steps, by induction on the steps that remain.
    • `late_of_asked` — what a run begins after it has been asked to stop.
-/
import PromptForms.Proofs.Ledger
import PromptForms.Proofs.Waits

namespace PromptForms

/-! ## §1. What others may do. -/

/-- Others leave the slot of a submission to the run that holds it, and they take no request to stop
back. -/
structure Minds (r : Runner) (id : Int) (w w' : World) : Prop where
  slot : (w'.registries r.process).slots.lookup id = (w.registries r.process).slots.lookup id
  started : (w.registries r.process).flags.length ≤ (w'.registries r.process).flags.length
  asked : ∀ run, (w.registries r.process).isCancelled run = true →
    (w'.registries r.process).isCancelled run = true

/-- Besides, they leave alone what a run of a submission writes: the status with what belongs to it,
and the outputs. -/
structure Beside (r : Runner) (id : Int) (w w' : World) : Prop extends Minds r id w w' where
  row : ∀ row, w.store.submissions.get? id = some row →
    ∃ row', w'.store.submissions.get? id = some row' ∧ row'.status = row.status ∧
      row'.errorMessage = row.errorMessage ∧ row'.processedAt = row.processedAt
  trail : w'.store.trail id = w.store.trail id

/-- Between two worlds somebody asks the run of a submission to stop, and there is one. -/
def Asked (R : World → World → Prop) (r : Runner) (id : Int) (w w' : World) : Prop :=
  ∃ v told v', R w v ∧ (r.cancel id).run.Tells R v told (.ok true) v' ∧ R v' w'

/-- This happens during one of the waits of an event. -/
def AskedDuring (R : World → World → Prop) (r : Runner) (id : Int) (e : Event) : Prop :=
  ∃ w w', e.Waits w w' ∧ Asked R r id w w'

namespace Heeding

variable {R : World → World → Prop} {r : Runner} {id : Int} {number : Nat} {w w' : World}

theorem isActive_eq_isSome_lookup (registry : Registry) (submission : Int) :
    registry.isActive submission = (registry.slots.lookup submission).isSome := by
  unfold Registry.isActive
  induction registry.slots with
  | nil => rfl
  | cons slot slots ih =>
    rw [List.any_cons, List.lookup_cons, ih]
    by_cases h : slot.1 = submission
    · simp [h]
    · have hne : (submission == slot.1) = false := beq_eq_false_iff_ne.2 (Ne.symm h)
      simp [h, hne]

theorem beside_refl (w : World) : Beside r id w w where
  slot := rfl
  started := Nat.le_refl _
  asked := fun _ h => h
  row := fun row hrow => ⟨row, hrow, rfl, rfl, rfl⟩
  trail := rfl

theorem beside_trans {w'' : World} (h : Beside r id w w') (h' : Beside r id w' w'') :
    Beside r id w w'' where
  slot := h'.slot.trans h.slot
  started := Nat.le_trans h.started h'.started
  asked := fun run hrun => h'.asked run (h.asked run hrun)
  row := by
    intro row hrow
    obtain ⟨row', hrow', hs, hm, hp⟩ := h.row row hrow
    obtain ⟨row'', hrow'', hs', hm', hp'⟩ := h'.row row' hrow'
    exact ⟨row'', hrow'', hs'.trans hs, hm'.trans hm, hp'.trans hp⟩
  trail := h'.trail.trans h.trail

/-! ## §2. The request to stop. -/

theorem slots_cancel (registry : Registry) (submission : Int) :
    (registry.cancel submission).2.slots = registry.slots := by
  unfold Registry.cancel
  split <;> rfl

theorem length_flags_cancel (registry : Registry) (submission : Int) :
    (registry.cancel submission).2.flags.length = registry.flags.length := by
  unfold Registry.cancel
  split
  · exact List.length_set
  · rfl

/-- A flag that is set stays so, whichever one is set besides. -/
theorem isCancelled_cancel {registry : Registry} {submission : Int} {run : Nat}
    (h : registry.isCancelled run = true) :
    (registry.cancel submission).2.isCancelled run = true := by
  unfold Registry.cancel
  split
  · unfold Registry.isCancelled at h ⊢
    simp only [List.getD_eq_getElem?_getD, List.getElem?_set] at h ⊢
    grind
  · exact h

/-- The run holds the slot of its submission. -/
def holding (r : Runner) (id : Int) (number : Nat) (w : World) : Prop :=
  (w.registries r.process).slots.lookup id = some number ∧
    number < (w.registries r.process).flags.length

/-- The run has been asked to stop. -/
def flagged (r : Runner) (number : Nat) (w : World) : Prop :=
  (w.registries r.process).isCancelled number = true

theorem lasting_holding (hR : ∀ w w', R w w' → Minds r id w w') :
    Lasting R (holding r id number) where
  others := fun w w' h hw =>
    ⟨(hR w w' h).slot.trans hw.1, Nat.lt_of_lt_of_le hw.2 (hR w w' h).started⟩
  own := by
    intro w w' h hw
    unfold holding
    rw [h]
    exact hw

theorem lasting_flagged (hR : ∀ w w', R w w' → Minds r id w w') :
    Lasting R (flagged r number) where
  others := fun w w' h hw => (hR w w' h).asked number hw
  own := by
    intro w w' h hw
    unfold flagged
    rw [h]
    exact hw

/-- Asking the run in the slot of a submission sets its flag. -/
theorem flagged_of_asked (hR : ∀ w w', R w w' → Minds r id w w') (hw : holding r id number w)
    (h : Asked R r id w w') : flagged r number w' := by
  obtain ⟨v, told, v', hv, hcancel, hv'⟩ := h
  obtain ⟨hslot, hlt⟩ := (lasting_holding hR).others w v hv hw
  refine (hR v' w' hv').asked number ?_
  obtain ⟨update, -, rfl, -, hupdate⟩ := tells_inMemory hcancel
  have hafter : update v = v.withRegistry r.process { v.registries r.process with
      flags := (v.registries r.process).flags.set number true } := by
    rw [hupdate]
    unfold Registry.cancel
    rw [hslot]
    rfl
  rw [hafter, World.registries_withRegistry_self]
  unfold Registry.isCancelled
  simp [hlt]

end Heeding

/-! ## §3. What a run may still begin. -/

/-- The status of a submission and its message, if there is one. -/
def World.verdict? (w : World) (id : Int) : Option (Status × Option String) :=
  (w.store.submissions.get? id).map fun row => (row.status, row.errorMessage)

/-- The message of a run that stops before its end with `k` outputs stored: it was asked to, at the
step that comes next, or it was interrupted, or it broke off. -/
inductive Stops (steps : List Step) (k : Nat) : String → Prop
  | before (step : Step) (h : step ∈ steps) (hk : step.number = k + 1) :
      Stops steps k s!"Run cancelled before step {Runner.stepTitle step}"
  | during (step : Step) (h : step ∈ steps) (hk : step.number = k + 1) :
      Stops steps k s!"Run cancelled during step {Runner.stepTitle step}"
  | interrupted : Stops steps k "Run interrupted"
  | aborted (failure : Failure) : Stops steps k s!"Run aborted: {failure.name}"
  | disordered (e : NumberingError) : Stops steps k s!"Pipeline configuration error: {e.message}"

/-- What a run with these steps and `k` outputs stored may make of the status and the message of its
submission. -/
inductive Moves (id : Int) (steps : List Step) (k : Nat) (w w' : World) : Prop
  | stays (h : w'.verdict? id = w.verdict? id)
  | starts (message : Option String) (hs : steps ≠ [])
      (h : w'.verdict? id = some (.processing, message))
  | completes (message : Option String) (hk : k = steps.length)
      (h : w'.verdict? id = some (.completed, message))
  | fails (message : String) (hm : Stops steps k message)
      (h : w'.verdict? id = some (.failed, some message))

/-- What a run may begin after it has been asked to stop: statements that store no output, whatever
the world. -/
def Late (id : Int) (steps : List Step) (g : Deeds) : Event → Prop
  | .statement _ update _ _ _ => ∀ w, (update w).store.outputs = w.store.outputs ∧
    Moves id steps g.added.length w (update w)
  | .request .. => False

namespace Heeding

variable {R : World → World → Prop} {F : World → Prop} {r : Runner} {id : Int} {steps : List Step}
  {g : Deeds} {tale : Tale} {α β : Type} {w w' : World}

theorem moves_of_store_eq {k : Nat} (h : w'.store = w.store) : Moves id steps k w w' := by
  refine .stays ?_
  unfold World.verdict?
  rw [h]

/-- What is begun late stores nothing. -/
theorem added_of_late {x : Event} (h : Late id steps g x) : Deeds.added x.deeds = [] := by
  cases x with
  | statement access update begun before resumed =>
    exact Deeds.added_concat_of_outputs_eq (g := []) (h before).1
  | request sent begun resumed => rfl

theorem added_of_forall_late (h : ∀ x ∈ tale, Late id steps g x) :
    tale.deeds.added = [] := by
  induction tale with
  | nil => rfl
  | cons x tale ih =>
    obtain ⟨hx, htale⟩ := List.forall_mem_cons.1 h
    rw [Tale.deeds_cons, Deeds.added_append, added_of_late hx, ih htale]
    rfl

theorem indifferent_late : Indifferent (Late id steps) := by
  intro g x y hx
  have hadded : Deeds.added (g ++ x.deeds) = g.added := by
    rw [Deeds.added_append, added_of_late hx, List.append_nil]
  cases y with
  | statement access update begun before resumed =>
    unfold Late
    rw [hadded]
  | request sent begun resumed => rfl

/-! ## §4. What a run stores on the way. -/

/-- A contract that asks for nothing. -/
def free : Contract where
  allows _ _ := True
  calm _ _ _ := True
  pause _ _ _ := True

/-- The number of outputs that were stored. -/
def stored (k : Nat) (g : Deeds) (_ : World) : Prop := g.added.length = k

theorem leads_stored {k : Nat} {d : Deed} (hk : stored k g d.before)
    (h : d.after.store.outputs = d.before.store.outputs) : free.Leads (stored k) g d := by
  refine ⟨trivial, fun w _ => ?_⟩
  unfold stored
  rw [Deeds.added_concat_of_outputs_eq h]
  exact hk

theorem quiet_stored (k : Nat) : free.Quiet (stored k) :=
  fun _ _ hk h => leads_stored hk (congrArg Store.outputs h)

theorem stored_of_tells {k : Nat} {j : Job α} {Q : Except Failure α → Deeds → World → Prop}
    {res : Except Failure α} (hj : free.Triple (stored k) j Q) (hk : stored k g w)
    (h : j.run.Tells R w tale res w') : Q res (g ++ tale.deeds) w' :=
  (Contract.Meets.tells (R := fun _ _ => True) (fun _ => trivial) (fun _ _ _ _ _ => trivial)
    (fun _ _ _ h => h) (fun _ _ _ h => h) (h.mono fun _ _ _ => trivial) g fun w₁ _ => hj g w₁ hk).1

theorem triple_leavePending (k : Nat) (target : Status) :
    free.Triple (stored k) (Runner.leavePending id target) fun _ => stored k :=
  Contract.triple_leavePending (fun _ _ _ hk _ _ => leads_stored hk rfl)
    fun _ _ hk _ => leads_stored hk rfl

theorem triple_fieldsFor (k : Nat) (row : SubmissionRow) :
    free.Triple (stored k) (Runner.fieldsFor row) fun _ => stored k :=
  (Contract.triple_fieldsFor (quiet_stored k) row).mono (fun _ _ h => h) fun _ _ _ h => h.1

theorem triple_execute (k : Nat) (x : Executor) (step : Step) (context : Template.Context) :
    free.Triple (stored k) (x.execute step context) fun _ => stored k := by
  unfold Executor.execute
  cases Template.resolve x.mode step.prompt context with
  | error names => exact Contract.triple_fail fun _ _ h => h
  | ok prompt =>
    exact Contract.triple_bind (Contract.triple_waiting fun _ _ _ h _ => h)
      (fun _ => Contract.triple_ofExcept fun _ _ h => h) fun _ _ _ h => h.elim

theorem triple_storeOutput (k : Nat) (row : SubmissionRow) (result : StepResult) :
    free.Triple (stored k) (Runner.storeOutput row result) fun
      | .ok () => stored (k + 1)
      | .error _ => stored k := by
  refine Contract.triple_storeOutput (fun g w store hk hi => ⟨trivial, fun w' _ => ?_⟩)
    fun _ _ _ hk _ => leads_stored hk rfl
  obtain rfl := Store.eq_append_of_insertOutput rfl hi
  show List.length (Deeds.added (g ++ [_])) = k + 1
  rw [Deeds.added_concat, Deed.added_of_append rfl, List.length_append, show g.added.length = k from hk]
  rfl

/-! ## §5. Jobs that heed the request. -/

theorem obeys_jobBind (hF : Lasting R F) {j : Job β} {f : β → Job α}
    (hj : Obeys R F (Late id steps) g j.run)
    (hf : ∀ b w tale w', j.run.Tells R w tale (.ok b) w' →
      Obeys R F (Late id steps) (g ++ tale.deeds) (f b).run) :
    Obeys R F (Late id steps) g (j >>= f).run :=
  obeys_bind hF indifferent_late hj fun
    | .ok b => hf b
    | .error _ => fun _ _ _ _ => obeys_done _

theorem obeysUnasked_jobBind (hF : Lasting R F) {j : Job β} {f : β → Job α}
    (hj : ObeysUnasked R F (Late id steps) g j.run)
    (hf : ∀ b w tale w', j.run.Tells R w tale (.ok b) w' →
      Obeys R F (Late id steps) (g ++ tale.deeds) (f b).run) :
    ObeysUnasked R F (Late id steps) g (j >>= f).run :=
  obeysUnasked_bind hF indifferent_late hj fun
    | .ok b => hf b
    | .error _ => fun _ _ _ _ => obeys_done _

/-- A statement that only reads. -/
theorem obeys_read (hF : Lasting R F) (f : World → Except Failure α) :
    Obeys R F (Late id steps) g (Job.read f).run :=
  obeys_act hF indifferent_late (fun _ => rfl) (fun _ _ _ _ => ⟨rfl, moves_of_store_eq rfl⟩)
    fun _ => obeys_done _

/-- A statement that changes a submission if it has one of the expected statuses. -/
theorem obeys_compareAndSet (hF : Lasting R F) {expected : List Status}
    {change : Calendar.Instant → SubmissionRow → SubmissionRow}
    (hmoves : ∀ w row, w.store.submissions.get? id = some row → row.status ∈ expected →
      Moves id steps g.added.length w (w.withSubmission id (change w.now))) :
    Obeys R F (Late id steps) g (Runner.compareAndSet id expected change).run := by
  refine obeys_act hF indifferent_late (fun _ => rfl) (fun _ _ _ w => ?_) fun _ => obeys_done _
  show (w.withStore (w.store.compareAndSet id expected (change w.now)).2).store.outputs = _ ∧
    Moves id steps _ w (w.withStore (w.store.compareAndSet id expected (change w.now)).2)
  by_cases hm : ∃ row, w.store.submissions.get? id = some row ∧ row.status ∈ expected
  · obtain ⟨row, hrow, hs⟩ := hm
    rw [Store.compareAndSet_of_mem hrow hs]
    exact ⟨rfl, hmoves w row hrow hs⟩
  · rw [Store.compareAndSet_of_not_mem fun row hrow hs => hm ⟨row, hrow, hs⟩]
    exact ⟨rfl, moves_of_store_eq rfl⟩

theorem verdict?_withSubmission {row : SubmissionRow} (change : SubmissionRow → SubmissionRow)
    (hc : ∀ row, (change row).id = row.id) (hrow : w.store.submissions.get? id = some row) :
    (w.withSubmission id change).verdict? id =
      some ((change row).status, (change row).errorMessage) := by
  unfold World.verdict?
  rw [World.get?_withSubmission_self change hc hrow]
  rfl

/-- Leaving `pending`. -/
theorem obeys_leavePending (hF : Lasting R F) {target : Status}
    (ht : target = .processing ∧ steps ≠ [] ∨
      target = .completed ∧ g.added.length = steps.length) :
    Obeys R F (Late id steps) g (Runner.leavePending id target).run := by
  refine obeys_jobBind hF (obeys_compareAndSet hF fun w row hrow _ => ?_) fun moved _ _ _ _ => ?_
  · have hverdict := verdict?_withSubmission (fun row => row.movedOn target w.now) (fun _ => rfl) hrow
    rcases ht with ⟨rfl, hs⟩ | ⟨rfl, hk⟩
    · exact .starts _ hs hverdict
    · exact .completes _ hk hverdict
  · cases moved with
    | true => exact obeys_done _
    | false => exact obeys_done _

/-- Ending the attempt. -/
theorem obeys_finish (hF : Lasting R F) {target : Status} {message : Option String}
    (ht : target = .completed ∧ g.added.length = steps.length ∨
      target = .failed ∧ ∃ text, message = some text ∧ Stops steps g.added.length text) :
    Obeys R F (Late id steps) g (Runner.finish id target message).run := by
  refine obeys_jobBind hF (obeys_compareAndSet hF fun w row hrow _ => ?_)
    fun _ _ _ _ _ => obeys_read hF _
  have hverdict := verdict?_withSubmission (fun row => row.settled target message w.now)
    (fun _ => rfl) hrow
  rcases ht with ⟨rfl, hk⟩ | ⟨rfl, text, rfl, htext⟩
  · exact .completes _ hk hverdict
  · exact .fails text htext hverdict

theorem obeys_fieldsFor (hF : Lasting R F) (row : SubmissionRow) :
    Obeys R F (Late id steps) g (Runner.fieldsFor row).run := by
  refine obeys_jobBind hF (obeys_done _) fun stored _ _ _ _ => ?_
  cases stored with
  | some fields => exact obeys_done _
  | none => exact obeys_read hF _

/-- Executing a step begins a request, so it has to begin before the run is asked. -/
theorem obeysUnasked_execute (x : Executor) (step : Step) (context : Template.Context) :
    ObeysUnasked R F (Late id steps) g (x.execute step context).run := by
  unfold Executor.execute
  cases Template.resolve x.mode step.prompt context with
  | error names => exact (obeys_done _).unasked
  | ok prompt => exact obeysUnasked_generate fun outcome => obeys_done _

/-- Storing an output writes nothing but the store. -/
def storing : Contract where
  allows _ d := d.after.registries = d.before.registries
  calm _ _ _ := True
  pause _ _ _ := True

/-- Storing an output has to begin before the run is asked, too. -/
theorem obeysUnasked_storeOutput (row : SubmissionRow) (result : StepResult) :
    ObeysUnasked R F (Late id steps) g (Runner.storeOutput row result).run := by
  have htriple : storing.Triple (fun _ _ => True) (Runner.storeOutput row result)
      fun _ _ _ => True :=
    Contract.triple_storeOutput (fun _ _ _ _ _ => ⟨rfl, fun _ _ => trivial⟩)
      fun _ _ _ _ _ => ⟨rfl, fun _ _ => trivial⟩
  exact obeysUnasked_act (fun w => (htriple [] w trivial).1) fun _ => obeys_done _

/-- A run may end an attempt for any reason as long as it has not been asked to stop. -/
theorem obeysUnasked_finish (hF : Lasting R F) (target : Status) (message : Option String) :
    ObeysUnasked R F (Late id steps) g (Runner.finish id target message).run :=
  obeysUnasked_jobBind hF (obeysUnasked_act (fun _ => rfl) fun _ => obeys_done _)
    fun _ _ _ _ _ => obeys_read hF _

/-- A look at the request to stop, with what depends on it. -/
theorem obeys_isCancelled {number k : Nat} {next : Bool → Job α} (hk : g.added.length = k)
    (hasked : ∀ g : Deeds, g.added.length = k →
      Obeys R (flagged r number) (Late id steps) g (next true).run)
    (hunasked : ∀ g : Deeds, g.added.length = k →
      ObeysUnasked R (flagged r number) (Late id steps) g (next false).run) :
    Obeys R (flagged r number) (Late id steps) g (r.isCancelled number >>= next).run := by
  have hlook : ∀ w : World, Deeds.added (g ++ [⟨w, w⟩]) = g.added :=
    fun w => Deeds.added_concat_of_outputs_eq rfl
  refine obeys_look indifferent_late (fun _ _ => ⟨rfl, moves_of_store_eq rfl⟩) (fun w hw => ?_)
    fun w hw => ?_
  · show Obeys R _ _ _ (next ((w.registries r.process).isCancelled number)).run
    rw [show (w.registries r.process).isCancelled number = true from hw]
    exact hasked _ (by rw [hlook, hk])
  · show ObeysUnasked R _ _ _ (next ((w.registries r.process).isCancelled number)).run
    rw [show (w.registries r.process).isCancelled number = false from Bool.eq_false_iff.2 hw]
    exact hunasked _ (by rw [hlook, hk])

/-! ## §6. A run heeds the request. -/

section

variable {number : Nat} (hF : Lasting R (flagged r number))

include hF

/-- **The loop.**  Between a look at the request and the request or the output that depends on it
nothing is waited for; `k` outputs are stored when step `k + 1` is next. -/
theorem obeys_runSteps (row : SubmissionRow) (hid : row.id = id) (fields : List Field)
    (values : Dictionary Value) (rest : List Step) :
    ∀ (g : Deeds) (produced : List Template.Output) (k : Nat), g.added.length = k →
      rest.map (·.number) = List.range' (k + 1) rest.length → (∀ step ∈ rest, step ∈ steps) →
      k + rest.length = steps.length →
      Obeys R (flagged r number) (Late id steps) g
        (r.runSteps row number fields values produced rest).run := by
  induction rest with
  | nil =>
    intro g produced k hk _ _ hlen
    unfold Runner.runSteps
    rw [hid]
    exact obeys_finish hF (.inl ⟨rfl, hk.trans hlen⟩)
  | cons step rest ih =>
    intro g produced k hk hnum hmem hlen
    rw [List.map_cons, List.length_cons, List.range'_succ, List.cons.injEq] at hnum
    obtain ⟨hnumber, hrest⟩ := hnum
    have hstep : step ∈ steps := hmem step List.mem_cons_self
    unfold Runner.runSteps
    refine obeys_isCancelled hk (fun g₁ hk₁ => ?_) fun g₁ hk₁ => ?_
    · rw [if_pos rfl, hid]
      exact obeys_finish hF (.inr ⟨rfl, _, rfl, .before step hstep (by rw [hk₁]; exact hnumber)⟩)
    · rw [if_neg Bool.false_ne_true]
      refine obeysUnasked_jobBind hF (obeysUnasked_bind hF indifferent_late
        (obeysUnasked_execute _ _ _) fun _ _ _ _ _ => obeys_done _) fun outcome w tale w' h => ?_
      have hk₂ : (Deeds.added (g₁ ++ tale.deeds)).length = k := stored_of_tells
        (Contract.triple_outcome (triple_execute k _ _ _)) hk₁ h
      -- An interruption is thrown at once; after anything else there is a second look.
      split
      · exact obeys_done _
      · refine obeys_isCancelled hk₂ (fun g₃ hk₃ => ?_) fun g₃ hk₃ => ?_
        · rw [if_pos rfl, hid]
          exact obeys_finish hF (.inr ⟨rfl, _, rfl, .during step hstep (by rw [hk₃]; exact hnumber)⟩)
        · rw [if_neg Bool.false_ne_true]
          split
          · exact obeysUnasked_jobBind hF (obeysUnasked_storeOutput _ _) fun _ w tale w' h =>
              ih _ _ (k + 1) (stored_of_tells (triple_storeOutput k _ _) hk₃ h) hrest
                (fun s hs => hmem s (List.mem_cons_of_mem _ hs))
                (by rw [List.length_cons] at hlen; omega)
          · rw [hid]
            exact obeysUnasked_finish hF _ _
          · exact (obeys_done _).unasked

theorem obeys_runAllSteps (row : SubmissionRow) (hid : row.id = id) (hg : g.added = [])
    {ordered : List Step} (hnum : ordered.map (·.number) = List.range' 1 ordered.length)
    (hmem : ∀ step ∈ ordered, step ∈ steps) (hlen : ordered.length = steps.length) :
    Obeys R (flagged r number) (Late id steps) g (r.runAllSteps row number ordered).run := by
  refine obeys_jobBind hF (obeys_fieldsFor hF row) fun fields w tale w' h => ?_
  have hk : (Deeds.added (g ++ tale.deeds)).length = 0 :=
    stored_of_tells (triple_fieldsFor 0 row) (congrArg List.length hg) h
  refine obeys_jobBind hF (obeys_done _) fun values w₁ tale₁ w₂ h₁ => ?_
  refine obeys_runSteps hF row hid fields values ordered _ [] 0 ?_ hnum hmem
    ((Nat.zero_add _).trans hlen)
  exact stored_of_tells (Q := fun _ => stored 0) (Contract.triple_ofExcept fun _ _ h => h) hk h₁

theorem obeys_breakOff (failure : Failure) :
    Obeys R (flagged r number) (Late id steps) g (Runner.breakOff id failure).run := by
  unfold Runner.breakOff
  split
  · exact obeys_jobBind hF (obeys_finish hF (.inr ⟨rfl, _, rfl, .interrupted⟩))
      fun _ _ _ _ _ => obeys_done _
  · refine obeys_jobBind hF (obeys_bind hF indifferent_late ?_ fun _ _ _ _ _ => obeys_done _)
      fun _ _ _ _ _ => obeys_done _
    exact obeys_jobBind hF (obeys_read hF _) fun _ _ _ _ _ =>
      obeys_finish hF (.inr ⟨rfl, _, rfl, .aborted _⟩)

/-- A run that has loaded at least one step, from its claim on. -/
theorem obeys_runLoaded (row : SubmissionRow) (hid : row.id = id) (hg : g.added = [])
    (hsteps : steps ≠ []) :
    Obeys R (flagged r number) (Late id steps) g (do
      let target ← Job.ofCauses (row.status.transition .processing)
      Runner.leavePending id target
      match checkDense steps with
      | .error e => do
        let message := s!"Pipeline configuration error: {e.message}"
        let _ ← Runner.finish id .failed (some message)
        Job.fail (.pipelineConfiguration message)
      | .ok ordered => do
        match ← Job.outcome (r.runAllSteps row number ordered) with
        | .ok final => return final
        | .error failure => Runner.breakOff id failure : Job SubmissionRow).run := by
  cases ht : row.status.transition .processing with
  | error c => exact obeys_done _
  | ok target =>
    obtain rfl := Outline.eq_of_transition ht
    refine obeys_jobBind (j := Runner.leavePending id .processing) hF
      (obeys_leavePending hF (.inl ⟨rfl, hsteps⟩)) fun _ w tale w' h => ?_
    have hg' : Deeds.added (g ++ tale.deeds) = [] := List.eq_nil_of_length_eq_zero
      (stored_of_tells (triple_leavePending 0 .processing) (congrArg List.length hg) h)
    cases hd : checkDense steps with
    | error e =>
      exact obeys_jobBind hF (obeys_finish hF (.inr ⟨rfl, _, rfl, .disordered e⟩))
        fun _ _ _ _ _ => obeys_done _
    | ok ordered =>
      obtain ⟨hperm, hnum⟩ := checkDense_eq_ok.1 hd
      refine obeys_jobBind hF (obeys_bind hF indifferent_late
        (obeys_runAllSteps hF row hid hg' hnum (fun _ => hperm.mem_iff.1) hperm.length_eq)
          fun _ _ _ _ _ => obeys_done _) fun outcome _ _ _ _ => ?_
      cases outcome with
      | ok final => exact obeys_done _
      | error failure => exact obeys_breakOff hF failure

end

/-- A run without steps only completes the submission. -/
theorem obeys_runEmpty (hF : Lasting R F) (hg : g.added = []) (row : SubmissionRow) :
    Obeys R F (Late id []) g (do
      let target ← Job.ofCauses (row.status.transition .completed)
      Runner.leavePending id target
      Runner.reload id : Job SubmissionRow).run := by
  cases ht : row.status.transition .completed with
  | error c => exact obeys_done _
  | ok target =>
    obtain rfl := Outline.eq_of_transition ht
    exact obeys_jobBind (j := Runner.leavePending id .completed) hF
      (obeys_leavePending hF (.inr ⟨rfl, congrArg List.length hg⟩)) fun _ _ _ _ _ => obeys_read hF _

end Heeding

/-! ## §7. The whole run. -/

/-- The steps that a run has loaded: after the statement that takes the slot of its submission it has
read the row and then the steps. -/
def Deeds.loadedSteps (id : Int) : Deeds → List Step
  | _ :: seen :: loaded :: _ =>
    match seen.before.store.submissions.get? id with
    | some row => match loaded.before.store.activeSteps row.formId with
      | .ok steps => steps
      | .error _ => []
    | none => []
  | _ => []

namespace Heeding

variable {R : World → World → Prop} {F : World → Prop} {r : Runner} {id : Int} {number : Nat}
  {g : Deeds} {tale : Tale} {res : Except Failure SubmissionRow} {w w' : World}

theorem late_of_store_eq {steps : List Step} {access : Access} {update : World → World}
    {begun before resumed : World} (h : ∀ w, (update w).store = w.store) :
    Late id steps g (.statement access update begun before resumed) :=
  fun w => ⟨congrArg Store.outputs (h w), moves_of_store_eq (h w)⟩

theorem late_read {steps : List Step} {begun before resumed : World} :
    Late id steps g (.read begun before resumed) := late_of_store_eq fun _ => rfl

/-- The events of a run that holds its slot, after the deeds `g`: it heeds the request to stop, and if
it loads no steps, whatever it begins stores nothing. -/
structure Heedful (r : Runner) (id : Int) (number : Nat) (steps : List Step) (g : Deeds)
    (tale : Tale) : Prop where
  spares : ∀ x ∈ tale, x.SparesRuns
  heeds : Heeds (flagged r number) (Late id steps) g tale
  empty : steps = [] → ∀ x ∈ tale, Late id [] g x
  loaded : steps ≠ [] → ∀ slot rest, Deeds.loadedSteps id (slot :: (tale.deeds ++ rest)) = steps

theorem heedful_of_forall_late (hs : ∀ x ∈ tale, x.SparesRuns) (hl : ∀ x ∈ tale, Late id [] g x) :
    Heedful r id number [] g tale :=
  ⟨hs, heeds_of_forall indifferent_late hl, fun _ => hl, fun h => absurd rfl h⟩

/-- From its first statement on, a run that holds its slot heeds the request to stop. -/
theorem heedful_of_tells (hF : Lasting R (flagged r number)) (hg : g.added = [])
    (h : (r.runClaimed id number).run.Tells R w tale res w') :
    ∃ steps, Heedful r id number steps g tale := by
  have hspares : ∀ {v₁ v₂ v₃ : World}, (Event.read v₁ v₂ v₃).SparesRuns := fun _ => rfl
  -- Two reads come first; what they answer decides what the rest is.
  unfold Runner.runClaimed at h
  rcases tells_jobBind h with ⟨e, rfl, hread⟩ | ⟨tale₁, tale₂, row, w₁, rfl, hread, hrest⟩
  · obtain ⟨v₁, rfl, -⟩ := tells_read hread
    exact ⟨[], heedful_of_forall_late (List.forall_mem_singleton.2 hspares)
      (List.forall_mem_singleton.2 late_read)⟩
  obtain ⟨v₁, rfl, hrow⟩ := tells_read hread
  obtain ⟨-, hget⟩ := Store.submission_eq_ok.1 hrow.symm
  by_cases hp : row.status = .processing
  · rw [if_pos hp] at hrest
    cases hrest
    exact ⟨[], heedful_of_forall_late (List.forall_mem_singleton.2 hspares)
      (List.forall_mem_singleton.2 late_read)⟩
  rw [if_neg hp] at hrest
  rcases tells_jobBind hrest with ⟨e, rfl, hread'⟩ | ⟨tale₂, tale₃, steps, w₂, rfl, hread', hend⟩
  · obtain ⟨v₂, rfl, -⟩ := tells_read hread'
    exact ⟨[], heedful_of_forall_late (List.forall_mem_cons.2 ⟨hspares, List.forall_mem_singleton.2 hspares⟩)
      (List.forall_mem_cons.2 ⟨late_read, List.forall_mem_singleton.2 late_read⟩)⟩
  obtain ⟨v₂, rfl, hsteps⟩ := tells_read hread'
  by_cases hempty : steps.isEmpty = true
  · rw [if_pos hempty] at hend
    obtain ⟨hs, hl, -⟩ := obeys_runEmpty (F := fun _ => True) (g := g)
      ⟨fun _ _ _ h => h, fun _ _ _ h => h⟩ hg row _ _ _ _ hend
    exact ⟨[], heedful_of_forall_late (List.forall_mem_cons.2 ⟨hspares, List.forall_mem_cons.2 ⟨hspares, hs⟩⟩)
      (List.forall_mem_cons.2 ⟨late_read, List.forall_mem_cons.2 ⟨late_read, hl trivial⟩⟩)⟩
  · rw [if_neg hempty] at hend
    have hne : steps ≠ [] := fun h => hempty (List.isEmpty_iff.2 h)
    -- The reads store nothing.
    let g₁ := g ++ (Event.read w v₁ w₁).deeds
    let g₂ := g₁ ++ (Event.read w₁ v₂ w₂).deeds
    have hg₂ : g₂.added = [] := (Deeds.added_concat_of_outputs_eq rfl).trans
      ((Deeds.added_concat_of_outputs_eq rfl).trans hg)
    obtain ⟨hs, hl, hheeds⟩ :=
      obeys_runLoaded hF row (Table.id_of_get? hget) hg₂ hne _ _ _ _ hend
    have hlate : flagged r number w₁ → ∀ x ∈ Event.read w₁ v₂ w₂ :: tale₃, Late id steps g₁ x := by
      intro hw
      obtain ⟨hall, -⟩ := hF.tells hread' (List.forall_mem_singleton.2 hspares)
      exact List.forall_mem_cons.2 ⟨late_read, fun x hx =>
        (indifferent_late g₁ _ x late_read).1 (hl (hall hw).1 x hx)⟩
    refine ⟨steps, List.forall_mem_cons.2 ⟨hspares, List.forall_mem_cons.2 ⟨hspares, hs⟩⟩,
      heeds_cons (heeds_cons hheeds hl) hlate, fun h => absurd h hne, fun _ slot rest => ?_⟩
    show Deeds.loadedSteps id (slot :: ⟨v₁, v₁⟩ :: ⟨v₂, v₂⟩ :: (tale₃.deeds ++ rest)) = steps
    unfold Deeds.loadedSteps
    simp only [hget, ← hsteps]

/-- A run that has taken the slot of its submission is found there. -/
theorem lookup_of_start {registry registry' : Registry}
    (h : registry.start id = .ok (number, registry')) :
    registry'.slots.lookup id = some number ∧ number < registry'.flags.length := by
  unfold Registry.start at h
  split at h
  · cases h
  · rename_i hfree
    cases h
    rw [isActive_eq_isSome_lookup, Option.not_isSome_iff_eq_none] at hfree
    refine ⟨?_, by simp⟩
    rw [List.lookup_append, hfree]
    simp

/-- The tale of a run: it finds the slot taken and ends, or it takes the slot, goes on, and frees it
in the end. -/
theorem tells_run (h : (r.run id).run.Tells R w tale res w') :
    (∃ update, tale = [.statement .memory update w w w']) ∨
      ∃ number claim between free w₁ w₂,
        tale = .statement .memory claim w w w₁ :: between ++ [.statement .memory free w₂ w₂ w'] ∧
          (∀ v, (claim v).store = v.store) ∧ (∀ v, (free v).store = v.store) ∧
          holding r id number w₁ ∧ (r.runClaimed id number).run.Tells R w₁ between res w₂ := by
  unfold Runner.run at h
  rcases tells_jobBind h with ⟨e, rfl, hclaim⟩ | ⟨tale₁, tale₂, number, w₁, rfl, hclaim, hrest⟩
  · obtain ⟨update, rfl, rfl, -⟩ := tells_inMemory hclaim
    exact .inl ⟨update, rfl⟩
  obtain ⟨claim, rfl, rfl, hres, hupdate⟩ := tells_inMemory hclaim
  obtain ⟨between, tale₃, res', w₂, rfl, hrun, hfree⟩ :=
    tells_bind (t := (r.runClaimed id number).run) hrest
  obtain ⟨tale₄, tale₅, freed, w₃, rfl, hfree, hdone⟩ :=
    tells_bind (t := (r.freeSlot id).run) hfree
  obtain ⟨free, rfl, rfl, -, hupdate'⟩ := tells_inMemory hfree
  cases hdone
  refine .inr ⟨number, claim, between, free, claim w, w₂, by simp, fun v => ?_, fun v => ?_, ?_, hrun⟩
  · rw [hupdate]
    split <;> rfl
  · rw [hupdate']
    rfl
  · -- The answer is the number under which the run now stands in the slot.
    have hafter := hupdate w
    cases hstart : (w.registries r.process).start id with
    | ok taken =>
      rw [hstart] at hres hafter
      obtain rfl : number = taken.1 := Except.ok.inj hres
      have hregistry : (claim w).registries r.process = taken.2 := by
        rw [hafter]
        exact World.registries_withRegistry_self w r.process taken.2
      unfold holding
      rw [hregistry]
      exact lookup_of_start hstart
    | error c =>
      rw [hstart] at hres
      cases hres

/-- **What is begun later.**  After the event during which a run is asked to stop it begins only what
it may begin late. -/
theorem late_of_asked (hR : ∀ w w', R w w' → Minds r id w w')
    (h : (r.run id).run.Tells R w tale res w') {earlier later : Tale} {e : Event}
    (htale : tale = earlier ++ e :: later) (hasked : AskedDuring R r id e) :
    ∃ steps, (∀ x ∈ later, Late id steps (Tale.deeds (earlier ++ [e])) x) ∧
      (steps = [] → ∀ x ∈ tale, Late id [] [] x) ∧
      (steps ≠ [] → tale.deeds.loadedSteps id = steps) := by
  obtain ⟨v, v', hwaits, hasked⟩ := hasked
  -- Nothing is waited for while the slot is taken or freed, so the run was asked in between.
  rcases tells_run h with ⟨update, hone⟩ |
    ⟨number, claim, between, free, w₁, w₂, hshape, hclaim, hfree, hhold, hrun⟩
  · rw [hone] at htale
    cases earlier with
    | nil =>
      obtain ⟨rfl, -⟩ := List.cons.inj htale
      cases hwaits
    | cons first earlier => exact absurd (List.cons.inj htale).2 (by simp)
  have hlateClaim : ∀ {g steps}, Late id steps g (.statement .memory claim w w w₁) :=
    late_of_store_eq hclaim
  have hlateFree : ∀ {g steps}, Late id steps g (.statement .memory free w₂ w₂ w') :=
    late_of_store_eq hfree
  have hadded : Deeds.added [⟨w, claim w⟩] = [] :=
    Deeds.added_concat_of_outputs_eq (g := []) (congrArg Store.outputs (hclaim w))
  obtain ⟨steps, hspares, hheeds, hempty, hloaded⟩ :=
    heedful_of_tells (lasting_flagged hR) hadded hrun
  refine ⟨steps, ?_, fun hs => ?_, fun hs => ?_⟩
  · rw [hshape] at htale
    cases earlier with
    | nil =>
      obtain ⟨rfl, -⟩ := List.cons.inj htale
      cases hwaits
    | cons first earlier =>
      obtain ⟨rfl, htail⟩ := List.cons.inj htale
      rcases last_or_before htail with ⟨-, -, rfl⟩ | ⟨init, rfl, hbetween⟩
      · cases hwaits
      · have hmem : e ∈ between := by
          rw [hbetween]
          simp
        have hholding := ((lasting_holding hR).tells hrun hspares).1 hhold
        have hflag : flagged r number e.resumed :=
          (((lasting_flagged hR).tells hrun hspares).2 e hmem).1 v v' hwaits
            (flagged_of_asked hR (hholding.2 e hmem v v' hwaits) hasked)
        exact List.forall_mem_append.2
          ⟨hheeds earlier e init hbetween hflag, List.forall_mem_singleton.2 hlateFree⟩
  · rw [hshape]
    have hbetween : ∀ x ∈ between, Late id [] [] x := fun x hx =>
      (indifferent_late [] (.statement .memory claim w w w₁) x hlateClaim).1 (hempty hs x hx)
    exact List.forall_mem_cons.2 ⟨hlateClaim, List.forall_mem_append.2
      ⟨hbetween, List.forall_mem_singleton.2 hlateFree⟩⟩
  · rw [hshape, List.cons_append, Tale.deeds_cons, Tale.deeds_append]
    exact hloaded hs _ _

end Heeding

end PromptForms
