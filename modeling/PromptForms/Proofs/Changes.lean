/-
  PromptForms.Proofs.Changes
  ──────────────────────────
  **WHAT A STATEMENT MAKES OF THE STORE.**

  However requests and runs follow each other, a statement does one of a dozen things to
  the store, each under conditions that hold of the store at that moment: what has been
  read and checked earlier in the turn still holds when the row is written.  An
  invariant of the store only has to be kept by each kind of change.

      Change              the kinds of changes, with their conditions
      changing            the contract: a statement is a change
      Finds, Does         a job whose statements are changes, and what it finds in the store

  Main results:
    • serves             every request keeps to the contract
    • accounted_run      so does every run; it fails as misconfigured only over wrong numbers
    • grown_of_reaches   in any history the store comes about by changes
-/
import Mathlib.Logic.Relation
import PromptForms.Proofs.Audit
import PromptForms.Proofs.Confined

namespace PromptForms

/-! ## §1. Changes. -/

/-- The form is there, and its fields bear the templates of the draft. -/
def Store.Bears (s : Store) (form : Int) (draft : PipelineDraft) : Prop :=
  ∃ row fields warnings, s.forms.get? form = some row ∧ row.storedFields = .ok fields ∧
    Template.checkSteps draft.steps fields = .ok warnings

/-- What a statement makes of the store. -/
inductive Change (s : Store) : Store → Prop
  | kept : Change s s
  | formCreated (draft : FormDraft) (token : String) (now : Calendar.Instant) {s' : Store}
      (hread : draft.Read) (hids : Forms.checkIds draft.fields = .ok ())
      (hinsert : s.insertForm
        { id := s.forms.nextId, name := draft.name, description := draft.description
          isActive := draft.isActive, publicId := token
          fields := Forms.fieldDocuments draft.fields, createdAt := now, updatedAt := now } =
        some s') : Change s s'
  | formUpdated (form : Int) (patch : FormPatch) (now : Calendar.Instant) {row new : FormRow}
      (hread : patch.Read) (hids : Forms.checkIds (patch.newFields?.getD []) = .ok ())
      (hrow : s.forms.get? form = some row) (hnew : Forms.patched row patch now = .ok new) :
      Change s { s with forms := s.forms.replace form fun _ => new }
  | formDeleted (form : Int) (hidle : s.processingOf? form = none) : Change s (s.deleteForm form)
  | pipelineCreated (form : Int) (draft : PipelineDraft) (now : Calendar.Instant) {s' : Store}
      (hread : draft.Read) (hbears : s.Bears form draft) (hnone : s.pipelineOf? form = none)
      (hinsert : s.insertPipeline
        { id := s.pipelines.nextId, formId := form, name := draft.name, isActive := draft.isActive
          steps := Forms.stepDocuments draft.steps, createdAt := now, updatedAt := now } =
        some s') : Change s s'
  | pipelineReplaced (form : Int) (draft : PipelineDraft) (now : Calendar.Instant)
      {old : PipelineRow} (hread : draft.Read) (hbears : s.Bears form draft)
      (hold : s.pipelineOf? form = some old) :
      Change s { s with pipelines := s.pipelines.replace old.id fun _ =>
        { old with
          name := draft.name, isActive := draft.isActive
          steps := Forms.stepDocuments draft.steps, updatedAt := now } }
  | pipelineDeleted (form : Int) {row : PipelineRow} (hrow : s.pipelineOf? form = some row) :
      Change s { s with pipelines := s.pipelines.remove fun p => p.id == row.id }
  | submitted (token : String) (data : Members) (sender : Submissions.Sender)
      (now : Calendar.Instant) {form : FormRow} {fields : List Field} {values : Dictionary Value}
      {s' : Store} (hform : s.formByToken? token = some form) (hactive : form.isActive = true)
      (hfields : form.storedFields = .ok fields)
      (hvalues : Submissions.valuesOf fields data = .ok values)
      (hinsert : s.insertSubmission
        { id := s.submissions.nextId, formId := form.id, data := Value.allToJson values
          fieldSnapshot := Forms.fieldDocuments fields, ipAddress := sender.address
          userAgent := Submissions.keptAgent sender.agent, submittedAt := now } = some s') :
      Change s s'
  | submissionDeleted (id : Int) {row : SubmissionRow} (hrow : s.submissions.get? id = some row)
      (hidle : row.status ≠ .processing) : Change s (s.deleteSubmission id)
  | moved (id : Int) (target : Status) (now : Calendar.Instant) {row : SubmissionRow}
      (hrow : s.submissions.get? id = some row) (hpending : row.status = .pending)
      (htarget : target = .processing ∨ target = .completed) :
      Change s { s with
        submissions := s.submissions.replace id fun row => row.movedOn target now }
  | settled (id : Int) {target : Status} {message : Option String} (now : Calendar.Instant)
      {row : SubmissionRow} (hrow : s.submissions.get? id = some row)
      (hprocessing : row.status = .processing) (hverdict : Verdict target message) :
      Change s { s with
        submissions := s.submissions.replace id fun row => row.settled target message now }
  /-- The steps that there are at the moment are not numbered from 1 without gaps. -/
  | misnumbered (id form : Int) (now : Calendar.Instant) {row : SubmissionRow} {steps : List Step}
      {e : NumberingError} (hrow : s.submissions.get? id = some row)
      (hprocessing : row.status = .processing) (hsteps : s.activeSteps form = .ok steps)
      (hdense : checkDense steps = .error e) :
      Change s { s with
        submissions := s.submissions.replace id fun row =>
          row.settled .failed (some s!"Pipeline configuration error: {e.message}") now }
  | restarted (id : Int) {row : SubmissionRow} (hrow : s.submissions.get? id = some row)
      (hended : row.status = .completed ∨ row.status = .failed) :
      Change s { s with
        submissions := s.submissions.replace id fun row => row.restarted .pending }
  | outputStored (row : SubmissionRow) (result : StepResult) (now : Calendar.Instant) {s' : Store}
      (hinsert : s.insertOutput (Runner.outputRow row result s.outputs.nextId now) = some s') :
      Change s s'

/-! ## §2. The contract. -/

/-- Statements are changes.  During its turn a task is alone with the store. -/
def changing : Contract where
  allows _ d := Change d.before.store d.after.store
  calm _ w w' := w'.store = w.store
  pause _ _ _ := True

namespace Changes

variable {α β : Type} {A : Store → Prop}

/-- What is known of the store survives statements that keep it. -/
theorem quiet_store (A : Store → Prop) : changing.Quiet fun _ w => A w.store := by
  intro g d h hstore
  refine ⟨?_, fun w hw => ?_⟩
  · show Change d.before.store d.after.store
    rw [hstore]
    exact .kept
  · show A w.store
    rw [show w.store = d.after.store from hw, hstore]
    exact h

/-! ## §3. Jobs whose statements are changes. -/

/-- From any store with a property, the statements of the job are changes, and what it finds goes
with the store at its end. -/
def Finds (A : Store → Prop) (j : Job α) (B : α → Store → Prop) : Prop :=
  changing.Triple (fun _ w => A w.store) j fun res _ w => ∀ a, res = .ok a → B a w.store

/-- No property at all. -/
def Ever (_ : Store) : Prop := True

/-- The statements of the job are changes. -/
def Does (A : Store → Prop) (j : Job α) : Prop := Finds A j fun _ => Ever

section

variable {B : α → Store → Prop} {D : β → Store → Prop}

theorem Finds.weaken {A' : Store → Prop} {j : Job α} (h : Finds A j B) (hA : ∀ s, A' s → A s) :
    Finds A' j B := Contract.Triple.mono h (fun _ w => hA w.store) fun _ _ _ h => h

theorem finds_pure {a : α} (h : ∀ s, A s → B a s) : Finds A (pure a : Job α) B := by
  refine Contract.triple_pure fun _ w hA => ?_
  rintro _ ⟨⟩
  exact h w.store hA

theorem finds_throw (e : Failure) : Finds A (throw e : Job α) B :=
  Contract.triple_throw fun _ _ _ _ h => nomatch h

theorem finds_fail (c : Cause) : Finds A (Job.fail c : Job α) B := finds_throw _

theorem finds_bind {j : Job β} {f : β → Job α} (hj : Finds A j D) (hf : ∀ b, Finds (D b) (f b) B) :
    Finds A (j >>= f) B := by
  apply Contract.triple_bind hj
  · intro b
    exact Contract.Triple.mono (hf b) (fun g w h => h b rfl) fun _ _ _ h => h
  · exact fun _ _ _ _ _ h => nomatch h

/-- A value that is known without a statement; what is known of the store is still known. -/
theorem finds_ofExcept_bind {x : Except Failure β} {f : β → Job α}
    (hf : ∀ b, x = .ok b → Finds A (f b) B) : Finds A (Job.ofExcept x >>= f) B := by
  cases x with
  | ok b => exact hf b rfl
  | error e => exact finds_throw (α := α) e

theorem finds_ofCauses_bind {x : Except Cause β} {f : β → Job α}
    (hf : ∀ b, x = .ok b → Finds A (f b) B) : Finds A (Job.ofCauses x >>= f) B := by
  cases x with
  | ok b => exact hf b rfl
  | error c => exact finds_throw (α := α) _

/-- A job that refuses to go on in some case. -/
theorem finds_refuse {c : Prop} [Decidable c] {cause : Cause} {rest : PUnit → Job α}
    (hrest : ¬c → Finds A (rest ⟨⟩) B) :
    Finds A (if c then Job.fail cause >>= rest else rest ⟨⟩) B :=
  Contract.triple_refuse (fun _ _ _ _ _ h => nomatch h) hrest

/-- What has been read holds of the store, and so does what held before. -/
theorem finds_read {f : World → Except Failure α} (hB : ∀ w a, f w = .ok a → B a w.store) :
    Finds A (Job.read f) fun a s => A s ∧ B a s := by
  refine Contract.triple_reading (fun res => quiet_store fun s => ∀ a, res = .ok a → A s ∧ B a s)
    fun g w h a ha => ⟨h, hB w a ha⟩

theorem finds_inMemory {f : World → Except Failure (α × World)}
    (hf : ∀ w a w', f w = .ok (a, w') → w'.store = w.store) :
    Finds A (Job.inMemory f) fun _ => A :=
  ((quiet_store A).inMemory (R := fun _ => True) (fun w a w' h => ⟨hf w a w' h, trivial⟩)
    fun _ _ _ => trivial).mono (fun _ _ h => h) fun _ _ _ h _ _ => h.1

theorem finds_statement {f : World → Except Failure (α × World)}
    (hf : ∀ w a w', A w.store → f w = .ok (a, w') → Change w.store w'.store) :
    Does A (Job.statement f) := by
  refine Contract.triple_statement fun g w h => ?_
  cases hw : f w with
  | ok pair => exact ⟨hf w pair.1 pair.2 h hw, fun _ _ _ _ => trivial⟩
  | error e => exact ⟨.kept, fun _ _ _ _ => trivial⟩

end

theorem does_pure (a : α) : Does A (pure a : Job α) := finds_pure fun _ _ => trivial

theorem does_bind {j : Job β} {f : β → Job α} (hj : Does A j) (hf : ∀ b, Does Ever (f b)) :
    Does A (j >>= f) := finds_bind hj hf

theorem does_read (f : World → Except Failure α) : Does A (Job.read f) :=
  Contract.Triple.mono (finds_read (B := fun _ => Ever) fun _ _ _ => trivial) (fun _ _ h => h)
    fun _ _ _ _ _ _ => trivial

theorem does_inMemory {f : World → Except Failure (α × World)}
    (hf : ∀ w a w', f w = .ok (a, w') → w'.store = w.store) : Does A (Job.inMemory f) :=
  Contract.Triple.mono (finds_inMemory hf) (fun _ _ h => h) fun _ _ _ _ _ _ => trivial

/-! ## §4. Forms. -/

theorem finds_get (form : Int) :
    Finds A (Forms.get form) fun row s => A s ∧ s.forms.get? form = some row := by
  apply finds_read
  intro w row h
  cases hfits : Store.checkFits form with
  | error e =>
    rw [hfits] at h
    cases h
  | ok _ =>
    simp only [hfits, bind, Except.bind] at h
    split at h
    · cases h
      assumption
    · cases h

theorem finds_getByToken (token : String) :
    Finds A (Forms.getByToken token) fun row s => A s ∧ s.formByToken? token = some row := by
  apply finds_read
  intro w row h
  split at h
  · cases h
    assumption
  · cases h

theorem finds_getPublic (token : String) :
    Finds A (Forms.getPublic token) fun row s =>
      s.formByToken? token = some row ∧ row.isActive = true := by
  unfold Forms.getPublic
  apply finds_bind (finds_getByToken token)
  intro row
  apply finds_refuse
  intro hactive
  apply finds_pure
  intro s hs
  exact ⟨hs.2, by simpa using hactive⟩

theorem does_createForm {draft : FormDraft} (hread : draft.Read) :
    Does Ever (Forms.create draft) := by
  unfold Forms.create
  apply finds_ofCauses_bind
  intro _ hids
  apply does_bind (does_inMemory fun w a w' h => by cases h; rfl)
  intro token
  apply finds_statement
  intro w a w' _ hw
  simp only at hw
  split at hw
  · rename_i store hinsert
    cases hw
    exact .formCreated draft token w.now hread hids hinsert
  · cases hw

theorem does_updateForm (form : Int) {patch : FormPatch} (hread : patch.Read) :
    Does Ever (Forms.update form patch) := by
  unfold Forms.update
  apply finds_bind (finds_get form)
  intro row
  apply finds_ofCauses_bind
  intro _ hids
  apply finds_statement
  rintro w a w' ⟨-, hrow⟩ hw
  cases hnew : Forms.patched row patch w.now with
  | ok new =>
    rw [hnew] at hw
    cases hw
    exact .formUpdated form patch w.now hread hids hrow hnew
  | error e =>
    rw [hnew] at hw
    cases hw

theorem does_deleteForm (form : Int) : Does Ever (Forms.delete form) := by
  unfold Forms.delete
  apply does_bind (does_read _)
  intro _
  apply finds_bind (finds_read (B := fun found s => s.processingOf? form = found)
    fun w found h => Except.ok.inj h)
  intro found
  cases found with
  | some submission => exact finds_fail _
  | none =>
    apply finds_statement
    rintro w a w' ⟨-, hidle⟩ hw
    cases hw
    exact .formDeleted form hidle

/-! ## §5. Pipelines. -/

theorem does_putPipeline (form : Int) {draft : PipelineDraft} (hread : draft.Read) :
    Does (fun s => s.Bears form draft) (Forms.putPipeline form draft) := by
  apply finds_statement
  intro w a w' hbears hw
  simp only at hw
  split at hw
  · rename_i old hold
    cases hw
    exact .pipelineReplaced form draft w.now hread hbears hold
  · rename_i hnone
    split at hw
    · rename_i store hinsert
      cases hw
      exact .pipelineCreated form draft w.now hread hbears hnone hinsert
    · cases hw

theorem does_savePipeline (form : Int) {draft : PipelineDraft} (hread : draft.Read) :
    Does Ever (Forms.savePipeline form draft) := by
  unfold Forms.savePipeline
  apply finds_bind (finds_get form)
  intro row
  apply finds_ofExcept_bind
  intro fields hfields
  apply finds_ofCauses_bind
  intro warnings hwarnings
  have checked : Template.checkSteps draft.steps fields = .ok warnings := by
    cases hcheck : Template.checkSteps draft.steps fields with
    | ok found =>
      rw [hcheck] at hwarnings
      cases hwarnings
      rfl
    | error e =>
      rw [hcheck] at hwarnings
      cases hwarnings
  apply does_bind
  · exact (does_putPipeline form hread).weaken fun s hs =>
      ⟨row, fields, warnings, hs.2, hfields, checked⟩
  · exact fun _ => does_pure _

theorem finds_getPipeline (form : Int) :
    Finds Ever (Forms.getPipeline form) fun row s => Ever s ∧ s.pipelineOf? form = some row := by
  unfold Forms.getPipeline
  apply finds_bind (does_read _)
  intro _
  apply finds_read
  intro w row h
  split at h
  · cases h
    assumption
  · cases h

theorem does_deletePipeline (form : Int) : Does Ever (Forms.deletePipeline form) := by
  unfold Forms.deletePipeline
  apply finds_bind (finds_getPipeline form)
  intro row
  apply finds_statement
  rintro w a w' ⟨-, hrow⟩ hw
  cases hw
  exact .pipelineDeleted form hrow

/-! ## §6. Submissions. -/

theorem does_submit (token : String) (data : Members) (sender : Submissions.Sender) :
    Does Ever (Submissions.submit token data sender) := by
  unfold Submissions.submit
  apply finds_bind (finds_getPublic token)
  intro form
  apply finds_ofExcept_bind
  intro fields hfields
  apply finds_ofExcept_bind
  intro values hvalues
  apply finds_statement
  rintro w a w' ⟨hform, hactive⟩ hw
  simp only at hw
  split at hw
  · rename_i store hinsert
    cases hw
    exact .submitted token data sender w.now hform hactive hfields hvalues hinsert
  · cases hw

theorem does_deleteSubmission (submission : Int) : Does Ever (Submissions.delete submission) := by
  unfold Submissions.delete Submissions.get Runner.reload
  apply finds_bind (finds_read (B := fun row s => s.submissions.get? submission = some row)
    fun w row h => (Store.submission_eq_ok.1 h).2)
  intro row
  apply finds_refuse
  intro hidle
  apply finds_statement
  rintro w a w' ⟨-, hrow⟩ hw
  cases hw
  exact .submissionDeleted submission hrow hidle

end Changes

/-! ## §7. Runs. -/

/-- The steps of a pipeline were out of order. -/
def Failure.IsConfiguration (e : Failure) : Prop :=
  ∃ message, e = Failure.ofCause (.pipelineConfiguration message)

theorem Failure.IsForeign.not_isConfiguration {e : Failure} (h : e.IsForeign) :
    ¬e.IsConfiguration := by
  rintro ⟨message, rfl⟩
  exact h _ rfl

/-- There is an active pipeline with steps that are not numbered from 1 without gaps. -/
def Store.Misnumbered (s : Store) : Prop :=
  ∃ form steps e, s.activeSteps form = .ok steps ∧ checkDense steps = .error e

namespace Changes

variable {α β : Type} {A : Store → Prop} {r : Runner} {id : Int}

theorem not_isConfiguration_of_transition {status target : Status} {c : Cause}
    (h : status.transition target = .error c) : ¬(Failure.ofCause c).IsConfiguration := by
  unfold Status.transition at h
  split at h <;> cases h
  rintro ⟨message, h⟩
  cases h

theorem not_isConfiguration_submission (s : Store) (id : Int) :
    FailsOnly (fun e => ¬e.IsConfiguration) (s.submission id) := by
  intro e he
  rcases failsOnly_submission s id e he with he | rfl
  · exact he.not_isConfiguration
  · rintro ⟨message, h⟩
    cases h

theorem quiet_ever : changing.Quiet fun _ _ => True := quiet_store Ever

theorem ensures_reload : changing.Ensures (Runner.reload id) (FailsOnly fun e => ¬e.IsConfiguration) :=
  (quiet_ever.read fun _ w _ => not_isConfiguration_submission w.store id).mono (fun _ _ h => h)
    fun _ _ _ h => h.2

/-- A run that executes steps does only changes, and its failures are no configuration errors. -/
theorem confines : Confines changing.Ensures fun e => ¬e.IsConfiguration where
  toJobLogic := changing.jobLogic
  foreign := fun _ h => h.not_isConfiguration
  step := by
    rintro number cause ⟨message, h⟩
    cases h
  isCancelled := Contract.ensures_isCancelled quiet_ever
  finish := by
    intro id target message hverdict
    apply changing.jobLogic.failsOnly_bind _ fun _ => ensures_reload
    refine Contract.triple_compareAndSet (fun g w row _ hrow hs => ?_) fun g w _ _ => ?_
    · exact ⟨.settled id w.now hrow (List.mem_singleton.1 hs) hverdict, fun _ _ => failsOnly_ok true⟩
    · exact ⟨.kept, fun _ _ => failsOnly_ok false⟩
  storeOutput := by
    intro row result
    refine Contract.triple_storeOutput (fun g w store _ hi => ?_) fun g w e _ he => ?_
    · exact ⟨.outputStored row result w.now hi, fun _ _ => failsOnly_ok ()⟩
    · refine ⟨.kept, fun _ _ => failsOnly_error ?_⟩
      rcases he with he | ⟨⟨message, rfl⟩, -⟩
      · exact he.not_isConfiguration
      · rintro ⟨message, h⟩
        cases h
  reload := fun _ => ensures_reload

theorem ensures_fieldsFor (row : SubmissionRow) :
    changing.Ensures (Runner.fieldsFor row) (FailsOnly fun e => ¬e.IsConfiguration) := by
  apply Contract.ensures_fieldsFor quiet_ever confines.foreign
  rintro form ⟨message, h⟩
  cases h

/-- If the job fails for steps out of order, then one of the deeds met such steps in the store. -/
def Accounted (res : Except Failure α) (g : Deeds) (_ : World) : Prop :=
  ∀ e, res = .error e → e.IsConfiguration → ∃ d ∈ g, d.before.store.Misnumbered

theorem accounted_of_failsOnly {res : Except Failure α}
    (h : FailsOnly (fun e => ¬e.IsConfiguration) res) (g : Deeds) (w : World) :
    Accounted res g w := fun e he hc => absurd hc (h e he)

/-- Deeds are never undone. -/
theorem quiet_deeds {p : Prop} : changing.Quiet fun g _ => p → ∃ d ∈ g, d.before.store.Misnumbered := by
  intro g d h hstore
  refine ⟨(quiet_ever g d trivial hstore).1, fun w _ hp => ?_⟩
  obtain ⟨d', hd', hmis⟩ := h hp
  exact ⟨d', List.mem_append_left _ hd', hmis⟩

theorem accounted_of_ensures {j : Job α}
    (h : changing.Ensures j (FailsOnly fun e => ¬e.IsConfiguration)) :
    changing.Triple (fun _ w => A w.store) j Accounted :=
  Contract.Triple.mono h (fun _ _ _ => trivial) fun _ g w hres => accounted_of_failsOnly hres g w

/-- A pending submission moves on; the pipelines stay as they are. -/
theorem triple_leavePending {form : Int} {steps : List Step} {target : Status}
    (ht : target = .processing ∨ target = .completed) :
    changing.Triple (fun _ w => w.store.activeSteps form = .ok steps)
      (Runner.leavePending id target) fun res _ w =>
        w.store.activeSteps form = .ok steps ∧ FailsOnly (fun e => ¬e.IsConfiguration) res := by
  refine Contract.triple_leavePending (fun g w row h hrow hs => ?_) fun g w h _ => ?_
  · refine ⟨.moved id target w.now hrow hs ht, fun w' hw => ⟨?_, failsOnly_ok ()⟩⟩
    rw [show w'.store = _ from hw]
    exact h
  · refine ⟨.kept, fun w' hw => ⟨?_, failsOnly_error ?_⟩⟩
    · rw [show w'.store = w.store from hw]
      exact h
    · rintro ⟨message, h⟩
      cases h

/-- A run that finds its steps out of order. -/
theorem accounted_misnumbered {form : Int} {steps : List Step} {e : NumberingError}
    (hdense : checkDense steps = .error e) :
    changing.Triple (fun _ w => w.store.activeSteps form = .ok steps)
      (do
        let message := s!"Pipeline configuration error: {e.message}"
        let _ ← Runner.finish id .failed (some message)
        Job.fail (.pipelineConfiguration message) : Job SubmissionRow) Accounted := by
  have met (w : World) (h : w.store.activeSteps form = .ok steps) : w.store.Misnumbered :=
    ⟨form, steps, e, h, hdense⟩
  have finished : changing.Triple (fun _ w => w.store.activeSteps form = .ok steps)
      (Runner.finish id .failed (some s!"Pipeline configuration error: {e.message}"))
      fun _ g _ => True → ∃ d ∈ g, d.before.store.Misnumbered := by
    apply Contract.triple_bind (R := fun _ g _ => True → ∃ d ∈ g, d.before.store.Misnumbered)
    · refine Contract.triple_compareAndSet (fun g w row h hrow hs => ?_) fun g w h _ => ?_
      · exact ⟨.misnumbered id form w.now hrow (List.mem_singleton.1 hs) h hdense,
          fun _ _ _ => ⟨_, List.mem_append_right _ (List.mem_singleton.2 rfl), met w h⟩⟩
      · exact ⟨.kept, fun _ _ _ => ⟨_, List.mem_append_right _ (List.mem_singleton.2 rfl), met w h⟩⟩
    · exact fun _ => Contract.triple_reading (fun _ => quiet_deeds) fun _ _ h => h
    · exact fun _ _ _ h => h
  apply Contract.triple_bind finished
  · exact fun _ => Contract.triple_fail fun g w h _ _ _ => h trivial
  · exact fun _ g w h _ _ _ => h trivial

/-- A check of the status before it changes. -/
theorem accounted_transition_bind {status target : Status} {rest : Status → Job α}
    (hrest : changing.Triple (fun _ w => A w.store) (rest target) Accounted) :
    changing.Triple (fun _ w => A w.store) (Job.ofCauses (status.transition target) >>= rest)
      Accounted := by
  cases h : status.transition target with
  | ok reached =>
    rw [Outline.eq_of_transition h]
    exact hrest
  | error c =>
    apply Contract.triple_throw
    intro g w _
    exact accounted_of_failsOnly (failsOnly_error (not_isConfiguration_of_transition h)) g w

theorem accounted_runClaimed (run : Nat) :
    changing.Triple (fun _ w => Ever w.store) (r.runClaimed id run) Accounted := by
  unfold Runner.runClaimed
  apply Contract.triple_bind (accounted_of_ensures ensures_reload) _ fun _ _ _ h => h
  intro row
  apply Contract.triple_refuse
  · rintro - g w -
    apply accounted_of_failsOnly (failsOnly_error _)
    rintro ⟨message, h⟩
    cases h
  intro _
  -- The steps that have been loaded stay the active ones up to the check of their numbers.
  apply Contract.triple_bind (R := fun res _ w =>
      FailsOnly (fun e => ¬e.IsConfiguration) res ∧ ∀ steps, res = .ok steps →
        w.store.activeSteps row.formId = .ok steps)
    (Contract.triple_reading (fun res => quiet_store fun s =>
      FailsOnly (fun e => ¬e.IsConfiguration) res ∧ ∀ steps, res = .ok steps →
        s.activeSteps row.formId = .ok steps)
      fun g w _ => ⟨(foreign_activeSteps _ _).mono fun _ h => h.not_isConfiguration, fun _ h => h⟩)
    _ fun e g w h => accounted_of_failsOnly (failsOnly_error (h.1 e rfl)) g w
  intro steps
  apply Contract.Triple.mono (P := fun _ w => w.store.activeSteps row.formId = .ok steps) _
    (fun g w h => h.2 steps rfl) fun _ _ _ h => h
  apply Contract.triple_ite
  · intro _
    apply accounted_transition_bind (A := fun s => s.activeSteps row.formId = .ok steps)
    apply Contract.triple_bind (triple_leavePending (.inr rfl))
    · exact fun _ => Contract.Triple.mono (accounted_of_ensures (A := Ever) ensures_reload)
        (fun _ _ _ => trivial) fun _ _ _ h => h
    · exact fun e g w h => accounted_of_failsOnly (failsOnly_error (h.2 e rfl)) g w
  · intro _
    apply accounted_transition_bind (A := fun s => s.activeSteps row.formId = .ok steps)
    apply Contract.triple_bind (triple_leavePending (.inl rfl)) _
      fun e g w h => accounted_of_failsOnly (failsOnly_error (h.2 e rfl)) g w
    intro _
    cases hdense : checkDense steps with
    | error e =>
      exact Contract.Triple.mono (accounted_misnumbered hdense) (fun _ _ h => h.1) fun _ _ _ h => h
    | ok ordered =>
      exact Contract.Triple.mono
        (accounted_of_ensures (A := Ever) (confines.runOrdered (ensures_fieldsFor row) run ordered))
        (fun _ _ _ => trivial) fun _ _ _ h => h

/-- **A run** only does changes, and what it calls a configuration error is one. -/
theorem accounted_run (r : Runner) (id : Int) :
    changing.Triple (fun _ w => Ever w.store) (r.run id) Accounted := by
  unfold Runner.run
  apply Contract.triple_bind (Contract.triple_claimSlot (quiet_store Ever))
  · intro number
    apply Contract.Triple.mono (P := fun _ w => Ever w.store) _ (fun _ _ h => h.1) fun _ _ _ h => h
    apply Contract.triple_andFinally (accounted_runClaimed number)
    intro res
    apply Contract.triple_freeSlot
    intro g d h hstore
    refine ⟨(quiet_ever g d trivial hstore).1, fun w _ e he hc => ?_⟩
    obtain ⟨d', hd', hmis⟩ := h e he hc
    exact ⟨d', List.mem_append_left _ hd', hmis⟩
  · intro e g w h
    apply accounted_of_failsOnly (failsOnly_error _) g w
    rw [h.2 e rfl]
    rintro ⟨message, h⟩
    cases h

/-- A new attempt restarts a submission that has ended, or it is refused. -/
theorem ensures_newAttempt (r : Runner) (id : Int) :
    changing.Ensures (r.newAttempt id) (FailsOnly fun e => ¬e.IsConfiguration) := by
  apply Contract.triple_newAttempt (R := fun _ _ => True) (L := fun e => ¬e.IsConfiguration)
    quiet_ever
  · rintro ⟨message, h⟩
    cases h
  · intro status c hc
    unfold Status.newAttempt at hc
    split at hc <;> cases hc
    rintro ⟨message, h⟩
    cases h
  · exact fun g w _ => not_isConfiguration_submission w.store id
  · exact fun g w row _ hrow hended => ⟨.restarted id hrow hended, fun _ _ => trivial⟩
  · exact ensures_reload
  · exact fun e g w _ he => failsOnly_error he

theorem accounted_rerun (r : Runner) (id : Int) :
    changing.Triple (fun _ w => Ever w.store) (r.rerun id) Accounted := by
  unfold Runner.rerun
  apply Contract.triple_bind (accounted_of_ensures (A := Ever) (ensures_newAttempt r id))
  · exact fun _ => Contract.Triple.mono (accounted_run r id) (fun _ _ _ => trivial) fun _ _ _ h => h
  · exact fun _ _ _ h => h

/-! ## §8. Requests. -/

theorem keeps_of_does {j : Job α} (h : Does Ever j) : changing.Keeps (fun _ w => Ever w.store) j :=
  Contract.Triple.mono h (fun _ _ h => h) fun _ _ _ _ => trivial

/-- **Requests** only do changes. -/
theorem serves : changing.Serves fun _ w => Ever w.store where
  quiet := quiet_store Ever
  createForm := fun hread => keeps_of_does (does_createForm hread)
  updateForm := fun form _ hread => keeps_of_does (does_updateForm form hread)
  deleteForm := fun form => keeps_of_does (does_deleteForm form)
  savePipeline := fun form _ hread => keeps_of_does (does_savePipeline form hread)
  deletePipeline := fun form => keeps_of_does (does_deletePipeline form)
  submit := fun token data sender => keeps_of_does (does_submit token data sender)
  deleteSubmission := fun id => keeps_of_does (does_deleteSubmission id)
  newAttempt := fun r id =>
    Contract.Triple.mono (ensures_newAttempt r id) (fun _ _ _ => trivial) fun _ _ _ _ => trivial

end Changes

/-! ## §9. Histories. -/

/-- A task that ends with a configuration error has met steps out of order. -/
def Ending.Accounted (g : Deeds) : Ending → Prop
  | .row res => ∀ e, res = .error e → e.IsConfiguration → ∃ d ∈ g, d.before.store.Misnumbered
  | _ => True

/-- The store has come about by changes, and so had the store before each statement. -/
structure Grown (start : Store) (log : List Entry) (w : World) : Prop where
  now : Relation.ReflTransGen Change start w.store
  before : ∀ e ∈ log, Relation.ReflTransGen Change start e.deed.before.store

namespace Changes

theorem meets_task (task : Task) (w : World) :
    changing.Meets task.plan (fun ending g _ => ending.Accounted g) [] w := by
  cases task with
  | request r q =>
    exact (Contract.meets_bind ..).2
      (Contract.Meets.mono (fun _ _ _ _ => trivial) _ _ _ (serves.handle r q [] w trivial))
  | run r submission =>
    exact (Contract.meets_bind ..).2
      (Contract.Meets.mono (fun _ _ _ h => h) _ _ _ (accounted_run r submission [] w trivial))
  | newAttempt r submission =>
    exact (Contract.meets_bind ..).2 (Contract.Meets.mono (fun _ _ _ h => h) _ _ _
      (accounted_of_ensures (A := Ever) (ensures_newAttempt r submission) [] w trivial))
  | rerun r submission =>
    exact (Contract.meets_bind ..).2
      (Contract.Meets.mono (fun _ _ _ h => h) _ _ _ (accounted_rerun r submission [] w trivial))
  | cancel r submission =>
    exact (Contract.meets_bind ..).2
      (Contract.Meets.mono (fun _ _ _ _ => trivial) _ _ _ (serves.cancel r submission [] w trivial))

theorem calm_changing (g : Deeds) (w : World) : changing.calm g w w := rfl

/-- **The agreement** of all tasks. -/
def changers (start : Store) : Agreement history changing where
  ends := fun _ ending g _ => ending.Accounted g
  inv := Grown start
  calm_refl := calm_changing
  calm_trans := fun _ _ _ _ h h' => h'.trans h
  pause_trans := fun _ _ _ _ _ _ => trivial
  pause_of_calm := fun _ _ _ _ => trivial
  calm_of_pause := fun h => h.elim
  ends_of_pause := fun _ _ _ _ _ h _ => h
  begins := fun task _ _ w' _ _ _ => meets_task task w'
  statement := by
    intro log i w w' h hd
    refine ⟨⟨h.now.tail hd, fun e he => ?_⟩, fun _ _ => trivial⟩
    rcases List.mem_append.1 he with he | he
    · exact h.before e he
    · rw [List.mem_singleton.1 he]
      exact h.now
  drift := by
    intro log w w' h hw
    refine ⟨⟨?_, h.before⟩, fun _ => hw⟩
    rw [show w'.store = w.store from hw]
    exact h.now

end Changes

/-- **Histories.**  In every scene that can be reached, the store has come about by changes, and
so had the store before each statement; a run, rerun or new attempt that ended with a
configuration error met steps out of order. -/
theorem grown_of_reaches {start : World} {s : Scene}
    (hs : Scene.Reaches history { world := start } s) :
    Grown start.store s.log s.world ∧ ∀ (i : Nat) (task : Task) (e : Failure),
      s.threads[i]? = some ⟨task, .done (.row (.error e))⟩ → e.IsConfiguration →
        ∃ entry ∈ s.log, entry.deed.before.store.Misnumbered := by
  have hsafe := Agreement.safe_of_reaches (Changes.changers start.store)
    ⟨.refl, fun _ he => absurd he List.not_mem_nil⟩ hs
  refine ⟨hsafe.inv, fun i task e hi hc => ?_⟩
  obtain ⟨d, hd, hmis⟩ := hsafe.ends hi e rfl hc
  obtain ⟨entry, hentry, -, rfl⟩ := mem_deedsOf.1 hd
  exact ⟨entry, hentry, hmis⟩

/-- Every statement in the log of a history is a change. -/
theorem change_of_reaches {start : World} {s : Scene}
    (hs : Scene.Reaches history { world := start } s) :
    ∀ e ∈ s.log, Change e.deed.before.store e.deed.after.store := by
  have hsafe := Agreement.safe_of_reaches (Changes.changers start.store)
    ⟨.refl, fun _ he => absurd he List.not_mem_nil⟩ hs
  intro e he
  obtain ⟨earlier, later, hlog⟩ := List.append_of_mem he
  exact hsafe.allowed earlier e later hlog

end PromptForms
