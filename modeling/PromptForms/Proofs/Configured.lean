/-
  PromptForms.Proofs.Configured
  ─────────────────────────────
  **STORED PIPELINES STAY RUNNABLE.**

  The prompts of a pipeline are checked against the fields of its form when it is saved,
  and the fields may change later.  But no field has a name of the program's own, so the
  fields do not decide what the check says of a reference to a step: it passes exactly if
  all references are backward.  That, and the order of the steps, no change of the store
  can spoil.

      Backward            a name that refers to no step or to one before
      Store.Configured    what holds of every store that comes about from an empty one

  Main results:
    • exists_checkSteps_eq_ok     the check passes whatever the fields are
    • Change.configured           every kind of change keeps the store configured
    • pipelines_stay_runnable     so it stays in any history, and no run fails over it
-/
import PromptForms.Proofs.Changes
import PromptForms.Proofs.Placeholders
import PromptForms.Proofs.References

namespace PromptForms

open Schema Checked

/-! ## §1. References and fields. -/

namespace Template

/-- The name refers to no step, or to one before the step. -/
def Backward (step : Nat) (name : String) : Prop :=
  reference name = .ok none ∨ ∃ k, reference name = .ok (some k) ∧ k < step

/-- All names in the prompt of the step are backward. -/
def RefersBackward (step : Step) : Prop :=
  ∀ name ∈ findVariables step.prompt, Backward step.number name

theorem reference_of_not_isReserved {name : String} (h : isReserved name = false) :
    reference name = .ok none := by
  unfold isReserved at h
  rw [Bool.or_eq_false_iff, Option.isSome_eq_false_iff, Option.isNone_iff_eq_none] at h
  exact reference_eq_none.2 h.2

variable {fields : List Field} {fieldIds : List String}

/-- If no field has a name of the program's own, a name passes exactly if it is backward: the
fields do not matter. -/
theorem exists_checkName_eq_ok (hids : ∀ id ∈ fieldIds, isReserved id = false) {step : Nat}
    {name : String} :
    (∃ verdict, checkName step fieldIds name = .ok verdict) ↔ Backward step name := by
  by_cases known : name = allFieldsName ∨ name ∈ fieldIds
  · have passes : checkName step fieldIds name = .ok none := by
      unfold checkName
      rw [if_pos]
      simpa using known
    have noReference : reference name = .ok none := by
      rcases known with rfl | hfield
      · decide
      · exact reference_of_not_isReserved (hids name hfield)
    exact iff_of_true ⟨none, passes⟩ (.inl noReference)
  · have unknown : ¬(name == allFieldsName || fieldIds.contains name) = true := by simpa using known
    unfold checkName Backward
    rw [if_neg unknown]
    cases hreference : reference name with
    | error reason => simp
    | ok found =>
      cases found with
      | none => simp
      | some k =>
        by_cases hk : step ≤ k
        · simp [hk]
        · simp [hk]
          omega

theorem exists_checkStep_eq_ok (hids : ∀ id ∈ fieldIds, isReserved id = false) {step : Step} :
    (∃ warnings, checkStep fieldIds step = .ok warnings) ↔ RefersBackward step := by
  unfold RefersBackward
  simp only [← exists_checkName_eq_ok hids]
  rw [← exists_mapM_eq_ok]
  unfold checkStep
  cases (findVariables step.prompt).mapM (checkName step.number fieldIds) with
  | ok found => simp [bind, Except.bind, pure, Except.pure]
  | error e => simp [bind, Except.bind]

/-- **The check of a pipeline** passes exactly if all its references are backward, whatever the
fields are. -/
theorem exists_checkSteps_eq_ok (hfields : reservedIds fields = []) {steps : List Step} :
    (∃ warnings, checkSteps steps fields = .ok warnings) ↔ ∀ step ∈ steps, RefersBackward step := by
  have members : ∀ step, step ∈ Step.inStepOrder steps ↔ step ∈ steps := fun step =>
    List.mem_mergeSort
  have each : (∃ found, (Step.inStepOrder steps).mapM (checkStep (fields.map (·.id))) = .ok found) ↔ _ :=
    exists_mapM_eq_ok
  simp only [members, exists_checkStep_eq_ok (not_isReserved_of_reservedIds hfields)] at each
  rw [← each]
  unfold checkSteps
  cases (Step.inStepOrder steps).mapM (checkStep (fields.map (·.id))) with
  | ok found => simp [bind, Except.bind, pure, Except.pure]
  | error e => simp [bind, Except.bind]

/-- A backward name of the shape of a step output is the name of an output before. -/
theorem Backward.eq_stepOutputName {step : Nat} {name : String} (h : Backward step name)
    (hname : '\n' ∉ name.toList) (hshape : (middle? name).isSome = true) :
    ∃ k : Nat, 0 < k ∧ k < step ∧ name = stepOutputName k := by
  rcases h with hnone | ⟨k, hk, hless⟩
  · rw [reference_eq_none.1 hnone] at hshape
    cases hshape
  · obtain ⟨spelled, hpositive⟩ := reference_eq_step hname hk
    exact ⟨k, hpositive, hless, spelled⟩

end Template

/-! ## §2. What drafts keep. -/

/-- A list of members that has been read from a document. -/
theorem exists_of_given {α : Type} {m : Members} {name : String} {check : Json → Checked α} {a : α}
    (h : m.given name check = .good (some a)) : ∃ value, check value = .good a := by
  unfold Members.given at h
  cases hvalue : m.lookup name with
  | none =>
    rw [hvalue] at h
    cases h
  | some value =>
    rw [hvalue] at h
    obtain ⟨b, hb, hba⟩ := map_eq_good.1 (under_eq_good.1 h)
    cases hba
    exact ⟨value, hb⟩

/-- Fields that have been read from documents are read from their own. -/
theorem checks_of_checkAll {document : Json} {fields : List Field}
    (h : Field.checkAll document = .good fields) :
    ∀ f ∈ fields, Field.check f.toJson = .good f := by
  obtain ⟨found, hfound, hdistinct⟩ := andThen_eq_good.1 h
  have same : found = fields := by
    split at hdistinct
    · cases hdistinct
    · cases hdistinct
      rfl
  intro f hf
  obtain ⟨item, hitem⟩ := exists_of_mem_listOf hfound (same ▸ hf)
  exact restores_field item f hitem

/-- The parts of a draft have passed their checks. -/
theorem FormDraft.parts_of_check {document : Json} {draft : FormDraft}
    (h : FormDraft.check document = .good draft) : ∃ m : Members, document = .obj m ∧
    m.required "name" (boundedText 1 (some 200)) = .good draft.name ∧
    m.nullable "description" (boundedText 0 (some 3000)) = .good draft.description ∧
    m.optional "fields" [] Field.checkAll = .good draft.fields := by
  obtain ⟨m, hm, h4⟩ := andThen_eq_good.1 h
  obtain ⟨_, fields, h3, hfields, rfl⟩ := seq_eq_good.1 h4
  obtain ⟨_, isActive, h2, -, rfl⟩ := seq_eq_good.1 h3
  obtain ⟨_, description, h1, hdescription, rfl⟩ := seq_eq_good.1 h2
  obtain ⟨name, hname, rfl⟩ := map_eq_good.1 h1
  exact ⟨m, record_eq_good.1 hm, hname, hdescription, hfields⟩

theorem FormDraft.Read.parts {draft : FormDraft} (h : draft.Read) : ∃ m : Members,
    m.required "name" (boundedText 1 (some 200)) = .good draft.name ∧
    m.nullable "description" (boundedText 0 (some 3000)) = .good draft.description ∧
    m.optional "fields" [] Field.checkAll = .good draft.fields := by
  obtain ⟨document, h⟩ := h
  obtain ⟨m, -, hparts⟩ := FormDraft.parts_of_check h
  exact ⟨m, hparts⟩

theorem FormDraft.Read.checks {draft : FormDraft} (h : draft.Read) :
    ∀ f ∈ draft.fields, Field.check f.toJson = .good f := by
  obtain ⟨m, -, -, hfields⟩ := h.parts
  rcases optional_eq_good.1 hfields with ⟨-, hnone⟩ | ⟨value, -, hvalue⟩
  · rw [← hnone]
    exact fun f hf => absurd hf List.not_mem_nil
  · exact checks_of_checkAll hvalue

/-- So have the parts of a patch. -/
theorem FormPatch.parts_of_check {document : Json} {patch : FormPatch}
    (h : FormPatch.check document = .good patch) : ∃ m : Members, document = .obj m ∧
    m.given "name" (orNull (boundedText 1 (some 200))) = .good patch.name ∧
    m.given "description" (orNull text) = .good patch.description ∧
    m.given "is_active" (orNull bool) = .good patch.isActive ∧
    m.given "fields" (orNull Field.checkAll) = .good patch.fields := by
  obtain ⟨m, hm, h4⟩ := andThen_eq_good.1 h
  obtain ⟨_, fields, h3, hfields, rfl⟩ := seq_eq_good.1 h4
  obtain ⟨_, isActive, h2, hactive, rfl⟩ := seq_eq_good.1 h3
  obtain ⟨_, description, h1, hdescription, rfl⟩ := seq_eq_good.1 h2
  obtain ⟨name, hname, rfl⟩ := map_eq_good.1 h1
  exact ⟨m, record_eq_good.1 hm, hname, hdescription, hactive, hfields⟩

theorem FormPatch.Read.parts {patch : FormPatch} (h : patch.Read) : ∃ m : Members,
    m.given "name" (orNull (boundedText 1 (some 200))) = .good patch.name ∧
    m.given "fields" (orNull Field.checkAll) = .good patch.fields := by
  obtain ⟨document, h⟩ := h
  obtain ⟨m, -, hname, -, -, hfields⟩ := FormPatch.parts_of_check h
  exact ⟨m, hname, hfields⟩

theorem FormPatch.Read.checks {patch : FormPatch} (h : patch.Read) {fields : List Field}
    (hfields : patch.newFields? = some fields) :
    ∀ f ∈ fields, Field.check f.toJson = .good f := by
  obtain ⟨m, -, hfound⟩ := h.parts
  have hsome : patch.fields = some (some fields) := Option.join_eq_some_iff.1 hfields
  obtain ⟨value, hvalue⟩ := exists_of_given (hsome ▸ hfound)
  exact checks_of_checkAll (of_orNull_eq_some hvalue)

/-- The steps of a draft are those that its document lists, put in the order of their numbers. -/
theorem PipelineDraft.listed_of_check {document : Json} {draft : PipelineDraft}
    (h : PipelineDraft.check document = .good draft) : ∃ (m : Members) (listed : List Step),
    document = .obj m ∧ m.optional "steps" [] (listOf Step.check) = .good listed ∧
      checkDense listed = .ok draft.steps := by
  obtain ⟨m, rfl, -, -, hsteps⟩ := PipelineDraft.check_eq_good.1 h
  rcases optional_eq_good.1 hsteps with ⟨habsent, hnone⟩ | ⟨value, hvalue, hchecked⟩
  · rw [← hnone]
    exact ⟨m, [], rfl, optional_eq_good.2 (.inl ⟨habsent, rfl⟩),
      checkDense_eq_ok.2 ⟨List.Perm.refl _, rfl⟩⟩
  · obtain ⟨listed, hlisted, hdense⟩ := checkSteps_eq_good.1 hchecked
    exact ⟨m, listed, rfl, optional_eq_good.2 (.inr ⟨value, hvalue, hlisted⟩), hdense⟩

/-- The steps of a draft are read from their own documents, and they stand in the order of their
numbers `1 … N`. -/
theorem PipelineDraft.Read.dense {draft : PipelineDraft} (h : draft.Read) :
    (∀ step ∈ draft.steps, Step.check step.toJson = .good step) ∧
      draft.steps.map (·.number) = List.range' 1 draft.steps.length := by
  obtain ⟨document, h⟩ := h
  obtain ⟨m, listed, -, hlisted, hdense⟩ := PipelineDraft.listed_of_check h
  obtain ⟨hperm, hnum⟩ := checkDense_eq_ok.1 hdense
  refine ⟨fun step hs => ?_, hnum⟩
  have hmem := hperm.mem_iff.1 hs
  rcases optional_eq_good.1 hlisted with ⟨-, rfl⟩ | ⟨value, -, hvalue⟩
  · cases hmem
  · obtain ⟨item, hitem⟩ := exists_of_mem_listOf hvalue hmem
    exact restores_step item step hitem

/-! ## §3. Rows. -/

/-- The fields can be read, and none of them has a name of the program's own. -/
def FormRow.Unreserved (row : FormRow) : Prop :=
  ∃ fields, row.storedFields = .ok fields ∧ reservedIds fields = []

/-- The steps can be read; they stand in the order of their numbers `1 … N`, and all references are
backward. -/
def PipelineRow.Runnable (row : PipelineRow) : Prop :=
  ∃ steps, row.storedSteps = .ok steps ∧ steps.map (·.number) = List.range' 1 steps.length ∧
    ∀ step ∈ steps, Template.RefersBackward step

/-- No attempt has ended over the numbers of steps. -/
def SubmissionRow.Blameless (row : SubmissionRow) : Prop :=
  ∀ message : String, row.errorMessage ≠ some s!"Pipeline configuration error: {message}"

theorem storedFields_of_checks {row : FormRow} {fields : List Field}
    (hrow : row.fields = Forms.fieldDocuments fields)
    (hchecks : ∀ f ∈ fields, Field.check f.toJson = .good f) : row.storedFields = .ok fields := by
  unfold FormRow.storedFields
  rw [hrow]
  exact checkElementsIfAny_map hchecks

theorem storedSteps_of_checks {row : PipelineRow} {steps : List Step}
    (hrow : row.steps = Forms.stepDocuments steps)
    (hchecks : ∀ step ∈ steps, Step.check step.toJson = .good step) :
    row.storedSteps = .ok steps := by
  unfold PipelineRow.storedSteps
  rw [hrow]
  exact checkElementsIfAny_map hchecks

theorem unreserved_of_fields {row : FormRow} {fields : List Field}
    (hrow : row.fields = Forms.fieldDocuments fields)
    (hchecks : ∀ f ∈ fields, Field.check f.toJson = .good f)
    (hids : Forms.checkIds fields = .ok ()) : row.Unreserved := by
  exact ⟨fields, storedFields_of_checks hrow hchecks, Forms.reservedIds_of_checkIds hids⟩

/-- A pipeline that has been read and checked against fields without names of the program's own. -/
theorem runnable_of_draft {row : PipelineRow} {draft : PipelineDraft} (hread : draft.Read)
    (hrow : row.steps = Forms.stepDocuments draft.steps) {fields : List Field}
    (hfields : reservedIds fields = []) {warnings : List String}
    (hchecked : Template.checkSteps draft.steps fields = .ok warnings) : row.Runnable := by
  obtain ⟨hsteps, hnum⟩ := hread.dense
  exact ⟨draft.steps, storedSteps_of_checks hrow hsteps, hnum,
    (Template.exists_checkSteps_eq_ok hfields).1 ⟨warnings, hchecked⟩⟩

/-- No verdict of a run that executes steps is a configuration error. -/
theorem Verdict.ne_configuration {target : Status} {message : Option String}
    (h : Verdict target message) (text : String) :
    message ≠ some s!"Pipeline configuration error: {text}" := by
  intro heq
  have first := congrArg (fun m : Option String => m.bind fun s => s.toList.head?) heq
  cases h <;> simp [toString] at first

/-! ## §4. Changes. -/

/-- What holds of every store that comes about from an empty one. -/
structure Store.Configured (s : Store) : Prop where
  forms : ∀ row ∈ s.forms, row.Unreserved
  pipelines : ∀ row ∈ s.pipelines, row.Runnable
  owners : ∀ row ∈ s.pipelines, ∃ form ∈ s.forms, form.id = row.formId
  submissions : ∀ row ∈ s.submissions, row.Blameless

namespace Store.Configured

variable {s s' : Store}

theorem empty : Store.Configured {} where
  forms := fun _ h => absurd h List.not_mem_nil
  pipelines := fun _ h => absurd h List.not_mem_nil
  owners := fun _ h => absurd h List.not_mem_nil
  submissions := fun _ h => absurd h List.not_mem_nil

/-- Only submissions change. -/
theorem withSubmissions (h : s.Configured) {submissions : Table SubmissionRow}
    {outputs : Table OutputRow} (hrows : ∀ row ∈ submissions, row.Blameless) :
    Store.Configured { s with submissions, outputs } where
  forms := h.forms
  pipelines := h.pipelines
  owners := h.owners
  submissions := hrows

/-- One submission changes, and what it says of errors is blameless. -/
theorem replaced (h : s.Configured) (id : Int) {change : SubmissionRow → SubmissionRow}
    (hc : ∀ row : SubmissionRow, row.Blameless → (change row).Blameless) :
    Store.Configured { s with submissions := s.submissions.replace id change } :=
  h.withSubmissions (Table.forall_mem_replace h.submissions fun row _ _ => hc row)

/-- The steps that there are at any moment are in order. -/
theorem not_misnumbered (h : s.Configured) : ¬s.Misnumbered := by
  rintro ⟨form, steps, e, hsteps, hdense⟩
  have numbered : steps.map (·.number) = List.range' 1 steps.length := by
    unfold Store.activeSteps at hsteps
    cases hpipeline : s.pipelineOf? form with
    | none =>
      rw [hpipeline] at hsteps
      cases hsteps
      rfl
    | some pipeline =>
      simp only [hpipeline] at hsteps
      obtain ⟨stored, hstored, hnum, -⟩ := h.pipelines pipeline (List.mem_of_find?_eq_some hpipeline)
      split at hsteps
      · rw [hstored] at hsteps
        cases hsteps
        exact hnum
      · cases hsteps
        rfl
  rw [checkDense_eq_ok.2 ⟨.refl steps, numbered⟩] at hdense
  cases hdense

theorem formCreated (h : s.Configured) {row : FormRow} (hrow : row.Unreserved)
    (hinsert : s.insertForm row = some s') : s'.Configured := by
  cases Store.eq_of_insertForm hinsert
  refine ⟨fun other hother => ?_, h.pipelines, fun pipeline hp => ?_, h.submissions⟩
  · rcases Table.mem_insert.1 hother with rfl | hother
    · exact hrow
    · exact h.forms other hother
  · obtain ⟨form, hform, hid⟩ := h.owners pipeline hp
    exact ⟨form, Table.mem_insert.2 (.inr hform), hid⟩

theorem formUpdated (h : s.Configured) {form : Int} {new : FormRow} (hid : new.id = form)
    (hnew : new.Unreserved) :
    Store.Configured { s with forms := s.forms.replace form fun _ => new } := by
  refine ⟨Table.forall_mem_replace h.forms fun _ _ _ _ => hnew, h.pipelines, fun pipeline hp => ?_,
    h.submissions⟩
  obtain ⟨owner, howner, hpid⟩ := h.owners pipeline hp
  by_cases hsame : owner.id = form
  · refine ⟨new, List.mem_map.2 ⟨owner, howner, ?_⟩, hid.trans (hsame.symm.trans hpid)⟩
    exact if_pos (beq_iff_eq.2 hsame)
  · refine ⟨owner, List.mem_map.2 ⟨owner, howner, ?_⟩, hpid⟩
    exact if_neg fun h => hsame (beq_iff_eq.1 h)

theorem formDeleted (h : s.Configured) (form : Int) : (s.deleteForm form).Configured := by
  refine ⟨fun row hrow => h.forms row (Table.mem_remove.1 hrow).1,
    fun row hrow => h.pipelines row (Table.mem_remove.1 hrow).1, fun pipeline hp => ?_,
    fun row hrow => h.submissions row (Table.mem_remove.1 hrow).1⟩
  -- The pipelines of the form go with it.
  obtain ⟨hp, hother⟩ := Table.mem_remove.1 hp
  obtain ⟨owner, howner, hid⟩ := h.owners pipeline hp
  exact ⟨owner, Table.mem_remove.2 ⟨howner, by rw [hid]; exact hother⟩, hid⟩

theorem pipelineCreated (h : s.Configured) {row : PipelineRow} (hrow : row.Runnable)
    (howner : ∃ form ∈ s.forms, form.id = row.formId) (hinsert : s.insertPipeline row = some s') :
    s'.Configured := by
  cases Store.eq_of_insertPipeline hinsert
  refine ⟨h.forms, fun other hother => ?_, fun other hother => ?_, h.submissions⟩
  · rcases Table.mem_insert.1 hother with rfl | hother
    · exact hrow
    · exact h.pipelines other hother
  · rcases Table.mem_insert.1 hother with rfl | hother
    · exact howner
    · exact h.owners other hother

theorem pipelineReplaced (h : s.Configured) (id : Int) {new : PipelineRow} (hnew : new.Runnable)
    (howner : ∃ form ∈ s.forms, form.id = new.formId) :
    Store.Configured { s with pipelines := s.pipelines.replace id fun _ => new } where
  forms := h.forms
  pipelines := Table.forall_mem_replace h.pipelines fun _ _ _ _ => hnew
  owners := Table.forall_mem_replace h.owners fun _ _ _ _ => howner
  submissions := h.submissions

theorem pipelinesRemoved (h : s.Configured) (test : PipelineRow → Bool) :
    Store.Configured { s with pipelines := s.pipelines.remove test } where
  forms := h.forms
  pipelines := fun row hrow => h.pipelines row (Table.mem_remove.1 hrow).1
  owners := fun row hrow => h.owners row (Table.mem_remove.1 hrow).1
  submissions := h.submissions

theorem submitted (h : s.Configured) {row : SubmissionRow} (hrow : row.errorMessage = none)
    (hinsert : s.insertSubmission row = some s') : s'.Configured := by
  cases Store.eq_of_insertSubmission hinsert
  apply h.withSubmissions
  intro other hother
  rcases Table.mem_insert.1 hother with rfl | hother
  · intro message hmessage
    rw [hrow] at hmessage
    cases hmessage
  · exact h.submissions other hother

theorem outputStored (h : s.Configured) {row : OutputRow} (hinsert : s.insertOutput row = some s') :
    s'.Configured := by
  cases Store.eq_of_insertOutput hinsert
  exact h.withSubmissions h.submissions

end Store.Configured

theorem Store.Bears.owner {s : Store} {form : Int} {draft : PipelineDraft}
    (h : s.Bears form draft) : ∃ row ∈ s.forms, row.id = form := by
  obtain ⟨row, fields, warnings, hrow, -⟩ := h
  exact ⟨row, Table.mem_of_get? hrow, Table.id_of_get? hrow⟩

/-- A draft whose templates passed the check of fields without names of the program's own. -/
theorem Store.Configured.runnable {s : Store} (h : s.Configured) {form : Int}
    {draft : PipelineDraft} (hread : draft.Read) (hbears : s.Bears form draft) {row : PipelineRow}
    (hrow : row.steps = Forms.stepDocuments draft.steps) : row.Runnable := by
  obtain ⟨owner, fields, warnings, howner, hfields, hchecked⟩ := hbears
  obtain ⟨found, hfound, hids⟩ := h.forms owner (Table.mem_of_get? howner)
  rw [hfields] at hfound
  cases hfound
  exact runnable_of_draft hread hrow hids hchecked

/-- The form that a patch makes of another one. -/
theorem unreserved_of_patched {row new : FormRow} {patch : FormPatch} {now : Calendar.Instant}
    (hrow : row.Unreserved) (hread : patch.Read)
    (hids : Forms.checkIds (patch.newFields?.getD []) = .ok ())
    (hnew : Forms.patched row patch now = .ok new) : new.id = row.id ∧ new.Unreserved := by
  unfold Forms.patched at hnew
  split at hnew <;> cases hnew
  refine ⟨rfl, ?_⟩
  cases hfields : patch.newFields? with
  | none => exact hrow
  | some fields =>
    rw [hfields] at hids
    exact unreserved_of_fields rfl (hread.checks hfields) hids

/-- **A change** keeps the store configured. -/
theorem Change.configured {s s' : Store} (hs : Change s s') (h : s.Configured) : s'.Configured := by
  cases hs with
  | kept => exact h
  | formCreated draft token now hread hids hinsert =>
    exact h.formCreated (unreserved_of_fields rfl hread.checks hids) hinsert
  | formUpdated form patch now hread hids hrow hnew =>
    obtain ⟨hid, hunreserved⟩ :=
      unreserved_of_patched (h.forms _ (Table.mem_of_get? hrow)) hread hids hnew
    exact h.formUpdated (hid.trans (Table.id_of_get? hrow)) hunreserved
  | formDeleted form hidle => exact h.formDeleted form
  | pipelineCreated form draft now hread hbears hnone hinsert =>
    exact h.pipelineCreated (h.runnable hread hbears rfl) hbears.owner hinsert
  | pipelineReplaced form draft now hread hbears hold =>
    have howner := h.owners _ (List.mem_of_find?_eq_some hold)
    exact h.pipelineReplaced _ (h.runnable hread hbears rfl) howner
  | pipelineDeleted form hrow => exact h.pipelinesRemoved _
  | submitted token data sender now hform hactive hfields hvalues hinsert =>
    exact h.submitted rfl hinsert
  | submissionDeleted id hrow hidle =>
    exact h.withSubmissions fun row hrow => h.submissions row (Table.mem_remove.1 hrow).1
  | moved id target now hrow hpending htarget => exact h.replaced id fun _ hrow => hrow
  | settled id now hrow hprocessing hverdict =>
    exact h.replaced id fun _ _ => hverdict.ne_configuration
  | misnumbered id form now hrow hprocessing hsteps hdense =>
    exact absurd ⟨form, _, _, hsteps, hdense⟩ h.not_misnumbered
  | restarted id hrow hended => exact h.replaced id fun _ _ _ => nofun
  | outputStored row result now hinsert => exact h.outputStored hinsert

theorem configured_of_changes {s s' : Store} (hs : Relation.ReflTransGen Change s s')
    (h : s.Configured) : s'.Configured := by
  induction hs with
  | refl => exact h
  | tail _ hchange ih => exact hchange.configured ih

/-! ## §5. The result. -/

/-- **Stored pipelines stay runnable.**  In every scene that can be reached from an empty store:

  1. the steps of every stored pipeline can be read, they stand in the order of their numbers
     `1 … N`, and they pass the check against the fields that the form has now; each name of the
     shape of a step output in them is that of a step before;
  2. no submission has a message about the numbers of steps;
  3. no run, rerun or new attempt has ended over them. -/
theorem pipelines_stay_runnable (start : World) (s : Scene) (hempty : start.store = {})
    (hs : Scene.Reaches history { world := start } s) :
    (∀ pipeline ∈ s.world.store.pipelines, ∃ steps form fields warnings,
      pipeline.storedSteps = .ok steps ∧
      steps.map (·.number) = List.range' 1 steps.length ∧
      s.world.store.forms.get? pipeline.formId = some form ∧ form.storedFields = .ok fields ∧
      Template.checkSteps steps fields = .ok warnings ∧
      ∀ step ∈ steps, ∀ name ∈ Template.findVariables step.prompt,
        (Template.middle? name).isSome = true →
          ∃ k : Nat, 0 < k ∧ k < step.number ∧ name = Template.stepOutputName k) ∧
    (∀ row ∈ s.world.store.submissions, ∀ message : String,
      row.errorMessage ≠ some s!"Pipeline configuration error: {message}") ∧
    (∀ (i : Nat) (task : Task) (message : String),
      s.threads[i]? ≠ some ⟨task, .done (.row
        (.error (Failure.ofCause (.pipelineConfiguration message))))⟩) := by
  obtain ⟨hgrown, hends⟩ := grown_of_reaches hs
  rw [show start.store = {} from hempty] at hgrown
  have hconfigured := configured_of_changes hgrown.now .empty
  refine ⟨fun pipeline hp => ?_, hconfigured.submissions, fun i task message hi => ?_⟩
  · obtain ⟨steps, hsteps, hnum, hbackward⟩ := hconfigured.pipelines pipeline hp
    obtain ⟨form, hform⟩ := Table.exists_get? (hconfigured.owners pipeline hp)
    obtain ⟨fields, hfields, hids⟩ := hconfigured.forms form (Table.mem_of_get? hform)
    obtain ⟨warnings, hchecked⟩ := (Template.exists_checkSteps_eq_ok hids).2 hbackward
    refine ⟨steps, form, fields, warnings, hsteps, hnum, hform, hfields, hchecked, ?_⟩
    intro step hstep name hname hshape
    exact (hbackward step hstep name hname).eq_stepOutputName
      (Template.not_feed_mem_of_mem_findVariables hname) hshape
  · obtain ⟨entry, hentry, hmis⟩ := hends i task _ hi ⟨message, rfl⟩
    exact (configured_of_changes (hgrown.before entry hentry) .empty).not_misnumbered hmis

/-- A pipeline with one step is saved; its prompt names a field that the form does not have.  Then
the form gets that field, and a submission is run. -/
def editedTasks : List Task :=
  let step := "\x7b\"step_number\": 1, \"name\": \"Draft\", \"prompt\": \"For \x7bname\x7d\"\x7d"
  let field := "\x7b\"id\": \"name\", \"type\": \"text\", \"label\": \"Name\"\x7d"
  [Audit.sending "POST" "/api/forms/" "\x7b\"name\": \"Poem\"\x7d",
    Audit.sending "PUT" "/api/pipelines/form/1" ("\x7b\"steps\": [" ++ step ++ "]\x7d"),
    Audit.sending "PUT" "/api/forms/1" ("\x7b\"fields\": [" ++ field ++ "]\x7d"),
    Audit.sending "POST" "/api/submissions/public/poem" "\x7b\"data\": \x7b\"name\": \"Ann\"\x7d\x7d",
    .run Audit.runner 1]

def edited : Scene := editedTasks.foldl (Scene.serve 9) { world := Audit.start }

/-- The pipeline passes the check against the fields that its form has got since. -/
theorem pipelines_stay_runnable_edited :
    ∃ pipeline ∈ edited.world.store.pipelines, ∃ steps form fields warnings,
      pipeline.storedSteps = .ok steps ∧
      edited.world.store.forms.get? pipeline.formId = some form ∧
      form.storedFields = .ok fields ∧ fields.map (·.id) = ["name"] ∧
      Template.checkSteps steps fields = .ok warnings := by
  have hreaches : Scene.Reaches history { world := Audit.start } edited :=
    Scene.Reaches.refl.serveAll 9 editedTasks fun _ _ => trivial
  have hsome : edited.world.store.pipelines.length = 1 := by decide +kernel
  have hfields : (edited.world.store.forms.map fun form =>
      form.storedFields.toOption.map fun fields => fields.map (·.id)) = [some ["name"]] := by
    decide +kernel
  obtain ⟨pipeline, hpipeline⟩ := List.length_eq_one_iff.1 hsome
  have hmem : pipeline ∈ edited.world.store.pipelines := by
    rw [hpipeline]
    exact List.mem_singleton.2 rfl
  obtain ⟨steps, form, fields, warnings, hsteps, -, hform, hstored, hchecked, -⟩ :=
    (pipelines_stay_runnable _ _ rfl hreaches).1 pipeline hmem
  refine ⟨pipeline, hmem, steps, form, fields, warnings, hsteps, hform, hstored, ?_, hchecked⟩
  have hids := List.mem_map_of_mem (f := fun form : FormRow =>
    form.storedFields.toOption.map fun fields => fields.map (·.id)) (Table.mem_of_get? hform)
  rw [hfields, hstored] at hids
  exact Option.some.inj (List.mem_singleton.1 hids)

end PromptForms
