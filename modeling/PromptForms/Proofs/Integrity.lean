/-
  PromptForms.Proofs.Integrity
  ────────────────────────────
  **REFERENCES STAY INTACT.**

  Nothing in the store ties rows together, and ids are used again.  What keeps a pipeline,
  a submission or an output from referring to nothing, or to a later row with an old id,
  are the operations: each looks for the row that it is going to refer to, and a row is
  deleted with all that refers to it.

      Store.Rooted      pipelines and submissions have their forms
      Store.Linked      and outputs have their submissions
      Store.withoutSubmission, Store.withoutForm      what a deletion has to leave

  Main results:
    • Change.rooted             every kind of change keeps the references of rows to forms
    • serve_deleteSubmission, serve_deleteForm      what the two requests come to
    • referential_integrity     so references stay intact in any history, deletions remove
                                what they have to and nothing else, and nothing refers to a
                                new row
-/
import PromptForms.Proofs.Changes
import PromptForms.Proofs.Served

namespace PromptForms

/-! ## §1. References. -/

namespace Store

/-- Rows have ids of their own, pipelines and submissions have their forms, and no two pipelines
have the same one. -/
structure Rooted (s : Store) : Prop where
  forms : (s.forms.map HasId.id).Nodup
  pipelines : (s.pipelines.map HasId.id).Nodup
  single : (s.pipelines.map (·.formId)).Nodup
  configured : ∀ row ∈ s.pipelines, row.formId ∈ s.forms.map HasId.id
  submitted : ∀ row ∈ s.submissions, row.formId ∈ s.forms.map HasId.id

/-- Every reference is to a row that is there. -/
structure Linked (s : Store) : Prop extends Rooted s where
  submissions : (s.submissions.map HasId.id).Nodup
  owned : ∀ o ∈ s.outputs, o.submissionId ∈ s.submissions.map HasId.id

variable {s s' : Store}

theorem Rooted.empty : Rooted {} where
  forms := List.nodup_nil
  pipelines := List.nodup_nil
  single := List.nodup_nil
  configured := fun _ h => absurd h List.not_mem_nil
  submitted := fun _ h => absurd h List.not_mem_nil

theorem Rooted.linked (h : s.Rooted) (hs : s.Sound) : s.Linked where
  toRooted := h
  submissions := hs.distinct
  owned := by
    intro o ho
    obtain ⟨row, hrow, -⟩ := hs.owned o ho
    exact List.mem_map.2 ⟨row, Table.mem_of_get? hrow, Table.id_of_get? hrow⟩

/-! ## §2. What changes do to references. -/

namespace Rooted

/-- The form of a row that is there. -/
theorem mem_forms {form : Int} {row : FormRow} (hrow : s.forms.get? form = some row) :
    form ∈ s.forms.map HasId.id :=
  List.mem_map.2 ⟨row, Table.mem_of_get? hrow, Table.id_of_get? hrow⟩

theorem formCreated (h : s.Rooted) {row : FormRow} (hid : row.id = s.forms.nextId)
    (hinsert : s.insertForm row = some s') : s'.Rooted := by
  cases Store.eq_of_insertForm hinsert
  rw [Table.insert_nextId hid]
  have more (form : Int) (hform : form ∈ s.forms.map HasId.id) :
      form ∈ List.map HasId.id (s.forms ++ [row]) := by
    rw [List.map_append]
    exact List.mem_append_left _ hform
  exact ⟨Table.nodup_append_nextId h.forms hid, h.pipelines, h.single,
    fun p hp => more _ (h.configured p hp), fun r hr => more _ (h.submitted r hr)⟩

/-- A form is changed; its id stays. -/
theorem formUpdated (h : s.Rooted) {form : Int} {new : FormRow} (hid : new.id = form) :
    Rooted { s with forms := s.forms.replace form fun _ => new } := by
  have same : (s.forms.replace form fun _ => new).map HasId.id = s.forms.map HasId.id :=
    Table.map_id_replace_const hid
  refine ⟨?_, h.pipelines, h.single, ?_, ?_⟩
  · show ((s.forms.replace form fun _ => new).map HasId.id).Nodup
    rw [same]
    exact h.forms
  · intro p hp
    show p.formId ∈ (s.forms.replace form fun _ => new).map HasId.id
    rw [same]
    exact h.configured p hp
  · intro r hr
    show r.formId ∈ (s.forms.replace form fun _ => new).map HasId.id
    rw [same]
    exact h.submitted r hr

/-- A form is deleted, and all that refers to it. -/
theorem formDeleted (h : s.Rooted) (form : Int) : (s.deleteForm form).Rooted := by
  have stays (other : Int) (hother : other ∈ s.forms.map HasId.id) (hne : other ≠ form) :
      other ∈ (s.forms.remove fun f => f.id == form).map HasId.id := by
    obtain ⟨row, hrow, hid⟩ := List.mem_map.1 hother
    refine List.mem_map.2 ⟨row, Table.mem_remove.2 ⟨hrow, ?_⟩, hid⟩
    rw [show row.id = other from hid]
    exact beq_eq_false_iff_ne.2 hne
  refine ⟨Table.nodup_map_remove h.forms _, Table.nodup_map_remove h.pipelines _,
    Table.nodup_map_remove h.single _, fun p hp => ?_, fun r hr => ?_⟩
  · obtain ⟨hp, hne⟩ := Table.mem_remove.1 hp
    exact stays p.formId (h.configured p hp) (beq_eq_false_iff_ne.1 hne)
  · obtain ⟨hr, hne⟩ := Table.mem_remove.1 hr
    exact stays r.formId (h.submitted r hr) (beq_eq_false_iff_ne.1 hne)

/-- A form gets a pipeline if it has none. -/
theorem pipelineCreated (h : s.Rooted) {row : PipelineRow} (hid : row.id = s.pipelines.nextId)
    (hform : row.formId ∈ s.forms.map HasId.id) (hnone : s.pipelineOf? row.formId = none)
    (hinsert : s.insertPipeline row = some s') : s'.Rooted := by
  cases Store.eq_of_insertPipeline hinsert
  rw [Table.insert_nextId hid]
  refine ⟨h.forms, Table.nodup_append_nextId h.pipelines hid, ?_, fun p hp => ?_, h.submitted⟩
  · refine Table.nodup_map_append h.single fun other hother heq => ?_
    exact List.find?_eq_none.1 hnone other hother (beq_iff_eq.2 heq)
  · rcases List.mem_append.1 hp with hp | hp
    · exact h.configured p hp
    · rw [List.mem_singleton.1 hp]
      exact hform

/-- No other pipeline has the same id. -/
theorem pipeline_of_id (h : s.Rooted) {row old : PipelineRow} (hold : old ∈ s.pipelines)
    (hrow : row ∈ s.pipelines) (hid : HasId.id row = old.id) : row = old :=
  List.inj_on_of_nodup_map h.pipelines hrow hold hid

/-- A pipeline is changed; its id and its form stay. -/
theorem pipelineReplaced (h : s.Rooted) {old new : PipelineRow} (hold : old ∈ s.pipelines)
    (hid : new.id = old.id) (hform : new.formId = old.formId) :
    Rooted { s with pipelines := s.pipelines.replace old.id fun _ => new } := by
  have hids : (s.pipelines.replace old.id fun _ => new).map HasId.id = s.pipelines.map HasId.id :=
    Table.map_id_replace_const hid
  have hforms : (s.pipelines.replace old.id fun _ => new).map (·.formId) =
      s.pipelines.map (·.formId) :=
    Table.map_replace fun row hrow hsame => h.pipeline_of_id hold hrow hsame ▸ hform
  refine ⟨h.forms, ?_, ?_, ?_, h.submitted⟩
  · show ((s.pipelines.replace old.id fun _ => new).map HasId.id).Nodup
    rw [hids]
    exact h.pipelines
  · show ((s.pipelines.replace old.id fun _ => new).map (·.formId)).Nodup
    rw [hforms]
    exact h.single
  · refine Table.forall_mem_replace h.configured fun row hrow heq _ => ?_
    rw [hform]
    exact h.configured old hold

theorem pipelineDeleted (h : s.Rooted) (test : PipelineRow → Bool) :
    Rooted { s with pipelines := s.pipelines.remove test } where
  forms := h.forms
  pipelines := Table.nodup_map_remove h.pipelines _
  single := Table.nodup_map_remove h.single _
  configured := fun p hp => h.configured p (Table.mem_remove.1 hp).1
  submitted := h.submitted

/-- Only submissions and outputs change, and all submissions have forms. -/
theorem withSubmissions (h : s.Rooted) {submissions : Table SubmissionRow}
    {outputs : Table OutputRow}
    (hrows : ∀ row ∈ submissions, row.formId ∈ s.forms.map HasId.id) :
    Rooted { s with submissions, outputs } where
  forms := h.forms
  pipelines := h.pipelines
  single := h.single
  configured := h.configured
  submitted := hrows

/-- A submission is changed; its form stays. -/
theorem replaced (h : s.Rooted) (id : Int) {change : SubmissionRow → SubmissionRow}
    (hc : ∀ row, (change row).formId = row.formId) :
    Rooted { s with submissions := s.submissions.replace id change } := by
  apply h.withSubmissions
  refine Table.forall_mem_replace h.submitted fun row _ _ hrow => ?_
  rw [hc]
  exact hrow

theorem submitted_of_form (h : s.Rooted) {row : SubmissionRow} (hid : row.id = s.submissions.nextId)
    (hform : row.formId ∈ s.forms.map HasId.id) (hinsert : s.insertSubmission row = some s') :
    s'.Rooted := by
  cases Store.eq_of_insertSubmission hinsert
  rw [Table.insert_nextId hid]
  apply h.withSubmissions
  intro r hr
  rcases List.mem_append.1 hr with hr | hr
  · exact h.submitted r hr
  · rw [List.mem_singleton.1 hr]
    exact hform

theorem outputStored (h : s.Rooted) {o : OutputRow} (hinsert : s.insertOutput o = some s') :
    s'.Rooted := by
  cases Store.eq_of_insertOutput hinsert
  exact h.withSubmissions h.submitted

end Rooted

end Store

theorem Forms.id_of_patched {row new : FormRow} {patch : FormPatch} {now : Calendar.Instant}
    (h : Forms.patched row patch now = .ok new) : new.id = row.id := by
  unfold Forms.patched at h
  split at h <;> cases h
  rfl

/-- **A change** keeps the references to forms. -/
theorem Change.rooted {s s' : Store} (hs : Change s s') (h : s.Rooted) : s'.Rooted := by
  cases hs with
  | kept => exact h
  | formCreated draft token now hread hids hinsert => exact h.formCreated rfl hinsert
  | formUpdated form patch now hread hids hrow hnew =>
    exact h.formUpdated ((Forms.id_of_patched hnew).trans (Table.id_of_get? hrow))
  | formDeleted form hidle => exact h.formDeleted form
  | pipelineCreated form draft now hread hbears hnone hinsert =>
    obtain ⟨row, fields, warnings, hrow, -⟩ := hbears
    exact h.pipelineCreated rfl (Store.Rooted.mem_forms hrow) hnone hinsert
  | pipelineReplaced form draft now hread hbears hold =>
    exact h.pipelineReplaced (List.mem_of_find?_eq_some hold) rfl rfl
  | pipelineDeleted form hrow => exact h.pipelineDeleted _
  | submitted token data sender now hform hactive hfields hvalues hinsert =>
    have hmem := List.mem_map_of_mem (f := HasId.id) (List.mem_of_find?_eq_some hform)
    exact h.submitted_of_form rfl hmem hinsert
  | submissionDeleted id hrow hidle =>
    exact h.withSubmissions fun row hrow => h.submitted row (Table.mem_remove.1 hrow).1
  | moved id | settled id | misnumbered id | restarted id => exact h.replaced id fun _ => rfl
  | outputStored row result now hinsert => exact h.outputStored hinsert

theorem Store.rooted_of_changes {s s' : Store} (hs : Relation.ReflTransGen Change s s')
    (h : s.Rooted) : s'.Rooted := by
  induction hs with
  | refl => exact h
  | tail _ hchange ih => exact hchange.rooted ih

/-! ## §3. New rows. -/

namespace Change

variable {s s' : Store}

/-- A change that adds a form changes nothing that could refer to it. -/
theorem adds_form (hs : Change s s') : s'.forms.map HasId.id ⊆ s.forms.map HasId.id ∨
    (s'.pipelines = s.pipelines ∧ s'.submissions = s.submissions) := by
  cases hs with
  | formCreated draft token now hread hids hinsert =>
    right
    cases Store.eq_of_insertForm hinsert
    exact ⟨rfl, rfl⟩
  | formUpdated form patch now hread hids hrow hnew =>
    left
    have hid := (Forms.id_of_patched hnew).trans (Table.id_of_get? hrow)
    have hids : (s.forms.replace form fun _ => _).map HasId.id = s.forms.map HasId.id :=
      Table.map_id_replace_const hid
    exact fun id hmem => hids ▸ hmem
  | formDeleted form hidle => exact .inl (List.filter_sublist.map _).subset
  | pipelineCreated form draft now hread hbears hnone hinsert =>
    left
    cases Store.eq_of_insertPipeline hinsert
    exact List.Subset.refl _
  | submitted token data sender now hform hactive hfields hvalues hinsert =>
    left
    cases Store.eq_of_insertSubmission hinsert
    exact List.Subset.refl _
  | outputStored row result now hinsert =>
    left
    cases Store.eq_of_insertOutput hinsert
    exact List.Subset.refl _
  | kept | pipelineReplaced | pipelineDeleted | submissionDeleted | moved | settled | misnumbered
  | restarted => exact .inl (List.Subset.refl _)

/-- A change that adds a submission changes nothing that could refer to it. -/
theorem adds_submission (hs : Change s s') :
    s'.submissions.map HasId.id ⊆ s.submissions.map HasId.id ∨ s'.outputs = s.outputs := by
  cases hs with
  | formCreated draft token now hread hids hinsert =>
    cases Store.eq_of_insertForm hinsert
    exact .inr rfl
  | pipelineCreated form draft now hread hbears hnone hinsert =>
    cases Store.eq_of_insertPipeline hinsert
    exact .inr rfl
  | submitted token data sender now hform hactive hfields hvalues hinsert =>
    cases Store.eq_of_insertSubmission hinsert
    exact .inr rfl
  | outputStored row result now hinsert =>
    left
    cases Store.eq_of_insertOutput hinsert
    exact List.Subset.refl _
  | formDeleted | submissionDeleted => exact .inl (List.filter_sublist.map _).subset
  | kept | formUpdated | pipelineReplaced | pipelineDeleted | moved | settled | misnumbered
  | restarted => exact .inr rfl

/-- Nothing refers to a new form, even if its id was used before. -/
theorem unreferenced_form (hs : Change s s') (h : s.Rooted) {form : Int}
    (hnew : form ∈ s'.forms.map HasId.id) (hold : form ∉ s.forms.map HasId.id) :
    (∀ p ∈ s'.pipelines, p.formId ≠ form) ∧ ∀ r ∈ s'.submissions, r.formId ≠ form := by
  rcases hs.adds_form with hsubset | ⟨hpipelines, hsubmissions⟩
  · exact absurd (hsubset hnew) hold
  · rw [hpipelines, hsubmissions]
    exact ⟨fun p hp he => hold (he ▸ h.configured p hp), fun r hr he => hold (he ▸ h.submitted r hr)⟩

/-- Nothing refers to a new submission, even if its id was used before. -/
theorem unreferenced_submission (hs : Change s s') (h : s.Linked) {id : Int}
    (hnew : id ∈ s'.submissions.map HasId.id) (hold : id ∉ s.submissions.map HasId.id) :
    ∀ o ∈ s'.outputs, o.submissionId ≠ id := by
  rcases hs.adds_submission with hsubset | houtputs
  · exact absurd (hsubset hnew) hold
  · rw [houtputs]
    exact fun o ho he => hold (he ▸ h.owned o ho)

end Change

/-! ## §4. Deletions. -/

namespace Store

variable {s : Store}

/-- The store without a submission and its outputs. -/
def withoutSubmission (s : Store) (id : Int) : Store :=
  { s with
    submissions := s.submissions.filter fun r => r.id ≠ id
    outputs := s.outputs.filter fun o => o.submissionId ≠ id }

/-- The store without a form, its pipeline, its submissions and their outputs. -/
def withoutForm (s : Store) (form : Int) : Store where
  forms := s.forms.filter fun f => f.id ≠ form
  pipelines := s.pipelines.filter fun p => p.formId ≠ form
  submissions := s.submissions.filter fun r => r.formId ≠ form
  outputs := s.outputs.filter fun o =>
    (s.submissions.get? o.submissionId).map (·.formId) ≠ some form

/-- The submission is there, and it is not being processed. -/
def SubmissionIdle (s : Store) (id : Int) : Prop :=
  ∃ row, s.submissions.get? id = some row ∧ row.status ≠ .processing

/-- The form is there, and none of its submissions is being processed. -/
def FormIdle (s : Store) (form : Int) : Prop :=
  (∃ row, s.forms.get? form = some row) ∧
    ∀ r ∈ s.submissions, r.formId = form → r.status ≠ .processing

theorem remove_eq_filter {ρ : Type} (rows : Table ρ) (key : ρ → Int) (n : Int) :
    (rows.remove fun row => key row == n) = rows.filter fun row => key row ≠ n := by
  unfold Table.remove
  refine List.filter_congr fun row _ => ?_
  show (!(key row == n)) = decide (key row ≠ n)
  rw [decide_not, beq_eq_decide]

theorem deleteSubmission_eq (s : Store) (id : Int) :
    s.deleteSubmission id = s.withoutSubmission id := by
  unfold deleteSubmission withoutSubmission
  rw [remove_eq_filter s.submissions (·.id), remove_eq_filter s.outputs (·.submissionId)]

/-- The outputs that go with a form are those of its submissions, if no two submissions have the
same id. -/
theorem deleteForm_eq (hd : (s.submissions.map HasId.id).Nodup) (form : Int) :
    s.deleteForm form = s.withoutForm form := by
  have gone (o : OutputRow) :
      ((s.submissions.filter fun r => r.formId == form).map (·.id)).contains o.submissionId = true ↔
        (s.submissions.get? o.submissionId).map (·.formId) = some form := by
    rw [List.contains_iff_mem, List.mem_map]
    constructor
    · rintro ⟨row, hrow, hid⟩
      obtain ⟨hmem, hform⟩ := List.mem_filter.1 hrow
      rw [← hid, show row.id = HasId.id row from rfl, Table.get?_of_mem hd hmem]
      exact congrArg some (beq_iff_eq.1 hform)
    · intro h
      obtain ⟨row, hrow, hform⟩ := Option.map_eq_some_iff.1 h
      exact ⟨row, List.mem_filter.2 ⟨Table.mem_of_get? hrow, beq_iff_eq.2 hform⟩,
        Table.id_of_get? hrow⟩
  have outputs : (s.outputs.remove fun o =>
      ((s.submissions.filter fun r => r.formId == form).map (·.id)).contains o.submissionId) =
      (s.withoutForm form).outputs := by
    refine List.filter_congr fun o _ => ?_
    rw [Bool.eq_iff_iff, Bool.not_eq_true', ← Bool.not_eq_true, gone, decide_eq_true_iff]
  show Store.mk _ _ _ _ = Store.mk _ _ _ _
  rw [Store.mk.injEq]
  exact ⟨remove_eq_filter s.forms (·.id) form, remove_eq_filter s.pipelines (·.formId) form,
    remove_eq_filter s.submissions (·.formId) form, outputs⟩

theorem processingOf?_eq_none {form : Int} : s.processingOf? form = none ↔
    ∀ r ∈ s.submissions, r.formId = form → r.status ≠ .processing := by
  unfold processingOf?
  simp

end Store

section

variable {b : Backend} {r : Runner} {q : Web.HttpRequest} {w : World} {sent : List Request}

theorem run_deleteSubmission {id : Int} (hfits : Store.fits id = true)
    (h : w.store.SubmissionIdle id) :
    b.run (Submissions.delete id) w sent =
      (.ok (), w.withStore (w.store.deleteSubmission id), sent) := by
  obtain ⟨row, hrow, hs⟩ := h
  unfold Submissions.delete Submissions.get
  rw [Backend.run_bind_ok (run_reload hrow hfits), if_neg hs]
  exact Backend.run_statementOn rfl

theorem run_deleteSubmission_refused {id : Int}
    (h : ¬(Store.fits id = true ∧ w.store.SubmissionIdle id)) :
    ∃ e, b.run (Submissions.delete id) w sent = (.error e, w, sent) := by
  unfold Submissions.delete Submissions.get Runner.reload
  cases hrow : w.store.submission id with
  | error e =>
    refine ⟨e, Backend.run_bind_error ?_ _⟩
    rw [Backend.run_read, hrow]
  | ok row =>
    obtain ⟨hfits, hget⟩ := Store.submission_eq_ok.1 hrow
    have hs : row.status = .processing := Decidable.byContradiction fun hs => h ⟨hfits, row, hget, hs⟩
    rw [Backend.run_bind_ok (by rw [Backend.run_read, hrow]), if_pos hs]
    exact ⟨_, rfl⟩

theorem run_getForm_refused {form : Int}
    (h : ¬(Store.fits form = true ∧ ∃ row, w.store.forms.get? form = some row)) :
    ∃ e, b.run (Forms.get form) w sent = (.error e, w, sent) := by
  unfold Forms.get Store.checkFits
  rw [Backend.run_read]
  by_cases hfits : Store.fits form = true
  · cases hrow : w.store.forms.get? form with
    | some row => exact absurd ⟨hfits, row, hrow⟩ h
    | none =>
      refine ⟨Failure.ofCause (.formNotFound (toString form)), ?_⟩
      simp only [hfits, if_true, bind, Except.bind]
  · refine ⟨Store.tooLarge, ?_⟩
    rw [if_neg hfits]
    rfl

theorem run_deleteForm {form : Int} (hfits : Store.fits form = true) (h : w.store.FormIdle form) :
    b.run (Forms.delete form) w sent = (.ok (), w.withStore (w.store.deleteForm form), sent) := by
  obtain ⟨⟨row, hrow⟩, hidle⟩ := h
  unfold Forms.delete
  rw [Backend.run_bind_ok (Backend.run_getForm hfits hrow), Backend.run_bind_ok (Backend.run_ask _)]
  simp only [Store.processingOf?_eq_none.2 hidle]
  exact Backend.run_statementOn rfl

theorem run_deleteForm_refused {form : Int}
    (h : ¬(Store.fits form = true ∧ w.store.FormIdle form)) :
    ∃ e, b.run (Forms.delete form) w sent = (.error e, w, sent) := by
  unfold Forms.delete
  by_cases hthere : Store.fits form = true ∧ ∃ row, w.store.forms.get? form = some row
  · obtain ⟨hfits, row, hrow⟩ := hthere
    rw [Backend.run_bind_ok (Backend.run_getForm hfits hrow), Backend.run_bind_ok (Backend.run_ask _)]
    cases hfound : w.store.processingOf? form with
    | some submission => exact ⟨_, rfl⟩
    | none => exact absurd ⟨hfits, ⟨row, hrow⟩, Store.processingOf?_eq_none.1 hfound⟩ h
  · obtain ⟨e, he⟩ := run_getForm_refused hthere
    exact ⟨e, Backend.run_bind_error he _⟩

/-- **Deleting a submission.**  One that is there and is not being processed goes with its outputs;
otherwise nothing changes. -/
theorem serve_deleteSubmission {id : Int} (hasks : q.Asks (.deleteSubmission id)) :
    (Store.fits id = true ∧ w.store.SubmissionIdle id →
      b.serve r q w sent = ({ outcome := .ok { status := 204 } },
        w.withStore (w.store.withoutSubmission id), sent)) ∧
    (¬(Store.fits id = true ∧ w.store.SubmissionIdle id) → (b.serve r q w sent).2.1 = w) := by
  have hstart : ∀ what, Web.Action.deleteSubmission id ≠ .start what := nofun
  refine ⟨fun ⟨hfits, hidle⟩ => ?_, fun hnot => ?_⟩
  · rw [← Store.deleteSubmission_eq]
    have hrun : b.run (Web.answer r (.deleteSubmission id)) w sent =
        (.ok { status := 204 }, w.withStore (w.store.deleteSubmission id), sent) :=
      Backend.run_bind_ok (run_deleteSubmission hfits hidle) _
    exact Backend.serve_of_asks hasks hstart hrun
  · obtain ⟨e, he⟩ := run_deleteSubmission_refused hnot
    rw [Backend.serve_of_asks hasks hstart (Backend.run_bind_error he _)]

/-- **Deleting a form.**  One that is there and has no submission that is being processed goes with
its pipeline, its submissions and their outputs; otherwise nothing changes. -/
theorem serve_deleteForm {form : Int} (hasks : q.Asks (.deleteForm form))
    (hd : (w.store.submissions.map HasId.id).Nodup) :
    (Store.fits form = true ∧ w.store.FormIdle form →
      b.serve r q w sent = ({ outcome := .ok { status := 204 } },
        w.withStore (w.store.withoutForm form), sent)) ∧
    (¬(Store.fits form = true ∧ w.store.FormIdle form) → (b.serve r q w sent).2.1 = w) := by
  have hstart : ∀ what, Web.Action.deleteForm form ≠ .start what := nofun
  refine ⟨fun ⟨hfits, hidle⟩ => ?_, fun hnot => ?_⟩
  · rw [← Store.deleteForm_eq hd]
    have hrun : b.run (Web.answer r (.deleteForm form)) w sent =
        (.ok { status := 204 }, w.withStore (w.store.deleteForm form), sent) :=
      Backend.run_bind_ok (run_deleteForm hfits hidle) _
    exact Backend.serve_of_asks hasks hstart hrun
  · obtain ⟨e, he⟩ := run_deleteForm_refused hnot
    rw [Backend.serve_of_asks hasks hstart (Backend.run_bind_error he _)]

end

/-! ## §5. The result. -/

/-- At any time every reference is to a row that is there. -/
theorem linked_of_reaches {start : World} {s : Scene} (hempty : start.store = {})
    (hs : Scene.Reaches history { world := start } s) : s.world.store.Linked := by
  have hgrown := (grown_of_reaches hs).1.now
  rw [hempty] at hgrown
  exact (Store.rooted_of_changes hgrown .empty).linked (Audit.safe_of_empty hempty hs).inv.sound

/-- **Referential integrity.**  In every scene that can be reached from an empty store, also while
runs wait for replies:

  1. pipelines and submissions have their forms, outputs have their submissions, and no two
     pipelines have the same form;
  2. a request to delete a submission removes it and its outputs if it is not being processed, and
     otherwise nothing;
  3. a request to delete a form removes it, its pipeline, its submissions and their outputs if none
     of its submissions is being processed, and otherwise nothing;
  4. whenever a form or a submission was added, nothing referred to it, even if its id had been
     used before. -/
theorem referential_integrity (start : World) (s : Scene) (hempty : start.store = {})
    (hs : Scene.Reaches history { world := start } s) :
    s.world.store.Linked ∧
    (∀ (b : Backend) (r : Runner) (q : Web.HttpRequest) (sent : List Request) (id : Int),
      q.Asks (.deleteSubmission id) →
      (Store.fits id = true ∧ s.world.store.SubmissionIdle id →
        b.serve r q s.world sent = ({ outcome := .ok { status := 204 } },
          s.world.withStore (s.world.store.withoutSubmission id), sent)) ∧
      (¬(Store.fits id = true ∧ s.world.store.SubmissionIdle id) →
        (b.serve r q s.world sent).2.1 = s.world)) ∧
    (∀ (b : Backend) (r : Runner) (q : Web.HttpRequest) (sent : List Request) (form : Int),
      q.Asks (.deleteForm form) →
      (Store.fits form = true ∧ s.world.store.FormIdle form →
        b.serve r q s.world sent = ({ outcome := .ok { status := 204 } },
          s.world.withStore (s.world.store.withoutForm form), sent)) ∧
      (¬(Store.fits form = true ∧ s.world.store.FormIdle form) →
        (b.serve r q s.world sent).2.1 = s.world)) ∧
    (∀ e ∈ s.log,
      (∀ form ∈ e.deed.after.store.forms.map HasId.id,
        form ∉ e.deed.before.store.forms.map HasId.id →
          (∀ p ∈ e.deed.after.store.pipelines, p.formId ≠ form) ∧
            ∀ r ∈ e.deed.after.store.submissions, r.formId ≠ form) ∧
      (∀ id ∈ e.deed.after.store.submissions.map HasId.id,
        id ∉ e.deed.before.store.submissions.map HasId.id →
          ∀ o ∈ e.deed.after.store.outputs, o.submissionId ≠ id)) := by
  have hnow := linked_of_reaches hempty hs
  refine ⟨hnow, fun b r q sent id => serve_deleteSubmission,
    fun b r q sent form hasks => serve_deleteForm hasks hnow.submissions, fun e he => ?_⟩
  obtain ⟨past, future, hlog⟩ := List.append_of_mem he
  obtain ⟨earlier, hearlier, hworld, -⟩ := hs.before past e future hlog
  have hbefore : e.deed.before.store.Linked := hworld ▸ linked_of_reaches hempty hearlier
  have hchange := change_of_reaches hs e he
  exact ⟨fun form hnew hold => hchange.unreferenced_form hbefore.toRooted hnew hold,
    fun id hnew hold => hchange.unreferenced_submission hbefore hnew hold⟩

open Served in
/-- When the form is deleted whose submission has an output, nothing is left. -/
theorem referential_integrity_deletion :
    (idle.serve Audit.runner (sending "DELETE" "/api/forms/1" "") Audit.firstRun.world
      []).2.1.store.outputs.length = 0 ∧ Audit.firstRun.world.store.outputs.length = 1 := by
  have hreaches : Scene.Reaches history { world := Audit.start } Audit.firstRun :=
    (Scene.Reaches.refl.serveAll 9 Audit.tasks fun _ _ => trivial).hear 9 3 _
  have hasks : (sending "DELETE" "/api/forms/1" "").Asks (.deleteForm 1) :=
    ⟨.deleteForm "1", by decide +kernel, rfl⟩
  obtain ⟨-, -, hdelete, -⟩ := referential_integrity _ _ rfl hreaches
  have hfacts : Audit.firstRun.world.store.FormIdle 1 ∧
      (Audit.firstRun.world.store.withoutForm 1).outputs.length = 0 ∧
      Audit.firstRun.world.store.outputs.length = 1 := by
    rw [Store.FormIdle, ← Option.isSome_iff_exists]
    decide +kernel
  rw [(hdelete idle Audit.runner _ [] 1 hasks).1 ⟨by decide, hfacts.1⟩]
  exact hfacts.2

end PromptForms
