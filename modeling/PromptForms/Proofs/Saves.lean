/-
  PromptForms.Proofs.Saves
  ────────────────────────
  **WHAT IS SAVED IS READ BACK.**

  Forms and pipelines are stored as documents.  Each check restores what it finds from the
  document that is written for it, so a form is read with the fields it was created with,
  and a pipeline with the steps that were saved, by their numbers and not as they were
  listed.  A form has one pipeline: saving another one writes over it and keeps its id.

      FormRow.Holds, PipelineRow.Holds    a row with all that a draft says
      Store.Wrote                         the pipelines after one has been written

  Main results:
    • alone_create_eq_ok          when a form is created, and as which row
    • exists_alone_putPipeline    writing a pipeline, over an old one or as a new one
    • alone_savePipeline          a save by itself
    • saves_read_back             forms and pipelines are read as they were saved, after any
                                  history
-/
import PromptForms.Proofs.Patches
import PromptForms.Proofs.Stored
import PromptForms.Proofs.Integrity

namespace PromptForms

open Schema Schema.Checked

/-! ## §1. Rows that hold what a draft says. -/

/-- A form with all that a draft says of it. -/
structure FormRow.Holds (row : FormRow) (draft : FormDraft) : Prop where
  name : row.name = draft.name
  description : row.description = draft.description
  isActive : row.isActive = draft.isActive
  fields : row.storedFields = .ok draft.fields

/-- A pipeline with all that a draft says of it; its steps are stored in ascending order. -/
structure PipelineRow.Holds (row : PipelineRow) (draft : PipelineDraft) : Prop where
  name : row.name = draft.name
  isActive : row.isActive = draft.isActive
  steps : row.storedSteps = .ok draft.steps
  ascending : draft.steps.map (·.number) = List.range' 1 draft.steps.length

/-- The fields of a draft that came from a text can be written. -/
theorem FormDraft.exact_fields {document : Json} {draft : FormDraft} (hexact : document.Exact)
    (h : FormDraft.check document = .good draft) : (Forms.fieldDocuments draft.fields).Exact := by
  obtain ⟨m, rfl, -, -, hfields⟩ := FormDraft.parts_of_check h
  have hdefault : (Json.arr (([] : List Field).map Field.toJson)).Exact := trivial
  exact writesExact_fields.optional hdefault hexact hfields

/-- So can the steps of a draft. -/
theorem PipelineDraft.exact_steps {document : Json} {draft : PipelineDraft}
    (hexact : document.Exact) (h : PipelineDraft.check document = .good draft) :
    (Forms.stepDocuments draft.steps).Exact := by
  obtain ⟨m, listed, rfl, hlisted, hdense⟩ := PipelineDraft.listed_of_check h
  have hdefault : (Json.arr (([] : List Step).map Step.toJson)).Exact := trivial
  have hwritten := writesExact_step.listOf.optional hdefault hexact hlisted
  apply Json.exact_arr_map
  intro step hstep
  refine Json.exactItems_iff.1 hwritten _ (List.mem_map_of_mem ?_)
  exact (checkDense_eq_ok.1 hdense).1.mem_iff.1 hstep

/-! ## §2. Creating a form. -/

/-- The row of a new form. -/
def FormDraft.newRow (draft : FormDraft) (w : World) : FormRow :=
  { id := w.store.forms.nextId, name := draft.name, description := draft.description
    isActive := draft.isActive, publicId := w.tokens w.drawn
    fields := Forms.fieldDocuments draft.fields, createdAt := w.now, updatedAt := w.now }

theorem FormDraft.Read.holds {draft : FormDraft} (h : draft.Read) (w : World) :
    (draft.newRow w).Holds draft :=
  ⟨rfl, rfl, rfl, storedFields_of_checks rfl h.checks⟩

/-- A new form is added exactly if no other one has its token. -/
theorem Store.insertForm_eq_some {s s' : Store} (row : FormRow) (hid : row.id = s.forms.nextId) :
    s.insertForm row = some s' ↔
      (∀ f ∈ s.forms, f.publicId ≠ row.publicId) ∧ s' = { s with forms := s.forms ++ [row] } := by
  have htaken : (s.forms.any fun f => f.id == row.id || f.publicId == row.publicId) = true ↔
      ∃ f ∈ s.forms, f.publicId = row.publicId := by
    rw [List.any_eq_true]
    refine exists_congr fun f => and_congr_right fun hf => ?_
    have hfresh : f.id ≠ row.id := Int.ne_of_lt (hid ▸ Table.lt_nextId hf)
    rw [Bool.or_eq_true, beq_iff_eq, beq_iff_eq, or_iff_right hfresh]
  unfold insertForm
  rw [Table.insert_nextId hid]
  split
  · rename_i hany
    obtain ⟨f, hf, hsame⟩ := htaken.1 hany
    exact ⟨fun h => (nomatch h), fun h => absurd hsame (h.1 f hf)⟩
  · rename_i hfree
    rw [htaken] at hfree
    rw [Option.some.injEq, and_iff_right fun f hf hsame => hfree ⟨f, hf, hsame⟩]
    exact eq_comm

/-- **A creation by itself**: the ids are checked, a token is drawn, and the row is added. -/
theorem alone_create (draft : FormDraft) (w : World) :
    (Forms.create draft).alone w =
      match Forms.checkIds draft.fields with
      | .error cause => (.error (Failure.ofCause cause), w)
      | .ok () =>
        let drawn := { w with drawn := w.drawn + 1 }
        match w.store.insertForm (draft.newRow w) with
        | some store => (.ok (draft.newRow w), drawn.withStore store)
        | none => (.error (Failure.ofCause
            (.entityAlreadyExists "Form conflicts with an existing row")), drawn) := by
  unfold Forms.create
  rw [Job.alone_bind]
  cases Forms.checkIds draft.fields with
  | error cause => rfl
  | ok _ =>
    show (Forms.drawToken >>= _).alone w = _
    rw [Job.alone_bind]
    show (Job.statement _).alone { w with drawn := w.drawn + 1 } = _
    rw [Job.alone_statement]
    unfold FormDraft.newRow
    dsimp only
    generalize w.store.insertForm _ = inserted
    cases inserted <;> rfl

/-- **A form is created** exactly if no field has a name of the program's own and its token is new. -/
theorem alone_create_eq_ok {draft : FormDraft} {w w' : World} {row : FormRow} :
    (Forms.create draft).alone w = (.ok row, w') ↔
      reservedIds draft.fields = [] ∧ (∀ f ∈ w.store.forms, f.publicId ≠ w.tokens w.drawn) ∧
      row = draft.newRow w ∧ w' = { w with
        drawn := w.drawn + 1
        store := { w.store with forms := w.store.forms ++ [row] } } := by
  rw [alone_create]
  constructor
  · intro h
    split at h
    · cases h
    · rename_i hids
      dsimp only at h
      split at h
      · rename_i store hstore
        cases h
        obtain ⟨hnew, rfl⟩ := (Store.insertForm_eq_some (draft.newRow w) rfl).1 hstore
        exact ⟨Forms.reservedIds_of_checkIds hids, hnew, rfl, rfl⟩
      · cases h
  · rintro ⟨hids, hnew, rfl, rfl⟩
    rw [checkIds_of_unreserved hids]
    dsimp only
    rw [(Store.insertForm_eq_some (draft.newRow w) rfl).2 ⟨hnew, rfl⟩]
    rfl

/-! ## §3. Writing a pipeline. -/

/-- The store after the pipeline of a form has been written. -/
structure Store.Wrote (s s' : Store) (row : PipelineRow) : Prop where
  /-- It is the only one of its form. -/
  only : (s'.pipelines.filter fun p => p.formId == row.formId) = [row]
  /-- Those of other forms are as they were, and in their order. -/
  others : (s'.pipelines.filter fun p => p.formId != row.formId) =
    s.pipelines.filter fun p => p.formId != row.formId
  /-- Nothing else changes. -/
  rest : s' = { s with pipelines := s'.pipelines }

namespace Store

variable {s s' : Store} {row old new : PipelineRow}

theorem Wrote.pipelineOf? (h : s.Wrote s' row) : s'.pipelineOf? row.formId = some row := by
  unfold Store.pipelineOf?
  rw [← List.head?_filter, h.only]
  rfl

/-- A form gets its first pipeline. -/
theorem exists_insertPipeline (row : PipelineRow) (hid : row.id = s.pipelines.nextId)
    (hnone : s.pipelineOf? row.formId = none) :
    ∃ s', s.insertPipeline row = some s' ∧ s.Wrote s' row := by
  have hothers : ∀ p ∈ s.pipelines, p.formId ≠ row.formId := fun p hp heq =>
    List.find?_eq_none.1 hnone p hp (beq_iff_eq.2 heq)
  have hfree : ¬(s.pipelines.any fun p => p.id == row.id || p.formId == row.formId) = true := by
    rw [List.any_eq_true]
    rintro ⟨p, hp, htaken⟩
    rcases Bool.or_eq_true_iff.1 htaken with hsame | hsame
    · exact Int.ne_of_lt (Table.lt_nextId hp) ((beq_iff_eq.1 hsame).trans hid)
    · exact hothers p hp (beq_iff_eq.1 hsame)
  refine ⟨{ s with pipelines := s.pipelines ++ [row] }, ?_, ?_, ?_, rfl⟩
  · unfold insertPipeline
    rw [if_neg hfree, Table.insert_nextId hid]
  · have hnil : (s.pipelines.filter fun p => p.formId == row.formId) = [] :=
      List.filter_eq_nil_iff.2 fun p hp heq => hothers p hp (beq_iff_eq.1 heq)
    show (s.pipelines ++ [row]).filter _ = [row]
    rw [List.filter_append, hnil]
    simp
  · show (s.pipelines ++ [row]).filter _ = _
    rw [List.filter_append]
    simp

/-- A pipeline is written over another one of the same form. -/
theorem Rooted.wrote_replace (h : s.Rooted) (hold : old ∈ s.pipelines) (hid : new.id = old.id)
    (hform : new.formId = old.formId) :
    s.Wrote { s with pipelines := s.pipelines.replace old.id fun _ => new } new := by
  have hmem : new ∈ s.pipelines.replace old.id fun _ => new :=
    List.mem_map.2 ⟨old, hold, if_pos (beq_self_eq_true _)⟩
  refine ⟨Table.filter_eq_singleton (h.pipelineReplaced hold hid hform).single hmem, ?_, rfl⟩
  refine Table.filter_replace fun row hrow hsame => ?_
  rw [h.pipeline_of_id hold hrow hsame, hform]
  exact ⟨by simp, by simp⟩

end Store

/-- **Writing a pipeline.**  It holds what the draft says, and it is the only one of its form; if
there was one before, it keeps its id and the time of its creation. -/
theorem exists_alone_putPipeline {w : World} (h : w.store.Rooted) (form : Int)
    (draft : PipelineDraft) : ∃ row w', (Forms.putPipeline form draft).alone w = (.ok row, w') ∧
      (row.formId = form ∧ row.name = draft.name ∧ row.isActive = draft.isActive ∧
        row.steps = Forms.stepDocuments draft.steps) ∧
      (∀ old, w.store.pipelineOf? form = some old →
        row.id = old.id ∧ row.createdAt = old.createdAt) ∧
      w.store.Wrote w'.store row ∧ w' = w.withStore w'.store := by
  unfold Forms.putPipeline
  rw [Job.alone_statement]
  dsimp only
  cases hold : w.store.pipelineOf? form with
  | some old =>
    have hform : old.formId = form := by simpa using List.find?_some hold
    refine ⟨_, _, rfl, ⟨hform, rfl, rfl, rfl⟩, ?_, ?_, rfl⟩
    · rintro _ ⟨⟩
      exact ⟨rfl, rfl⟩
    · exact h.wrote_replace (List.mem_of_find?_eq_some hold) rfl rfl
  | none =>
    obtain ⟨store, hstore, hwrote⟩ := Store.exists_insertPipeline
      { id := w.store.pipelines.nextId, formId := form, name := draft.name
        isActive := draft.isActive, steps := Forms.stepDocuments draft.steps
        createdAt := w.now, updatedAt := w.now } rfl hold
    dsimp only
    rw [hstore]
    exact ⟨_, _, rfl, ⟨rfl, rfl, rfl, rfl⟩, fun old hsome => (nomatch hsome), hwrote, rfl⟩

/-- **A save by itself**: the templates are checked against the fields of the form, and only then
the pipeline is written. -/
theorem alone_savePipeline {form : Int} {owner : FormRow} {fields : List Field} {w : World}
    (draft : PipelineDraft) (hget : (Forms.get form).alone w = (.ok owner, w))
    (hfields : owner.storedFields = .ok fields) :
    (Forms.savePipeline form draft).alone w =
      match Template.checkSteps draft.steps fields with
      | .error e => (.error (Failure.ofCause (Forms.variableCause e)), w)
      | .ok warnings => match (Forms.putPipeline form draft).alone w with
        | (.ok row, w') => (.ok (row, warnings), w')
        | (.error e, w') => (.error e, w') := by
  unfold Forms.savePipeline
  rw [Job.alone_bind, hget]
  dsimp only
  rw [Job.alone_bind, Job.alone_ofExcept, hfields]
  dsimp only
  rw [Job.alone_bind]
  cases Template.checkSteps draft.steps fields with
  | error e => rfl
  | ok warnings =>
    show (Forms.putPipeline form draft >>= fun saved => pure (saved, warnings)).alone w = _
    rw [Job.alone_bind]
    dsimp only
    cases (Forms.putPipeline form draft).alone w with
    | mk res w' => cases res <;> rfl

theorem alone_getPipeline {form : Int} {owner : FormRow} {row : PipelineRow} {w : World}
    (hget : (Forms.get form).alone w = (.ok owner, w))
    (hrow : w.store.pipelineOf? form = some row) :
    (Forms.getPipeline form).alone w = (.ok row, w) := by
  unfold Forms.getPipeline
  rw [Job.alone_bind, hget]
  show (Forms.pipelineOf form).alone w = _
  unfold Forms.pipelineOf
  rw [Job.alone_read, hrow]

/-! ## §4. The result. -/

/-- **What is saved is read back.**  In every scene that can be reached from an empty store, whatever
was saved and deleted before:

  1. a form is created exactly if none of its fields has a name of the program's own and its token
     is new; then it is read with all that its draft says, the fields in their order, and it is added
     to the other forms;
  2. the pipeline of a form that is there is saved exactly if the check of its templates succeeds;
     otherwise nothing changes;
  3. a pipeline that is saved is read with all that its draft says, and its steps are those that
     its document lists, in ascending order; it is the only one of its form, it keeps the id and the
     time of creation of an earlier one, and nothing else changes;
  4. all this does not depend on how rows are kept: fields and steps that came from a text stay the
     same when they are written as texts and read again. -/
theorem saves_read_back (start : World) (s : Scene) (hempty : start.store = {})
    (hs : Scene.Reaches history { world := start } s) :
    (∀ (document : Json) (draft : FormDraft), FormDraft.check document = .good draft →
      ((∃ row w, (Forms.create draft).alone s.world = (.ok row, w)) ↔ reservedIds draft.fields = [] ∧
        ∀ f ∈ s.world.store.forms, f.publicId ≠ s.world.tokens s.world.drawn) ∧
      ∀ row w, (Forms.create draft).alone s.world = (.ok row, w) →
        row.Holds draft ∧
        (Store.fits row.id = true → (Forms.get row.id).alone w = (.ok row, w)) ∧
        w.store = { s.world.store with forms := s.world.store.forms ++ [row] } ∧
        (document.Exact → Json.read (Json.write row.fields) = .ok row.fields)) ∧
    (∀ (form : Int) (owner : FormRow) (m : Members) (draft : PipelineDraft),
      (Forms.get form).alone s.world = (.ok owner, s.world) →
      PipelineDraft.check (.obj m) = .good draft →
      ∃ fields, owner.storedFields = .ok fields ∧
        (∀ e, Template.checkSteps draft.steps fields = .error e →
          (Forms.savePipeline form draft).alone s.world =
            (.error (Failure.ofCause (Forms.variableCause e)), s.world)) ∧
        (∀ warnings, Template.checkSteps draft.steps fields = .ok warnings → ∃ row w,
          (Forms.savePipeline form draft).alone s.world = (.ok (row, warnings), w) ∧
          (Forms.getPipeline form).alone w = (.ok row, w) ∧ row.formId = form ∧ row.Holds draft ∧
          (∃ listed, m.optional "steps" [] (listOf Step.check) = .good listed ∧
            draft.steps.Perm listed) ∧
          (∀ old, s.world.store.pipelineOf? form = some old →
            row.id = old.id ∧ row.createdAt = old.createdAt) ∧
          s.world.store.Wrote w.store row ∧ w = s.world.withStore w.store ∧
          ((Json.obj m).Exact → Json.read (Json.write row.steps) = .ok row.steps))) := by
  have hlinked := linked_of_reaches hempty hs
  have hgrown := (grown_of_reaches hs).1.now
  rw [hempty] at hgrown
  have hconfigured := configured_of_changes hgrown .empty
  refine ⟨fun document draft hdraft => ⟨?_, fun row w hcreated => ?_⟩,
    fun form owner m draft hget hdraft => ?_⟩
  · constructor
    · rintro ⟨row, w, hcreated⟩
      obtain ⟨hids, hnew, -⟩ := alone_create_eq_ok.1 hcreated
      exact ⟨hids, hnew⟩
    · rintro ⟨hids, hnew⟩
      exact ⟨_, _, alone_create_eq_ok.2 ⟨hids, hnew, rfl, rfl⟩⟩
  · obtain ⟨-, -, rfl, rfl⟩ := alone_create_eq_ok.1 hcreated
    refine ⟨FormDraft.Read.holds ⟨document, hdraft⟩ _, fun hfits => alone_get.2 ⟨hfits, ?_⟩, rfl,
      fun hexact => Json.read_write (FormDraft.exact_fields hexact hdraft)⟩
    exact (Table.get?_append_nextId rfl _).trans (if_pos rfl)
  · obtain ⟨hfits, howner⟩ := alone_get.1 hget
    obtain ⟨fields, hfields, -⟩ := hconfigured.forms owner (Table.mem_of_get? howner)
    have hsave := alone_savePipeline draft hget hfields
    refine ⟨fields, hfields, fun e hrefused => ?_, fun warnings hchecked => ?_⟩
    · rw [hsave, hrefused]
    · obtain ⟨row, w, hput, ⟨hform, hname, hactive, hsteps⟩, hkept, hwrote, hworld⟩ :=
        exists_alone_putPipeline hlinked.toRooted form draft
      obtain ⟨hchecks, hascending⟩ := PipelineDraft.Read.dense ⟨_, hdraft⟩
      have hafter : (Forms.get form).alone w = (.ok owner, w) := by
        refine alone_get.2 ⟨hfits, ?_⟩
        rw [hwrote.rest]
        exact howner
      refine ⟨row, w, ?_, alone_getPipeline hafter (hform ▸ hwrote.pipelineOf?), hform,
        ⟨hname, hactive, storedSteps_of_checks hsteps hchecks, hascending⟩, ?_, hkept, hwrote,
        hworld, fun hexact => ?_⟩
      · rw [hsave, hchecked]
        dsimp only
        rw [hput]
      · obtain ⟨_, listed, ⟨⟩, hlisted, hdense⟩ := PipelineDraft.listed_of_check hdraft
        exact ⟨listed, hlisted, (checkDense_eq_ok.1 hdense).1⟩
      · rw [hsteps]
        exact Json.read_write (PipelineDraft.exact_steps hexact hdraft)

namespace Saves

/-- A form with a pipeline. -/
def scene : Scene := (Audit.tasks.take 2).foldl (Scene.serve 9) { world := Audit.start }

def plan : Step := { number := 1, name := "Plan", prompt := "Plan a poem" }

def write : Step := { number := 2, name := "Write", prompt := "Follow \x7bstep_1_output\x7d" }

/-- The second step is listed first. -/
def listing : Members := [("name", .str "Poet"), ("steps", .arr [write.toJson, plan.toJson])]

def draft : PipelineDraft := { name := "Poet", steps := [plan, write] }

end Saves

open Saves in
/-- The form already has a pipeline.  The new steps are stored in ascending order, in the same row. -/
theorem saves_read_back_reordered : ∃ old row w, scene.world.store.pipelineOf? 1 = some old ∧
    (Forms.savePipeline 1 draft).alone scene.world = (.ok (row, []), w) ∧
    (Forms.getPipeline 1).alone w = (.ok row, w) ∧ row.storedSteps = .ok [plan, write] ∧
    row.id = old.id ∧ w.store.pipelines.filter (fun p => p.formId == row.formId) = [row] := by
  have hreaches : Scene.Reaches history { world := Audit.start } scene :=
    Scene.Reaches.refl.serveAll 9 (Audit.tasks.take 2) fun _ _ => trivial
  have hpipeline : (scene.world.store.pipelineOf? 1).isSome = true := by decide +kernel
  have hform : (scene.world.store.forms.get? 1).map
      (fun owner => owner.storedFields.toOption.map List.length) = some (some 0) := by decide +kernel
  obtain ⟨old, hold⟩ := Option.isSome_iff_exists.1 hpipeline
  obtain ⟨owner, howner, hempty⟩ := Option.map_eq_some_iff.1 hform
  have hdense : checkDense [write, plan] = .ok [plan, write] :=
    checkDense_eq_ok.2 ⟨List.Perm.swap _ _ _, rfl⟩
  have hdraft : PipelineDraft.check (.obj listing) = .good draft :=
    PipelineDraft.check_eq_good.2 ⟨_, rfl, rfl, rfl,
      optional_eq_good.2 (.inr ⟨_, rfl, checkSteps_eq_good.2 ⟨_, rfl, hdense⟩⟩)⟩
  obtain ⟨fields, hfields, -, hsaved⟩ := (saves_read_back Audit.start scene rfl hreaches).2 1 owner
    listing draft (alone_get.2 ⟨by decide, howner⟩) hdraft
  -- The form has no fields, and the prompts need none.
  have hnone : fields = [] := by
    rw [hfields] at hempty
    exact List.eq_nil_of_length_eq_zero (Option.some.inj hempty)
  have hchecked : Template.checkSteps draft.steps fields = .ok [] := by
    rw [hnone]
    unfold Template.checkSteps
    rw [inStepOrder_of_perm (List.Perm.refl draft.steps) rfl]
    decide +kernel
  obtain ⟨row, w, hsave, hget, -, hholds, -, hkept, hwrote, -⟩ := hsaved [] hchecked
  exact ⟨old, row, w, hold, hsave, hget, hholds.steps, (hkept old hold).1, hwrote.only⟩

end PromptForms
