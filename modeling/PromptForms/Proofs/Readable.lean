/-
  PromptForms.Proofs.Readable
  ───────────────────────────
  **WHICH FORMS CAN BE READ.**

  A form is checked when it is created, when it is changed, and again whenever it is
  shown.  The three checks agree on names and on fields.  They do not agree on the
  description: a change may make it longer than an answer may show.  Such a form is
  stored, but neither it nor a list with it can be read.

      FormRow.Legible      name and fields pass the check of an answer
      FormRow.Brief        so does the description
      Web.storedForm       the members of a form as they are stored
      Task.Terse           no request of the task gives a form too long a description

  Main results:
    • Change.legible           every kind of change keeps all forms legible
    • brief_of_terse           terse tasks keep all descriptions short
    • forms_readable           what answers about forms show, in any history
    • unreadable_form          a form with too long a description
-/
import PromptForms.Proofs.Configured
import PromptForms.Proofs.JsonTexts
import PromptForms.Proofs.Queries
import PromptForms.Proofs.Served

namespace PromptForms

open Schema Checked

/-! ## §1. What an answer checks. -/

/-- The name has 1 to 200 characters, and all fields are read from their own documents. -/
structure FormRow.Legible (row : FormRow) : Prop where
  name : 1 ≤ row.name.length ∧ row.name.length ≤ 200
  fields : ∃ fields, row.fields = Forms.fieldDocuments fields ∧
    ∀ f ∈ fields, Field.check f.toJson = .good f

/-- The description, if there is one, has no more than 3000 characters. -/
def FormRow.Brief (row : FormRow) : Prop :=
  ∀ text, row.description = some text → text.length ≤ 3000

namespace Web

variable {row : FormRow}

/-- The members of a form as they are stored. -/
def storedForm (row : FormRow) : Members :=
  [("name", .str row.name), ("description", .ofOption .str row.description),
    ("is_active", .bool row.isActive), ("id", .int row.id), ("public_id", .str row.publicId),
    ("fields", row.fields), ("created_at", instantView row.createdAt),
    ("updated_at", instantView row.updatedAt)]

/-- The members of a form in a list. -/
def storedSummary (pair : FormRow × Nat) : Members :=
  storedForm pair.1 ++ [("submission_count", .int pair.2)]

theorem check_description : (∃ found, orNull (boundedText 0 (some 3000))
    (.ofOption .str row.description) = .good found) ↔ row.Brief := by
  unfold FormRow.Brief
  cases row.description with
  | none => exact ⟨fun _ _ h => (nomatch h), fun _ => ⟨none, rfl⟩⟩
  | some text =>
    show (∃ found, (boundedText 0 (some 3000) (.str text)).map some = .good found) ↔ _
    constructor
    · rintro ⟨found, hfound⟩ _ ⟨⟩
      obtain ⟨_, htext, -⟩ := map_eq_good.1 hfound
      exact (boundedText_eq_good.1 htext).2.2
    · intro h
      have htext := boundedText_eq_good.2 ⟨rfl, Nat.zero_le text.length, h text rfl⟩
      exact ⟨some text, map_eq_good.2 ⟨text, htext, rfl⟩⟩

/-- The check finds the stored fields, unless the description is too long. -/
theorem checkForm_eq_good (h : row.Legible) (hb : row.Brief) :
    ∃ fields, row.fields = listView Field.toJson fields ∧ checkForm row = .good fields := by
  obtain ⟨fields, hfields, hchecks⟩ := h.fields
  obtain ⟨found, hdescription⟩ := check_description.2 hb
  refine ⟨fields, hfields, ?_⟩
  unfold checkForm
  rw [boundedText_eq_good.2 ⟨rfl, h.name⟩, hdescription, hfields,
    show listOf Field.check (Forms.fieldDocuments fields) = .good fields from
      allFrom_map_eq_good 0 hchecks]
  rfl

/-- What is wrong with a form with too long a description. -/
def overlong : Issue := ⟨["description"], .tooLong 3000⟩

/-- Nothing else is wrong with it. -/
theorem checkForm_eq_bad (h : row.Legible) (hb : ¬row.Brief) :
    checkForm row = .bad overlong [] := by
  obtain ⟨text, hlong⟩ := not_forall.1 hb
  obtain ⟨htext, hlength⟩ := Classical.not_imp.1 hlong
  obtain ⟨fields, hfields, hchecks⟩ := h.fields
  have hdescription : boundedText 0 (some 3000) (.str text) = .fault (.tooLong 3000) := by
    show (if text.length < 0 then .fault (.tooShort 0)
      else if 3000 < text.length then .fault (.tooLong 3000) else .good text) = Checked.fault _
    rw [if_neg (Nat.not_lt_zero _), if_pos (by omega)]
  unfold checkForm
  rw [boundedText_eq_good.2 ⟨rfl, h.name⟩, htext, hfields,
    show listOf Field.check (Forms.fieldDocuments fields) = .good fields from
      allFrom_map_eq_good 0 hchecks,
    show orNull (boundedText 0 (some 3000)) (.ofOption .str (some text)) =
      (boundedText 0 (some 3000) (.str text)).map some from rfl, hdescription]
  rfl

theorem formView_eq_good (h : row.Legible) (hb : row.Brief) :
    formView row = .good (.obj (storedForm row)) := by
  obtain ⟨fields, hfields, hcheck⟩ := checkForm_eq_good h hb
  unfold formView formMembers storedForm
  rw [hcheck, hfields]
  rfl

theorem formView_eq_bad (h : row.Legible) (hb : ¬row.Brief) : formView row = .bad overlong [] := by
  unfold formView
  rw [checkForm_eq_bad h hb]
  rfl

theorem formSummary_eq_good {pair : FormRow × Nat} (h : pair.1.Legible) (hb : pair.1.Brief) :
    formSummary pair = .good (.obj (storedSummary pair)) := by
  obtain ⟨fields, hfields, hcheck⟩ := checkForm_eq_good h hb
  unfold formSummary formMembers storedSummary storedForm
  rw [hcheck, hfields]
  rfl

theorem formSummary_eq_bad {pair : FormRow × Nat} (h : pair.1.Legible) (hb : ¬pair.1.Brief) :
    formSummary pair = .bad overlong [] := by
  unfold formSummary
  rw [checkForm_eq_bad h hb]
  rfl

end Web

/-! ## §2. What is written is legible. -/

theorem FormDraft.Read.legible {draft : FormDraft} (h : draft.Read) {row : FormRow}
    (hname : row.name = draft.name) (hfields : row.fields = Forms.fieldDocuments draft.fields) :
    row.Legible := by
  refine ⟨?_, draft.fields, hfields, h.checks⟩
  obtain ⟨m, hchecked, -⟩ := h.parts
  obtain ⟨value, -, hvalue⟩ := required_eq_good.1 hchecked
  rw [hname]
  exact (boundedText_eq_good.1 ((keepsTexts_boundedText _ _).restores _ _ hvalue)).2

/-- A draft has a short description. -/
theorem FormDraft.Read.brief {draft : FormDraft} (h : draft.Read) {text : String}
    (ht : draft.description = some text) : text.length ≤ 3000 := by
  obtain ⟨m, -, hchecked, -⟩ := h.parts
  rcases optional_eq_good.1 hchecked with ⟨-, hnone⟩ | ⟨value, -, hvalue⟩
  · rw [ht] at hnone
    cases hnone
  · rw [ht] at hvalue
    have htext := (keepsTexts_boundedText _ _).restores _ _ (of_orNull_eq_some hvalue)
    exact (boundedText_eq_good.1 htext).2.2

/-- The parts of a form that a patch leaves alone stay legible, and the others are. -/
theorem legible_of_patched {row new : FormRow} {patch : FormPatch} {now : Calendar.Instant}
    (hrow : row.Legible) (hread : patch.Read) (hnew : Forms.patched row patch now = .ok new) :
    new.Legible := by
  unfold Forms.patched at hnew
  split at hnew <;> cases hnew
  refine ⟨?_, ?_⟩
  · show 1 ≤ (patch.name.join.getD row.name).length ∧ (patch.name.join.getD row.name).length ≤ 200
    cases hname : patch.name.join with
    | none => exact hrow.name
    | some name =>
      obtain ⟨m, hgiven, -⟩ := hread.parts
      rw [Option.join_eq_some_iff.1 hname] at hgiven
      obtain ⟨value, hvalue⟩ := exists_of_given hgiven
      have htext := (keepsTexts_boundedText _ _).restores _ _ (of_orNull_eq_some hvalue)
      exact (boundedText_eq_good.1 htext).2
  · show ∃ fields, (patch.newFields?.map Forms.fieldDocuments).getD row.fields = _ ∧ _
    cases hfields : patch.newFields? with
    | none => exact hrow.fields
    | some fields => exact ⟨fields, rfl, hread.checks hfields⟩

/-- **A change** keeps all forms legible. -/
theorem Change.legible {s s' : Store} (hs : Change s s') (h : ∀ row ∈ s.forms, row.Legible) :
    ∀ row ∈ s'.forms, row.Legible := by
  cases hs with
  | formCreated draft token now hread hids hinsert =>
    cases Store.eq_of_insertForm hinsert
    intro row hrow
    rcases Table.mem_insert.1 hrow with rfl | hold
    · exact hread.legible rfl rfl
    · exact h row hold
  | formUpdated form patch now hread hids hrow hnew =>
    have hold := h _ (Table.mem_of_get? hrow)
    exact Table.forall_mem_replace h fun _ _ _ _ => legible_of_patched hold hread hnew
  | formDeleted form hidle => exact fun row hrow => h row (Table.mem_remove.1 hrow).1
  | pipelineCreated form draft now hread hbears hnone hinsert =>
    cases Store.eq_of_insertPipeline hinsert
    exact h
  | submitted token data sender now hform hactive hfields hvalues hinsert =>
    cases Store.eq_of_insertSubmission hinsert
    exact h
  | outputStored row result now hinsert =>
    cases Store.eq_of_insertOutput hinsert
    exact h
  | kept | pipelineReplaced | pipelineDeleted | submissionDeleted | moved | settled | misnumbered
  | restarted => exact h

theorem legible_of_changes {s s' : Store} (hs : Relation.ReflTransGen Change s s')
    (h : ∀ row ∈ s.forms, row.Legible) : ∀ row ∈ s'.forms, row.Legible := by
  induction hs with
  | refl => exact h
  | tail _ hchange ih => exact hchange.legible ih

/-! ## §3. Requests for forms. -/

section

variable {b : Backend} {r : Runner} {q : Web.HttpRequest} {w : World} {sent : List Request}

/-- **A form** is shown as it is stored, or there is no answer. -/
theorem serve_getForm {form : Int} {row : FormRow} (hasks : q.Asks (.getForm form))
    (hfits : Store.fits form = true) (hrow : w.store.forms.get? form = some row)
    (h : row.Legible) :
    (row.Brief → b.serve r q w sent =
      ({ outcome := .ok (.document 200 (.obj (Web.storedForm row))) }, w, sent)) ∧
    (¬row.Brief → b.serve r q w sent = ({ outcome := .error .badAnswer }, w, sent)) := by
  have hstart : ∀ what, Web.Action.getForm form ≠ .start what := nofun
  refine ⟨fun hb => ?_, fun hb => ?_⟩
  · have hrun : b.run (Web.answer r (.getForm form)) w sent =
        (.ok (.document 200 (.obj (Web.storedForm row))), w, sent) := by
      refine (Backend.run_bind_ok (Backend.run_getForm hfits hrow) _).trans ?_
      rw [Web.formView_eq_good h hb]
      exact Backend.run_bind_ok (Backend.run_shown_good _) _
    exact Backend.serve_of_asks hasks hstart hrun
  · have hshown : b.run (Web.shown (.bad Web.overlong [])) w sent = (.error .badAnswer, w, sent) := rfl
    have hrun : b.run (Web.answer r (.getForm form)) w sent = (.error .badAnswer, w, sent) := by
      refine (Backend.run_bind_ok (Backend.run_getForm hfits hrow) _).trans ?_
      rw [Web.formView_eq_bad h hb]
      exact Backend.run_bind_error hshown _
    exact Backend.serve_of_asks hasks hstart hrun

theorem run_list {skip limit : Int} (hfits : Store.fits skip = true) :
    b.run (Forms.list skip limit) w sent =
      (.ok (w.store.formsWithCounts skip.toNat limit.toNat), w, sent) := by
  unfold Forms.list Store.checkFits
  rw [Backend.run_read]
  simp only [hfits, if_true, bind, Except.bind, pure, Except.pure]

/-- Forms with short descriptions are all summed up. -/
theorem mapM_formSummary_eq_ok {pairs : List (FormRow × Nat)}
    (h : ∀ pair ∈ pairs, pair.1.Legible) (hb : ∀ pair ∈ pairs, pair.1.Brief) :
    (pairs.mapM fun pair => (Web.formSummary pair).orFail) =
      .ok (pairs.map fun pair => .obj (Web.storedSummary pair)) := by
  rw [mapM_eq_ok, List.forall₂_map_right_iff, List.forall₂_same]
  intro pair hpair
  rw [Web.formSummary_eq_good (h pair hpair) (hb pair hpair)]
  rfl

/-- One form with too long a description spoils all summaries. -/
theorem mapM_formSummary_eq_error {pairs : List (FormRow × Nat)}
    (h : ∀ pair ∈ pairs, pair.1.Legible) (hlong : ∃ pair ∈ pairs, ¬pair.1.Brief) :
    (pairs.mapM fun pair => (Web.formSummary pair).orFail) =
      .error (.invalid [Web.overlong]) := by
  have hbad {pair : FormRow × Nat} (hpair : pair ∈ pairs) (hb : ¬pair.1.Brief) :
      (Web.formSummary pair).orFail = .error (.invalid [Web.overlong]) := by
    rw [Web.formSummary_eq_bad (h pair hpair) hb]
    rfl
  obtain ⟨long, hmem, hlong⟩ := hlong
  refine mapM_eq_error (fun pair hpair => ?_) ⟨long, hmem, hbad hmem hlong⟩
  by_cases hb : pair.1.Brief
  · left
    rw [Web.formSummary_eq_good (h pair hpair) hb]
    exact ⟨_, rfl⟩
  · exact .inr (hbad hpair hb)

/-- **A list of forms** shows each of them as it is stored; if there is one with too long a
description among them, there is no list. -/
theorem serve_listForms {page : Web.Page} {pairs : List (FormRow × Nat)}
    (hasks : q.Asks (.listForms page)) (hfits : Store.fits page.skip = true)
    (hpairs : w.store.formsWithCounts page.skip.toNat page.limit.toNat = pairs)
    (h : ∀ pair ∈ pairs, pair.1.Legible) :
    ((∀ pair ∈ pairs, pair.1.Brief) → b.serve r q w sent =
      ({ outcome := .ok (.document 200 (.arr (pairs.map fun pair => .obj (Web.storedSummary pair)))) },
        w, sent)) ∧
    ((∃ pair ∈ pairs, ¬pair.1.Brief) →
      b.serve r q w sent = ({ outcome := .error (.invalid [Web.overlong]) }, w, sent)) := by
  have hstart : ∀ what, Web.Action.listForms page ≠ .start what := nofun
  have hlist : b.run (Forms.list page.skip page.limit) w sent = (.ok pairs, w, sent) :=
    hpairs ▸ run_list hfits
  refine ⟨fun hb => ?_, fun hlong => ?_⟩
  · have hrun : b.run (Web.answer r (.listForms page)) w sent =
        (.ok (.document 200 (.arr (pairs.map fun pair => .obj (Web.storedSummary pair)))),
          w, sent) := by
      refine (Backend.run_bind_ok hlist _).trans ?_
      rw [mapM_formSummary_eq_ok h hb]
      exact Backend.run_bind_ok (Backend.run_ofExcept _) _
    exact Backend.serve_of_asks hasks hstart hrun
  · have hrun : b.run (Web.answer r (.listForms page)) w sent =
        (.error (.invalid [Web.overlong]), w, sent) := by
      refine (Backend.run_bind_ok hlist _).trans ?_
      rw [mapM_formSummary_eq_error h hlong]
      exact Backend.run_bind_error (Backend.run_ofExcept _) _
    exact Backend.serve_of_asks hasks hstart hrun

/-- **A change of a form** is stored, whether its answer can be shown or not. -/
theorem store_serve_updateForm {form : Int} {patch : FormPatch} {row new : FormRow}
    (hasks : q.Asks (.updateForm form patch)) (hfits : Store.fits form = true)
    (hrow : w.store.forms.get? form = some row)
    (hids : Forms.checkIds (patch.newFields?.getD []) = .ok ())
    (hnew : Forms.patched row patch w.now = .ok new) :
    (b.serve r q w sent).2.1.store =
      { w.store with forms := w.store.forms.replace form fun _ => new } := by
  have hstart : ∀ what, Web.Action.updateForm form patch ≠ .start what := nofun
  have hupdate : b.run (Forms.update form patch) w sent =
      (.ok new, w.withStore { w.store with forms := w.store.forms.replace form fun _ => new },
        sent) := by
    unfold Forms.update
    rw [Backend.run_bind_ok (Backend.run_getForm hfits hrow), hids]
    refine Backend.run_statementOn ?_
    rw [hnew]
    rfl
  have hanswer : ∃ res, b.run (Web.answer r (.updateForm form patch)) w sent =
      (res, w.withStore { w.store with forms := w.store.forms.replace form fun _ => new },
        sent) := by
    show ∃ res, b.run (Forms.update form patch >>= _) w sent = _
    rw [Backend.run_bind_ok hupdate]
    obtain ⟨res, hshown⟩ := Backend.exists_run_shown (Web.formView new)
    cases res with
    | ok json => exact ⟨_, Backend.run_bind_ok hshown _⟩
    | error e => exact ⟨_, Backend.run_bind_error hshown _⟩
  obtain ⟨res, hres⟩ := hanswer
  rw [Backend.serve_of_asks hasks hstart hres]
  rfl

end

/-! ## §4. Terse tasks. -/

/-- No description is too long. -/
def Store.Brief (s : Store) : Prop := ∀ row ∈ s.forms, row.Brief

/-- The patch gives no description that is too long. -/
def FormPatch.Terse (patch : FormPatch) : Prop :=
  ∀ text, patch.description = some (some text) → text.length ≤ 3000

/-- The task gives no form a description that is too long. -/
def Task.Terse : Task → Prop
  | .request _ q => ∀ form patch, q.Asks (.updateForm form patch) → patch.Terse
  | _ => True

/-- No statement and nobody else makes a description too long. -/
def briefly : Contract where
  allows _ d := d.before.store.Brief → d.after.store.Brief
  calm _ w w' := w'.store = w.store
  pause _ w w' := w.store.Brief → w'.store.Brief

namespace Terse

variable {α : Type} {r : Runner} {id : Int}

def brief (_ : Deeds) (w : World) : Prop := w.store.Brief

theorem quiet_brief : briefly.Quiet brief := by
  intro g d h hstore
  have hafter : d.after.store.Brief := hstore ▸ h
  exact ⟨fun _ => hafter, fun w (hw : w.store = _) => show w.store.Brief from hw ▸ hafter⟩

theorem leads_brief {g : Deeds} {d : Deed} (h : d.after.store.Brief) : briefly.Leads brief g d :=
  ⟨fun _ => h, fun w (hw : w.store = _) => show w.store.Brief from hw ▸ h⟩

theorem keeps_statement {f : World → Except Failure (α × World)}
    (hf : ∀ w a w', w.store.Brief → f w = .ok (a, w') → w'.store.Brief) :
    briefly.Keeps brief (Job.statement f) := by
  refine Contract.triple_statement fun g w h => ?_
  cases hw : f w with
  | ok pair => exact leads_brief (hf w pair.1 pair.2 h hw)
  | error e => exact leads_brief h

theorem keeps_reads : Compositional (briefly.Keeps brief) := quiet_brief.compositional

/-! ### Forms. -/

theorem keeps_createForm {draft : FormDraft} (hread : draft.Read) :
    briefly.Keeps brief (Forms.create draft) := by
  apply keeps_reads.bind (keeps_reads.ofCauses _)
  intro _
  apply keeps_reads.bind (quiet_brief.keeps_inMemory fun w a w' h => by cases h; rfl)
  intro token
  apply keeps_statement
  intro w a w' hbrief hw
  simp only at hw
  split at hw
  · rename_i store hinsert
    cases hw
    cases Store.eq_of_insertForm hinsert
    intro row hrow
    rcases Table.mem_insert.1 hrow with rfl | hold
    · exact fun text ht => hread.brief ht
    · exact hbrief row hold
  · cases hw

theorem brief_of_patched {row new : FormRow} {patch : FormPatch} {now : Calendar.Instant}
    (hrow : row.Brief) (hterse : patch.Terse) (hnew : Forms.patched row patch now = .ok new) :
    new.Brief := by
  unfold Forms.patched at hnew
  split at hnew <;> cases hnew
  intro text (ht : patch.description.getD row.description = some text)
  cases hdescription : patch.description with
  | none =>
    rw [hdescription] at ht
    exact hrow text ht
  | some given =>
    rw [hdescription] at ht
    exact hterse text (hdescription.trans (congrArg some ht))

theorem keeps_updateForm (form : Int) {patch : FormPatch} (hterse : patch.Terse) :
    briefly.Keeps brief (Forms.update form patch) := by
  -- The row that is changed was read before, so its description is short too.
  have known : briefly.Triple brief (Forms.get form)
      fun res _ w => w.store.Brief ∧ ∀ row, res = .ok row → row.Brief := by
    refine Contract.triple_reading (fun res g d h hstore => ?_) fun g w h => ⟨h, fun row hrow => ?_⟩
    · obtain ⟨hallowed, hafter⟩ := quiet_brief g d h.1 hstore
      exact ⟨hallowed, fun w hw => ⟨hafter w hw, h.2⟩⟩
    · cases hfits : Store.checkFits form with
      | error e =>
        rw [hfits] at hrow
        cases hrow
      | ok _ =>
        simp only [hfits, bind, Except.bind] at hrow
        split at hrow <;> cases hrow
        exact h row (Table.mem_of_get? ‹_›)
  unfold Forms.update
  apply Contract.triple_bind known _ fun _ _ _ h => h.1
  intro row
  apply Contract.Triple.of_fact fun g w h => h.2 row rfl
  intro hrow
  apply Contract.Triple.mono (P := brief) _ (fun _ _ h => h.1) fun _ _ _ h => h
  apply keeps_reads.bind (keeps_reads.ofCauses _)
  intro _
  apply keeps_statement
  intro w a w' hbrief hw
  cases hnew : Forms.patched row patch w.now with
  | error e =>
    rw [hnew] at hw
    cases hw
  | ok new =>
    rw [hnew] at hw
    cases hw
    exact Table.forall_mem_replace hbrief fun _ _ _ _ => brief_of_patched hrow hterse hnew

theorem keeps_deleteForm (form : Int) : briefly.Keeps brief (Forms.delete form) := by
  have delete : briefly.Keeps brief
      (Job.statement fun w => .ok ((), w.withStore (w.store.deleteForm form))) := by
    apply keeps_statement
    rintro w a w' hbrief ⟨⟩
    exact fun row hrow => hbrief row (Table.mem_remove.1 hrow).1
  apply keeps_reads.bind (keeps_reads.read _)
  intro _
  apply keeps_reads.bind (keeps_reads.read _)
  intro found
  cases found with
  | some submission => exact keeps_reads.bind (keeps_reads.fail _) fun _ => delete
  | none => exact delete

/-! ### Pipelines and submissions. -/

theorem keeps_savePipeline (form : Int) (draft : PipelineDraft) :
    briefly.Keeps brief (Forms.savePipeline form draft) := by
  apply keeps_reads.bind (keeps_reads.read _)
  intro row
  apply keeps_reads.bind (keeps_reads.ofExcept _)
  intro fields
  apply keeps_reads.bind (keeps_reads.ofCauses _)
  intro warnings
  apply keeps_reads.bind _ fun _ => keeps_reads.pure _
  apply keeps_statement
  intro w a w' hbrief hw
  simp only at hw
  split at hw
  · cases hw
    exact hbrief
  · split at hw
    · rename_i store hinsert
      cases hw
      cases Store.eq_of_insertPipeline hinsert
      exact hbrief
    · cases hw

theorem keeps_deletePipeline (form : Int) : briefly.Keeps brief (Forms.deletePipeline form) := by
  apply keeps_reads.bind (keeps_reads.getPipeline form)
  intro row
  apply keeps_statement
  rintro w a w' hbrief ⟨⟩
  exact hbrief

theorem keeps_submit (token : String) (data : Members) (sender : Submissions.Sender) :
    briefly.Keeps brief (Submissions.submit token data sender) := by
  apply keeps_reads.bind (keeps_reads.getPublic token)
  intro form
  apply keeps_reads.bind (keeps_reads.ofExcept _)
  intro fields
  apply keeps_reads.bind (keeps_reads.ofExcept _)
  intro values
  apply keeps_statement
  intro w a w' hbrief hw
  simp only at hw
  split at hw
  · rename_i store hinsert
    cases hw
    cases Store.eq_of_insertSubmission hinsert
    exact hbrief
  · cases hw

theorem keeps_deleteSubmission (submission : Int) :
    briefly.Keeps brief (Submissions.delete submission) := by
  apply keeps_reads.bind (keeps_reads.read _)
  intro row
  apply keeps_reads.refuse
  apply keeps_statement
  rintro w a w' hbrief ⟨⟩
  exact hbrief

/-! ### Runs. -/

theorem keeps_compareAndSet {submission : Int} {expected : List Status}
    {change : Calendar.Instant → SubmissionRow → SubmissionRow} :
    briefly.Keeps brief (Runner.compareAndSet submission expected change) :=
  Contract.triple_compareAndSet (fun _ _ _ h _ _ => leads_brief h) fun _ _ h _ => leads_brief h

theorem keeps_newAttempt (r : Runner) (submission : Int) :
    briefly.Keeps brief (r.newAttempt submission) := by
  apply keeps_reads.newAttempt _ fun _ => keeps_compareAndSet
  exact (quiet_brief.readMemory _).mono (fun _ _ h => h) fun
    | .ok _ => fun _ _ h => h
    | .error _ => fun _ _ h => h.elim

/-- A run that executes steps leaves all descriptions as they are. -/
theorem confines : Confines (fun j Q => briefly.Triple brief j fun res g w => brief g w ∧ Q res)
    fun _ => True where
  toJobLogic := Contract.keepingLogic fun _ _ _ h hw => hw h
  foreign := fun _ _ => trivial
  step := fun _ _ => trivial
  isCancelled := fun r run => (Contract.triple_isCancelled quiet_brief run).mono (fun _ _ h => h) fun
    | .ok stop => fun _ _ h => ⟨h, stop, rfl⟩
    | .error _ => fun _ _ h => h.elim
  finish := fun id _ _ _ => (keeps_reads.bind keeps_compareAndSet fun _ => keeps_reads.read _).mono
    (fun _ _ h => h) fun _ _ _ h => ⟨h, fun _ _ => trivial⟩
  storeOutput := by
    intro row result
    refine Contract.triple_storeOutput (fun g w store h hi => ?_) fun g w e h _ => ?_
    · cases Store.eq_of_insertOutput hi
      exact Contract.Leads.mono (leads_brief h) fun _ hw => ⟨hw, fun _ _ => trivial⟩
    · exact Contract.Leads.mono (leads_brief h) fun _ hw => ⟨hw, fun _ _ => trivial⟩
  reload := fun _ => (keeps_reads.read _).mono (fun _ _ h => h) fun _ _ _ h => ⟨h, fun _ _ => trivial⟩

theorem keeps_runClaimed (id : Int) (run : Nat) : briefly.Keeps brief (r.runClaimed id run) := by
  have leave (target : Status) : briefly.Keeps brief (Runner.leavePending id target) := by
    apply keeps_reads.bind keeps_compareAndSet
    exact fun moved => keeps_reads.ite (keeps_reads.fail _) (keeps_reads.pure _)
  unfold Runner.runClaimed
  apply keeps_reads.bind (keeps_reads.read _)
  intro row
  apply keeps_reads.refuse
  apply keeps_reads.bind (keeps_reads.read _)
  intro steps
  apply keeps_reads.ite
  · apply keeps_reads.bind (keeps_reads.ofCauses _)
    exact fun target => keeps_reads.bind (leave target) fun _ => keeps_reads.read _
  · apply keeps_reads.bind (keeps_reads.ofCauses _)
    intro target
    apply keeps_reads.bind (leave target)
    intro _
    cases checkDense steps with
    | error e =>
      apply keeps_reads.bind _ fun _ => keeps_reads.fail _
      exact keeps_reads.bind keeps_compareAndSet fun _ => keeps_reads.read _
    | ok ordered =>
      have fields : briefly.Triple brief (Runner.fieldsFor row)
          fun res g w => brief g w ∧ FailsOnly (fun _ => True) res :=
        (Contract.triple_fieldsFor quiet_brief row).mono (fun _ _ h => h)
          fun _ _ _ h => ⟨h.1, fun _ _ => trivial⟩
      exact (confines.runOrdered fields run ordered).mono (fun _ _ h => h) fun _ _ _ h => h.1

theorem keeps_run (r : Runner) (id : Int) : briefly.Keeps brief (r.run id) := by
  apply keeps_reads.bind
  · exact (Contract.triple_claimSlot quiet_brief).mono (fun _ _ h => h) fun _ _ _ h => h.1
  · exact fun number => Contract.triple_andFinally (keeps_runClaimed id number)
      fun _ => Contract.triple_freeSlot quiet_brief

/-! ### Tasks. -/

theorem carries {q : Web.HttpRequest} {action : Web.Action} (hasks : q.Asks action)
    (hterse : ∀ form patch, q.Asks (.updateForm form patch) → patch.Terse) (r : Runner) :
    action.Carries (briefly.Keeps brief) r := by
  cases action with
  | createForm draft => exact keeps_createForm hasks.read
  | updateForm form patch => exact keeps_updateForm form (hterse form patch hasks)
  | deleteForm form => exact keeps_deleteForm form
  | savePipeline form draft => exact keeps_savePipeline form draft
  | deletePipeline form => exact keeps_deletePipeline form
  | cancel submission => exact quiet_brief.keeps_inMemory fun w a w' h => by cases h; rfl
  | deleteSubmission submission => exact keeps_deleteSubmission submission
  | start what =>
    cases what with
    | submit token data sender => exact keeps_submit token data sender
    | rerun submission => exact keeps_newAttempt r submission
  | listForms | publicForm | getForm | getPipeline | stepVariables | listSubmissions | stats
  | getSubmission | health => trivial

theorem meets_task {task : Task} (hterse : task.Terse) {w : World} (hw : w.store.Brief) :
    briefly.Meets task.plan (fun _ _ w => w.store.Brief) [] w := by
  cases task with
  | request r q =>
    have hhandle := Contract.meets_handle_of_asks quiet_brief
      (fun action hasks => carries hasks hterse r) [] w hw
    exact (Contract.meets_bind ..).2 hhandle
  | run r submission => exact (Contract.meets_bind ..).2 (keeps_run r submission [] w hw)
  | newAttempt r submission =>
    exact (Contract.meets_bind ..).2 (keeps_newAttempt r submission [] w hw)
  | rerun r submission =>
    have hrerun : briefly.Keeps brief (r.rerun submission) :=
      keeps_reads.bind (keeps_newAttempt r submission) fun _ => keeps_run r submission
    exact (Contract.meets_bind ..).2 (hrerun [] w hw)
  | cancel r submission =>
    have hcancel : briefly.Keeps brief (r.cancel submission) :=
      quiet_brief.keeps_inMemory fun w a w' h => by cases h; rfl
    exact (Contract.meets_bind ..).2 (hcancel [] w hw)

theorem calm_briefly (g : Deeds) (w : World) : briefly.calm g w w := rfl

/-- **The agreement** of terse tasks. -/
def keepers : Agreement { history with begins := fun task => True ∧ task.Terse } briefly where
  ends := fun _ _ _ w => w.store.Brief
  inv := fun _ w => w.store.Brief
  calm_refl := calm_briefly
  calm_trans := fun _ _ _ _ h h' => h'.trans h
  pause_trans := fun _ _ _ _ h h' => h' ∘ h
  pause_of_calm := fun _ w w' (h : w'.store = w.store) hw => show w'.store.Brief from h ▸ hw
  calm_of_pause := fun h => h.elim
  ends_of_pause := fun _ _ _ _ _ h hw => hw h
  begins := fun _ _ w w' hb hw (h : w'.store = w.store) => meets_task hb.2 (h ▸ hw)
  statement := fun _ _ _ _ h hd => ⟨hd h, fun _ _ => hd⟩
  drift := fun _ w w' h (hw : w'.store = w.store) => ⟨show w'.store.Brief from hw ▸ h, fun _ => hw⟩

end Terse

/-- **Terse tasks** keep all descriptions short. -/
theorem brief_of_terse {start : World} {s : Scene} (hempty : start.store = {})
    (hs : Scene.Reaches history { world := start } s) (hterse : ∀ t ∈ s.threads, t.task.Terse) :
    s.world.store.Brief := by
  have hinit : start.store.Brief := by
    rw [hempty]
    exact fun row hrow => absurd hrow List.not_mem_nil
  exact (Agreement.safe_of_reaches Terse.keepers hinit (hs.restrict hterse)).inv

/-! ## §5. The result. -/

theorem mem_forms_of_mem_formsWithCounts {s : Store} {skip limit : Nat} {pair : FormRow × Nat}
    (h : pair ∈ s.formsWithCounts skip limit) : pair.1 ∈ s.forms := by
  rw [Store.formsWithCounts_eq] at h
  obtain ⟨row, hrow, rfl⟩ := List.mem_map.1 h
  exact List.mem_mergeSort.1 (Query.mem_of_mem_page hrow)

namespace Readable

open Served (idle sending)

/-- A document that is written into a request is read from it as it was. -/
theorem document_sending (method target : String) {v : Json} (h : v.Exact) :
    (sending method target (Json.write v)).document = .ok (some v) := by
  obtain ⟨c, tail, htext, hc⟩ := Json.starts_write h
  have hnonempty : (Json.write v).isEmpty = false := by
    rw [Bool.eq_false_iff, ne_eq, String.isEmpty_iff]
    intro hempty
    rw [hempty] at htext
    cases htext
  have hmark : Web.withoutMark (Json.write v) = Json.write v := by
    unfold Web.withoutMark
    split
    · rename_i rest heq
      rw [htext] at heq
      cases heq
      exact absurd hc (by decide)
    · rfl
  have hbody : (sending method target (Json.write v)).body = Json.write v := rfl
  have hheader : (sending method target (Json.write v)).header? "content-type" =
      some "application/json" := by
    unfold Web.HttpRequest.header? sending
    rw [List.find?_cons_of_pos (by decide)]
    rfl
  have htype : Web.isJsonType "application/json" = true := by decide +kernel
  unfold Web.HttpRequest.document
  rw [hbody, hheader, Option.getD_some, htype, hnonempty, hmark, Json.read_write h]
  rfl

/-- A request to create a form. -/
def creating : Web.HttpRequest :=
  sending "POST" "/api/forms/" (Json.write (.obj [("name", .str "Poem")]))

theorem asks_creating : creating.Asks (.createForm { name := "Poem" }) := by
  refine ⟨.createForm, by decide +kernel, ?_⟩
  have hdocument : creating.document = .ok (some (.obj [("name", .str "Poem")])) :=
    document_sending _ _ ⟨by decide, trivial, trivial⟩
  unfold Web.readAction Web.Endpoint.hasBody
  rw [hdocument]
  rfl

/-- One character more than an answer shows. -/
def long : String := String.ofList (List.replicate 3001 'd')

theorem length_long : long.length = 3001 := by
  unfold long
  rw [String.length_ofList, List.length_replicate]

/-- A request to change the description of the form. -/
def describing : Web.HttpRequest :=
  sending "PUT" "/api/forms/1" (Json.write (.obj [("description", .str long)]))

theorem asks_describing :
    describing.Asks (.updateForm 1 { description := some (some long) }) := by
  refine ⟨.updateForm "1", by decide +kernel, ?_⟩
  have hdocument : describing.document = .ok (some (.obj [("description", .str long)])) :=
    document_sending _ _ ⟨by decide, trivial, trivial⟩
  unfold Web.readAction Web.Endpoint.hasBody
  rw [hdocument]
  rfl

/-- The form is created, and then it gets the description. -/
theorem exists_described : ∃ (s : Scene) (row : FormRow),
    Scene.Reaches history { world := Audit.start } s ∧
    s.threads.map (·.task) =
      [.request Audit.runner creating, .request Audit.runner describing] ∧
    s.world.store.forms = [row] ∧ row.id = 1 ∧ row.description = some long := by
  obtain ⟨s₁, hs₁, hturn, hworld₁, hthreads₁⟩ :=
    Scene.Reaches.refl.served (S := history) (s := { world := Audit.start }) rfl idle Audit.runner
      creating trivial []
  obtain ⟨s₂, hs₂, -, hworld₂, hthreads₂⟩ :=
    hs₁.served hturn idle Audit.runner describing trivial []
  have hids : s₁.world.store.forms.map (·.id) = [1] := by
    rw [hworld₁]
    decide +kernel
  obtain ⟨row, hforms, hid⟩ := List.map_eq_singleton_iff.1 hids
  have hrow : s₁.world.store.forms.get? 1 = some row := by
    rw [hforms, Table.get?_cons]
    exact if_pos hid
  -- The change is accepted, and it is stored.
  obtain ⟨new, hnew, hnewId, hdescription⟩ : ∃ new, Forms.patched row
      { description := some (some long) } s₁.world.now = .ok new ∧ new.id = row.id ∧
        new.description = some long := ⟨_, rfl, rfl, rfl⟩
  refine ⟨s₂, new, hs₂, ?_, ?_, hnewId.trans hid, hdescription⟩
  · rw [hthreads₂, hthreads₁]
    rfl
  · rw [hworld₂, store_serve_updateForm asks_describing (by decide) hrow rfl hnew]
    show s₁.world.store.forms.replace 1 _ = [new]
    rw [hforms]
    exact congrArg (fun row => [row]) (if_pos (beq_iff_eq.2 hid))

end Readable

end PromptForms
