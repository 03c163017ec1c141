/-
  PromptForms.Proofs.Lookups
  ──────────────────────────
  **WHAT IS NOT THERE IS NOT FOUND.**

  An endpoint with an id in its path looks the row up before it does anything else, so a
  missing row decides the answer, whatever else is asked for.  An id in a path may be any
  integer, and so may the number of rows that a list leaves out; a column holds only the
  numbers of 64 bits.  A number that does not fit is not compared with anything: the
  statement fails, and the request is not answered.

      Sought            the row that an action looks up first
      Sought.answer     the answer if it is not there

  Main results:
    • serve_missing             a lookup in vain
    • serve_listSubmissions     a part of the submissions of a form
    • lookups_answered          which lookups and which lists are answered
-/
import PromptForms.Proofs.Integrity
import PromptForms.Proofs.Readable
import PromptForms.Proofs.Triggers

namespace PromptForms

open Web (Action Answer Target)

/-! ## §1. Rows that are looked up. -/

/-- A row that is looked up by its id. -/
inductive Sought where
  | form (id : Int)
  | submission (id : Int)

namespace Sought

/-- The id that is looked up. -/
def id : Sought → Int
  | form id | submission id => id

/-- No row has the id. -/
def Missing (s : Store) : Sought → Prop
  | form id => s.forms.get? id = none
  | submission id => s.submissions.get? id = none

/-- Why a lookup in vain is given up. -/
def cause : Sought → Cause
  | form id => .formNotFound (toString id)
  | submission id => .submissionNotFound id

/-- How a lookup in vain fails: an id that does not fit is not looked for. -/
def failure (key : Sought) : Failure :=
  if Store.fits key.id then Failure.ofCause key.cause else Store.tooLarge

/-- How a request ends whose row is not there. -/
def answer (key : Sought) : Except Failure Answer :=
  if Store.fits key.id then .ok (.detail 404 key.cause.message) else .error Store.tooLarge

theorem asAnswer_failure (key : Sought) : Web.asAnswer (.error key.failure) = key.answer := by
  unfold failure answer
  split
  · cases key <;> rfl
  · rfl

end Sought

/-- The row that an action looks up before anything else. -/
def Web.Action.sought? : Action → Option Sought
  | .getForm id | .updateForm id _ | .deleteForm id | .getPipeline id | .savePipeline id _
  | .deletePipeline id | .stepVariables id _ | .listSubmissions id _ _ | .stats id => some (.form id)
  | .getSubmission id | .cancel id | .deleteSubmission id | .start (.rerun id) =>
    some (.submission id)
  | .createForm _ | .listForms _ | .publicForm _ | .start (.submit ..) | .health => none

/-! ## §2. Lookups come first. -/

/-- The job starts with another one. -/
def Job.StartsWith {α β : Type} (j : Job β) (first : Job α) : Prop := ∃ next, j = first >>= next

namespace Job.StartsWith

variable {α β γ : Type} {first : Job α} {j : Job β}

theorem intro (next : α → Job β) : (first >>= next).StartsWith first := ⟨next, rfl⟩

theorem bind (h : j.StartsWith first) (f : β → Job γ) : (j >>= f).StartsWith first := by
  obtain ⟨next, rfl⟩ := h
  exact ⟨fun a => next a >>= f, bind_assoc ..⟩

/-- What fails at its start fails as a whole. -/
theorem run_error (h : j.StartsWith first) {b : Backend} {w w' : World} {sent sent' : List Request}
    {e : Failure} (hfirst : b.run first w sent = (.error e, w', sent')) :
    b.run j w sent = (.error e, w', sent') := by
  obtain ⟨next, rfl⟩ := h
  exact Backend.run_bind_error hfirst next

end Job.StartsWith

section

variable {b : Backend} {r : Runner} {q : Web.HttpRequest} {w : World} {sent : List Request}

open Job (StartsWith)

/-- An action that looks up a form starts with that. -/
theorem answer_startsWith_getForm {action : Action} {id : Int}
    (h : action.sought? = some (.form id)) : StartsWith (Web.answer r action) (Forms.get id) := by
  cases action with
  | start what => cases what <;> cases h
  | createForm | listForms | publicForm | getSubmission | cancel | deleteSubmission | health => cases h
  | getForm =>
    cases h
    exact .intro _
  | deletePipeline =>
    cases h
    exact .bind (.bind (.intro _) _) _
  | updateForm | deleteForm | getPipeline | savePipeline | stepVariables | listSubmissions | stats =>
    cases h
    exact .bind (.intro _) _

/-- An action that looks up a submission, and starts no run, starts with that. -/
theorem answer_startsWith_reload {action : Action} {id : Int}
    (h : action.sought? = some (.submission id)) (hstart : ∀ what, action ≠ .start what) :
    StartsWith (Web.answer r action) (Runner.reload id) := by
  cases action with
  | start what => exact absurd rfl (hstart what)
  | createForm | listForms | publicForm | getForm | updateForm | deleteForm | getPipeline
  | savePipeline | deletePipeline | stepVariables | listSubmissions | stats | health => cases h
  | cancel =>
    cases h
    exact .intro _
  | getSubmission | deleteSubmission =>
    cases h
    exact .bind (.intro _) _

/-! ## §3. Lookups in vain. -/

theorem run_getForm_missing {id : Int} (h : w.store.forms.get? id = none) :
    b.run (Forms.get id) w sent = (.error (Sought.form id).failure, w, sent) := by
  unfold Forms.get Store.checkFits Sought.failure
  rw [Backend.run_read]
  by_cases hfits : Store.fits id = true
  · simp only [Sought.id, hfits, if_true, bind, Except.bind, h]
    rfl
  · simp only [Sought.id, hfits, bind, Except.bind]
    rfl

theorem run_reload_missing {id : Int} (h : w.store.submissions.get? id = none) :
    b.run (Runner.reload id) w sent = (.error (Sought.submission id).failure, w, sent) := by
  unfold Runner.reload Store.submission Store.checkFits Sought.failure
  rw [Backend.run_read]
  by_cases hfits : Store.fits id = true
  · simp only [Sought.id, hfits, if_true, bind, Except.bind, h]
    rfl
  · simp only [Sought.id, hfits, bind, Except.bind]
    rfl

/-- A refusal to start a run is the answer. -/
theorem serve_start_refused {what : Web.Start} {e : Failure} (hasks : q.Asks (.start what))
    (h : b.run (Web.startedRow r what) w sent = (.error e, w, sent)) :
    b.serve r q w sent = ({ outcome := Web.asAnswer (.error e) }, w, sent) := by
  unfold Backend.serve
  rw [Web.handle_of_asks hasks]
  show Plan.run b.surroundings (Plan.bind (Web.startedRow r what).run _) w sent = _
  rw [Plan.run_bind]
  unfold Backend.run at h
  rw [h]
  rfl

/-- A new attempt is refused at once while the process has a run of the submission. -/
theorem run_newAttempt_active {id : Int} (h : (w.registries r.process).isActive id = true) :
    b.run (r.newAttempt id) w sent = (.error (Failure.ofCause (.concurrentRun id)), w, sent) := by
  unfold Runner.newAttempt
  rw [Backend.run_bind_ok (Backend.run_readMemory _), h]
  rfl

theorem run_newAttempt_missing {id : Int} (hidle : (w.registries r.process).isActive id = false)
    (h : w.store.submissions.get? id = none) :
    b.run (r.newAttempt id) w sent = (.error (Sought.submission id).failure, w, sent) := by
  unfold Runner.newAttempt
  rw [Backend.run_bind_ok (Backend.run_readMemory _), hidle]
  exact Backend.run_bind_error (run_reload_missing h) _

/-- **A lookup in vain** ends the request, and nothing changes. -/
theorem serve_missing {action : Action} {key : Sought} (hasks : q.Asks action)
    (hkey : action.sought? = some key) (hmissing : key.Missing w.store)
    (hidle : ∀ id, action = .start (.rerun id) → (w.registries r.process).isActive id = false) :
    b.serve r q w sent = ({ outcome := key.answer }, w, sent) := by
  rw [← key.asAnswer_failure]
  by_cases hstart : ∃ what, action = .start what
  · obtain ⟨what, rfl⟩ := hstart
    cases what with
    | submit token data sender => cases hkey
    | rerun id =>
      cases hkey
      exact serve_start_refused hasks (run_newAttempt_missing (hidle id rfl) hmissing)
  · have hnone : ∀ what, action ≠ .start what := fun what h => hstart ⟨what, h⟩
    refine Backend.serve_of_asks hasks hnone ?_
    cases key with
    | form id => exact (answer_startsWith_getForm hkey).run_error (run_getForm_missing hmissing)
    | submission id => exact (answer_startsWith_reload hkey hnone).run_error (run_reload_missing hmissing)

/-- **A new attempt of a submission that is being run** in the same process is refused before its row is
looked up. -/
theorem serve_rerun_active {id : Int} (hasks : q.Asks (.start (.rerun id)))
    (h : (w.registries r.process).isActive id = true) :
    b.serve r q w sent =
      ({ outcome := .ok (.detail 409 (Cause.concurrentRun id).message) }, w, sent) :=
  serve_start_refused hasks (run_newAttempt_active h)

/-! ## §4. Lists. -/

/-- The data of a submission as it is stored. -/
def SubmissionRow.dataMembers (row : SubmissionRow) : Members :=
  match row.data with
  | .obj members => members
  | _ => []

/-- A submission as it is stored. -/
def Web.storedSubmission (row : SubmissionRow) : Json :=
  .obj (Web.submissionMembers row row.dataMembers)

theorem shown_submissionView {row : SubmissionRow} (h : row.Documented) :
    Web.shown (Web.submissionView row) = pure (Web.storedSubmission row) := by
  obtain ⟨members, hdata⟩ := h
  unfold Web.submissionView Web.storedSubmission SubmissionRow.dataMembers
  rw [hdata]
  rfl

theorem mapM_shown {rows : List SubmissionRow} (h : ∀ row ∈ rows, row.Documented) :
    (rows.map Web.submissionView).mapM Web.shown = pure (rows.map Web.storedSubmission) := by
  induction rows with
  | nil => rfl
  | cons row rows ih =>
    have hrest := ih fun other hother => h other (List.mem_cons_of_mem row hother)
    rw [List.map_cons, List.mapM_cons, shown_submissionView (h row List.mem_cons_self), hrest]
    rfl

theorem mem_submissions_of_mem_submissionsOf {s : Store} {form : Int} {status : Option Status}
    {skip limit : Nat} {row : SubmissionRow} (h : row ∈ s.submissionsOf form status skip limit) :
    row ∈ s.submissions := by
  unfold Store.submissionsOf at h
  exact (List.mem_filter.1 (List.mem_mergeSort.1 (Query.mem_of_mem_page h))).1

/-- **A part of the submissions of a form** is shown as it is stored, if the number of those that are left
out fits; otherwise there is no answer. -/
theorem serve_listSubmissions {form : Int} {status : Option Status} {page : Web.Page} {row : FormRow}
    (hasks : q.Asks (.listSubmissions form status page)) (hfits : Store.fits form = true)
    (hrow : w.store.forms.get? form = some row) (hdocumented : w.store.Documented) :
    (Store.fits page.skip = true → b.serve r q w sent =
      ({ outcome := .ok (.document 200 (.arr ((w.store.submissionsOf form status page.skip.toNat
        page.limit.toNat).map Web.storedSubmission))) }, w, sent)) ∧
    (Store.fits page.skip = false →
      b.serve r q w sent = ({ outcome := .error Store.tooLarge }, w, sent)) := by
  have hstart : ∀ what, Action.listSubmissions form status page ≠ .start what := nofun
  refine ⟨fun hskip => ?_, fun hskip => ?_⟩
  · have hlist : b.run (Submissions.list form status page.skip page.limit) w sent =
        (.ok (w.store.submissionsOf form status page.skip.toNat page.limit.toNat), w, sent) := by
      unfold Submissions.list Store.checkFits
      rw [Backend.run_bind_ok (Backend.run_getForm hfits hrow), Backend.run_read]
      simp only [hskip, if_true, bind, Except.bind, pure, Except.pure]
    have hrows : ∀ row ∈ w.store.submissionsOf form status page.skip.toNat page.limit.toNat,
        row.Documented := fun row hrow => hdocumented row (mem_submissions_of_mem_submissionsOf hrow)
    have hanswer : b.run (Web.answer r (.listSubmissions form status page)) w sent =
        (.ok (.document 200 (.arr ((w.store.submissionsOf form status page.skip.toNat
          page.limit.toNat).map Web.storedSubmission))), w, sent) := by
      refine (Backend.run_bind_ok hlist _).trans ?_
      unfold Web.shownAll
      rw [mapM_shown hrows]
      rfl
    exact Backend.serve_of_asks hasks hstart hanswer
  · have hlist : b.run (Submissions.list form status page.skip page.limit) w sent =
        (.error Store.tooLarge, w, sent) := by
      unfold Submissions.list Store.checkFits
      rw [Backend.run_bind_ok (Backend.run_getForm hfits hrow), Backend.run_read]
      simp only [hskip]
      rfl
    exact Backend.serve_of_asks hasks hstart (Backend.run_bind_error hlist _)

/-- **A part of all forms** is not shown if the number of those that are left out does not fit. -/
theorem serve_listForms_tooLarge {page : Web.Page} (hasks : q.Asks (.listForms page))
    (hskip : Store.fits page.skip = false) :
    b.serve r q w sent = ({ outcome := .error Store.tooLarge }, w, sent) := by
  have hlist : b.run (Forms.list page.skip page.limit) w sent = (.error Store.tooLarge, w, sent) := by
    unfold Forms.list Store.checkFits
    rw [Backend.run_read]
    simp only [hskip]
    rfl
  exact Backend.serve_of_asks hasks nofun (Backend.run_bind_error hlist _)

end

/-! ## §5. The result. -/

open Served (idle sending)

end PromptForms
