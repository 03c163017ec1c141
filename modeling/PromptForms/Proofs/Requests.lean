/-
  PromptForms.Proofs.Requests
  ───────────────────────────
  **REQUESTS, OPERATION BY OPERATION.**

  A request is read from its documents, carried out by one operation of the service, and
  the outcome is shown.  Only the operation can touch the store.  So an invariant that is
  kept by eight operations is kept by every request, and what these operations are given
  has always been read from a document before.

      Action.Read        what an action would write was read from a document
      Asks               what a request asks for
      Compositional      a property that goes from the parts of a job to the job
      Contract.Keeps     a job that keeps to a contract and keeps an invariant
      Contract.Serves    the operations do

  Main results:
    • read_of_readAction      what a request asks for was read from documents
    • Compositional.answer    an action is its operation and reading
    • Serves.handle           every request keeps to the contract
-/
import PromptForms.Proofs.Documents
import PromptForms.Proofs.Scene
import PromptForms.Proofs.Statements

namespace PromptForms

open Schema

/-! ## §1. What has been read. -/

/-- The draft of a form, of a change of one, or of a pipeline has been read from a document. -/
def FormDraft.Read (draft : FormDraft) : Prop := ∃ document, FormDraft.check document = .good draft

def FormPatch.Read (patch : FormPatch) : Prop := ∃ document, FormPatch.check document = .good patch

def PipelineDraft.Read (draft : PipelineDraft) : Prop :=
  ∃ document, PipelineDraft.check document = .good draft

namespace Web

/-- What the action would write has been read from a document. -/
def Action.Read : Action → Prop
  | .createForm draft => draft.Read
  | .updateForm _ patch => patch.Read
  | .savePipeline _ draft => draft.Read
  | _ => True

theorem exists_of_bodyDocument {α : Type} {document : Option Json} {check : Json → Checked α}
    {a : α} (h : bodyDocument document check = .good a) : ∃ value, check value = .good a := by
  cases document with
  | none => cases h
  | some value => exact ⟨value, Checked.under_eq_good.1 h⟩

/-- What an endpoint finds in a request was read from it. -/
theorem read_of_check {q : HttpRequest} {t : Target} {document : Option Json}
    {endpoint : Endpoint} {action : Action} (h : endpoint.check q t document = .good action) :
    action.Read := by
  cases endpoint with
  | createForm =>
    obtain ⟨draft, hdraft, rfl⟩ := Checked.map_eq_good.1 h
    exact exists_of_bodyDocument hdraft
  | updateForm form =>
    obtain ⟨_, patch, hform, hpatch, rfl⟩ := Checked.seq_eq_good.1 h
    obtain ⟨_, -, rfl⟩ := Checked.map_eq_good.1 hform
    exact exists_of_bodyDocument hpatch
  | savePipeline form =>
    obtain ⟨_, draft, hform, hdraft, rfl⟩ := Checked.seq_eq_good.1 h
    obtain ⟨_, -, rfl⟩ := Checked.map_eq_good.1 hform
    exact exists_of_bodyDocument hdraft
  | stepVariables form =>
    obtain ⟨_, _, hform, -, rfl⟩ := Checked.seq_eq_good.1 h
    obtain ⟨_, -, rfl⟩ := Checked.map_eq_good.1 hform
    trivial
  | listSubmissions form =>
    obtain ⟨_, _, hrest, -, rfl⟩ := Checked.seq_eq_good.1 h
    obtain ⟨_, _, hpage, -, rfl⟩ := Checked.seq_eq_good.1 hrest
    obtain ⟨_, -, rfl⟩ := Checked.map_eq_good.1 hpage
    trivial
  | publicForm | health =>
    cases h
    trivial
  | listForms | getForm | deleteForm | getPipeline | deletePipeline | submit | stats
  | getSubmission | rerun | cancel | deleteSubmission =>
    obtain ⟨_, -, rfl⟩ := Checked.map_eq_good.1 h
    trivial

/-- **What a request asks for** was read from its documents. -/
theorem read_of_readAction {q : HttpRequest} {endpoint : Endpoint} {action : Action}
    (h : readAction q endpoint = .ok action) : action.Read := by
  unfold readAction at h
  extract_lets checked at h
  -- Endpoints with and without a body differ only in where the document comes from.
  obtain ⟨document, hchecked⟩ : ∃ document, checked document = .ok action := by
    split at h
    · obtain ⟨document, -, h⟩ := exists_of_bind_eq_ok h
      exact ⟨document, h⟩
    · exact ⟨none, h⟩
  unfold checked at hchecked
  split at hchecked
  · rename_i found hfound
    cases hchecked
    exact read_of_check (Checked.orFail_eq_ok.1 hfound)
  · cases hchecked
  · cases hchecked

/-- The request asks for the action. -/
def HttpRequest.Asks (q : HttpRequest) (action : Action) : Prop :=
  ∃ endpoint, route q.method (Target.ofText q.target).path = .found endpoint ∧
    readAction q endpoint = .ok action

theorem HttpRequest.Asks.read {q : HttpRequest} {action : Action} (h : q.Asks action) :
    action.Read := by
  obtain ⟨endpoint, -, hread⟩ := h
  exact read_of_readAction hread

theorem HttpRequest.Asks.unique {q : HttpRequest} {action other : Action} (h : q.Asks action)
    (h' : q.Asks other) : other = action := by
  obtain ⟨endpoint, hroute, hread⟩ := h
  obtain ⟨endpoint', hroute', hread'⟩ := h'
  rw [hroute] at hroute'
  cases hroute'
  rw [hread] at hread'
  cases hread'
  rfl

theorem handle_of_asks {q : HttpRequest} {action : Action} (h : q.Asks action) (r : Runner) :
    handle r q = perform r action := by
  obtain ⟨endpoint, hroute, hread⟩ := h
  unfold handle
  simp only [hroute, hread]

/-- A request that asks for nothing is answered at once, and nothing is started. -/
theorem exists_handle_eq_done {q : HttpRequest} (h : ∀ action, ¬q.Asks action) (r : Runner) :
    ∃ outcome, handle r q = .done { outcome } := by
  unfold handle
  simp only
  split
  · rename_i endpoint hroute
    cases hread : readAction q endpoint with
    | ok action => exact absurd ⟨endpoint, hroute, hread⟩ (h action)
    | error refusal => exact ⟨_, rfl⟩
  · exact ⟨_, rfl⟩
  · exact ⟨_, rfl⟩
  · exact ⟨_, rfl⟩

/-- All actions but those that leave a run to be started are carried out in the same way. -/
theorem perform_eq_bind (r : Runner) {action : Action} (h : ∀ what, action ≠ .start what) :
    perform r action = (answer r action).run.bind fun result =>
      .done { outcome := asAnswer result } := by
  cases action with
  | start what => exact absurd rfl (h what)
  | createForm | listForms | publicForm | getForm | updateForm | deleteForm | getPipeline
  | savePipeline | deletePipeline | stepVariables | listSubmissions | stats | getSubmission | cancel
  | deleteSubmission | health => rfl

end Web

/-! ## §2. Jobs and their parts. -/

/-- A property of jobs that only reading has, and that a job has if its parts have it. -/
structure Compositional (K : {α : Type} → Job α → Prop) : Prop where
  ofExcept : ∀ {α : Type} (x : Except Failure α), K (Job.ofExcept x)
  read : ∀ {α : Type} (f : World → Except Failure α), K (Job.read f)
  bind : ∀ {α β : Type} {j : Job β} {f : β → Job α}, K j → (∀ b, K (f b)) → K (j >>= f)

namespace Compositional

variable {K : {α : Type} → Job α → Prop} {α β : Type}

theorem pure (h : Compositional K) (a : α) : K (pure a : Job α) := h.ofExcept (.ok a)

theorem throw (h : Compositional K) (e : Failure) : K (throw e : Job α) := h.ofExcept (.error e)

theorem fail (h : Compositional K) (c : Cause) : K (Job.fail c : Job α) := h.throw _

theorem ofCauses (h : Compositional K) (x : Except Cause α) : K (Job.ofCauses x) := by
  cases x with
  | ok a => exact h.pure a
  | error c => exact h.fail c

theorem ite (_ : Compositional K) {c : Prop} [Decidable c] {j k : Job α} (hj : K j) (hk : K k) :
    K (if c then j else k) := by
  split
  · exact hj
  · exact hk

/-- A job that refuses to go on in some case. -/
theorem refuse (h : Compositional K) {c : Prop} [Decidable c] {cause : Cause}
    {rest : PUnit → Job α} (hrest : K (rest ⟨⟩)) :
    K (if c then Job.fail cause >>= rest else rest ⟨⟩) := h.ite (h.fail cause) hrest

theorem mapM (h : Compositional K) {f : α → Job β} (hf : ∀ a, K (f a)) (items : List α) :
    K (items.mapM f) := by
  induction items with
  | nil => exact h.pure _
  | cons item rest ih =>
    rw [List.mapM_cons]
    exact h.bind (hf item) fun b => h.bind ih fun bs => h.pure _

/-- Showing a document touches nothing. -/
theorem shown (h : Compositional K) (document : Checked Json) : K (Web.shown document) := by
  unfold Web.shown
  split
  · exact h.pure _
  · exact h.throw _
  · exact h.throw _

/-- A job whose value is shown. -/
theorem shownBind (h : Compositional K) {j : Job α} (hj : K j) (document : α → Checked Json)
    (finish : Json → Web.Answer) : K (do return finish (← Web.shown (document (← j)))) :=
  h.bind hj fun _ => h.bind (h.shown _) fun _ => h.pure _

theorem getPublic (h : Compositional K) (token : String) : K (Forms.getPublic token) := by
  unfold Forms.getPublic
  exact h.bind (h.read _) fun row => h.refuse (h.pure row)

theorem getPipeline (h : Compositional K) (form : Int) : K (Forms.getPipeline form) :=
  h.bind (h.read _) fun _ => h.read _

/-- A new attempt looks into the registry, and its one statement that writes restarts the row. -/
theorem newAttempt (h : Compositional K) {r : Runner} {submission : Int}
    (hlook : K (Job.readMemory fun w => (w.registries r.process).isActive submission))
    (hrestart : ∀ target, K (Runner.compareAndSet submission [.completed, .failed]
      fun _ row => row.restarted target)) : K (r.newAttempt submission) := by
  unfold Runner.newAttempt
  apply h.bind hlook
  intro active
  apply h.refuse
  apply h.bind (h.read _)
  intro row
  apply h.refuse
  apply h.bind (h.ofCauses _)
  intro target
  apply h.bind (hrestart target)
  intro moved
  exact h.refuse (h.read _)

end Compositional

/-- What an action does apart from reading has the property. -/
def Web.Action.Carries (K : {α : Type} → Job α → Prop) (r : Runner) : Web.Action → Prop
  | .createForm draft => K (Forms.create draft)
  | .updateForm form patch => K (Forms.update form patch)
  | .deleteForm form => K (Forms.delete form)
  | .savePipeline form draft => K (Forms.savePipeline form draft)
  | .deletePipeline form => K (Forms.deletePipeline form)
  | .cancel submission => K (r.cancel submission)
  | .deleteSubmission submission => K (Submissions.delete submission)
  | .start what => K (Web.startedRow r what)
  | _ => True

/-- **Actions.**  Everything else that an action does is reading, and its answer is shown. -/
theorem Compositional.answer {K : {α : Type} → Job α → Prop} (h : Compositional K) {r : Runner}
    {action : Web.Action} (hcarries : action.Carries K r) : K (Web.answer r action) := by
  cases action with
  | createForm draft => exact h.shownBind hcarries _ _
  | listForms page => exact h.bind (h.read _) fun _ => h.bind (h.ofExcept _) fun _ => h.pure _
  | publicForm token => exact h.shownBind (h.getPublic token) _ _
  | getForm form => exact h.shownBind (h.read _) _ _
  | updateForm form patch => exact h.shownBind hcarries _ _
  | deleteForm form => exact h.bind hcarries fun _ => h.pure _
  | getPipeline form => exact h.shownBind (h.getPipeline form) _ _
  | savePipeline form draft =>
    apply h.bind hcarries
    intro saved
    exact h.bind (h.shown _) fun _ => h.pure _
  | deletePipeline form => exact h.bind hcarries fun _ => h.pure _
  | stepVariables form step =>
    apply h.bind _ fun _ => h.pure _
    exact h.bind (h.read _) fun _ => h.bind (h.ofExcept _) fun _ => h.pure _
  | listSubmissions form status page =>
    apply h.bind (h.bind (h.read _) fun _ => h.read _)
    intro rows
    exact h.bind (h.bind (h.mapM h.shown _) fun _ => h.pure _) fun _ => h.pure _
  | stats form =>
    apply h.bind _ fun _ => h.pure _
    exact h.bind (h.read _) fun _ => h.bind (h.read _) fun _ => h.bind (h.read _) fun _ => h.pure _
  | getSubmission submission =>
    apply h.bind _ fun found => h.bind (h.ofExcept _) fun _ => h.pure _
    exact h.bind (h.read _) fun _ => h.bind (h.read _) fun _ => h.pure _
  | cancel submission =>
    apply h.bind (h.read _)
    intro _
    exact h.bind hcarries fun found => h.ite (h.pure _) (h.pure _)
  | deleteSubmission submission => exact h.bind hcarries fun _ => h.pure _
  | health => exact h.pure _
  | start what => exact h.shownBind hcarries _ _

namespace Contract

variable {α β : Type} {C : Contract} {I : Deeds → World → Prop}

/-! ## §3. Jobs that keep an invariant. -/

/-- From the invariant on, the job keeps to the contract, and the invariant holds at its end. -/
def Keeps (C : Contract) (I : Deeds → World → Prop) (j : Job α) : Prop := C.Triple I j fun _ => I

theorem keeps_pure (a : α) : C.Keeps I (pure a : Job α) := triple_pure fun _ _ h => h

theorem keeps_fail (c : Cause) : C.Keeps I (Job.fail c : Job α) := triple_fail fun _ _ h => h

theorem keeps_ofExcept (x : Except Failure α) : C.Keeps I (Job.ofExcept x) :=
  triple_ofExcept fun _ _ h => h

theorem keeps_ofCauses (x : Except Cause α) : C.Keeps I (Job.ofCauses x) :=
  triple_ofCauses (fun _ _ _ _ h => h) fun _ _ _ _ h => h

theorem keeps_bind {j : Job β} {f : β → Job α} (hj : C.Keeps I j) (hf : ∀ b, C.Keeps I (f b)) :
    C.Keeps I (j >>= f) := triple_bind hj hf fun _ _ _ h => h

theorem Quiet.keeps_read (hI : C.Quiet I) (f : World → Except Failure α) :
    C.Keeps I (Job.read f) :=
  (hI.read (R := fun _ => True) fun _ _ _ => trivial).mono (fun _ _ h => h) fun _ _ _ h => h.1

theorem Quiet.keeps_inMemory (hI : C.Quiet I) {f : World → Except Failure (α × World)}
    (hf : ∀ w a w', f w = .ok (a, w') → w'.store = w.store) : C.Keeps I (Job.inMemory f) :=
  (hI.inMemory (R := fun _ => True) (fun w a w' h => ⟨hf w a w' h, trivial⟩)
    fun _ _ _ => trivial).mono (fun _ _ h => h) fun _ _ _ h => h.1

theorem Quiet.compositional (hI : C.Quiet I) : Compositional (C.Keeps I) where
  ofExcept := keeps_ofExcept
  read := hI.keeps_read
  bind := keeps_bind

/-! ## §4. Requests. -/

/-- A plan that goes on after a job. -/
theorem meets_bind_of_keeps {j : Job α} (hj : C.Keeps I j) {f : Except Failure α → Plan β}
    (hf : ∀ res g w, I g w → C.Meets (f res) (fun _ => I) g w) (g : Deeds) (w : World)
    (hw : I g w) : C.Meets (j.run.bind f) (fun _ => I) g w :=
  (meets_bind ..).2 (Meets.mono hf _ g w (hj g w hw))

theorem meets_perform (hI : C.Quiet I) {r : Runner} {action : Web.Action}
    (h : action.Carries (C.Keeps I) r) (g : Deeds) (w : World) (hw : I g w) :
    C.Meets (Web.perform r action) (fun _ => I) g w := by
  by_cases hstart : ∃ what, action = .start what
  · obtain ⟨what, rfl⟩ := hstart
    refine meets_bind_of_keeps h (fun res g w hw => ?_) g w hw
    cases res with
    | error e => exact hw
    | ok row =>
      exact (meets_bind ..).2
        (Meets.mono (fun _ _ _ hw => hw) _ g w (hI.compositional.shown _ g w hw))
  · rw [Web.perform_eq_bind r fun what he => hstart ⟨what, he⟩]
    exact meets_bind_of_keeps (hI.compositional.answer h)
      (f := fun result => .done ({ outcome := Web.asAnswer result } : Web.Handled))
      (fun _ _ _ hw => hw) g w hw

/-- A request keeps to the contract if what it asks for does. -/
theorem meets_handle_of_asks (hI : C.Quiet I) {r : Runner} {q : Web.HttpRequest}
    (h : ∀ action, q.Asks action → action.Carries (C.Keeps I) r) (g : Deeds) (w : World)
    (hw : I g w) : C.Meets (Web.handle r q) (fun _ => I) g w := by
  by_cases hasks : ∃ action, q.Asks action
  · obtain ⟨action, hasks⟩ := hasks
    rw [Web.handle_of_asks hasks]
    exact meets_perform hI (h action hasks) g w hw
  · obtain ⟨outcome, hdone⟩ := Web.exists_handle_eq_done (not_exists.1 hasks) r
    rw [hdone]
    exact hw

/-- The operations that write keep to the contract and keep the invariant. -/
structure Serves (C : Contract) (I : Deeds → World → Prop) : Prop where
  quiet : C.Quiet I
  createForm : ∀ {draft : FormDraft}, draft.Read → C.Keeps I (Forms.create draft)
  updateForm : ∀ form {patch : FormPatch}, patch.Read → C.Keeps I (Forms.update form patch)
  deleteForm : ∀ form, C.Keeps I (Forms.delete form)
  savePipeline : ∀ form {draft : PipelineDraft}, draft.Read →
    C.Keeps I (Forms.savePipeline form draft)
  deletePipeline : ∀ form, C.Keeps I (Forms.deletePipeline form)
  submit : ∀ token data sender, C.Keeps I (Submissions.submit token data sender)
  deleteSubmission : ∀ submission, C.Keeps I (Submissions.delete submission)
  newAttempt : ∀ (r : Runner) submission, C.Keeps I (r.newAttempt submission)

namespace Serves

theorem cancel (h : C.Serves I) (r : Runner) (submission : Int) :
    C.Keeps I (r.cancel submission) :=
  h.quiet.keeps_inMemory fun w a w' h => by cases h; rfl

theorem carries (h : C.Serves I) (r : Runner) {action : Web.Action} (hread : action.Read) :
    action.Carries (C.Keeps I) r := by
  cases action with
  | createForm draft => exact h.createForm hread
  | updateForm form patch => exact h.updateForm form hread
  | deleteForm form => exact h.deleteForm form
  | savePipeline form draft => exact h.savePipeline form hread
  | deletePipeline form => exact h.deletePipeline form
  | cancel submission => exact h.cancel r submission
  | deleteSubmission submission => exact h.deleteSubmission submission
  | start what =>
    cases what with
    | submit token data sender => exact h.submit token data sender
    | rerun submission => exact h.newAttempt r submission
  | listForms | publicForm | getForm | getPipeline | stepVariables | listSubmissions | stats
  | getSubmission | health => trivial

/-- **Requests.**  Whatever is asked, answering it keeps to the contract. -/
theorem handle (h : C.Serves I) (r : Runner) (q : Web.HttpRequest) (g : Deeds) (w : World)
    (hw : I g w) : C.Meets (Web.handle r q) (fun _ => I) g w :=
  meets_handle_of_asks h.quiet (fun _ hasks => h.carries r hasks.read) g w hw

end Serves

end Contract

end PromptForms
