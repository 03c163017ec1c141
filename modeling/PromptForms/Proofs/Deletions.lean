/-
  PromptForms.Proofs.Deletions
  ────────────────────────────
  **DELETED WHILE IT IS BEING PROCESSED.**

  A request to delete something looks at the status first and deletes later, in another
  statement.  In between a run may take the submission.  Then the row goes while it is
  being processed, and the run, which does not look for the row again, stores outputs
  that belong to nothing.  This is the only way in which either can happen.

      deletions      the setting
      racing         what runs and deletions may do and put up with
      Overtaken      a run took the submission after a request had looked at it

  Main results:
    • deletions_race    a submission is deleted while it is being processed only if the
                        deletion was overtaken, and only then outputs stay behind
    • spared_of_turns   no deletion is overtaken where tasks take turns
-/
import PromptForms.Proofs.Attempts
import PromptForms.Proofs.Integrity

namespace PromptForms

/-! ## §1. The setting. -/

/-- The action deletes a submission or a form. -/
def Web.Action.Deletes : Web.Action → Prop
  | .deleteSubmission _ | .deleteForm _ => True
  | _ => False

/-- Runs of any submissions and requests to delete any submissions and forms, in any process. -/
def deletions : Setting where
  begins
    | .run _ _ => True
    | .request _ q => ∃ action, q.Asks action ∧ action.Deletes
    | _ => False
  drifts w w' := w'.store = w.store
  interleaved := True

/-- The submission is deleted while it is being processed. -/
def Deed.cutsOff (id : Int) (d : Deed) : Prop :=
  d.before.status? id = some .processing ∧ d.after.status? id = none

instance (id : Int) (d : Deed) : Decidable (d.cutsOff id) := inferInstanceAs (Decidable (_ ∧ _))

/-- One of the deeds only looked, and the submission was not being processed. -/
def Looked (id : Int) (g : Deeds) : Prop :=
  ∃ d ∈ g, d.after.store = d.before.store ∧ d.before.status? id ≠ some .processing

/-- The thread looked when the submission was not being processed, and later a run took it. -/
def Overtaken (id : Int) (i : Nat) (log : List Entry) : Prop :=
  ∃ earlier look between take later, log = earlier ++ look :: (between ++ take :: later) ∧
    look.thread = i ∧ look.deed.before.status? id ≠ some .processing ∧ take.deed.takes id

/-- The submission was not deleted while it was being processed. -/
def Spared (id : Int) (log : List Entry) : Prop := ∀ e ∈ log, ¬e.deed.cutsOff id

/-! ## §2. What becomes of submissions. -/

namespace Store

/-- No run has the submission, and none can take it. -/
def Over (s : Store) (id : Int) : Prop :=
  ∀ row, s.submissions.get? id = some row → row.status.isTerminal = true

/-- Submissions only become fewer.  They keep their forms, and what is over stays over. -/
structure Declines (s s' : Store) : Prop where
  rows : (s'.submissions.map fun row => (row.id, row.formId)).Sublist
    (s.submissions.map fun row => (row.id, row.formId))
  stays : ∀ id, s.Over id → s'.Over id

namespace Declines

variable {s s' s'' : Store}

theorem of_submissions_eq (h : s'.submissions = s.submissions) : Declines s s' := by
  refine ⟨?_, fun id hover => ?_⟩
  · rw [h]
  · unfold Over
    rw [h]
    exact hover

theorem trans (h : Declines s s') (h' : Declines s' s'') : Declines s s'' :=
  ⟨h'.rows.trans h.rows, fun id hover => h'.stays id (h.stays id hover)⟩

theorem distinct (h : Declines s s') (hd : (s.submissions.map HasId.id).Nodup) :
    (s'.submissions.map HasId.id).Nodup := by
  have hids := h.rows.map Prod.fst
  rw [List.map_map, List.map_map] at hids
  exact hd.sublist hids

/-- A row that is left was there before, under the same form. -/
theorem exists_row (h : Declines s s') {row : SubmissionRow} (hrow : row ∈ s'.submissions) :
    ∃ old ∈ s.submissions, old.id = row.id ∧ old.formId = row.formId := by
  have hmem := h.rows.subset (List.mem_map_of_mem (f := fun row => (row.id, row.formId)) hrow)
  obtain ⟨old, hold, heq⟩ := List.mem_map.1 hmem
  exact ⟨old, hold, (Prod.mk.inj heq).1, (Prod.mk.inj heq).2⟩

end Declines

end Store

/-! ## §3. The contract. -/

/-- What a statement may do after the deeds `g` of its thread. -/
structure Racing (g : Deeds) (d : Deed) : Prop where
  declines : d.before.store.Declines d.after.store
  /-- A submission that is being processed has been taken. -/
  taken : ∀ id, d.after.status? id = some .processing →
    d.before.status? id = some .processing ∨ d.takes id
  /-- It is moved on by its holder alone. -/
  left : ∀ id, d.leaves id → d.after.status? id ≠ none → Deeds.Holds id g
  /-- It is deleted only by a thread that has looked. -/
  removed : ∀ id, d.cutsOff id → Looked id g
  /-- An output is stored by the holder alone, and no submission goes without its outputs. -/
  outputs : (d.after.store.submissions = d.before.store.submissions ∧
      ∃ o, d.after.store.outputs = d.before.store.outputs ++ [o] ∧ Deeds.Holds o.submissionId g) ∨
    ∀ o ∈ d.after.store.outputs, o ∈ d.before.store.outputs ∧
      (Present o.submissionId d.before → Present o.submissionId d.after)

/-- Around a thread submissions become fewer. -/
def racing : Contract where
  allows := Racing
  calm _ w w' := w.store.Declines w'.store
  pause _ w w' := w.store.Declines w'.store

namespace Deletions

variable {g : Deeds} {d : Deed} {w w' : World} {id : Int} {α : Type}

theorem status?_eq_none : w.status? id = none ↔ w.store.submissions.get? id = none := by
  unfold World.status?
  rw [Option.map_eq_none_iff]

/-- A statement that keeps the submissions. -/
theorem racing_of_submissions_eq (hsub : d.after.store.submissions = d.before.store.submissions)
    (hout : (∃ o, d.after.store.outputs = d.before.store.outputs ++ [o] ∧
        Deeds.Holds o.submissionId g) ∨
      ∀ o ∈ d.after.store.outputs, o ∈ d.before.store.outputs) : Racing g d := by
  have hstatus := World.status?_of_submissions_eq hsub
  refine ⟨.of_submissions_eq hsub, fun id h => .inl (hstatus id ▸ h), fun id h => ?_, fun id h => ?_,
    hout.imp (⟨hsub, ·⟩) fun hout o ho => ⟨hout o ho, Exclusive.present_of_submissions_eq hsub⟩⟩
  · exact absurd h (Deed.not_leaves_of_status?_eq (hstatus id))
  · rw [Deed.cutsOff, hstatus, h.1] at h
    cases h.2

/-- A submission that is not over is changed. -/
theorem declines_withSubmission {change : SubmissionRow → SubmissionRow} {row : SubmissionRow}
    (hid : ∀ row, (change row).id = row.id) (hform : ∀ row, (change row).formId = row.formId)
    (hrow : w.store.submissions.get? id = some row) (hs : row.status.isTerminal = false) :
    w.store.Declines (w.withSubmission id change).store := by
  refine ⟨?_, fun other hover => ?_⟩
  · have hsame : (w.withSubmission id change).store.submissions.map
        (fun row => (row.id, row.formId)) =
        w.store.submissions.map fun row => (row.id, row.formId) :=
      Table.map_replace fun row _ _ => Prod.ext (hid row) (hform row)
    rw [hsame]
  · by_cases he : other = id
    · subst he
      cases hs.symm.trans (hover row hrow)
    · unfold Store.Over
      rw [World.get?_withSubmission_of_ne hid he]
      exact hover

/-- A submission is taken, or its holder ends the attempt. -/
theorem racing_withSubmission {change : SubmissionRow → SubmissionRow} {row : SubmissionRow}
    (hid : ∀ row, (change row).id = row.id) (hform : ∀ row, (change row).formId = row.formId)
    (hrow : w.store.submissions.get? id = some row)
    (hfrom : row.status = .pending ∨ row.status = .processing ∧ Deeds.Holds id g) :
    Racing g ⟨w, w.withSubmission id change⟩ := by
  have hbefore := World.status?_of_get? hrow
  have hchanged := World.get?_withSubmission_self change hid hrow
  have hother (other : Int) (hne : other ≠ id) :
      (w.withSubmission id change).status? other = w.status? other := by
    unfold World.status?
    rw [World.get?_withSubmission_of_ne hid hne]
  have hrunning : row.status.isTerminal = false := by
    rcases hfrom with hs | ⟨hs, -⟩ <;> rw [hs] <;> rfl
  refine ⟨declines_withSubmission hid hform hrow hrunning, fun other h => ?_, fun other h _ => ?_,
    fun other h => ?_, .inr fun o ho => ⟨ho, fun hp => ?_⟩⟩
  · rcases eq_or_ne other id with rfl | he
    · rcases hfrom with hs | ⟨hs, -⟩
      · exact .inr ⟨hbefore.trans (congrArg some hs), h⟩
      · exact .inl (hbefore.trans (congrArg some hs))
    · exact .inl (hother other he ▸ h)
  · rcases eq_or_ne other id with rfl | he
    · rcases hfrom with hs | ⟨-, hholds⟩
      · cases (hbefore.trans (congrArg some hs)).symm.trans h.1
      · exact hholds
    · exact absurd h (Deed.not_leaves_of_status?_eq (hother other he))
  · rcases eq_or_ne other id with rfl | he
    · cases (World.status?_of_get? hchanged).symm.trans h.2
    · cases (h.1.symm.trans (hother other he).symm).trans h.2
  · rcases eq_or_ne o.submissionId id with he | he
    · refine ⟨change row, ?_⟩
      rw [he]
      exact hchanged
    · obtain ⟨row, hrow⟩ := hp
      exact ⟨row, (World.get?_withSubmission_of_ne hid he).trans hrow⟩

/-- Submissions are deleted by a thread that has looked at them, and their outputs with them. -/
theorem racing_remove {test : SubmissionRow → Bool}
    (hd : (d.before.store.submissions.map HasId.id).Nodup)
    (hsub : d.after.store.submissions = d.before.store.submissions.remove test)
    (hout : ∀ o ∈ d.after.store.outputs, o ∈ d.before.store.outputs ∧
      ∀ row ∈ d.before.store.submissions, row.id = o.submissionId → test row = false)
    (hlooked : ∀ row ∈ d.before.store.submissions, test row = true → Looked row.id g) :
    Racing g d := by
  have hget (id : Int) : d.after.store.submissions.get? id =
      (d.before.store.submissions.get? id).filter fun row => !test row := by
    rw [hsub]
    exact Table.get?_remove hd test id
  -- A row that is left is as it was.
  have hleft {id : Int} {row : SubmissionRow} (h : d.after.store.submissions.get? id = some row) :
      d.before.store.submissions.get? id = some row := by
    rw [hget, Option.filter_eq_some_iff] at h
    exact h.1
  have hstatus {id : Int} {status : Status} (h : d.after.status? id = some status) :
      d.before.status? id = some status := by
    obtain ⟨row, hrow, rfl⟩ := World.status?_eq_some.1 h
    exact World.status?_of_get? (hleft hrow)
  refine ⟨⟨?_, fun id hover row hrow => hover row (hleft hrow)⟩, fun id h => .inl (hstatus h),
    fun id h hne => ?_, fun id h => ?_, .inr fun o ho => ⟨(hout o ho).1, ?_⟩⟩
  · rw [hsub]
    exact List.filter_sublist.map _
  · obtain ⟨status, hs⟩ := Option.ne_none_iff_exists'.1 hne
    exact absurd (hs.trans ((hstatus hs).symm.trans h.1)) h.2
  · obtain ⟨row, hrow, -⟩ := World.status?_eq_some.1 h.1
    have hgone := status?_eq_none.1 h.2
    rw [hget, hrow, Option.filter_eq_none_iff] at hgone
    have htest : test row = true := by simpa using hgone row rfl
    exact Table.id_of_get? hrow ▸ hlooked row (Table.mem_of_get? hrow) htest
  · rintro ⟨row, hrow⟩
    have htest := (hout o ho).2 row (Table.mem_of_get? hrow) (Table.id_of_get? hrow)
    refine ⟨row, ?_⟩
    rw [hget, hrow, Option.filter_eq_some_iff, htest]
    exact ⟨rfl, rfl⟩

/-! ## §4. Conditions. -/

/-- A condition that survives statements that keep the store, and whatever happens around. -/
theorem quiet_of {P : Deeds → World → Prop}
    (hdeed : ∀ g d, P g d.before → d.after.store = d.before.store → P (g ++ [d]) d.after)
    (haround : ∀ g w w', P g w → w.store.Declines w'.store → P g w') : racing.Quiet P := by
  intro g d h hstore
  have hracing : Racing g d := racing_of_submissions_eq (congrArg Store.submissions hstore)
    (.inr fun o ho => hstore ▸ ho)
  exact ⟨hracing, fun w hw => haround _ _ _ (hdeed g d h hstore) hw⟩

/-- Nothing is known. -/
def anyhow (_ : Deeds) (_ : World) : Prop := True

/-- The run holds the submission. -/
def held (id : Int) (g : Deeds) (_ : World) : Prop := Deeds.Holds id g

/-- If the submission is being processed, the run holds it. -/
def ending (id : Int) (g : Deeds) (w : World) : Prop := Deeds.Holds id g ∨ w.store.Over id

/-- No two submissions have the same id. -/
def distinct (_ : Deeds) (w : World) : Prop := (w.store.submissions.map HasId.id).Nodup

/-- The thread has looked at the submissions that pass the test. -/
def cleared (test : SubmissionRow → Bool) (g : Deeds) (w : World) : Prop :=
  distinct g w ∧ ∀ row ∈ w.store.submissions, test row = true → Looked row.id g

theorem quiet_anyhow : racing.Quiet anyhow := quiet_of (fun _ _ _ _ => trivial) fun _ _ _ _ _ => trivial

theorem quiet_held : racing.Quiet (held id) :=
  quiet_of (fun _ _ h hstore =>
    (Deeds.holds_concat_of_status?_eq (Deed.status?_eq_of_store_eq hstore id)).2 h) fun _ _ _ h _ => h

theorem quiet_ending : racing.Quiet (ending id) :=
  quiet_of (fun _ _ h hstore =>
    h.imp (Deeds.holds_concat_of_status?_eq (Deed.status?_eq_of_store_eq hstore id)).2
      fun hover => hstore ▸ hover)
    fun _ _ _ h hw => h.imp_right (hw.stays id)

theorem quiet_distinct : racing.Quiet distinct :=
  quiet_of (fun _ d h hstore => by unfold distinct; rw [hstore]; exact h) fun _ _ _ h hw => hw.distinct h

/-- A thread that finds that no such submission is being processed has looked at them. -/
theorem cleared_of_look {test : SubmissionRow → Bool}
    (htest : ∀ a b : SubmissionRow, a.id = b.id → a.formId = b.formId → test a = test b)
    (hd : distinct g w)
    (hidle : ∀ row ∈ w.store.submissions, test row = true → row.status ≠ .processing)
    (hw : w.store.Declines w'.store) : cleared test (g ++ [⟨w, w⟩]) w' := by
  refine ⟨hw.distinct hd, fun row hrow hpass => ?_⟩
  obtain ⟨old, hold, hid, hform⟩ := hw.exists_row hrow
  refine ⟨⟨w, w⟩, by simp, rfl, fun hs => ?_⟩
  have hget : w.store.submissions.get? old.id = some old := Table.get?_of_mem hd hold
  rw [← hid, World.status?_of_get? hget] at hs
  exact hidle old hold ((htest old row hid hform).trans hpass) (Option.some.inj hs)

/-! ## §5. Deletions. -/

/-- The statement that deletes. -/
theorem keeps_remove {test : SubmissionRow → Bool} {f : Store → Store}
    (hsub : ∀ s, (f s).submissions = s.submissions.remove test)
    (hout : ∀ s, ∀ o ∈ (f s).outputs, o ∈ s.outputs ∧
      ∀ row ∈ s.submissions, row.id = o.submissionId → test row = false) :
    racing.Triple (cleared test) (Job.statement fun w => .ok ((), w.withStore (f w.store)))
      fun _ => distinct := by
  refine Contract.triple_statement fun g w h => ?_
  have hracing : Racing g ⟨w, w.withStore (f w.store)⟩ :=
    racing_remove h.1 (hsub w.store) (hout w.store) h.2
  exact ⟨hracing, fun w' hw => hw.distinct (hracing.declines.distinct h.1)⟩

theorem keeps_deleteSubmission (id : Int) : racing.Keeps distinct (Submissions.delete id) := by
  unfold Submissions.delete Submissions.get Runner.reload
  refine Contract.triple_bind (R := Contract.either (fun row g w =>
      distinct g w ∧ (row.status ≠ .processing → cleared (fun r => r.id == id) g w)) distinct)
    (Contract.triple_read fun g w h => ?_) (fun row => ?_) fun _ _ _ h => h
  · cases hrow : w.store.submission id with
    | error e => exact quiet_distinct g ⟨w, w⟩ h rfl
    | ok row =>
      refine ⟨(quiet_distinct g ⟨w, w⟩ h rfl).1, fun w' hw => ⟨hw.distinct h, fun hs => ?_⟩⟩
      have hget := (Store.submission_eq_ok.1 hrow).2
      refine cleared_of_look (fun a b hid _ => by rw [hid]) h (fun other hother hid => ?_) hw
      have hsame := Table.get?_of_mem h hother
      rw [show HasId.id other = id from beq_iff_eq.1 hid, hget] at hsame
      exact Option.some.inj hsame ▸ hs
  · refine Contract.triple_refuse (fun _ _ _ h => h.1) fun hs => ?_
    refine (keeps_remove (f := (·.deleteSubmission id)) (fun s => rfl) fun s o ho => ?_).mono
      (fun _ _ h => h.2 hs) fun _ _ _ h => h
    obtain ⟨ho, hne⟩ := Table.mem_remove.1 ho
    exact ⟨ho, fun row _ hid => by rw [hid]; exact hne⟩

theorem keeps_deleteForm (form : Int) : racing.Keeps distinct (Forms.delete form) := by
  unfold Forms.delete
  refine Contract.triple_bind (quiet_distinct.keeps_read _) (fun _ => ?_) fun _ _ _ h => h
  refine Contract.triple_bind (R := Contract.either (fun found g w =>
      distinct g w ∧ (found = none → cleared (fun r => r.formId == form) g w)) distinct)
    (Contract.triple_read fun g w h => ?_) (fun found => ?_) fun _ _ _ h => h
  · refine ⟨(quiet_distinct g ⟨w, w⟩ h rfl).1, fun w' hw => ⟨hw.distinct h, fun hnone => ?_⟩⟩
    refine cleared_of_look (fun a b _ hform => by rw [hform]) h (fun row hrow hform => ?_) hw
    exact Store.processingOf?_eq_none.1 hnone row hrow (beq_iff_eq.1 hform)
  · cases found with
    | some submission => exact Contract.triple_fail fun _ _ h => h.1
    | none =>
      refine (keeps_remove (f := (·.deleteForm form)) (fun s => rfl) fun s o ho => ?_).mono
        (fun _ _ h => h.2 rfl) fun _ _ _ h => h
      obtain ⟨ho, hgone⟩ := Table.mem_remove.1 ho
      refine ⟨ho, fun row hrow hid => ?_⟩
      -- An output of one of the submissions would have gone with it.
      by_contra htest
      have hmem : row ∈ s.submissions.filter fun r => r.formId == form :=
        List.mem_filter.2 ⟨hrow, eq_true_of_ne_false htest⟩
      have := List.contains_iff_mem.2 (List.mem_map_of_mem (f := fun r => r.id) hmem)
      rw [hid, hgone] at this
      cases this

theorem meets_request (r : Runner) {q : Web.HttpRequest} {action : Web.Action}
    (hasks : q.Asks action) (hdeletes : action.Deletes) (g : Deeds) (w : World)
    (h : distinct g w) : racing.Meets (Web.handle r q) (fun _ => distinct) g w := by
  refine Contract.meets_handle_of_asks quiet_distinct (fun other hother => ?_) g w h
  rw [hasks.unique hother]
  cases action with
  | deleteSubmission id => exact keeps_deleteSubmission id
  | deleteForm form => exact keeps_deleteForm form
  | createForm | listForms | publicForm | getForm | updateForm | getPipeline | savePipeline
  | deletePipeline | stepVariables | listSubmissions | stats | getSubmission | cancel | health
  | start => exact hdeletes.elim

/-! ## §6. Runs. -/

section

variable {r : Runner} {row : SubmissionRow}

theorem keeps_finish (id : Int) {target : Status} (ht : target.isTerminal = true)
    (message : Option String) : racing.Keeps (ending id) (Runner.finish id target message) := by
  unfold Runner.finish
  refine Contract.keeps_bind (Contract.triple_compareAndSet (fun g w row h hrow hs => ?_)
    fun g w h _ => quiet_ending g ⟨w, w⟩ h rfl) fun _ => quiet_ending.keeps_read _
  rw [List.mem_singleton] at hs
  have hholds : Deeds.Holds id g := by
    refine h.resolve_right fun hover => ?_
    cases (congrArg Status.isTerminal hs).symm.trans (hover row hrow)
  refine ⟨racing_withSubmission (fun _ => rfl) (fun _ => rfl) hrow (.inr ⟨hs, hholds⟩),
    fun w' hw => .inr (hw.stays id fun row' hrow' => ?_)⟩
  rw [World.get?_withSubmission_self (fun row => row.settled target message w.now) (fun _ => rfl)
    hrow] at hrow'
  cases hrow'
  exact ht

theorem ends_finish {target : Status} (ht : target.isTerminal = true) (message : Option String) :
    racing.Triple (held id) (Runner.finish id target message) fun _ => ending id :=
  (keeps_finish id ht message).mono (fun _ _ h => .inl h) fun _ _ _ h => h

theorem keeps_storeOutput (hid : row.id = id) (result : StepResult) :
    racing.Keeps (held id) (Runner.storeOutput row result) := by
  refine Contract.triple_storeOutput (fun g w store h hinsert => ?_)
    fun g w e h _ => quiet_held g ⟨w, w⟩ h rfl
  obtain rfl := Store.eq_append_of_insertOutput rfl hinsert
  refine ⟨racing_of_submissions_eq rfl (.inl ⟨_, rfl, ?_⟩), fun w' _ => ?_⟩
  · show Deeds.Holds row.id g
    rw [hid]
    exact h
  · exact (Deeds.holds_concat_of_status?_eq rfl).2 h

theorem keeps_execute (step : Step) (context : Template.Context) :
    racing.Keeps (held id) (r.executor.execute step context) := by
  unfold Executor.execute
  cases Template.resolve r.executor.mode step.prompt context with
  | error names => exact Contract.keeps_fail _
  | ok prompt =>
    exact Contract.keeps_bind (Contract.triple_request fun _ _ h _ _ _ => h) fun _ =>
      Contract.keeps_ofExcept _

theorem keeps_isCancelled (run : Nat) : racing.Keeps (held id) (r.isCancelled run) :=
  quiet_held.keeps_read _

/-- The loop.  Until it ends the attempt, the run holds the submission. -/
theorem ends_runSteps (hid : row.id = id) (run : Nat) (fields : List Field)
    (values : Dictionary Value) (steps : List Step) :
    ∀ produced, racing.Triple (held id) (r.runSteps row run fields values produced steps)
      fun _ => ending id := by
  have failed (message : String) : racing.Triple (held id)
      (Runner.finish row.id .failed (some message)) fun _ => ending id := by
    rw [hid]
    exact ends_finish rfl _
  have ended (e : Failure) (g : Deeds) (w : World) (h : held id g w) : ending id g w := .inl h
  induction steps with
  | nil =>
    intro produced
    unfold Runner.runSteps
    rw [hid]
    exact ends_finish rfl _
  | cons step rest ih =>
    intro produced
    unfold Runner.runSteps
    refine Contract.triple_bind (keeps_isCancelled run) (fun stop => ?_) ended
    refine Contract.triple_ite (fun _ => failed _) fun _ => ?_
    refine Contract.triple_bind (R := fun _ => held id)
      ((Contract.triple_outcome (keeps_execute step _)).mono (fun _ _ h => h) ?_)
      (fun outcome => ?_) ended
    · rintro (e | outcome) g w h
      · exact h.elim
      · exact h
    · split
      · exact Contract.triple_throw fun g w h => ended .interrupted g w h
      · refine Contract.triple_bind (keeps_isCancelled run) (fun stop => ?_) ended
        refine Contract.triple_ite (fun _ => failed _) fun _ => ?_
        split
        · exact Contract.triple_bind (keeps_storeOutput hid _) (fun _ => ih _) ended
        · exact failed _
        · exact Contract.triple_throw fun g w h => ended .interrupted g w h

theorem ends_runAllSteps (hid : row.id = id) (run : Nat) (steps : List Step) :
    racing.Triple (held id) (r.runAllSteps row run steps) fun _ => ending id := by
  have ended (e : Failure) (g : Deeds) (w : World) (h : held id g w) : ending id g w := .inl h
  unfold Runner.runAllSteps
  refine Contract.triple_bind (R := fun _ => held id)
    ((Contract.triple_fieldsFor quiet_held row).mono (fun _ _ h => h) fun _ _ _ h => h.1)
    (fun fields => ?_) ended
  exact Contract.triple_bind (Contract.keeps_ofExcept _)
    (fun values => ends_runSteps hid run fields values steps []) ended

theorem keeps_breakOff (id : Int) (e : Failure) :
    racing.Keeps (ending id) (Runner.breakOff id e) := by
  have thrown (e : Failure) : racing.Keeps (ending id) (throw e : Job SubmissionRow) :=
    Contract.keeps_ofExcept (.error e)
  unfold Runner.breakOff
  split
  · exact Contract.keeps_bind (keeps_finish id rfl _) fun _ => thrown _
  · refine Contract.keeps_bind ((Contract.triple_outcome (Contract.keeps_bind
      (quiet_ending.keeps_read _) fun _ => keeps_finish id rfl _)).mono (fun _ _ h => h) ?_)
      fun _ => thrown _
    rintro (e | outcome) g w h
    · exact h.elim
    · exact h

/-- Moving a pending submission on. -/
theorem keeps_leavePending (id : Int) (target : Status) :
    racing.Triple anyhow (Runner.leavePending id target)
      (Contract.either (fun _ g _ => target = .processing → Deeds.Holds id g) anyhow) := by
  refine Contract.triple_leavePending (fun g w row _ hrow hs => ?_)
    fun g w _ _ => quiet_anyhow g ⟨w, w⟩ trivial rfl
  refine ⟨racing_withSubmission (fun _ => rfl) (fun _ => rfl) hrow (.inl hs), fun w' _ ht => ?_⟩
  subst ht
  refine Deeds.holds_concat.2 (.inl ⟨?_, ?_⟩)
  · exact (World.status?_of_get? hrow).trans (congrArg some hs)
  · exact World.status?_of_get? (World.get?_withSubmission_self
      (fun row => row.movedOn .processing w.now) (fun _ => rfl) hrow)

/-- A run that has taken its submission. -/
theorem keeps_runTaken (hid : row.id = id) (run : Nat) (steps : List Step) :
    racing.Triple (held id)
      (match checkDense steps with
        | .error e => do
          let message := s!"Pipeline configuration error: {e.message}"
          let _ ← Runner.finish id .failed (some message)
          Job.fail (.pipelineConfiguration message)
        | .ok ordered => do
          match ← Job.outcome (r.runAllSteps row run ordered) with
          | .ok final => return final
          | .error failure => Runner.breakOff id failure) fun _ => anyhow := by
  cases checkDense steps with
  | error e =>
    exact Contract.triple_bind (ends_finish rfl _)
      (fun _ => Contract.triple_fail fun _ _ _ => trivial) fun _ _ _ _ => trivial
  | ok ordered =>
    refine Contract.triple_bind (Contract.triple_outcome (ends_runAllSteps hid run ordered))
      (fun outcome => ?_) fun _ _ _ _ => trivial
    cases outcome with
    | ok final => exact Contract.triple_pure fun _ _ _ => trivial
    | error failure =>
      exact (keeps_breakOff id failure).mono (fun _ _ h => h) fun _ _ _ _ => trivial

theorem keeps_runClaimed (id : Int) (run : Nat) :
    racing.Keeps anyhow (r.runClaimed id run) := by
  have left (e : Failure) (g : Deeds) (w : World) (_ : anyhow g w) : anyhow g w := trivial
  unfold Runner.runClaimed
  refine Contract.triple_bind (R := Contract.either (fun row _ _ => row.id = id) anyhow)
    (Contract.triple_read fun g w _ => ?_) (fun row => ?_) left
  · refine (quiet_anyhow g ⟨w, w⟩ trivial rfl).mono fun w' _ => ?_
    cases hrow : w.store.submission id with
    | ok row => exact Table.id_of_get? (Store.submission_eq_ok.1 hrow).2
    | error e => trivial
  · refine Contract.Triple.of_fact (fun _ _ h => h) fun hid => ?_
    refine Contract.Triple.mono (P := anyhow) ?_ (fun _ _ _ => trivial) fun _ _ _ h => h
    refine Contract.triple_refuse (fun _ _ _ _ => trivial) fun _ => ?_
    refine Contract.keeps_bind (quiet_anyhow.keeps_read _) fun steps => ?_
    refine Contract.triple_ite (fun _ => ?_) fun _ => ?_
    · refine Contract.keeps_bind (Contract.keeps_ofCauses _) fun target => ?_
      exact Contract.triple_bind (keeps_leavePending id target)
        (fun _ => (quiet_anyhow.keeps_read _).mono (fun _ _ _ => trivial) fun _ _ _ h => h) left
    · refine Contract.triple_bind (R := fun res _ _ => ∀ target, res = .ok target →
        target = .processing) (Contract.triple_ofCauses ?_ ?_) (fun target => ?_)
        fun _ _ _ _ => trivial
      · rintro reached hreached g w - target ⟨⟩
        exact Outline.eq_of_transition hreached
      · exact fun _ _ _ _ _ _ h => nomatch h
      · refine Contract.Triple.of_fact (fun _ _ h => h target rfl) ?_
        rintro rfl
        exact Contract.triple_bind ((keeps_leavePending id .processing).mono
          (fun _ _ _ => trivial) fun _ _ _ h => h)
          (fun _ => (keeps_runTaken hid run steps).mono (fun _ _ h => h rfl) fun _ _ _ h => h) left

/-- **A run.**  Whatever is deleted around it, a run keeps to the contract. -/
theorem keeps_run (id : Int) : racing.Keeps anyhow (r.run id) := by
  unfold Runner.run
  refine Contract.keeps_bind ((Contract.triple_claimSlot quiet_anyhow).mono (fun _ _ h => h)
    fun _ _ _ h => h.1) fun number => ?_
  exact Contract.triple_andFinally (keeps_runClaimed id number) fun _ =>
    Contract.triple_freeSlot quiet_anyhow

end

/-! ## §7. The agreement. -/

/-- The submission is held by whoever has taken it, and its outputs do not stay without it. -/
structure Kept (id : Int) (log : List Entry) (w : World) : Prop where
  held : ∀ i, Deeds.Holds id (deedsOf i log) → w.status? id = some .processing
  single : ∀ i j, Deeds.Holds id (deedsOf i log) → Deeds.Holds id (deedsOf j log) → i = j
  owned : ∀ o ∈ w.store.outputs, o.submissionId = id → Present id w

/-- What the log and the world have in common. -/
structure Intact (log : List Entry) (w : World) : Prop where
  distinct : (w.store.submissions.map HasId.id).Nodup
  /-- A submission that is being processed, and once was not, has been taken since. -/
  since : ∀ id, w.status? id = some .processing → ∀ earlier e later, log = earlier ++ e :: later →
    e.deed.before.status? id = some .processing ∨ ∃ take ∈ e :: later, take.deed.takes id
  kept : ∀ id, Spared id log → Kept id log w

variable {log : List Entry} {i : Nat}

theorem spared_of_concat {e : Entry} (h : Spared id (log ++ [e])) : Spared id log :=
  fun x hx => h x (List.mem_append_left _ hx)

/-- What holds the submission after a statement held it before, or has just taken it. -/
theorem kept_concat (h : Spared id log → Kept id log w) (hd : Racing (deedsOf i log) ⟨w, w'⟩)
    (hspared : Spared id (log ++ [⟨i, ⟨w, w'⟩⟩])) : Kept id (log ++ [⟨i, ⟨w, w'⟩⟩]) w' := by
  obtain ⟨hheld, hsingle, howned⟩ := h (spared_of_concat hspared)
  have hcut : ¬Deed.cutsOff id ⟨w, w'⟩ := hspared ⟨i, ⟨w, w'⟩⟩ (by simp)
  -- Nobody but the holder ends the processing.
  have hstays (j : Nat) (hj : Deeds.Holds id (deedsOf j log))
      (hstay : j ≠ i ∨ ¬Deed.leaves id ⟨w, w'⟩) : w'.status? id = some .processing := by
    by_contra hne
    have hleaves : Deed.leaves id ⟨w, w'⟩ := ⟨hheld j hj, hne⟩
    have hi := hd.left id hleaves fun hgone => hcut ⟨hheld j hj, hgone⟩
    exact hstay.elim (fun hji => hji (hsingle j i hj hi)) fun hnot => hnot hleaves
  have hholds (j : Nat) (hj : Deeds.Holds id (deedsOf j (log ++ [⟨i, ⟨w, w'⟩⟩]))) :
      (j = i ∧ Deed.takes id ⟨w, w'⟩) ∨ Deeds.Holds id (deedsOf j log) ∧
        (j ≠ i ∨ ¬Deed.leaves id ⟨w, w'⟩) := by
    rcases eq_or_ne j i with rfl | hji
    · rw [deedsOf_concat_self, Deeds.holds_concat] at hj
      exact hj.imp (⟨rfl, ·⟩) fun hj => ⟨hj.1, .inr hj.2⟩
    · rw [deedsOf_concat_of_ne hji] at hj
      exact .inr ⟨hj, .inl hji⟩
  have hfree (j : Nat) (ht : Deed.takes id ⟨w, w'⟩) : ¬Deeds.Holds id (deedsOf j log) := by
    intro hj
    cases ht.1.symm.trans (hheld j hj)
  refine ⟨fun j hj => ?_, fun j k hj hk => ?_, fun o ho hid => ?_⟩
  · rcases hholds j hj with ⟨-, ht⟩ | ⟨hj, hstay⟩
    · exact ht.2
    · exact hstays j hj hstay
  · rcases hholds j hj with ⟨rfl, ht⟩ | ⟨hj', -⟩ <;> rcases hholds k hk with ⟨rfl, ht'⟩ | ⟨hk', -⟩
    · rfl
    · exact absurd hk' (hfree k ht)
    · exact absurd hj' (hfree j ht')
    · exact hsingle j k hj' hk'
  · rcases hd.outputs with ⟨hsub, new, hout, hnew⟩ | hout
    · refine Exclusive.present_of_submissions_eq hsub ?_
      rw [show w'.store.outputs = w.store.outputs ++ [new] from hout] at ho
      rcases List.mem_append.1 ho with ho | ho
      · exact howned o ho hid
      · -- The new output belongs to the submission that is held.
        rw [List.mem_singleton.1 ho] at hid
        obtain ⟨row, hrow, -⟩ := World.status?_eq_some.1 (hheld i (hid ▸ hnew))
        exact ⟨row, hrow⟩
    · obtain ⟨ho, hpresent⟩ := hout o ho
      exact hid ▸ hpresent (hid.symm ▸ howned o ho hid)

theorem intact_concat (h : Intact log w) (hd : Racing (deedsOf i log) ⟨w, w'⟩) :
    Intact (log ++ [⟨i, ⟨w, w'⟩⟩]) w' where
  distinct := hd.declines.distinct h.distinct
  since := by
    intro id hs earlier e later hlog
    rcases last_or_before hlog with ⟨rfl, -, rfl⟩ | ⟨init, rfl, hbefore⟩
    · exact (hd.taken id hs).imp_right fun ht => ⟨_, List.mem_singleton_self _, ht⟩
    · rcases hd.taken id hs with hs | ht
      · refine (h.since id hs earlier e init hbefore).imp_right ?_
        rintro ⟨take, hmem, ht⟩
        exact ⟨take, List.mem_append_left [_] hmem, ht⟩
      · exact .inr ⟨⟨i, ⟨w, w'⟩⟩, by simp, ht⟩
  kept := fun id => kept_concat (h.kept id) hd

theorem intact_of_store_eq (h : Intact log w) (hw : w'.store = w.store) : Intact log w' := by
  have hstatus := World.status?_of_submissions_eq (congrArg Store.submissions hw)
  refine ⟨?_, fun id hs => h.since id (hstatus id ▸ hs), fun id hspared => ?_⟩
  · rw [hw]
    exact h.distinct
  · obtain ⟨hheld, hsingle, howned⟩ := h.kept id hspared
    refine ⟨fun i hi => (hstatus id).trans (hheld i hi), hsingle, fun o ho hid => ?_⟩
    rw [hw] at ho
    exact Exclusive.present_of_submissions_eq (congrArg Store.submissions hw) (howned o ho hid)

theorem intact_nil (hd : (w.store.submissions.map HasId.id).Nodup)
    (howned : ∀ o ∈ w.store.outputs, Present o.submissionId w) : Intact [] w where
  distinct := hd
  since := fun _ _ _ _ _ h => by simp at h
  kept := fun id _ =>
    ⟨fun _ hi => absurd hi (Deeds.not_holds_nil id), fun _ _ hi => absurd hi (Deeds.not_holds_nil id),
      fun o ho hid => hid ▸ howned o ho⟩

/-- **The agreement** of runs and deletions. -/
def race : Agreement deletions racing where
  ends := fun _ _ _ _ => True
  inv := Intact
  calm_refl := fun _ w => .of_submissions_eq rfl
  calm_trans := fun _ _ _ _ h h' => h.trans h'
  pause_trans := fun _ _ _ _ h h' => h.trans h'
  pause_of_calm := fun _ _ _ h => h
  calm_of_pause := fun _ _ _ _ h => h
  ends_of_pause := fun _ _ _ _ _ _ _ => trivial
  begins := by
    intro task log w w' hbegins h hw
    cases task with
    | run r id =>
      exact (Contract.meets_bind ..).2
        (Contract.Meets.mono (fun _ _ _ _ => trivial) _ [] w' (keeps_run id [] w' trivial))
    | request r q =>
      obtain ⟨action, hasks, hdeletes⟩ := hbegins
      exact (Contract.meets_bind ..).2 (Contract.Meets.mono (fun _ _ _ _ => trivial) _ [] w'
        (meets_request r hasks hdeletes [] w' (hw.distinct h.distinct)))
    | newAttempt | rerun | cancel => exact hbegins.elim
  statement := fun _ _ _ _ h hd => ⟨intact_concat h hd, fun _ _ => hd.declines⟩
  drift := fun _ _ _ h hw => ⟨intact_of_store_eq h hw, fun _ =>
    .of_submissions_eq (congrArg Store.submissions hw)⟩

end Deletions

/-! ## §8. The result. -/

/-- A submission of a form that is there before anything has been done about it. -/
theorem Deletions.accepted_sound :
    (Aftermath.oneStepWorld.store.submissions.map HasId.id).Nodup ∧
      ∀ o ∈ Aftermath.oneStepWorld.store.outputs, Present o.submissionId Aftermath.oneStepWorld :=
  ⟨by decide, fun _ ho => absurd ho List.not_mem_nil⟩

/-- A request has found that the submission is pending.  Before it deletes the submission, a run in
another process takes it; the reply comes afterwards. -/
def Deletions.overtaken : Scene :=
  let looked := (Attempts.accepted.begin (.request (Attempts.runner 0)
    (Served.sending "DELETE" "/api/submissions/1" ""))).follow [0]
  let taken := (looked.begin (.run (Attempts.runner 1) 1)).follow (List.replicate 5 1)
  ((taken.follow [0]).tell 1 (.replied { text := .str "one" } .nan)).follow (List.replicate 3 1)

theorem Deletions.begins_run (process : Nat) :
    deletions.begins (.run (Attempts.runner process) 1) := trivial

theorem Deletions.begins_delete : deletions.begins (.request (Attempts.runner 0)
    (Served.sending "DELETE" "/api/submissions/1" "")) :=
  ⟨.deleteSubmission 1, ⟨.deleteSubmission "1", by decide +kernel, rfl⟩, trivial⟩

theorem Deletions.reaches_overtaken :
    Scene.Reaches deletions Attempts.accepted Deletions.overtaken := by
  have hstart : Scene.Reaches deletions Attempts.accepted Attempts.accepted := .refl
  have hlooked := (hstart.begin trivial begins_delete).follow trivial [0]
  have htaken := (hlooked.begin trivial (begins_run 1)).follow trivial (List.replicate 5 1)
  exact ((htaken.follow trivial [0]).tell trivial 1 _).follow trivial (List.replicate 3 1)

/-- No kind of change deletes a submission that is being processed. -/
theorem Change.keeps_processing {s s' : Store} (hs : Change s s') {id : Int} {row : SubmissionRow}
    (hrow : s.submissions.get? id = some row) (hp : row.status = .processing) :
    ∃ row', s'.submissions.get? id = some row' := by
  have hmem := Table.mem_of_get? hrow
  have hid : HasId.id row = id := Table.id_of_get? hrow
  have changed (other : Int) {change : SubmissionRow → SubmissionRow}
      (hc : ∀ row, (change row).id = row.id) :
      ∃ row', (s.submissions.replace other change).get? id = some row' := by
    have hids : id ∈ (s.submissions.replace other change).map HasId.id := by
      rw [Table.map_id_replace hc, ← hid]
      exact List.mem_map_of_mem hmem
    exact Table.exists_get? (List.mem_map.1 hids)
  cases hs with
  | formCreated draft token now hread hids hinsert =>
    cases Store.eq_of_insertForm hinsert
    exact ⟨row, hrow⟩
  | pipelineCreated form draft now hread hbears hnone hinsert =>
    cases Store.eq_of_insertPipeline hinsert
    exact ⟨row, hrow⟩
  | outputStored _ result now hinsert =>
    cases Store.eq_of_insertOutput hinsert
    exact ⟨row, hrow⟩
  | submitted token data sender now hform hactive hfields hvalues hinsert =>
    cases Store.eq_of_insertSubmission hinsert
    exact Table.exists_get? ⟨row, Table.mem_insert.2 (.inr hmem), hid⟩
  | formDeleted form hidle =>
    refine Table.exists_get? ⟨row, Table.mem_remove.2 ⟨hmem, beq_eq_false_iff_ne.2 fun hform => ?_⟩, hid⟩
    exact Store.processingOf?_eq_none.1 hidle row hmem hform hp
  | submissionDeleted other hother hidle =>
    refine Table.exists_get? ⟨row, Table.mem_remove.2 ⟨hmem, beq_eq_false_iff_ne.2 fun he => ?_⟩, hid⟩
    have hsame := hother
    rw [← show row.id = other from he, show row.id = id from hid, hrow] at hsame
    exact hidle (Option.some.inj hsame ▸ hp)
  | moved other | settled other | misnumbered other | restarted other =>
    exact changed other fun _ => rfl
  | kept | formUpdated | pipelineReplaced | pipelineDeleted => exact ⟨row, hrow⟩

/-- **By turns.**  Where tasks take turns, no submission is deleted while it is being processed, and
no output is left without its submission. -/
theorem spared_of_turns {start : World} {s : Scene} (hempty : start.store = {})
    (hs : Scene.Reaches history { world := start } s) :
    (∀ e ∈ s.log, ∀ id, ¬e.deed.cutsOff id) ∧
      ∀ o ∈ s.world.store.outputs, Present o.submissionId s.world := by
  refine ⟨fun e he id hcut => ?_, fun o ho => ?_⟩
  · obtain ⟨row, hrow, hp⟩ := World.status?_eq_some.1 hcut.1
    obtain ⟨row', hrow'⟩ := (change_of_reaches hs e he).keeps_processing hrow hp
    cases (World.status?_of_get? hrow').symm.trans hcut.2
  · exact Table.exists_get? (List.mem_map.1 ((linked_of_reaches hempty hs).owned o ho))

end PromptForms
