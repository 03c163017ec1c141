/-
  PromptForms.Proofs.Overlooking
  ──────────────────────────────
  **RUNS OVERLOOK FORMS.**

  A submission is stored with the fields that its form had when it was accepted.  Every
  statement of a run then does the same whatever the forms have become, and so does the
  run.  Two histories of a submission, one with changes of forms at any moments and one
  without, differ in nothing but the forms.

      World.withForms       the same world with other forms
      Job.Overlooks         a job that does the same whatever the forms are
      Script, Edit, Turn    what answers, what is changed, and what is done
      Script.play           turn after turn, with changes after every statement

  Main results:
    • overlooks_run, overlooks_newAttempt, overlooks_rerun
    • play_withForms        the two histories, by induction on the turns
    • edits_never_matter    the two histories of a submission that has just been accepted
-/
import PromptForms.Proofs.Confined
import PromptForms.Service.Submissions

namespace PromptForms

/-! ## §1. Forms and the rest of the world. -/

namespace World

/-- The world with other forms. -/
def withForms (w : World) (forms : Table FormRow) : World :=
  { w with store := { w.store with forms } }

@[simp] theorem submissions_withForms (w : World) (forms : Table FormRow) :
    (w.withForms forms).store.submissions = w.store.submissions := rfl

end World

/-- The submission is there with fields of its own. -/
def HasFields (id : Int) (s : Store) : Prop :=
  ∃ row, s.submissions.get? id = some row ∧ row.fieldSnapshot ≠ .null

/-- Fields that are stored with a submission are all that is ever looked for. -/
theorem storedFields_ne_none {row : SubmissionRow} (h : row.fieldSnapshot ≠ .null) :
    row.storedFields ≠ .ok none := by
  unfold SubmissionRow.storedFields
  split
  · rename_i hnull
    exact absurd hnull h
  · cases checkElements Field.check row.fieldSnapshot with
    | ok fields => exact fun h => nomatch h
    | error e => exact fun h => nomatch h

/-! ## §2. Plans that overlook forms. -/

variable {α β : Type} {I : Store → Prop}

/-- The plan goes on in the same way whatever the forms are, changes the rest of the world in the
same way and leaves them alone; all this as long as the store has the property `I`, which it does
not lose. -/
def Plan.Overlooks (I : Store → Prop) (Q : α → Prop) : Plan α → Prop
  | .done a => Q a
  | .act _ update next => ∀ w : World, I w.store →
    I (update w).store ∧ Overlooks I Q (next w) ∧ ∀ forms,
      update (w.withForms forms) = (update w).withForms forms ∧ next (w.withForms forms) = next w
  | .generate _ next => ∀ outcome, Overlooks I Q (next outcome)

theorem Plan.Overlooks.mono {Q Q' : α → Prop} {t : Plan α} (h : t.Overlooks I Q)
    (hQ : ∀ a, Q a → Q' a) : t.Overlooks I Q' := by
  induction t with
  | done a => exact hQ a h
  | act access update next ih =>
    intro w hw
    obtain ⟨hI, hnext, hsame⟩ := h w hw
    exact ⟨hI, ih w hnext, hsame⟩
  | generate request next ih => exact fun outcome => ih outcome (h outcome)

theorem Plan.overlooks_bind {R : β → Prop} {Q : α → Prop} {t : Plan β} {f : β → Plan α}
    (ht : t.Overlooks I R) (hf : ∀ b, R b → (f b).Overlooks I Q) : (t.bind f).Overlooks I Q := by
  induction t with
  | done b => exact hf b ht
  | act access update next ih =>
    intro w hw
    obtain ⟨hI, hnext, hsame⟩ := ht w hw
    refine ⟨hI, ih w hnext, fun forms => ⟨(hsame forms).1, ?_⟩⟩
    show (next (w.withForms forms)).bind f = (next w).bind f
    rw [(hsame forms).2]
  | generate request next ih => exact fun outcome => ih outcome (ht outcome)

/-- The job overlooks forms; what it ends with. -/
def Job.Overlooks (I : Store → Prop) (j : Job α) (Q : Except Failure α → Prop) : Prop :=
  Plan.Overlooks I Q j.run

theorem Job.jobLogic_overlooks (I : Store → Prop) : JobLogic (Job.Overlooks I) where
  mono := fun h hQ => Plan.Overlooks.mono h hQ
  ofExcept := fun h => h
  bind := by
    intro α β j f R Q hj hf he
    apply Plan.overlooks_bind hj
    rintro (e | b) hR
    · exact he e hR
    · exact hf b hR
  outcome := by
    intro α j Q hj
    apply Plan.overlooks_bind hj
    exact fun found hfound => ⟨found, rfl, hfound⟩
  request := fun _ outcome => ⟨outcome, rfl⟩

namespace Overlooking

open Job

/-- Going on after a job whatever it ends with. -/
theorem overlooks_bind {j : Job β} {f : β → Job α} (hj : Job.Overlooks I j fun _ => True)
    (hf : ∀ b, Job.Overlooks I (f b) fun _ => True) : Job.Overlooks I (j >>= f) fun _ => True :=
  (Job.jobLogic_overlooks I).bind hj (fun b _ => hf b) fun _ _ => trivial

theorem overlooks_andFinally {j : Job α} {cleanup : Job Unit} (hj : Job.Overlooks I j fun _ => True)
    (hcleanup : Job.Overlooks I cleanup fun _ => True) :
    Job.Overlooks I (j.andFinally cleanup) fun _ => True := by
  apply Plan.overlooks_bind hj
  intro res _
  exact Plan.overlooks_bind hcleanup fun _ _ => trivial

/-! ## §3. Statements that overlook forms. -/

theorem overlooks_statementOn {access : Access} {f : World → Except Failure (α × World)}
    (hI : ∀ w a w', I w.store → f w = .ok (a, w') → I w'.store)
    (hf : ∀ w forms, f (w.withForms forms) = (f w).map fun p => (p.1, p.2.withForms forms)) :
    Job.Overlooks I (Job.statementOn access f) fun _ => True := by
  intro w hw
  refine ⟨?_, trivial, fun forms => ⟨?_, ?_⟩⟩
  · dsimp only
    split
    · rename_i a w' h
      exact hI w a w' hw h
    · exact hw
  · dsimp only
    rw [hf]
    cases f w <;> rfl
  · dsimp only
    rw [hf]
    cases f w <;> rfl

theorem overlooks_statement {f : World → Except Failure (α × World)}
    (hI : ∀ w a w', I w.store → f w = .ok (a, w') → I w'.store)
    (hf : ∀ w forms, f (w.withForms forms) = (f w).map fun p => (p.1, p.2.withForms forms)) :
    Job.Overlooks I (Job.statement f) fun _ => True := overlooks_statementOn hI hf

/-- A statement that keeps the store. -/
theorem overlooks_inMemory {f : World → Except Failure (α × World)}
    (hI : ∀ w a w', f w = .ok (a, w') → w'.store = w.store)
    (hf : ∀ w forms, f (w.withForms forms) = (f w).map fun p => (p.1, p.2.withForms forms)) :
    Job.Overlooks I (Job.inMemory f) fun _ => True :=
  overlooks_statementOn (fun w a w' hw h => by rw [hI w a w' h]; exact hw) hf

theorem overlooks_read {f : World → Except Failure α} {Q : Except Failure α → Prop}
    (hQ : ∀ w, I w.store → Q (f w)) (hf : ∀ w forms, f (w.withForms forms) = f w) :
    Job.Overlooks I (Job.read f) Q := by
  intro w hw
  refine ⟨hw, hQ w hw, fun forms => ⟨rfl, ?_⟩⟩
  dsimp only
  rw [hf]

theorem overlooks_readMemory {f : World → α} (hf : ∀ w forms, f (w.withForms forms) = f w) :
    Job.Overlooks I (Job.readMemory f) fun res => ∃ a, res = .ok a := by
  intro w hw
  refine ⟨hw, ⟨f w, rfl⟩, fun forms => ⟨rfl, ?_⟩⟩
  dsimp only
  rw [hf]

variable {r : Runner} {id other : Int}

theorem overlooks_reload :
    Job.Overlooks (HasFields id) (Runner.reload id) fun res =>
      ∀ row, res = .ok row → row.fieldSnapshot ≠ .null := by
  apply overlooks_read
  · rintro w ⟨known, hknown, hfields⟩ row hrow
    rw [(Store.submission_eq_ok.1 hrow).2] at hknown
    cases hknown
    exact hfields
  · exact fun _ _ => rfl

theorem overlooks_reload_any :
    Job.Overlooks I (Runner.reload other) (FailsOnly fun _ => True) :=
  overlooks_read (fun _ _ _ _ => trivial) fun _ _ => rfl

/-- A change of a submission that leaves it its fields. -/
theorem overlooks_compareAndSet {expected : List Status}
    {change : Calendar.Instant → SubmissionRow → SubmissionRow}
    (hid : ∀ now row, (change now row).id = row.id)
    (hfields : ∀ now row, (change now row).fieldSnapshot = row.fieldSnapshot) :
    Job.Overlooks (HasFields id) (Runner.compareAndSet other expected change) fun _ => True := by
  apply overlooks_statement
  · rintro w moved w' ⟨row, hrow, hsnapshot⟩ hw
    cases hw
    show HasFields id (w.store.compareAndSet other expected (change w.now)).2
    unfold Store.compareAndSet
    split
    · split
      · rename_i target htarget _
        refine ⟨if id = other then change w.now row else row, ?_, ?_⟩
        · show (w.store.submissions.replace other (change w.now)).get? id = _
          rw [Table.get?_replace (hid w.now)]
          split
          · rename_i hsame
            rw [← hsame, hrow]
            rfl
          · exact hrow
        · split
          · rw [hfields]
            exact hsnapshot
          · exact hsnapshot
      · exact ⟨row, hrow, hsnapshot⟩
    · exact ⟨row, hrow, hsnapshot⟩
  · intro w forms
    dsimp only
    unfold Store.compareAndSet
    simp only [World.submissions_withForms]
    split
    · split <;> rfl
    · rfl

theorem overlooks_finish (other : Int) (target : Status) (message : Option String) :
    Job.Overlooks (HasFields id) (Runner.finish other target message) fun _ => True := by
  unfold Runner.finish
  apply overlooks_bind (overlooks_compareAndSet (by intros; rfl) (by intros; rfl))
  exact fun _ => (Job.jobLogic_overlooks _).mono overlooks_reload_any fun _ _ => trivial

theorem overlooks_leavePending (target : Status) :
    Job.Overlooks (HasFields id) (Runner.leavePending other target) fun _ => True := by
  have logic := Job.jobLogic_overlooks (HasFields id)
  unfold Runner.leavePending
  apply overlooks_bind (overlooks_compareAndSet (by intros; rfl) (by intros; rfl))
  exact fun moved => logic.ite (logic.throw trivial) (logic.pure trivial)

/-- What a statement does if an outage, a number that does not fit or another row can stop it. -/
theorem overlooks_storeOutput (row : SubmissionRow) (result : StepResult) :
    Job.Overlooks (HasFields id) (Runner.storeOutput row result) fun _ => True := by
  apply overlooks_statement
  · intro w a w' hw h
    simp only [bind, Except.bind] at h
    split at h
    · cases h
    · split at h
      · cases h
      · split at h
        · cases h
        · split at h
          · rename_i store hinsert
            cases h
            cases Store.eq_of_insertOutput hinsert
            exact hw
          · cases h
  · intro w forms
    have same : (w.withForms forms).store.insertOutput
          (Runner.outputRow row result (w.withForms forms).store.outputs.nextId
            (w.withForms forms).now) =
        (w.store.insertOutput (Runner.outputRow row result w.store.outputs.nextId w.now)).map
          fun s => { s with forms } := by
      unfold Store.insertOutput
      rw [apply_ite (Option.map _)]
      rfl
    rw [same, show (w.withForms forms).checkOutage = w.checkOutage from rfl]
    cases w.checkOutage with
    | error e => rfl
    | ok _ =>
      cases Store.checkFits (result.tokenCount.getD 0) with
      | error e => rfl
      | ok _ =>
        cases Store.checkFits result.duration with
        | error e => rfl
        | ok _ =>
          cases w.store.insertOutput (Runner.outputRow row result w.store.outputs.nextId w.now) with
          | none => rfl
          | some store => rfl

/-- A run that executes steps overlooks forms, if it is given the fields. -/
theorem confines : Confines (Job.Overlooks (HasFields id)) fun _ => True where
  toJobLogic := Job.jobLogic_overlooks _
  foreign := fun _ _ => trivial
  step := fun _ _ => trivial
  isCancelled := fun _ _ => overlooks_readMemory fun _ _ => rfl
  finish := fun other target message _ =>
    (Job.jobLogic_overlooks _).mono (overlooks_finish other target message) fun _ _ _ _ => trivial
  storeOutput := fun row result =>
    (Job.jobLogic_overlooks _).mono (overlooks_storeOutput row result) fun _ _ _ _ => trivial
  reload := fun _ => overlooks_reload_any

/-! ## §4. Runs that overlook forms. -/

/-- The fields of the submission itself: the form is not looked at. -/
theorem overlooks_fieldsFor {row : SubmissionRow} (hfields : row.fieldSnapshot ≠ .null) :
    Job.Overlooks I (Runner.fieldsFor row) (FailsOnly fun _ => True) := by
  unfold Runner.fieldsFor
  have logic := Job.jobLogic_overlooks I
  apply logic.bind (R := fun res => res ≠ .ok none) (logic.ofExcept (storedFields_ne_none hfields))
  · intro stored hstored
    cases stored with
    | some fields => exact logic.pure (failsOnly_ok fields)
    | none => exact absurd rfl hstored
  · exact fun _ _ => failsOnly_error trivial

theorem overlooks_ofCauses (x : Except Cause α) :
    Job.Overlooks I (Job.ofCauses x) fun _ => True := by
  cases x with
  | ok a => exact trivial
  | error c => exact trivial

theorem overlooks_steps {row : SubmissionRow} (hfields : row.fieldSnapshot ≠ .null) (r : Runner)
    (run : Nat) (steps : List Step) :
    Job.Overlooks (HasFields id) (match checkDense steps with
      | .error e => do
        let message := s!"Pipeline configuration error: {e.message}"
        let _ ← Runner.finish id .failed (some message)
        Job.fail (.pipelineConfiguration message)
      | .ok ordered => do
        match ← Job.outcome (r.runAllSteps row run ordered) with
        | .ok final => return final
        | .error failure => Runner.breakOff id failure) fun _ => True := by
  have logic := Job.jobLogic_overlooks (HasFields id)
  cases checkDense steps with
  | error e =>
    exact overlooks_bind (overlooks_finish id _ _) fun _ => logic.throw trivial
  | ok ordered =>
    exact logic.mono (confines.runOrdered (overlooks_fieldsFor hfields) run ordered)
      fun _ _ => trivial

theorem overlooks_runClaimed (r : Runner) (run : Nat) :
    Job.Overlooks (HasFields id) (r.runClaimed id run) fun _ => True := by
  have logic := Job.jobLogic_overlooks (HasFields id)
  unfold Runner.runClaimed
  apply logic.bind overlooks_reload _ fun _ _ => trivial
  intro row hrow
  apply logic.refuse trivial
  apply overlooks_bind (overlooks_read (fun _ _ => trivial) fun _ _ => rfl)
  intro steps
  apply logic.ite
  · apply overlooks_bind (overlooks_ofCauses _)
    intro target
    apply overlooks_bind (overlooks_leavePending target)
    exact fun _ => logic.mono overlooks_reload fun _ _ => trivial
  · apply overlooks_bind (overlooks_ofCauses _)
    intro target
    apply overlooks_bind (overlooks_leavePending target)
    exact fun _ => overlooks_steps (hrow row rfl) r run steps

/-- **A run** of a submission with fields of its own overlooks forms. -/
theorem overlooks_run (r : Runner) : Job.Overlooks (HasFields id) (r.run id) fun _ => True := by
  unfold Runner.run
  apply overlooks_bind
  · apply overlooks_inMemory
    · intro w number w' h
      split at h <;> cases h
      rfl
    · intro w forms
      have hregistries : (w.withForms forms).registries = w.registries := rfl
      simp only [hregistries]
      cases (w.registries r.process).start id <;> rfl
  · intro number
    apply overlooks_andFinally (overlooks_runClaimed r number)
    apply overlooks_inMemory
    · intro w number w' h
      cases h
      rfl
    · exact fun _ _ => rfl

/-- A new attempt of any submission overlooks forms. -/
theorem overlooks_newAttempt (r : Runner) :
    Job.Overlooks (HasFields id) (r.newAttempt other) fun _ => True := by
  have logic := Job.jobLogic_overlooks (HasFields id)
  unfold Runner.newAttempt
  apply logic.surely_bind (overlooks_readMemory fun _ _ => rfl)
  intro active
  apply logic.refuse trivial
  apply overlooks_bind (logic.mono overlooks_reload_any fun _ _ => trivial)
  intro row
  apply logic.refuse trivial
  apply overlooks_bind (overlooks_ofCauses _)
  intro target
  apply overlooks_bind (overlooks_compareAndSet (by intros; rfl) (by intros; rfl))
  intro moved
  apply logic.refuse trivial
  exact logic.mono overlooks_reload_any fun _ _ => trivial

theorem overlooks_rerun (r : Runner) : Job.Overlooks (HasFields id) (r.rerun id) fun _ => True :=
  overlooks_bind (overlooks_newAttempt r) fun _ => overlooks_run r

end Overlooking

/-! ## §5. Turns and changes of forms. -/

/-- Nobody replies, and nothing else happens. -/
def Plan.Surroundings.deserted : Plan.Surroundings Unit where
  answer _ w s := (.timedOut, w, s)
  react _ after s := (after, s)

/-- A job that sends no requests, by itself. -/
def Job.alone (j : Job α) (w : World) : Except Failure α × World :=
  let (res, w', _) := Plan.run .deserted j.run w ()
  (res, w')

namespace Job

theorem alone_bind (j : Job β) (f : β → Job α) (w : World) :
    (j >>= f).alone w = match j.alone w with
      | (.ok b, w') => (f b).alone w'
      | (.error e, w') => (.error e, w') := by
  show (let (res, w', _) := Plan.run .deserted (Plan.bind j.run (ExceptT.bindCont f)) w ()
    (res, w')) = match (let (res, w', _) := Plan.run .deserted j.run w (); (res, w')) with
      | (.ok b, w') => (f b).alone w'
      | (.error e, w') => (.error e, w')
  rw [Plan.run_bind]
  obtain ⟨res, w', _⟩ := Plan.run .deserted j.run w ()
  cases res <;> rfl

/-- A job succeeds after another one that has succeeded. -/
theorem exists_of_alone_bind {j : Job β} {f : β → Job α} {w w'' : World} {a : α}
    (h : (j >>= f).alone w = (.ok a, w'')) :
    ∃ b w', j.alone w = (.ok b, w') ∧ (f b).alone w' = (.ok a, w'') := by
  rw [alone_bind] at h
  split at h
  · rename_i b w' hj
    exact ⟨b, w', hj, h⟩
  · cases h

theorem alone_ofExcept (e : Except Failure α) (w : World) : (Job.ofExcept e).alone w = (e, w) := rfl

theorem alone_read (f : World → Except Failure α) (w : World) :
    (Job.read f).alone w = (f w, w) := rfl

theorem alone_statement (f : World → Except Failure (α × World)) (w : World) :
    (Job.statement f).alone w = match f w with
      | .ok (a, w') => (.ok a, w')
      | .error e => (.error e, w) := by
  show ((f w).map (·.1), match f w with
    | .ok (_, w') => w'
    | .error _ => w) = _
  cases f w <;> rfl

end Job

/-- A change of a form. -/
structure Edit where
  form : Int
  patch : FormPatch

/-- The world after changes of forms, one after the other; some may be refused. -/
def World.edited (w : World) (edits : List Edit) : World :=
  edits.foldl (fun w edit => ((Forms.update edit.form edit.patch).alone w).2) w

/-- What answers the requests of runs, given those that were sent before. -/
structure Script where
  answer : (earlier : List Request) → Request → Outcome
  /-- What the clock shows when the request has ended. -/
  clock : (earlier : List Request) → Request → Calendar.Instant

/-- What is done with a submission. -/
inductive Turn where
  | run (r : Runner)
  | newAttempt (r : Runner)
  | rerun (r : Runner)

def Turn.job (id : Int) : Turn → Job SubmissionRow
  | .run r => r.run id
  | .newAttempt r => r.newAttempt id
  | .rerun r => r.rerun id

/-- How the turns of a submission went. -/
structure Played where
  results : List (Except Failure SubmissionRow)
  world : World
  sent : List Request

namespace Script

/-- The script answers, and after the `n`th statement or request forms are changed by `edits n`. -/
def surroundings (x : Script) (edits : Nat → List Edit) :
    Plan.Surroundings (Nat × List Request) where
  answer request w s := (x.answer s.2 request,
    World.edited { w with now := x.clock s.2 request } (edits s.1), s.1 + 1, s.2 ++ [request])
  react _ after s := (after.edited (edits s.1), s.1 + 1, s.2)

/-- Turn after turn. -/
def playFrom (x : Script) (edits : Nat → List Edit) (id : Int) :
    List Turn → World → Nat × List Request → Played
  | [], w, s => ⟨[], w, s.2⟩
  | turn :: rest, w, s =>
    let (res, w', s') := Plan.run (x.surroundings edits) (turn.job id).run w s
    let played := x.playFrom edits id rest w' s'
    { played with results := res :: played.results }

/-- Turn after turn, with changes of forms before the first statement and after each one. -/
def play (x : Script) (edits : Nat → List Edit) (id : Int) (turns : List Turn) (w : World) :
    Played := x.playFrom edits id turns (w.edited (edits 0)) (1, [])

end Script

namespace Overlooking

/-- The job changes nothing but forms. -/
def OnlyForms (j : Job α) : Prop := ∀ w, ∃ forms, (j.alone w).2 = w.withForms forms

theorem onlyForms_bind {j : Job β} {f : β → Job α} (hj : OnlyForms j) (hf : ∀ b, OnlyForms (f b)) :
    OnlyForms (j >>= f) := by
  intro w
  rw [Job.alone_bind]
  obtain ⟨forms, hforms⟩ := hj w
  split
  · rename_i b w' h
    rw [h] at hforms
    obtain ⟨forms', hforms'⟩ := hf b w'
    refine ⟨forms', ?_⟩
    rw [hforms', show w' = w.withForms forms from hforms]
    rfl
  · rename_i e w' h
    rw [h] at hforms
    exact ⟨forms, hforms⟩

theorem onlyForms_statement {f : World → Except Failure (α × World)}
    (hf : ∀ w a w', f w = .ok (a, w') → ∃ forms, w' = w.withForms forms) :
    OnlyForms (Job.statement f) := by
  intro w
  rw [Job.alone_statement]
  split
  · rename_i a w' h
    exact hf w a w' h
  · exact ⟨w.store.forms, rfl⟩

theorem onlyForms_update (form : Int) (patch : FormPatch) :
    OnlyForms (Forms.update form patch) := by
  unfold Forms.update
  apply onlyForms_bind (fun w => ⟨w.store.forms, rfl⟩)
  intro row
  apply onlyForms_bind
  · intro w
    refine ⟨w.store.forms, ?_⟩
    cases Forms.checkIds (patch.newFields?.getD []) <;> rfl
  · intro _
    apply onlyForms_statement
    intro w new w' hw
    cases hnew : Forms.patched row patch w.now with
    | ok row =>
      rw [hnew] at hw
      cases hw
      exact ⟨_, rfl⟩
    | error e =>
      rw [hnew] at hw
      cases hw

theorem exists_withForms_edited (edits : List Edit) (w : World) (forms : Table FormRow) :
    ∃ forms', (w.withForms forms).edited edits = w.withForms forms' := by
  induction edits generalizing forms with
  | nil => exact ⟨forms, rfl⟩
  | cons edit rest ih =>
    obtain ⟨changed, h⟩ := onlyForms_update edit.form edit.patch (w.withForms forms)
    obtain ⟨forms', hrest⟩ := ih changed
    refine ⟨forms', ?_⟩
    show (((Forms.update edit.form edit.patch).alone (w.withForms forms)).2).edited rest = _
    rw [h]
    exact hrest

/-! ## §6. Two histories. -/

/-- What two histories of a submission have in common. -/
structure Alike {γ : Type} (I : Store → Prop) (edited plain : γ × World × Nat × List Request) :
    Prop where
  value : edited.1 = plain.1
  world : ∃ forms, edited.2.1 = plain.2.1.withForms forms
  sent : edited.2.2 = plain.2.2
  kept : I plain.2.1.store

/-- **A plan** that overlooks forms runs alike with and without changes of forms. -/
theorem run_alike (x : Script) (edits : Nat → List Edit) {Q : α → Prop} (t : Plan α)
    (ht : t.Overlooks I Q) (w : World) (forms : Table FormRow) (s : Nat × List Request)
    (hw : I w.store) :
    Alike I (t.run (x.surroundings edits) (w.withForms forms) s)
      (t.run (x.surroundings fun _ => []) w s) := by
  induction t generalizing w forms s with
  | done a => exact ⟨rfl, ⟨forms, rfl⟩, rfl, hw⟩
  | act access update next ih =>
    obtain ⟨hI, hnext, hsame⟩ := ht w hw
    obtain ⟨hupdate, hgoes⟩ := hsame forms
    obtain ⟨forms', hforms⟩ := exists_withForms_edited (edits s.1) (update w) forms
    have hafter := ih w hnext (update w) forms' (s.1 + 1, s.2) hI
    show Alike I ((next (w.withForms forms)).run (x.surroundings edits)
      ((update (w.withForms forms)).edited (edits s.1)) (s.1 + 1, s.2)) _
    rw [hupdate, hgoes, hforms]
    exact hafter
  | generate request next ih =>
    let later : World := { w with now := x.clock s.2 request }
    obtain ⟨forms', hforms⟩ := exists_withForms_edited (edits s.1) later forms
    have hafter := ih (x.answer s.2 request) (ht _) later forms' (s.1 + 1, s.2 ++ [request]) hw
    show Alike I ((next (x.answer s.2 request)).run (x.surroundings edits)
      ((later.withForms forms).edited (edits s.1)) (s.1 + 1, s.2 ++ [request])) _
    rw [hforms]
    exact hafter

theorem overlooks_job (id : Int) (turn : Turn) :
    Job.Overlooks (HasFields id) (turn.job id) fun _ => True := by
  cases turn with
  | run r => exact overlooks_run r
  | newAttempt r => exact overlooks_newAttempt r
  | rerun r => exact overlooks_rerun r

/-- **Turn after turn**, with and without changes of forms. -/
theorem playFrom_withForms (x : Script) (edits : Nat → List Edit) {id : Int} (turns : List Turn)
    (w : World) (forms : Table FormRow) (s : Nat × List Request) (hw : HasFields id w.store) :
    let edited := x.playFrom edits id turns (w.withForms forms) s
    let plain := x.playFrom (fun _ => []) id turns w s
    edited.results = plain.results ∧ edited.sent = plain.sent ∧
      ∃ forms', edited.world = plain.world.withForms forms' := by
  induction turns generalizing w forms s with
  | nil => exact ⟨rfl, rfl, forms, rfl⟩
  | cons turn rest ih =>
    obtain ⟨hvalue, ⟨forms', hworld⟩, hsent, hkept⟩ :=
      run_alike x edits _ (overlooks_job id turn) w forms s hw
    let turnEdited := (turn.job id).run.run (x.surroundings edits) (w.withForms forms) s
    let turnPlain := (turn.job id).run.run (x.surroundings fun _ => []) w s
    obtain ⟨hresults, hmore, hlast⟩ := ih turnPlain.2.1 forms' turnPlain.2.2 hkept
    have hrest : x.playFrom edits id rest turnEdited.2.1 turnEdited.2.2 =
        x.playFrom edits id rest (turnPlain.2.1.withForms forms') turnPlain.2.2 := by
      rw [hworld, hsent]
    refine ⟨?_, ?_, ?_⟩
    · show turnEdited.1 :: (x.playFrom edits id rest turnEdited.2.1 turnEdited.2.2).results =
        turnPlain.1 :: (x.playFrom (fun _ => []) id rest turnPlain.2.1 turnPlain.2.2).results
      rw [hrest, hresults, hvalue]
    · show (x.playFrom edits id rest turnEdited.2.1 turnEdited.2.2).sent = _
      rw [hrest]
      exact hmore
    · show ∃ forms', (x.playFrom edits id rest turnEdited.2.1 turnEdited.2.2).world = _
      rw [hrest]
      exact hlast

theorem get?_insertSubmission {s s' : Store} {row : SubmissionRow}
    (hid : row.id = s.submissions.nextId) (h : s.insertSubmission row = some s') :
    s'.submissions.get? row.id = some row := by
  cases Store.eq_of_insertSubmission h
  show Table.get? (Table.insert s.submissions row) row.id = some row
  rw [Table.insert_nextId hid, Table.get?_append_nextId hid]
  exact if_pos rfl

/-- What is stored when a submission is accepted: the values that the fields of its form have read,
and those fields. -/
theorem exists_of_submit {token : String} {data : Members} {sender : Submissions.Sender}
    {before w : World} {row : SubmissionRow}
    (haccepted : (Submissions.submit token data sender).alone before = (.ok row, w)) :
    ∃ (form : FormRow) (fields : List Field) (values : Dictionary Value),
      form.storedFields = .ok fields ∧ Intake.readData fields data = .ok values ∧
      row.data = Value.allToJson values ∧ row.fieldSnapshot = Forms.fieldDocuments fields ∧
      w.store.submissions.get? row.id = some row := by
  unfold Submissions.submit at haccepted
  obtain ⟨form, _, -, haccepted⟩ := Job.exists_of_alone_bind haccepted
  obtain ⟨fields, _, hfields, haccepted⟩ := Job.exists_of_alone_bind haccepted
  obtain ⟨values, last, hvalues, haccepted⟩ := Job.exists_of_alone_bind haccepted
  rw [Job.alone_ofExcept] at hfields hvalues
  have hread : Intake.readData fields data = .ok values := by
    have hvaluesOf := congrArg Prod.fst hvalues
    simp only [Submissions.valuesOf] at hvaluesOf
    split at hvaluesOf <;> cases hvaluesOf
    assumption
  rw [Job.alone_statement] at haccepted
  split at haccepted
  · rename_i new w' hinsert
    cases haccepted
    simp only at hinsert
    split at hinsert
    · rename_i store hstore
      cases hinsert
      exact ⟨form, fields, values, congrArg Prod.fst hfields, hread, rfl, rfl,
        get?_insertSubmission rfl hstore⟩
    · cases hinsert
  · cases haccepted

/-- An accepted submission is there with fields of its own, also if the form has none. -/
theorem hasFields_of_submit {token : String} {data : Members} {sender : Submissions.Sender}
    {before w : World} {row : SubmissionRow}
    (haccepted : (Submissions.submit token data sender).alone before = (.ok row, w)) :
    HasFields row.id w.store := by
  obtain ⟨form, fields, values, -, -, -, hsnapshot, hrow⟩ := exists_of_submit haccepted
  refine ⟨row, hrow, ?_⟩
  rw [hsnapshot]
  exact fun h => nomatch h

end Overlooking

/-- **Changes of forms never matter** to a submission that has been accepted, however often forms
are changed and at whatever moments, before, between and during its runs: the results are the same,
the same requests are sent, and the worlds in the end differ in nothing but the forms. -/
theorem edits_never_matter (x : Script) (edits : Nat → List Edit) (turns : List Turn)
    {token : String} {data : Members} {sender : Submissions.Sender} {before w : World}
    {row : SubmissionRow}
    (haccepted : (Submissions.submit token data sender).alone before = (.ok row, w)) :
    let edited := x.play edits row.id turns w
    let plain := x.play (fun _ => []) row.id turns w
    edited.results = plain.results ∧ edited.sent = plain.sent ∧
      ∃ forms, edited.world = plain.world.withForms forms := by
  obtain ⟨forms, hforms⟩ := Overlooking.exists_withForms_edited (edits 0) w w.store.forms
  have hplayed := Overlooking.playFrom_withForms x edits turns w forms (1, [])
    (Overlooking.hasFields_of_submit haccepted)
  unfold Script.play
  rw [show w.edited (edits 0) = w.withForms forms from hforms]
  exact hplayed

namespace Overlooking

/-- A form without fields, and a pipeline whose one step names a field all the same. -/
def before : World :=
  { tokens := fun _ => ""
    store :=
      { forms := [{ id := 1, name := "Poem", publicId := "poem", createdAt := ⟨0⟩, updatedAt := ⟨0⟩ }]
        pipelines := [
          { id := 1, formId := 1, createdAt := ⟨0⟩, updatedAt := ⟨0⟩
            steps := Forms.stepDocuments
              [{ number := 1, name := "Draft", prompt := "For \x7bname\x7d" }] }] } }

def submitted : Except Failure SubmissionRow × World :=
  (Submissions.submit "poem" [] {}).alone before

/-- Two rhymes. -/
def rhymes : Script where
  answer _ _ := .replied ⟨.str "a rhyme", .str "base", .int 2⟩ (.finite false 3 (-1))
  clock earlier _ := ⟨earlier.length⟩

/-- The form gets the field that the prompt names, at once and after the fifth statement. -/
def edits : Nat → List Edit := fun n =>
  if n = 0 ∨ n = 5 then
    [⟨1, { fields := some (some [{ id := "name", type := .text, label := "Name" }]) }⟩]
  else []

def turns : List Turn :=
  let r : Runner := ⟨0, { defaultModel := "base", timeout := .int 1 }⟩
  [.run r, .rerun r]

end Overlooking

/-- The placeholder is sent as it stands, also after the form has got a field of that name. -/
theorem edits_never_matter_poem :
    (Overlooking.rhymes.play Overlooking.edits 1 Overlooking.turns Overlooking.submitted.2).sent.map
      (·.prompt) = ["For \x7bname\x7d", "For \x7bname\x7d"] := by
  have hid : (Overlooking.submitted.1.toOption.map (·.id)) = some 1 := by decide +kernel
  obtain ⟨row, hrow, hid⟩ := Option.map_eq_some_iff.1 hid
  have haccepted : Overlooking.submitted = (.ok row, Overlooking.submitted.2) := by
    cases hres : Overlooking.submitted.1 with
    | ok found =>
      rw [hres] at hrow
      cases hrow
      rw [← hres]
    | error e =>
      rw [hres] at hrow
      cases hrow
  have hsame := (edits_never_matter Overlooking.rhymes Overlooking.edits Overlooking.turns haccepted).2.1
  rw [hid] at hsame
  rw [hsame]
  decide +kernel

end PromptForms
