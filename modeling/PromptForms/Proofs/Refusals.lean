/-
  PromptForms.Proofs.Refusals
  ───────────────────────────
  **WHAT IS REFUSED CHANGES NOTHING.**

  An operation is refused for a conflict with another run, or because a status does not
  lead where the operation wants to go.  Everything that can be refused is tested before
  the first column is written or by the very statement that writes it, and a run that has
  taken its submission fails in other ways only.  A rerun is two operations: by itself
  its run is never refused, but among interleaved threads another run may get ahead.

      Failure.IsRefusal      a conflict, or a refused change of status
      traffic                the setting
      travellers             the agreement of all tasks

  Main results:
    • `cautious_run` — a run that is refused has written nothing.
    • `status_lifecycle` — what holds of every row and every statement in every scene
      that can be reached, and that refused tasks have written nothing.
-/
import PromptForms.Proofs.Audit
import PromptForms.Proofs.Confined
import PromptForms.Proofs.Lifecycle

namespace PromptForms

/-! ## §1. Refusals. -/

/-- A conflict with another run, or a status that does not lead where the task wants to go. -/
def Failure.IsRefusal (e : Failure) : Prop := ∃ id, Refused id e

theorem Failure.IsForeign.not_isRefusal {e : Failure} (h : e.IsForeign) : ¬e.IsRefusal := by
  rintro ⟨id, rfl | ⟨current, target, rfl⟩⟩
  · exact h _ rfl
  · exact h _ rfl

theorem not_isRefusal_submissionNotFound (id : Int) :
    ¬(Failure.ofCause (.submissionNotFound id)).IsRefusal := by
  rintro ⟨other, h | ⟨current, target, h⟩⟩ <;> cases h

theorem not_isRefusal_formNotFound (form : String) :
    ¬(Failure.ofCause (.formNotFound form)).IsRefusal := by
  rintro ⟨other, h | ⟨current, target, h⟩⟩ <;> cases h

theorem not_isRefusal_pipelineConfiguration (message : String) :
    ¬(Failure.ofCause (.pipelineConfiguration message)).IsRefusal := by
  rintro ⟨other, h | ⟨current, target, h⟩⟩ <;> cases h

theorem Failure.IsCollision.not_isRefusal {e : Failure} (h : e.IsCollision) : ¬e.IsRefusal := by
  obtain ⟨message, rfl⟩ := h
  rintro ⟨other, h | ⟨current, target, h⟩⟩ <;> cases h

/-- Every refusal would be answered as a conflict. -/
theorem Failure.IsRefusal.conflicts {e : Failure} (h : e.IsRefusal) :
    Lifecycle.Answered (· = 409) e := by
  obtain ⟨id, rfl | ⟨current, target, rfl⟩⟩ := h
  · exact ⟨_, rfl, rfl⟩
  · exact ⟨_, rfl, rfl⟩

namespace Lifecycle

variable {α β : Type} {b : Prop} {r : Runner} {id : Int}

open Exclusive (writesNothing_concat)

/-! ## §2. A run that has taken its submission. -/

/-- The job is not refused, whatever was done before. -/
def Unrefused (b : Prop) (j : Job α) : Prop := Avoids b (Fails Failure.IsRefusal) j

/-- An outcome that fails in other ways only is no refusal. -/
theorem not_fails_iff_failsOnly {x : Except Failure α} :
    ¬Fails Failure.IsRefusal x ↔ FailsOnly (fun e => ¬e.IsRefusal) x := by
  constructor
  · exact fun h e he href => h ⟨e, he, href⟩
  · rintro h ⟨e, he, href⟩
    exact h e he href

theorem unrefused_of_ensures {j : Job α}
    (h : (lifecycle b).Ensures j (FailsOnly fun e => ¬e.IsRefusal)) : Unrefused b j :=
  h.mono (fun _ _ h => h) fun _ _ _ => not_fails_iff_failsOnly.2

theorem ensures_reload :
    (lifecycle b).Ensures (Runner.reload id) (FailsOnly fun e => ¬e.IsRefusal) := by
  refine (avoids_read (B := Fails Failure.IsRefusal) fun w => ?_).mono (fun _ _ h => h)
    fun _ _ _ => not_fails_iff_failsOnly.1
  refine not_fails_iff_failsOnly.2 ((failsOnly_submission w.store id).mono fun e he => ?_)
  rcases he with he | rfl
  · exact he.not_isRefusal
  · exact not_isRefusal_submissionNotFound id

theorem unrefused_reload : Unrefused b (Runner.reload id) := unrefused_of_ensures ensures_reload

/-- What becomes of a row when its attempt is ended. -/
theorem becomes_settled {row : SubmissionRow} {target : Status} {message : Option String}
    (now : Calendar.Instant) (hs : row.status = .processing)
    (ht : target = .completed ∧ message = none ∨ target = .failed ∧ message.isSome = true) :
    Becomes (some row) (row.settled target message now) := by
  rcases ht with ⟨rfl, rfl⟩ | ⟨rfl, hm⟩
  · exact .completed row now hs
  · obtain ⟨text, rfl⟩ := Option.isSome_iff_exists.1 hm
    exact .failed row text now hs

/-- Ending the attempt as completed without a message, or as failed with one. -/
theorem ensures_finish {target : Status} {message : Option String}
    (ht : target = .completed ∧ message = none ∨ target = .failed ∧ message.isSome = true) :
    (lifecycle b).Ensures (Runner.finish id target message) (FailsOnly fun e => ¬e.IsRefusal) := by
  unfold Runner.finish
  refine (lifecycle b).jobLogic.failsOnly_bind (Contract.triple_compareAndSet
    (fun g w row _ hrow hs => ?_) fun g w _ _ => ?_) fun _ => ensures_reload
  · have hbecomes := becomes_settled w.now (List.mem_singleton.1 hs) ht
    exact leads_of_orderly (P := fun _ => FailsOnly (fun e => ¬e.IsRefusal) (.ok true))
      (fun hd => orderly_replace hd (fun _ => rfl) hrow hbecomes) (failsOnly_ok true)
  · exact leads_of_orderly (P := fun _ => FailsOnly (fun e => ¬e.IsRefusal) (.ok false))
      (fun hd => orderly_of_eq hd rfl) (failsOnly_ok false)

theorem ensures_storeOutput (row : SubmissionRow) (result : StepResult) :
    (lifecycle b).Ensures (Runner.storeOutput row result) (FailsOnly fun e => ¬e.IsRefusal) := by
  refine Contract.triple_storeOutput (fun g w store _ hi => ?_) fun g w e _ he => ?_
  · obtain rfl := Store.eq_append_of_insertOutput rfl hi
    exact leads_of_orderly (P := fun _ => FailsOnly (fun e => ¬e.IsRefusal) (.ok ()))
      (fun hd => orderly_of_eq hd rfl) (failsOnly_ok ())
  · have hnot : ¬e.IsRefusal := by
      rcases he with he | ⟨he, -⟩
      · exact he.not_isRefusal
      · exact he.not_isRefusal
    exact leads_of_orderly
      (P := fun _ => FailsOnly (fun e => ¬e.IsRefusal) (.error e : Except Failure Unit))
      (fun hd => orderly_of_eq hd rfl) (failsOnly_error hnot)

/-- A run that has taken its submission is not refused. -/
theorem confines : Confines (lifecycle b).Ensures fun e => ¬e.IsRefusal where
  toJobLogic := (lifecycle b).jobLogic
  foreign := fun _ h => h.not_isRefusal
  step := fun number cause => by
    rintro ⟨other, h | ⟨current, target, h⟩⟩ <;> cases h
  isCancelled := Contract.ensures_isCancelled (quiet_anyhow True)
  finish := fun id _ _ h => ensures_finish h.shape
  storeOutput := ensures_storeOutput
  reload := fun _ => ensures_reload

/-- A run that has taken its submission and has steps to run. -/
theorem unrefused_runLoaded (row : SubmissionRow) (run : Nat) (steps : List Step) :
    Unrefused b (match checkDense steps with
      | .error e => do
        let message := s!"Pipeline configuration error: {e.message}"
        let _ ← Runner.finish id .failed (some message)
        Job.fail (.pipelineConfiguration message)
      | .ok ordered => do
        match ← Job.outcome (r.runAllSteps row run ordered) with
        | .ok final => return final
        | .error failure => Runner.breakOff id failure) := by
  apply unrefused_of_ensures
  cases checkDense steps with
  | error e =>
    apply (lifecycle b).jobLogic.failsOnly_bind (ensures_finish (.inr ⟨rfl, rfl⟩))
    intro _
    exact confines.throw (failsOnly_error (not_isRefusal_pipelineConfiguration _))
  | ok ordered =>
    exact confines.runOrdered (Contract.ensures_fieldsFor (quiet_anyhow True)
      (fun _ h => h.not_isRefusal) not_isRefusal_formNotFound row) run ordered

/-! ## §3. A run. -/

/-- What becomes of a pending row that moves on. -/
theorem becomes_movedOn {row : SubmissionRow} {target : Status} (now : Calendar.Instant)
    (hs : row.status = .pending) (ht : target = .processing ∨ target = .completed) :
    Becomes (some row) (row.movedOn target now) := by
  rcases ht with rfl | rfl
  · exact .taken row now hs
  · exact .passed row now hs

/-- Leaving `pending` is one statement: whoever is too late has written nothing. -/
theorem cautious_leavePending {E : Failure → Prop} {target : Status}
    (ht : target = .processing ∨ target = .completed) :
    Cautious b (Fails E) (Runner.leavePending id target) := by
  refine Contract.triple_leavePending (fun g w row h hrow hs => ?_) fun g w h _ => ?_
  · exact leads_of_orderly (P := fun g => Fails E (.ok ()) → WritesNothing g)
      (fun hd => orderly_replace hd (fun _ => rfl) hrow (becomes_movedOn w.now hs ht))
      fun hfails => absurd hfails (not_fails_ok ())
  · exact leads_of_orderly
      (P := fun g => Fails E (.error (Failure.ofCause (.concurrentRun id)) : Except Failure Unit) →
        WritesNothing g)
      (fun hd => orderly_of_eq hd rfl) fun _ => writesNothing_concat h rfl

/-- The check before the status changes. -/
theorem cautious_transition_bind {B : Except Failure α → Prop} {status target : Status}
    {f : Status → Job α} (hf : Cautious b B (f target)) :
    Cautious b B (Job.ofCauses (status.transition target) >>= f) := by
  cases h : status.transition target with
  | ok reached =>
    rw [Outline.eq_of_transition h]
    exact hf
  | error c =>
    refine Contract.triple_bind (R := fun res g _ => (∀ a, res ≠ .ok a) ∧ WritesNothing g)
      (Contract.triple_fail fun g w hg => ⟨fun _ ha => (nomatch ha), hg⟩) (fun a g w hg => ?_)
      fun e g w hg _ => hg.2
    exact absurd rfl (hg.1 a)

theorem cautious_runClaimed (run : Nat) :
    Cautious b (Fails Failure.IsRefusal) (r.runClaimed id run) := by
  unfold Runner.runClaimed
  refine cautious_of_looks_bind (looks.read _) fun row => cautious_refuse ?_
  refine cautious_of_looks_bind (looks.read _) fun steps => ?_
  refine Contract.triple_ite (fun _ => ?_) fun _ => ?_
  · refine cautious_transition_bind ?_
    exact cautious_bind (cautious_leavePending (.inr rfl)) (fun _ => unrefused_reload)
      fun _ => fails_error.1
  · refine cautious_transition_bind ?_
    exact cautious_bind (cautious_leavePending (.inl rfl)) (fun _ => unrefused_runLoaded row run steps)
      fun _ => fails_error.1

/-- A run that is refused has written nothing. -/
theorem cautious_run (r : Runner) (id : Int) : Cautious b (Fails Failure.IsRefusal) (r.run id) := by
  unfold Runner.run
  refine cautious_of_looks_bind ?_ fun number => ?_
  · exact (Contract.triple_claimSlot quiet_silent).mono (fun _ _ h => h) fun _ _ _ h => h.1
  · refine Contract.triple_andFinally (cautious_runClaimed number) fun res => ?_
    exact Contract.triple_freeSlot (quiet_of
      (P := fun g => Fails Failure.IsRefusal res → WritesNothing g)
      fun g d h hstore href => writesNothing_concat (h href) hstore)

/-! ## §4. A rerun by itself. -/

/-- The submission is pending and its slot is free. -/
def ready (r : Runner) (id : Int) (_ : Deeds) (w : World) : Prop :=
  (∃ row, w.store.submission id = .ok row ∧ row.status = .pending) ∧
    (w.registries r.process).isActive id = false

/-- The submission is pending. -/
def waiting (id : Int) (_ : Deeds) (w : World) : Prop :=
  ∃ row, w.store.submission id = .ok row ∧ row.status = .pending

/-- The submission has been made pending again, and its slot is free. -/
def restarted (r : Runner) (id : Int) (_ : Deeds) (w : World) : Prop :=
  (∃ row, w.store.submissions.get? id = some row ∧ row.status = .pending) ∧
    (w.registries r.process).isActive id = false

/-- A condition on the store survives statements that keep it. -/
theorem quiet_store (hb : ¬b) {A : Store → Prop} : (lifecycle b).Quiet fun _ w => A w.store := by
  intro g d h hstore
  refine ⟨allows_of_store_eq hstore, fun w hw => ?_⟩
  show A w.store
  rw [(hw.resolve_left hb).1, hstore]
  exact h

theorem quiet_waiting (hb : ¬b) : (lifecycle b).Quiet (waiting id) :=
  quiet_store hb (A := fun s => ∃ row, s.submission id = .ok row ∧ row.status = .pending)

/-- A free slot is taken. -/
theorem triple_claimSlot_ready (hb : ¬b) :
    (lifecycle b).Triple (ready r id) (r.claimSlot id) (Contract.surely fun _ => waiting id) := by
  refine Contract.triple_inMemory fun g w h => ?_
  have hstart : (w.registries r.process).start id =
      .ok ((w.registries r.process).flags.length,
        { slots := (w.registries r.process).slots ++ [(id, (w.registries r.process).flags.length)]
          flags := (w.registries r.process).flags ++ [false] }) := by
    unfold Registry.start
    rw [if_neg (by rw [h.2]; decide)]
  simp only [hstart]
  exact quiet_waiting hb g _ h.1 rfl

/-- A run of a submission that waits for it is not refused. -/
theorem unrefused_runClaimed (hb : ¬b) (run : Nat) :
    (lifecycle b).Triple (waiting id) (r.runClaimed id run) fun res _ _ =>
      ¬Fails Failure.IsRefusal res := by
  unfold Runner.runClaimed
  have hreload : (lifecycle b).Triple (waiting id) (Runner.reload id) fun res g w =>
      waiting id g w ∧ ∃ row, res = .ok row ∧ row.status = .pending :=
    (quiet_waiting hb).read fun g w h => h
  refine Contract.triple_bind hreload (fun row => ?_) fun e g w h => ?_
  · refine Contract.Triple.of_fact (fun g w h => h.2) ?_
    rintro ⟨_, ⟨⟩, hs⟩
    refine Contract.triple_refuse (fun hp => absurd (hs.symm.trans hp) (by decide)) fun _ => ?_
    have hsteps : (lifecycle b).Triple (waiting id) (Runner.stepsFor row.formId) fun res g w =>
        waiting id g w ∧ ¬Fails Failure.IsRefusal res :=
      (quiet_waiting hb).read fun g w _ =>
        not_fails_iff_failsOnly.2
          ((foreign_activeSteps w.store row.formId).mono fun e he => he.not_isRefusal)
    refine Contract.triple_bind (hsteps.mono (fun _ _ h => h.1) fun _ _ _ h => h) (fun steps => ?_)
      fun e g w h => fun href => h.2 (fails_error.2 (fails_error.1 href))
    -- The test of the status and its change cannot fail, since the row is still pending.
    have hleave : ∀ target, target = Status.processing ∨ target = .completed →
        (lifecycle b).Triple (waiting id) (Runner.leavePending id target)
          (Contract.surely fun _ _ _ => True) := by
      intro target ht
      refine Contract.triple_leavePending (fun g w row h hrow hs => ?_) fun g w h hstay => ?_
      · exact leads_of_orderly (P := fun _ => True)
          (fun hd => orderly_replace hd (fun _ => rfl) hrow (becomes_movedOn w.now hs ht)) trivial
      · obtain ⟨row, hrow, hs⟩ := h
        exact absurd (World.status?_eq_some.2 ⟨row, (Store.submission_eq_ok.1 hrow).2, hs⟩) hstay
    have hrest : ∀ target, target = Status.processing ∨ target = .completed →
        ∀ rest : Job SubmissionRow, Unrefused b rest →
        (lifecycle b).Triple (fun g w => waiting id g w ∧
            ¬Fails Failure.IsRefusal (.ok steps : Except Failure (List Step)))
          (do
            Runner.leavePending id target
            rest) fun res _ _ => ¬Fails Failure.IsRefusal res :=
      fun target ht rest hr => Contract.triple_bind ((hleave target ht).mono (fun _ _ h => h.1)
        fun _ _ _ h => h) (fun _ => hr) fun e g w h => h.elim
    rw [hs]
    refine Contract.triple_ite (fun _ => ?_) fun _ => ?_
    · exact hrest .completed (.inr rfl) _ unrefused_reload
    · exact hrest .processing (.inl rfl) _ (unrefused_runLoaded row run steps)
  · obtain ⟨-, row, h, -⟩ := h
    cases h

theorem unrefused_run (hb : ¬b) :
    (lifecycle b).Triple (ready r id) (r.run id) fun res _ _ => ¬Fails Failure.IsRefusal res := by
  unfold Runner.run
  refine Contract.triple_bind (triple_claimSlot_ready hb) (fun number => ?_) fun e g w h => h.elim
  refine Contract.triple_andFinally (unrefused_runClaimed hb number) fun res => ?_
  exact Contract.triple_freeSlot (quiet_anyhow (¬Fails Failure.IsRefusal res))

theorem restarted_of_calm (hb : ¬b) {g : Deeds} {w w' : World}
    (hw : (lifecycle b).calm g w w') (h : restarted r id g w) : restarted r id g w' := by
  obtain ⟨hstore, hreg⟩ := hw.resolve_left hb
  unfold restarted
  rw [hstore, hreg]
  exact h

/-- A new attempt leaves the submission ready for its run, or it has written nothing or is not
refused. -/
theorem newAttempt_ready (hb : ¬b) :
    (lifecycle b).Triple silent (r.newAttempt id) fun
      | .ok _ => ready r id
      | .error e => fun g _ => e.IsRefusal → WritesNothing g := by
  -- During the turn nobody takes the slot that was found free.
  have hfree : (lifecycle b).Steady fun g w =>
      WritesNothing g ∧ (w.registries r.process).isActive id = false := by
    intro g w h
    refine ⟨allows_of_store_eq rfl, fun w' hw => ⟨writesNothing_concat h.1 rfl, ?_⟩⟩
    rw [(hw.resolve_left hb).2]
    exact h.2
  refine Contract.triple_newAttempt_of_look (L := fun _ => True)
    (R := restarted r id) (Contract.triple_readMemory fun g w h => ?_) hfree trivial (fun _ _ _ => trivial)
    (fun _ _ _ _ _ => trivial) (fun g w row h hrow hs => ?_) ?_ fun e g w h _ _ => h.1
  · cases hactive : (w.registries r.process).isActive id with
    | true => exact ⟨allows_of_store_eq rfl, fun _ _ _ => writesNothing_concat h rfl⟩
    | false =>
      refine ⟨allows_of_store_eq rfl, fun w' hw => ⟨writesNothing_concat h rfl, ?_⟩⟩
      rw [(hw.resolve_left hb).2]
      exact hactive
  · have hnew := World.get?_withSubmission_self (fun row => row.restarted .pending) (fun _ => rfl) hrow
    refine ⟨fun hd => orderly_replace hd (fun _ => rfl) hrow (.restarted row hs), fun w' hw => ?_⟩
    exact restarted_of_calm hb hw ⟨⟨_, hnew, rfl⟩, h.2⟩
  · refine Contract.triple_read fun g w h => ?_
    cases hread : w.store.submission id with
    | ok row =>
      refine ⟨allows_of_store_eq rfl, fun w' hw => ?_⟩
      obtain ⟨⟨row', hrow', hs'⟩, hactive⟩ := restarted_of_calm hb hw h
      refine ⟨?_, hactive⟩
      exact ⟨row', Store.submission_eq_ok.2 ⟨(Store.submission_eq_ok.1 hread).1, hrow'⟩, hs'⟩
    | error e =>
      refine ⟨allows_of_store_eq rfl, fun _ _ href => absurd href ?_⟩
      rcases failsOnly_submission w.store id e hread with he | rfl
      · exact he.not_isRefusal
      · exact not_isRefusal_submissionNotFound id

/-- A rerun by itself that is refused has written nothing. -/
theorem cautious_rerun (hb : ¬b) : Cautious b (Fails Failure.IsRefusal) (r.rerun id) := by
  unfold Runner.rerun
  refine Contract.triple_bind (newAttempt_ready hb) (fun _ => ?_) fun e g w h href =>
    h (fails_error.1 href)
  exact (unrefused_run hb).mono (fun _ _ h => h) fun _ _ _ h href => absurd href h

/-! ## §5. A rerun among interleaved threads. -/

/-- A conflict is no success. -/
theorem noSuccess_contested : NoSuccess (· = 409) := by
  rintro status hs rfl
  exact absurd hs (by decide)

/-- A row that is gone is no conflict. -/
theorem cautious_contested (r : Runner) (id : Int) :
    Cautious b (Fails (Answered (· = 409))) (r.newAttempt id) :=
  cautious_newAttempt (fun _ => by decide) r id

/-- The contract does not depend on what was done before. -/
theorem meets_after (t : Plan α) {Q : α → Deeds → World → Prop} (g₀ g : Deeds) (w : World)
    (h : (lifecycle b).Meets t Q g w) :
    (lifecycle b).Meets t (fun a g' w' => ∃ g₁, g' = g₀ ++ g₁ ∧ Q a g₁ w') (g₀ ++ g) w := by
  induction t generalizing g w with
  | done a => exact ⟨g, rfl, h⟩
  | act access update next ih =>
    refine ⟨h.1, fun w' hw => ?_⟩
    have hnext := ih w (g ++ [⟨w, update w⟩]) w' (h.2 w' hw)
    rw [← List.append_assoc] at hnext
    exact hnext
  | generate request next ih => exact fun outcome w' hw => ih outcome g w' (h outcome w' hw)

/-- The run of a rerun keeps to the contract too. -/
theorem orderly_rerun (r : Runner) (id : Int) :
    (lifecycle b).Triple silent (r.rerun id) fun _ _ _ => True := by
  unfold Runner.rerun
  refine Contract.triple_bind (cautious_contested r id) (fun _ g w _ => ?_) fun _ _ _ _ => trivial
  have hrun := cautious_run (b := b) r id [] w fun _ hd => absurd hd List.not_mem_nil
  have hafter := meets_after _ g [] w hrun
  rw [List.append_nil] at hafter
  exact Contract.Meets.mono (fun _ _ _ _ => trivial) _ g w hafter

end Lifecycle

/-! ## §6. The agreement. -/

/-- Every task may begin, any number of them at once.  What belongs to no task does not touch the
store and the active runs. -/
def traffic (interleaved : Prop) : Setting where
  begins _ := True
  drifts w w' := w'.store = w.store ∧ w'.registries = w.registries
  interleaved := interleaved

/-- The task has ended with a conflict or a refused change of status. -/
def Ending.Refused : Ending → Prop
  | .handled result => ∃ answer, result.outcome = .ok answer ∧ answer.status = 409
  | .row res => ∃ e, res = .error e ∧ e.IsRefusal
  | .found _ => False

namespace Lifecycle

variable {b : Prop}

/-- A task that is refused has written nothing, except perhaps a rerun among interleaved threads. -/
def taskEnds (b : Prop) (task : Task) (ending : Ending) (g : Deeds) : Prop :=
  ending.Refused → (b → ∀ r id, task ≠ .rerun r id) → WritesNothing g

theorem taskEnds_of {task : Task} {ending : Ending} {g : Deeds}
    (h : ending.Refused → WritesNothing g) : taskEnds b task ending g := fun href _ => h href

theorem meets_task (task : Task) (w : World) :
    (lifecycle b).Meets task.plan (fun ending g _ => taskEnds b task ending g) [] w := by
  have hstart : WritesNothing [] := fun d hd => absurd hd List.not_mem_nil
  cases task with
  | request r q =>
    exact (Contract.meets_bind ..).2 (Contract.Meets.mono
      (fun _ _ _ h => taskEnds_of fun href => (h href).1) _ _ _
      (meets_handle (p := (· = 409)) noSuccess_contested r (fun _ _ _ => by decide) w))
  | run r submission =>
    exact (Contract.meets_bind ..).2 (Contract.Meets.mono (fun _ _ _ h => taskEnds_of h) _ _ _
      (cautious_run r submission [] w hstart))
  | newAttempt r submission =>
    refine (Contract.meets_bind ..).2 (Contract.Meets.mono (fun res _ _ h => ?_) _ _ _
      (cautious_contested r submission [] w hstart))
    refine taskEnds_of fun href => h ?_
    obtain ⟨e, he, href⟩ := href
    exact ⟨e, he, href.conflicts⟩
  | rerun r submission =>
    by_cases hb : b
    · refine (Contract.meets_bind ..).2 (Contract.Meets.mono (fun _ _ _ _ => ?_) _ _ _
        (orderly_rerun r submission [] w hstart))
      exact fun _ hne => absurd rfl (hne hb r submission)
    · exact (Contract.meets_bind ..).2 (Contract.Meets.mono (fun _ _ _ h => taskEnds_of h) _ _ _
        (cautious_rerun hb [] w hstart))
  | cancel r submission =>
    exact (Contract.meets_bind ..).2 (Contract.Meets.mono (fun _ _ _ h => taskEnds_of fun _ => h) _ _ _
      (looks_cancel r submission [] w hstart))

/-- The rows fit, and every statement so far was orderly. -/
structure Conducted (log : List Entry) (s : Store) : Prop where
  distinct : s.Distinct
  fitting : ∀ id row, s.submissions.get? id = some row → row.Fitting
  orderly : ∀ e ∈ log, Orderly e.deed.before.store e.deed.after.store

/-- Before anything has happened to an empty store. -/
theorem Conducted.empty {s : Store} (h : s = {}) : Conducted [] s := by
  rw [h]
  exact ⟨List.nodup_nil, fun _ _ h => (nomatch h), fun e he => absurd he List.not_mem_nil⟩

theorem Conducted.concat {log : List Entry} {i : Nat} {w w' : World}
    (h : Conducted log w.store) (ho : Orderly w.store w'.store) :
    Conducted (log ++ [⟨i, ⟨w, w'⟩⟩]) w'.store where
  distinct := ho.distinct
  fitting := fun id row hrow => (ho.rows id row hrow).fitting fun old hold => h.fitting id old hold
  orderly := by
    intro e he
    rcases List.mem_append.1 he with he | he
    · exact h.orderly e he
    · rw [List.mem_singleton.1 he]
      exact ho

/-- **The agreement** of all tasks. -/
def travellers (b : Prop) : Agreement (traffic b) (lifecycle b) where
  ends := fun task ending g _ => taskEnds b task ending g
  inv := fun log w => Conducted log w.store
  calm_refl := fun _ _ => .inr ⟨rfl, rfl⟩
  calm_trans := fun _ _ _ _ h h' => by
    rcases h with h | ⟨hstore, hreg⟩
    · exact .inl h
    · exact h'.imp_right fun h' => ⟨h'.1.trans hstore, h'.2.trans hreg⟩
  pause_trans := fun _ _ _ _ _ _ => trivial
  pause_of_calm := fun _ _ _ _ => trivial
  calm_of_pause := fun hb _ _ _ _ => .inl hb
  ends_of_pause := fun _ _ _ _ _ h _ => h
  begins := fun task _ _ w' _ _ _ => meets_task task w'
  statement := fun _ _ _ _ h hallowed => ⟨h.concat (hallowed h.distinct), fun _ _ => trivial⟩
  drift := fun _ _ _ h hd => ⟨hd.1 ▸ h, fun _ => .inr hd⟩

/-- Status and attempt after an orderly statement. -/
theorem advance_of_orderly {w w' : World} (ho : Orderly w.store w'.store) {id : Int}
    {now later : Status × Int} (hnow : w.progress? id = some now)
    (hlater : w'.progress? id = some later) : later = now ∨ Advance now later := by
  obtain ⟨row, hrow, rfl⟩ := Option.map_eq_some_iff.1 hnow
  obtain ⟨row', hrow', rfl⟩ := Option.map_eq_some_iff.1 hlater
  have hbecomes := ho.rows id row' hrow'
  rw [hrow] at hbecomes
  exact hbecomes.advance

/-- A row that an orderly statement adds. -/
theorem accepted_of_orderly {w w' : World} (ho : Orderly w.store w'.store) {id : Int}
    {later : Status × Int} (hnow : w.progress? id = none) (hlater : w'.progress? id = some later) :
    later = (.pending, 1) := by
  obtain ⟨row', hrow', rfl⟩ := Option.map_eq_some_iff.1 hlater
  have hbecomes := ho.rows id row' hrow'
  rw [Option.map_eq_none_iff.1 hnow] at hbecomes
  cases hbecomes with
  | accepted _ hs ha he hp => rw [hs, ha]

end Lifecycle

/-! ## §7. The result. -/

/-- **The lifecycle of submissions.**  In every scene that can be reached from an empty store by
requests, runs, reruns, new attempts and requests to stop, whether threads take turns or their
statements are interleaved in any way:

  1. message and time of every submission fit its status;
  2. a statement keeps the status and the attempt of a submission, or it makes one of the changes
     that `Advance` lists;
  3. a submission that was not there before is pending in its first attempt;
  4. a task that ends with a conflict or with a refused change of status has written nothing; only a
     rerun may have started its new attempt before another thread got ahead of its run, and that
     not if threads take turns. -/
theorem status_lifecycle (interleaved : Prop) (start : World) (s : Scene)
    (hempty : start.store = {})
    (hs : Scene.Reaches (traffic interleaved) { world := start } s) :
    (∀ row ∈ s.world.store.submissions, row.Fitting) ∧
    (∀ e ∈ s.log, ∀ id now later, e.deed.before.progress? id = some now →
      e.deed.after.progress? id = some later → later = now ∨ Advance now later) ∧
    (∀ e ∈ s.log, ∀ id later, e.deed.before.progress? id = none →
      e.deed.after.progress? id = some later → later = (.pending, 1)) ∧
    (∀ (i : Nat) (task : Task) (ending : Ending), s.threads[i]? = some ⟨task, .done ending⟩ →
      ending.Refused → (interleaved → ∀ r id, task ≠ .rerun r id) →
      WritesNothing (deedsOf i s.log)) := by
  have hsafe := Agreement.safe_of_reaches (Lifecycle.travellers interleaved) (.empty hempty) hs
  have hconducted : Lifecycle.Conducted s.log s.world.store := hsafe.inv
  refine ⟨fun row hrow => ?_, fun e he id now later => ?_, fun e he id later => ?_, ?_⟩
  · exact hconducted.fitting _ row (Table.get?_of_mem hconducted.distinct hrow)
  · exact Lifecycle.advance_of_orderly (hconducted.orderly e he)
  · exact Lifecycle.accepted_of_orderly (hconducted.orderly e he)
  · intro i task ending hi
    exact hsafe.ends hi

/-- A submission has been completed, and a second run of it begins. -/
def Lifecycle.secondRun : Scene := Audit.firstRun.serve 9 (.run Audit.runner 1)

/-- The failure with which the plan has ended, if it is a run that has failed. -/
def Lifecycle.failure? : Plan Ending → Option Failure
  | .done (.row (.error e)) => some e
  | _ => none

theorem Lifecycle.eq_done_of_failure? {plan : Plan Ending} {e : Failure}
    (h : failure? plan = some e) : plan = .done (.row (.error e)) := by
  unfold failure? at h
  split at h <;> cases h
  rfl

/-- The second run is refused and has written nothing. -/
theorem writesNothing_secondRun :
    (∀ row ∈ Lifecycle.secondRun.world.store.submissions, row.Fitting) ∧
      WritesNothing (deedsOf 5 Lifecycle.secondRun.log) := by
  have hfirst : Scene.Reaches (traffic False) { world := Audit.start } Audit.firstRun :=
    (Scene.Reaches.refl.serveAll 9 Audit.tasks fun _ _ => trivial).hear 9 3 _
  have hreaches : Scene.Reaches (traffic False) { world := Audit.start } Lifecycle.secondRun :=
    hfirst.serve 9 trivial
  have hall := status_lifecycle False Audit.start Lifecycle.secondRun rfl hreaches
  have hended : (Lifecycle.secondRun.threads[5]?).bind (fun t => Lifecycle.failure? t.plan) =
      some (Failure.ofCause (.statusTransition "completed" "completed")) := by decide +kernel
  obtain ⟨⟨task, plan⟩, ht, hplan⟩ := Option.bind_eq_some_iff.1 hended
  have hdone : plan = _ := Lifecycle.eq_done_of_failure? hplan
  rw [hdone] at ht
  exact ⟨hall.1, hall.2.2.2 5 task _ ht ⟨_, rfl, 1, .inr ⟨_, _, rfl⟩⟩ fun h => h.elim⟩

end PromptForms
