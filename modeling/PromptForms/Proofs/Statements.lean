/-
  PromptForms.Proofs.Statements
  ─────────────────────────────
  **THE STATEMENTS OF A RUN.**

  One rule for every statement that runs are made of, under any contract.  A statement
  either keeps the store, and then it is enough that a condition survives this, or it is
  one of three that write: it moves a submission on, ends an attempt, or stores an
  output.

      Contract.Quiet           a condition that survives statements that keep the store
      Contract.Steady          a condition that survives statements that only read
      triple_leavePending      a submission moves on, or there is a conflict
      triple_finish            the attempt is ended
      triple_storeOutput       an output is stored
-/
import PromptForms.Proofs.Collision
import PromptForms.Proofs.Contract
import PromptForms.Proofs.Tables

namespace PromptForms

/-! ## §1. What a statement makes of the store. -/

/-- The world with a submission changed. -/
def World.withSubmission (w : World) (id : Int) (change : SubmissionRow → SubmissionRow) : World :=
  w.withStore { w.store with submissions := w.store.submissions.replace id change }

theorem World.get?_withSubmission {w : World} {id : Int} {change : SubmissionRow → SubmissionRow}
    (hc : ∀ row, (change row).id = row.id) (other : Int) :
    (w.withSubmission id change).store.submissions.get? other =
      if other = id then (w.store.submissions.get? id).map change
      else w.store.submissions.get? other := Table.get?_replace hc other

theorem World.get?_withSubmission_self {w : World} {id : Int} {row : SubmissionRow}
    (change : SubmissionRow → SubmissionRow) (hc : ∀ row, (change row).id = row.id)
    (hrow : w.store.submissions.get? id = some row) :
    (w.withSubmission id change).store.submissions.get? id = some (change row) := by
  rw [World.get?_withSubmission hc, if_pos rfl, hrow]
  rfl

theorem World.get?_withSubmission_of_ne {w : World} {id other : Int}
    {change : SubmissionRow → SubmissionRow} (hc : ∀ row, (change row).id = row.id)
    (hne : other ≠ id) :
    (w.withSubmission id change).store.submissions.get? other = w.store.submissions.get? other := by
  rw [World.get?_withSubmission hc, if_neg hne]

theorem World.status?_eq_some {w : World} {id : Int} {status : Status} :
    w.status? id = some status ↔
      ∃ row, w.store.submissions.get? id = some row ∧ row.status = status := by
  unfold World.status?
  rw [Option.map_eq_some_iff]

theorem World.status?_of_get? {w : World} {id : Int} {row : SubmissionRow}
    (h : w.store.submissions.get? id = some row) : w.status? id = some row.status :=
  World.status?_eq_some.2 ⟨row, h, rfl⟩

theorem Store.submission_eq_ok {s : Store} {id : Int} {row : SubmissionRow} :
    s.submission id = .ok row ↔ Store.fits id = true ∧ s.submissions.get? id = some row := by
  unfold Store.submission Store.checkFits
  by_cases hf : Store.fits id = true
  · rw [if_pos hf]
    cases s.submissions.get? id <;> simp [hf, bind, Except.bind]
  · rw [if_neg hf]
    constructor
    · intro h
      cases h
    · exact fun h => absurd h.1 hf

theorem Store.compareAndSet_of_mem {s : Store} {id : Int} {row : SubmissionRow}
    {expected : List Status} {change : SubmissionRow → SubmissionRow}
    (hrow : s.submissions.get? id = some row) (hs : row.status ∈ expected) :
    s.compareAndSet id expected change =
      (true, { s with submissions := s.submissions.replace id change }) := by
  unfold Store.compareAndSet
  rw [hrow]
  exact if_pos (List.contains_iff_mem.2 hs)

theorem Store.compareAndSet_of_not_mem {s : Store} {id : Int} {expected : List Status}
    {change : SubmissionRow → SubmissionRow}
    (h : ∀ row, s.submissions.get? id = some row → row.status ∉ expected) :
    s.compareAndSet id expected change = (false, s) := by
  unfold Store.compareAndSet
  cases hrow : s.submissions.get? id with
  | none => rfl
  | some row => exact if_neg fun hc => h row hrow (List.contains_iff_mem.1 hc)

/-- A submission that has a status can be read. -/
theorem World.exists_submission {w : World} {id : Int} {status : Status}
    (hfits : Store.fits id = true) (hs : w.status? id = some status) :
    ∃ row, w.store.submission id = .ok row := by
  obtain ⟨row, hrow, -⟩ := World.status?_eq_some.1 hs
  exact ⟨row, Store.submission_eq_ok.2 ⟨hfits, hrow⟩⟩

/-- A new output is stored unless its step has one in its attempt. -/
theorem Store.insertOutput_nextId {s : Store} {row : OutputRow} (hid : row.id = s.outputs.nextId) :
    s.insertOutput row =
      if s.outputs.any fun o => o.submissionId == row.submissionId && o.attempt == row.attempt &&
        o.stepNumber == row.stepNumber then none
      else some { s with outputs := s.outputs ++ [row] } := by
  -- The id cannot be taken, so only the step can be.
  have hfresh : ∀ o ∈ s.outputs, (o.id == row.id) = false := by
    intro o ho
    have hlt : o.id < s.outputs.nextId := Table.lt_nextId ho
    rw [beq_eq_false_iff_ne, hid]
    omega
  have hany : (s.outputs.any fun o => o.id == row.id ||
      (o.submissionId == row.submissionId && o.attempt == row.attempt &&
        o.stepNumber == row.stepNumber)) =
      s.outputs.any fun o => o.submissionId == row.submissionId && o.attempt == row.attempt &&
        o.stepNumber == row.stepNumber := by
    rw [Bool.eq_iff_iff, List.any_eq_true, List.any_eq_true]
    exact exists_congr fun o => and_congr_right fun ho => by rw [hfresh o ho, Bool.false_or]
  unfold Store.insertOutput
  rw [hany]
  have hins : s.outputs.insert row = s.outputs ++ [row] := Table.insert_nextId hid
  rw [hins]

/-- What storing a new output makes of the store. -/
theorem Store.eq_append_of_insertOutput {s s' : Store} {row : OutputRow}
    (hid : row.id = s.outputs.nextId) (h : s.insertOutput row = some s') :
    s' = { s with outputs := s.outputs ++ [row] } := by
  rw [← Table.insert_nextId hid]
  exact eq_of_insertOutput h

theorem Registry.isActive_finish (registry : Registry) (submission : Int) :
    (registry.finish submission).isActive submission = false := by
  unfold Registry.isActive Registry.finish
  rw [List.any_eq_false]
  intro slot hslot
  rw [List.mem_filter] at hslot
  simpa using hslot.2

/-! ## §2. Statements that keep the store. -/

namespace Contract

variable {α : Type} {C : Contract}

/-- The contract allows statements that keep the store, and the condition survives them. -/
def Quiet (C : Contract) (P : Deeds → World → Prop) : Prop :=
  ∀ g d, P g d.before → d.after.store = d.before.store → C.Leads P g d

/-- The contract allows statements that only read, and the condition survives them. -/
def Steady (C : Contract) (P : Deeds → World → Prop) : Prop := ∀ g w, P g w → C.Leads P g ⟨w, w⟩

variable {P : Deeds → World → Prop}

theorem Quiet.steady (hP : C.Quiet P) : C.Steady P := fun g w h => hP g ⟨w, w⟩ h rfl

theorem Steady.read (hP : C.Steady P) {f : World → Except Failure α}
    {R : Except Failure α → Prop} (hf : ∀ g w, P g w → R (f w)) :
    C.Triple P (Job.read f) fun res g w => P g w ∧ R res :=
  triple_read fun g w h => (hP g w h).mono fun _ hw => ⟨hw, hf g w h⟩

/-- A statement that only reads, with conditions on its outcome that survive it. -/
theorem triple_reading {Q : Except Failure α → Deeds → World → Prop} (hQ : ∀ res, C.Quiet (Q res))
    {f : World → Except Failure α} (hf : ∀ g w, P g w → Q (f w) g w) : C.Triple P (Job.read f) Q :=
  triple_read fun g w h => hQ (f w) g ⟨w, w⟩ (hf g w h) rfl

theorem Quiet.read (hP : C.Quiet P) {f : World → Except Failure α} {R : Except Failure α → Prop}
    (hf : ∀ g w, P g w → R (f w)) : C.Triple P (Job.read f) fun res g w => P g w ∧ R res :=
  hP.steady.read hf

theorem Quiet.readMemory (hP : C.Quiet P) (f : World → α) :
    C.Triple P (Job.readMemory f) (surely fun _ => P) :=
  triple_readMemory fun g w h => hP g ⟨w, w⟩ h rfl

theorem Quiet.inMemory (hP : C.Quiet P) {f : World → Except Failure (α × World)}
    {R : Except Failure α → Prop}
    (hok : ∀ w a w', f w = .ok (a, w') → w'.store = w.store ∧ R (.ok a))
    (herr : ∀ w e, f w = .error e → R (.error e)) :
    C.Triple P (Job.inMemory f) fun res g w => P g w ∧ R res := by
  refine triple_inMemory fun g w h => ?_
  cases hf : f w with
  | ok pair =>
    obtain ⟨hstore, hR⟩ := hok w pair.1 pair.2 hf
    have hq := hP g ⟨w, pair.2⟩ h hstore
    exact ⟨hq.1, fun w' hw => ⟨hq.2 w' hw, hR⟩⟩
  | error e =>
    have hq := hP g ⟨w, w⟩ h rfl
    exact ⟨hq.1, fun w' hw => ⟨hq.2 w' hw, herr w e hf⟩⟩

variable {r : Runner} {id : Int}

/-- Waiting for a reply. -/
theorem triple_waiting {request : Request} (hP : ∀ g w w', P g w → C.pause g w w' → P g w') :
    C.Triple P (Job.request request) (surely fun _ => P) :=
  triple_request fun g w h _ w' hw => hP g w w' h hw

theorem triple_isCancelled (hP : C.Quiet P) (run : Nat) :
    C.Triple P (r.isCancelled run) (surely fun _ => P) := hP.readMemory _

/-- Taking a slot fails only if it is taken. -/
theorem triple_claimSlot (hP : C.Quiet P) :
    C.Triple P (r.claimSlot id) fun res g w =>
      P g w ∧ ∀ e, res = .error e → e = Failure.ofCause (.concurrentRun id) := by
  refine hP.inMemory (fun w a w' h => ?_) fun w e h => ?_
  · split at h <;> cases h
    exact ⟨rfl, fun e he => nomatch he⟩
  · rintro e' ⟨⟩
    split at h <;> cases h
    rename_i cause hstart
    unfold Registry.start at hstart
    split at hstart <;> cases hstart
    rfl

theorem triple_freeSlot (hP : C.Quiet P) : C.Triple P (r.freeSlot id) fun _ => P :=
  (hP.inMemory (R := fun _ => True) (fun w a w' h => by cases h; exact ⟨rfl, trivial⟩)
    fun _ _ _ => trivial).mono (fun _ _ h => h) fun _ _ _ h => h.1

/-- Looking up the fields fails for their documents, or because the form is gone. -/
theorem triple_fieldsFor (hP : C.Quiet P) (row : SubmissionRow) :
    C.Triple P (Runner.fieldsFor row) fun res g w => P g w ∧ FailsOnly (fun e => e.IsForeign ∨
      e = Failure.ofCause (.formNotFound (toString row.formId))) res := by
  unfold Runner.fieldsFor
  refine triple_bind (R := fun res g w => P g w ∧ FailsOnly Failure.IsForeign res)
    (triple_ofExcept fun g w h => ⟨h, foreign_storedFields row⟩)
    (fun stored => ?_) fun e g w h => ⟨h.1, failsOnly_error (.inl (h.2 e rfl))⟩
  cases stored with
  | some fields => exact triple_pure fun g w h => ⟨h.1, failsOnly_ok fields⟩
  | none =>
    refine (hP.read fun g w h => ?_).mono (fun g w h => h.1) fun _ _ _ h => h
    refine ((foreign_checkOutage w).mono fun _ => .inl).bind fun _ =>
      ((foreign_checkFits _).mono fun _ => .inl).bind fun _ => ?_
    split
    · exact (foreign_checkElementsIfAny _ _).mono fun _ => .inl
    · exact failsOnly_error (.inr rfl)

/-! ## §3. Statements that write. -/

/-- Changing a submission if it has one of the expected statuses. -/
theorem triple_compareAndSet {Q : Except Failure Bool → Deeds → World → Prop}
    {expected : List Status} {change : Calendar.Instant → SubmissionRow → SubmissionRow}
    (hmove : ∀ g w row, P g w → w.store.submissions.get? id = some row → row.status ∈ expected →
      C.Leads (Q (.ok true)) g ⟨w, w.withSubmission id (change w.now)⟩)
    (hstay : ∀ g w, P g w → (∀ status ∈ expected, w.status? id ≠ some status) →
      C.Leads (Q (.ok false)) g ⟨w, w⟩) :
    C.Triple P (Runner.compareAndSet id expected change) Q := by
  refine triple_statement fun g w h => ?_
  by_cases hm : ∃ row, w.store.submissions.get? id = some row ∧ row.status ∈ expected
  · obtain ⟨row, hrow, hs⟩ := hm
    rw [Store.compareAndSet_of_mem hrow hs]
    exact hmove g w row h hrow hs
  · rw [Store.compareAndSet_of_not_mem fun row hrow hs => hm ⟨row, hrow, hs⟩]
    refine hstay g w h fun status hs hw => hm ?_
    obtain ⟨row, hrow, rfl⟩ := World.status?_eq_some.1 hw
    exact ⟨row, hrow, hs⟩

/-- Changing a submission or else reporting a conflict. -/
theorem triple_compareAndSet_orConflict {Q : Except Failure Unit → Deeds → World → Prop}
    {expected : List Status} {change : Calendar.Instant → SubmissionRow → SubmissionRow}
    (hmove : ∀ g w row, P g w → w.store.submissions.get? id = some row → row.status ∈ expected →
      C.Leads (Q (.ok ())) g ⟨w, w.withSubmission id (change w.now)⟩)
    (hstay : ∀ g w, P g w → (∀ status ∈ expected, w.status? id ≠ some status) →
      C.Leads (Q (.error (Failure.ofCause (.concurrentRun id)))) g ⟨w, w⟩) :
    C.Triple P (do
      let moved ← Runner.compareAndSet id expected change
      if !moved then Job.fail (.concurrentRun id)) Q := by
  refine triple_bind (R := fun
    | .ok true => Q (.ok ())
    | .ok false => Q (.error (Failure.ofCause (.concurrentRun id)))
    | .error _ => fun _ _ => False) (triple_compareAndSet hmove hstay) (fun moved => ?_)
    fun e g w h => h.elim
  cases moved with
  | true => exact triple_pure fun g w h => h
  | false => exact triple_fail fun g w h => h

/-- A submission that is pending moves on; for any other one there is a conflict. -/
theorem triple_leavePending {Q : Except Failure Unit → Deeds → World → Prop} {target : Status}
    (hmove : ∀ g w row, P g w → w.store.submissions.get? id = some row → row.status = .pending →
      C.Leads (Q (.ok ())) g ⟨w, w.withSubmission id fun row => row.movedOn target w.now⟩)
    (hstay : ∀ g w, P g w → w.status? id ≠ some .pending →
      C.Leads (Q (.error (Failure.ofCause (.concurrentRun id)))) g ⟨w, w⟩) :
    C.Triple P (Runner.leavePending id target) Q :=
  triple_compareAndSet_orConflict
    (fun g w row h hrow hs => hmove g w row h hrow (List.mem_singleton.1 hs))
    fun g w h hs => hstay g w h (hs .pending (List.mem_singleton.2 rfl))

/-- A submission that is being processed is settled, and then its row is there to be read. -/
theorem triple_finish {R : Deeds → World → Prop} {target : Status} {message : Option String}
    (hmove : ∀ g w row, P g w → w.store.submissions.get? id = some row →
      row.status = .processing →
      C.Leads R g ⟨w, w.withSubmission id fun row => row.settled target message w.now⟩)
    (hstay : ∀ g w, P g w → w.status? id = some .processing) (hR : C.Quiet R)
    (hrow : ∀ g w, R g w → ∃ row, w.store.submission id = .ok row) :
    C.Triple P (Runner.finish id target message) (surely fun _ => R) := by
  unfold Runner.finish
  refine triple_bind (R := surely fun _ => R) (triple_compareAndSet
    (fun g w row h hrow hs => hmove g w row h hrow (List.mem_singleton.1 hs))
    fun g w h hs => absurd (hstay g w h) (hs .processing (List.mem_singleton.2 rfl)))
    (fun moved => ?_) fun e g w h => h.elim
  refine (hR.read (R := fun res => ∃ row, res = .ok row) hrow).mono (fun _ _ h => h) fun res g w h => ?_
  obtain ⟨hRw, row, rfl⟩ := h
  exact hRw

/-- The output of a step is stored, or nothing changes; if that is not for a reason outside the
program, the step has an output already. -/
theorem triple_storeOutput {Q : Except Failure Unit → Deeds → World → Prop} {row : SubmissionRow}
    {result : StepResult}
    (hstored : ∀ g w store, P g w →
      w.store.insertOutput (Runner.outputRow row result w.store.outputs.nextId w.now) = some store →
      C.Leads (Q (.ok ())) g ⟨w, w.withStore store⟩)
    (hfailed : ∀ g w e, P g w → (e.IsForeign ∨ e.IsCollision ∧
      w.store.insertOutput (Runner.outputRow row result w.store.outputs.nextId w.now) = none) →
      C.Leads (Q (.error e)) g ⟨w, w⟩) :
    C.Triple P (Runner.storeOutput row result) Q := by
  have hclean : ∀ g w e, P g w → e.IsForeign → C.Leads (Q (.error e)) g ⟨w, w⟩ :=
    fun g w e h he => hfailed g w e h (.inl he)
  refine triple_statement fun g w h => ?_
  refine accepts_bind (fun e he => hclean g w e h (foreign_checkOutage w e he)) fun _ _ => ?_
  refine accepts_bind (fun e he => hclean g w e h (foreign_checkFits _ e he)) fun _ _ => ?_
  refine accepts_bind (fun e he => hclean g w e h (foreign_checkFits _ e he)) fun _ _ => ?_
  cases hi : w.store.insertOutput
      (Runner.outputRow row result w.store.outputs.nextId w.now) with
  | some store => exact hstored g w store h hi
  | none => exact hfailed g w _ h (.inr ⟨⟨_, rfl⟩, hi⟩)

/-! ## §4. New attempts. -/

/-- A new attempt looks whether the slot is taken.  If it is free, the new attempt restarts a
finished submission and reads its row, or it fails in a known way and has done nothing but read. -/
theorem triple_newAttempt_of_look {P' R : Deeds → World → Prop}
    {Q : Except Failure SubmissionRow → Deeds → World → Prop} {L : Failure → Prop}
    (hlook : C.Triple P (Job.readMemory fun w => (w.registries r.process).isActive id) fun
      | .ok true => Q (.error (Failure.ofCause (.concurrentRun id)))
      | .ok false => P'
      | .error _ => fun _ _ => False)
    (hP : C.Steady P') (hconflict : L (Failure.ofCause (.concurrentRun id)))
    (htransition : ∀ status c, Status.newAttempt status = .error c → L (Failure.ofCause c))
    (hread : ∀ g w, P' g w → ∀ e, w.store.submission id = .error e → L e)
    (hmove : ∀ g w row, P' g w → w.store.submissions.get? id = some row →
      (row.status = .completed ∨ row.status = .failed) →
      C.Leads R g ⟨w, w.withSubmission id fun row => row.restarted .pending⟩)
    (hlast : C.Triple R (Runner.reload id) Q) (hQ : ∀ e g w, P' g w → L e → Q (.error e) g w) :
    C.Triple P (r.newAttempt id) Q := by
  unfold Runner.newAttempt
  refine triple_bind hlook (fun active => ?_) fun e g w h => h.elim
  cases active with
  | true => exact triple_fail fun g w h => h
  | false =>
  show C.Triple P' _ Q
  refine triple_bind (hP.read (R := fun res => ∀ e, res = .error e → L e) hread) (fun row => ?_)
    fun e g w h => hQ e g w h.1 (h.2 e rfl)
  refine triple_refuse (fun _ g w h => hQ _ g w h.1 hconflict) fun _ => ?_
  refine triple_bind (R := fun res g w => P' g w ∧ (∀ target, res = .ok target → target = .pending) ∧
      ∀ e, res = .error e → L e) (triple_ofCauses (fun target ht g w h => ⟨h.1, ?_, ?_⟩)
        fun c hc g w h => ⟨h.1, ?_, ?_⟩) (fun target => ?_)
    fun e g w h => hQ e g w h.1 (h.2.2 e rfl)
  · rintro target' ⟨⟩
    unfold Status.newAttempt at ht
    split at ht <;> cases ht
    rfl
  · rintro e ⟨⟩
  · rintro target ⟨⟩
  · rintro e ⟨⟩
    exact htransition _ c hc
  refine Triple.of_fact (fun g w h => h.2.1 target rfl) ?_
  rintro rfl
  refine triple_bind (R := fun
    | .ok true => R
    | .ok false => P'
    | .error _ => fun _ _ => False) (triple_compareAndSet (fun g w row h hrow hs => ?_)
      fun g w h _ => hP g w h.1) (fun moved => ?_) fun e g w h => h.elim
  · exact hmove g w row h.1 hrow (by simpa using hs)
  cases moved with
  | false => exact triple_fail fun g w h => hQ _ g w h hconflict
  | true => exact hlast

/-- The same where nothing is known about the slot. -/
theorem triple_newAttempt {R : Deeds → World → Prop}
    {Q : Except Failure SubmissionRow → Deeds → World → Prop} {L : Failure → Prop}
    (hP : C.Quiet P) (hconflict : L (Failure.ofCause (.concurrentRun id)))
    (htransition : ∀ status c, Status.newAttempt status = .error c → L (Failure.ofCause c))
    (hread : ∀ g w, P g w → ∀ e, w.store.submission id = .error e → L e)
    (hmove : ∀ g w row, P g w → w.store.submissions.get? id = some row →
      (row.status = .completed ∨ row.status = .failed) →
      C.Leads R g ⟨w, w.withSubmission id fun row => row.restarted .pending⟩)
    (hlast : C.Triple R (Runner.reload id) Q) (hQ : ∀ e g w, P g w → L e → Q (.error e) g w) :
    C.Triple P (r.newAttempt id) Q := by
  refine triple_newAttempt_of_look ((hP.readMemory _).mono (fun _ _ h => h) fun res g w h => ?_)
    hP.steady hconflict htransition hread hmove hlast hQ
  match res with
  | .ok true => exact hQ _ g w h hconflict
  | .ok false => exact h
  | .error _ => exact h.elim

end Contract

end PromptForms
