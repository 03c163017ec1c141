/-
  PromptForms.Proofs.Lifecycle
  ────────────────────────────
  **THE LIFE OF A SUBMISSION.**

  A submission is accepted, taken up, ended, and perhaps restarted.  Each of these is one
  statement that tests the status and sets every column that depends on it, so the
  columns fit together at any time, whatever else is going on.  A contract says so, and
  every request keeps to it; a request that is answered with a conflict, or with another
  status that tells of no success, has not written anything.

      SubmissionRow.Fitting    message and time fit the status
      Becomes, Advance         what one statement makes of a row
      Orderly                  what one statement makes of all rows
      lifecycle                the contract
      Looks, Cautious, Avoids  a job writes nothing; it does not fail in some way
                               after it has written; it does not fail in this way
      Answered, Replied        a failure, and an outcome, is answered with a status of
                               some kind

  Main results:
    • `Becomes.fitting`, `Becomes.advance` — what a statement does to the columns.
    • `meets_handle` — every request keeps to the contract.
-/
import PromptForms.Proofs.Exclusive
import PromptForms.Proofs.Requests

namespace PromptForms

open Calendar (Instant)

/-! ## §1. Rows. -/

/-- Message and time fit the status. -/
def SubmissionRow.Fitting (row : SubmissionRow) : Prop :=
  match row.status with
  | .pending | .processing => row.errorMessage = none ∧ row.processedAt = none
  | .completed => row.errorMessage = none ∧ row.processedAt.isSome = true
  | .failed => row.errorMessage.isSome = true ∧ row.processedAt.isSome = true

/-- What one statement makes of a row, or of nothing. -/
inductive Becomes : Option SubmissionRow → SubmissionRow → Prop
  | accepted (row : SubmissionRow) (hs : row.status = .pending) (ha : row.attempt = 1)
      (he : row.errorMessage = none) (hp : row.processedAt = none) : Becomes none row
  | kept (row : SubmissionRow) : Becomes (some row) row
  | taken (row : SubmissionRow) (now : Instant) (hs : row.status = .pending) :
      Becomes (some row) (row.movedOn .processing now)
  | passed (row : SubmissionRow) (now : Instant) (hs : row.status = .pending) :
      Becomes (some row) (row.movedOn .completed now)
  | completed (row : SubmissionRow) (now : Instant) (hs : row.status = .processing) :
      Becomes (some row) (row.settled .completed none now)
  | failed (row : SubmissionRow) (message : String) (now : Instant)
      (hs : row.status = .processing) : Becomes (some row) (row.settled .failed (some message) now)
  | restarted (row : SubmissionRow) (hs : row.status = .completed ∨ row.status = .failed) :
      Becomes (some row) (row.restarted .pending)

/-- How status and attempt change together. -/
inductive Advance : Status × Int → Status × Int → Prop
  | taken (attempt : Int) : Advance (.pending, attempt) (.processing, attempt)
  | passed (attempt : Int) : Advance (.pending, attempt) (.completed, attempt)
  | completed (attempt : Int) : Advance (.processing, attempt) (.completed, attempt)
  | failed (attempt : Int) : Advance (.processing, attempt) (.failed, attempt)
  | restarted (status : Status) (attempt : Int) (h : status = .completed ∨ status = .failed) :
      Advance (status, attempt) (.pending, attempt + 1)

namespace Becomes

variable {row row' : SubmissionRow} {old : Option SubmissionRow}

/-- Columns that fit together still do afterwards. -/
theorem fitting (h : Becomes old row') (hold : ∀ row, old = some row → row.Fitting) :
    row'.Fitting := by
  cases h with
  | accepted _ hs ha he hp =>
    unfold SubmissionRow.Fitting
    rw [hs]
    exact ⟨he, hp⟩
  | kept => exact hold row' rfl
  | taken row now hs =>
    -- A pending row has neither a message nor a time, and both stay.
    have hfit := hold row rfl
    unfold SubmissionRow.Fitting at hfit
    rw [hs] at hfit
    exact hfit
  | passed row now hs =>
    have hfit := hold row rfl
    unfold SubmissionRow.Fitting at hfit
    rw [hs] at hfit
    exact ⟨hfit.1, rfl⟩
  | completed row now hs => exact ⟨rfl, rfl⟩
  | failed row message now hs => exact ⟨rfl, rfl⟩
  | restarted row hs => exact ⟨rfl, rfl⟩

/-- Status and attempt stay, or they advance together. -/
theorem advance (h : Becomes (some row) row') :
    (row'.status, row'.attempt) = (row.status, row.attempt) ∨
      Advance (row.status, row.attempt) (row'.status, row'.attempt) := by
  cases h with
  | kept => exact .inl rfl
  | taken _ now hs =>
    right
    rw [hs]
    exact .taken row.attempt
  | passed _ now hs =>
    right
    rw [hs]
    exact .passed row.attempt
  | completed _ now hs =>
    right
    rw [hs]
    exact .completed row.attempt
  | failed _ message now hs =>
    right
    rw [hs]
    exact .failed row.attempt
  | restarted _ hs => exact .inr (.restarted row.status row.attempt hs)

end Becomes

/-! ## §2. Stores. -/

/-- Submissions have ids of their own. -/
def Store.Distinct (s : Store) : Prop := (s.submissions.map HasId.id).Nodup

/-- What one statement makes of all rows. -/
structure Orderly (s s' : Store) : Prop where
  distinct : s'.Distinct
  rows : ∀ id row', s'.submissions.get? id = some row' → Becomes (s.submissions.get? id) row'

section

variable {s s' : Store}

theorem orderly_of_eq (h : s.Distinct) (hsub : s'.submissions = s.submissions) :
    Orderly s s' := by
  refine ⟨?_, fun id row' hrow => ?_⟩
  · unfold Store.Distinct
    rw [hsub]
    exact h
  · rw [hsub] at hrow
    rw [hrow]
    exact .kept row'

/-- A submission is changed. -/
theorem orderly_replace (h : s.Distinct) {id : Int} {row : SubmissionRow}
    {change : SubmissionRow → SubmissionRow} (hc : ∀ row, (change row).id = row.id)
    (hrow : s.submissions.get? id = some row) (hb : Becomes (some row) (change row)) :
    Orderly s { s with submissions := s.submissions.replace id change } where
  distinct := by
    show (List.map HasId.id (Table.replace s.submissions id change)).Nodup
    rw [Table.map_id_replace hc]
    exact h
  rows := by
    intro other row' hrow'
    have hnew : Table.get? (Table.replace s.submissions id change) other = some row' := hrow'
    rw [Table.get?_replace hc] at hnew
    split at hnew
    · rename_i he
      rw [hrow] at hnew
      cases hnew
      rw [he, hrow]
      exact hb
    · rw [hnew]
      exact .kept row'

/-- A submission is added under a new id. -/
theorem orderly_insert (h : s.Distinct) {row : SubmissionRow} (hid : row.id = s.submissions.nextId)
    (hb : Becomes none row) : Orderly s { s with submissions := s.submissions ++ [row] } := by
  have hnone : s.submissions.get? row.id = none := hid ▸ Table.get?_nextId
  refine ⟨Table.nodup_append_nextId h hid, fun other row' hrow' => ?_⟩
  have hnew : Table.get? (s.submissions ++ [row]) other = some row' := hrow'
  rw [Table.get?_append_nextId hid] at hnew
  split at hnew
  · rename_i he
    cases hnew
    rw [show other = row.id from he, hnone]
    exact hb
  · rw [hnew]
    exact .kept row'

/-- Submissions are removed. -/
theorem orderly_remove (h : s.Distinct) {p : SubmissionRow → Bool}
    (hsub : s'.submissions = s.submissions.remove p) : Orderly s s' := by
  refine ⟨?_, fun id row' hrow' => ?_⟩
  · unfold Store.Distinct
    rw [hsub]
    exact Table.nodup_map_remove h p
  · -- What is left under an id was there before, since no other row had this id.
    rw [hsub] at hrow'
    have hmem : row' ∈ s.submissions := (Table.mem_remove.1 (Table.mem_of_get? hrow')).1
    have hold := Table.get?_of_mem h hmem
    rw [show HasId.id row' = id from Table.id_of_get? hrow'] at hold
    rw [hold]
    exact .kept row'

end

/-! ## §3. The contract. -/

/-- Tasks do only what is orderly, and they put up with anything.  Unless threads are interleaved, a
task is alone with the store and the active runs during its turn. -/
def lifecycle (interleaved : Prop) : Contract where
  allows _ d := d.before.store.Distinct → Orderly d.before.store d.after.store
  calm _ w w' := interleaved ∨ (w'.store = w.store ∧ w'.registries = w.registries)
  pause _ _ _ := True

namespace Lifecycle

variable {α β : Type} {b : Prop}

open Exclusive (writesNothing_concat)

/-- A failure of a certain kind. -/
def Fails (E : Failure → Prop) (res : Except Failure α) : Prop := ∃ e, res = .error e ∧ E e

theorem not_fails_ok {E : Failure → Prop} (a : α) : ¬Fails E (.ok a : Except Failure α) := by
  rintro ⟨e, h, -⟩
  cases h

theorem fails_error {E : Failure → Prop} {e : Failure} :
    Fails E (.error e : Except Failure α) ↔ E e := by
  constructor
  · rintro ⟨e', h, he⟩
    cases h
    exact he
  · exact fun he => ⟨e, rfl, he⟩

/-- Nothing has been written. -/
def silent (g : Deeds) (_ : World) : Prop := WritesNothing g

/-- An orderly statement is allowed; what holds after it does not depend on the world. -/
theorem leads_of_orderly {P : Deeds → Prop} {g : Deeds} {d : Deed}
    (ho : d.before.store.Distinct → Orderly d.before.store d.after.store) (hP : P (g ++ [d])) :
    (lifecycle b).Leads (fun g _ => P g) g d := ⟨ho, fun _ _ => hP⟩

theorem allows_of_store_eq {g : Deeds} {d : Deed} (h : d.after.store = d.before.store) :
    (lifecycle b).allows g d := by
  intro hd
  rw [h]
  exact orderly_of_eq hd rfl

theorem quiet_of {P : Deeds → Prop}
    (hP : ∀ g d, P g → d.after.store = d.before.store → P (g ++ [d])) :
    (lifecycle b).Quiet fun g _ => P g :=
  fun g d h hstore => ⟨allows_of_store_eq hstore, fun _ _ => hP g d h hstore⟩

theorem quiet_silent : (lifecycle b).Quiet silent :=
  quiet_of (P := WritesNothing) fun _ _ => writesNothing_concat

theorem quiet_anyhow (p : Prop) : (lifecycle b).Quiet fun _ _ => p :=
  quiet_of (P := fun _ => p) fun _ _ h _ => h

/-! ## §4. Jobs. -/

/-- The job writes nothing. -/
def Looks (b : Prop) (j : Job α) : Prop := (lifecycle b).Triple silent j fun _ => silent

/-- If the job ends as described, it has written nothing. -/
def Cautious (b : Prop) (B : Except Failure α → Prop) (j : Job α) : Prop :=
  (lifecycle b).Triple silent j fun res g _ => B res → WritesNothing g

/-- The job does not end as described. -/
def Avoids (b : Prop) (B : Except Failure α → Prop) (j : Job α) : Prop :=
  (lifecycle b).Triple (fun _ _ => True) j fun res _ _ => ¬B res

section

variable {B : Except Failure α → Prop} {E : Failure → Prop}

theorem cautious_of_looks {j : Job α} (hj : Looks b j) : Cautious b B j :=
  Contract.Triple.mono hj (fun _ _ h => h) fun _ _ _ h _ => h

/-- Writing nothing is an invariant like any other. -/
theorem looks : Compositional (Looks b) := quiet_silent.compositional

theorem looks_inMemory {f : World → Except Failure (α × World)}
    (hf : ∀ w a w', f w = .ok (a, w') → w'.store = w.store) : Looks b (Job.inMemory f) :=
  quiet_silent.keeps_inMemory hf

/-- A statement changes nothing if it fails. -/
theorem cautious_statement {f : World → Except Failure (α × World)}
    (hf : ∀ w a w', w.store.Distinct → f w = .ok (a, w') → Orderly w.store w'.store) :
    Cautious b (Fails E) (Job.statement f) := by
  refine Contract.triple_statement fun g w h => ?_
  cases hw : f w with
  | ok pair =>
    exact leads_of_orderly (P := fun g => Fails E (.ok pair.1) → WritesNothing g)
      (fun hd => hf w pair.1 pair.2 hd hw) fun hfails => absurd hfails (not_fails_ok _)
  | error e =>
    exact leads_of_orderly (P := fun g => Fails E (.error e : Except Failure α) → WritesNothing g)
      (fun hd => orderly_of_eq hd rfl) fun _ => writesNothing_concat h rfl

/-- A job after one that only looked. -/
theorem cautious_of_looks_bind {j : Job β} {f : β → Job α} (hj : Looks b j)
    (hf : ∀ a, Cautious b B (f a)) : Cautious b B (j >>= f) :=
  Contract.triple_bind hj hf fun _ _ _ h _ => h

/-- A job after one that may have written. -/
theorem cautious_bind {j : Job β} {f : β → Job α} (hj : Cautious b (Fails E) j)
    (hf : ∀ a, Avoids b B (f a)) (hE : ∀ e, B (.error e) → E e) : Cautious b B (j >>= f) := by
  refine Contract.triple_bind hj (fun a => ?_) fun e g w h hB => h (fails_error.2 (hE e hB))
  exact (hf a).mono (fun _ _ _ => trivial) fun _ _ _ h hB => absurd hB h

theorem cautious_refuse {c : Prop} [Decidable c] {cause : Cause} {rest : PUnit → Job α}
    (hrest : Cautious b B (rest ⟨⟩)) :
    Cautious b B (if c then Job.fail cause >>= rest else rest ⟨⟩) :=
  Contract.triple_refuse (fun _ _ _ h _ => h) fun _ => hrest

theorem avoids_pure {a : α} (h : ¬B (.ok a)) : Avoids b B (pure a : Job α) :=
  Contract.triple_pure fun _ _ _ => h

theorem avoids_throw {e : Failure} (h : ¬E e) : Avoids b (Fails E) (throw e : Job α) :=
  Contract.triple_throw fun _ _ _ hf => h (fails_error.1 hf)

theorem avoids_bind {j : Job β} {f : β → Job α} (hj : Avoids b (Fails E) j)
    (hf : ∀ a, Avoids b B (f a)) (hE : ∀ e, B (.error e) → E e) : Avoids b B (j >>= f) :=
  Contract.triple_bind hj (fun a => (hf a).mono (fun _ _ _ => trivial) fun _ _ _ h => h)
    fun e _ _ h hB => h (fails_error.2 (hE e hB))

theorem avoids_read {f : World → Except Failure α} (hf : ∀ w, ¬B (f w)) :
    Avoids b B (Job.read f) :=
  ((quiet_anyhow True).read (R := fun res => ¬B res) fun _ w _ => hf w).mono (fun _ _ h => h)
    fun _ _ _ h => h.2

end

/-! ## §5. The status of an answer. -/

section

variable {p : Nat → Prop}

/-- The failure is answered, and the status is of the kind. -/
def Answered (p : Nat → Prop) (e : Failure) : Prop :=
  ∃ answer, Web.answerOfFailure e = .ok answer ∧ p answer.status

/-- There is an answer, and the status is of the kind. -/
def Replied (p : Nat → Prop) (res : Except Failure Web.Answer) : Prop :=
  ∃ answer, Web.asAnswer res = .ok answer ∧ p answer.status

/-- No success is of the kind. -/
def NoSuccess (p : Nat → Prop) : Prop := ∀ status, status < 300 → ¬p status

theorem answered_of_replied (e : Failure) (h : Replied p (.error e)) : Answered p e := h

theorem not_replied_ok {answer : Web.Answer} (h : ¬p answer.status) : ¬Replied p (.ok answer) := by
  rintro ⟨other, heq, hs⟩
  cases heq
  exact h hs

theorem not_answered_of_isForeign {e : Failure} (h : e.IsForeign) : ¬Answered p e := by
  rintro ⟨answer, hanswer, -⟩
  cases e with
  | domain error => exact h error rfl
  | invalid issues => cases hanswer
  | badAnswer => cases hanswer
  | store fault => cases hanswer
  | outside name message => cases hanswer
  | interrupted => cases hanswer

theorem not_answered_submissionNotFound (h : ¬p 404) (id : Int) :
    ¬Answered p (Failure.ofCause (.submissionNotFound id)) := by
  rintro ⟨answer, hanswer, hs⟩
  cases hanswer
  exact h hs

/-- A document that cannot be shown is no answer. -/
theorem avoids_shown (document : Schema.Checked Json) :
    Avoids b (Fails (Answered p)) (Web.shown document) := by
  unfold Web.shown
  split
  · exact avoids_pure (not_fails_ok _)
  · exact avoids_throw (not_answered_of_isForeign fun error h => nomatch h)
  · rename_i failure _ hfailure
    exact avoids_throw (not_answered_of_isForeign (foreign_orFail document failure hfailure))

/-- A job whose value is shown. -/
theorem cautious_shown {j : Job α} (hj : Cautious b (Fails (Answered p)) j)
    (document : α → Schema.Checked Json) {status : Nat} (hstatus : ¬p status) :
    Cautious b (Replied p) (do
      let a ← j
      let json ← Web.shown (document a)
      return Web.Answer.document status json) := by
  refine cautious_bind hj (fun a => ?_) answered_of_replied
  refine avoids_bind (avoids_shown _) (fun json => ?_) answered_of_replied
  exact avoids_pure (not_replied_ok hstatus)

/-- A job whose value is not shown. -/
theorem cautious_unshown {j : Job α} (hj : Cautious b (Fails (Answered p)) j) {answer : Web.Answer}
    (hstatus : ¬p answer.status) : Cautious b (Replied p) (j >>= fun _ => pure answer) :=
  cautious_bind hj (fun _ => avoids_pure (not_replied_ok hstatus)) answered_of_replied

end

/-! ## §6. Forms and pipelines. -/

section

variable {E : Failure → Prop}

/-- A statement that keeps the submissions. -/
theorem cautious_elsewhere {f : World → Except Failure (α × World)}
    (hf : ∀ w a w', f w = .ok (a, w') → w'.store.submissions = w.store.submissions) :
    Cautious b (Fails E) (Job.statement f) :=
  cautious_statement fun w a w' hd h => orderly_of_eq hd (hf w a w' h)

theorem cautious_createForm (draft : FormDraft) : Cautious b (Fails E) (Forms.create draft) := by
  unfold Forms.create
  refine cautious_of_looks_bind (looks.ofCauses _) fun _ => ?_
  refine cautious_of_looks_bind (looks_inMemory fun w a w' h => by cases h; rfl) fun token => ?_
  refine cautious_elsewhere fun w a w' hw => ?_
  simp only at hw
  split at hw
  · rename_i store hins
    cases hw
    cases Store.eq_of_insertForm hins
    rfl
  · cases hw

theorem cautious_updateForm (form : Int) (patch : FormPatch) :
    Cautious b (Fails E) (Forms.update form patch) := by
  unfold Forms.update
  refine cautious_of_looks_bind (looks.read _) fun row => ?_
  refine cautious_of_looks_bind (looks.ofCauses _) fun _ => cautious_elsewhere fun w a w' hw => ?_
  cases hp : Forms.patched row patch w.now with
  | ok new =>
    rw [hp] at hw
    cases hw
    rfl
  | error e =>
    rw [hp] at hw
    cases hw

theorem cautious_deleteForm (form : Int) : Cautious b (Fails E) (Forms.delete form) := by
  unfold Forms.delete
  refine cautious_of_looks_bind (looks.read _) fun _ => ?_
  refine cautious_of_looks_bind (looks.read _) fun found => ?_
  have hdelete : Cautious b (Fails E)
      (Job.statement fun w => .ok ((), w.withStore (w.store.deleteForm form))) :=
    cautious_statement fun w a w' hd hw => by
      cases hw
      exact orderly_remove hd rfl
  cases found with
  | some submission => exact cautious_of_looks_bind (looks.fail _) fun _ => hdelete
  | none => exact hdelete

theorem cautious_putPipeline (form : Int) (draft : PipelineDraft) :
    Cautious b (Fails E) (Forms.putPipeline form draft) := by
  refine cautious_elsewhere fun w a w' hw => ?_
  simp only at hw
  split at hw
  · cases hw
    rfl
  · split at hw
    · rename_i store hins
      cases hw
      cases Store.eq_of_insertPipeline hins
      rfl
    · cases hw

theorem cautious_savePipeline (form : Int) (draft : PipelineDraft) :
    Cautious b (Fails E) (Forms.savePipeline form draft) := by
  unfold Forms.savePipeline
  refine cautious_of_looks_bind (looks.read _) fun row => ?_
  refine cautious_of_looks_bind (looks.ofExcept _) fun fields => ?_
  refine cautious_of_looks_bind (looks.ofCauses _) fun warnings => ?_
  exact cautious_bind (cautious_putPipeline form draft)
    (fun saved => avoids_pure (not_fails_ok _)) fun e => fails_error.1

theorem cautious_deletePipeline (form : Int) :
    Cautious b (Fails E) (Forms.deletePipeline form) := by
  unfold Forms.deletePipeline
  refine cautious_of_looks_bind (looks.getPipeline form) fun row => ?_
  refine cautious_elsewhere fun w a w' hw => ?_
  cases hw
  rfl

/-! ## §7. Submissions. -/

theorem cautious_submit (token : String) (data : Members) (sender : Submissions.Sender) :
    Cautious b (Fails E) (Submissions.submit token data sender) := by
  unfold Submissions.submit
  refine cautious_of_looks_bind (looks.getPublic token) fun form => ?_
  refine cautious_of_looks_bind (looks.ofExcept _) fun fields => ?_
  refine cautious_of_looks_bind (looks.ofExcept _) fun values => ?_
  refine cautious_statement fun w a w' hd hw => ?_
  simp only at hw
  split at hw
  · rename_i store hins
    cases hw
    cases Store.eq_of_insertSubmission hins
    show Orderly w.store { w.store with submissions := Table.insert w.store.submissions _ }
    rw [Table.insert_nextId rfl]
    exact orderly_insert hd rfl (.accepted _ rfl rfl rfl rfl)
  · cases hw

theorem cautious_deleteSubmission (submission : Int) :
    Cautious b (Fails E) (Submissions.delete submission) := by
  unfold Submissions.delete
  refine cautious_of_looks_bind (looks.read _) fun row => cautious_refuse ?_
  refine cautious_statement fun w a w' hd hw => ?_
  cases hw
  exact orderly_remove hd rfl

/-- A new attempt reads the row that it has just restarted.  Only another thread can have removed
it by then. -/
theorem cautious_newAttempt {p : Nat → Prop} (hgone : b → ¬p 404) (r : Runner) (submission : Int) :
    Cautious b (Fails (Answered p)) (r.newAttempt submission) := by
  refine Contract.triple_newAttempt (R := fun _ w => ¬b → Present submission w) (L := fun _ => True)
    quiet_silent trivial (fun _ _ _ => trivial) (fun _ _ _ _ _ => trivial)
    (fun g w row _ hrow hs => ?_) (Contract.triple_read fun g w h => ?_) fun e g w h _ _ => h
  · have hnew := World.get?_withSubmission_self (fun row => row.restarted .pending) (fun _ => rfl) hrow
    refine ⟨fun hd => orderly_replace hd (fun _ => rfl) hrow (.restarted row hs), fun w' hw hb => ?_⟩
    unfold Present
    rw [(hw.resolve_left hb).1]
    exact ⟨_, hnew⟩
  · refine ⟨allows_of_store_eq rfl, fun _ _ hfails => absurd hfails ?_⟩
    rintro ⟨e, he, hanswered⟩
    rcases failsOnly_submission w.store submission e he with hforeign | rfl
    · exact not_answered_of_isForeign hforeign hanswered
    · by_cases hb : b
      · exact not_answered_submissionNotFound (hgone hb) submission hanswered
      · obtain ⟨row, hrow⟩ := h hb
        have hfits : Store.fits submission = true := by
          by_contra hlarge
          unfold Store.submission Store.checkFits at he
          rw [if_neg hlarge] at he
          cases he
        rw [Store.submission_eq_ok.2 ⟨hfits, hrow⟩] at he
        cases he

theorem looks_cancel (r : Runner) (submission : Int) : Looks b (r.cancel submission) :=
  looks_inMemory fun w a w' h => by cases h; rfl

end

/-! ## §8. Requests. -/

section

variable {p : Nat → Prop} {r : Runner} {action : Web.Action}

theorem status_start (what : Web.Start) : what.status < 300 := by
  cases what with
  | submit token data sender => exact show (201 : Nat) < 300 by decide
  | rerun submission => exact show (202 : Nat) < 300 by decide

theorem cautious_startedRow {what : Web.Start}
    (hgone : ∀ submission, what = .rerun submission → b → ¬p 404) :
    Cautious b (Fails (Answered p)) (Web.startedRow r what) := by
  cases what with
  | submit token data sender => exact cautious_submit token data sender
  | rerun submission => exact cautious_newAttempt (hgone submission rfl) r submission

/-- An action that is answered with a status of the kind has written nothing. -/
theorem cautious_answer (hp : NoSuccess p)
    (hgone : ∀ submission, action = .start (.rerun submission) → b → ¬p 404) :
    Cautious b (Replied p) (Web.answer r action) := by
  have created : ¬p 201 := hp 201 (by decide)
  have done : ¬p 200 := hp 200 (by decide)
  have gone : ¬p 204 := hp 204 (by decide)
  cases action with
  | createForm draft => exact cautious_shown (cautious_createForm draft) _ created
  | updateForm form patch => exact cautious_shown (cautious_updateForm form patch) _ done
  | deleteForm form => exact cautious_unshown (cautious_deleteForm form) gone
  | savePipeline form draft =>
    exact cautious_shown (cautious_savePipeline form draft) (fun saved =>
      Web.savedPipeline saved.1 saved.2) done
  | deletePipeline form => exact cautious_unshown (cautious_deletePipeline form) gone
  | deleteSubmission submission => exact cautious_unshown (cautious_deleteSubmission submission) gone
  | start what =>
    have started := cautious_startedRow (r := r) fun submission h => hgone submission (h ▸ rfl)
    exact cautious_shown started _ (hp _ (status_start what))
  | cancel submission => exact cautious_of_looks (looks.answer (looks_cancel r submission))
  | listForms | publicForm | getForm | getPipeline | stepVariables | listSubmissions | stats
  | getSubmission | health => exact cautious_of_looks (looks.answer trivial)

/-- A request that is answered with a status of the kind has written nothing and starts nothing. -/
def handledEnds (p : Nat → Prop) (handled : Web.Handled) (g : Deeds) : Prop :=
  (∃ answer, handled.outcome = .ok answer ∧ p answer.status) →
    WritesNothing g ∧ handled.dispatched = []

/-- A document that cannot be shown leaves no answer. -/
theorem not_replied_shown {view : Except Failure Json} {status : Nat} (hs : ¬p status)
    (hview : ¬Fails (Answered p) view) : ¬Replied p (view.map (Web.Answer.document status)) := by
  cases view with
  | ok json => exact not_replied_ok hs
  | error e => exact fun hc => hview (fails_error.2 hc)

theorem meets_perform (hp : NoSuccess p)
    (hgone : ∀ submission, action = .start (.rerun submission) → b → ¬p 404) (w : World) :
    (lifecycle b).Meets (Web.perform r action) (fun handled g _ => handledEnds p handled g) [] w := by
  have hstart : WritesNothing [] := fun d hd => absurd hd List.not_mem_nil
  by_cases hwhat : ∃ what, action = .start what
  · obtain ⟨what, rfl⟩ := hwhat
    have started := cautious_startedRow (r := r) fun submission h => hgone submission (h ▸ rfl)
    refine (Contract.meets_bind ..).2 (Contract.Meets.mono (fun res g w h => ?_) _ [] w
      (started [] w hstart))
    cases res with
    | error e => exact fun hc => ⟨h (fails_error.2 hc), rfl⟩
    | ok row =>
      -- The row is written by now, but what comes is of another kind.
      refine (Contract.meets_bind ..).2 (Contract.Meets.mono (fun view g w hview hc => ?_) _ g w
        (avoids_shown (p := p) _ g w trivial))
      exact absurd hc (not_replied_shown (hp _ (status_start what)) hview)
  · rw [Web.perform_eq_bind r fun what he => hwhat ⟨what, he⟩]
    refine (Contract.meets_bind ..).2 (Contract.Meets.mono (fun res g w h hc => ⟨h hc, rfl⟩) _ [] w
      (cautious_answer hp hgone [] w hstart))

/-- **Requests.**  Whatever is asked, answering it keeps to the contract, and a request that is
answered with a status of the kind has written nothing and starts nothing. -/
theorem meets_handle (hp : NoSuccess p) (r : Runner) {q : Web.HttpRequest}
    (hgone : ∀ submission, q.Asks (.start (.rerun submission)) → b → ¬p 404) (w : World) :
    (lifecycle b).Meets (Web.handle r q) (fun handled g _ => handledEnds p handled g) [] w := by
  by_cases hasks : ∃ action, q.Asks action
  · obtain ⟨action, hasks⟩ := hasks
    rw [Web.handle_of_asks hasks]
    exact meets_perform hp (fun submission he => hgone submission (he ▸ hasks)) w
  · obtain ⟨outcome, hdone⟩ := Web.exists_handle_eq_done (not_exists.1 hasks) r
    rw [hdone]
    exact fun _ => ⟨fun d hd => absurd hd List.not_mem_nil, rfl⟩

end

end Lifecycle

end PromptForms
