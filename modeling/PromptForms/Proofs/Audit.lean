/-
  PromptForms.Proofs.Audit
  ────────────────────────
  **THE AUDIT TRAIL.**

  From an empty store on, requests are served and runs, new attempts, reruns and requests
  to stop begin in any order, also while runs wait for replies.  The trail of every
  attempt stays `1 … k`; a completed attempt has one output for each step that was loaded
  when it was claimed; and no run ever finds an output in the place of its own.

      Audit.outline       a run under the contract `upkeep`
      Recorded            what the log and the store have in common
      history, keepers    the setting, and the agreement of all tasks

  Main result:
    • `audit_trail` — what holds of every submission and every attempt in every scene that
      can be reached, and what the next step does to the outputs.
-/
import PromptForms.Proofs.Outline
import PromptForms.Proofs.Upkeep

namespace PromptForms

namespace Audit

variable {id : Int} {g : Deeds} {d : Deed} {w w' : World}

open Upkeep (sound quiet_sound quiet_store)

/-! ## §1. The conditions on the way. -/

/-- The submission is being processed, and its attempt has `k` outputs. -/
def Carried (id : Int) (row : SubmissionRow) (k : Nat) (s : Store) : Prop :=
  (∃ now, s.submissions.get? id = some now ∧ now.status = .processing ∧ now.attempt = row.attempt) ∧
    s.numbers id row.attempt = upTo k

/-- The run holds the submission, and there were `n` steps when it claimed it. -/
def Charged (id : Int) (n : Nat) (g : Deeds) : Prop :=
  g.Holds id ∧ ∃ claim, g.lastClaim? id = some claim ∧ claim.before.store.stepCount id = n

/-- The run holds the submission, and `k` of `n` steps have stored their outputs. -/
def held (id : Int) (row : SubmissionRow) (n k : Nat) (g : Deeds) (w : World) : Prop :=
  (row.id = id ∧ Store.fits id = true) ∧ (w.store.Sound ∧ Carried id row k w.store) ∧ Charged id n g

/-- There is a row, and it can be read. -/
def closed (id : Int) (_ : Deeds) (w : World) : Prop :=
  w.store.Sound ∧ ∃ row, w.store.submission id = .ok row

theorem quiet_closed : upkeep.Quiet (closed id) := quiet_store fun s => ∃ row, s.submission id = .ok row

theorem charged_concat {n : Nat} (h : Charged id n g)
    (hs : d.after.status? id = d.before.status? id) : Charged id n (g ++ [d]) := by
  obtain ⟨hholds, claim, hclaim, hn⟩ := h
  refine ⟨(Deeds.holds_concat_of_status?_eq hs).2 hholds, claim, ?_, hn⟩
  rw [Deeds.lastClaim?_concat, if_neg (Deed.not_claims_of_status?_eq hs)]
  exact hclaim

theorem carried_of_same {row : SubmissionRow} {k : Nat} {s s' : Store} (h : Carried id row k s)
    (hs : SameSubmission id s s') : Carried id row k s' := by
  unfold Carried
  rw [hs.row, Store.numbers_eq_of_trail_eq hs.trail]
  exact h

theorem status?_of_carried {row : SubmissionRow} {k : Nat} (h : Carried id row k w.store) :
    w.status? id = some .processing := by
  obtain ⟨⟨now, hnow, hs, -⟩, -⟩ := h
  exact World.status?_eq_some.2 ⟨now, hnow, hs⟩

theorem quiet_held (row : SubmissionRow) (n k : Nat) : upkeep.Quiet (held id row n k) := by
  intro g d h hstore
  obtain ⟨hallowed, hcalm⟩ := quiet_store (Carried id row k) g d h.2.1 hstore
  exact ⟨hallowed, fun w hw => ⟨h.1, hcalm w hw,
    charged_concat h.2.2 (Deed.status?_eq_of_store_eq hstore id)⟩⟩

/-! ## §2. The statements that write. -/

theorem same_withSubmission {change : SubmissionRow → SubmissionRow}
    (hc : ∀ row, (change row).id = row.id) {other : Int} (hne : other ≠ id) :
    SameSubmission other w.store (w.withSubmission id change).store :=
  ⟨(World.get?_withSubmission hc other).trans (if_neg hne), rfl⟩

/-- Changing a submission is lawful if it is not somebody else's. -/
theorem lawful_withSubmission {row : SubmissionRow} {change : SubmissionRow → SubmissionRow}
    (hc : ∀ row, (change row).id = row.id) (hrow : w.store.submissions.get? id = some row)
    (hsound : (w.withSubmission id change).store.Sound)
    (hmine : row.status = .processing → g.Holds id)
    (hcompleted : (change row).status = .completed →
      (Deed.claims id ⟨w, w.withSubmission id change⟩ ∧
        w.store.numbers id (change row).attempt = upTo (w.store.stepCount id)) ∨
      (g.Holds id ∧ w.status? id = some .processing ∧ ∃ claim, g.lastClaim? id = some claim ∧
        w.store.numbers id (change row).attempt = upTo (claim.before.store.stepCount id))) :
    Lawful g ⟨w, w.withSubmission id change⟩ where
  sound := hsound
  kept := fun _ ho => .inl ho
  others := by
    intro other hs hother
    refine same_withSubmission hc fun he => hother ?_
    subst he
    obtain ⟨row', hrow', hs'⟩ := World.status?_eq_some.1 hs
    have heq : some row' = some row := hrow'.symm.trans hrow
    cases heq
    exact hmine hs'
  completed := by
    intro other row' hrow' hs
    by_cases he : other = id
    · subst he
      have hnew := World.get?_withSubmission_self change hc hrow
      have heq : some (change row) = some row' := hnew.symm.trans hrow'
      cases heq
      exact .inr (hcompleted hs)
    · exact .inl (same_withSubmission hc he)

/-- Storing the next output of a held submission is lawful. -/
theorem lawful_withOutput {row : SubmissionRow} {n k : Nat} {o : OutputRow}
    (h : held id row n k g w) (hid : o.submissionId = id) (ha : o.attempt = row.attempt)
    (hn : o.stepNumber = k + 1) : Lawful g ⟨w, w.withStore (w.store.withOutput o)⟩ := by
  obtain ⟨-, ⟨hsound, ⟨now, hnow, hs, hattempt⟩, hk⟩, hcharged⟩ := h
  have hsame : ∀ other, other ≠ id → SameSubmission other w.store (w.store.withOutput o) := by
    intro other hne
    refine ⟨rfl, (Store.trail_withOutput w.store o other).trans (if_neg fun he => hne ?_)⟩
    rw [← he, hid]
  -- The holder's submission is being processed, so none that is completed is touched.
  refine ⟨?_, fun _ ho => .inl (List.mem_append_left _ ho), fun other _ hother => ?_,
    fun other row' hrow' hs' => .inl ?_⟩
  · have howner : w.store.submissions.get? o.submissionId = some now := by
      rw [hid]
      exact hnow
    refine hsound.withOutput howner (by rw [hs]; decide) (ha.trans hattempt.symm) ?_ hn
    rw [hid, ha]
    exact hk
  · exact hsame other fun he => hother (he ▸ hcharged.1)
  · refine hsame other fun he => ?_
    have hrow : w.store.submissions.get? other = some row' := hrow'
    rw [he, hnow] at hrow
    cases hrow
    rw [hs] at hs'
    cases hs'

theorem leads_withOutput {row : SubmissionRow} {n k : Nat} {o : OutputRow}
    (h : held id row n k g w) (hid : o.submissionId = id) (ha : o.attempt = row.attempt)
    (hn : o.stepNumber = k + 1) :
    upkeep.Leads (held id row n (k + 1)) g ⟨w, w.withStore (w.store.withOutput o)⟩ := by
  have hlawful := lawful_withOutput h hid ha hn
  obtain ⟨hrow, ⟨-, ⟨now, hnow⟩, hk⟩, hcharged⟩ := h
  refine ⟨fun _ => hlawful, fun w' (hw : w'.store = _) => ⟨hrow, ⟨?_, ⟨now, ?_⟩, ?_⟩, ?_⟩⟩
  · rw [hw]
    exact hlawful.sound
  · rw [hw]
    exact hnow
  · rw [hw]
    show (w.store.withOutput o).numbers id row.attempt = _
    rw [Store.numbers_withOutput, if_pos ⟨hid, ha⟩, hk, hn, upTo_succ]
  · exact charged_concat hcharged rfl

/-! ## §3. The outline. -/

/-- The run has read the row. -/
def seen (id : Int) (row : SubmissionRow) (_ : Deeds) (w : World) : Prop :=
  w.store.Sound ∧ w.store.submission id = .ok row

/-- The run has read the row and the steps. -/
def ready (id : Int) (row : SubmissionRow) (steps : List Step) (_ : Deeds) (w : World) : Prop :=
  w.store.Sound ∧ w.store.submission id = .ok row ∧ w.store.activeSteps row.formId = .ok steps

/-- The run has failed, but not for a row like its own. -/
def lost (e : Failure) (_ : Deeds) (w : World) : Prop := w.store.Sound ∧ ¬e.IsCollision

theorem not_isCollision_concurrentRun : ¬(Failure.ofCause (.concurrentRun id)).IsCollision := by
  rintro ⟨message, h⟩
  cases h

theorem not_isCollision_of_transition {status target : Status} {c : Cause}
    (h : status.transition target = .error c) : ¬(Failure.ofCause c).IsCollision := by
  unfold Status.transition at h
  split at h <;> cases h
  rintro ⟨message, h⟩
  cases h

theorem stepCount_of_ready {row : SubmissionRow} {steps : List Step} (h : ready id row steps g w) :
    w.store.stepCount id = steps.length := by
  obtain ⟨-, hrow, hsteps⟩ := h
  unfold Store.stepCount
  rw [(Store.submission_eq_ok.1 hrow).2]
  simp only [hsteps]

/-- A pending submission moves on. -/
theorem sound_movedOn {row : SubmissionRow} {target : Status} (hsound : w.store.Sound)
    (hrow : w.store.submissions.get? id = some row) (ht : target ≠ .pending) :
    (w.withSubmission id fun row => row.movedOn target w.now).store.Sound :=
  hsound.replace (fun _ => rfl) hrow (Int.le_refl _) fun h => absurd h ht

/-- The attempt of a submission is ended. -/
theorem sound_settled {row : SubmissionRow} {target : Status} (message : Option String)
    (hsound : w.store.Sound) (hrow : w.store.submissions.get? id = some row)
    (ht : target ≠ .pending) :
    (w.withSubmission id fun row => row.settled target message w.now).store.Sound :=
  hsound.replace (fun _ => rfl) hrow (Int.le_refl _) fun h => absurd h ht

/-- What leaving `pending` has to establish. -/
theorem triple_leavePending (row : SubmissionRow) (steps : List Step) (target : Status)
    (ht : target ≠ .pending) {Q : Deeds → World → Prop}
    (hcompleted : target = .completed → steps = [])
    (hQ : ∀ g d, ready id row steps g d.before → row.status = .pending →
      d.before.status? id = some .pending → d.after.store.Sound →
      (∃ now, d.after.store.submissions.get? id = some now ∧ now.status = target ∧
        now.attempt = row.attempt) →
      (∀ attempt, d.after.store.numbers id attempt = d.before.store.numbers id attempt) →
      ∀ w, w.store = d.after.store → Q (g ++ [d]) w) :
    upkeep.Triple (ready id row steps) (Runner.leavePending id target) fun
      | .ok () => Q
      | .error e => lost e := by
  refine Contract.triple_leavePending (fun g w row' h hrow hs => ?_) fun g w h _ => ?_
  · have heq : some row' = some row := hrow.symm.trans (Store.submission_eq_ok.1 h.2.1).2
    cases heq
    have hsound := sound_movedOn h.1 hrow ht
    have hnew := World.get?_withSubmission_self (fun row => row.movedOn target w.now)
      (fun _ => rfl) hrow
    have hbefore : w.status? id = some .pending := World.status?_eq_some.2 ⟨row, hrow, hs⟩
    refine ⟨fun _ => lawful_withSubmission (fun _ => rfl) hrow hsound (fun hp => ?_) fun hc => ?_,
      fun w' hw => hQ g _ h hs hbefore hsound ⟨row.movedOn target w.now, hnew, rfl, rfl⟩
        (fun _ => rfl) w' hw⟩
    · rw [hs] at hp
      cases hp
    · -- A submission that is completed at once had no steps, and it has no outputs.
      have hsteps := hcompleted hc
      left
      refine ⟨⟨hbefore, .inr (World.status?_eq_some.2 ⟨_, hnew, hc⟩)⟩, ?_⟩
      rw [stepCount_of_ready h, hsteps]
      exact h.1.fresh id row hrow hs
  · exact (quiet_sound g ⟨w, w⟩ h.1 rfl).mono fun _ hw => ⟨hw, not_isCollision_concurrentRun⟩

/-- Ending the attempt; a completed one has an output for each step. -/
theorem triple_finish (row : SubmissionRow) (n k : Nat) (target : Status) (message : Option String)
    (ht : target ≠ .pending) (hk : target = .completed → k = n) :
    upkeep.Triple (held id row n k) (Runner.finish id target message)
      (Contract.surely fun _ => closed id) := by
  refine Contract.triple_finish (fun g w row' h hrow hs => ?_)
    (fun g w h => status?_of_carried h.2.1.2) quiet_closed fun g w h => h.2
  obtain ⟨⟨-, hfits⟩, ⟨hsound, ⟨now, hnow, -, hattempt⟩, hnum⟩, hholds, claim, hclaim, hn⟩ := h
  have heq : some now = some row' := hnow.symm.trans hrow
  cases heq
  have hsound' := sound_settled message hsound hrow ht
  have hnew := World.get?_withSubmission_self (fun row => row.settled target message w.now)
    (fun _ => rfl) hrow
  refine ⟨fun _ => lawful_withSubmission (fun _ => rfl) hrow hsound' (fun _ => hholds) fun hc => ?_,
    fun w' (hw : w'.store = _) => ?_⟩
  · right
    refine ⟨hholds, World.status?_eq_some.2 ⟨_, hrow, hs⟩, claim, hclaim, ?_⟩
    show w.store.numbers id row'.attempt = _
    rw [hattempt, hnum, hk hc, hn]
  · show w'.store.Sound ∧ ∃ row, w'.store.submission id = .ok row
    rw [hw]
    exact ⟨hsound', _, Store.submission_eq_ok.2 ⟨hfits, hnew⟩⟩

theorem quiet_lost (e : Failure) : upkeep.Quiet (lost e) := quiet_store fun _ => ¬e.IsCollision

theorem exists_submission_of_held {row : SubmissionRow} {n k : Nat} (h : held id row n k g w) :
    ∃ row, w.store.submission id = .ok row :=
  World.exists_submission h.1.2 (status?_of_carried h.2.1.2)

/-- **The outline** of a run among requests and other runs. -/
def outline (r : Runner) (id : Int) : Outline upkeep r id where
  before := sound
  idle := sound
  seen := seen id
  ready := ready id
  held := held id
  closed := closed id
  lost := lost
  mishap := fun e => ¬e.IsCollision
  ended := fun res _ _ => NoCollision res
  mishap_of_not_isCollision := fun _ h => h
  held_id := fun _ _ _ _ _ h => h.1.1
  lost_of_processing := fun _ _ _ _ h => ⟨h.1, not_isCollision_concurrentRun⟩
  lost_of_transition := fun _ _ _ _ hc _ _ h => ⟨h.1, not_isCollision_of_transition hc⟩
  claimSlot := (Contract.triple_claimSlot quiet_sound).mono (fun _ _ h => h) fun res g w h => by
    cases res with
    | ok number => exact h.1
    | error e =>
      refine noCollision_error ?_
      rw [h.2 e rfl]
      exact not_isCollision_concurrentRun
  reload := by
    refine Contract.triple_reading (fun res => ?_) fun g w h => ?_
    · cases res with
      | ok row => exact quiet_store fun s => s.submission id = .ok row
      | error e => exact quiet_lost e
    · cases hrow : w.store.submission id with
      | ok row => exact ⟨h, hrow⟩
      | error e => exact ⟨h, noCollision_submission _ _ e hrow⟩
  stepsFor := fun row => by
    refine Contract.triple_reading (fun res => ?_) fun g w h => ?_
    · cases res with
      | ok steps =>
        exact quiet_store fun s => s.submission id = .ok row ∧ s.activeSteps row.formId = .ok steps
      | error e => exact quiet_lost e
    · cases hsteps : w.store.activeSteps row.formId with
      | ok steps => exact ⟨h.1, h.2, hsteps⟩
      | error e => exact ⟨h.1, (foreign_activeSteps _ _ e hsteps).not_isCollision⟩
  complete := fun row => triple_leavePending row [] .completed (by decide) (fun _ => rfl)
    fun g d h _ _ hsound hnow _ w hw => by
      obtain ⟨now, hget, -⟩ := hnow
      have hfits := (Store.submission_eq_ok.1 h.2.1).1
      show w.store.Sound ∧ ∃ row, w.store.submission id = .ok row
      rw [hw]
      exact ⟨hsound, now, Store.submission_eq_ok.2 ⟨hfits, hget⟩⟩
  reload_held := fun row n k => by
    refine ((quiet_held row n k).read (R := fun res => ∃ row, res = .ok row)
      fun g w h => exists_submission_of_held h).mono (fun _ _ h => h) fun res g w h => ?_
    obtain ⟨hheld, row, rfl⟩ := h
    exact hheld
  reload_closed := (quiet_closed.read fun g w _ => noCollision_submission _ _).mono
    (fun _ _ h => h) fun _ _ _ h => h
  start := fun row steps _ => triple_leavePending row steps .processing (by decide)
    (fun h => nomatch h) fun g d h hs hb hsound hnow hnum w hw => by
      obtain ⟨hfits, hrow⟩ := Store.submission_eq_ok.1 h.2.1
      obtain ⟨now, hget, hnowStatus, hattempt⟩ := hnow
      have htakes : d.takes id := ⟨hb, World.status?_eq_some.2 ⟨now, hget, hnowStatus⟩⟩
      refine ⟨⟨Table.id_of_get? hrow, hfits⟩, ⟨?_, ⟨now, ?_, hnowStatus, hattempt⟩, ?_⟩,
        Deeds.holds_concat.2 (.inl htakes), d, ?_, stepCount_of_ready h⟩
      · rw [hw]
        exact hsound
      · rw [hw]
        exact hget
      · rw [hw, hnum]
        exact h.1.fresh id row hrow hs
      · rw [Deeds.lastClaim?_concat, if_pos (Deed.claims_of_takes htakes)]
  isCancelled := fun row n k run => Contract.triple_isCancelled (quiet_held row n k) run
  fieldsFor := fun row n k => (Contract.triple_fieldsFor (quiet_held row n k) row).mono
    (fun _ _ h => h) fun res _ _ h => ⟨h.1, fun e he => by
      rcases h.2 e he with he | rfl
      · exact he.not_isCollision
      · rintro ⟨message, ⟨⟩⟩⟩
  request := fun row n k _ => Contract.triple_waiting fun g w w' h hw => by
    have hsame := hw.2 id h.2.2.1 (status?_of_carried h.2.1.2)
    exact ⟨h.1, ⟨hw.1 h.2.1.1, carried_of_same h.2.1.2 hsame⟩, h.2.2⟩
  storeOutput := fun row n k result hn => by
    have hnumber : ∀ i now, (Runner.outputRow row result i now).stepNumber = (k : Int) + 1 := by
      intro i now
      show (result.number : Int) = k + 1
      rw [hn]
      rfl
    have hins : ∀ g w, held id row n k g w →
        w.store.insertOutput (Runner.outputRow row result w.store.outputs.nextId w.now) =
          some (w.store.withOutput (Runner.outputRow row result w.store.outputs.nextId w.now)) := by
      intro g w h
      refine Store.exists_insertOutput rfl (k := k) ?_ (hnumber _ _)
      show w.store.numbers row.id row.attempt = upTo k
      rw [h.1.1]
      exact h.2.1.2.2
    -- The statement may fail, but not for a row of the same step.
    refine Contract.triple_storeOutput (fun g w store h hi => ?_) fun g w e h hc => ?_
    · rw [hins g w h] at hi
      cases hi
      exact leads_withOutput h h.1.1 rfl (hnumber _ _)
    · refine (quiet_held row n k g ⟨w, w⟩ h rfl).mono fun _ h' => ⟨h', ?_⟩
      rcases hc with hforeign | ⟨-, hnone⟩
      · exact hforeign.not_isCollision
      · rw [hins g w h] at hnone
        cases hnone
  finish_completed := fun row n => triple_finish row n n .completed none (by decide) fun _ => rfl
  finish_failed := fun row n k message => triple_finish row n k .failed (some message) (by decide)
    fun h => nomatch h
  freeSlot_lost := fun e => (Contract.triple_freeSlot (quiet_lost e)).mono (fun _ _ h => h)
    fun _ _ _ h => noCollision_error h.2
  freeSlot_closed := fun res hres => (Contract.triple_freeSlot quiet_closed).mono (fun _ _ h => h)
    fun _ _ _ _ => hres

end Audit

/-! ## §4. What the log and the store have in common. -/

/-- The last claim on a submission. -/
def lastClaim? (id : Int) (log : List Entry) : Option Entry :=
  (log.filter (·.deed.claims id)).getLast?

/-- The statement by which a submission was last completed. -/
def lastCompletion? (id : Int) (log : List Entry) : Option Entry :=
  (log.filter (·.deed.completes id)).getLast?

theorem lastClaim?_concat {id : Int} {log : List Entry} {e : Entry} :
    lastClaim? id (log ++ [e]) = if e.deed.claims id then some e else lastClaim? id log := by
  unfold lastClaim?
  by_cases h : e.deed.claims id <;> simp [h]

theorem lastCompletion?_concat {id : Int} {log : List Entry} {e : Entry} :
    lastCompletion? id (log ++ [e]) =
      if e.deed.completes id then some e else lastCompletion? id log := by
  unfold lastCompletion?
  by_cases h : e.deed.completes id <;> simp [h]

/-- The attempt was completed by the thread that claimed it last, and it has one output for each
step that there was when it was claimed. -/
def CompletedBy (log : List Entry) (s : Store) (id attempt : Int) : Prop :=
  ∃ claim completion, lastClaim? id log = some claim ∧ lastCompletion? id log = some completion ∧
    claim.thread = completion.thread ∧
    s.numbers id attempt = upTo (claim.deed.before.store.stepCount id)

/-- The store is sound, the holder of a submission is the thread that claimed it last, and
completed attempts are as they should be. -/
structure Recorded (log : List Entry) (w : World) : Prop where
  sound : w.store.Sound
  held : ∀ i id, (deedsOf i log).Holds id → w.status? id = some .processing ∧
    ∃ claim, lastClaim? id log = some claim ∧ claim.thread = i ∧
      (deedsOf i log).lastClaim? id = some claim.deed
  completed : ∀ id row, w.store.submissions.get? id = some row → row.status = .completed →
    CompletedBy log w.store id row.attempt

namespace Recorded

variable {log : List Entry} {w w' : World} {i : Nat}

/-- Two threads do not hold one submission. -/
theorem single (h : Recorded log w) {id : Int} {j : Nat} (hi : (deedsOf i log).Holds id)
    (hj : (deedsOf j log).Holds id) : i = j := by
  obtain ⟨-, claim, hclaim, rfl, -⟩ := h.held i id hi
  obtain ⟨-, claim', hclaim', rfl, -⟩ := h.held j id hj
  rw [hclaim] at hclaim'
  cases hclaim'
  rfl

theorem status?_of_same {id : Int} (h : SameSubmission id w.store w'.store) :
    w'.status? id = w.status? id := by
  unfold World.status?
  rw [h.row]

/-- What becomes of the others when a thread does something lawful. -/
theorem same_of_lawful (h : Recorded log w) (hd : Lawful (deedsOf i log) ⟨w, w'⟩) {j : Nat}
    (hj : j ≠ i) {id : Int} (hholds : (deedsOf j log).Holds id) :
    SameSubmission id w.store w'.store :=
  hd.others id (h.held j id hholds).1 fun hi => hj (h.single hholds hi)

theorem held_concat (h : Recorded log w) (hd : Lawful (deedsOf i log) ⟨w, w'⟩) (j : Nat) (id : Int)
    (hj : (deedsOf j (log ++ [⟨i, ⟨w, w'⟩⟩])).Holds id) : w'.status? id = some .processing ∧
      ∃ claim, lastClaim? id (log ++ [⟨i, ⟨w, w'⟩⟩]) = some claim ∧ claim.thread = j ∧
        (deedsOf j (log ++ [⟨i, ⟨w, w'⟩⟩])).lastClaim? id = some claim.deed := by
  -- What is held is not pending, so nobody claims it.
  have hkeep : ∀ k, (deedsOf k log).Holds id → ¬Deed.claims id ⟨w, w'⟩ := by
    intro k hk hc
    have hp := (h.held k id hk).1
    rw [show w.status? id = some .pending from hc.1] at hp
    cases hp
  by_cases hji : j = i
  · subst hji
    rw [deedsOf_concat_self, Deeds.holds_concat] at hj
    rw [deedsOf_concat_self, Deeds.lastClaim?_concat, lastClaim?_concat]
    rcases hj with htakes | ⟨hj, hl⟩
    · rw [if_pos (Deed.claims_of_takes htakes), if_pos (Deed.claims_of_takes htakes)]
      exact ⟨htakes.2, _, rfl, rfl, rfl⟩
    · obtain ⟨hp, hclaim⟩ := h.held j id hj
      rw [if_neg (hkeep j hj), if_neg (hkeep j hj)]
      exact ⟨Decidable.byContradiction fun hne => hl ⟨hp, hne⟩, hclaim⟩
  · rw [deedsOf_concat_of_ne hji] at hj
    obtain ⟨hp, hclaim⟩ := h.held j id hj
    rw [deedsOf_concat_of_ne hji, lastClaim?_concat, if_neg (hkeep j hj)]
    exact ⟨(status?_of_same (h.same_of_lawful hd hji hj)).trans hp, hclaim⟩

theorem completed_concat (h : Recorded log w) (hd : Lawful (deedsOf i log) ⟨w, w'⟩) (id : Int)
    (row : SubmissionRow) (hrow : w'.store.submissions.get? id = some row)
    (hs : row.status = .completed) :
    CompletedBy (log ++ [⟨i, ⟨w, w'⟩⟩]) w'.store id row.attempt := by
  have hafter : w'.status? id = some .completed := World.status?_eq_some.2 ⟨row, hrow, hs⟩
  unfold CompletedBy
  rw [lastClaim?_concat, lastCompletion?_concat]
  rcases hd.completed id row hrow hs with hsame | ⟨hclaims, hnum⟩ | ⟨hholds, hp, claim, hclaim, hnum⟩
  · -- It was completed before, and nothing has happened to it.
    have hstatus := status?_of_same hsame
    rw [if_neg (Deed.not_claims_of_status?_eq hstatus),
      if_neg (Deed.not_completes_of_status?_eq hstatus),
      Store.numbers_eq_of_trail_eq hsame.trail]
    exact h.completed id row (hsame.row.symm.trans hrow) hs
  · -- It is completed by the claim itself.
    have hcompletes : Deed.completes id ⟨w, w'⟩ := by
      refine ⟨?_, hafter⟩
      rw [show w.status? id = some .pending from hclaims.1]
      decide
    rw [if_pos hclaims, if_pos hcompletes]
    exact ⟨_, _, rfl, rfl, rfl, hnum⟩
  · -- Its holder completes it; the last claim is still that of the holder.
    have hnot : ¬Deed.claims id ⟨w, w'⟩ := by
      intro hc
      have hpending : w.status? id = some .pending := hc.1
      rw [show w.status? id = some .processing from hp] at hpending
      cases hpending
    have hcompletes : Deed.completes id ⟨w, w'⟩ := by
      refine ⟨?_, hafter⟩
      rw [show w.status? id = some .processing from hp]
      decide
    obtain ⟨-, e, he, hthread, hdeed⟩ := h.held i id hholds
    rw [hdeed] at hclaim
    cases hclaim
    rw [if_neg hnot, if_pos hcompletes]
    exact ⟨e, _, he, rfl, hthread, hnum⟩

/-- **A lawful deed** keeps the records in order. -/
theorem concat (h : Recorded log w) (hd : Lawful (deedsOf i log) ⟨w, w'⟩) :
    Recorded (log ++ [⟨i, ⟨w, w'⟩⟩]) w' where
  sound := hd.sound
  held := h.held_concat hd
  completed := h.completed_concat hd

/-- What becomes of the world without any task does not touch the store. -/
theorem of_store_eq (h : Recorded log w) (hw : w'.store = w.store) : Recorded log w' where
  sound := hw ▸ h.sound
  held := by
    intro j id hj
    obtain ⟨hp, hclaim⟩ := h.held j id hj
    exact ⟨(World.status?_of_submissions_eq (congrArg Store.submissions hw) id).trans hp, hclaim⟩
  completed := by
    intro id row hrow hs
    rw [hw] at hrow ⊢
    exact h.completed id row hrow hs

end Recorded

/-! ## §5. The agreement. -/

/-- Every task may begin whenever no other one has the turn: requests are served, and runs begin
and end, also while runs wait for replies.  The clock goes on, and the store may be out of order
for a while. -/
def history : Setting where
  begins _ := True
  drifts w w' := w'.store = w.store
  interleaved := False

/-- A task that ends with the row of a submission or a failure does not end with a collision. -/
def Ending.Undisputed : Ending → Prop
  | .row res => NoCollision res
  | _ => True

namespace Audit

theorem meets_task (task : Task) (w : World) (h : w.store.Sound) :
    upkeep.Meets task.plan (fun ending _ _ => ending.Undisputed) [] w := by
  cases task with
  | request r q =>
    exact (Contract.meets_bind ..).2
      (Contract.Meets.mono (fun _ _ _ _ => trivial) _ _ _ (Upkeep.serves.handle r q [] w h))
  | run r submission =>
    exact (Contract.meets_bind ..).2
      (Contract.Meets.mono (fun _ _ _ h => h) _ _ _ ((outline r submission).run [] w h))
  | newAttempt r submission =>
    exact (Contract.meets_bind ..).2
      (Contract.Meets.mono (fun _ _ _ h => h.2) _ _ _ (Upkeep.triple_newAttempt r submission [] w h))
  | rerun r submission =>
    have hrerun : upkeep.Triple Upkeep.sound (r.rerun submission) fun res _ _ => NoCollision res :=
      Contract.triple_bind (Upkeep.triple_newAttempt r submission)
        (fun _ => (outline r submission).run.mono (fun _ _ h => h.1) fun _ _ _ h => h)
        fun e _ _ h => noCollision_error (h.2 e rfl)
    exact (Contract.meets_bind ..).2 (Contract.Meets.mono (fun _ _ _ h => h) _ _ _ (hrerun [] w h))
  | cancel r submission =>
    exact (Contract.meets_bind ..).2
      (Contract.Meets.mono (fun _ _ _ _ => trivial) _ _ _ (Upkeep.serves.cancel r submission [] w h))

/-- **The agreement** of all tasks. -/
def keepers : Agreement history upkeep where
  ends := fun _ ending _ _ => ending.Undisputed
  inv := Recorded
  calm_refl := fun _ _ => rfl
  calm_trans := fun _ _ _ _ h h' => h'.trans h
  pause_trans := fun _ w₁ w₂ _ h h' => ⟨fun hs => h'.1 (h.1 hs), fun id hholds hp =>
    have hsame := h.2 id hholds hp
    hsame.trans (h'.2 id hholds ((Recorded.status?_of_same hsame).trans hp))⟩
  pause_of_calm := fun _ _ _ (h : _ = _) => by
    refine ⟨fun hs => h ▸ hs, fun id _ _ => ?_⟩
    rw [h]
    exact .refl id _
  calm_of_pause := fun h => h.elim
  ends_of_pause := fun _ _ _ _ _ h _ => h
  begins := fun task _ _ w' _ h hw => meets_task task w' (hw ▸ h.sound)
  statement := fun log i w w' h hd => ⟨h.concat (hd h.sound), fun j hj =>
    ⟨fun _ => (hd h.sound).sound, fun _ hholds _ => h.same_of_lawful (hd h.sound) hj hholds⟩⟩
  drift := fun _ _ _ h hw => ⟨h.of_store_eq hw, fun _ => hw⟩

theorem recorded_empty {start : World} (hempty : start.store = {}) : Recorded [] start := by
  refine ⟨?_, fun i id h => absurd h (Deeds.not_holds_nil id), fun id row hrow => ?_⟩
  · rw [hempty]
    exact Store.sound_empty
  · rw [hempty] at hrow
    cases hrow

theorem safe_of_empty {start : World} {s : Scene} (hempty : start.store = {})
    (hs : Scene.Reaches history { world := start } s) : keepers.Safe s :=
  Agreement.safe_of_reaches keepers (recorded_empty hempty) hs

/-- What the next step does to the outputs. -/
theorem kept_of_step {s s' : Scene} (h : keepers.Safe s) (hs : Scene.Step history s s') :
    Kept s.world.store s'.world.store := by
  cases hs with
  | statement i task access update next hi ht => exact ((h.meets hi).1 h.inv.sound).kept
  | begin task hb ht => exact fun o ho => .inl ho
  | rest i t hi hr ht => exact fun o ho => .inl ho
  | reply i task request next outcome hi ht => exact fun o ho => .inl ho
  | drift w hd =>
    intro o ho
    left
    show o ∈ w.store.outputs
    rw [show w.store = s.world.store from hd]
    exact ho

end Audit

/-! ## §6. The result. -/

/-- **The audit trail.**  In every scene that can be reached from an empty store:

  1. the outputs of every attempt of every submission have the step numbers `1 … k`, in the order
     in which they were stored;
  2. there are none for attempts after the current one, and none for the current one while the
     submission is pending;
  3. a completed attempt was completed by the thread that claimed it last, and it has one output
     for each step of the active pipeline that there was at the claim;
  4. the next step changes no output, and it removes one only with its submission;
  5. no run, rerun or new attempt has ended with a collision. -/
theorem audit_trail (start : World) (s : Scene) (hempty : start.store = {})
    (hs : Scene.Reaches history { world := start } s) :
    (∀ id attempt, ∃ k, s.world.store.numbers id attempt = upTo k) ∧
    (∀ id row, s.world.store.submissions.get? id = some row →
      (∀ attempt, row.attempt < attempt → s.world.store.numbers id attempt = []) ∧
      (row.status = .pending → s.world.store.numbers id row.attempt = []) ∧
      (row.status = .completed → CompletedBy s.log s.world.store id row.attempt)) ∧
    (∀ s', Scene.Step history s s' → Kept s.world.store s'.world.store) ∧
    (∀ (i : Nat) (task : Task) (res : Except Failure SubmissionRow),
      s.threads[i]? = some ⟨task, .done (.row res)⟩ → NoCollision res) := by
  have hsafe := Audit.safe_of_empty hempty hs
  have hsound := hsafe.inv.sound
  refine ⟨hsound.dense, ?_, fun s' => Audit.kept_of_step hsafe, ?_⟩
  · intro id row hrow
    exact ⟨fun attempt ha => hsound.numbers_later hrow ha, hsound.fresh id row hrow,
      hsafe.inv.completed id row hrow⟩
  · intro i task res hi
    exact hsafe.ends hi

namespace Audit

def runner : Runner := ⟨0, { defaultModel := "base", timeout := .int 1 }⟩

/-- A request with a document. -/
def sending (method target body : String) : Task :=
  .request runner
    { method, target, headers := [("content-type", "application/json")], body }

def start : World := { tokens := fun _ => "poem" }

/-- A form with one step gets a submission.  While its run waits for the reply, a request deletes
the pipeline. -/
def tasks : List Task :=
  let steps := "[\x7b\"step_number\": 1, \"name\": \"Draft\", \"prompt\": \"Write\"\x7d]"
  [sending "POST" "/api/forms/" "\x7b\"name\": \"Poem\"\x7d",
    sending "PUT" "/api/pipelines/form/1" ("\x7b\"steps\": " ++ steps ++ "\x7d"),
    sending "POST" "/api/submissions/public/poem" "\x7b\x7d",
    .run runner 1,
    sending "DELETE" "/api/pipelines/form/1" ""]

/-- The reply comes in the end. -/
def firstRun : Scene :=
  (tasks.foldl (Scene.serve 9) { world := start }).hear 9 3
    (.replied ⟨.str "a rhyme", .str "base", .int 2⟩ (.finite false 3 (-1)))

end Audit

/-- The attempt is completed with one output, for the step that there was at the claim. -/
theorem completedBy_firstRun : CompletedBy Audit.firstRun.log Audit.firstRun.world.store 1 1 := by
  have hreaches : Scene.Reaches history { world := Audit.start } Audit.firstRun :=
    (Scene.Reaches.refl.serveAll 9 Audit.tasks fun _ _ => trivial).hear 9 3 _
  have hreached : (Audit.firstRun.world.store.submissions.get? 1).map
      (fun row => (row.status, row.attempt)) = some (.completed, 1) := by decide +kernel
  obtain ⟨row, hrow, heq⟩ := Option.map_eq_some_iff.1 hreached
  obtain ⟨hs, ha⟩ := Prod.mk.inj heq
  have hby := ((audit_trail _ _ rfl hreaches).2.1 1 row hrow).2.2 hs
  rwa [show row.attempt = 1 from ha] at hby

end PromptForms
