/-
  PromptForms.Proofs.Footprint
  ────────────────────────────
  **WHAT A RUN LEAVES IN THE STORE.**

  A run writes to one row and adds outputs under it, and nothing else.  Of the row of its
  submission it writes the status, the message and the time; every output that it adds
  belongs to the submission and to the attempt that was current when the run began.
  Neither what a generator replies nor how the run fails makes a difference.

      Store.Marked              the store differs from an earlier one by such writes only
      Surroundings.SparesStore  nobody else writes meanwhile

  Main results:
    • `Store.Marked.…`   the three kinds of writes, each after others
    • marked_of_run      a run, from its first statement to its last
-/
import PromptForms.Proofs.Outline
import PromptForms.Proofs.Trail

namespace PromptForms

/-! ## §1. Marks. -/

/-- A change of a submission that is confined to its status, its message and its time. -/
def SubmissionRow.MarksOnly (change : SubmissionRow → SubmissionRow) : Prop :=
  ∀ row, ∃ status message processed, change row =
    { row with status := status, errorMessage := message, processedAt := processed }

theorem SubmissionRow.marksOnly_id : SubmissionRow.MarksOnly fun row => row :=
  fun row => ⟨row.status, row.errorMessage, row.processedAt, rfl⟩

theorem SubmissionRow.MarksOnly.comp {first second : SubmissionRow → SubmissionRow}
    (hsecond : SubmissionRow.MarksOnly second) (hfirst : SubmissionRow.MarksOnly first) :
    SubmissionRow.MarksOnly fun row => second (first row) := by
  intro row
  obtain ⟨_, _, _, h⟩ := hfirst row
  obtain ⟨status, message, processed, h'⟩ := hsecond (first row)
  refine ⟨status, message, processed, ?_⟩
  show second (first row) = _
  rw [h', h]

theorem SubmissionRow.MarksOnly.id_eq {change : SubmissionRow → SubmissionRow}
    (h : SubmissionRow.MarksOnly change) (row : SubmissionRow) : (change row).id = row.id := by
  obtain ⟨_, _, _, hrow⟩ := h row
  rw [hrow]

theorem SubmissionRow.MarksOnly.attempt_eq {change : SubmissionRow → SubmissionRow}
    (h : SubmissionRow.MarksOnly change) (row : SubmissionRow) :
    (change row).attempt = row.attempt := by
  obtain ⟨_, _, _, hrow⟩ := h row
  rw [hrow]

/-- The output belongs to the submission and to its current attempt. -/
def Store.Owns (s : Store) (id : Int) (o : OutputRow) : Prop :=
  o.submissionId = id ∧ ∃ row, s.submissions.get? id = some row ∧ o.attempt = row.attempt

/-- Nothing has happened to an earlier store but that one submission was marked and that outputs
were added under its current attempt. -/
structure Store.Marked (id : Int) (s s' : Store) : Prop where
  forms : s'.forms = s.forms
  pipelines : s'.pipelines = s.pipelines
  submissions : ∃ change, SubmissionRow.MarksOnly change ∧
    s'.submissions = s.submissions.replace id change
  outputs : ∃ added, (∀ o ∈ added, s.Owns id o) ∧ s'.outputs = s.outputs ++ added

namespace Store.Marked

variable {id : Int} {s s' : Store}

theorem refl (id : Int) (s : Store) : Store.Marked id s s where
  forms := rfl
  pipelines := rfl
  submissions := by
    refine ⟨fun row => row, SubmissionRow.marksOnly_id, ?_⟩
    unfold Table.replace
    simp
  outputs := ⟨[], fun _ h => absurd h List.not_mem_nil, (List.append_nil _).symm⟩

/-- One more mark. -/
theorem replaced (h : Store.Marked id s s') {change : SubmissionRow → SubmissionRow}
    (hchange : SubmissionRow.MarksOnly change) :
    Store.Marked id s { s' with submissions := s'.submissions.replace id change } where
  forms := h.forms
  pipelines := h.pipelines
  submissions := by
    obtain ⟨earlier, hearlier, hs⟩ := h.submissions
    refine ⟨fun row => change (earlier row), hchange.comp hearlier, ?_⟩
    show s'.submissions.replace id change = _
    rw [hs]
    exact Table.replace_replace hearlier.id_eq
  outputs := h.outputs

/-- One more output. -/
theorem stored (h : Store.Marked id s s') {o : OutputRow} (ho : s.Owns id o) :
    Store.Marked id s (s'.withOutput o) where
  forms := h.forms
  pipelines := h.pipelines
  submissions := h.submissions
  outputs := by
    obtain ⟨added, hadded, hs⟩ := h.outputs
    refine ⟨added ++ [o], fun other hother => ?_, ?_⟩
    · rcases List.mem_append.1 hother with hother | hother
      · exact hadded other hother
      · rw [List.mem_singleton.1 hother]
        exact ho
    · show s'.outputs ++ [o] = _
      rw [hs, List.append_assoc]

/-- The rows of the table are the same ones. -/
theorem map_id (h : Store.Marked id s s') :
    s'.submissions.map HasId.id = s.submissions.map HasId.id := by
  obtain ⟨change, hchange, hs⟩ := h.submissions
  rw [hs]
  exact Table.map_id_replace hchange.id_eq

/-- The submission is still under the same attempt. -/
theorem exists_attempt (h : Store.Marked id s s') {row : SubmissionRow}
    (hrow : s'.submissions.get? id = some row) :
    ∃ first, s.submissions.get? id = some first ∧ row.attempt = first.attempt := by
  obtain ⟨change, hchange, hs⟩ := h.submissions
  rw [hs, Table.get?_replace hchange.id_eq, if_pos rfl] at hrow
  obtain ⟨first, hfirst, rfl⟩ := Option.map_eq_some_iff.1 hrow
  exact ⟨first, hfirst, hchange.attempt_eq first⟩

end Store.Marked

/-! ## §2. The conditions on the way. -/

/-- While a run is going on, nobody else writes to the store. -/
def secluded : Contract where
  allows _ _ := True
  calm _ w w' := w'.store = w.store
  pause _ w w' := w'.store = w.store

namespace Footprint

variable {r : Runner} {id : Int} {start : Store}

/-- The run has done no more than it may. -/
def marked (id : Int) (start : Store) (_ : Deeds) (w : World) : Prop :=
  Store.Marked id start w.store

/-- The run has a row of its submission, which is there, and its attempt is the current one. -/
structure Legitimate (id : Int) (start : Store) (row : SubmissionRow) (w : World) : Prop where
  marked : Store.Marked id start w.store
  row_id : row.id = id
  attempt : ∃ first, start.submissions.get? id = some first ∧ row.attempt = first.attempt
  fits : Store.fits id = true

/-- The run has read its row. -/
def seen (id : Int) (start : Store) (row : SubmissionRow) (_ : Deeds) (w : World) : Prop :=
  Legitimate id start row w ∧ ∃ status, w.status? id = some status

/-- The run has moved its submission on to be processed, and it still is. -/
def held (id : Int) (start : Store) (row : SubmissionRow) (_ : Deeds) (w : World) : Prop :=
  Legitimate id start row w ∧ w.status? id = some .processing

/-- The attempt is over, and the row can be read. -/
def closed (id : Int) (start : Store) (_ : Deeds) (w : World) : Prop :=
  Store.Marked id start w.store ∧ ∃ row, w.store.submission id = .ok row

/-- What is known of the store survives statements that keep it. -/
theorem quiet_store (A : Store → Prop) : secluded.Quiet fun _ w => A w.store := by
  intro g d h hstore
  refine ⟨trivial, fun w hw => ?_⟩
  show A w.store
  rw [show w.store = d.after.store from hw, hstore]
  exact h

theorem legitimate_of_store_eq {row : SubmissionRow} {w w' : World} (hw : w'.store = w.store)
    (h : Legitimate id start row w) : Legitimate id start row w' :=
  ⟨hw ▸ h.marked, h.row_id, h.attempt, h.fits⟩

theorem held_of_store_eq {row : SubmissionRow} {g g' : Deeds} {w w' : World}
    (hw : w'.store = w.store) (h : held id start row g w) : held id start row g' w' :=
  ⟨legitimate_of_store_eq hw h.1,
    (World.status?_of_submissions_eq (congrArg Store.submissions hw) id).trans h.2⟩

theorem quiet_marked : secluded.Quiet (marked id start) := quiet_store _

theorem quiet_held (row : SubmissionRow) : secluded.Quiet (held id start row) :=
  fun _ _ h hstore => ⟨trivial, fun _ hw => held_of_store_eq (hw.trans hstore) h⟩

theorem quiet_seen (row : SubmissionRow) : secluded.Quiet (seen id start row) := by
  intro g d h hstore
  refine ⟨trivial, fun w hw => ?_⟩
  have hw : w.store = d.before.store := hw.trans hstore
  obtain ⟨status, hs⟩ := h.2
  refine ⟨legitimate_of_store_eq hw h.1, status, ?_⟩
  exact (World.status?_of_submissions_eq (congrArg Store.submissions hw) id).trans hs

theorem quiet_closed : secluded.Quiet (closed id start) :=
  quiet_store fun s => Store.Marked id start s ∧ ∃ row, s.submission id = .ok row

/-! ## §3. The outline. -/

/-- Ending the attempt. -/
theorem triple_finish (row : SubmissionRow) (target : Status) (message : Option String) :
    secluded.Triple (held id start row) (Runner.finish id target message)
      (Contract.surely fun _ => closed id start) := by
  refine Contract.triple_finish (fun g w row' h hrow _ => ⟨trivial, fun w' hw => ?_⟩)
    (fun g w h => h.2) quiet_closed fun g w h => h.2
  have hstore : w'.store = (w.withSubmission id fun row => row.settled target message w.now).store := hw
  have hnew := World.get?_withSubmission_self (fun row => row.settled target message w.now)
    (fun _ => rfl) hrow
  unfold closed
  rw [hstore]
  exact ⟨h.1.marked.replaced fun row => ⟨target, message, some w.now, rfl⟩,
    row'.settled target message w.now, Store.submission_eq_ok.2 ⟨h.1.fits, hnew⟩⟩

/-- A submission moves on. -/
theorem triple_leavePending (row : SubmissionRow) (target : Status) {Q : Deeds → World → Prop}
    (hQ : ∀ g w, Legitimate id start row w → w.status? id = some target → Q g w) :
    secluded.Triple (seen id start row) (Runner.leavePending id target) fun
      | .ok () => Q
      | .error _ => marked id start := by
  refine Contract.triple_leavePending (fun g w row' h hrow _ => ⟨trivial, fun w' hw => ?_⟩)
    fun g w h _ => quiet_marked g ⟨w, w⟩ h.1.marked rfl
  have hstore : w'.store = (w.withSubmission id fun row => row.movedOn target w.now).store := hw
  have hnew := World.get?_withSubmission_self (fun row => row.movedOn target w.now)
    (fun _ => rfl) hrow
  refine hQ _ w' ⟨?_, h.1.row_id, h.1.attempt, h.1.fits⟩ ?_
  · rw [hstore]
    exact h.1.marked.replaced fun row => ⟨target, row.errorMessage, _, rfl⟩
  · rw [← hstore] at hnew
    exact World.status?_of_get? hnew

theorem triple_storeOutput (row : SubmissionRow) (result : StepResult) :
    secluded.Triple (held id start row) (Runner.storeOutput row result) fun _ => held id start row := by
  refine Contract.triple_storeOutput (fun g w store h hi => ⟨trivial, fun w' hw => ?_⟩)
    fun g w e h _ => quiet_held row g ⟨w, w⟩ h rfl
  obtain rfl := Store.eq_append_of_insertOutput rfl hi
  -- The row is an earlier reading, but its attempt is still the one that the store had at the start.
  have howns : start.Owns id (Runner.outputRow row result w.store.outputs.nextId w.now) :=
    ⟨h.1.row_id, h.1.attempt⟩
  have hafter : held id start row g (w.withStore (w.store.withOutput _)) :=
    ⟨⟨h.1.marked.stored howns, h.1.row_id, h.1.attempt, h.1.fits⟩, h.2⟩
  exact held_of_store_eq hw hafter

/-- **The outline** of a run that writes what it may. -/
def outline (r : Runner) (id : Int) (start : Store) : Outline secluded r id where
  before := marked id start
  idle := marked id start
  seen := seen id start
  ready := fun row _ => seen id start row
  held := fun row _ _ => held id start row
  closed := closed id start
  lost := fun _ => marked id start
  mishap := fun _ => True
  ended := fun _ => marked id start
  mishap_of_not_isCollision := fun _ _ => trivial
  held_id := fun _ _ _ _ _ h => h.1.row_id
  lost_of_processing := fun _ _ _ _ h => h.1.marked
  lost_of_transition := fun _ _ _ _ _ _ _ h => h.1.marked
  claimSlot := (Contract.triple_claimSlot quiet_marked).mono (fun _ _ h => h) fun res g w h => by
    cases res with
    | ok number => exact h.1
    | error e => exact h.1
  reload := by
    refine Contract.triple_reading (fun res => ?_) fun g w h => ?_
    · cases res with
      | ok row => exact quiet_seen row
      | error e => exact quiet_marked
    · cases hrow : w.store.submission id with
      | ok row =>
        obtain ⟨hfits, hget⟩ := Store.submission_eq_ok.1 hrow
        exact ⟨⟨h, Table.id_of_get? hget, Store.Marked.exists_attempt h hget, hfits⟩, row.status,
          World.status?_of_get? hget⟩
      | error e => exact h
  stepsFor := fun row => by
    refine ((quiet_seen row).read (R := fun _ => True) fun _ _ _ => trivial).mono (fun _ _ h => h)
      fun res g w h => ?_
    cases res with
    | ok steps => exact h.1
    | error e => exact h.1.1.marked
  complete := fun row => triple_leavePending row .completed fun g w h hs =>
    ⟨h.marked, World.exists_submission h.fits hs⟩
  reload_held := fun row _ _ => by
    refine ((quiet_held row).read (R := fun res => ∃ row, res = .ok row)
      fun g w h => World.exists_submission h.1.fits h.2).mono (fun _ _ h => h) fun res g w h => ?_
    obtain ⟨hheld, row, rfl⟩ := h
    exact hheld
  reload_closed := (quiet_closed.read (R := fun _ => True) fun _ _ _ => trivial).mono
    (fun _ _ h => h) fun _ _ _ h => ⟨h.1, fun _ _ => trivial⟩
  start := fun row _ _ => triple_leavePending row .processing fun _ _ h hs => ⟨h, hs⟩
  isCancelled := fun row _ _ run => Contract.triple_isCancelled (quiet_held row) run
  fieldsFor := fun row _ _ => (Contract.triple_fieldsFor (quiet_held row) row).mono (fun _ _ h => h)
    fun _ _ _ h => ⟨h.1, fun _ _ => trivial⟩
  request := fun _ _ _ _ => Contract.triple_waiting fun _ _ _ h hw => held_of_store_eq hw h
  storeOutput := fun row _ _ result _ => (triple_storeOutput row result).mono (fun _ _ h => h)
    fun res _ _ h => by
      cases res with
      | ok _ => exact h
      | error e => exact ⟨h, trivial⟩
  finish_completed := fun row _ => triple_finish row .completed none
  finish_failed := fun row _ _ message => triple_finish row .failed (some message)
  freeSlot_lost := fun _ => Contract.triple_freeSlot quiet_marked
  freeSlot_closed := fun _ _ =>
    (Contract.triple_freeSlot quiet_marked).mono (fun _ _ h => h.1) fun _ _ _ h => h

end Footprint

/-! ## §4. The result. -/

/-- Whatever happens around a plan, nobody else writes to the store. -/
structure Plan.Surroundings.SparesStore {σ : Type} (around : Plan.Surroundings σ) : Prop where
  react : ∀ before after s, (around.react before after s).1.store = after.store
  answer : ∀ request w s, (around.answer request w s).2.1.store = w.store

/-- **The footprint of a run.**  Whatever the store contains, however the requests end, whoever asks
the run to stop and whatever fails, in the end the run has marked its submission and has added
outputs under its current attempt. -/
theorem marked_of_run {σ : Type} {around : Plan.Surroundings σ} (h : around.SparesStore) (r : Runner)
    (id : Int) (w : World) (s : σ) :
    Store.Marked id w.store ((r.run id).run.run around w s).2.1.store :=
  Contract.Meets.run (C := secluded) (fun _ => h.react) (fun _ => h.answer) _ [] w s
    ((Footprint.outline r id w.store).run [] w (Store.Marked.refl id w.store))

end PromptForms
