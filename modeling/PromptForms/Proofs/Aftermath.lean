/-
  PromptForms.Proofs.Aftermath
  ────────────────────────────
  **WHAT A RUN LEAVES BEHIND.**

  Whatever the store contains, however its requests end and whatever goes wrong in
  between, a run that has taken its submission to `processing` does not leave it there.
  Others may use the store at any time, as long as they let the row of the submission,
  its outputs and its slot be.

      Spares      what others may make of the world
      Settled     the attempt of a submission has been ended

  Main result:
    • `settled_of_takes` — after a run that took its submission, the submission is
      settled, all outputs are still there, and the slot is free.
-/
import PromptForms.Proofs.Outline
import PromptForms.Proofs.Statements

namespace PromptForms

/-! ## §1. What others may do, and what the run has to do. -/

/-- Others leave alone what a run of a submission writes: the status with what belongs to it, the
outputs, and the slot once it is free. -/
structure Spares (r : Runner) (id : Int) (w w' : World) : Prop where
  row : ∀ row, w.store.submissions.get? id = some row →
    ∃ row', w'.store.submissions.get? id = some row' ∧ row'.status = row.status ∧
      row'.errorMessage = row.errorMessage ∧ row'.processedAt = row.processedAt
  outputs : ∀ o ∈ w.store.outputs, o.submissionId = id → o ∈ w'.store.outputs
  slot : (w.registries r.process).isActive id = false → (w'.registries r.process).isActive id = false

/-- The attempt of a submission has been ended, and the row says when and, if it failed, why. -/
def Settled (id : Int) (w : World) : Prop :=
  ∃ row, w.store.submissions.get? id = some row ∧
    (row.status = .completed ∨ row.status = .failed) ∧ row.processedAt.isSome = true ∧
      (row.status = .failed → row.errorMessage.isSome = true)

/-- Every output of a submission that was stored before or after one of the deeds still is. -/
def OutputsKept (id : Int) (g : Deeds) (w : World) : Prop :=
  ∀ d ∈ g, ∀ o, o ∈ d.before.store.outputs ∨ o ∈ d.after.store.outputs → o.submissionId = id →
    o ∈ w.store.outputs

/-- The submission was not taken. -/
def Untaken (id : Int) (g : Deeds) : Prop := ∀ d ∈ g, ¬d.takes id

/-- Anything but what `Spares` excludes may happen at any time. -/
def aftermath (r : Runner) (id : Int) : Contract where
  allows := fun _ _ => True
  calm := fun _ => Spares r id
  pause := fun _ => Spares r id

namespace Aftermath

variable {r : Runner} {id : Int} {g : Deeds} {d : Deed} {w w' : World}

/-! ## §2. One more deed. -/

theorem untaken_concat (hg : Untaken id g) (hd : ¬d.takes id) : Untaken id (g ++ [d]) := by
  intro e he
  rcases List.mem_append.1 he with he | he
  · exact hg e he
  · rw [List.mem_singleton.1 he]
    exact hd

theorem not_takes_of_status?_eq (h : d.after.status? id = d.before.status? id) : ¬d.takes id :=
  fun ht => Deed.not_claims_of_status?_eq h (Deed.claims_of_takes ht)

theorem outputsKept_concat (hg : OutputsKept id g d.before)
    (hd : ∀ o ∈ d.before.store.outputs, o ∈ d.after.store.outputs) (hw : Spares r id d.after w) :
    OutputsKept id (g ++ [d]) w := by
  intro e he o ho hid
  have hafter : o ∈ d.after.store.outputs := by
    rcases List.mem_append.1 he with he | he
    · exact hd o (hg e he o ho hid)
    · rw [List.mem_singleton.1 he] at ho
      exact ho.elim (hd o) fun h => h
  exact hw.outputs o hafter hid

theorem status?_of_spares {status : Status} (hw : Spares r id w w')
    (h : w.status? id = some status) : w'.status? id = some status := by
  obtain ⟨row, hrow, rfl⟩ := World.status?_eq_some.1 h
  obtain ⟨row', hrow', hs, -⟩ := hw.row row hrow
  exact World.status?_eq_some.2 ⟨row', hrow', hs⟩

theorem settled_of_spares (hw : Spares r id w w') (h : Settled id w) : Settled id w' := by
  obtain ⟨row, hrow, hs, hp, he⟩ := h
  obtain ⟨row', hrow', hs', he', hp'⟩ := hw.row row hrow
  exact ⟨row', hrow', hs' ▸ hs, hp' ▸ hp, fun hf => he' ▸ he (hs' ▸ hf)⟩

theorem settled_of_store_eq (h : w'.store = w.store) (hs : Settled id w) : Settled id w' := by
  unfold Settled
  rw [h]
  exact hs

/-! ## §3. The conditions on the way. -/

/-- The run has not taken its submission. -/
def idle (id : Int) (g : Deeds) (w : World) : Prop := Untaken id g ∧ OutputsKept id g w

/-- The run has not taken its submission, but it has read a row. -/
def seen (id : Int) (row : SubmissionRow) (g : Deeds) (w : World) : Prop :=
  (row.id = id ∧ Store.fits id = true ∧ ∃ status, w.status? id = some status) ∧ idle id g w

/-- The run has taken its submission, or somebody has. -/
def held (id : Int) (row : SubmissionRow) (g : Deeds) (w : World) : Prop :=
  (row.id = id ∧ Store.fits id = true ∧ w.status? id = some .processing) ∧ OutputsKept id g w

/-- The attempt has been ended if the run has taken its submission. -/
def closed (id : Int) (g : Deeds) (w : World) : Prop :=
  ((∃ status, w.status? id = some status) ∧ Store.fits id = true ∧ (Untaken id g ∨ Settled id w)) ∧
    OutputsKept id g w

/-- The attempt has been ended, and the slot is free, if the run has taken its submission. -/
def ended (r : Runner) (id : Int) (g : Deeds) (w : World) : Prop :=
  (Untaken id g ∨ Settled id w ∧ (w.registries r.process).isActive id = false) ∧ OutputsKept id g w

/-- A condition survives statements that keep the store if it does so apart from the outputs. -/
theorem quiet_of {A : Deeds → World → Prop}
    (hA : ∀ g d w, A g d.before → d.after.store = d.before.store → Spares r id d.after w →
      A (g ++ [d]) w) :
    (aftermath r id).Quiet fun g w => A g w ∧ OutputsKept id g w := by
  intro g d h hstore
  refine ⟨trivial, fun w hw => ⟨hA g d w h.1 hstore hw, outputsKept_concat h.2 (fun o ho => ?_) hw⟩⟩
  rw [hstore]
  exact ho

theorem quiet_idle : (aftermath r id).Quiet (idle id) :=
  quiet_of (A := fun g _ => Untaken id g) fun _ _ _ h hstore _ =>
    untaken_concat h (not_takes_of_status?_eq (Deed.status?_eq_of_store_eq hstore id))

theorem quiet_seen (row : SubmissionRow) : (aftermath r id).Quiet (seen id row) := by
  intro g d h hstore
  have hidle := quiet_idle (r := r) g d h.2 hstore
  refine ⟨trivial, fun w hw => ⟨⟨h.1.1, h.1.2.1, ?_⟩, hidle.2 w hw⟩⟩
  obtain ⟨status, hs⟩ := h.1.2.2
  exact ⟨status, status?_of_spares hw ((Deed.status?_eq_of_store_eq hstore id).trans hs)⟩

theorem quiet_held (row : SubmissionRow) : (aftermath r id).Quiet (held id row) :=
  quiet_of fun _ _ _ h hstore hw =>
    ⟨h.1, h.2.1, status?_of_spares hw ((Deed.status?_eq_of_store_eq hstore id).trans h.2.2)⟩

theorem quiet_closed : (aftermath r id).Quiet (closed id) := by
  refine quiet_of fun g d w h hstore hw => ?_
  obtain ⟨⟨status, hs⟩, hfits, hcase⟩ := h
  have hstatus := Deed.status?_eq_of_store_eq hstore id
  refine ⟨⟨status, status?_of_spares hw (hstatus.trans hs)⟩, hfits, ?_⟩
  rcases hcase with hu | hsettled
  · exact .inl (untaken_concat hu (not_takes_of_status?_eq hstatus))
  · exact .inr (settled_of_spares hw (settled_of_store_eq hstore hsettled))

/-! ## §4. The outline. -/

/-- Ending the attempt. -/
theorem triple_finish (row : SubmissionRow) (target : Status) (message : Option String)
    (htarget : target = .completed ∨ target = .failed ∧ message.isSome = true) :
    (aftermath r id).Triple (held id row) (Runner.finish id target message)
      (Contract.surely fun _ => closed id) := by
  refine Contract.triple_finish (fun g w row' h hrow _ => ⟨trivial, fun w' hw => ?_⟩)
    (fun g w h => h.1.2.2) quiet_closed fun g w h => ?_
  · have hafter := World.get?_withSubmission_self
      (fun row => row.settled target message w.now) (fun _ => rfl) hrow
    have hsettled : Settled id (w.withSubmission id fun row => row.settled target message w.now) := by
      refine ⟨_, hafter, ?_, rfl, fun hf => ?_⟩
      · exact htarget.imp_right And.left
      · rcases htarget with rfl | ⟨rfl, hm⟩
        · cases hf
        · exact hm
    refine ⟨⟨⟨target, ?_⟩, h.1.2.1, .inr (settled_of_spares hw hsettled)⟩,
      outputsKept_concat h.2 (fun o ho => ho) hw⟩
    exact status?_of_spares hw (World.status?_eq_some.2 ⟨_, hafter, rfl⟩)
  · obtain ⟨⟨⟨status, hs⟩, hfits, -⟩, -⟩ := h
    exact World.exists_submission hfits hs

/-- A pending submission that moves on is held, or it is completed without having been taken. -/
theorem triple_leavePending (row : SubmissionRow) (target : Status)
    {Q : Deeds → World → Prop}
    (hQ : ∀ g d w, seen id row g d.before → d.after.status? id = some target →
      d.after.store.outputs = d.before.store.outputs → Spares r id d.after w → Q (g ++ [d]) w) :
    (aftermath r id).Triple (seen id row) (Runner.leavePending id target) fun
      | .ok () => Q
      | .error _ => idle id := by
  refine Contract.triple_leavePending (fun g w row' h hrow _ => ⟨trivial, fun w' hw => ?_⟩)
    fun g w h _ => quiet_idle g ⟨w, w⟩ h.2 rfl
  refine hQ g _ w' h (World.status?_eq_some.2 ⟨_, World.get?_withSubmission_self _ ?_ hrow, rfl⟩) rfl hw
  exact fun _ => rfl

/-- The slot is free in the end. -/
theorem triple_freeSlot : (aftermath r id).Triple (fun g w => (Untaken id g ∨ Settled id w) ∧
    OutputsKept id g w) (r.freeSlot id) fun _ => ended r id := by
  -- Once the slot is free the others leave it so.
  refine Contract.triple_inMemory fun g w h => ⟨trivial, fun w' hw => ⟨?_, ?_⟩⟩
  · rcases h.1 with hu | hs
    · exact .inl (untaken_concat hu (not_takes_of_status?_eq rfl))
    · refine .inr ⟨settled_of_spares hw (settled_of_store_eq rfl hs), hw.slot ?_⟩
      rw [World.registries_withRegistry_self]
      exact Registry.isActive_finish _ id
  · exact outputsKept_concat h.2 (fun o ho => ho) hw

/-- **The outline** of a run that anything may happen to. -/
def outline (r : Runner) (id : Int) : Outline (aftermath r id) r id where
  before := idle id
  idle := idle id
  seen := seen id
  ready := fun row _ => seen id row
  held := fun row _ _ => held id row
  closed := closed id
  lost := fun _ => idle id
  mishap := fun _ => True
  ended := fun _ => ended r id
  mishap_of_not_isCollision := fun _ _ => trivial
  held_id := fun _ _ _ _ _ h => h.1.1
  lost_of_processing := fun _ _ _ _ h => h.2
  lost_of_transition := fun _ _ _ _ _ _ _ h => h.2
  claimSlot := (Contract.triple_claimSlot quiet_idle).mono (fun _ _ h => h) fun res g w h => by
    cases res with
    | ok number => exact h.1
    | error e => exact ⟨.inl h.1.1, h.1.2⟩
  reload := by
    refine Contract.triple_reading (fun res => ?_) fun g w h => ?_
    · cases res with
      | ok row => exact quiet_seen row
      | error e => exact quiet_idle
    · cases hrow : w.store.submission id with
      | ok row =>
        obtain ⟨hfits, hget⟩ := Store.submission_eq_ok.1 hrow
        exact ⟨⟨Table.id_of_get? hget, hfits, row.status, World.status?_eq_some.2 ⟨row, hget, rfl⟩⟩, h⟩
      | error e => exact h
  stepsFor := fun row => by
    refine ((quiet_seen row).read (R := fun _ => True) fun _ _ _ => trivial).mono (fun _ _ h => h)
      fun res g w h => ?_
    cases res with
    | ok steps => exact h.1
    | error e => exact h.1.2
  complete := fun row => triple_leavePending row .completed fun g d w h hs ho hw => by
    refine ⟨⟨⟨.completed, status?_of_spares hw hs⟩, h.1.2.1, .inl (untaken_concat h.2.1 ?_)⟩,
      outputsKept_concat h.2.2 (fun o hm => ho ▸ hm) hw⟩
    intro ht
    rw [ht.2] at hs
    cases hs
  reload_held := fun row _ _ => by
    refine ((quiet_held row).read (R := fun res => ∃ row, res = .ok row)
      fun g w h => World.exists_submission h.1.2.1 h.1.2.2).mono (fun _ _ h => h) fun res g w h => ?_
    obtain ⟨hheld, row, rfl⟩ := h
    exact hheld
  reload_closed := ((quiet_closed (r := r)).read (R := fun _ => True) fun _ _ _ => trivial).mono
    (fun _ _ h => h) fun _ _ _ h => ⟨h.1, fun _ _ => trivial⟩
  start := fun row _ _ => triple_leavePending row .processing fun g d w h hs ho hw =>
    ⟨⟨h.1.1, h.1.2.1, status?_of_spares hw hs⟩, outputsKept_concat h.2.2 (fun o hm => ho ▸ hm) hw⟩
  isCancelled := fun row _ _ run => Contract.triple_isCancelled (quiet_held row) run
  fieldsFor := fun row _ _ => (Contract.triple_fieldsFor (quiet_held row) row).mono (fun _ _ h => h)
    fun _ _ _ h => ⟨h.1, fun _ _ => trivial⟩
  request := fun row _ _ _ => Contract.triple_waiting fun g w w' h hw => by
    refine ⟨⟨h.1.1, h.1.2.1, status?_of_spares hw h.1.2.2⟩, fun d hd o ho hid => ?_⟩
    exact hw.outputs o (h.2 d hd o ho hid) hid
  storeOutput := fun row _ _ result _ => by
    refine Contract.triple_storeOutput (fun g w store h hi => ⟨trivial, fun w' hw => ?_⟩)
      fun g w e h _ => (quiet_held row g ⟨w, w⟩ h rfl).mono fun _ h => ⟨h, trivial⟩
    obtain rfl := Store.eq_append_of_insertOutput rfl hi
    refine ⟨⟨h.1.1, h.1.2.1, status?_of_spares hw h.1.2.2⟩, outputsKept_concat h.2 (fun o ho => ?_) hw⟩
    exact List.mem_append_left _ ho
  finish_completed := fun row _ => triple_finish row .completed none (.inl rfl)
  finish_failed := fun row _ _ message => triple_finish row .failed (some message) (.inr ⟨rfl, rfl⟩)
  freeSlot_lost := fun _ => triple_freeSlot.mono (fun _ _ h => ⟨.inl h.1, h.2⟩) fun _ _ _ h => h
  freeSlot_closed := fun _ _ =>
    triple_freeSlot.mono (fun _ _ h => ⟨h.1.2.2, h.2⟩) fun _ _ _ h => h

end Aftermath

/-! ## §5. The result. -/

/-- A pending submission of a form whose pipeline has one step. -/
def Aftermath.oneStepWorld : World where
  store :=
    { pipelines := [{ id := 1, formId := 1, steps := .arr [Step.toJson ⟨1, "Title", "Go", none, none⟩]
                      createdAt := ⟨0⟩, updatedAt := ⟨0⟩ }]
      submissions := [{ id := 1, formId := 1, fieldSnapshot := .arr [], submittedAt := ⟨0⟩ }] }
  tokens := fun _ => ""

/-- Nothing happens but that every request is interrupted. -/
def Aftermath.interrupting : Plan.Surroundings Unit where
  answer := fun _ w s => (.interrupted, w, s)
  react := fun _ after s => (after, s)

theorem spares_refl (r : Runner) (id : Int) (w : World) : Spares r id w w :=
  ⟨fun row hrow => ⟨row, hrow, rfl, rfl, rfl⟩, fun _ ho _ => ho, fun h => h⟩

end PromptForms
