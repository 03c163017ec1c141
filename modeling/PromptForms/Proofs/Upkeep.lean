/-
  PromptForms.Proofs.Upkeep
  ─────────────────────────
  **REQUESTS KEEP THE TRAILS.**

  While a run waits for a reply, requests are served and other runs begin and end.  A
  contract says what all of them owe each other: the store stays sound, outputs stay
  where they are, and nobody touches a submission that somebody else is processing.
  Here every request is shown to keep to it.

      Lawful, upkeep     what a task may do, and the contract
      Harmless           a job that keeps to the contract from any sound store

  Main results:
    • `harmless_…` — the operations of the service keep to the contract.
    • `serves` — so does every request.
-/
import PromptForms.Proofs.Requests
import PromptForms.Proofs.Trail

namespace PromptForms

/-! ## §1. The contract. -/

/-- What a task may do after other deeds.  A submission becomes completed only by its holder, with
one output for each step that its pipeline had when it was claimed, or at once, without steps and
outputs. -/
structure Lawful (g : Deeds) (d : Deed) : Prop where
  sound : d.after.store.Sound
  kept : Kept d.before.store d.after.store
  others : ∀ id, d.before.status? id = some .processing → ¬g.Holds id →
    SameSubmission id d.before.store d.after.store
  completed : ∀ id row, d.after.store.submissions.get? id = some row → row.status = .completed →
    SameSubmission id d.before.store d.after.store ∨
    (d.claims id ∧ d.after.store.numbers id row.attempt = upTo (d.before.store.stepCount id)) ∨
    (g.Holds id ∧ d.before.status? id = some .processing ∧ ∃ claim, g.lastClaim? id = some claim ∧
      d.after.store.numbers id row.attempt = upTo (claim.before.store.stepCount id))

/-- From sound stores tasks do only what is lawful.  During its turn a task is alone with the
store; while it waits, the submissions that it holds stay as they are. -/
def upkeep : Contract where
  allows g d := d.before.store.Sound → Lawful g d
  calm _ w w' := w'.store = w.store
  pause g w w' := (w.store.Sound → w'.store.Sound) ∧
    ∀ id, g.Holds id → w.status? id = some .processing → SameSubmission id w.store w'.store

theorem lawful_of_tidy {g : Deeds} {d : Deed} (h : Tidy d.before.store d.after.store) :
    Lawful g d where
  sound := h.sound
  kept := h.kept
  others := by
    intro id hs _
    obtain ⟨row, hrow, hrs⟩ := World.status?_eq_some.1 hs
    exact h.processing id row hrow hrs
  completed := fun id row hrow hs => .inl (h.completed id row hrow hs)

namespace Upkeep

open Contract (keeps_pure keeps_bind keeps_ofExcept keeps_ofCauses)

variable {α β : Type}

/-- The store is sound. -/
def sound (_ : Deeds) (w : World) : Prop := w.store.Sound

/-- Conditions on a sound store survive statements that keep it. -/
theorem quiet_store (A : Store → Prop) : upkeep.Quiet fun _ w => w.store.Sound ∧ A w.store := by
  intro g d h hstore
  refine ⟨fun hs => lawful_of_tidy (tidy_of_eq hs ?_ ?_), fun w (hw : w.store = d.after.store) => ?_⟩
  · rw [hstore]
  · rw [hstore]
  · show w.store.Sound ∧ A w.store
    rw [hw, hstore]
    exact h

theorem quiet_sound : upkeep.Quiet sound := by
  intro g d h hstore
  exact (quiet_store (fun _ => True) g d ⟨h, trivial⟩ hstore).mono fun _ hw => hw.1

/-- A tidy statement is allowed, and the store stays sound. -/
theorem leads_of_tidy {g : Deeds} {d : Deed} (h : Tidy d.before.store d.after.store) :
    upkeep.Leads sound g d := by
  refine ⟨fun _ => lawful_of_tidy h, fun w (hw : w.store = d.after.store) => ?_⟩
  show w.store.Sound
  rw [hw]
  exact h.sound

/-! ## §2. Harmless jobs. -/

/-- From a sound store the job keeps to the contract. -/
def Harmless (j : Job α) : Prop := upkeep.Triple sound j fun _ => sound

/-- A statement that is tidy where a condition holds. -/
theorem triple_tidy {A : Store → Prop} {f : World → Except Failure (α × World)}
    (hf : ∀ w a w', w.store.Sound → A w.store → f w = .ok (a, w') → Tidy w.store w'.store) :
    upkeep.Triple (fun _ w => w.store.Sound ∧ A w.store) (Job.statement f) fun _ => sound := by
  refine Contract.triple_statement fun g w h => ?_
  cases hw : f w with
  | ok pair => exact leads_of_tidy (hf w pair.1 pair.2 h.1 h.2 hw)
  | error e => exact quiet_sound g ⟨w, w⟩ h.1 rfl

theorem harmless_statement {f : World → Except Failure (α × World)}
    (hf : ∀ w a w', w.store.Sound → f w = .ok (a, w') → Tidy w.store w'.store) :
    Harmless (Job.statement f) :=
  (triple_tidy (A := fun _ => True) fun w a w' h _ => hf w a w' h).mono (fun _ _ h => ⟨h, trivial⟩)
    fun _ _ _ h => h

/-- What has been read still holds of the store in the rest of the turn. -/
theorem harmless_read_bind {f : Store → Except Failure β} {rest : β → Job α}
    (hrest : ∀ b, upkeep.Triple (fun _ w => w.store.Sound ∧ f w.store = .ok b) (rest b)
      fun _ => sound) : Harmless (Job.read (fun w => f w.store) >>= rest) := by
  refine Contract.triple_bind (R := fun res _ w => w.store.Sound ∧ f w.store = res)
    (Contract.triple_reading (fun res => quiet_store fun s => f s = res) fun g w h => ⟨h, rfl⟩)
    hrest fun e g w h => h.1

/-! ## §3. Forms and pipelines. -/

theorem harmless_drawToken : Harmless Forms.drawToken :=
  quiet_sound.keeps_inMemory fun w a w' h => by cases h; rfl

theorem harmless_createForm (draft : FormDraft) : Harmless (Forms.create draft) := by
  unfold Forms.create
  refine keeps_bind (keeps_ofCauses _) fun _ => keeps_bind harmless_drawToken fun token => ?_
  refine harmless_statement fun w a w' h hw => ?_
  simp only at hw
  split at hw
  · rename_i store hins
    cases hw
    cases Store.eq_of_insertForm hins
    exact tidy_of_eq h rfl rfl
  · cases hw

theorem harmless_updateForm (form : Int) (patch : FormPatch) : Harmless (Forms.update form patch) := by
  unfold Forms.update
  refine keeps_bind (quiet_sound.keeps_read _) fun row => keeps_bind (keeps_ofCauses _) fun _ => ?_
  refine harmless_statement fun w a w' h hw => ?_
  cases hp : Forms.patched row patch w.now with
  | ok new =>
    rw [hp] at hw
    cases hw
    exact tidy_of_eq h rfl rfl
  | error e =>
    rw [hp] at hw
    cases hw

/-- Deleting a form without a submission that is being processed. -/
theorem tidy_deleteForm {s : Store} (h : s.Sound) {form : Int} (hidle : s.processingOf? form = none) :
    Tidy s (s.deleteForm form) := by
  have hids : ∀ row ∈ s.submissions, (row.formId == form) =
      ((s.submissions.filter fun r => r.formId == form).map (·.id)).contains row.id := by
    intro row hr
    rw [Bool.eq_iff_iff, List.contains_iff_mem, List.mem_map]
    constructor
    · exact fun hf => ⟨row, List.mem_filter.2 ⟨hr, hf⟩, rfl⟩
    · rintro ⟨other, hother, hid⟩
      obtain ⟨hmem, hf⟩ := List.mem_filter.1 hother
      -- Rows with one id are one row.
      have hrow := Table.get?_of_mem h.distinct hr
      have hsame := Table.get?_of_mem h.distinct hmem
      rw [show HasId.id other = HasId.id row from hid, hrow] at hsame
      cases hsame
      exact hf
  refine tidy_remove h _ hids (fun row hr hf hs => ?_) rfl rfl
  unfold Store.processingOf? at hidle
  rw [Option.map_eq_none_iff, List.find?_eq_none] at hidle
  refine hidle row hr ?_
  rw [hf, hs]
  rfl

theorem harmless_deleteForm (form : Int) : Harmless (Forms.delete form) := by
  unfold Forms.delete
  refine keeps_bind (quiet_sound.keeps_read _) fun _ => ?_
  refine harmless_read_bind (f := fun s => .ok (s.processingOf? form)) fun found => ?_
  cases found with
  | some submission => exact (Contract.keeps_fail _).mono (fun _ _ h => h.1) fun _ _ _ h => h
  | none =>
    refine triple_tidy (A := fun s => Except.ok (s.processingOf? form) =
      (Except.ok none : Except Failure (Option Int))) fun w a w' h hidle hw => ?_
    cases hw
    exact tidy_deleteForm h (Except.ok.inj hidle)

theorem harmless_putPipeline (form : Int) (draft : PipelineDraft) :
    Harmless (Forms.putPipeline form draft) := by
  refine harmless_statement fun w a w' h hw => ?_
  simp only at hw
  split at hw
  · cases hw
    exact tidy_of_eq h rfl rfl
  · split at hw
    · rename_i store hins
      cases hw
      cases Store.eq_of_insertPipeline hins
      exact tidy_of_eq h rfl rfl
    · cases hw

theorem harmless_getPipeline (form : Int) : Harmless (Forms.getPipeline form) :=
  keeps_bind (quiet_sound.keeps_read _) fun _ => quiet_sound.keeps_read _

theorem harmless_savePipeline (form : Int) (draft : PipelineDraft) :
    Harmless (Forms.savePipeline form draft) := by
  unfold Forms.savePipeline
  refine keeps_bind (quiet_sound.keeps_read _) fun row => keeps_bind (keeps_ofExcept _) fun fields => ?_
  refine keeps_bind (keeps_ofCauses _) fun warnings => ?_
  exact keeps_bind (harmless_putPipeline form draft) fun saved => keeps_pure _

theorem harmless_deletePipeline (form : Int) : Harmless (Forms.deletePipeline form) := by
  unfold Forms.deletePipeline
  refine keeps_bind (harmless_getPipeline form) fun row => harmless_statement fun w a w' h hw => ?_
  cases hw
  exact tidy_of_eq h rfl rfl

/-! ## §4. Submissions. -/

theorem harmless_submit (token : String) (data : Members) (sender : Submissions.Sender) :
    Harmless (Submissions.submit token data sender) := by
  unfold Submissions.submit
  refine keeps_bind (quiet_sound.compositional.getPublic token) fun form => ?_
  refine keeps_bind (keeps_ofExcept _) fun fields => ?_
  refine keeps_bind (keeps_ofExcept _) fun values => harmless_statement fun w a w' h hw => ?_
  simp only at hw
  split at hw
  · rename_i store hins
    cases hw
    cases Store.eq_of_insertSubmission hins
    show Tidy w.store { w.store with submissions := Table.insert w.store.submissions _ }
    rw [Table.insert_nextId rfl]
    exact tidy_insert h rfl rfl
  · cases hw

theorem harmless_deleteSubmission (submission : Int) : Harmless (Submissions.delete submission) := by
  unfold Submissions.delete
  refine harmless_read_bind (f := fun s => s.submission submission) fun row => ?_
  refine Contract.triple_refuse (fun _ _ _ h => h.1) fun hidle => ?_
  refine triple_tidy (A := fun s => s.submission submission = .ok row) fun w a w' h hrow hw => ?_
  cases hw
  obtain ⟨-, hget⟩ := Store.submission_eq_ok.1 hrow
  refine tidy_remove h (fun id => id == submission) (fun _ _ => rfl) (fun other ho hid hs => ?_)
    rfl rfl
  have hother := Table.get?_of_mem h.distinct ho
  rw [show HasId.id other = submission from beq_iff_eq.1 hid, hget] at hother
  cases hother
  exact hidle hs

/-- A new attempt is tidy, and if it fails then not for a row like its own. -/
theorem triple_newAttempt (r : Runner) (submission : Int) :
    upkeep.Triple sound (r.newAttempt submission) fun res g w => sound g w ∧ NoCollision res := by
  have hcause : ∀ c, (∀ message, c ≠ .entityAlreadyExists message) →
      ¬(Failure.ofCause c).IsCollision := by
    rintro c hc ⟨message, h⟩
    cases h
    exact hc message rfl
  refine Contract.triple_newAttempt (L := fun e => ¬e.IsCollision) quiet_sound ?_
    (fun status c hc => ?_) (fun g w _ e he => noCollision_submission _ _ e he)
    (fun g w row h hrow hs => leads_of_tidy (tidy_restart h hrow hs))
    (quiet_sound.read fun g w _ => noCollision_submission _ _)
    fun e g w h he => ⟨h, noCollision_error he⟩
  · exact hcause _ (by simp)
  · unfold Status.newAttempt at hc
    split at hc <;> cases hc
    exact hcause _ (by simp)

theorem harmless_newAttempt (r : Runner) (submission : Int) :
    Harmless (r.newAttempt submission) :=
  (triple_newAttempt r submission).mono (fun _ _ h => h) fun _ _ _ h => h.1

/-! ## §5. Requests. -/

/-- **Requests.**  The operations of the service keep to the contract, so whatever is asked,
answering it does. -/
theorem serves : upkeep.Serves sound where
  quiet := quiet_sound
  createForm := fun {draft} _ => harmless_createForm draft
  updateForm := fun form {patch} _ => harmless_updateForm form patch
  deleteForm := harmless_deleteForm
  savePipeline := fun form {draft} _ => harmless_savePipeline form draft
  deletePipeline := harmless_deletePipeline
  submit := harmless_submit
  deleteSubmission := harmless_deleteSubmission
  newAttempt := harmless_newAttempt

end Upkeep

end PromptForms
