/-
  PromptForms.Proofs.StorageOrder
  ───────────────────────────────
  **STEPS STORED IN ANY ORDER.**

  The numbers of steps decide their order, whatever the order in which they are listed.  A
  draft puts its steps in order when it is read, and a run does so with what it finds in the
  store.  So two documents that list the same steps mean the same pipeline, and a run goes
  the same way in two worlds that differ in nothing but the order in which steps are stored.

      PipelineDraft.Relisted    documents that list the same items in different orders
      PipelineRow.Reordered     rows that store the same steps in different orders
      World.Reordered           worlds that differ in nothing else
      Job.Same                  a job that does the same in two worlds

  Main results:
    • check_of_relisted       drafts of the same steps
    • sameLogic               what goes the same way, part by part
    • same_run                a run in two worlds that differ in the order of stored steps
    • steps_in_any_order      the check, drafts and runs
-/
import Mathlib.Data.List.Perm.Basic
import PromptForms.Proofs.Confined
import PromptForms.Proofs.InStep
import PromptForms.Proofs.Numbering
import PromptForms.Proofs.OneStep
import PromptForms.Proofs.Undisturbed

namespace PromptForms

open Schema

/-! ## §1. Drafts of the same steps. -/

/-- Two documents of a pipeline that differ at most in the order in which they list its steps. -/
structure PipelineDraft.Relisted (m m' : Members) : Prop where
  rest : ∀ name, name ≠ "steps" → m.lookup name = m'.lookup name
  steps : ∃ items items', m.lookup "steps" = some (.arr items) ∧
    m'.lookup "steps" = some (.arr items') ∧ items'.Perm items

theorem checkSteps_of_forall₂ {items : List Json} {steps : List Step}
    (h : List.Forall₂ (fun item step => Step.check item = .good step) items steps) :
    checkSteps (.arr items) = match checkDense steps with
      | .ok ordered => .good ordered
      | .error e => .fault (.violated e.message) := by
  have hall : listOf Step.check (.arr items) = .good steps := allFrom_eq_good.2 h
  unfold checkSteps
  rw [hall]
  rfl

/-- If every item is a step, the order of the items makes no difference. -/
theorem checkSteps_of_perm {items items' : List Json} {steps : List Step}
    (h : List.Forall₂ (fun item step => Step.check item = .good step) items steps)
    (hperm : items'.Perm items) : checkSteps (.arr items') = checkSteps (.arr items) := by
  obtain ⟨steps', h', hsteps⟩ := List.perm_comp_forall₂ hperm h
  rw [checkSteps_of_forall₂ h, checkSteps_of_forall₂ h', checkDense_of_perm hsteps]

namespace PipelineDraft.Relisted

variable {m m' : Members}

theorem symm (h : Relisted m m') : Relisted m' m where
  rest := fun name hname => (h.rest name hname).symm
  steps := by
    obtain ⟨items, items', hitems, hitems', hperm⟩ := h.steps
    exact ⟨items', items, hitems', hitems, hperm.symm⟩

/-- **Documents of the same steps** are checked alike: they mean the same draft or have the same
issues. -/
theorem check_eq (h : Relisted m m') {items : List Json} (hitems : m.lookup "steps" = some (.arr items))
    (hread : ∀ item ∈ items, ∃ step, Step.check item = .good step) :
    PipelineDraft.check (.obj m) = PipelineDraft.check (.obj m') := by
  obtain ⟨_, items', hsome, hitems', hperm⟩ := h.steps
  rw [hitems] at hsome
  cases hsome
  obtain ⟨steps, hsteps⟩ : ∃ steps, listOf Step.check (.arr items) = .good steps :=
    exists_allFrom_eq_good.2 hread
  have hname : m.optional "name" "Pipeline" (boundedText 1 (some 200)) =
      m'.optional "name" "Pipeline" (boundedText 1 (some 200)) := by
    unfold Members.optional
    rw [h.rest "name" (by decide)]
  have hactive : m.optional "is_active" true bool = m'.optional "is_active" true bool := by
    unfold Members.optional
    rw [h.rest "is_active" (by decide)]
  have hlisted : m.optional "steps" [] checkSteps = m'.optional "steps" [] checkSteps := by
    unfold Members.optional
    rw [hitems, hitems']
    exact congrArg (Checked.under "steps")
      (checkSteps_of_perm (allFrom_eq_good.1 hsteps) hperm).symm
  show PipelineDraft.mk <$> m.optional "name" "Pipeline" (boundedText 1 (some 200)) <*>
    m.optional "is_active" true bool <*> m.optional "steps" [] checkSteps = _
  rw [hname, hactive, hlisted]
  rfl

/-- Whatever is listed, one document means a draft only if the other one means it too. -/
theorem good_of_good (h : Relisted m m') {draft : PipelineDraft}
    (hgood : PipelineDraft.check (.obj m) = .good draft) :
    PipelineDraft.check (.obj m') = .good draft := by
  obtain ⟨items, _, hitems, -, -⟩ := h.steps
  refine (h.check_eq hitems ?_).symm.trans hgood
  -- A draft is only found if every item has been read.
  obtain ⟨_, ⟨⟩, -, -, hsteps⟩ := PipelineDraft.check_eq_good.1 hgood
  rcases optional_eq_good.1 hsteps with ⟨habsent, -⟩ | ⟨value, hvalue, hchecked⟩
  · rw [habsent] at hitems
    cases hitems
  · rw [hvalue] at hitems
    cases hitems
    obtain ⟨listed, hlisted, -⟩ := checkSteps_eq_good.1 hchecked
    exact exists_allFrom_eq_good.1 ⟨listed, hlisted⟩

end PipelineDraft.Relisted

/-! ## §2. Worlds that differ in the order of stored steps. -/

/-- The rows differ at most in the order in which they store their steps.  If the steps of one of
them cannot be read, then those of the other one cannot either, for the same reason. -/
structure PipelineRow.Reordered (row row' : PipelineRow) : Prop where
  rest : row' = { row with steps := row'.steps }
  steps : Corresponds List.Perm row.storedSteps row'.storedSteps

/-- Stored steps may be put in any order. -/
theorem PipelineRow.reordered_of_perm {row : PipelineRow} {items items' : List Json}
    {steps : List Step} (hitems : row.steps = .arr items) (hsteps : row.storedSteps = .ok steps)
    (hperm : items'.Perm items) : row.Reordered { row with steps := .arr items' } := by
  refine ⟨rfl, ?_⟩
  unfold storedSteps at hsteps ⊢
  rw [hitems] at hsteps ⊢
  cases items with
  | nil =>
    rw [List.perm_nil.1 hperm, hsteps]
    exact .ok (List.Perm.refl _)
  | cons item rest =>
    have hread : List.Forall₂ (fun item step => (Step.check item).orFail = .ok step) (item :: rest)
        steps := mapM_eq_ok.1 hsteps
    obtain ⟨steps', hread', hsteps'⟩ := List.perm_comp_forall₂ hperm hread
    have hstored' : checkElementsIfAny Step.check (.arr items') = .ok steps' := by
      cases items' with
      | nil => exact absurd hperm.length_eq (by simp)
      | cons item' rest' => exact mapM_eq_ok.2 hread'
    rw [hsteps, hstored']
    exact .ok hsteps'.symm

/-- The world with other pipelines. -/
def World.withPipelines (w : World) (pipelines : Table PipelineRow) : World :=
  w.withStore { w.store with pipelines }

/-- The worlds differ at most in the order in which the steps of pipelines are stored. -/
def World.Reordered (w w' : World) : Prop :=
  ∃ pipelines, List.Forall₂ PipelineRow.Reordered w.store.pipelines pipelines ∧
    w' = w.withPipelines pipelines

/-- Whatever becomes of two worlds, they still differ at most in the order of stored steps. -/
def reordering : Drift := fun w w' v v' => w.Reordered w' → v.Reordered v'

theorem keeps_reordered : reordering.Keeps World.Reordered := fun _ _ _ _ h hE => hE h

theorem find?_reordered {rows rows' : Table PipelineRow}
    (h : List.Forall₂ PipelineRow.Reordered rows rows') (form : Int) :
    Option.Rel PipelineRow.Reordered (rows.find? fun p => p.formId == form)
      (rows'.find? fun p => p.formId == form) := by
  induction h with
  | nil => exact .none
  | cons hrow hrest ih =>
    rename_i row row' rest rest'
    have hform : row'.formId = row.formId := by rw [hrow.rest]
    rw [List.find?_cons, List.find?_cons, hform]
    split
    · exact .some hrow
    · exact ih

/-- The steps for a run are the same, but for the order. -/
theorem activeSteps_reordered {w w' : World} (h : w.Reordered w') (form : Int) :
    Corresponds List.Perm (w.store.activeSteps form) (w'.store.activeSteps form) := by
  obtain ⟨pipelines, hrows, rfl⟩ := h
  unfold Store.activeSteps Store.pipelineOf? World.withPipelines World.withStore
  have hfound := find?_reordered hrows form
  dsimp only
  revert hfound
  generalize w.store.pipelines.find? (fun p => p.formId == form) = found
  generalize pipelines.find? (fun p => p.formId == form) = found'
  rintro (hrow | _)
  · rename_i row row'
    have hactive : row'.isActive = row.isActive := by rw [hrow.rest]
    dsimp only
    rw [hactive]
    split
    · exact hrow.steps
    · exact .ok (List.Perm.refl _)
  · exact .ok (List.Perm.refl _)

/-! ## §3. Jobs that do the same in two worlds. -/

section

variable {α β : Type} {E : Drift} {I : World → World → Prop}

/-- From any two worlds with the invariant, the job keeps in step with itself, the invariant holds
where it ends, and it ends in the same way, as `Q` says. -/
def Job.Same (E : Drift) (I : World → World → Prop) (j : Job α) (Q : Except Failure α → Prop) :
    Prop :=
  ∀ w w', I w w' →
    Plan.InStep E j.run j.run (fun res res' v v' => I v v' ∧ res' = res ∧ Q res) w w'

/-- **Doing the same** is a matter of the parts of a job. -/
theorem sameLogic (hE : E.Keeps I) : JobLogic (Job.Same E I) where
  mono := fun h hQ w w' hI =>
    (h w w' hI).mono fun res _ _ _ hres => ⟨hres.1, hres.2.1, hQ res hres.2.2⟩
  ofExcept := fun h _ _ hI => ⟨hI, rfl, h⟩
  bind := by
    intro α β j f R Q hj hf he w w' hI
    refine Plan.inStep_bind (hj w w' hI) ?_
    rintro (e | b) _ v v' ⟨hI, rfl, hR⟩
    · exact ⟨hI, rfl, he e hR⟩
    · exact hf b hR v v' hI
  outcome := by
    intro α j Q hj w w' hI
    refine Plan.inStep_bind (hj w w' hI) ?_
    rintro _ res v v' ⟨hI, rfl, hQ⟩
    exact ⟨hI, rfl, res, rfl, hQ⟩
  request := fun request w w' hI =>
    ⟨rfl, fun outcome v v' hv => ⟨hE w w' v v' hI hv, rfl, outcome, rfl⟩⟩

theorem same_iff_inStep {j : Job α} :
    Job.Same E I j (fun _ => True) ↔ Job.InStep E I j j Eq := by
  constructor
  · intro h w w' hI
    exact (h w w' hI).mono fun _ _ _ _ hres => ⟨hres.1, .of_eq hres.2.1.symm⟩
  · intro h w w' hI
    refine (h w w' hI).mono ?_
    rintro _ _ v v' ⟨hI, ⟨rfl⟩ | _⟩
    · exact ⟨hI, rfl, trivial⟩
    · exact ⟨hI, rfl, trivial⟩

theorem same_ofCauses (x : Except Cause α) :
    Job.Same E I (Job.ofCauses x) fun _ => True := same_iff_inStep.2 (Job.inStep_ofCauses x)

theorem same_andFinally {j : Job α} {cleanup : Job Unit} (hj : Job.Same E I j fun _ => True)
    (hc : Job.Same E I cleanup fun _ => True) :
    Job.Same E I (j.andFinally cleanup) fun _ => True := by
  intro w w' hI
  refine Plan.inStep_bind (hj w w' hI) ?_
  rintro res _ v v' ⟨hI, rfl, -⟩
  refine Plan.inStep_bind (hc v v' hI) ?_
  exact fun _ _ v v' hdone => ⟨hdone.1, rfl, trivial⟩

theorem same_statementOn (hE : E.Keeps I) {access : Access}
    {f : World → Except Failure (α × World)}
    (h : ∀ w w', I w w' → Corresponds (fun p p' => I p.2 p'.2 ∧ p'.1 = p.1) (f w) (f w')) :
    Job.Same E I (Job.statementOn access f) fun _ => True := by
  intro w w' hI
  refine Job.inStep_statementOn ((h w w' hI).mono ?_) ?_
  · exact fun p p' hp v v' hv => ⟨hE _ _ v v' hp.1 hv, congrArg Except.ok hp.2, trivial⟩
  · exact fun e _ v v' hv => ⟨hE w w' v v' hI hv, rfl, trivial⟩

theorem same_read (hE : E.Keeps I) {f : World → Except Failure α}
    (h : ∀ w w', I w w' → f w' = f w) : Job.Same E I (Job.read f) fun _ => True :=
  fun w w' hI v v' hv => ⟨hE w w' v v' hI hv, h w w' hI, trivial⟩

theorem same_readMemory (hE : E.Keeps I) {f : World → α} (h : ∀ w w', I w w' → f w' = f w) :
    Job.Same E I (Job.readMemory f) fun res => ∃ a, res = .ok a :=
  fun w w' hI v v' hv => ⟨hE w w' v v' hI hv, congrArg Except.ok (h w w' hI), f w, rfl⟩

end

/-- **What can be seen from outside** of two plans that keep in step is the same: the requests that
they send, and what they leave to their surroundings. -/
theorem Plan.InStep.requests_eq {α β σ : Type} {E : Drift} {around : Surroundings σ}
    (hblind : around.Blind E) {Q : α → β → World → World → Prop} {t : Plan α} {t' : Plan β}
    {w w' : World} (h : InStep E t t' Q w w') (s : σ) :
    t'.requests around w' s = t.requests around w s ∧
      (t'.run around w' s).2.2 = (t.run around w s).2.2 := by
  induction t generalizing t' w w' s with
  | done a =>
    cases t' with
    | done b => exact ⟨rfl, rfl⟩
    | act | generate => exact h.elim
  | act access update next ih =>
    cases t' with
    | act access' update' next' =>
      obtain ⟨hdrift, hstate⟩ := hblind.react w w' (update w) (update' w') s
      have hrest := ih w (h _ _ hdrift) (around.react w (update w) s).2
      rw [hstate] at hrest
      show requests around (next' w') _ (around.react w' (update' w') s).2 =
          requests around (next w) _ (around.react w (update w) s).2 ∧
        ((next' w').run around _ (around.react w' (update' w') s).2).2.2 =
          ((next w).run around _ (around.react w (update w) s).2).2.2
      rw [hstate]
      exact hrest
    | done | generate => exact h.elim
  | generate request next ih =>
    cases t' with
    | generate request' next' =>
      obtain ⟨rfl, hnext⟩ := h
      obtain ⟨houtcome, hdrift, hstate⟩ := hblind.answer request w w' s
      have hrest := ih _ (hnext (around.answer request w s).1 _ _ hdrift) (around.answer request w s).2.2
      show request :: requests around (next' (around.answer request w' s).1) _
            (around.answer request w' s).2.2 =
          request :: requests around (next (around.answer request w s).1) _
            (around.answer request w s).2.2 ∧
        ((next' (around.answer request w' s).1).run around _
            (around.answer request w' s).2.2).2.2 =
          ((next (around.answer request w s).1).run around _
            (around.answer request w s).2.2).2.2
      rw [← houtcome, ← hstate]
      exact ⟨congrArg (request :: ·) hrest.1, hrest.2⟩
    | done | act => exact h.elim

/-! ## §4. Statements of a run. -/

namespace StorageOrder

open Job

variable {α : Type} {r : Runner} {id : Int}

/-- As part of a run, the job does the same whatever the order in which steps are stored. -/
abbrev Same (j : Job α) (Q : Except Failure α → Prop) : Prop :=
  Job.Same reordering World.Reordered j Q

/-- A statement that neither looks at pipelines nor writes them. -/
theorem same_statementOn {access : Access} {f : World → Except Failure (α × World)}
    (hf : ∀ w pipelines, f (w.withPipelines pipelines) =
      (f w).map fun p => (p.1, p.2.withPipelines pipelines))
    (hkept : ∀ w a v, f w = .ok (a, v) → v.store.pipelines = w.store.pipelines) :
    Same (statementOn access f) fun _ => True := by
  apply PromptForms.same_statementOn keeps_reordered
  rintro w _ ⟨pipelines, hrows, rfl⟩
  rw [hf]
  cases hw : f w with
  | error e => exact .error e
  | ok p => exact .ok ⟨⟨pipelines, by rwa [hkept w p.1 p.2 hw], rfl⟩, rfl⟩

theorem same_read {f : World → Except Failure α}
    (hf : ∀ w pipelines, f (w.withPipelines pipelines) = f w) : Same (read f) fun _ => True := by
  apply PromptForms.same_read keeps_reordered
  rintro w _ ⟨pipelines, -, rfl⟩
  exact hf w pipelines

theorem same_reload : Same (Runner.reload id) fun _ => True := same_read fun _ _ => rfl

theorem same_isCancelled (run : Nat) : Same (r.isCancelled run) fun res => ∃ stop, res = .ok stop := by
  apply same_readMemory keeps_reordered
  rintro w _ ⟨pipelines, -, rfl⟩
  rfl

theorem same_compareAndSet (expected : List Status)
    (change : Calendar.Instant → SubmissionRow → SubmissionRow) :
    Same (Runner.compareAndSet id expected change) fun _ => True := by
  unfold Runner.compareAndSet statement
  apply same_statementOn
  · intro w pipelines
    unfold Store.compareAndSet World.withPipelines World.withStore
    dsimp only
    split
    · split <;> rfl
    · rfl
  · intro w moved v hv
    cases hv
    split
    · split <;> rfl
    · rfl

theorem same_leavePending (target : Status) : Same (Runner.leavePending id target) fun _ => True := by
  have logic := sameLogic keeps_reordered
  unfold Runner.leavePending
  apply logic.bind (same_compareAndSet _ _) _ fun _ _ => trivial
  intro moved _
  exact logic.ite (logic.throw trivial) (logic.pure trivial)

theorem same_finish (target : Status) (message : Option String) :
    Same (Runner.finish id target message) fun _ => True := by
  have logic := sameLogic keeps_reordered
  unfold Runner.finish
  exact logic.bind (same_compareAndSet _ _) (fun _ _ => same_reload) fun _ _ => trivial

theorem insertOutput_withPipelines (w : World) (pipelines : Table PipelineRow) (o : OutputRow) :
    (w.withPipelines pipelines).store.insertOutput o =
      (w.store.insertOutput o).map fun s => { s with pipelines } := by
  unfold Store.insertOutput World.withPipelines World.withStore
  dsimp only
  split <;> rfl

theorem pipelines_of_insertOutput {s s' : Store} {o : OutputRow} (h : s.insertOutput o = some s') :
    s'.pipelines = s.pipelines := by
  cases Store.eq_of_insertOutput h
  rfl

theorem same_storeOutput (row : SubmissionRow) (result : StepResult) :
    Same (Runner.storeOutput row result) fun _ => True := by
  apply PromptForms.same_statementOn keeps_reordered
  rintro w _ ⟨pipelines, hrows, rfl⟩
  apply Corresponds.after rfl
  intro _
  apply Corresponds.after rfl
  intro _
  apply Corresponds.after rfl
  intro _
  have hstored : (w.withPipelines pipelines).store.insertOutput (Runner.outputRow row result
      (w.withPipelines pipelines).store.outputs.nextId (w.withPipelines pipelines).now) =
        (w.store.insertOutput (Runner.outputRow row result w.store.outputs.nextId w.now)).map
          fun s => { s with pipelines } := insertOutput_withPipelines w pipelines _
  rw [hstored]
  cases hs : w.store.insertOutput (Runner.outputRow row result w.store.outputs.nextId w.now) with
  | none => exact .error _
  | some s =>
    have hkept := pipelines_of_insertOutput hs
    exact .ok ⟨⟨pipelines, hkept ▸ hrows, rfl⟩, rfl⟩

theorem same_fieldsFor (row : SubmissionRow) : Same (Runner.fieldsFor row) fun _ => True := by
  have logic := sameLogic keeps_reordered
  unfold Runner.fieldsFor
  apply logic.bind (logic.ofExcept (Q := fun _ => True) trivial) _ fun _ _ => trivial
  intro stored _
  cases stored with
  | some fields => exact logic.pure trivial
  | none => exact same_read fun _ _ => rfl

/-! ## §5. The run. -/

/-- The run is gone through part by part; how a part fails does not matter. -/
theorem confines : Confines (Job.Same reordering World.Reordered) fun _ => True where
  toJobLogic := sameLogic keeps_reordered
  foreign := fun _ _ => trivial
  step := fun _ _ => trivial
  isCancelled := fun _ run => same_isCancelled run
  finish := fun _ {target message} _ =>
    (sameLogic keeps_reordered).mono (same_finish target message) fun _ _ _ _ => trivial
  storeOutput := fun row result =>
    (sameLogic keeps_reordered).mono (same_storeOutput row result) fun _ _ _ _ => trivial
  reload := fun _ => (sameLogic keeps_reordered).mono same_reload fun _ _ _ _ => trivial

/-- A run whose steps are in order. -/
theorem same_runOrdered (row : SubmissionRow) (run : Nat) (ordered : List Step) :
    Same (do
      match ← Job.outcome (r.runAllSteps row run ordered) with
      | .ok final => return final
      | .error failure => Runner.breakOff id failure : Job SubmissionRow) fun _ => True := by
  have logic := sameLogic keeps_reordered
  refine logic.mono (confines.runOrdered (logic.mono (same_fieldsFor row) ?_) run ordered) ?_
  · exact fun _ _ _ _ => trivial
  · exact fun _ _ => trivial

/-- **What a run does with steps** depends on their numbers, not on the order in which they are
stored. -/
theorem same_runClaimed (run : Nat) : Same (r.runClaimed id run) fun _ => True := by
  have logic := sameLogic keeps_reordered
  refine same_iff_inStep.2 ?_
  unfold Runner.runClaimed
  apply inStep_bind_eq (same_iff_inStep.1 same_reload)
  intro row
  apply inStep_refuse Iff.rfl
  apply inStep_bind (inStep_read keeps_reordered fun _ _ h => activeSteps_reordered h row.formId)
  intro steps steps' hperm
  -- From here on the steps are only seen as a whole: whether there are any, and in their order.
  rw [← hperm.isEmpty_eq, ← checkDense_of_perm hperm]
  refine same_iff_inStep.1 (logic.ite ?_ ?_)
  · apply logic.bind (same_ofCauses _) _ fun _ _ => trivial
    intro target _
    exact logic.bind (same_leavePending target) (fun _ _ => same_reload) fun _ _ => trivial
  · apply logic.bind (same_ofCauses _) _ fun _ _ => trivial
    intro target _
    apply logic.bind (same_leavePending target) _ fun _ _ => trivial
    intro _ _
    cases checkDense steps with
    | error e =>
      exact logic.bind (same_finish .failed _) (fun _ _ => logic.throw trivial) fun _ _ => trivial
    | ok ordered => exact same_runOrdered row run ordered

theorem same_claimSlot : Same (r.claimSlot id) fun _ => True := by
  apply same_statementOn
  · intro w pipelines
    rw [show (w.withPipelines pipelines).registries = w.registries from rfl]
    cases (w.registries r.process).start id <;> rfl
  · intro w run v hv
    split at hv <;> cases hv
    rfl

theorem same_freeSlot : Same (r.freeSlot id) fun _ => True := by
  unfold Runner.freeSlot inMemory
  apply same_statementOn
  · exact fun _ _ => rfl
  · intro w _ v hv
    cases hv
    rfl

/-- **A run** in two worlds that differ in the order of stored steps. -/
theorem same_run (r : Runner) (id : Int) : Same (r.run id) fun _ => True := by
  have logic := sameLogic keeps_reordered
  unfold Runner.run
  apply logic.bind same_claimSlot _ fun _ _ => trivial
  exact fun number _ => same_andFinally (same_runClaimed number) same_freeSlot

/-- Nothing else happens, so it does not matter in which order steps are stored. -/
theorem blind_surroundings (b : Backend) : b.surroundings.Blind reordering where
  react := fun _ _ _ _ _ => ⟨fun h => h, rfl⟩
  answer := by
    intro request w w' sent
    refine ⟨rfl, ?_, rfl⟩
    rintro ⟨pipelines, hrows, rfl⟩
    exact ⟨pipelines, hrows, rfl⟩

end StorageOrder

/-! ## §6. The result. -/

/-- **Steps may be listed and stored in any order.**

The check of the numbers succeeds exactly if they are `1 … N` in some order.  Then it finds the same
steps, the `i`th of them with the number `i`, and it leaves them as they are when it is repeated.
What it finds, also as an error, is the same for every other order of the steps.

So two documents that differ in the order in which they list steps mean the same draft, and if what
they list can be read they have the same issues.  Of a row that stores the documents of steps, every
other order of them is the same pipeline.  And a run goes the same way in two worlds that differ in
the order of stored steps: it ends in the same way and sends the same requests, and the worlds in the
end differ in nothing else, so that the same outputs are stored.  Whatever happens around the run
may not depend on this order. -/
theorem steps_in_any_order :
    (∀ steps : List Step,
      ((∃ ordered, checkDense steps = .ok ordered) ↔
        (steps.map (·.number)).Perm (List.range' 1 steps.length)) ∧
      (∀ ordered, checkDense steps = .ok ordered →
        ordered.Perm steps ∧ (∀ (i : Nat) (hi : i < ordered.length), ordered[i].number = i + 1) ∧
        checkDense ordered = .ok ordered) ∧
      ∀ steps' : List Step, steps'.Perm steps → checkDense steps' = checkDense steps) ∧
    (∀ m m' : Members, PipelineDraft.Relisted m m' →
      (∀ draft, PipelineDraft.check (.obj m) = .good draft ↔
        PipelineDraft.check (.obj m') = .good draft) ∧
      ∀ items, m.lookup "steps" = some (.arr items) →
        (∀ item ∈ items, ∃ step, Step.check item = .good step) →
        PipelineDraft.check (.obj m) = PipelineDraft.check (.obj m')) ∧
    (∀ (row : PipelineRow) (items items' : List Json) (steps : List Step),
      row.steps = .arr items → row.storedSteps = .ok steps → items'.Perm items →
      row.Reordered { row with steps := .arr items' }) ∧
    ∀ (r : Runner) (id : Int) (σ : Type) (around : Plan.Surroundings σ),
      around.Blind reordering → ∀ (w w' : World) (s : σ), w.Reordered w' →
        let plan := (r.run id).run
        (plan.run around w' s).1 = (plan.run around w s).1 ∧
        (plan.run around w s).2.1.Reordered (plan.run around w' s).2.1 ∧
        (plan.run around w' s).2.2 = (plan.run around w s).2.2 ∧
        plan.requests around w' s = plan.requests around w s := by
  refine ⟨fun steps => ⟨exists_checkDense_eq_ok, fun ordered h => ?_, fun steps' => checkDense_of_perm⟩,
    fun m m' h => ⟨fun draft => ⟨h.good_of_good, h.symm.good_of_good⟩, fun items => h.check_eq⟩,
    fun row items items' steps => PipelineRow.reordered_of_perm, ?_⟩
  · exact ⟨(checkDense_eq_ok.1 h).1, number_eq_of_checkDense h, checkDense_idempotent h⟩
  · intro r id σ around hblind w w' s hw
    have hsteps := StorageOrder.same_run r id w w' hw
    obtain ⟨hworlds, hend, -⟩ := hsteps.run hblind s
    obtain ⟨hrequests, hleft⟩ := hsteps.requests_eq hblind s
    exact ⟨hend, hworlds, hleft, hrequests⟩

namespace StorageOrder

open Undisturbed (twoSteps)

/-- A document of a pipeline with these steps. -/
def listing (steps : List Step) : Members := [("steps", .arr (steps.map Step.toJson))]

theorem relisted_listing {steps steps' : List Step} (h : steps'.Perm steps) :
    PipelineDraft.Relisted (listing steps) (listing steps') where
  rest := fun name hname => by
    have hne : (name == "steps") = false := beq_eq_false_iff_ne.2 hname
    unfold listing
    rw [List.lookup_cons, List.lookup_cons, hne]
  steps := ⟨_, _, rfl, rfl, h.map _⟩

/-- The world in which two steps are stored the other way round, with the steps in order. -/
def tidied : World := Undisturbed.world.withPipelines
  [{ id := 1, formId := 1, steps := .arr (twoSteps.map Step.toJson), createdAt := ⟨0⟩, updatedAt := ⟨0⟩ }]

/-- The run of the submission, for two orders of the same steps. -/
def ran (w : World) : Except Failure SubmissionRow × World × List Request :=
  Undisturbed.tired.run (Undisturbed.runner.run 1) w []

end StorageOrder

/-- Two steps, listed and stored in the wrong order: the same draft, the same prompts. -/
theorem steps_in_any_order_swapped :
    checkDense Undisturbed.twoSteps.reverse = .ok Undisturbed.twoSteps ∧
      (∀ i (hi : i < Undisturbed.twoSteps.length), Undisturbed.twoSteps[i].number = i + 1) ∧
      PipelineDraft.check (.obj (StorageOrder.listing Undisturbed.twoSteps.reverse)) =
        .good { steps := Undisturbed.twoSteps } ∧
      PipelineDraft.check (.obj (StorageOrder.listing Undisturbed.twoSteps)) =
        .good { steps := Undisturbed.twoSteps } ∧
      (StorageOrder.ran Undisturbed.world).2.1.Reordered (StorageOrder.ran StorageOrder.tidied).2.1 ∧
      (StorageOrder.ran StorageOrder.tidied).2.2 =
        [⟨"Write", "base"⟩, ⟨"Check a rhyme", "base"⟩] := by
  obtain ⟨hcheck, hdrafts, hrows, hruns⟩ := steps_in_any_order
  have hreverse := List.reverse_perm Undisturbed.twoSteps
  have hdense : checkDense Undisturbed.twoSteps.reverse = .ok Undisturbed.twoSteps :=
    checkDense_eq_ok.2 ⟨hreverse.symm, rfl⟩
  have hgood : PipelineDraft.check (.obj (StorageOrder.listing Undisturbed.twoSteps.reverse)) =
      .good { steps := Undisturbed.twoSteps } :=
    PipelineDraft.check_eq_good.2 ⟨_, rfl, rfl, rfl,
      optional_eq_good.2 (.inr ⟨_, rfl, checkSteps_eq_good.2 ⟨_, rfl, hdense⟩⟩)⟩
  have hstored : Undisturbed.world.Reordered StorageOrder.tidied :=
    ⟨_, .cons (hrows _ _ _ Undisturbed.twoSteps.reverse rfl rfl (hreverse.symm.map _)) .nil, rfl⟩
  obtain ⟨-, hworlds, hsent, -⟩ := hruns Undisturbed.runner 1 _ Undisturbed.tired.surroundings
    (StorageOrder.blind_surroundings _) _ _ [] hstored
  refine ⟨hdense, ((hcheck _).2.1 _ hdense).2.1, hgood,
    ((hdrafts _ _ (StorageOrder.relisted_listing hreverse.symm)).1 _).1 hgood, hworlds, ?_⟩
  have hrun := run_run (b := Undisturbed.tired) (r := Undisturbed.runner) Undisturbed.prepared rfl
  refine hsent.trans ?_
  show (Undisturbed.tired.run (Undisturbed.runner.run Undisturbed.submission.id) _ []).2.2 = _
  rw [hrun]
  rfl

end PromptForms
