/-
  PromptForms.Proofs.Ledger
  ─────────────────────────
  **WHAT A RUN STORES.**

  A run reads its row, loads its steps and takes its submission, one statement right
  after the other, and then stores its outputs.  Each output is under the attempt that
  was read, whatever has become of the row since, and has the next step number.  The run
  completes its submission only with one output for each step that it loaded.

      Deeds.added      the outputs that were stored
      Loaded, Charge   a run has read its row and its steps, and has taken its submission
      Entered          what a statement may do to outputs and status
      books, contest   the contract, and the contract of rivals who keep it

  Main results:
    • `Ledger.outline` — the outline of a run under any contract, with what it stores.
    • `Ledger.meets_task` — every run, rerun and new attempt keeps to the contract.
-/
import PromptForms.Proofs.Exclusive
import PromptForms.Proofs.Trail

namespace PromptForms

/-! ## §1. Outputs that were stored. -/

/-- The outputs that a statement stored. -/
def Deed.added (d : Deed) : List OutputRow :=
  d.after.store.outputs.drop d.before.store.outputs.length

/-- The outputs that some statements stored, in their order. -/
def Deeds.added (g : Deeds) : List OutputRow := g.flatMap Deed.added

theorem Deed.added_of_outputs_eq {d : Deed}
    (h : d.after.store.outputs = d.before.store.outputs) : d.added = [] := by
  unfold Deed.added
  rw [h, List.drop_length]

theorem Deed.added_of_append {d : Deed} {o : OutputRow}
    (h : d.after.store.outputs = d.before.store.outputs ++ [o]) : d.added = [o] := by
  unfold Deed.added
  rw [h, List.drop_left]

theorem Deeds.added_append (g g' : Deeds) : Deeds.added (g ++ g') = g.added ++ g'.added :=
  List.flatMap_append

theorem Deeds.added_concat (g : Deeds) (d : Deed) : Deeds.added (g ++ [d]) = g.added ++ d.added := by
  rw [added_append]
  unfold Deeds.added
  rw [List.flatMap_singleton]

theorem Deeds.added_concat_of_outputs_eq {g : Deeds} {d : Deed}
    (h : d.after.store.outputs = d.before.store.outputs) : Deeds.added (g ++ [d]) = g.added := by
  rw [added_concat, Deed.added_of_outputs_eq h, List.append_nil]

/-- The outputs are the first ones of one attempt of a submission. -/
def Posted (id : Int) (outputs : List OutputRow) : Prop :=
  ∃ attempt, (∀ o ∈ outputs, o.submissionId = id ∧ o.attempt = attempt) ∧
    outputs.map (·.stepNumber) = upTo outputs.length

theorem posted_nil (id : Int) : Posted id [] := ⟨0, fun _ ho => absurd ho List.not_mem_nil, rfl⟩

/-! ## §2. How a run comes to hold its submission. -/

/-- The last statement read the row of the submission. -/
def Seen (id : Int) (row : SubmissionRow) (g : Deeds) : Prop :=
  ∃ earlier d, g = earlier ++ [d] ∧ d.before.store.submissions.get? id = some row

/-- The last two statements read the row of the submission and the steps of its form. -/
def Loaded (id : Int) (row : SubmissionRow) (steps : List Step) (g : Deeds) : Prop :=
  ∃ earlier seen loaded, g = earlier ++ [seen, loaded] ∧
    seen.before.store.submissions.get? id = some row ∧
    loaded.before.store.activeSteps row.formId = .ok steps

/-- The run has read the row and the steps and has then taken the submission; `since` is what it has
done since. -/
def Charge (id : Int) (row : SubmissionRow) (steps : List Step) (g since : Deeds) : Prop :=
  ∃ earlier claim, g = earlier ++ claim :: since ∧ Loaded id row steps earlier ∧ claim.takes id ∧
    ∀ d ∈ since, ¬d.claims id

section

variable {id : Int} {row : SubmissionRow} {steps : List Step} {g since : Deeds} {d : Deed}

theorem charge_start (hg : Loaded id row steps g) (hd : d.takes id) :
    Charge id row steps (g ++ [d]) [] :=
  ⟨g, d, rfl, hg, hd, fun _ he => absurd he List.not_mem_nil⟩

theorem charge_concat (h : Charge id row steps g since) (hd : ¬d.claims id) :
    Charge id row steps (g ++ [d]) (since ++ [d]) := by
  obtain ⟨earlier, claim, rfl, hloaded, htakes, hnone⟩ := h
  refine ⟨earlier, claim, by simp, hloaded, htakes, fun e he => ?_⟩
  rcases List.mem_append.1 he with he | he
  · exact hnone e he
  · rw [List.mem_singleton.1 he]
    exact hd

/-- After one more statement, either it has just taken the submission, or it has done something
else since. -/
theorem charge_of_concat (h : Charge id row steps (g ++ [d]) since) :
    (d.takes id ∧ since = [] ∧ Loaded id row steps g) ∨
      ∃ before, since = before ++ [d] ∧ ¬d.claims id ∧ Charge id row steps g before := by
  obtain ⟨earlier, claim, hg, hloaded, htakes, hnone⟩ := h
  rcases List.eq_nil_or_concat since with rfl | ⟨before, last, rfl⟩
  · obtain ⟨rfl, rfl⟩ := List.append_singleton_inj.1 hg
    exact .inl ⟨htakes, rfl, hloaded⟩
  · have hg' : g ++ [d] = (earlier ++ claim :: before) ++ [last] := by simpa using hg
    obtain ⟨rfl, rfl⟩ := List.append_singleton_inj.1 hg'
    refine .inr ⟨before, by simp, hnone d (by simp), earlier, claim, rfl, hloaded, htakes, ?_⟩
    exact fun e he => hnone e (by simp [he])

theorem id_of_charge (h : Charge id row steps g since) : row.id = id := by
  obtain ⟨-, -, -, ⟨-, seen, -, -, hrow, -⟩, -⟩ := h
  exact Table.id_of_get? hrow

end

/-! ## §3. The contract. -/

/-- The output is the next one of the attempt that the run read. -/
def Due (id : Int) (g : Deeds) (o : OutputRow) : Prop :=
  ∃ row steps since, Charge id row steps g since ∧ g.Holds id ∧ o.submissionId = id ∧
    o.attempt = row.attempt ∧ o.stepNumber = since.added.length + 1

/-- What a statement may do to outputs and status.  It may store one output if that is due; it takes a
submission after the row and the steps have been read; it completes one with an output for each
step. -/
structure Entered (id : Int) (g : Deeds) (d : Deed) : Prop where
  outputs : d.after.store.outputs = d.before.store.outputs ∨
    d.after.store.submissions = d.before.store.submissions ∧
      ∃ o, d.after.store.outputs = d.before.store.outputs ++ [o] ∧ Due id g o
  claim : d.claims id → ∃ row steps, Loaded id row steps g ∧
    (d.after.status? id = some .completed → steps = [])
  completed : d.before.status? id = some .processing → d.after.status? id = some .completed →
    ∃ row steps since, Charge id row steps g since ∧ since.added = g.added ∧
      g.added.map (·.stepNumber) = upTo steps.length

/-- Tasks do only what may be entered; anything may happen around them. -/
def books (id : Int) : Contract where
  allows := Entered id
  calm _ _ _ := True
  pause _ _ _ := True

/-- Rivals for a submission, each of whom keeps the books. -/
def contest (id : Int) : Contract := (exclusive id).both (books id)

namespace Ledger

variable {id : Int} {g : Deeds} {d : Deed} {r : Runner}

theorem entered_of_status?_eq (hout : d.after.store.outputs = d.before.store.outputs)
    (hs : d.after.status? id = d.before.status? id) : Entered id g d where
  outputs := .inl hout
  claim := fun h => absurd h (Deed.not_claims_of_status?_eq hs)
  completed := by
    intro hb ha
    rw [hs, hb] at ha
    cases ha

theorem entered_of_store_eq (h : d.after.store = d.before.store) : Entered id g d :=
  entered_of_status?_eq (congrArg Store.outputs h) (Deed.status?_eq_of_store_eq h id)

/-- A condition on the deeds holds after a statement that may be entered. -/
theorem leads_of_entered {P : Deeds → Prop} (he : Entered id g d) (hP : P (g ++ [d])) :
    (books id).Leads (fun g _ => P g) g d := ⟨he, fun _ _ => hP⟩

theorem quiet_of {P : Deeds → Prop}
    (hP : ∀ g d, P g → d.after.store = d.before.store → P (g ++ [d])) :
    (books id).Quiet fun g _ => P g :=
  fun g d h hstore => leads_of_entered (entered_of_store_eq hstore) (hP g d h hstore)

/-! ## §4. The conditions on the way. -/

/-- Nothing has been stored. -/
def fresh (g : Deeds) (_ : World) : Prop := g.added = []

/-- The row has just been read. -/
def seen (id : Int) (row : SubmissionRow) (g : Deeds) (w : World) : Prop :=
  Seen id row g ∧ fresh g w

/-- The row and the steps have just been read. -/
def ready (id : Int) (row : SubmissionRow) (steps : List Step) (g : Deeds) (w : World) : Prop :=
  Loaded id row steps g ∧ fresh g w

/-- The run holds the submission; it loaded `n` steps and has stored the outputs of `k` of them. -/
def held (id : Int) (row : SubmissionRow) (n k : Nat) (g : Deeds) (_ : World) : Prop :=
  g.Holds id ∧ (∃ steps since, Charge id row steps g since ∧ steps.length = n ∧ since.added = g.added) ∧
    (∀ o ∈ g.added, o.submissionId = id ∧ o.attempt = row.attempt) ∧
    g.added.map (·.stepNumber) = upTo k

/-- Whatever was stored belongs to one attempt. -/
def posted (id : Int) (g : Deeds) (_ : World) : Prop := Posted id g.added

theorem posted_of_fresh {w : World} (h : fresh g w) : posted id g w := by
  unfold posted
  rw [show g.added = [] from h]
  exact posted_nil id

theorem posted_of_held {row : SubmissionRow} {n k : Nat} {w : World} (h : held id row n k g w) :
    posted id g w := by
  obtain ⟨-, -, hrows, hnum⟩ := h
  have hlen : g.added.length = k := by
    have hmap := congrArg List.length hnum
    rwa [List.length_map, length_upTo] at hmap
  exact ⟨row.attempt, hrows, by rw [hlen]; exact hnum⟩

theorem quiet_fresh : (books id).Quiet fresh :=
  quiet_of (P := fun g => g.added = []) fun _ _ h hstore =>
    (Deeds.added_concat_of_outputs_eq (congrArg Store.outputs hstore)).trans h

theorem quiet_posted : (books id).Quiet (posted id) :=
  quiet_of (P := fun g => Posted id g.added) fun g d h hstore => by
    rw [Deeds.added_concat_of_outputs_eq (congrArg Store.outputs hstore)]
    exact h

/-- The holder goes on without storing anything. -/
theorem held_concat {row : SubmissionRow} {n k : Nat} {w w' : World} (h : held id row n k g w)
    (hout : d.after.store.outputs = d.before.store.outputs)
    (hs : d.after.status? id = d.before.status? id) : held id row n k (g ++ [d]) w' := by
  obtain ⟨hholds, ⟨steps, since, hcharge, hlen, hsince⟩, hrows, hnum⟩ := h
  unfold held
  rw [Deeds.added_concat_of_outputs_eq hout]
  refine ⟨(Deeds.holds_concat_of_status?_eq hs).2 hholds, ⟨steps, since ++ [d], ?_, hlen, ?_⟩,
    hrows, hnum⟩
  · exact charge_concat hcharge (Deed.not_claims_of_status?_eq hs)
  · rw [Deeds.added_concat_of_outputs_eq hout]
    exact hsince

theorem quiet_held (row : SubmissionRow) (n k : Nat) : (books id).Quiet (held id row n k) :=
  fun _ _ h hstore => ⟨entered_of_store_eq hstore, fun _ _ => held_concat h
    (congrArg Store.outputs hstore) (Deed.status?_eq_of_store_eq hstore id)⟩

/-! ## §5. The statements of a run. -/

theorem triple_reload : (books id).Triple fresh (Runner.reload id) fun
    | .ok row => seen id row
    | .error _ => fresh := by
  refine Contract.triple_read fun g w h => ?_
  have hquiet := (quiet_fresh : (books id).Quiet fresh) g ⟨w, w⟩ h rfl
  cases hrow : w.store.submission id with
  | error e => exact hquiet
  | ok row =>
    exact hquiet.mono fun w' hfresh => ⟨⟨g, ⟨w, w⟩, rfl, (Store.submission_eq_ok.1 hrow).2⟩, hfresh⟩

theorem triple_stepsFor (row : SubmissionRow) :
    (books id).Triple (seen id row) (Runner.stepsFor row.formId) fun
      | .ok steps => ready id row steps
      | .error _ => fresh := by
  refine Contract.triple_read fun g w h => ?_
  obtain ⟨⟨earlier, d, rfl, hrow⟩, hfresh⟩ := h
  have hquiet := (quiet_fresh : (books id).Quiet fresh) _ ⟨w, w⟩ hfresh rfl
  cases hsteps : w.store.activeSteps row.formId with
  | error e => exact hquiet
  | ok steps =>
    exact hquiet.mono fun w' h' => ⟨⟨earlier, d, ⟨w, w⟩, by simp, hrow, hsteps⟩, h'⟩

/-- Leaving `pending` after the row and the steps have been read. -/
theorem triple_leavePending (row : SubmissionRow) (steps : List Step) {target : Status}
    (ht : target = .processing ∨ target = .completed ∧ steps = []) {Q : Deeds → World → Prop}
    (hQ : ∀ g d w, Loaded id row steps g → Deeds.added (g ++ [d]) = [] →
      d.before.status? id = some .pending → d.after.status? id = some target → Q (g ++ [d]) w) :
    (books id).Triple (ready id row steps) (Runner.leavePending id target) fun
      | .ok () => Q
      | .error _ => fresh := by
  refine Contract.triple_leavePending (fun g w row' h hrow hs => ?_) fun g w h _ => ?_
  · have hbefore : w.status? id = some .pending := World.status?_eq_some.2 ⟨row', hrow, hs⟩
    have hafter : (w.withSubmission id fun row => row.movedOn target w.now).status? id = some target :=
      World.status?_eq_some.2 ⟨_, World.get?_withSubmission_self _ (fun _ => rfl) hrow, rfl⟩
    refine ⟨⟨.inl rfl, fun _ => ⟨row, steps, h.1, fun hc => ?_⟩, fun hb => ?_⟩, fun w' _ =>
      hQ g _ w' h.1 ((Deeds.added_concat_of_outputs_eq rfl).trans h.2) hbefore hafter⟩
    · rcases ht with rfl | ⟨-, hnil⟩
      · exact absurd (hafter.symm.trans hc) (by decide)
      · exact hnil
    · exact absurd (hbefore.symm.trans hb) (by decide)
  · exact quiet_fresh g ⟨w, w⟩ h.2 rfl

theorem triple_complete (row : SubmissionRow) :
    (books id).Triple (ready id row []) (Runner.leavePending id .completed) fun
      | .ok () => posted id
      | .error _ => fresh :=
  triple_leavePending row [] (.inr ⟨rfl, rfl⟩) fun _ _ w _ hnil _ _ => posted_of_fresh (w := w) hnil

theorem triple_start (row : SubmissionRow) (steps : List Step) :
    (books id).Triple (ready id row steps) (Runner.leavePending id .processing) fun
      | .ok () => held id row steps.length 0
      | .error _ => fresh :=
  triple_leavePending row steps (.inl rfl) fun g d w hloaded hnil hb ha => by
    have htakes : d.takes id := ⟨hb, ha⟩
    unfold held
    rw [hnil]
    exact ⟨Deeds.holds_concat.2 (.inl htakes), ⟨steps, [], charge_start hloaded htakes, rfl, rfl⟩,
      fun _ ho => absurd ho List.not_mem_nil, rfl⟩

/-- Ending the attempt; a completed one has an output for each step. -/
theorem triple_finish (row : SubmissionRow) (n k : Nat) (target : Status) (message : Option String)
    (hk : target = .completed → k = n) :
    (books id).Triple (held id row n k) (Runner.finish id target message) fun _ => posted id := by
  unfold Runner.finish
  refine Contract.triple_bind (R := fun _ => posted id)
    (Contract.triple_compareAndSet (fun g w row' h hrow hs => ?_) fun g w h _ => ?_)
    (fun _ => ?_) fun e g w h => h
  · have hbefore : w.status? id = some .processing :=
      World.status?_eq_some.2 ⟨row', hrow, List.mem_singleton.1 hs⟩
    have hafter : (w.withSubmission id fun row => row.settled target message w.now).status? id =
        some target :=
      World.status?_eq_some.2 ⟨_, World.get?_withSubmission_self _ (fun _ => rfl) hrow, rfl⟩
    have hposted := posted_of_held h
    refine ⟨⟨.inl rfl, fun hc => ?_, fun _ hc => ?_⟩, fun w' _ => ?_⟩
    · exact absurd (hbefore.symm.trans hc.1) (by decide)
    · -- A completed attempt has as many outputs as steps were loaded.
      obtain ⟨-, ⟨steps, since, hcharge, hlen, hsince⟩, -, hnum⟩ := h
      refine ⟨row, steps, since, hcharge, hsince, ?_⟩
      rw [hnum, hlen, hk (Option.some.inj (hafter.symm.trans hc))]
    · show Posted id (Deeds.added (g ++ [_]))
      rw [Deeds.added_concat_of_outputs_eq rfl]
      exact hposted
  · exact quiet_posted g ⟨w, w⟩ (posted_of_held h) rfl
  · exact (quiet_posted.read (R := fun _ => True) fun _ _ _ => trivial).mono (fun _ _ h => h)
      fun _ _ _ h => h.1

/-- Storing the output of the next step. -/
theorem triple_storeOutput (row : SubmissionRow) (n k : Nat) (result : StepResult)
    (hnumber : result.number = k + 1) :
    (books id).Triple (held id row n k) (Runner.storeOutput row result) fun
      | .ok () => held id row n (k + 1)
      | .error _ => held id row n k := by
  refine Contract.triple_storeOutput (fun g w store h hi => ?_)
    fun g w e h _ => quiet_held row n k g ⟨w, w⟩ h rfl
  obtain rfl := Store.eq_append_of_insertOutput rfl hi
  obtain ⟨hholds, ⟨steps, since, hcharge, hlen, hsince⟩, hrows, hnum⟩ := h
  have hstep : ((Runner.outputRow row result w.store.outputs.nextId w.now).stepNumber : Int) =
      (k : Int) + 1 := by
    show (result.number : Int) = k + 1
    rw [hnumber]
    rfl
  have hcount : since.added.length = k := by
    have hmap := congrArg List.length hnum
    rwa [List.length_map, length_upTo, ← hsince] at hmap
  have hid : row.id = id := id_of_charge hcharge
  have hsame : ∀ after : World, after.store.submissions = w.store.submissions →
      after.status? id = w.status? id := fun after hsub => World.status?_of_submissions_eq hsub id
  refine ⟨⟨.inr ⟨rfl, _, rfl, row, steps, since, hcharge, hholds, hid, rfl, ?_⟩, fun hc => ?_,
    fun hb ha => ?_⟩, fun w' _ => ?_⟩
  · rw [hstep, hcount]
  · exact absurd hc (Deed.not_claims_of_status?_eq (hsame _ rfl))
  · exact absurd (hb.symm.trans ha) (by decide)
  · have hadded : ∀ g' : Deeds, Deeds.added (g' ++ [⟨w, w.withStore { w.store with
        outputs := w.store.outputs ++ [Runner.outputRow row result w.store.outputs.nextId w.now] }⟩]) =
        g'.added ++ [Runner.outputRow row result w.store.outputs.nextId w.now] := by
      intro g'
      rw [Deeds.added_concat, Deed.added_of_append rfl]
    show held id row n (k + 1) _ w'
    unfold held
    rw [hadded]
    refine ⟨(Deeds.holds_concat_of_status?_eq (hsame _ rfl)).2 hholds, ⟨steps, since ++ [_],
      charge_concat hcharge (Deed.not_claims_of_status?_eq (hsame _ rfl)), hlen, ?_⟩,
      fun o ho => ?_, ?_⟩
    · rw [hadded, hsince]
    · rcases List.mem_append.1 ho with ho | ho
      · exact hrows o ho
      · rw [List.mem_singleton.1 ho]
        exact ⟨hid, rfl⟩
    · rw [List.map_append, hnum, upTo_succ]
      exact congrArg (fun n => upTo k ++ [n]) hstep

/-- A new attempt stores nothing. -/
theorem triple_newAttempt : (books id).Triple fresh (r.newAttempt id) fun _ => fresh := by
  refine Contract.triple_newAttempt (R := fresh) (L := fun _ => True) quiet_fresh trivial
    (fun _ _ _ => trivial) (fun _ _ _ _ _ => trivial) (fun g w row h hrow hs => ?_) ?_
    fun e g w h _ => h
  · have hbefore : ∀ status, w.status? id = some status → status = row.status := by
      intro status hstatus
      obtain ⟨row', hrow', rfl⟩ := World.status?_eq_some.1 hstatus
      rw [hrow] at hrow'
      cases hrow'
      rfl
    have hterminal : ∀ status, w.status? id = some status →
        status = .completed ∨ status = .failed := fun status h => hbefore status h ▸ hs
    refine ⟨⟨.inl rfl, fun hc => ?_, fun hb => ?_⟩, fun w' _ =>
      (Deeds.added_concat_of_outputs_eq rfl).trans h⟩
    · rcases hterminal _ hc.1 with h | h <;> cases h
    · rcases hterminal _ hb with h | h <;> cases h
  · exact (quiet_fresh.read (R := fun _ => True) fun _ _ _ => trivial).mono (fun _ _ h => h)
      fun _ _ _ h => h.1

/-! ## §6. The outline. -/

section

variable {C : Contract} {P P' : Deeds → World → Prop} {α : Type}

theorem surely_and {res : Except Failure α} {w : World}
    (h : Contract.surely (fun _ => P) res g w ∧ P' g w) :
    Contract.surely (fun _ g w => P g w ∧ P' g w) res g w := by
  cases res with
  | ok a => exact h
  | error e => exact h.1.elim

/-- A job that does not fail keeps two contracts at once. -/
theorem triple_surely {R R' : Deeds → World → Prop} {j : Job α}
    (h : C.Triple P j (Contract.surely fun _ => R)) (h' : (books id).Triple P' j fun _ => R') :
    (C.both (books id)).Triple (fun g w => P g w ∧ P' g w) j
      (Contract.surely fun _ g w => R g w ∧ R' g w) :=
  (h.both h').mono (fun _ _ h => h) fun _ _ _ h => surely_and h

end

/-- **The outline** of a run that keeps the books besides another contract. -/
def outline {C : Contract} (o : Outline C r id) : Outline (C.both (books id)) r id where
  before := fun g w => o.before g w ∧ fresh g w
  idle := fun g w => o.idle g w ∧ fresh g w
  seen := fun row g w => o.seen row g w ∧ seen id row g w
  ready := fun row steps g w => o.ready row steps g w ∧ ready id row steps g w
  held := fun row n k g w => o.held row n k g w ∧ held id row n k g w
  closed := fun g w => o.closed g w ∧ posted id g w
  lost := fun e g w => o.lost e g w ∧ fresh g w
  mishap := o.mishap
  ended := fun res g w => o.ended res g w ∧ posted id g w
  mishap_of_not_isCollision := o.mishap_of_not_isCollision
  held_id := fun row n k g w h => o.held_id row n k g w h.1
  lost_of_processing := fun row hs g w h => ⟨o.lost_of_processing row hs g w h.1, h.2.2⟩
  lost_of_transition := fun row steps target c hc g w h =>
    ⟨o.lost_of_transition row steps target c hc g w h.1, h.2.2⟩
  claimSlot := (o.claimSlot.both (Contract.triple_claimSlot quiet_fresh)).mono (fun _ _ h => h)
    fun res g w h => by
      cases res with
      | ok number => exact ⟨h.1, h.2.1⟩
      | error e => exact ⟨h.1, posted_of_fresh h.2.1⟩
  reload := (o.reload.both triple_reload).mono (fun _ _ h => h) fun res g w h => by
    cases res with
    | ok row => exact h
    | error e => exact h
  stepsFor := fun row => ((o.stepsFor row).both (triple_stepsFor row)).mono (fun _ _ h => h)
    fun res g w h => by
      cases res with
      | ok steps => exact h
      | error e => exact h
  complete := fun row => ((o.complete row).both (triple_complete row)).mono (fun _ _ h => h)
    fun res g w h => by
      cases res with
      | ok value => exact h
      | error e => exact h
  reload_held := fun row n k => triple_surely (o.reload_held row n k)
    (((quiet_held row n k).read (R := fun _ => True) fun _ _ _ => trivial).mono (fun _ _ h => h)
      fun _ _ _ h => h.1)
  reload_closed := (o.reload_closed.both
    (quiet_posted.read (R := fun _ => True) fun _ _ _ => trivial)).mono (fun _ _ h => h)
      fun _ _ _ h => ⟨⟨h.1.1, h.2.1⟩, h.1.2⟩
  start := fun row steps hne => ((o.start row steps hne).both (triple_start row steps)).mono
    (fun _ _ h => h) fun res g w h => by
      cases res with
      | ok value => exact h
      | error e => exact h
  isCancelled := fun row n k run => triple_surely (o.isCancelled row n k run)
    ((Contract.triple_isCancelled (quiet_held row n k) run).mono (fun _ _ h => h) fun res _ _ h => by
      cases res with
      | ok stop => exact h
      | error e => exact h.elim)
  fieldsFor := fun row n k => ((o.fieldsFor row n k).both
    (Contract.triple_fieldsFor (quiet_held row n k) row)).mono (fun _ _ h => h)
      fun _ _ _ h => ⟨⟨h.1.1, h.2.1⟩, h.1.2⟩
  request := fun row n k q => triple_surely (o.request row n k q)
    (Contract.triple_request fun _ _ h _ _ _ => h)
  storeOutput := fun row n k result hn => ((o.storeOutput row n k result hn).both
    (triple_storeOutput row n k result hn)).mono (fun _ _ h => h) fun res g w h => by
      cases res with
      | ok value => exact h
      | error e => exact ⟨⟨h.1.1, h.2⟩, h.1.2⟩
  finish_completed := fun row n => triple_surely (o.finish_completed row n)
    (triple_finish row n n .completed none fun _ => rfl)
  finish_failed := fun row n k message => triple_surely (o.finish_failed row n k message)
    (triple_finish row n k .failed (some message) fun h => nomatch h)
  freeSlot_lost := fun e => ((o.freeSlot_lost e).both (Contract.triple_freeSlot quiet_fresh)).mono
    (fun _ _ h => h) fun _ _ _ h => ⟨h.1, posted_of_fresh h.2⟩
  freeSlot_closed := fun res hres => ((o.freeSlot_closed res hres).both
    (Contract.triple_freeSlot quiet_posted)).mono (fun _ _ h => h) fun _ _ _ h => h

/-! ## §7. Tasks. -/

theorem fresh_nil (w : World) : fresh [] w := rfl

theorem newAttempt (r : Runner) (hfits : Store.fits id = true) :
    (contest id).Triple (fun g w => Exclusive.idle id [] g w ∧ fresh g w) (r.newAttempt id) fun
      | .ok _ => fun g w => Exclusive.renewed id g w ∧ fresh g w
      | .error _ => fresh :=
  ((Exclusive.newAttempt r hfits).both triple_newAttempt).mono (fun _ _ h => h) fun res g w h => by
    cases res with
    | ok row => exact h
    | error e => exact h.2

theorem rerun (r : Runner) (hfits : Store.fits id = true) :
    (contest id).Triple (fun g w => Exclusive.idle id [] g w ∧ fresh g w) (r.rerun id) fun _ =>
      posted id := by
  unfold Runner.rerun
  refine Contract.triple_bind (newAttempt r hfits) (fun _ g w h => ?_)
    fun e g w h => posted_of_fresh (w := w) h
  obtain ⟨⟨hp, -⟩, hfresh⟩ := h
  -- The run of a rerun begins where the new attempt ended: it has done nothing since.
  have hstart : Exclusive.idle id g g w :=
    ⟨hp, [], (List.append_nil g).symm, fun _ hd => absurd hd List.not_mem_nil⟩
  exact Contract.Meets.mono (fun _ _ _ h => h.2) _ g w ((outline (Exclusive.outline r hfits g)).run g w ⟨hstart, hfresh⟩)

/-- **Tasks.**  Whatever is done about a submission, the books are kept, and what a task stores is
the beginning of one attempt. -/
theorem meets_task (hfits : Store.fits id = true) (r : Runner) (task : Task)
    (ht : task = .run r id ∨ task = .newAttempt r id ∨ task = .rerun r id) {w : World}
    (hp : Present id w) : (contest id).Meets task.plan (fun _ => posted id) [] w := by
  have hstart : Exclusive.idle id [] [] w := ⟨hp, [], rfl, fun _ hd => absurd hd List.not_mem_nil⟩
  rcases ht with rfl | rfl | rfl
  · exact (Contract.meets_bind ..).2 (Contract.Meets.mono (fun _ _ _ h => h.2) _ _ _
      ((outline (Exclusive.outline r hfits [])).run [] w ⟨hstart, fresh_nil w⟩))
  · refine (Contract.meets_bind ..).2 (Contract.Meets.mono (fun res g w h => ?_) _ _ _
      (newAttempt r hfits [] w ⟨hstart, fresh_nil w⟩))
    cases res with
    | ok row => exact posted_of_fresh (w := w) h.2
    | error e => exact posted_of_fresh (w := w) h
  · exact (Contract.meets_bind ..).2 (Contract.Meets.mono (fun _ _ _ h => h) _ _ _
      (rerun r hfits [] w ⟨hstart, fresh_nil w⟩))

end Ledger

end PromptForms
