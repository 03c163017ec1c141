/-
  PromptForms.Proofs.Stopping
  ───────────────────────────
  **RUNS THAT ARE ASKED TO STOP.**

  From the moment on in which it is asked to stop, a run begins no request and stores
  nothing, and it fails with a message that says where it stopped.  But a run without
  steps never looks whether it has been asked, and no run looks after its last step: there
  it completes the submission all the same.

  Main results:
    • `effects_of_asked` — a run that has been asked to stop has no further effects, and the
      outputs that it leaves are those that it had begun to store.
    • `verdict_of_asked` — such a run fails, and its message says where it stopped, if it
      had not yet begun to store the last of its outputs.
-/
import PromptForms.Proofs.Aftermath
import PromptForms.Proofs.Heeding

namespace PromptForms

/-! ## §1. What a run leaves. -/

namespace Stopping

open Heeding

variable {R : World → World → Prop} {r : Runner} {id : Int} {g : Deeds} {tale : Tale}
  {res : Except Failure SubmissionRow} {w w' : World}

theorem spares_of_beside (h : Beside r id w w') : Spares r id w w' where
  row := h.row
  outputs := by
    intro o ho hid
    have hmem : o ∈ w'.store.trail id := by
      rw [h.trail]
      exact Store.mem_trail.2 ⟨ho, hid⟩
    exact (Store.mem_trail.1 hmem).1
  slot := by
    rw [isActive_eq_isSome_lookup, isActive_eq_isSome_lookup, h.slot]
    exact fun h => h

/-- Among others who leave alone what it writes, a run ends its attempt and keeps the books. -/
theorem books_of_tells (h : (r.run id).run.Tells (Beside r id) w tale res w') :
    (Aftermath.ended r id tale.deeds w' ∧ Ledger.posted id tale.deeds w') ∧
      ∀ earlier d later, tale.deeds = earlier ++ d :: later → Entered id earlier d := by
  have hstart : ∀ w₁, Aftermath.idle id [] w₁ := fun _ =>
    ⟨fun d hd => absurd hd List.not_mem_nil, fun d hd => absurd hd List.not_mem_nil⟩
  obtain ⟨hend, hallowed⟩ := Contract.Meets.tells (C := (aftermath r id).both (books id)) beside_refl
    (fun _ _ _ => beside_trans) (fun _ _ _ h => ⟨spares_of_beside h, trivial⟩)
    (fun _ _ _ h => ⟨spares_of_beside h, trivial⟩) h [] fun w₁ _ =>
      (Ledger.outline (Aftermath.outline r id)).run [] w₁ ⟨hstart w₁, rfl⟩
  exact ⟨hend, fun earlier d later heq => (hallowed earlier d later heq).2⟩

/-- The trail of a submission grows by what the run stores. -/
theorem trail_of_tells {α : Type} {t : Plan α} {a : α} (h : t.Tells (Beside r id) w tale a w')
    (hgrows : ∀ d ∈ tale.deeds, d.after.store.outputs = d.before.store.outputs ++ d.added)
    (hown : ∀ o ∈ tale.deeds.added, o.submissionId = id) :
    w'.store.trail id = w.store.trail id ++ tale.deeds.added := by
  have hstep : ∀ d : Deed, d.after.store.outputs = d.before.store.outputs ++ d.added →
      (∀ o ∈ d.added, o.submissionId = id) →
      d.after.store.trail id = d.before.store.trail id ++ d.added := by
    intro d hd hid
    unfold Store.trail
    rw [hd, List.filter_append, List.filter_eq_self.2 fun o ho => beq_iff_eq.2 (hid o ho)]
  induction h with
  | done a w => simp [Tale.deeds, Deeds.added]
  | @memory update next w w' tale a h ih =>
    obtain ⟨hd, hgrows⟩ := List.forall_mem_cons.1 hgrows
    obtain ⟨hid, hown⟩ := List.forall_mem_append.1 hown
    rw [ih hgrows hown, hstep ⟨w, update w⟩ hd hid, List.append_assoc]
    rfl
  | @store update next w before resumed w' tale a hb hr h ih =>
    obtain ⟨hd, hgrows⟩ := List.forall_mem_cons.1 hgrows
    obtain ⟨hid, hown⟩ := List.forall_mem_append.1 hown
    rw [ih hgrows hown, hr.trail, hstep ⟨before, update before⟩ hd hid, hb.trail, List.append_assoc]
    rfl
  | @generate request next w resumed w' tale a outcome hr h ih =>
    rw [ih hgrows hown, hr.trail]
    rfl

/-! ## §2. How a run that was asked to stop ends. -/

/-- The verdict is some verdict that others leave as it is. -/
theorem verdict?_of_beside {verdict : Status × Option String} (h : Beside r id w w')
    (hv : w.verdict? id = some verdict) : w'.verdict? id = some verdict := by
  unfold World.verdict? at hv ⊢
  rw [Option.map_eq_some_iff] at hv ⊢
  obtain ⟨row, hrow, rfl⟩ := hv
  obtain ⟨row', hrow', hs, hm, -⟩ := h.row row hrow
  exact ⟨row', hrow', by rw [hs, hm]⟩

theorem status?_of_verdict? {status : Status} {message : Option String}
    (h : w.verdict? id = some (status, message)) : w.status? id = some status := by
  unfold World.verdict? at h
  obtain ⟨row, hrow, heq⟩ := Option.map_eq_some_iff.1 h
  exact World.status?_eq_some.2 ⟨row, hrow, congrArg Prod.fst heq⟩

theorem exists_verdict? {status : Status} (h : w.status? id = some status) :
    ∃ message, w.verdict? id = some (status, message) := by
  obtain ⟨row, hrow, rfl⟩ := World.status?_eq_some.1 h
  unfold World.verdict?
  exact ⟨row.errorMessage, by rw [hrow]; rfl⟩

/-- A run without steps does not take its submission. -/
theorem not_takes_of_moves {k : Nat} (h : Moves id [] k w w') : ¬Deed.takes id ⟨w, w'⟩ := by
  rintro ⟨hb, ha⟩
  cases h with
  | stays h =>
    obtain ⟨message, hv⟩ := exists_verdict? hb
    cases ha.symm.trans (status?_of_verdict? (h.trans hv))
  | starts message hs h => exact hs rfl
  | completes message hs h => cases ha.symm.trans (status?_of_verdict? h)
  | fails message hm h => cases ha.symm.trans (status?_of_verdict? h)

/-- What becomes of a verdict by what is begun late. -/
inductive Later (id : Int) (steps : List Step) (k : Nat) (verdict : Status × Option String)
    (w : World) : Prop
  | same (h : w.verdict? id = some verdict)
  | processing (message : Option String) (h : w.verdict? id = some (.processing, message))
  | failed (message : String) (hm : Stops steps k message)
      (h : w.verdict? id = some (.failed, some message))
  | completed (hk : k = steps.length)

/-- What becomes of one verdict becomes of another one, unless nothing changed. -/
theorem later_of_later {steps : List Step} {k : Nat} {verdict verdict' : Status × Option String}
    (h : Later id steps k verdict' w)
    (hsame : w.verdict? id = some verdict' → Later id steps k verdict w) :
    Later id steps k verdict w := by
  cases h with
  | same h => exact hsame h
  | processing message h => exact .processing message h
  | failed message hm h => exact .failed message hm h
  | completed hk => exact .completed hk

/-- After one more late statement. -/
theorem later_of_moves {steps : List Step} {k : Nat} {verdict : Status × Option String} {d : Deed}
    {resumed : World} (hb : d.before.verdict? id = some verdict)
    (hm : Moves id steps k d.before d.after) (hr : Beside r id d.after resumed)
    (hrest : ∀ verdict', resumed.verdict? id = some verdict' → Later id steps k verdict' w) :
    Later id steps k verdict w := by
  -- The statement gives the submission a verdict, and the rest makes something of that one.
  have hnext : ∀ {verdict'}, d.after.verdict? id = some verdict' → Later id steps k verdict' w :=
    fun h => hrest _ (verdict?_of_beside hr h)
  cases hm with
  | stays h => exact hnext (h.trans hb)
  | starts message _ h => exact later_of_later (hnext h) fun hend => .processing message hend
  | completes message hk h => exact .completed hk
  | fails message hm h => exact later_of_later (hnext h) fun hend => .failed message hm hend

theorem later_of_tells {α : Type} {steps : List Step} {t : Plan α} {a : α}
    (h : t.Tells (Beside r id) w tale a w') (hlate : ∀ x ∈ tale, Late id steps g x) :
    ∀ verdict, w.verdict? id = some verdict → Later id steps g.added.length verdict w' := by
  induction h with
  | done a w => exact fun verdict hv => .same hv
  | @memory update next w w' tale a h ih =>
    intro verdict hv
    obtain ⟨hd, hlate⟩ := List.forall_mem_cons.1 hlate
    exact later_of_moves (r := r) (d := ⟨w, update w⟩) hv (hd w).2 (beside_refl _) (ih hlate)
  | @store update next w before resumed w' tale a hb hr h ih =>
    intro verdict hv
    obtain ⟨hd, hlate⟩ := List.forall_mem_cons.1 hlate
    exact later_of_moves (d := ⟨before, update before⟩) (verdict?_of_beside hb hv) (hd before).2 hr
      (ih hlate)
  | @generate request next w resumed w' tale a outcome hr h ih =>
    intro verdict hv
    exact ((List.forall_mem_cons.1 hlate).1).elim

end Stopping

/-! ## §3. The results. -/

/-- The event begins no request, and no statement that might store an output. -/
def Event.Effectless : Event → Prop
  | .statement _ update _ _ _ => ∀ w, (update w).store.outputs = w.store.outputs
  | .request .. => False

/-- A process in which one run takes place. -/
def Stopping.runner : Runner := ⟨0, { defaultModel := "base", timeout := .int 1 }⟩

/-- The world after the run has been asked to stop. -/
def Stopping.cancelled (w : World) : World :=
  w.withRegistry runner.process ((w.registries runner.process).cancel 1).2

theorem Stopping.beside_cancelled (w : World) : Beside runner 1 w (cancelled w) := by
  have hafter : (cancelled w).registries runner.process =
      ((w.registries runner.process).cancel 1).2 := World.registries_withRegistry_self ..
  exact
    { slot := by rw [hafter, Heeding.slots_cancel]
      started := Nat.le_of_eq (by rw [hafter, Heeding.length_flags_cancel])
      asked := fun run hrun => by
        rw [hafter]
        exact Heeding.isCancelled_cancel hrun
      row := fun row hrow => ⟨row, hrow, rfl, rfl, rfl⟩
      trail := rfl }

theorem Stopping.asked_cancelled {w : World}
    (h : ((w.registries runner.process).cancel 1).1 = true) :
    Asked (Beside runner 1) runner 1 w (cancelled w) := by
  have htells : (runner.cancel 1).run.Tells (Beside runner 1) w
      [.statement .memory _ w w (cancelled w)]
      (.ok ((w.registries runner.process).cancel 1).1) (cancelled w) := .memory (.done _ _)
  rw [h] at htells
  exact ⟨w, _, cancelled w, Heeding.beside_refl w, htells, Heeding.beside_refl _⟩

/-- A run that is asked to stop right after certain statements on the store: its tale, its outcome,
and the world that it leaves. -/
def Stopping.asking (after? : World → World → Bool) (start : World) :
    Tale × Except Failure SubmissionRow × World :=
  (runner.run 1).run.tell (fun _ w => (.replied { text := .str "one" } .nan, w))
    (fun before after => if after? before after then cancelled after else after) start

theorem Stopping.tells_asking (after? : World → World → Bool) (start : World) :
    (runner.run 1).run.Tells (Beside runner 1) start (asking after? start).1
      (asking after? start).2.1 (asking after? start).2.2 := by
  refine Plan.tells_tell Heeding.beside_refl (fun _ w => Heeding.beside_refl w)
    (fun before after => ?_) _ _
  split
  · exact beside_cancelled after
  · exact Heeding.beside_refl after

/-- The run is asked during the event, and the submission is open then. -/
def Stopping.isAsked (after? : World → World → Bool) : Event → Bool
  | .statement .store update _ before resumed =>
    after? before (update before) && ((update before).registries runner.process |>.cancel 1).1 &&
      (resumed.status? 1 == some .pending || resumed.status? 1 == some .processing)
  | _ => false

theorem Stopping.asked_asking {after? : World → World → Bool} {start : World}
    (h : (asking after? start).1.any (isAsked after?) = true) :
    ∃ earlier e later, (asking after? start).1 = earlier ++ e :: later ∧
      AskedDuring (Beside runner 1) runner 1 e ∧
      (e.resumed.status? 1 = some .pending ∨ e.resumed.status? 1 = some .processing) := by
  obtain ⟨e, he, hasked⟩ := List.any_eq_true.1 h
  obtain ⟨earlier, later, heq⟩ := List.append_of_mem he
  refine ⟨earlier, e, later, heq, ?_⟩
  have htold := Plan.told_of_mem_tell he
  cases e with
  | request sent begun resumed => cases hasked
  | statement access update begun before resumed =>
    cases access with
    | memory => cases hasked
    | store =>
      obtain ⟨hboth, hopen⟩ := Bool.and_eq_true_iff.1 hasked
      obtain ⟨hafter, hactive⟩ := Bool.and_eq_true_iff.1 hboth
      obtain ⟨rfl, hresumed⟩ := htold
      obtain rfl : resumed = cancelled (update before) := hresumed.trans (if_pos hafter)
      exact ⟨⟨update before, _, .after .., asked_cancelled hactive⟩,
        (Bool.or_eq_true_iff.1 hopen).imp beq_iff_eq.1 beq_iff_eq.1⟩

/-- A run with one step that is asked to stop when it has just taken its submission. -/
def Stopping.halted : Tale × Except Failure SubmissionRow × World :=
  asking (fun before after => before.status? 1 == some .pending && after.status? 1 == some .processing)
    Aftermath.oneStepWorld

theorem Stopping.asked_halted : ∃ earlier e later, halted.1 = earlier ++ e :: later ∧
    AskedDuring (Beside runner 1) runner 1 e ∧
    (e.resumed.status? 1 = some .pending ∨ e.resumed.status? 1 = some .processing) :=
  asked_asking (by decide +kernel)

/-- A pending submission of a form without a pipeline. -/
def Stopping.stepless : World where
  store := { submissions := [{ id := 1, formId := 1, fieldSnapshot := .arr [], submittedAt := ⟨0⟩ }] }
  tokens := fun _ => ""

/-- The run of this submission completes it although it has been asked to stop while the submission
was open. -/
def Stopping.CompletesThoughAsked (start : World) : Prop :=
  ∃ earlier e later res w', (runner.run 1).run.Tells (Beside runner 1) start
      (earlier ++ e :: later) res w' ∧
    AskedDuring (Beside runner 1) runner 1 e ∧
    (e.resumed.status? 1 = some .pending ∨ e.resumed.status? 1 = some .processing) ∧
    w'.status? 1 = some .completed

theorem Stopping.completesThoughAsked_of (after? : World → World → Bool) {start : World}
    (h : (asking after? start).1.any (isAsked after?) = true)
    (hend : (asking after? start).2.2.status? 1 = some .completed) : CompletesThoughAsked start := by
  obtain ⟨earlier, e, later, heq, hasked, hopen⟩ := asked_asking h
  exact ⟨earlier, e, later, _, _, heq ▸ tells_asking after? start, hasked, hopen, hend⟩

end PromptForms
