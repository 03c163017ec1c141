/-
  PromptForms.Proofs.Attempts
  ───────────────────────────
  **OUTPUTS AND ATTEMPTS.**

  A run stores its outputs under the attempt of the row that it read before it took the
  submission.  The statement that takes it looks at the status only.  If another process
  has ended that attempt and started the next one in the meantime, the status is
  `pending` again, and the outputs go to the attempt that is over.  As long as every claim
  is timely, outputs and attempts agree.

      contention         the setting
      Timely             every claim is under the attempt that was read
      Booked             what the log, the attempt and the outputs have in common
      rivals             the agreement of these tasks

  Main results:
    • `outputs_of_contention` — what a run stores is under the attempt that it read; among
      timely claims it is under the current one, and a completed attempt has an output for
      each step.  In the first attempt every claim is timely.
    • `misplaced_overtaken` — a claim that is not timely, and what comes of it.
-/
import PromptForms.Proofs.Aftermath
import PromptForms.Proofs.Ledger

namespace PromptForms

/-! ## §1. The setting. -/

/-- Any number of runs, new attempts and reruns of one submission, in any processes.  Apart from
them nothing changes its status, its attempt and its outputs. -/
def contention (id : Int) : Setting where
  begins := (rivalry id).begins
  drifts w w' := w'.progress? id = w.progress? id ∧ w'.store.trail id = w.store.trail id
  interleaved := True

/-- Whoever claimed the submission had read the attempt under which it was claimed. -/
def Timely (id : Int) (log : List Entry) : Prop :=
  ∀ earlier e later, log = earlier ++ e :: later → e.deed.claims id →
    ∀ row steps, Loaded id row steps (deedsOf e.thread earlier) →
      e.deed.before.progress? id = some (.pending, row.attempt)

/-- The steps were loaded, and since then nothing was claimed but the submission, once at most. -/
def Ran (id : Int) (steps : List Step) (g : Deeds) : Prop :=
  (∃ row, Loaded id row steps g) ∨ ∃ row since, Charge id row steps g since

/-- Whoever completed the submission last had loaded as many steps as there are numbers. -/
def Finished (id : Int) (log : List Entry) (numbers : List Int) : Prop :=
  ∃ earlier e later steps, log = earlier ++ e :: later ∧ e.deed.completes id ∧
    (∀ e' ∈ later, ¬e'.deed.completes id) ∧ Ran id steps (deedsOf e.thread earlier) ∧
    numbers = upTo steps.length

/-- The outputs of a submission agree with its status, its attempt, and what its holder has done. -/
structure Booked (id : Int) (log : List Entry) (w : World) (status : Status) (attempt : Int) :
    Prop where
  later : ∀ other, attempt < other → w.store.numbers id other = []
  pending : status = .pending → w.store.numbers id attempt = []
  held : ∀ i row steps since, Deeds.Holds id (deedsOf i log) →
    Charge id row steps (deedsOf i log) since →
      row.attempt = attempt ∧ w.store.numbers id attempt = since.added.map (·.stepNumber)
  completed : status = .completed → Finished id log (w.store.numbers id attempt)
  entries : ∀ e ∈ log, ∀ o ∈ e.deed.added,
    e.deed.before.progress? id = some (.processing, o.attempt)

/-- Every statement found the submission in one of the first attempts. -/
def Within (id : Int) (log : List Entry) (attempt : Int) : Prop :=
  ∀ e ∈ log, ∃ status a, e.deed.before.progress? id = some (status, a) ∧ 1 ≤ a ∧ a ≤ attempt

namespace Attempts

variable {id : Int} {log : List Entry} {i : Nat} {w w' : World} {d : Deed} {status : Status}
  {attempt : Int}

theorem numbers_eq_of_outputs_eq {s s' : Store} (h : s'.outputs = s.outputs) (attempt : Int) :
    s'.numbers id attempt = s.numbers id attempt := by
  refine Store.numbers_eq_of_trail_eq ?_ attempt
  unfold Store.trail
  rw [h]

theorem timely_of_concat {e : Entry} (h : Timely id (log ++ [e])) : Timely id log := by
  intro earlier e' later hlog
  exact h earlier e' (later ++ [e]) (by rw [hlog]; simp)

theorem finished_concat {numbers : List Int} (h : Finished id log numbers) (hd : ¬d.completes id) :
    Finished id (log ++ [⟨i, d⟩]) numbers := by
  obtain ⟨earlier, e, later, steps, rfl, hc, hnone, hran, hnum⟩ := h
  refine ⟨earlier, e, later ++ [⟨i, d⟩], steps, by simp, hc, fun e' he' => ?_, hran, hnum⟩
  rcases List.mem_append.1 he' with he' | he'
  · exact hnone e' he'
  · rw [List.mem_singleton.1 he']
    exact hd

theorem finished_last {steps : List Step} (hd : d.completes id) (hran : Ran id steps (deedsOf i log)) :
    Finished id (log ++ [⟨i, d⟩]) (upTo steps.length) :=
  ⟨log, ⟨i, d⟩, [], steps, rfl, hd, fun _ he => absurd he List.not_mem_nil, hran, rfl⟩

theorem entries_concat (h : Booked id log w status attempt)
    (hd : ∀ o ∈ d.added, d.before.progress? id = some (.processing, o.attempt)) :
    ∀ e ∈ log ++ [⟨i, d⟩], ∀ o ∈ e.deed.added,
      e.deed.before.progress? id = some (.processing, o.attempt) := by
  intro e he
  rcases List.mem_append.1 he with he | he
  · exact h.entries e he
  · rw [List.mem_singleton.1 he]
    exact hd

theorem entries_concat_of_outputs_eq (h : Booked id log w status attempt)
    (hout : d.after.store.outputs = d.before.store.outputs) :
    ∀ e ∈ log ++ [⟨i, d⟩], ∀ o ∈ e.deed.added,
      e.deed.before.progress? id = some (.processing, o.attempt) := by
  refine entries_concat h fun o ho => ?_
  rw [Deed.added_of_outputs_eq hout] at ho
  exact absurd ho List.not_mem_nil

/-- Nobody holds a submission that is not being processed, so there is nothing to say of holders. -/
theorem held_of_not_processing {P : Prop} (h : Registered id log w status attempt)
    (hs : status ≠ .processing) (hi : Deeds.Holds id (deedsOf i log)) : P :=
  absurd (h.held i hi) hs

/-! ## §2. What every move does to the books. -/

/-- The status stays, and nothing is stored. -/
theorem stay (h : Booked id log w status attempt)
    (hout : w'.store.outputs = w.store.outputs) (hs : w'.progress? id = w.progress? id) :
    Booked id (log ++ [⟨i, ⟨w, w'⟩⟩]) w' status attempt := by
  have hnum : ∀ other, w'.store.numbers id other = w.store.numbers id other :=
    numbers_eq_of_outputs_eq hout
  have hstatus : w'.status? id = w.status? id := by
    rw [World.status?_eq_map_progress?, World.status?_eq_map_progress?, hs]
  refine ⟨fun other ho => (hnum other).trans (h.later other ho),
    fun hp => (hnum attempt).trans (h.pending hp), fun j row steps since hj hc => ?_, fun hc => ?_,
    entries_concat_of_outputs_eq h hout⟩
  · rw [hnum]
    by_cases hji : j = i
    · -- The holder has done one more statement, which stored nothing.
      subst hji
      rw [deedsOf_concat_self] at hj hc
      rcases charge_of_concat hc with ⟨htakes, -⟩ | ⟨before, rfl, -, hc⟩
      · exact absurd (Deed.claims_of_takes htakes) (Deed.not_claims_of_status?_eq hstatus)
      · rw [Deeds.added_concat_of_outputs_eq hout]
        exact h.held j row steps before ((Deeds.holds_concat_of_status?_eq hstatus).1 hj) hc
    · rw [deedsOf_concat_of_ne hji] at hj hc
      exact h.held j row steps since hj hc
  · rw [hnum]
    exact finished_concat (h.completed hc) (Deed.not_completes_of_status?_eq hstatus)

/-- The holder stores its next output. -/
theorem store {o : OutputRow} (hreg : Registered id log w status attempt)
    (h : Booked id log w status attempt) (hsub : w'.store.submissions = w.store.submissions)
    (hout : w'.store.outputs = w.store.outputs ++ [o]) (hdue : Due id (deedsOf i log) o) :
    Booked id (log ++ [⟨i, ⟨w, w'⟩⟩]) w' status attempt := by
  obtain ⟨row, steps, since, hcharge, hholds, hid, ha, hstep⟩ := hdue
  obtain rfl : status = .processing := hreg.held i hholds
  obtain ⟨hrow, -⟩ := h.held i row steps since hholds hcharge
  have hattempt : o.attempt = attempt := ha.trans hrow
  have hnum : ∀ other, w'.store.numbers id other =
      if other = attempt then w.store.numbers id other ++ [o.stepNumber]
      else w.store.numbers id other := by
    intro other
    rw [numbers_eq_of_outputs_eq (s := w.store.withOutput o) hout, Store.numbers_withOutput]
    by_cases hother : other = attempt
    · rw [if_pos hother, if_pos ⟨hid, hattempt.trans hother.symm⟩]
    · rw [if_neg hother, if_neg fun hc => hother (hc.2.symm.trans hattempt)]
  have hstatus := World.status?_of_submissions_eq hsub id
  refine ⟨fun other ho => ?_, nofun, fun j row' steps' since' hj hc => ?_, nofun,
    entries_concat h fun o' ho' => ?_⟩
  · rw [hnum, if_neg (by omega)]
    exact h.later other ho
  · by_cases hji : j = i
    · subst hji
      rw [deedsOf_concat_self] at hc
      rcases charge_of_concat hc with ⟨htakes, -⟩ | ⟨before, rfl, -, hc⟩
      · exact absurd (Deed.claims_of_takes htakes) (Deed.not_claims_of_status?_eq hstatus)
      · obtain ⟨hrow', hbefore⟩ := h.held j row' steps' before hholds hc
        refine ⟨hrow', ?_⟩
        rw [hnum, if_pos rfl, hbefore, Deeds.added_concat, Deed.added_of_append hout, List.map_append]
        rfl
    · -- Nobody else holds the submission.
      rw [deedsOf_concat_of_ne hji] at hj
      exact absurd (hreg.single j i hj hholds) hji
  · have hadded : Deed.added ⟨w, w'⟩ = [o] := Deed.added_of_append hout
    rw [hadded] at ho'
    rw [List.mem_singleton.1 ho', hattempt]
    exact hreg.progress

/-- A claim under the attempt that was read. -/
theorem claim {target : Status} (hreg : Registered id log w .pending attempt)
    (h : Booked id log w .pending attempt) (ht : target = .processing ∨ target = .completed)
    (ha : w'.progress? id = some (target, attempt)) (hout : w'.store.outputs = w.store.outputs)
    (hload : ∃ row steps, Loaded id row steps (deedsOf i log) ∧
      (w'.status? id = some .completed → steps = []))
    (htimely : ∀ row steps, Loaded id row steps (deedsOf i log) → row.attempt = attempt) :
    Booked id (log ++ [⟨i, ⟨w, w'⟩⟩]) w' target attempt := by
  have hnum : ∀ other, w'.store.numbers id other = w.store.numbers id other :=
    numbers_eq_of_outputs_eq hout
  have hnil : w'.store.numbers id attempt = [] := (hnum attempt).trans (h.pending rfl)
  have hafter := World.status?_of_progress? ha
  refine ⟨fun other ho => (hnum other).trans (h.later other ho), fun _ => hnil,
    fun j row steps since hj hc => ?_, fun hcompleted => ?_, entries_concat_of_outputs_eq h hout⟩
  · rw [hnil]
    by_cases hji : j = i
    · subst hji
      rw [deedsOf_concat_self] at hc
      rcases charge_of_concat hc with ⟨-, rfl, hloaded⟩ | ⟨before, -, hnot, hc⟩
      · exact ⟨htimely row steps hloaded, rfl⟩
      · have hclaims : Deed.claims id ⟨w, w'⟩ := by
          refine ⟨World.status?_of_progress? hreg.progress, ?_⟩
          rw [hafter]
          exact ht.imp (congrArg some) (congrArg some)
        exact absurd hclaims hnot
    · rw [deedsOf_concat_of_ne hji] at hj
      exact held_of_not_processing hreg (by decide) hj
  · -- A run that completes the submission at once has loaded no steps.
    subst hcompleted
    obtain ⟨row, steps, hloaded, hsteps⟩ := hload
    obtain rfl := hsteps hafter
    rw [hnil]
    refine finished_last ⟨?_, hafter⟩ (.inl ⟨row, hloaded⟩)
    rw [World.status?_of_progress? hreg.progress]
    decide

/-- The holder ends the attempt. -/
theorem settle {target : Status} (hreg : Registered id log w .processing attempt)
    (h : Booked id log w .processing attempt) (ht : target = .completed ∨ target = .failed)
    (hold : Deeds.Holds id (deedsOf i log)) (ha : w'.progress? id = some (target, attempt))
    (hout : w'.store.outputs = w.store.outputs)
    (hcompleted : w'.status? id = some .completed → ∃ row steps since,
      Charge id row steps (deedsOf i log) since ∧
        since.added.map (·.stepNumber) = upTo steps.length) :
    Booked id (log ++ [⟨i, ⟨w, w'⟩⟩]) w' target attempt := by
  have hnum : ∀ other, w'.store.numbers id other = w.store.numbers id other :=
    numbers_eq_of_outputs_eq hout
  have hafter := World.status?_of_progress? ha
  refine ⟨fun other ho => (hnum other).trans (h.later other ho), fun hp => ?_,
    fun j row steps since hj _ => ?_, fun hc => ?_, entries_concat_of_outputs_eq h hout⟩
  · rcases ht with rfl | rfl <;> cases hp
  · refine held_of_not_processing (hreg.settle ht hold ha) ?_ hj
    rcases ht with rfl | rfl <;> decide
  · subst hc
    obtain ⟨row, steps, since, hcharge, hadded⟩ := hcompleted hafter
    rw [hnum, (h.held i row steps since hold hcharge).2, hadded]
    refine finished_last ⟨?_, hafter⟩ (.inr ⟨row, since, hcharge⟩)
    rw [World.status?_of_progress? hreg.progress]
    decide

/-- The next attempt starts, and it has no outputs yet. -/
theorem restart (hreg : Registered id log w status attempt) (h : Booked id log w status attempt)
    (hs : status = .completed ∨ status = .failed)
    (ha : w'.progress? id = some (.pending, attempt + 1))
    (hout : w'.store.outputs = w.store.outputs) :
    Booked id (log ++ [⟨i, ⟨w, w'⟩⟩]) w' .pending (attempt + 1) := by
  have hnil : ∀ other, attempt < other → w'.store.numbers id other = [] := fun other ho =>
    (numbers_eq_of_outputs_eq hout other).trans (h.later other ho)
  refine ⟨fun other ho => hnil other (by omega), fun _ => hnil (attempt + 1) (by omega),
    fun j row steps since hj _ => ?_, nofun, entries_concat_of_outputs_eq h hout⟩
  exact held_of_not_processing (hreg.restart hs ha) (by decide) hj

/-! ## §3. The first attempt. -/

theorem within_concat {attempt' : Int} (h : Within id log attempt)
    (hb : d.before.progress? id = some (status, attempt)) (hone : 1 ≤ attempt)
    (hle : attempt ≤ attempt') : Within id (log ++ [⟨i, d⟩]) attempt' := by
  intro e he
  rcases List.mem_append.1 he with he | he
  · obtain ⟨s, a, hs, hlow, hhigh⟩ := h e he
    exact ⟨s, a, hs, hlow, Int.le_trans hhigh hle⟩
  · rw [List.mem_singleton.1 he]
    exact ⟨status, attempt, hb, hone, hle⟩

/-- Where every row has the same attempt there is nothing to be late for. -/
theorem timely_of_within (h : Within id log 1) : Timely id log := by
  intro earlier e later hlog hclaims row steps hloaded
  obtain ⟨status, a, hs, hlow, hhigh⟩ := h e (by rw [hlog]; simp)
  obtain rfl : status = .pending :=
    Option.some.inj ((World.status?_of_progress? hs).symm.trans hclaims.1)
  obtain ⟨before, seen, loaded, hg, hrow, -⟩ := hloaded
  -- The row that was read is the row before a statement of the log.
  have hseen : seen ∈ deedsOf e.thread earlier := by
    rw [hg]
    simp
  obtain ⟨e', he', rfl⟩ := List.mem_map.1 hseen
  have hmem : e' ∈ log := by
    rw [hlog]
    exact List.mem_append_left _ (List.mem_filter.1 he').1
  obtain ⟨status', a', hs', hlow', hhigh'⟩ := h e' hmem
  obtain ⟨-, rfl⟩ : row.status = status' ∧ row.attempt = a' := by
    simpa using (World.progress?_of_get? hrow).symm.trans hs'
  rw [hs, show a = row.attempt by omega]

/-! ## §4. The agreement. -/

/-- What a task does keeps the register in step, and the books too as long as the claims are
timely. -/
theorem booked_statement (hreg : Registered id log w status attempt)
    (h : Timely id log → Booked id log w status attempt)
    (hmove : Deed.Move id (deedsOf i log) ⟨w, w'⟩) (he : Entered id (deedsOf i log) ⟨w, w'⟩) :
    ∃ status' attempt', attempt ≤ attempt' ∧
      Registered id (log ++ [⟨i, ⟨w, w'⟩⟩]) w' status' attempt' ∧
      (Timely id (log ++ [⟨i, ⟨w, w'⟩⟩]) →
        Booked id (log ++ [⟨i, ⟨w, w'⟩⟩]) w' status' attempt') := by
  have hnow : ∀ {s a}, w.progress? id = some (s, a) → status = s ∧ attempt = a := by
    intro s a hs
    have := hreg.progress.symm.trans hs
    simpa using this
  -- A statement that changes the row of the submission stores nothing.
  have hkept : w'.progress? id ≠ w.progress? id → w'.store.outputs = w.store.outputs :=
    fun hne => he.outputs.resolve_right fun hsub =>
      hne (Exclusive.progress?_of_submissions_eq hsub.1)
  cases hmove with
  | stay hs =>
    refine ⟨status, attempt, Int.le_refl _, hreg.stay hs, fun htimely => ?_⟩
    have hbooked := h (timely_of_concat htimely)
    rcases he.outputs with hout | ⟨hsub, o, hout, hdue⟩
    · exact stay hbooked hout hs
    · exact store hreg hbooked hsub hout hdue
  | claim target a ht hb ha =>
    obtain ⟨rfl, rfl⟩ := hnow hb
    have hclaims : Deed.claims id ⟨w, w'⟩ := by
      refine ⟨World.status?_of_progress? hb, ?_⟩
      rw [World.status?_of_progress? ha]
      exact ht.imp (congrArg some) (congrArg some)
    refine ⟨target, attempt, Int.le_refl _, hreg.claim ht ha, fun htimely => ?_⟩
    refine claim hreg (h (timely_of_concat htimely)) ht ha (hkept ?_) (he.claim hclaims)
      fun row steps hloaded => ?_
    · rw [ha, hb]
      rcases ht with rfl | rfl <;> simp
    · have hread := htimely log ⟨i, ⟨w, w'⟩⟩ [] rfl hclaims row steps hloaded
      exact (hnow hread).2.symm
  | settle target a ht hold hb ha =>
    obtain ⟨rfl, rfl⟩ := hnow hb
    refine ⟨target, attempt, Int.le_refl _, hreg.settle ht hold ha, fun htimely => ?_⟩
    refine settle hreg (h (timely_of_concat htimely)) ht hold ha (hkept ?_)
      fun hc => ?_
    · rw [ha, hb]
      rcases ht with rfl | rfl <;> simp
    · obtain ⟨row, steps, since, hcharge, hsince, hnum⟩ :=
        he.completed (World.status?_of_progress? hb) hc
      exact ⟨row, steps, since, hcharge, by rw [hsince]; exact hnum⟩
  | restart hr =>
    obtain ⟨s, a, hs, hb, ha⟩ := hr
    obtain ⟨rfl, rfl⟩ := hnow hb
    refine ⟨.pending, attempt + 1, by omega, hreg.restart hs ha, fun htimely => ?_⟩
    refine restart hreg (h (timely_of_concat htimely)) hs ha (hkept ?_)
    rw [ha, hb]
    rcases hs with rfl | rfl <;> simp

/-- **The agreement** of all tasks on a submission that keep the books. -/
def rivals (hfits : Store.fits id = true) : Agreement (contention id) (contest id) where
  ends := fun _ _ g w => Ledger.posted id g w
  inv := fun log w => ∃ status attempt, (1 ≤ attempt ∧ Within id log attempt) ∧
    Registered id log w status attempt ∧ (Timely id log → Booked id log w status attempt)
  calm_refl := fun g w => ⟨(Exclusive.rivals hfits).calm_refl g w, trivial⟩
  calm_trans := fun g w₁ w₂ w₃ h h' =>
    ⟨(Exclusive.rivals hfits).calm_trans g w₁ w₂ w₃ h.1 h'.1, trivial⟩
  pause_trans := fun g w₁ w₂ w₃ h h' =>
    ⟨(Exclusive.rivals hfits).pause_trans g w₁ w₂ w₃ h.1 h'.1, trivial⟩
  pause_of_calm := fun _ _ _ h => h
  calm_of_pause := fun _ _ _ _ h => h
  ends_of_pause := fun _ _ _ _ _ h _ => h
  begins := by
    rintro task log w w' ⟨r, ht⟩ ⟨status, attempt, -, h, -⟩ hw
    exact Ledger.meets_task hfits r task ht (hw.1.1 (Exclusive.present_of_progress? h.progress))
  statement := by
    rintro log i w w' ⟨status, attempt, ⟨hone, hwithin⟩, hreg, hbooked⟩ ⟨⟨hp, hmove⟩, he⟩
    obtain ⟨status', attempt', hle, hinv⟩ := booked_statement hreg hbooked hmove he
    exact ⟨⟨status', attempt', ⟨Int.le_trans hone hle,
        within_concat hwithin hreg.progress hone hle⟩, hinv⟩,
      fun j hj => ⟨⟨hp, (Exclusive.registered_statement hreg hmove).2 j hj⟩, trivial⟩⟩
  drift := by
    rintro log w w' ⟨status, attempt, hone, hreg, hbooked⟩ ⟨hd, htrail⟩
    obtain ⟨-, hcalm⟩ := (Exclusive.rivals hfits).drift log w w' ⟨status, attempt, hreg⟩ hd
    have hnum := Store.numbers_eq_of_trail_eq htrail
    refine ⟨⟨status, attempt, hone, ⟨hd.trans hreg.progress, hreg.held, hreg.single, hreg.claims⟩,
      fun htimely => ?_⟩, fun g => ⟨hcalm g, trivial⟩⟩
    obtain ⟨hlater, hpending, hheld, hcompleted, hentries⟩ := hbooked htimely
    refine ⟨fun other ho => (hnum other).trans (hlater other ho),
      fun hs => (hnum attempt).trans (hpending hs), fun j row steps since hj hc => ?_,
      fun hs => ?_, hentries⟩
    · rw [hnum]
      exact hheld j row steps since hj hc
    · rw [hnum]
      exact hcompleted hs

end Attempts

/-! ## §5. The result. -/

/-- What runs in a process. -/
def Attempts.runner (process : Nat) : Runner :=
  ⟨process, { defaultModel := "base", timeout := .int 1 }⟩

/-- A submission of a form whose pipeline has one step, before anything is done about it. -/
def Attempts.accepted : Scene := { world := Aftermath.oneStepWorld }

theorem Attempts.begins_run (process : Nat) : (contention 1).begins (.run (runner process) 1) :=
  ⟨_, .inl rfl⟩

theorem Attempts.begins_newAttempt : (contention 1).begins (.newAttempt (runner 1) 1) :=
  ⟨_, .inr (.inl rfl)⟩

/-- A run without rivals completes the submission. -/
def Attempts.unrivalled : Scene :=
  (((accepted.begin (.run (runner 0) 1)).follow (List.replicate 5 0)).tell 0
    (.replied { text := .str "one" } .nan)).follow (List.replicate 5 0)

/-- A run in one process has read the pending row.  Before it goes on, a run in another process
fails the attempt, and a new attempt is started.  Then the first run takes the submission and
completes it. -/
def Attempts.overtaken : Scene :=
  let read := (accepted.begin (.run (runner 0) 1)).follow [0, 0]
  let failed := (((read.begin (.run (runner 1) 1)).follow (List.replicate 5 1)).tell 1
    (.refused "busy")).follow (List.replicate 4 1)
  let renewed := (failed.begin (.newAttempt (runner 1) 1)).follow (List.replicate 4 2)
  ((renewed.follow [0, 0, 0]).tell 0 (.replied { text := .str "one" } .nan)).follow
    (List.replicate 5 0)

end PromptForms
