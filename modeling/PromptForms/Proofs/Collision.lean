/-
  PromptForms.Proofs.Collision
  ────────────────────────────
  **FAILURES THAT BLAME NO OTHER ROW.**

  A row may be forbidden because there is one like it.  Nothing that a run does to
  documents, and nothing that a generator replies, fails in this way: only storing an
  output can.  Most of it does not even fail with an error of the program's own.

      FailsOnly               how an outcome may fail
      Failure.IsForeign       not one of the program's own errors
      Failure.IsCollision     there is a row like the new one
      executed_judge          what executing a step may come to
-/
import PromptForms.Run.Runner

namespace PromptForms

variable {α β : Type}

/-! ## §1. How outcomes fail. -/

/-- The outcome fails, if at all, in a certain way. -/
def FailsOnly (P : Failure → Prop) (x : Except Failure α) : Prop := ∀ e, x = .error e → P e

section

variable {P P' : Failure → Prop}

theorem failsOnly_ok (a : α) : FailsOnly P (.ok a : Except Failure α) := fun _ h => nomatch h

theorem failsOnly_error {e : Failure} (h : P e) : FailsOnly P (.error e : Except Failure α) := by
  rintro e' ⟨⟩
  exact h

theorem FailsOnly.mono {x : Except Failure α} (hx : FailsOnly P x) (h : ∀ e, P e → P' e) :
    FailsOnly P' x := fun e he => h e (hx e he)

/-- One outcome after another fails as one of them does. -/
theorem FailsOnly.bind {x : Except Failure α} {f : α → Except Failure β} (hx : FailsOnly P x)
    (hf : ∀ a, FailsOnly P (f a)) : FailsOnly P (x >>= f) := by
  cases x with
  | ok a => exact hf a
  | error e => exact failsOnly_error (hx e rfl)

theorem FailsOnly.map {x : Except Failure α} (hx : FailsOnly P x) (f : α → β) :
    FailsOnly P (x.map f) := by
  cases x with
  | ok a => exact failsOnly_ok (f a)
  | error e => exact failsOnly_error (hx e rfl)

theorem failsOnly_mapM {f : α → Except Failure β} (hf : ∀ a, FailsOnly P (f a)) (items : List α) :
    FailsOnly P (items.mapM f) := by
  induction items with
  | nil => exact failsOnly_ok _
  | cons item rest ih =>
    rw [List.mapM_cons]
    exact (hf item).bind fun b => ih.bind fun bs => failsOnly_ok _

end

/-! ## §2. Failures that are not the program's own. -/

/-- The failure is not one of the program's own errors. -/
def Failure.IsForeign (e : Failure) : Prop := ∀ error, e ≠ .domain error

theorem foreign_orFail (x : Schema.Checked α) : FailsOnly Failure.IsForeign x.orFail := by
  rintro e h error rfl
  cases x with
  | good a => cases h
  | bad first more =>
    unfold Schema.Checked.orFail at h
    simp only at h
    split at h <;> cases h

theorem foreign_checkElements (check : Json → Schema.Checked α) (document : Json) :
    FailsOnly Failure.IsForeign (checkElements check document) := by
  have helements : FailsOnly Failure.IsForeign document.elements := by
    rintro e h error rfl
    unfold Json.elements at h
    split at h <;> cases h
  exact helements.bind fun items => failsOnly_mapM (fun item => foreign_orFail _) items

theorem foreign_checkElementsIfAny (check : Json → Schema.Checked α) (document : Json) :
    FailsOnly Failure.IsForeign (checkElementsIfAny check document) := by
  unfold checkElementsIfAny
  split
  · exact foreign_checkElements check document
  · exact failsOnly_ok _

theorem foreign_storedFields (row : SubmissionRow) :
    FailsOnly Failure.IsForeign row.storedFields := by
  unfold SubmissionRow.storedFields
  split
  · exact failsOnly_ok _
  · exact (foreign_checkElements _ _).map _

theorem foreign_storedValues (row : SubmissionRow) :
    FailsOnly Failure.IsForeign row.storedValues := by
  unfold SubmissionRow.storedValues
  split
  · split
    · exact foreign_orFail _
    · exact failsOnly_error fun error h => nomatch h
  · exact failsOnly_ok _

theorem foreign_activeSteps (s : Store) (form : Int) :
    FailsOnly Failure.IsForeign (s.activeSteps form) := by
  unfold Store.activeSteps
  split
  · split
    · exact foreign_checkElementsIfAny _ _
    · exact failsOnly_ok _
  · exact failsOnly_ok _

theorem foreign_checkFits (i : Int) : FailsOnly Failure.IsForeign (Store.checkFits i) := by
  unfold Store.checkFits
  split
  · exact failsOnly_ok _
  · exact failsOnly_error fun error h => nomatch h

theorem foreign_checkOutage (w : World) : FailsOnly Failure.IsForeign w.checkOutage := by
  unfold World.checkOutage
  split
  · exact failsOnly_error fun error h => nomatch h
  · exact failsOnly_ok _

/-- A submission that cannot be read is not there, or its id is out of range. -/
theorem failsOnly_submission (s : Store) (id : Int) :
    FailsOnly (fun e => e.IsForeign ∨ e = Failure.ofCause (.submissionNotFound id))
      (s.submission id) := by
  refine ((foreign_checkFits id).mono fun _ => .inl).bind fun _ => ?_
  split
  · exact failsOnly_ok _
  · exact failsOnly_error (.inr rfl)

/-! ## §3. Collisions. -/

/-- A row is forbidden because there is one like it. -/
def Failure.IsCollision (e : Failure) : Prop :=
  ∃ message, e = Failure.ofCause (.entityAlreadyExists message)

/-- The outcome is no collision. -/
def NoCollision (x : Except Failure α) : Prop := ∀ e, x = .error e → ¬e.IsCollision

theorem Failure.IsForeign.not_isCollision {e : Failure} (h : e.IsForeign) : ¬e.IsCollision := by
  rintro ⟨message, rfl⟩
  exact h _ rfl

theorem noCollision_error {e : Failure} (h : ¬e.IsCollision) :
    NoCollision (.error e : Except Failure α) := failsOnly_error h

theorem noCollision_of_foreign {x : Except Failure α} (h : FailsOnly Failure.IsForeign x) :
    NoCollision x := h.mono fun _ => Failure.IsForeign.not_isCollision

theorem noCollision_submission (s : Store) (id : Int) : NoCollision (s.submission id) := by
  refine (failsOnly_submission s id).mono fun e he => ?_
  rcases he with he | rfl
  · exact he.not_isCollision
  · rintro ⟨message, ⟨⟩⟩

/-! ## §4. What executing a step may come to. -/

/-- The step fails with a cause, or there is something wrong that is not the program's own. -/
def Failure.IsOfStep (step : Step) (e : Failure) : Prop :=
  e.IsForeign ∨ ∃ cause, e = Failure.ofCause (.step step.number cause)

/-- The result is of this step; a failure is about no other row. -/
def Executed (step : Step) : Except Failure StepResult → Prop
  | .ok result => result.number = step.number
  | .error e => ¬e.IsCollision

theorem Failure.IsOfStep.not_isCollision {step : Step} {e : Failure} (h : e.IsOfStep step) :
    ¬e.IsCollision := by
  rcases h with h | ⟨cause, rfl⟩
  · exact h.not_isCollision
  · rintro ⟨message, ⟨⟩⟩

theorem number_of_resultOf {step : Step} {sent : Request} {text : String} {reply : Reply}
    {seconds : Binary64} {result : StepResult}
    (h : (Executor.resultOf step sent text reply seconds).orFail = .ok result) :
    result.number = step.number := by
  unfold Executor.resultOf at h
  cases ht : (Schema.orNull Schema.int reply.tokenCount).under "token_count" <;>
    cases hm : (Schema.text (Executor.modelOf reply sent.model)).under "model" <;>
      rw [ht, hm] at h <;> cases h
  rfl

theorem failsOnly_judge (x : Executor) (step : Step) (sent : Request) (outcome : Outcome) :
    FailsOnly (Failure.IsOfStep step) (x.judge step sent outcome) := by
  have hrefuse : ∀ cause, FailsOnly (Failure.IsOfStep step)
      (Executor.judge.refuse step cause) := fun cause => failsOnly_error (.inr ⟨cause, rfl⟩)
  unfold Executor.judge
  cases outcome with
  | replied reply seconds =>
    dsimp only
    split
    · exact (foreign_orFail _).mono fun _ => .inl
    · exact hrefuse _
  | refused message => exact hrefuse message
  | failed error message => exact hrefuse _
  | timedOut => exact hrefuse _
  | interrupted => exact failsOnly_error (.inl fun error h => nomatch h)

theorem executed_judge (x : Executor) (step : Step) (sent : Request) (outcome : Outcome) :
    Executed step (x.judge step sent outcome) := by
  cases h : x.judge step sent outcome with
  | error e => exact (failsOnly_judge x step sent outcome e h).not_isCollision
  | ok result =>
    -- Only a reply with a visible text has a result.
    unfold Executor.judge at h
    cases outcome with
    | replied reply seconds =>
      dsimp only at h
      split at h
      · exact number_of_resultOf h
      · cases h
    | refused message => cases h
    | failed error message => cases h
    | timedOut => cases h
    | interrupted => cases h

end PromptForms
