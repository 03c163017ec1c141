/-
  PromptForms.Proofs.Contract
  ───────────────────────────
  **WHAT A PLAN GUARANTEES AND WHAT IT RELIES ON.**

  A plan is rarely alone: between two of its statements, and while it waits for a
  reply, the world may change.  A contract says which deeds a plan may do and which
  changes of the world it has to put up with.  Both may depend on what the plan has done
  so far.  A reply may be anything.

      C.Meets t Q g w     after the deeds `g` and in the world `w`, the plan `t` keeps to
                          `C` whatever happens, and where it ends `Q` holds

  Main results:
    • `meets_bind` — one plan after another: the condition composes backwards.
    • `Triple` and its rules — the same for jobs, with a precondition; one rule for
      every way of building a job, so that no proof looks into a plan.
    • `Meets.run` — a plan that runs in surroundings that the contract covers ends as
      the contract says.
    • `Triple.both` — a job that keeps to two contracts keeps to both at once.
-/
import PromptForms.Proofs.Deeds

namespace PromptForms

/-! ## §1. Contracts. -/

/-- What a plan may do and what may happen around it. -/
structure Contract where
  /-- The deeds that the plan may do after others. -/
  allows : Deeds → Deed → Prop
  /-- What may become of the world right after a statement. -/
  calm : Deeds → World → World → Prop
  /-- What may become of the world while a reply is waited for. -/
  pause : Deeds → World → World → Prop

namespace Contract

variable {α β : Type} {C : Contract}

/-- The contract allows the deed, and `P` holds right after it whatever happens then. -/
def Leads (C : Contract) (P : Deeds → World → Prop) (g : Deeds) (d : Deed) : Prop :=
  C.allows g d ∧ ∀ w, C.calm (g ++ [d]) d.after w → P (g ++ [d]) w

theorem Leads.mono {P P' : Deeds → World → Prop} {g : Deeds} {d : Deed} (h : C.Leads P g d)
    (hP : ∀ w, P (g ++ [d]) w → P' (g ++ [d]) w) : C.Leads P' g d :=
  ⟨h.1, fun w hw => hP w (h.2 w hw)⟩

/-- The plan keeps to the contract, and `Q` holds where it ends. -/
def Meets (C : Contract) : Plan α → (α → Deeds → World → Prop) → Deeds → World → Prop
  | .done a, Q, g, w => Q a g w
  | .act _ update next, Q, g, w =>
    C.allows g ⟨w, update w⟩ ∧
      ∀ w', C.calm (g ++ [⟨w, update w⟩]) (update w) w' →
        Meets C (next w) Q (g ++ [⟨w, update w⟩]) w'
  | .generate _ next, Q, g, w =>
    ∀ outcome w', C.pause g w w' → Meets C (next outcome) Q g w'

theorem Meets.mono {Q Q' : α → Deeds → World → Prop} (hQ : ∀ a g w, Q a g w → Q' a g w)
    (t : Plan α) (g : Deeds) (w : World) (h : C.Meets t Q g w) : C.Meets t Q' g w := by
  induction t generalizing g w with
  | done a => exact hQ a g w h
  | act access update next ih => exact ⟨h.1, fun w' hw => ih w _ w' (h.2 w' hw)⟩
  | generate request next ih => exact fun outcome w' hw => ih outcome _ w' (h outcome w' hw)

/-- **One plan after another.** -/
theorem meets_bind (t : Plan α) (f : α → Plan β) (Q : β → Deeds → World → Prop) (g : Deeds)
    (w : World) :
    C.Meets (t.bind f) Q g w ↔ C.Meets t (fun a g w => C.Meets (f a) Q g w) g w := by
  -- On the first plan; the deeds and the world change with every statement of it.
  induction t generalizing g w with
  | done a => rfl
  | act access update next ih =>
    show (_ ∧ ∀ w', _ → C.Meets ((next w).bind f) Q _ w') ↔ _
    simp only [ih]
    rfl
  | generate request next ih =>
    show (∀ outcome w', _ → C.Meets ((next outcome).bind f) Q _ w') ↔ _
    simp only [ih]
    rfl

/-! ## §2. Jobs. -/

/-- From worlds with `P`, the job keeps to the contract, and where it ends `Q` holds of its
outcome. -/
def Triple (C : Contract) (P : Deeds → World → Prop) (j : Job α)
    (Q : Except Failure α → Deeds → World → Prop) : Prop :=
  ∀ g w, P g w → C.Meets j.run Q g w

/-- The job does not fail, and `P` holds of its value. -/
def surely (P : α → Deeds → World → Prop) : Except Failure α → Deeds → World → Prop
  | .ok a => P a
  | .error _ => fun _ _ => False

/-- If the job does not fail, then `P` holds of its value, and otherwise `N` holds. -/
def either (P : α → Deeds → World → Prop) (N : Deeds → World → Prop) :
    Except Failure α → Deeds → World → Prop
  | .ok a => P a
  | .error _ => N

section

variable {P P' : Deeds → World → Prop} {Q Q' : Except Failure α → Deeds → World → Prop}

theorem Triple.mono {j : Job α} (h : C.Triple P j Q) (hP : ∀ g w, P' g w → P g w)
    (hQ : ∀ r g w, Q r g w → Q' r g w) : C.Triple P' j Q' :=
  fun g w hp => Meets.mono hQ _ g w (h g w (hP g w hp))

/-- A fact that does not depend on the world may be assumed. -/
theorem Triple.of_fact {p : Prop} {j : Job α} (hP : ∀ g w, P g w → p) (h : p → C.Triple P j Q) :
    C.Triple P j Q :=
  fun g w hp => h (hP g w hp) g w hp

theorem triple_pure {a : α} (h : ∀ g w, P g w → Q (.ok a) g w) :
    C.Triple P (pure a : Job α) Q := h

theorem triple_throw {e : Failure} (h : ∀ g w, P g w → Q (.error e) g w) :
    C.Triple P (throw e : Job α) Q := h

theorem triple_fail {c : Cause} (h : ∀ g w, P g w → Q (.error (Failure.ofCause c)) g w) :
    C.Triple P (Job.fail c : Job α) Q := h

theorem triple_ofExcept {x : Except Failure α} (h : ∀ g w, P g w → Q x g w) :
    C.Triple P (Job.ofExcept x) Q := h

theorem triple_ofCauses {x : Except Cause α} (hok : ∀ a, x = .ok a → ∀ g w, P g w → Q (.ok a) g w)
    (herr : ∀ c, x = .error c → ∀ g w, P g w → Q (.error (Failure.ofCause c)) g w) :
    C.Triple P (Job.ofCauses x) Q := by
  cases x with
  | ok a => exact hok a rfl
  | error c => exact herr c rfl

/-- **One job after another**: the second one starts only if the first one does not fail. -/
theorem triple_bind {R : Except Failure β → Deeds → World → Prop} {j : Job β} {f : β → Job α}
    (hj : C.Triple P j R) (hf : ∀ b, C.Triple (R (.ok b)) (f b) Q)
    (he : ∀ e g w, R (.error e) g w → Q (.error e) g w) : C.Triple P (j >>= f) Q := by
  intro g w hp
  show C.Meets (Plan.bind j.run (ExceptT.bindCont f)) Q g w
  rw [meets_bind]
  refine Meets.mono ?_ _ g w (hj g w hp)
  intro r g w hr
  cases r with
  | ok b => exact hf b g w hr
  | error e => exact he e g w hr

theorem triple_ite {c : Prop} [Decidable c] {j k : Job α} (hj : c → C.Triple P j Q)
    (hk : ¬c → C.Triple P k Q) : C.Triple P (if c then j else k) Q := by
  by_cases h : c
  · rw [if_pos h]
    exact hj h
  · rw [if_neg h]
    exact hk h

/-- A job that refuses to go on in some case. -/
theorem triple_refuse {c : Prop} [Decidable c] {cause : Cause} {rest : PUnit → Job α}
    (hc : c → ∀ g w, P g w → Q (.error (Failure.ofCause cause)) g w)
    (hrest : ¬c → C.Triple P (rest ⟨⟩) Q) :
    C.Triple P (if c then Job.fail cause >>= rest else rest ⟨⟩) Q :=
  triple_ite hc hrest

/-- The outcome of a job as a value. -/
theorem triple_outcome {j : Job α} (h : C.Triple P j Q) :
    C.Triple P (Job.outcome j) (surely Q) := by
  intro g w hp
  show C.Meets (Plan.bind j.run fun r => .done (.ok r)) (surely Q) g w
  rw [meets_bind]
  exact h g w hp

/-- Something that is done however a job ends. -/
theorem triple_andFinally {R : Except Failure α → Deeds → World → Prop} {j : Job α}
    {cleanup : Job Unit} (hj : C.Triple P j R)
    (hc : ∀ r, C.Triple (R r) cleanup fun _ => Q r) : C.Triple P (j.andFinally cleanup) Q := by
  intro g w hp
  show C.Meets (Plan.bind j.run fun r => Plan.bind cleanup.run fun _ => .done r) Q g w
  rw [meets_bind]
  refine Meets.mono ?_ _ g w (hj g w hp)
  intro r g w hr
  show C.Meets (Plan.bind cleanup.run fun _ => .done r) Q g w
  rw [meets_bind]
  exact hc r g w hr

/-! ## §3. Statements and requests. -/

/-- The contract allows a statement with a known outcome, and then `Q` holds.  A statement that
fails changes nothing. -/
def Accepts (C : Contract) (Q : Except Failure α → Deeds → World → Prop) (g : Deeds) (w : World) :
    Except Failure (α × World) → Prop
  | .ok (a, after) => C.Leads (Q (.ok a)) g ⟨w, after⟩
  | .error e => C.Leads (Q (.error e)) g ⟨w, w⟩

/-- A check before the statement proper. -/
theorem accepts_bind {g : Deeds} {w : World} {x : Except Failure β}
    {f : β → Except Failure (α × World)}
    (herr : ∀ e, x = .error e → C.Leads (Q (.error e)) g ⟨w, w⟩)
    (hok : ∀ b, x = .ok b → C.Accepts Q g w (f b)) : C.Accepts Q g w (x >>= f) := by
  cases x with
  | ok b => exact hok b rfl
  | error e => exact herr e rfl

theorem triple_statementOn {access : Access} {f : World → Except Failure (α × World)}
    (h : ∀ g w, P g w → C.Accepts Q g w (f w)) : C.Triple P (Job.statementOn access f) Q := by
  intro g w hp
  have ha := h g w hp
  -- The plan says what the world becomes and what it answers apart from each other; both come
  -- from one outcome.
  let after : World := match f w with
    | .ok (_, w') => w'
    | .error _ => w
  show C.allows g ⟨w, after⟩ ∧
    ∀ w', C.calm (g ++ [⟨w, after⟩]) after w' → Q ((f w).map (·.1)) (g ++ [⟨w, after⟩]) w'
  unfold after
  cases hf : f w with
  | ok pair =>
    rw [hf] at ha
    exact ha
  | error e =>
    rw [hf] at ha
    exact ha

theorem triple_statement {f : World → Except Failure (α × World)}
    (h : ∀ g w, P g w → C.Accepts Q g w (f w)) : C.Triple P (Job.statement f) Q :=
  triple_statementOn h

theorem triple_inMemory {f : World → Except Failure (α × World)}
    (h : ∀ g w, P g w → C.Accepts Q g w (f w)) : C.Triple P (Job.inMemory f) Q :=
  triple_statementOn h

/-- A statement that only reads. -/
theorem triple_read {f : World → Except Failure α}
    (h : ∀ g w, P g w → C.Leads (Q (f w)) g ⟨w, w⟩) : C.Triple P (Job.read f) Q := h

theorem triple_readMemory {f : World → α}
    (h : ∀ g w, P g w → C.Leads (Q (.ok (f w))) g ⟨w, w⟩) : C.Triple P (Job.readMemory f) Q := h

theorem triple_request {Q : Except Failure Outcome → Deeds → World → Prop} {request : Request}
    (h : ∀ g w, P g w → ∀ outcome w', C.pause g w w' → Q (.ok outcome) g w') :
    C.Triple P (Job.request request) Q := h

end

/-! ## §4. Plans in surroundings. -/

/-- **A plan by itself.**  In surroundings that change the world only as the contract puts up
with, a plan that keeps to the contract ends as it says. -/
theorem Meets.run {σ : Type} {around : Plan.Surroundings σ}
    (hcalm : ∀ g before after s, C.calm g after (around.react before after s).1)
    (hpause : ∀ g request w s, C.pause g w (around.answer request w s).2.1)
    {Q : α → Deeds → World → Prop} (t : Plan α) (g : Deeds) (w : World) (s : σ)
    (h : C.Meets t Q g w) :
    Q (t.run around w s).1 (g ++ t.deeds around w s) (t.run around w s).2.1 := by
  induction t generalizing g w s with
  | done a =>
    unfold Plan.deeds
    rw [List.append_nil]
    exact h
  | act access update next ih =>
    have := ih w _ _ (around.react w (update w) s).2 (h.2 _ (hcalm _ w (update w) s))
    rw [List.append_assoc] at this
    exact this
  | generate request next ih =>
    exact ih _ g _ (around.answer request w s).2.2 (h _ _ (hpause g request w s))

/-! ## §5. Two contracts at once. -/

/-- What both contracts allow, among what both put up with. -/
def both (C D : Contract) : Contract where
  allows g d := C.allows g d ∧ D.allows g d
  calm g w w' := C.calm g w w' ∧ D.calm g w w'
  pause g w w' := C.pause g w w' ∧ D.pause g w w'

theorem Meets.both {D : Contract} {Q Q' : α → Deeds → World → Prop} (t : Plan α) (g : Deeds)
    (w : World) (h : C.Meets t Q g w) (h' : D.Meets t Q' g w) :
    (C.both D).Meets t (fun a g w => Q a g w ∧ Q' a g w) g w := by
  induction t generalizing g w with
  | done a => exact ⟨h, h'⟩
  | act access update next ih =>
    exact ⟨⟨h.1, h'.1⟩, fun w' hw => ih w _ w' (h.2 w' hw.1) (h'.2 w' hw.2)⟩
  | generate request next ih =>
    exact fun outcome w' hw => ih outcome g w' (h outcome w' hw.1) (h' outcome w' hw.2)

theorem Triple.both {D : Contract} {P P' : Deeds → World → Prop}
    {Q Q' : Except Failure α → Deeds → World → Prop} {j : Job α} (h : C.Triple P j Q)
    (h' : D.Triple P' j Q') :
    (C.both D).Triple (fun g w => P g w ∧ P' g w) j fun res g w => Q res g w ∧ Q' res g w :=
  fun g w hp => Meets.both j.run g w (h g w hp.1) (h' g w hp.2)

end Contract

end PromptForms
