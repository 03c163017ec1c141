/-
  PromptForms.Proofs.InStep
  ─────────────────────────
  **PLANS IN STEP.**

  Two plans keep in step if statement goes with statement, request with the same request,
  and end with end, although each of them acts in a world of its own.  What the two worlds
  have in common at some moment says how the plans go on, so it has to survive each pair of
  statements, and whatever becomes of the two worlds in between.

      Drift            what may become of two worlds at the same moment
      Plan.InStep      two plans that keep in step, and what holds where they end
      Job.InStep       the same for jobs, with an invariant on the two worlds
      Corresponds      both jobs end with values that go together, or with the same failure

  Main results:
    • inStep_bind and one rule for every way of building a job
    • `Plan.InStep.run`   two plans in surroundings that do the same to both
-/
import PromptForms.Run.Plan

namespace PromptForms

/-! ## §1. Two plans. -/

/-- What may become of two worlds at the same moment: the worlds before, and those after. -/
abbrev Drift := World → World → World → World → Prop

namespace Plan

variable {α β γ δ : Type} {E : Drift}

/-- From two worlds, the plans keep in step whatever becomes of the worlds meanwhile, and `Q` holds
where they end. -/
def InStep (E : Drift) :
    Plan α → Plan β → (α → β → World → World → Prop) → World → World → Prop
  | .done a, .done b, Q, w, w' => Q a b w w'
  | .act _ update next, .act _ update' next', Q, w, w' =>
    ∀ v v', E (update w) (update' w') v v' → InStep E (next w) (next' w') Q v v'
  | .generate request next, .generate request' next', Q, w, w' =>
    request = request' ∧
      ∀ outcome v v', E w w' v v' → InStep E (next outcome) (next' outcome) Q v v'
  | _, _, _, _, _ => False

theorem InStep.mono {Q Q' : α → β → World → World → Prop} {t : Plan α} {t' : Plan β} {w w' : World}
    (h : InStep E t t' Q w w') (hQ : ∀ a b v v', Q a b v v' → Q' a b v v') :
    InStep E t t' Q' w w' := by
  induction t generalizing t' w w' with
  | done a =>
    cases t' with
    | done b => exact hQ a b w w' h
    | act | generate => exact h
  | act access update next ih =>
    cases t' with
    | act access' update' next' => exact fun v v' hv => ih w (h v v' hv)
    | done | generate => exact h
  | generate request next ih =>
    cases t' with
    | generate request' next' =>
      exact ⟨h.1, fun outcome v v' hv => ih outcome (h.2 outcome v v' hv)⟩
    | done | act => exact h

/-- **One pair of plans after another.** -/
theorem inStep_bind {R : γ → δ → World → World → Prop} {Q : α → β → World → World → Prop}
    {t : Plan γ} {t' : Plan δ} {f : γ → Plan α} {f' : δ → Plan β} {w w' : World}
    (ht : InStep E t t' R w w')
    (hf : ∀ c d v v', R c d v v' → InStep E (f c) (f' d) Q v v') :
    InStep E (t.bind f) (t'.bind f') Q w w' := by
  -- On the first plan; the second one has to begin as the first one does.
  induction t generalizing t' w w' with
  | done c =>
    cases t' with
    | done d => exact hf c d w w' ht
    | act | generate => exact ht.elim
  | act access update next ih =>
    cases t' with
    | act access' update' next' => exact fun v v' hv => ih w (ht v v' hv)
    | done | generate => exact ht.elim
  | generate request next ih =>
    cases t' with
    | generate request' next' =>
      exact ⟨ht.1, fun outcome v v' hv => ih outcome (ht.2 outcome v v' hv)⟩
    | done | act => exact ht.elim

/-- What happens around a plan does not depend on the world, but for how the world drifts. -/
structure Surroundings.Blind {σ : Type} (around : Surroundings σ) (E : Drift) : Prop where
  react : ∀ before before' after after' s,
    E after after' (around.react before after s).1 (around.react before' after' s).1 ∧
      (around.react before after s).2 = (around.react before' after' s).2
  answer : ∀ request w w' s,
    (around.answer request w s).1 = (around.answer request w' s).1 ∧
      E w w' (around.answer request w s).2.1 (around.answer request w' s).2.1 ∧
        (around.answer request w s).2.2 = (around.answer request w' s).2.2

/-- **Two plans by themselves** that keep in step end as `Q` says. -/
theorem InStep.run {σ : Type} {around : Surroundings σ} (hblind : around.Blind E)
    {Q : α → β → World → World → Prop} {t : Plan α} {t' : Plan β} {w w' : World}
    (h : InStep E t t' Q w w') (s : σ) :
    Q (t.run around w s).1 (t'.run around w' s).1 (t.run around w s).2.1
      (t'.run around w' s).2.1 := by
  -- The surroundings are in the same state on both sides, although the worlds are not the same.
  induction t generalizing t' w w' s with
  | done a =>
    cases t' with
    | done b => exact h
    | act | generate => exact h.elim
  | act access update next ih =>
    cases t' with
    | act access' update' next' =>
      obtain ⟨hdrift, hstate⟩ := hblind.react w w' (update w) (update' w') s
      have hright : (act access' update' next').run around w' s =
          (next' w').run around (around.react w' (update' w') s).1 (around.react w (update w) s).2 := by
        rw [hstate]
        rfl
      rw [hright]
      exact ih w (h _ _ hdrift) (around.react w (update w) s).2
    | done | generate => exact h.elim
  | generate request next ih =>
    cases t' with
    | generate request' next' =>
      obtain ⟨rfl, hnext⟩ := h
      obtain ⟨houtcome, hdrift, hstate⟩ := hblind.answer request w w' s
      have hright : (generate request next').run around w' s =
          (next' (around.answer request w s).1).run around (around.answer request w' s).2.1
            (around.answer request w s).2.2 := by
        rw [houtcome, hstate]
        rfl
      rw [hright]
      exact ih _ (hnext _ _ _ hdrift) (around.answer request w s).2.2
    | done | act => exact h.elim

end Plan

/-! ## §2. What two jobs end with. -/

/-- Both end with values that go together, or both with the same failure. -/
inductive Corresponds {α β : Type} (Q : α → β → Prop) :
    Except Failure α → Except Failure β → Prop
  | ok {a : α} {b : β} (h : Q a b) : Corresponds Q (.ok a) (.ok b)
  | error (e : Failure) : Corresponds Q (.error e) (.error e)

namespace Corresponds

variable {α β γ δ : Type} {R : γ → δ → Prop} {Q : α → β → Prop}

theorem of_eq {x x' : Except Failure α} (h : x = x') : Corresponds Eq x x' := by
  subst h
  cases x with
  | ok a => exact .ok rfl
  | error e => exact .error e

theorem mono {Q' : α → β → Prop} {x : Except Failure α} {x' : Except Failure β}
    (h : Corresponds Q x x') (hQ : ∀ a b, Q a b → Q' a b) : Corresponds Q' x x' := by
  cases h with
  | ok h => exact .ok (hQ _ _ h)
  | error e => exact .error e

theorem bind {x : Except Failure γ} {x' : Except Failure δ} {f : γ → Except Failure α}
    {f' : δ → Except Failure β} (hx : Corresponds R x x')
    (hf : ∀ c d, R c d → Corresponds Q (f c) (f' d)) : Corresponds Q (x >>= f) (x' >>= f') := by
  cases hx with
  | ok h => exact hf _ _ h
  | error e => exact .error e

/-- The same check before both. -/
theorem after {x x' : Except Failure γ} {f : γ → Except Failure α} {f' : γ → Except Failure β}
    (hx : x = x') (hf : ∀ c, Corresponds Q (f c) (f' c)) : Corresponds Q (x >>= f) (x' >>= f') :=
  (of_eq hx).bind fun c _ h => h ▸ hf c

end Corresponds

/-! ## §3. Two jobs. -/

/-- An invariant on two worlds survives what becomes of them. -/
def Drift.Keeps (E : Drift) (I : World → World → Prop) : Prop :=
  ∀ w w' v v', I w w' → E w w' v v' → I v v'

namespace Job

variable {α β γ δ : Type} {E : Drift} {I : World → World → Prop} {Q : α → β → Prop}

/-- From any two worlds with the invariant, the jobs keep in step, the invariant holds where they
end, and what they end with corresponds. -/
def InStep (E : Drift) (I : World → World → Prop) (j : Job α) (j' : Job β) (Q : α → β → Prop) :
    Prop :=
  ∀ w w', I w w' →
    Plan.InStep E j.run j'.run (fun res res' v v' => I v v' ∧ Corresponds Q res res') w w'

theorem inStep_ofExcept {x : Except Failure α} {x' : Except Failure β} (h : Corresponds Q x x') :
    InStep E I (ofExcept x) (ofExcept x') Q := fun _ _ hI => ⟨hI, h⟩

theorem inStep_pure {a : α} {b : β} (h : Q a b) : InStep E I (pure a) (pure b) Q :=
  inStep_ofExcept (.ok h)

theorem inStep_throw (e : Failure) : InStep E I (throw e : Job α) (throw e : Job β) Q :=
  inStep_ofExcept (.error e)

theorem inStep_fail (c : Cause) : InStep E I (fail c : Job α) (fail c : Job β) Q := inStep_throw _

theorem inStep_ofCauses (x : Except Cause α) : InStep E I (ofCauses x) (ofCauses x) Eq := by
  cases x with
  | ok a => exact inStep_pure rfl
  | error c => exact inStep_fail c

/-- **One pair of jobs after another.** -/
theorem inStep_bind {R : γ → δ → Prop} {j : Job γ} {j' : Job δ} {f : γ → Job α} {f' : δ → Job β}
    (hj : InStep E I j j' R) (hf : ∀ c d, R c d → InStep E I (f c) (f' d) Q) :
    InStep E I (j >>= f) (j' >>= f') Q := by
  intro w w' hI
  refine Plan.inStep_bind (hj w w' hI) ?_
  rintro _ _ v v' ⟨hI, hres⟩
  cases hres with
  | ok h => exact hf _ _ h v v' hI
  | error e => exact ⟨hI, .error e⟩

/-- The same value goes on to both. -/
theorem inStep_bind_eq {j j' : Job γ} {f : γ → Job α} {f' : γ → Job β} (hj : InStep E I j j' Eq)
    (hf : ∀ c, InStep E I (f c) (f' c) Q) : InStep E I (j >>= f) (j' >>= f') Q :=
  inStep_bind hj fun c _ h => h ▸ hf c

theorem inStep_ite {c c' : Prop} [Decidable c] [Decidable c'] {j k : Job α} {j' k' : Job β}
    (hc : c ↔ c') (hj : InStep E I j j' Q) (hk : InStep E I k k' Q) :
    InStep E I (if c then j else k) (if c' then j' else k') Q := by
  by_cases h : c
  · rw [if_pos h, if_pos (hc.1 h)]
    exact hj
  · rw [if_neg h, if_neg fun h' => h (hc.2 h')]
    exact hk

/-- Two jobs that refuse to go on in the same case. -/
theorem inStep_refuse {c c' : Prop} [Decidable c] [Decidable c'] {cause : Cause}
    {rest : PUnit → Job α} {rest' : PUnit → Job β} (hc : c ↔ c')
    (hrest : InStep E I (rest ⟨⟩) (rest' ⟨⟩) Q) :
    InStep E I (if c then fail cause >>= rest else rest ⟨⟩)
      (if c' then fail cause >>= rest' else rest' ⟨⟩) Q :=
  inStep_ite hc (inStep_throw _) hrest

theorem inStep_outcome {j : Job α} {j' : Job β} (h : InStep E I j j' Q) :
    InStep E I (outcome j) (outcome j') (Corresponds Q) := by
  intro w w' hI
  refine Plan.inStep_bind (h w w' hI) ?_
  rintro res res' v v' ⟨hI, hres⟩
  exact ⟨hI, .ok hres⟩

/-! ## §4. Statements and requests. -/

/-- Two statements; one that fails changes nothing. -/
theorem inStep_statementOn {access : Access} {f : World → Except Failure (α × World)}
    {f' : World → Except Failure (β × World)}
    {P : Except Failure α → Except Failure β → World → World → Prop} {w w' : World}
    (h : Corresponds (fun p p' => ∀ v v', E p.2 p'.2 v v' → P (.ok p.1) (.ok p'.1) v v') (f w) (f' w'))
    (herr : ∀ e, f w = .error e → ∀ v v', E w w' v v' → P (.error e) (.error e) v v') :
    Plan.InStep E (statementOn access f).run (statementOn access f').run P w w' := by
  intro v v' hv
  dsimp only at hv ⊢
  generalize f w = x at h herr hv ⊢
  generalize f' w' = x' at h hv ⊢
  cases h with
  | ok h => exact h v v' hv
  | error e => exact herr e rfl v v' hv

variable (hE : E.Keeps I)
include hE

theorem inStep_statement {f : World → Except Failure (α × World)}
    {f' : World → Except Failure (β × World)}
    (h : ∀ w w', I w w' → Corresponds (fun p p' => I p.2 p'.2 ∧ Q p.1 p'.1) (f w) (f' w')) :
    InStep E I (statement f) (statement f') Q := by
  intro w w' hI
  refine inStep_statementOn ((h w w' hI).mono ?_) ?_
  · exact fun p p' hp v v' hv => ⟨hE p.2 p'.2 v v' hp.1 hv, .ok hp.2⟩
  · exact fun e _ v v' hv => ⟨hE w w' v v' hI hv, .error e⟩

theorem inStep_read {f : World → Except Failure α} {f' : World → Except Failure β}
    (h : ∀ w w', I w w' → Corresponds Q (f w) (f' w')) : InStep E I (read f) (read f') Q :=
  fun w w' hI v v' hv => ⟨hE w w' v v' hI hv, h w w' hI⟩

theorem inStep_readMemory {f : World → α} {f' : World → β} (h : ∀ w w', I w w' → Q (f w) (f' w')) :
    InStep E I (readMemory f) (readMemory f') Q :=
  fun w w' hI v v' hv => ⟨hE w w' v v' hI hv, .ok (h w w' hI)⟩

theorem inStep_request (q : Request) : InStep E I (request q) (request q) Eq :=
  fun w w' hI => ⟨rfl, fun _ v v' hv => ⟨hE w w' v v' hI hv, .ok rfl⟩⟩

end Job

end PromptForms
