/-
  PromptForms.Proofs.Deeds
  ────────────────────────
  **WHAT A PLAN HAS DONE.**

  A deed is one statement of a plan: the world right before it and right after it.  The
  deeds of a plan so far say whether it holds a submission, that is, whether it has taken
  it from `pending` to `processing` and has not ended that attempt since.

      Deed, Plan.deeds     the statements of a plan, in order
      takes, claims, leaves    what a deed does to the status of a submission
      Holds                a submission was taken and has not been left
-/
import PromptForms.Run.Plan

namespace PromptForms

/-! ## §1. Deeds. -/

/-- The status of a submission, if there is one. -/
def World.status? (w : World) (id : Int) : Option Status :=
  (w.store.submissions.get? id).map (·.status)

theorem World.status?_of_submissions_eq {w w' : World}
    (h : w'.store.submissions = w.store.submissions) (id : Int) : w'.status? id = w.status? id := by
  unfold World.status?
  rw [h]

/-- A statement that was carried out. -/
structure Deed where
  before : World
  after : World

namespace Deed

/-- The submission goes from `pending` to `processing`. -/
def takes (id : Int) (d : Deed) : Prop :=
  d.before.status? id = some .pending ∧ d.after.status? id = some .processing

/-- The submission goes from `pending` to `processing` or at once to `completed`. -/
def claims (id : Int) (d : Deed) : Prop :=
  d.before.status? id = some .pending ∧
    (d.after.status? id = some .processing ∨ d.after.status? id = some .completed)

/-- The submission is moved out of `processing`. -/
def leaves (id : Int) (d : Deed) : Prop :=
  d.before.status? id = some .processing ∧ d.after.status? id ≠ some .processing

/-- The submission becomes completed. -/
def completes (id : Int) (d : Deed) : Prop :=
  d.before.status? id ≠ some .completed ∧ d.after.status? id = some .completed

instance (id : Int) (d : Deed) : Decidable (d.takes id) := inferInstanceAs (Decidable (_ ∧ _))

instance (id : Int) (d : Deed) : Decidable (d.claims id) := inferInstanceAs (Decidable (_ ∧ _))

instance (id : Int) (d : Deed) : Decidable (d.leaves id) := inferInstanceAs (Decidable (_ ∧ _))

instance (id : Int) (d : Deed) : Decidable (d.completes id) := inferInstanceAs (Decidable (_ ∧ _))

theorem claims_of_takes {id : Int} {d : Deed} (h : d.takes id) : d.claims id := ⟨h.1, .inl h.2⟩

/-- A deed that keeps the status of a submission does none of this. -/
theorem not_claims_of_status?_eq {id : Int} {d : Deed}
    (h : d.after.status? id = d.before.status? id) : ¬d.claims id := by
  rintro ⟨h1, h2 | h2⟩ <;> rw [h, h1] at h2 <;> cases h2

theorem not_leaves_of_status?_eq {id : Int} {d : Deed}
    (h : d.after.status? id = d.before.status? id) : ¬d.leaves id :=
  fun hl => hl.2 (h.trans hl.1)

theorem not_completes_of_status?_eq {id : Int} {d : Deed}
    (h : d.after.status? id = d.before.status? id) : ¬d.completes id :=
  fun hc => hc.1 (h.symm.trans hc.2)

theorem status?_eq_of_store_eq {d : Deed} (h : d.after.store = d.before.store) (id : Int) :
    d.after.status? id = d.before.status? id :=
  World.status?_of_submissions_eq (congrArg Store.submissions h) id

end Deed

/-! ## §2. Holding a submission. -/

/-- What stands in a list with a new last item is that item, or it stood in the list before. -/
theorem last_or_before {α : Type} {list earlier later : List α} {x last : α}
    (h : list ++ [last] = earlier ++ x :: later) :
    (later = [] ∧ earlier = list ∧ x = last) ∨
      ∃ init, later = init ++ [last] ∧ list = earlier ++ x :: init := by
  rcases List.eq_nil_or_concat later with rfl | ⟨init, last', rfl⟩
  · obtain ⟨rfl, rfl⟩ := List.append_singleton_inj.1 h
    exact .inl ⟨rfl, rfl, rfl⟩
  · have h' : list ++ [last] = (earlier ++ x :: init) ++ [last'] := by simpa using h
    obtain ⟨rfl, rfl⟩ := List.append_singleton_inj.1 h'
    exact .inr ⟨init, List.concat_eq_append, rfl⟩

/-- Deeds in their order. -/
abbrev Deeds := List Deed

namespace Deeds

/-- The submission was taken and has not been left since. -/
def Holds (id : Int) (g : Deeds) : Prop :=
  ∃ earlier d later, g = earlier ++ d :: later ∧ d.takes id ∧ ∀ e ∈ later, ¬e.leaves id

/-- The last claim on a submission. -/
def lastClaim? (id : Int) (g : Deeds) : Option Deed := (g.filter (·.claims id)).getLast?

theorem not_holds_nil (id : Int) : ¬Holds id [] := by
  rintro ⟨earlier, d, later, h, -⟩
  simp at h

theorem holds_concat {id : Int} {g : Deeds} {d : Deed} :
    Holds id (g ++ [d]) ↔ d.takes id ∨ (Holds id g ∧ ¬d.leaves id) := by
  constructor
  · rintro ⟨earlier, e, later, h, ht, hl⟩
    rcases last_or_before h with ⟨-, -, rfl⟩ | ⟨init, rfl, rfl⟩
    · exact .inl ht
    · refine .inr ⟨⟨earlier, e, init, rfl, ht, fun x hx => hl x (by simp [hx])⟩, hl d (by simp)⟩
  · rintro (ht | ⟨⟨earlier, e, later, rfl, ht, hl⟩, hd⟩)
    · exact ⟨g, d, [], rfl, ht, by simp⟩
    · refine ⟨earlier, e, later ++ [d], by simp, ht, fun x hx => ?_⟩
      rcases List.mem_append.1 hx with hx | hx
      · exact hl x hx
      · rw [List.mem_singleton.1 hx]
        exact hd

/-- A deed that keeps the status of a submission changes nothing about who holds it. -/
theorem holds_concat_of_status?_eq {id : Int} {g : Deeds} {d : Deed}
    (h : d.after.status? id = d.before.status? id) : Holds id (g ++ [d]) ↔ Holds id g := by
  rw [holds_concat]
  constructor
  · rintro (ht | hg)
    · exact absurd (Deed.claims_of_takes ht) (Deed.not_claims_of_status?_eq h)
    · exact hg.1
  · exact fun hg => .inr ⟨hg, Deed.not_leaves_of_status?_eq h⟩

theorem lastClaim?_concat {id : Int} {g : Deeds} {d : Deed} :
    lastClaim? id (g ++ [d]) = if d.claims id then some d else lastClaim? id g := by
  unfold lastClaim?
  by_cases h : d.claims id <;> simp [h]

end Deeds

/-! ## §3. The deeds of a plan in given surroundings. -/

namespace Plan

variable {α : Type} {σ : Type}

/-- The statements that a plan carries out in given surroundings. -/
def deeds (around : Surroundings σ) : Plan α → World → σ → Deeds
  | .done _, _, _ => []
  | .act _ update next, w, s =>
    let (w', s') := around.react w (update w) s
    ⟨w, update w⟩ :: (next w).deeds around w' s'
  | .generate request next, w, s =>
    let (outcome, w', s') := around.answer request w s
    (next outcome).deeds around w' s'

end Plan

end PromptForms
