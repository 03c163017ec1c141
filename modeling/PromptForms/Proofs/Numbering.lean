/-
  PromptForms.Proofs.Numbering
  ────────────────────────────
  **STEPS IN THEIR ORDER.**

  Steps count as numbered without gaps if some order of them has the numbers `1 … N`.
  Since no number occurs twice then, there is only one such order, and it is the one
  that the check finds, however the steps are stored.

      Step.Ordered        steps by their number, said without sorting

  Main results:
    • stable_mergeSort    sorting by a key keeps the order of items of one key
    • checkDense_eq_ok    what the check finds, without a word about sorting
    • checkDense_of_perm    the same finding for steps that are listed in another order
-/
import Mathlib.Data.List.Nodup
import Mathlib.Data.Nat.Basic
import Mathlib.Order.Lattice
import PromptForms.Pipeline.Step

namespace PromptForms

/-! ## §1. Sorting by a key. -/

/-- Sorting by a key puts the keys in order and leaves items of one key in the order they had. -/
theorem stable_mergeSort {α κ : Type} [LinearOrder κ] [DecidableEq κ] (key : α → κ)
    {le : α → α → Bool} (hle : ∀ a b, le a b = true ↔ key a ≤ key b) (items : List α) :
    (items.mergeSort le).Pairwise (fun a b => key a ≤ key b) ∧
      ∀ k, (items.mergeSort le).filter (fun a => key a = k) = items.filter fun a => key a = k := by
  have trans : ∀ a b c : α, le a b = true → le b c = true → le a c = true := by
    intro a b c hab hbc
    rw [hle] at *
    exact hab.trans hbc
  have total : ∀ a b : α, (le a b || le b a) = true := by
    intro a b
    rw [Bool.or_eq_true, hle, hle]
    exact le_total _ _
  refine ⟨(List.pairwise_mergeSort trans total items).imp fun {a b} h => (hle a b).1 h, ?_⟩
  intro k
  -- The items of one key are sorted as they stand, so they stay in this order.
  have hties : (items.filter fun a => key a = k).Pairwise fun a b => le a b = true := by
    apply List.pairwise_of_forall_mem_list
    intro a ha b hb
    have hka := of_decide_eq_true (List.mem_filter.1 ha).2
    have hkb := of_decide_eq_true (List.mem_filter.1 hb).2
    exact (hle a b).2 (hka.trans hkb.symm).le
  have hkept : (items.filter fun a => key a = k).Sublist (items.mergeSort le) :=
    List.sublist_mergeSort trans total hties List.filter_sublist
  have htied := hkept.filter fun a => decide (key a = k)
  rw [List.filter_filter] at htied
  simp only [Bool.and_self] at htied
  have hlength := ((List.mergeSort_perm items le).filter fun a => decide (key a = k)).length_eq
  exact (htied.eq_of_length_le hlength.le).symm

/-- The steps by their number, those of one number as they were listed. -/
structure Step.Ordered (steps ordered : List Step) : Prop where
  same : ordered.Perm steps
  sorted : ordered.Pairwise fun s t => s.number ≤ t.number
  stable : ∀ n : Nat, (ordered.filter fun s => s.number = n) = steps.filter fun s => s.number = n

theorem Step.ordered_inStepOrder (steps : List Step) : Step.Ordered steps (Step.inStepOrder steps) := by
  have hsort := stable_mergeSort Step.number (fun _ _ => decide_eq_true_iff) steps
  exact ⟨List.mergeSort_perm _ _, hsort.1, hsort.2⟩

/-! ## §2. Dense numbering. -/

/-- Steps that are numbered `1 … N` in some order are put into that order. -/
theorem inStepOrder_of_perm {steps ordered : List Step} (hperm : ordered.Perm steps)
    (hnum : ordered.map (·.number) = List.range' 1 ordered.length) :
    Step.inStepOrder steps = ordered := by
  -- Both lists are sorted by numbers that occur once, so there is only one such order.
  have hnodup : (ordered.map (·.number)).Nodup := hnum ▸ List.nodup_range'
  have hsorted : ordered.Pairwise fun a b => decide (a.number ≤ b.number) = true := by
    have hle : (ordered.map (·.number)).Pairwise (· ≤ ·) := hnum ▸ List.pairwise_le_range'
    exact (List.pairwise_map.1 hle).imp fun h => decide_eq_true h
  refine List.Perm.eq_of_pairwise (fun a b ha hb hab hba => ?_)
    (List.pairwise_mergeSort ?_ ?_ steps) hsorted ((List.mergeSort_perm ..).trans hperm.symm)
  · have hmem : a ∈ ordered := hperm.mem_iff.2 ((List.mergeSort_perm ..).mem_iff.1 ha)
    rw [decide_eq_true_eq] at hab hba
    exact List.inj_on_of_nodup_map hnodup hmem hb (Nat.le_antisymm hab hba)
  · intro a b c hab hbc
    rw [decide_eq_true_eq] at hab hbc ⊢
    omega
  · intro a b
    rw [Bool.or_eq_true, decide_eq_true_eq, decide_eq_true_eq]
    omega

/-- **The check of the numbers** finds the order in which they are `1 … N`. -/
theorem checkDense_eq_ok {steps ordered : List Step} :
    checkDense steps = .ok ordered ↔
      ordered.Perm steps ∧ ordered.map (·.number) = List.range' 1 ordered.length := by
  constructor
  · intro h
    unfold checkDense at h
    simp only at h
    split at h
    · rename_i hnum
      cases h
      exact ⟨List.mergeSort_perm .., hnum⟩
    · cases h
  · rintro ⟨hperm, hnum⟩
    unfold checkDense
    rw [inStepOrder_of_perm hperm hnum]
    exact if_pos hnum

/-! ## §3. Steps listed in any order. -/

/-- Two ascending lists of the same numbers are the same. -/
theorem eq_of_perm_of_ascending {ks ks' : List Nat} (hperm : ks.Perm ks')
    (h : ks.Pairwise (· ≤ ·)) (h' : ks'.Pairwise (· ≤ ·)) : ks = ks' :=
  List.Perm.eq_of_pairwise (fun _ _ _ _ hab hba => Nat.le_antisymm hab hba) h h' hperm

theorem pairwise_numbers_inStepOrder (steps : List Step) :
    ((Step.inStepOrder steps).map (·.number)).Pairwise (· ≤ ·) :=
  List.pairwise_map.2 (Step.ordered_inStepOrder steps).sorted

/-- The check succeeds exactly if the numbers are `1 … N` in some order. -/
theorem exists_checkDense_eq_ok {steps : List Step} :
    (∃ ordered, checkDense steps = .ok ordered) ↔
      (steps.map (·.number)).Perm (List.range' 1 steps.length) := by
  constructor
  · rintro ⟨ordered, h⟩
    obtain ⟨hperm, hnum⟩ := checkDense_eq_ok.1 h
    rw [← hperm.length_eq, ← hnum]
    exact (hperm.map _).symm
  · intro h
    have hsorted := (Step.ordered_inStepOrder steps).same
    refine ⟨Step.inStepOrder steps, checkDense_eq_ok.2 ⟨hsorted, ?_⟩⟩
    rw [hsorted.length_eq]
    exact eq_of_perm_of_ascending ((hsorted.map _).trans h) (pairwise_numbers_inStepOrder steps)
      List.pairwise_le_range'

/-- The steps are counted from 1 on. -/
theorem number_eq_of_checkDense {steps ordered : List Step} (h : checkDense steps = .ok ordered)
    (i : Nat) (hi : i < ordered.length) : ordered[i].number = i + 1 := by
  have hnum := congrArg (fun numbers => numbers[i]?) (checkDense_eq_ok.1 h).2
  simp only [List.getElem?_map, List.getElem?_eq_getElem hi, Option.map_some,
    List.getElem?_range' hi, Option.some.injEq] at hnum
  omega

/-- **The order in which steps are listed** makes no difference to the check, not even to what it
finds wrong. -/
theorem checkDense_of_perm {steps steps' : List Step} (h : steps.Perm steps') :
    checkDense steps = checkDense steps' := by
  cases hd : checkDense steps' with
  | ok ordered =>
    obtain ⟨hperm, hnum⟩ := checkDense_eq_ok.1 hd
    exact checkDense_eq_ok.2 ⟨hperm.trans h.symm, hnum⟩
  | error e =>
    -- Steps of one number may change places, but the numbers that are reported are the same.
    have hsorted : (Step.inStepOrder steps).Perm (Step.inStepOrder steps') :=
      ((Step.ordered_inStepOrder steps).same.trans h).trans (Step.ordered_inStepOrder steps').same.symm
    have hnumbers : (Step.inStepOrder steps).map (·.number) =
        (Step.inStepOrder steps').map (·.number) :=
      eq_of_perm_of_ascending (hsorted.map _) (pairwise_numbers_inStepOrder steps)
        (pairwise_numbers_inStepOrder steps')
    unfold checkDense at hd ⊢
    simp only at hd ⊢
    rw [hnumbers, hsorted.length_eq]
    split at hd
    · cases hd
    · rename_i hgaps
      rw [if_neg hgaps]
      exact hd

/-- Steps in order are left as they are. -/
theorem checkDense_idempotent {steps ordered : List Step} (h : checkDense steps = .ok ordered) :
    checkDense ordered = .ok ordered :=
  checkDense_eq_ok.2 ⟨List.Perm.refl _, (checkDense_eq_ok.1 h).2⟩

end PromptForms
