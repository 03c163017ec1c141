/-
  PromptForms.Proofs.Queries
  ──────────────────────────
  **COUNTING BY GROUPS, JOINING, AND TAKING PARTS.**

  The numbers of rows of all groups are found in one pass over the rows, and they are put
  beside the rows of another table by a join that keeps every row.  What such a query says
  of one group can be counted from the rows.  The parts of a list that follow one another
  are together the front of the list.

  Main results:
    • count_tally           the number that is found for a group is that of its rows
    • total_tally           the numbers of all groups together count every row once
    • map_outerJoin         a join with numbers puts beside each row the number of its group
    • flatMap_page          parts that follow one another
    • formsWithCounts_eq    the list of forms, with numbers that are counted form by form
-/
import Mathlib.Data.List.Induction
import Mathlib.Data.List.Nodup
import PromptForms.Store.Basic

namespace PromptForms

namespace Query

variable {α β κ : Type}

/-! ## §1. Numbers of groups. -/

section

variable [DecidableEq κ] {group : α → κ} {counts : List (κ × Nat)}

theorem lookup_cons_eq (k other : κ) (n : Nat) :
    ((other, n) :: counts).lookup k = if k = other then some n else counts.lookup k := by
  rw [List.lookup_cons]
  by_cases h : k = other
  · simp [h]
  · simp [h, beq_eq_false_iff_ne.2 h]

theorem lookup_bump (k g : κ) : (bump g counts).lookup k =
    if k = g then some ((counts.lookup g).getD 0 + 1) else counts.lookup k := by
  induction counts with
  | nil => exact lookup_cons_eq k g 1
  | cons first rest ih =>
    obtain ⟨other, n⟩ := first
    unfold bump
    by_cases hother : other = g
    · subst hother
      rw [if_pos rfl]
      simp only [lookup_cons_eq]
      by_cases h : k = other <;> simp [h]
    · rw [if_neg hother, lookup_cons_eq, lookup_cons_eq, lookup_cons_eq, ih, if_neg (Ne.symm hother)]
      by_cases h : k = g
      · subst h
        simp [Ne.symm hother]
      · simp [h]

theorem total_bump (g : κ) : total (bump g counts) = total counts + 1 := by
  induction counts with
  | nil => rfl
  | cons first rest ih =>
    unfold bump
    split
    · simp only [total]
      omega
    · simp only [total, ih]
      omega

theorem mem_keys_bump {k g : κ} (h : k ∈ (bump g counts).map (·.1)) :
    k = g ∨ k ∈ counts.map (·.1) := by
  induction counts with
  | nil => simpa [bump] using h
  | cons first rest ih =>
    unfold bump at h
    split at h
    · exact .inr h
    · rcases List.mem_cons.1 h with h | h
      · exact .inr (h ▸ List.mem_cons_self)
      · exact (ih h).imp_right (List.mem_cons_of_mem _)

/-- A group has one number. -/
theorem nodup_keys_bump {g : κ} (h : (counts.map (·.1)).Nodup) : ((bump g counts).map (·.1)).Nodup := by
  induction counts with
  | nil => simp [bump]
  | cons first rest ih =>
    rw [List.map_cons, List.nodup_cons] at h
    unfold bump
    split
    · exact List.nodup_cons.2 h
    · rename_i hother
      refine List.nodup_cons.2 ⟨fun hmem => ?_, ih h.2⟩
      rcases mem_keys_bump hmem with hsame | hold
      · exact hother hsame
      · exact h.1 hold

/-- The last row is counted last. -/
theorem tally_concat (rows : List α) (row : α) :
    tally group (rows ++ [row]) = bump (group row) (tally group rows) := by
  unfold tally
  rw [List.foldl_append]
  rfl

/-- The number that is found for a group, or none, counts its rows. -/
theorem count_tally (rows : List α) (k : κ) :
    ((tally group rows).lookup k).getD 0 = rows.countP fun row => group row == k := by
  induction rows using List.reverseRecOn with
  | nil => rfl
  | append_singleton rows row ih =>
    rw [tally_concat, lookup_bump, List.countP_append, ← ih]
    by_cases h : k = group row
    · simp [h]
    · simp [h, Ne.symm h]

/-- The numbers of all groups count every row once. -/
theorem total_tally (rows : List α) : total (tally group rows) = rows.length := by
  induction rows using List.reverseRecOn with
  | nil => rfl
  | append_singleton rows row ih => rw [tally_concat, total_bump, ih, List.length_append, List.length_singleton]

theorem nodup_keys_tally (rows : List α) : ((tally group rows).map (·.1)).Nodup := by
  induction rows using List.reverseRecOn with
  | nil => exact List.nodup_nil
  | append_singleton rows row ih =>
    rw [tally_concat]
    exact nodup_keys_bump ih

/-! ## §2. Joins. -/

/-- What is found under a key is all there is under it. -/
theorem filter_key (h : (counts.map (·.1)).Nodup) (k : κ) :
    counts.filter (fun count => count.1 == k) = ((counts.lookup k).map fun n => (k, n)).toList := by
  induction counts with
  | nil => rfl
  | cons first rest ih =>
    obtain ⟨other, n⟩ := first
    rw [List.map_cons, List.nodup_cons] at h
    rw [List.filter_cons, ih h.2, lookup_cons_eq]
    by_cases hother : other = k
    · subst hother
      have hnone : rest.lookup other = none := by
        rw [List.lookup_eq_none_iff]
        intro count hcount
        rw [bne_iff_ne]
        intro hsame
        exact h.1 (List.mem_map.2 ⟨count, hcount, hsame.symm⟩)
      simp [hnone]
    · simp [hother, Ne.symm hother]

/-- A join with numbers of groups puts beside each item the number of its group, or zero. -/
theorem map_outerJoin (h : (counts.map (·.1)).Nodup) (key : β → κ) (left : List β) :
    ((outerJoin (fun b count => count.1 == key b) left counts).map fun pair =>
      (pair.1, (pair.2.map (·.2)).getD 0)) =
        left.map fun b => (b, (counts.lookup (key b)).getD 0) := by
  unfold outerJoin
  induction left with
  | nil => rfl
  | cons b left ih =>
    rw [List.flatMap_cons, List.map_append, ih, List.map_cons, filter_key h]
    cases counts.lookup (key b) <;> rfl

end

/-! ## §3. Parts of a list. -/

section

variable {items : List α} {skip limit : Nat}

theorem page_map (f : α → β) : page skip limit (items.map f) = (page skip limit items).map f := by
  unfold page
  rw [List.map_take, List.map_drop]

theorem mem_of_mem_page {a : α} (h : a ∈ page skip limit items) : a ∈ items :=
  List.mem_of_mem_drop (List.mem_of_mem_take h)

/-- A part is empty only behind the end. -/
theorem page_eq_nil (hlimit : 0 < limit) : page skip limit items = [] ↔ items.length ≤ skip := by
  rw [page, List.take_eq_nil_iff, List.drop_eq_nil_iff]
  omega

/-- Parts of one size that follow one another are the front of the list. -/
theorem flatMap_page (items : List α) (size n : Nat) :
    ((List.range n).flatMap fun k => page (k * size) size items) = items.take (n * size) := by
  induction n with
  | zero => simp
  | succ n ih =>
    rw [List.range_succ, List.flatMap_append, ih, List.flatMap_singleton, Nat.succ_mul, List.take_add]
    rfl

end

end Query

/-! ## §4. The list of forms. -/

open Query

/-- The list of forms says of each form how many submissions name it. -/
theorem Store.formsWithCounts_eq (s : Store) (skip limit : Nat) :
    s.formsWithCounts skip limit =
      (page skip limit (s.forms.mergeSort fun a b => b.createdAt.micros ≤ a.createdAt.micros)).map
        fun f => (f, s.submissions.countP fun r => r.formId == f.id) := by
  have keys : ((tally SubmissionRow.formId s.submissions).map (·.1)).Nodup :=
    nodup_keys_tally s.submissions
  have joined := map_outerJoin keys FormRow.id s.forms
  simp only [count_tally] at joined
  unfold Store.formsWithCounts
  simp only [joined]
  rw [← page_map, ← List.map_mergeSort (r := fun a b : FormRow =>
    decide (b.createdAt.micros ≤ a.createdAt.micros)) fun a _ b _ => rfl]

end PromptForms
