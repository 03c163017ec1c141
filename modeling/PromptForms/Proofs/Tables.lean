/-
  PromptForms.Proofs.Tables
  ─────────────────────────
  **ROWS BY THEIR IDS.**

  What the operations on a table do to its view `get?`, the row of an id, and to the
  rows as a list.  A new row has a greater id than all others, so it comes last.

      get?_replace, get?_remove, get?_insert    the row of an id after an operation
      filter_replace, filter_eq_singleton       rows that are known by something else
      mem_insert, forall_mem_replace            all rows after an operation
      map_replace, nodup_append_nextId          the ids, and what else rows are known by
      insert_nextId                             a new row is the last one
      rowsOf, map_eq_of_rowsOf                  all rows of an id, and the table from them
-/
import PromptForms.Store.Table

namespace PromptForms.Table

variable {ρ : Type} [HasId ρ] {rows : Table ρ} {row : ρ} {id : Int}

/-! ## §1. The row of an id. -/

theorem get?_cons (first : ρ) (rest : Table ρ) (id : Int) :
    get? (first :: rest) id = if HasId.id first = id then some first else get? rest id := by
  unfold get?
  rw [List.find?_cons]
  by_cases h : HasId.id first = id
  · simp [h]
  · simp [h, beq_eq_false_iff_ne.2 h]

theorem id_of_get? (h : rows.get? id = some row) : HasId.id row = id := by
  unfold get? at h
  simpa using List.find?_some h

theorem mem_of_get? (h : rows.get? id = some row) : row ∈ rows := List.mem_of_find?_eq_some h

theorem get?_eq_none : rows.get? id = none ↔ ∀ row ∈ rows, HasId.id row ≠ id := by
  unfold get?
  simp

/-- Some row of an id is the row of that id. -/
theorem exists_get? (h : ∃ row ∈ rows, HasId.id row = id) : ∃ row, rows.get? id = some row := by
  rw [← Option.isSome_iff_exists, ← Option.ne_none_iff_isSome]
  intro hnone
  obtain ⟨row, hrow, hid⟩ := h
  exact get?_eq_none.1 hnone row hrow hid

/-- If no two rows have the same id, each row is the one of its id. -/
theorem get?_of_mem (hd : (rows.map HasId.id).Nodup) (h : row ∈ rows) :
    rows.get? (HasId.id row) = some row := by
  induction rows with
  | nil => simp at h
  | cons first rest ih =>
    rw [List.map_cons, List.nodup_cons] at hd
    rw [get?_cons]
    rcases List.mem_cons.1 h with rfl | h
    · rw [if_pos rfl]
    · have hne : HasId.id first ≠ HasId.id row := fun e => hd.1 (e ▸ List.mem_map_of_mem h)
      rw [if_neg hne]
      exact ih hd.2 h

omit [HasId ρ] in
/-- If no two rows have the same key, each row is the only one of its key. -/
theorem filter_eq_singleton {κ : Type} [DecidableEq κ] {key : ρ → κ} (hd : (rows.map key).Nodup)
    (h : row ∈ rows) : (rows.filter fun other => key other == key row) = [row] := by
  induction rows with
  | nil => cases h
  | cons first rest ih =>
    rw [List.map_cons, List.nodup_cons] at hd
    rw [List.filter_cons]
    rcases List.mem_cons.1 h with rfl | hlater
    · rw [if_pos (beq_self_eq_true _), List.filter_eq_nil_iff.2 fun other hother heq => ?_]
      exact hd.1 (List.mem_map.2 ⟨other, hother, beq_iff_eq.1 heq⟩)
    · have hne : key first ≠ key row := fun heq => hd.1 (heq ▸ List.mem_map_of_mem hlater)
      rw [if_neg fun heq => hne (beq_iff_eq.1 heq)]
      exact ih hd.2 hlater

/-- All rows of an id; in a table of the store there is at most one. -/
def rowsOf (rows : Table ρ) (id : Int) : List ρ := rows.filter fun row => HasId.id row == id

theorem get?_eq_head? : rows.get? id = (rows.rowsOf id).head? := List.head?_filter.symm

theorem rowsOf_cons (first : ρ) (rest : Table ρ) (id : Int) :
    rowsOf (first :: rest) id =
      if HasId.id first = id then first :: rowsOf rest id else rowsOf rest id := by
  unfold rowsOf
  rw [List.filter_cons]
  by_cases h : HasId.id first = id <;> simp [h]

/-- Two tables with the same ids in the same order, and with the same rows for each id as far as `f`
shows them, are the same as far as `f` shows them. -/
theorem map_eq_of_rowsOf {β : Type} {f : ρ → β} {rows' : Table ρ}
    (hids : rows.map HasId.id = rows'.map HasId.id)
    (h : ∀ id, (rows.rowsOf id).map f = (rows'.rowsOf id).map f) : rows.map f = rows'.map f := by
  induction rows generalizing rows' with
  | nil =>
    have hnil : rows' = [] := by simpa using hids.symm
    rw [hnil]
  | cons first rest ih =>
    cases rows' with
    | nil => simp at hids
    | cons first' rest' =>
      obtain ⟨hid, hrest⟩ := List.cons.inj hids
      have hfirst := h (HasId.id first)
      rw [rowsOf_cons, rowsOf_cons, if_pos rfl, if_pos hid.symm] at hfirst
      -- The first rows go with each other, so what is left for each id goes with what is left.
      rw [List.map_cons, List.map_cons, (List.cons.inj hfirst).1, ih hrest]
      intro id
      have hall := h id
      rw [rowsOf_cons, rowsOf_cons, ← hid] at hall
      split at hall
      · exact (List.cons.inj hall).2
      · exact hall

/-! ## §2. Changing and removing rows. -/

theorem rowsOf_replace {change : ρ → ρ} (hc : ∀ row, HasId.id (change row) = HasId.id row)
    (other : Int) :
    (rows.replace id change).rowsOf other =
      if other = id then (rows.rowsOf id).map change else rows.rowsOf other := by
  unfold rowsOf replace
  rw [List.filter_map]
  have hids : (fun row => HasId.id row == other) ∘
      (fun row => if HasId.id row == id then change row else row) =
        fun row => HasId.id row == other := by
    funext row
    show (HasId.id (if HasId.id row == id then change row else row) == other) = _
    split
    · rw [hc]
    · rfl
  rw [hids]
  by_cases ho : other = id
  · subst ho
    rw [if_pos rfl]
    refine List.map_congr_left fun row hrow => if_pos ?_
    exact (List.mem_filter.1 hrow).2
  · rw [if_neg ho]
    refine (List.map_congr_left fun row hrow => ?_).trans (List.map_id _)
    have hid : HasId.id row = other := beq_iff_eq.1 (List.mem_filter.1 hrow).2
    exact if_neg fun h => ho (hid.symm.trans (beq_iff_eq.1 h))

theorem get?_replace {change : ρ → ρ} (hc : ∀ row, HasId.id (change row) = HasId.id row)
    (other : Int) :
    (rows.replace id change).get? other =
      if other = id then (rows.get? id).map change else rows.get? other := by
  rw [get?_eq_head?, rowsOf_replace hc]
  split
  · rw [List.head?_map, get?_eq_head?]
  · rw [get?_eq_head?]

/-- A row is written in place of another one, and is found there. -/
theorem get?_replace_const {new : ρ} (hid : HasId.id new = id) (other : Int) :
    (rows.replace id fun _ => new).get? other =
      if other = id then (rows.get? id).map fun _ => new else rows.get? other := by
  -- Only rows of this id are changed, so the change may leave all others as they are.
  have hsame : (rows.replace id fun _ => new) =
      rows.replace id fun row => if HasId.id row == id then new else row := by
    refine List.map_congr_left fun row _ => ?_
    split
    · exact (if_pos ‹_›).symm
    · rfl
  rw [hsame, get?_replace fun row => ?_]
  · split
    · refine Option.map_congr fun row hrow => ?_
      rw [if_pos (beq_iff_eq.2 (id_of_get? hrow))]
    · rfl
  · split
    · rename_i hrow
      exact hid.trans (beq_iff_eq.1 hrow).symm
    · rfl

/-- What a change keeps of the rows of an id, it keeps of all rows. -/
theorem map_replace {β : Type} {f : ρ → β} {change : ρ → ρ}
    (h : ∀ row ∈ rows, HasId.id row = id → f (change row) = f row) :
    (rows.replace id change).map f = rows.map f := by
  unfold replace
  rw [List.map_map]
  apply List.map_congr_left
  intro row hrow
  show f (if HasId.id row == id then change row else row) = f row
  split
  · rename_i hid
    exact h row hrow (beq_iff_eq.1 hid)
  · rfl

/-- Rows that pass a test are left alone if no row of the id does, neither before nor after. -/
theorem filter_replace {test : ρ → Bool} {change : ρ → ρ}
    (h : ∀ row ∈ rows, HasId.id row = id → test row = false ∧ test (change row) = false) :
    (rows.replace id change).filter test = rows.filter test := by
  unfold replace
  induction rows with
  | nil => rfl
  | cons first rest ih =>
    have hrest := ih fun row hrow => h row (List.mem_cons_of_mem _ hrow)
    rw [List.map_cons, List.filter_cons, List.filter_cons, hrest]
    split
    · rename_i hid
      obtain ⟨hbefore, hafter⟩ := h first List.mem_cons_self (beq_iff_eq.1 hid)
      rw [hbefore, hafter, if_neg Bool.false_ne_true, if_neg Bool.false_ne_true]
    · rfl

theorem map_id_replace {change : ρ → ρ} (hc : ∀ row, HasId.id (change row) = HasId.id row) :
    (rows.replace id change).map HasId.id = rows.map HasId.id :=
  map_replace fun row _ _ => hc row

/-- A row is written in place of another one with the same id. -/
theorem map_id_replace_const {new : ρ} (hid : HasId.id new = id) :
    (rows.replace id fun _ => new).map HasId.id = rows.map HasId.id :=
  map_replace fun _ _ hrow => hid.trans hrow.symm

theorem replace_replace {first second : ρ → ρ}
    (hc : ∀ row, HasId.id (first row) = HasId.id row) :
    (rows.replace id first).replace id second = rows.replace id fun row => second (first row) := by
  unfold replace
  rw [List.map_map]
  apply List.map_congr_left
  intro row _
  by_cases h : HasId.id row = id <;> simp [h, hc]

/-- What holds of all rows still does if the change keeps it. -/
theorem forall_mem_replace {P : ρ → Prop} {change : ρ → ρ} (h : ∀ row ∈ rows, P row)
    (hc : ∀ row ∈ rows, HasId.id row = id → P row → P (change row)) :
    ∀ row ∈ rows.replace id change, P row := by
  intro new hnew
  unfold replace at hnew
  obtain ⟨row, hrow, rfl⟩ := List.mem_map.1 hnew
  split
  · rename_i hid
    exact hc row hrow (beq_iff_eq.1 hid) (h row hrow)
  · exact h row hrow

omit [HasId ρ] in
theorem mem_remove {test : ρ → Bool} : row ∈ rows.remove test ↔ row ∈ rows ∧ test row = false := by
  unfold remove
  simp

omit [HasId ρ] in
theorem nodup_map_remove {β : Type} {f : ρ → β} (h : (rows.map f).Nodup) (test : ρ → Bool) :
    ((rows.remove test).map f).Nodup := h.sublist (List.filter_sublist.map f)

theorem get?_remove_of_forall {test : ρ → Bool}
    (h : ∀ row ∈ rows, HasId.id row = id → test row = false) :
    (rows.remove test).get? id = rows.get? id := by
  induction rows with
  | nil => rfl
  | cons first rest ih =>
    have hrest := ih fun row hr => h row (List.mem_cons_of_mem _ hr)
    unfold remove at hrest ⊢
    rw [List.filter_cons, get?_cons]
    by_cases hf : HasId.id first = id
    · have := h first List.mem_cons_self hf
      simp [this, get?_cons, hf]
    · rw [if_neg hf]
      split
      · rw [get?_cons, if_neg hf]
        exact hrest
      · exact hrest

theorem get?_remove_eq_none {test : ρ → Bool}
    (h : ∀ row ∈ rows, HasId.id row = id → test row = true) : (rows.remove test).get? id = none := by
  rw [get?_eq_none]
  intro row hr hid
  rw [mem_remove] at hr
  rw [h row hr.1 hid] at hr
  cases hr.2

/-- If no two rows have the same id, the row of an id is left or it is not. -/
theorem get?_remove (hd : (rows.map HasId.id).Nodup) (test : ρ → Bool) (id : Int) :
    (rows.remove test).get? id = (rows.get? id).filter fun row => !test row := by
  have only {row other : ρ} (hrow : rows.get? id = some row) (hother : other ∈ rows)
      (hid : HasId.id other = id) : other = row := by
    have hget := get?_of_mem hd hother
    rw [hid, hrow] at hget
    exact (Option.some.inj hget).symm
  cases hrow : rows.get? id with
  | none => exact get?_eq_none.2 fun row hmem => get?_eq_none.1 hrow row (mem_remove.1 hmem).1
  | some row =>
    cases htest : test row with
    | true =>
      rw [get?_remove_eq_none fun other hother hid => only hrow hother hid ▸ htest]
      exact (Option.filter_some_neg (by simp [htest])).symm
    | false =>
      rw [get?_remove_of_forall fun other hother hid => only hrow hother hid ▸ htest, hrow]
      exact (Option.filter_some_pos (by simp [htest])).symm

/-! ## §3. New rows. -/

theorem le_foldl_max (rows : Table ρ) (n : Int) :
    n ≤ rows.foldl (fun n row => max n (HasId.id row)) n ∧
      ∀ row ∈ rows, HasId.id row ≤ rows.foldl (fun n row => max n (HasId.id row)) n := by
  induction rows generalizing n with
  | nil => simp
  | cons first rest ih =>
    obtain ⟨h1, h2⟩ := ih (max n (HasId.id first))
    rw [List.foldl_cons]
    refine ⟨by omega, fun row hr => ?_⟩
    rcases List.mem_cons.1 hr with rfl | hr
    · omega
    · exact h2 row hr

/-- The next id is greater than all ids. -/
theorem lt_nextId (h : row ∈ rows) : HasId.id row < rows.nextId := by
  have := (le_foldl_max rows 0).2 row h
  unfold nextId
  omega

theorem insert_eq_append (h : ∀ other ∈ rows, HasId.id other < HasId.id row) :
    rows.insert row = rows ++ [row] := by
  induction rows with
  | nil => rfl
  | cons first rest ih =>
    have hf := h first List.mem_cons_self
    unfold insert
    rw [if_neg (by omega), ih fun other ho => h other (List.mem_cons_of_mem _ ho)]
    rfl

theorem mem_insert {new : ρ} : row ∈ rows.insert new ↔ row = new ∨ row ∈ rows := by
  induction rows with
  | nil => exact List.mem_cons
  | cons first rest ih =>
    unfold insert
    split
    · exact List.mem_cons
    · rw [List.mem_cons, List.mem_cons, ih]
      exact or_left_comm

/-- A new row comes last. -/
theorem insert_nextId (h : HasId.id row = rows.nextId) : rows.insert row = rows ++ [row] :=
  insert_eq_append fun _ ho => h ▸ lt_nextId ho

omit [HasId ρ] in
theorem nodup_map_append {β : Type} {f : ρ → β} (hd : (rows.map f).Nodup)
    (h : ∀ other ∈ rows, f other ≠ f row) : (List.map f (rows ++ [row])).Nodup := by
  rw [List.map_append, List.nodup_append]
  refine ⟨hd, by simp, fun a ha b hb => ?_⟩
  obtain ⟨other, hother, rfl⟩ := List.mem_map.1 ha
  rw [List.mem_singleton.1 hb]
  exact h other hother

theorem nodup_append_nextId (hd : (rows.map HasId.id).Nodup) (h : HasId.id row = rows.nextId) :
    (List.map HasId.id (rows ++ [row])).Nodup :=
  nodup_map_append hd fun _ hother => Int.ne_of_lt (h ▸ lt_nextId hother)

theorem nextId_append_singleton (h : HasId.id row = rows.nextId) :
    Table.nextId (rows ++ [row]) = rows.nextId + 1 := by
  unfold nextId at h ⊢
  rw [List.foldl_append, List.foldl_cons, List.foldl_nil, h]
  omega

theorem get?_append_singleton (h : rows.get? (HasId.id row) = none) (other : Int) :
    Table.get? (rows ++ [row]) other = if other = HasId.id row then some row else rows.get? other := by
  unfold get? at h ⊢
  rw [List.find?_append]
  by_cases ho : other = HasId.id row
  · subst ho
    simp [h]
  · have : HasId.id row ≠ other := fun e => ho e.symm
    simp [ho, this]

theorem get?_nextId : rows.get? rows.nextId = none :=
  get?_eq_none.2 fun _ hr => Int.ne_of_lt (lt_nextId hr)

theorem get?_append_nextId (h : HasId.id row = rows.nextId) (other : Int) :
    Table.get? (rows ++ [row]) other = if other = HasId.id row then some row else rows.get? other :=
  get?_append_singleton (h ▸ get?_nextId) other

end PromptForms.Table
