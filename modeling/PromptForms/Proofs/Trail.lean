/-
  PromptForms.Proofs.Trail
  ────────────────────────
  **THE TRAIL OF OUTPUTS.**

  Each attempt of a submission leaves a trail: the outputs of its steps in the order in
  which they were stored.  The trail has no gaps and does not go ahead of the attempt,
  and no output outlives its submission.

      Store.trail, Store.numbers    the outputs of a submission, and their step numbers
      Store.Sound                   what holds of the trails in a store
      SameSubmission, Tidy          a statement leaves a submission alone; it lets runs be

  Main results:
    • `Store.Sound.…` — what each statement on submissions and outputs has to do to keep
      the store sound.
    • `tidy_…` — what requests do to the store lets runs be.
-/
import PromptForms.Proofs.Statements

namespace PromptForms

/-! ## §1. Trails. -/

/-- The numbers from 1 to `k`. -/
def upTo (k : Nat) : List Int := (List.range k).map fun (n : Nat) => (n : Int) + 1

theorem upTo_succ (k : Nat) : upTo (k + 1) = upTo k ++ [(k : Int) + 1] := by
  unfold upTo
  rw [List.range_succ, List.map_append]
  rfl

theorem length_upTo (k : Nat) : (upTo k).length = k := by
  unfold upTo
  rw [List.length_map, List.length_range]

theorem mem_upTo {k : Nat} {n : Int} : n ∈ upTo k ↔ 1 ≤ n ∧ n ≤ k := by
  unfold upTo
  rw [List.mem_map]
  constructor
  · rintro ⟨m, hm, rfl⟩
    rw [List.mem_range] at hm
    omega
  · intro h
    refine ⟨(n - 1).toNat, ?_, ?_⟩
    · rw [List.mem_range]
      omega
    · omega

namespace Store

/-- The outputs of a submission in the order in which they were stored. -/
def trail (s : Store) (id : Int) : List OutputRow := s.outputs.filter fun o => o.submissionId == id

/-- The step numbers of the outputs of one attempt, in the same order. -/
def numbers (s : Store) (id attempt : Int) : List Int :=
  ((s.trail id).filter fun o => o.attempt == attempt).map (·.stepNumber)

/-- How many steps a run of the submission would load. -/
def stepCount (s : Store) (id : Int) : Nat :=
  match s.submissions.get? id with
  | some row => match s.activeSteps row.formId with
    | .ok steps => steps.length
    | .error _ => 0
  | none => 0

theorem mem_trail {s : Store} {id : Int} {o : OutputRow} :
    o ∈ s.trail id ↔ o ∈ s.outputs ∧ o.submissionId = id := by
  unfold trail
  rw [List.mem_filter, beq_iff_eq]

theorem mem_numbers {s : Store} {id attempt n : Int} :
    n ∈ s.numbers id attempt ↔
      ∃ o ∈ s.outputs, o.submissionId = id ∧ o.attempt = attempt ∧ o.stepNumber = n := by
  unfold numbers
  rw [List.mem_map]
  constructor
  · rintro ⟨o, ho, hn⟩
    rw [List.mem_filter, mem_trail, beq_iff_eq] at ho
    exact ⟨o, ho.1.1, ho.1.2, ho.2, hn⟩
  · rintro ⟨o, ho, hid, ha, hn⟩
    refine ⟨o, ?_, hn⟩
    rw [List.mem_filter, mem_trail, beq_iff_eq]
    exact ⟨⟨ho, hid⟩, ha⟩

theorem numbers_eq_of_trail_eq {s s' : Store} {id : Int} (h : s'.trail id = s.trail id)
    (attempt : Int) : s'.numbers id attempt = s.numbers id attempt := by
  unfold numbers
  rw [h]

theorem numbers_eq_nil {s : Store} {id attempt : Int}
    (h : ∀ o ∈ s.outputs, o.submissionId = id → o.attempt ≠ attempt) :
    s.numbers id attempt = [] := by
  rw [List.eq_nil_iff_forall_not_mem]
  intro n hn
  obtain ⟨o, ho, hid, ha, -⟩ := mem_numbers.1 hn
  exact h o ho hid ha

/-! ## §2. Sound stores. -/

/-- Submissions have ids of their own, outputs belong to submissions and not to later attempts,
the trail of each attempt is `1 … k`, and that of a pending attempt is empty. -/
structure Sound (s : Store) : Prop where
  distinct : (s.submissions.map HasId.id).Nodup
  owned : ∀ o ∈ s.outputs,
    ∃ row, s.submissions.get? o.submissionId = some row ∧ o.attempt ≤ row.attempt
  dense : ∀ id attempt, ∃ k, s.numbers id attempt = upTo k
  fresh : ∀ id row, s.submissions.get? id = some row → row.status = .pending →
    s.numbers id row.attempt = []

theorem sound_empty : ({} : Store).Sound :=
  ⟨List.nodup_nil, fun _ h => (List.not_mem_nil h).elim, fun _ _ => ⟨0, rfl⟩, fun _ _ h => nomatch h⟩

/-- Later attempts have no outputs yet. -/
theorem Sound.numbers_later {s : Store} (h : s.Sound) {id attempt : Int} {row : SubmissionRow}
    (hrow : s.submissions.get? id = some row) (ha : row.attempt < attempt) :
    s.numbers id attempt = [] := by
  refine numbers_eq_nil fun o ho hid hoa => ?_
  obtain ⟨row', hrow', hle⟩ := h.owned o ho
  rw [hid, hrow] at hrow'
  cases hrow'
  omega

/-- What happens to forms and pipelines does not matter. -/
theorem Sound.of_eq {s s' : Store} (h : s.Sound) (hsub : s'.submissions = s.submissions)
    (hout : s'.outputs = s.outputs) : s'.Sound := by
  have hnum : ∀ id attempt, s'.numbers id attempt = s.numbers id attempt := by
    intro id attempt
    unfold numbers trail
    rw [hout]
  refine ⟨?_, ?_, fun id attempt => ?_, fun id row hrow hs => ?_⟩
  · rw [hsub]
    exact h.distinct
  · rw [hsub, hout]
    exact h.owned
  · rw [hnum]
    exact h.dense id attempt
  · rw [hsub] at hrow
    rw [hnum]
    exact h.fresh id row hrow hs

/-- A submission is changed: its attempt does not go back, and a pending one has a new trail. -/
theorem Sound.replace {s : Store} (h : s.Sound) {id : Int} {row : SubmissionRow}
    {change : SubmissionRow → SubmissionRow} (hc : ∀ row, (change row).id = row.id)
    (hrow : s.submissions.get? id = some row) (ha : row.attempt ≤ (change row).attempt)
    (hf : (change row).status = .pending → s.numbers id (change row).attempt = []) :
    ({ s with submissions := s.submissions.replace id change } : Store).Sound where
  distinct := by
    show (List.map HasId.id (Table.replace s.submissions id change)).Nodup
    rw [Table.map_id_replace hc]
    exact h.distinct
  owned := by
    intro o ho
    obtain ⟨row', hrow', hle⟩ := h.owned o ho
    show ∃ row, Table.get? (Table.replace s.submissions id change) o.submissionId = some row ∧ _
    rw [Table.get?_replace hc]
    split
    · rename_i hid
      rw [hid, hrow] at hrow'
      cases hrow'
      rw [hrow]
      exact ⟨change row, rfl, Int.le_trans hle ha⟩
    · exact ⟨row', hrow', hle⟩
  dense := h.dense
  fresh := by
    intro id' row' hrow' hs
    show s.numbers id' row'.attempt = []
    rw [show ({ s with submissions := s.submissions.replace id change } : Store).submissions.get? id' =
      Table.get? (Table.replace s.submissions id change) id' from rfl, Table.get?_replace hc] at hrow'
    split at hrow'
    · -- Only the changed submission may have become pending.
      rename_i hid
      rw [hrow] at hrow'
      cases hrow'
      rw [hid]
      exact hf hs
    · exact h.fresh id' row' hrow' hs

/-- A submission is added. -/
theorem Sound.insert {s : Store} (h : s.Sound) {row : SubmissionRow}
    (hid : row.id = s.submissions.nextId) :
    ({ s with submissions := s.submissions ++ [row] } : Store).Sound := by
  have hnone : s.submissions.get? row.id = none := hid ▸ Table.get?_nextId
  have hget : ∀ id, Table.get? (s.submissions ++ [row]) id =
      if id = row.id then some row else s.submissions.get? id := Table.get?_append_nextId hid
  refine ⟨Table.nodup_append_nextId h.distinct hid, fun o ho => ?_, h.dense,
    fun id row' hrow' hs => ?_⟩
  · obtain ⟨row', hrow', hle⟩ := h.owned o ho
    refine ⟨row', ?_, hle⟩
    rw [hget, if_neg]
    · exact hrow'
    · intro he
      rw [he, hnone] at hrow'
      cases hrow'
  · rw [hget] at hrow'
    split at hrow'
    · -- Nothing is left of a deleted submission whose id is used again.
      rename_i he
      refine numbers_eq_nil fun o ho hoid _ => ?_
      obtain ⟨row'', hrow'', -⟩ := h.owned o ho
      rw [hoid, he, hnone] at hrow''
      cases hrow''
    · exact h.fresh id row' hrow' hs

/-- The store with one more output. -/
def withOutput (s : Store) (o : OutputRow) : Store := { s with outputs := s.outputs ++ [o] }

theorem trail_withOutput (s : Store) (o : OutputRow) (id : Int) :
    (s.withOutput o).trail id = if o.submissionId = id then s.trail id ++ [o] else s.trail id := by
  unfold trail withOutput
  rw [List.filter_append]
  by_cases h : o.submissionId = id <;> simp [h]

theorem numbers_withOutput (s : Store) (o : OutputRow) (id attempt : Int) :
    (s.withOutput o).numbers id attempt =
      if o.submissionId = id ∧ o.attempt = attempt then s.numbers id attempt ++ [o.stepNumber]
      else s.numbers id attempt := by
  unfold numbers
  rw [trail_withOutput]
  by_cases h : o.submissionId = id
  · rw [if_pos h, List.filter_append, List.map_append]
    by_cases ha : o.attempt = attempt <;> simp [h, ha]
  · rw [if_neg h, if_neg fun hc => h hc.1]

/-- An output is added to the trail of an attempt that is not pending any more. -/
theorem Sound.withOutput {s : Store} (h : s.Sound) {o : OutputRow} {row : SubmissionRow} {k : Nat}
    (hrow : s.submissions.get? o.submissionId = some row) (hs : row.status ≠ .pending)
    (ha : o.attempt = row.attempt) (hk : s.numbers o.submissionId o.attempt = upTo k)
    (hn : o.stepNumber = k + 1) : (s.withOutput o).Sound where
  distinct := h.distinct
  owned := by
    intro other hother
    rcases List.mem_append.1 hother with hother | hother
    · exact h.owned other hother
    · rw [List.mem_singleton.1 hother]
      exact ⟨row, hrow, Int.le_of_eq ha⟩
  dense := by
    intro id attempt
    rw [numbers_withOutput]
    split
    · rename_i heq
      obtain ⟨rfl, rfl⟩ := heq
      refine ⟨k + 1, ?_⟩
      rw [hk, hn, upTo_succ]
    · exact h.dense id attempt
  fresh := by
    intro id row' hrow' hs'
    rw [numbers_withOutput, if_neg]
    · exact h.fresh id row' hrow' hs'
    · rintro ⟨rfl, -⟩
      have : s.submissions.get? o.submissionId = some row' := hrow'
      rw [hrow] at this
      cases this
      exact hs hs'

/-- No step of an attempt is stored twice. -/
theorem exists_insertOutput {s : Store} {o : OutputRow} {k : Nat} (hid : o.id = s.outputs.nextId)
    (hk : s.numbers o.submissionId o.attempt = upTo k) (hn : o.stepNumber = k + 1) :
    s.insertOutput o = some (s.withOutput o) := by
  -- The numbers of the attempt end before the one of the new output.
  rw [Store.insertOutput_nextId hid, if_neg]
  · rfl
  · rw [List.any_eq_true]
    rintro ⟨other, hother, heq⟩
    simp only [Bool.and_eq_true, beq_iff_eq] at heq
    have hmem : o.stepNumber ∈ s.numbers o.submissionId o.attempt :=
      mem_numbers.2 ⟨other, hother, heq.1.1, heq.1.2, heq.2⟩
    rw [hk, mem_upTo] at hmem
    omega

/-! ## §3. Removing submissions. -/

section

variable {s s' : Store} {p : SubmissionRow → Bool} {gone : Int → Bool}

theorem get?_remove (hp : ∀ row ∈ s.submissions, p row = gone row.id) (id : Int) :
    Table.get? (s.submissions.remove p) id = if gone id then none else s.submissions.get? id := by
  by_cases hg : gone id = true
  · rw [if_pos hg]
    refine Table.get?_remove_eq_none fun row hr hid => (hp row hr).trans ?_
    rw [show row.id = id from hid]
    exact hg
  · rw [if_neg hg]
    refine Table.get?_remove_of_forall fun row hr hid => (hp row hr).trans ?_
    rw [show row.id = id from hid]
    exact Bool.eq_false_iff.2 hg

theorem trail_remove (hout : s'.outputs = s.outputs.remove fun o => gone o.submissionId) (id : Int) :
    s'.trail id = if gone id then [] else s.trail id := by
  unfold trail
  rw [hout]
  unfold Table.remove
  rw [List.filter_filter]
  by_cases hg : gone id = true
  · rw [if_pos hg, List.filter_eq_nil_iff]
    intro o _ h
    simp only [Bool.and_eq_true, beq_iff_eq, Bool.not_eq_true'] at h
    rw [h.1, hg] at h
    cases h.2
  · rw [if_neg hg]
    refine List.filter_congr fun o _ => ?_
    by_cases ho : o.submissionId = id <;> simp [ho, hg]

/-- Submissions are removed with their outputs. -/
theorem Sound.remove (h : s.Sound) (hp : ∀ row ∈ s.submissions, p row = gone row.id)
    (hsub : s'.submissions = s.submissions.remove p)
    (hout : s'.outputs = s.outputs.remove fun o => gone o.submissionId) : s'.Sound := by
  have hget : ∀ id row, s'.submissions.get? id = some row →
      gone id = false ∧ s.submissions.get? id = some row := by
    intro id row hrow
    rw [hsub, get?_remove hp] at hrow
    split at hrow
    · cases hrow
    · rename_i hg
      exact ⟨Bool.eq_false_iff.2 hg, hrow⟩
  have hnum : ∀ id attempt, s'.numbers id attempt = if gone id then [] else s.numbers id attempt := by
    intro id attempt
    unfold numbers
    rw [trail_remove hout]
    split <;> rfl
  refine ⟨?_, fun o ho => ?_, fun id attempt => ?_, fun id row hrow hs => ?_⟩
  · rw [hsub]
    exact Table.nodup_map_remove h.distinct p
  · rw [hout, Table.mem_remove] at ho
    obtain ⟨row, hrow, hle⟩ := h.owned o ho.1
    refine ⟨row, ?_, hle⟩
    rw [hsub, get?_remove hp, if_neg (by simp [ho.2])]
    exact hrow
  · rw [hnum]
    split
    · exact ⟨0, rfl⟩
    · exact h.dense id attempt
  · obtain ⟨hg, hrow'⟩ := hget id row hrow
    rw [hnum, hg]
    exact h.fresh id row hrow' hs

end

end Store

/-! ## §4. Statements that let runs be. -/

/-- A statement leaves a submission and its outputs as they are. -/
structure SameSubmission (id : Int) (s s' : Store) : Prop where
  row : s'.submissions.get? id = s.submissions.get? id
  trail : s'.trail id = s.trail id

/-- Every output stays, unless its submission is gone. -/
def Kept (s s' : Store) : Prop :=
  ∀ o ∈ s.outputs, o ∈ s'.outputs ∨ s'.submissions.get? o.submissionId = none

/-- A statement keeps the store sound, and it leaves alone the submissions that are being processed
and those that are completed afterwards. -/
structure Tidy (s s' : Store) : Prop where
  sound : s'.Sound
  kept : Kept s s'
  processing : ∀ id row, s.submissions.get? id = some row → row.status = .processing →
    SameSubmission id s s'
  completed : ∀ id row, s'.submissions.get? id = some row → row.status = .completed →
    SameSubmission id s s'

theorem SameSubmission.refl (id : Int) (s : Store) : SameSubmission id s s := ⟨rfl, rfl⟩

theorem SameSubmission.trans {id : Int} {s s' s'' : Store} (h : SameSubmission id s s')
    (h' : SameSubmission id s' s'') : SameSubmission id s s'' :=
  ⟨h'.row.trans h.row, h'.trail.trans h.trail⟩

theorem SameSubmission.of_eq {s s' : Store} (hsub : s'.submissions = s.submissions)
    (hout : s'.outputs = s.outputs) (id : Int) : SameSubmission id s s' := by
  refine ⟨by rw [hsub], ?_⟩
  unfold Store.trail
  rw [hout]

theorem tidy_of_eq {s s' : Store} (h : s.Sound) (hsub : s'.submissions = s.submissions)
    (hout : s'.outputs = s.outputs) : Tidy s s' where
  sound := h.of_eq hsub hout
  kept := fun _ ho => .inl (hout ▸ ho)
  processing := fun id _ _ _ => .of_eq hsub hout id
  completed := fun id _ _ _ => .of_eq hsub hout id

/-- A submission is accepted. -/
theorem tidy_insert {s : Store} (h : s.Sound) {row : SubmissionRow}
    (hid : row.id = s.submissions.nextId) (hs : row.status = .pending) :
    Tidy s { s with submissions := s.submissions ++ [row] } := by
  have hnone : s.submissions.get? row.id = none := hid ▸ Table.get?_nextId
  have hget : ∀ id, Table.get? (s.submissions ++ [row]) id =
      if id = row.id then some row else s.submissions.get? id := Table.get?_append_nextId hid
  refine ⟨h.insert hid, fun _ ho => .inl ho, fun id row' hrow' _ => ⟨?_, rfl⟩,
    fun id row' hrow' hs' => ⟨?_, rfl⟩⟩
  · refine (hget id).trans (if_neg fun he => ?_)
    rw [he, hnone] at hrow'
    cases hrow'
  · refine (hget id).trans (if_neg fun he => ?_)
    have hrow : Table.get? (s.submissions ++ [row]) id = some row' := hrow'
    rw [hget, if_pos he] at hrow
    cases hrow
    rw [hs] at hs'
    cases hs'

/-- Submissions are deleted with their outputs, but none that is being processed. -/
theorem tidy_remove {s s' : Store} (h : s.Sound) {p : SubmissionRow → Bool} (gone : Int → Bool)
    (hp : ∀ row ∈ s.submissions, p row = gone row.id)
    (hidle : ∀ row ∈ s.submissions, p row = true → row.status ≠ .processing)
    (hsub : s'.submissions = s.submissions.remove p)
    (hout : s'.outputs = s.outputs.remove fun o => gone o.submissionId) : Tidy s s' := by
  have hsame : ∀ id, gone id = false → SameSubmission id s s' := by
    intro id hg
    refine ⟨?_, ?_⟩
    · rw [hsub, Store.get?_remove hp, if_neg (by simp [hg])]
    · rw [Store.trail_remove hout, if_neg (by simp [hg])]
  refine ⟨h.remove hp hsub hout, fun o ho => ?_, fun id row hrow hs => ?_, fun id row hrow _ => ?_⟩
  · -- An output goes exactly when its submission goes.
    by_cases hg : gone o.submissionId = true
    · right
      rw [hsub, Store.get?_remove hp, if_pos hg]
    · left
      rw [hout, Table.mem_remove]
      exact ⟨ho, Bool.eq_false_iff.2 hg⟩
  · refine hsame id (Bool.eq_false_iff.2 fun hg => hidle row (Table.mem_of_get? hrow) ?_ hs)
    rw [hp row (Table.mem_of_get? hrow), show row.id = id from Table.id_of_get? hrow]
    exact hg
  · refine hsame id (Bool.eq_false_iff.2 fun hg => ?_)
    rw [hsub, Store.get?_remove hp, if_pos hg] at hrow
    cases hrow

/-- A finished submission is made pending again. -/
theorem tidy_restart {s : Store} (h : s.Sound) {id : Int} {row : SubmissionRow}
    (hrow : s.submissions.get? id = some row) (hs : row.status = .completed ∨ row.status = .failed) :
    Tidy s { s with submissions := s.submissions.replace id fun row => row.restarted .pending } := by
  have hreplace : ∀ other, Table.get? (s.submissions.replace id fun row => row.restarted .pending)
      other = if other = id then some (row.restarted .pending) else s.submissions.get? other := by
    intro other
    have := @Table.get?_replace _ _ s.submissions id (fun row => row.restarted .pending)
      (fun _ => rfl) other
    rw [hrow] at this
    exact this
  have hsame : ∀ other, other ≠ id → SameSubmission other s
      { s with submissions := s.submissions.replace id fun row => row.restarted .pending } :=
    fun other hne => ⟨(hreplace other).trans (if_neg hne), rfl⟩
  refine ⟨?_, fun _ ho => .inl ho, fun other row' hrow' hs' => hsame other fun he => ?_,
    fun other row' hrow' hs' => hsame other fun he => ?_⟩
  · -- The next attempt is a later one, so it has no outputs yet.
    refine h.replace (fun _ => rfl) hrow ?_ fun _ => h.numbers_later hrow ?_
    · show row.attempt ≤ row.attempt + 1
      omega
    · show row.attempt < row.attempt + 1
      omega
  · rw [he, hrow] at hrow'
    cases hrow'
    rw [hs'] at hs
    rcases hs with hs | hs <;> cases hs
  · have hnew := hreplace other
    rw [if_pos he] at hnew
    cases hnew.symm.trans hrow'
    cases hs'

end PromptForms
