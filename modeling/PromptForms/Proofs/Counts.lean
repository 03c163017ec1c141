/-
  PromptForms.Proofs.Counts
  ─────────────────────────
  **ALL NUMBERS OF SUBMISSIONS AGREE.**

  How many submissions a form has is found in four ways: by a join of the forms with the
  numbers of groups, by the numbers of statuses, by a count with a point in time, and by
  reading the list of its submissions part by part.  On every store that can be reached
  the four agree, for forms with and without submissions, for submissions of one time, and
  for parts of every size.

      Store.statsAt     the numbers of a form at one time
      Store.pages       parts of the list of submissions, one after another
      Lists             a list has the chosen submissions once, the newest first

  Main results:
    • total_eq              the total counts the submissions of the form, and its statuses add up to it
    • pages_eq              the parts up to an empty one are the whole list
    • lists_newestFirst     the whole list
    • counts_agree          the four queries
-/
import PromptForms.Proofs.Integrity
import PromptForms.Proofs.Queries

namespace PromptForms

open Calendar (Instant)

/-! ## §1. Submissions of a form. -/

namespace SubmissionRow

/-- The submission is one of the form, and has the status if one is asked for. -/
def Chosen (row : SubmissionRow) (form : Int) (status : Option Status) : Prop :=
  row.formId = form ∧ ∀ asked, status = some asked → row.status = asked

/-- The submission came later than the other one, or at the same time with a greater id. -/
def NewerThan (row other : SubmissionRow) : Prop :=
  other.submittedAt.micros < row.submittedAt.micros ∨
    (row.submittedAt.micros = other.submittedAt.micros ∧ other.id < row.id)

/-- The submission was processed at a point in time or later. -/
def processedFrom (row : SubmissionRow) (micros : Int) : Bool :=
  row.processedAt.any fun processed => micros ≤ processed.micros

/-- The test by which the submissions of a list are chosen. -/
def isChosen (row : SubmissionRow) (form : Int) (status : Option Status) : Bool :=
  row.formId == form && status.all (row.status == ·)

theorem isChosen_iff {row : SubmissionRow} {form : Int} {status : Option Status} :
    row.isChosen form status = true ↔ row.Chosen form status := by
  cases status <;> simp [isChosen, Chosen]

/-- The order in which submissions are listed. -/
def isListedBefore (row other : SubmissionRow) : Bool :=
  other.submittedAt.micros < row.submittedAt.micros ||
    (row.submittedAt.micros == other.submittedAt.micros && other.id ≤ row.id)

theorem isListedBefore_iff {row other : SubmissionRow} : row.isListedBefore other = true ↔
    other.submittedAt.micros < row.submittedAt.micros ∨
      (row.submittedAt.micros = other.submittedAt.micros ∧ other.id ≤ row.id) := by
  simp [isListedBefore]

end SubmissionRow

/-- The rows are the chosen submissions, each of them once, the newest first. -/
structure Lists (s : Store) (form : Int) (status : Option Status) (rows : List SubmissionRow) : Prop where
  once : (rows.map (·.id)).Nodup
  exact : ∀ row, row ∈ rows ↔ row ∈ s.submissions ∧ row.Chosen form status
  ordered : rows.Pairwise SubmissionRow.NewerThan

namespace Store

variable {s : Store} {form : Int} {status : Option Status}

/-- All chosen submissions, the newest first. -/
def newestFirst (s : Store) (form : Int) (status : Option Status) : List SubmissionRow :=
  (s.submissions.filter fun row => row.isChosen form status).mergeSort SubmissionRow.isListedBefore

theorem submissionsOf_eq (skip limit : Nat) :
    s.submissionsOf form status skip limit = Query.page skip limit (s.newestFirst form status) := rfl

theorem perm_newestFirst : (s.newestFirst form status).Perm
    (s.submissions.filter fun row => row.isChosen form status) := List.mergeSort_perm ..

/-- **The whole list** has every chosen submission once, the newest first. -/
theorem lists_newestFirst (hd : (s.submissions.map HasId.id).Nodup) :
    Lists s form status (s.newestFirst form status) := by
  have once : ((s.newestFirst form status).map (·.id)).Nodup := by
    rw [(perm_newestFirst.map _).nodup_iff]
    exact hd.sublist (List.filter_sublist.map _)
  refine ⟨once, fun row => ?_, ?_⟩
  · rw [perm_newestFirst.mem_iff, List.mem_filter, SubmissionRow.isChosen_iff]
  · have sorted : (s.newestFirst form status).Pairwise fun a b => a.isListedBefore b = true := by
      refine List.pairwise_mergeSort (fun a b c => ?_) (fun a b => ?_) _
      · simp only [SubmissionRow.isListedBefore_iff]
        omega
      · simp only [Bool.or_eq_true, SubmissionRow.isListedBefore_iff]
        omega
    -- No two have one id, so the order is strict.
    have distinct : (s.newestFirst form status).Pairwise fun a b => a.id ≠ b.id :=
      List.pairwise_map.1 once
    refine (sorted.and distinct).imp fun {a b} h => ?_
    have before := SubmissionRow.isListedBefore_iff.1 h.1
    have different := h.2
    unfold SubmissionRow.NewerThan
    omega

/-! ## §2. The list part by part. -/

/-- The first parts of the list, one after another. -/
def pages (s : Store) (form : Int) (status : Option Status) (size count : Nat) : List SubmissionRow :=
  (List.range count).flatMap fun k => s.submissionsOf form status (k * size) size

/-- The parts up to an empty one are the whole list. -/
theorem pages_eq {size count : Nat} (hsize : 0 < size)
    (hend : s.submissionsOf form status (count * size) size = []) :
    s.pages form status size count = s.newestFirst form status := by
  rw [submissionsOf_eq, Query.page_eq_nil hsize] at hend
  unfold pages
  simp only [submissionsOf_eq]
  rw [Query.flatMap_page, List.take_of_length_le hend]

/-- There is an empty part. -/
theorem exists_submissionsOf_eq_nil {size : Nat} (hsize : 0 < size) :
    ∃ count, s.submissionsOf form status (count * size) size = [] := by
  refine ⟨(s.newestFirst form status).length, ?_⟩
  rw [submissionsOf_eq, Query.page_eq_nil hsize]
  exact Nat.le_mul_of_pos_right _ hsize

/-! ## §3. The numbers of a form. -/

/-- The number of all submissions, or of those of one status. -/
def Stats.count (stats : Stats) : Option Status → Nat
  | none => stats.total
  | some .pending => stats.pending
  | some .processing => stats.processing
  | some .completed => stats.completed
  | some .failed => stats.failed

/-- The numbers of a form, all of them found at one time. -/
def statsAt (s : Store) (form : Int) (now : Instant) : Stats :=
  .ofCounts (s.statusCounts form) (s.completedSince form now.startOfDay)

theorem total_eq (now : Instant) :
    (s.statsAt form now).total = s.submissions.countP fun row => row.formId == form := by
  rw [List.countP_eq_length_filter]
  exact Query.total_tally _

theorem count_some (now : Instant) (asked : Status) : (s.statsAt form now).count (some asked) =
    (s.submissions.filter fun row => row.formId == form).countP fun row => row.status == asked := by
  rw [← Query.count_tally]
  cases asked <;> rfl

/-- The total and each status count what is listed. -/
theorem length_newestFirst (now : Instant) :
    (s.newestFirst form status).length = (s.statsAt form now).count status := by
  rw [perm_newestFirst.length_eq]
  cases status with
  | none =>
    rw [Stats.count, total_eq, List.countP_eq_length_filter]
    simp [SubmissionRow.isChosen]
  | some asked =>
    rw [count_some, List.countP_eq_length_filter, List.filter_filter]
    simp only [SubmissionRow.isChosen, Option.all_some, Bool.and_comm]

/-- Every submission has one of the four statuses. -/
theorem length_eq_statuses (rows : List SubmissionRow) : rows.length =
    rows.countP (·.status == .pending) + rows.countP (·.status == .processing) +
      rows.countP (·.status == .completed) + rows.countP (·.status == .failed) := by
  induction rows with
  | nil => rfl
  | cons row rows ih =>
    simp only [List.length_cons, List.countP_cons]
    cases row.status <;> simp <;> omega

/-- The numbers of the statuses add up to the total. -/
theorem total_eq_statuses (now : Instant) : (s.statsAt form now).total =
    (s.statsAt form now).pending + (s.statsAt form now).processing +
      (s.statsAt form now).completed + (s.statsAt form now).failed := by
  have status (asked : Status) : ((s.submissions.filter fun row => row.formId == form).countP
      fun row => row.status == asked) = (s.statsAt form now).count (some asked) :=
    (count_some now asked).symm
  rw [total_eq, List.countP_eq_length_filter, length_eq_statuses]
  simp only [status, Stats.count]

/-- The number of today counts, among the completed submissions that are listed, those that were processed
since midnight. -/
theorem completedToday_eq (now : Instant) : (s.statsAt form now).completedToday =
    ((s.newestFirst form (some .completed)).filter
      fun row => row.processedFrom now.startOfDay.micros).length := by
  show s.completedSince form now.startOfDay = _
  unfold completedSince
  rw [(perm_newestFirst.filter _).length_eq, List.filter_filter, List.countP_eq_length_filter]
  congr 2
  funext row
  simp only [SubmissionRow.isChosen, SubmissionRow.processedFrom, Option.all_some, Bool.and_comm]

end Store

/-- The midnight before a point in time is a whole number of days, and less than a day before it. -/
theorem startOfDay_bounds (now : Instant) : Instant.dayMicros ∣ now.startOfDay.micros ∧
    now.startOfDay.micros ≤ now.micros ∧ now.micros < now.startOfDay.micros + Instant.dayMicros := by
  have hday : (0 : Int) < Instant.dayMicros := by decide
  have hdivision := Int.mul_fdiv_add_fmod now.micros Instant.dayMicros
  have hnonneg := Int.fmod_nonneg_of_pos now.micros hday
  have hless := Int.fmod_lt_of_pos now.micros hday
  have hmidnight : now.startOfDay.micros = Instant.dayMicros * now.micros.fdiv Instant.dayMicros :=
    Int.mul_comm ..
  refine ⟨⟨_, hmidnight⟩, ?_, ?_⟩ <;> omega

/-! ## §4. The four queries. -/

/-- A served request finds the numbers by two statements, which see one store. -/
theorem run_stats {b : Backend} {w : World} {sent : List Request} {form : Int} {row : FormRow}
    (hfits : Store.fits form = true) (hrow : w.store.forms.get? form = some row) :
    b.run (Submissions.stats form) w sent = (.ok (w.store.statsAt form w.now), w, sent) := by
  unfold Submissions.stats
  rw [Backend.run_bind_ok (Backend.run_getForm hfits hrow), Backend.run_bind_ok (Backend.run_ask _),
    Backend.run_bind_ok (Backend.run_ask _)]
  rfl

/-- The list of forms has the totals. -/
theorem Store.mem_formsWithCounts {s : Store} {skip limit : Nat} {pair : FormRow × Nat}
    (h : pair ∈ s.formsWithCounts skip limit) :
    pair.1 ∈ s.forms ∧ ∀ now, pair.2 = (s.statsAt pair.1.id now).total := by
  rw [Store.formsWithCounts_eq] at h
  obtain ⟨row, hrow, rfl⟩ := List.mem_map.1 h
  exact ⟨List.mem_mergeSort.1 (Query.mem_of_mem_page hrow), fun now => (Store.total_eq now).symm⟩

/-- As many forms as there are is all of them, with and without submissions. -/
theorem Store.perm_formsWithCounts (s : Store) :
    ((s.formsWithCounts 0 s.forms.length).map (·.1)).Perm s.forms := by
  let newest := s.forms.mergeSort fun a b => b.createdAt.micros ≤ a.createdAt.micros
  have hall : Query.page 0 s.forms.length newest = newest :=
    List.take_of_length_le (Nat.le_of_eq (List.length_mergeSort _))
  rw [Store.formsWithCounts_eq, List.map_map, hall]
  exact (List.Perm.of_eq (List.map_id _)).trans (List.mergeSort_perm ..)

/-- **All numbers of submissions agree.**  In every scene that can be reached from an empty store, also
while runs wait for replies:

  1. The list of forms says of each form how many submissions its numbers have in total.  It has every
     form once, also those without submissions.
  2. The total is the sum of the numbers of the four statuses.
  3. Take parts of any size of the list of submissions of a form, of all or of those of one status, up to
     an empty part; there is one.  Together they have each of these submissions once, the newest first,
     and of one time first the one with the greatest id.  There are as many as the total, or the number
     of the status, says.
  4. The number of today is that of the completed submissions in the list that were processed since the
     midnight before, in universal time.
  5. A request for the numbers of a form finds the numbers of that moment. -/
theorem counts_agree (start : World) (s : Scene) (hempty : start.store = {})
    (hs : Scene.Reaches history { world := start } s) :
    (∀ skip limit, ∀ pair ∈ s.world.store.formsWithCounts skip limit,
      pair.1 ∈ s.world.store.forms ∧
        ∀ now, pair.2 = (s.world.store.statsAt pair.1.id now).total) ∧
    ((s.world.store.formsWithCounts 0 s.world.store.forms.length).map (·.1)).Perm
      s.world.store.forms ∧
    (∀ form now, (s.world.store.statsAt form now).total =
      (s.world.store.statsAt form now).pending + (s.world.store.statsAt form now).processing +
        (s.world.store.statsAt form now).completed + (s.world.store.statsAt form now).failed) ∧
    (∀ form status size, 0 < size →
      (∃ count, s.world.store.submissionsOf form status (count * size) size = []) ∧
      ∀ count, s.world.store.submissionsOf form status (count * size) size = [] →
        Lists s.world.store form status (s.world.store.pages form status size count) ∧
        ∀ now, (s.world.store.pages form status size count).length =
          (s.world.store.statsAt form now).count status) ∧
    (∀ form now, ∃ midnight,
      (Instant.dayMicros ∣ midnight ∧ midnight ≤ now.micros ∧
        now.micros < midnight + Instant.dayMicros) ∧
      ∀ size count, 0 < size →
        s.world.store.submissionsOf form (some .completed) (count * size) size = [] →
        (s.world.store.statsAt form now).completedToday =
          ((s.world.store.pages form (some .completed) size count).filter
            fun row => row.processedFrom midnight).length) ∧
    (∀ (b : Backend) sent form row, Store.fits form = true →
      s.world.store.forms.get? form = some row →
      b.run (Submissions.stats form) s.world sent =
        (.ok (s.world.store.statsAt form s.world.now), s.world, sent)) := by
  have hids : (s.world.store.submissions.map HasId.id).Nodup :=
    (linked_of_reaches hempty hs).submissions
  refine ⟨fun skip limit pair => Store.mem_formsWithCounts, Store.perm_formsWithCounts _,
    fun form now => Store.total_eq_statuses now, ?_, ?_, fun b sent form row => run_stats⟩
  · intro form status size hsize
    refine ⟨Store.exists_submissionsOf_eq_nil hsize, fun count hend => ?_⟩
    rw [Store.pages_eq hsize hend]
    exact ⟨Store.lists_newestFirst hids, Store.length_newestFirst⟩
  · intro form now
    refine ⟨now.startOfDay.micros, startOfDay_bounds now, fun size count hsize hend => ?_⟩
    rw [Store.pages_eq hsize hend]
    exact Store.completedToday_eq now

namespace Counts

/-- A form and three submissions of it, all of one time. -/
def tasks : List Task :=
  let submission := Audit.sending "POST" "/api/submissions/public/poem" "\x7b\x7d"
  [Audit.sending "POST" "/api/forms/" "\x7b\"name\": \"Poem\"\x7d", submission, submission, submission]

def crowd : Scene := tasks.foldl (Scene.serve 9) { world := Audit.start }

end Counts

open Counts in
/-- In parts of two, three submissions fill two parts, and the third one is empty. -/
theorem counts_agree_crowd :
    crowd.world.store.submissionsOf 1 none (2 * 2) 2 = [] ∧
    Lists crowd.world.store 1 none (crowd.world.store.pages 1 none 2 2) ∧
    (crowd.world.store.pages 1 none 2 2).length = 3 := by
  have hreaches : Scene.Reaches history { world := Audit.start } crowd :=
    Scene.Reaches.refl.serveAll 9 tasks fun _ _ => trivial
  have htotal : (crowd.world.store.statsAt 1 crowd.world.now).count none = 3 := by decide +kernel
  have hend : crowd.world.store.submissionsOf 1 none (2 * 2) 2 = [] := by
    rw [Store.submissionsOf_eq, Query.page_eq_nil (by decide),
      Store.length_newestFirst crowd.world.now, htotal]
    decide
  obtain ⟨hlists, hlength⟩ :=
    ((counts_agree _ _ rfl hreaches).2.2.2.1 1 none 2 (by decide)).2 2 hend
  exact ⟨hend, hlists, (hlength _).trans htotal⟩

end PromptForms
