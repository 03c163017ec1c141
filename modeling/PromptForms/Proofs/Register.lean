/-
  PromptForms.Proofs.Register
  ───────────────────────────
  **WHO HOLDS A SUBMISSION.**

  Tasks on one submission may be interleaved in any way; what ties them together is the
  status in the store, because its test and its change are one statement.  While a thread
  holds the submission the status is `processing`, no other thread holds it, and each
  claim has used up an attempt.

      Deed.Move         what a task may do to the status and the attempt
      Registered        what the log and the status have in common

  Main results:
    • `Registered.stay`, `claim`, `settle`, `restart` — every move keeps them in step.
-/
import PromptForms.Proofs.Scene

namespace PromptForms

/-! ## §1. Status and attempt. -/

/-- The status and the attempt of a submission, if there is one. -/
def World.progress? (w : World) (id : Int) : Option (Status × Int) :=
  (w.store.submissions.get? id).map fun row => (row.status, row.attempt)

theorem World.status?_eq_map_progress? (w : World) (id : Int) :
    w.status? id = (w.progress? id).map (·.1) := by
  unfold World.status? World.progress?
  rw [Option.map_map]
  rfl

theorem World.progress?_eq_some {w : World} {id : Int} {status : Status} {attempt : Int} :
    w.progress? id = some (status, attempt) ↔
      ∃ row, w.store.submissions.get? id = some row ∧ row.status = status ∧ row.attempt = attempt := by
  unfold World.progress?
  rw [Option.map_eq_some_iff]
  simp

theorem World.status?_of_progress? {w : World} {id : Int} {status : Status} {attempt : Int}
    (h : w.progress? id = some (status, attempt)) : w.status? id = some status := by
  rw [World.status?_eq_map_progress?, h]
  rfl

theorem World.progress?_of_get? {w : World} {id : Int} {row : SubmissionRow}
    (h : w.store.submissions.get? id = some row) : w.progress? id = some (row.status, row.attempt) :=
  World.progress?_eq_some.2 ⟨row, h, rfl, rfl⟩

namespace Deed

/-- The submission is made pending under its next attempt. -/
def restarts (id : Int) (d : Deed) : Prop :=
  ∃ status attempt, (status = .completed ∨ status = .failed) ∧
    d.before.progress? id = some (status, attempt) ∧ d.after.progress? id = some (.pending, attempt + 1)

/-- What a task may do to a submission after other deeds: leave it as it is, claim it, end the
attempt if it holds the submission, or start the next attempt. -/
inductive Move (id : Int) (g : Deeds) (d : Deed) : Prop
  | stay (h : d.after.progress? id = d.before.progress? id)
  | claim (target : Status) (attempt : Int) (ht : target = .processing ∨ target = .completed)
      (hb : d.before.progress? id = some (.pending, attempt))
      (ha : d.after.progress? id = some (target, attempt))
  | settle (target : Status) (attempt : Int) (ht : target = .completed ∨ target = .failed)
      (hold : Deeds.Holds id g) (hb : d.before.progress? id = some (.processing, attempt))
      (ha : d.after.progress? id = some (target, attempt))
  | restart (h : d.restarts id)

/-- Only a holder moves a submission out of `processing`. -/
theorem Move.holds_of_leaves {id : Int} {g : Deeds} {d : Deed} (h : d.Move id g)
    (hl : d.leaves id) : Deeds.Holds id g := by
  obtain ⟨hb, ha⟩ := hl
  rw [World.status?_eq_map_progress?] at hb ha
  cases h with
  | stay h =>
    rw [h] at ha
    exact absurd hb ha
  | claim target attempt ht hb' ha' =>
    rw [hb'] at hb
    cases hb
  | settle target attempt ht hold hb' ha' => exact hold
  | restart h =>
    obtain ⟨status, attempt, hs, hb', -⟩ := h
    rw [hb'] at hb
    rcases hs with rfl | rfl <;> cases hb

theorem Move.not_claims_of_stay {id : Int} {d : Deed}
    (h : d.after.progress? id = d.before.progress? id) : ¬d.claims id := by
  refine Deed.not_claims_of_status?_eq ?_
  rw [World.status?_eq_map_progress?, World.status?_eq_map_progress?, h]

end Deed

/-! ## §2. What the log and the status have in common. -/

/-- Who holds the submission and how often it was claimed agree with its status and attempt. -/
structure Registered (id : Int) (log : List Entry) (w : World) (status : Status) (attempt : Int) :
    Prop where
  progress : w.progress? id = some (status, attempt)
  held : ∀ i, Deeds.Holds id (deedsOf i log) → status = .processing
  single : ∀ i j, Deeds.Holds id (deedsOf i log) → Deeds.Holds id (deedsOf j log) → i = j
  claims : ((allDeeds log).countP (·.claims id) : Int) + (if status = .pending then 1 else 0) ≤ attempt

/-- The next deed of a thread. -/
theorem holds_deedsOf_concat {id : Int} {i j : Nat} {log : List Entry} {d : Deed} :
    Deeds.Holds id (deedsOf j (log ++ [⟨i, d⟩])) ↔
      if j = i then d.takes id ∨ (Deeds.Holds id (deedsOf i log) ∧ ¬d.leaves id)
      else Deeds.Holds id (deedsOf j log) := by
  by_cases h : j = i
  · subst h
    rw [if_pos rfl, deedsOf_concat_self, Deeds.holds_concat]
  · rw [if_neg h, deedsOf_concat_of_ne h]

theorem countP_claims_concat {id : Int} {i : Nat} {log : List Entry} {d : Deed} :
    (allDeeds (log ++ [⟨i, d⟩])).countP (·.claims id) =
      (allDeeds log).countP (·.claims id) + if d.claims id then 1 else 0 := by
  rw [allDeeds_concat, List.countP_append]
  by_cases h : d.claims id <;> simp [h]

variable {id : Int} {log : List Entry} {i : Nat} {w w' : World} {status : Status} {attempt : Int}

theorem Registered.stay (h : Registered id log w status attempt)
    (hs : w'.progress? id = w.progress? id) :
    Registered id (log ++ [⟨i, ⟨w, w'⟩⟩]) w' status attempt := by
  have hstatus : w'.status? id = w.status? id := by
    rw [World.status?_eq_map_progress?, World.status?_eq_map_progress?, hs]
  have hholds : ∀ j, Deeds.Holds id (deedsOf j (log ++ [⟨i, ⟨w, w'⟩⟩])) ↔
      Deeds.Holds id (deedsOf j log) := by
    intro j
    by_cases hj : j = i
    · subst hj
      rw [deedsOf_concat_self]
      exact Deeds.holds_concat_of_status?_eq hstatus
    · rw [deedsOf_concat_of_ne hj]
  refine ⟨hs.trans h.progress, fun j hj => h.held j ((hholds j).1 hj),
    fun j k hj hk => h.single j k ((hholds j).1 hj) ((hholds k).1 hk), ?_⟩
  rw [countP_claims_concat, if_neg (Deed.Move.not_claims_of_stay hs)]
  exact h.claims

theorem Registered.claim {target : Status} (h : Registered id log w .pending attempt)
    (ht : target = .processing ∨ target = .completed)
    (ha : w'.progress? id = some (target, attempt)) :
    Registered id (log ++ [⟨i, ⟨w, w'⟩⟩]) w' target attempt := by
  have hb := World.status?_of_progress? h.progress
  -- Nobody holds a pending submission, so the claimant is the only holder, if it is one.
  have hnone : ∀ j, ¬Deeds.Holds id (deedsOf j log) := fun j hj => nomatch h.held j hj
  have honly : ∀ j, Deeds.Holds id (deedsOf j (log ++ [⟨i, ⟨w, w'⟩⟩])) →
      j = i ∧ target = .processing := by
    intro j hj
    rw [holds_deedsOf_concat] at hj
    split at hj
    · rename_i hji
      rcases hj with htakes | hj
      · refine ⟨hji, ?_⟩
        have := htakes.2
        rw [World.status?_of_progress? ha] at this
        exact Option.some.inj this
      · exact absurd hj.1 (hnone i)
    · exact absurd hj (hnone j)
  refine ⟨ha, fun j hj => (honly j hj).2, fun j k hj hk => ?_, ?_⟩
  · rw [(honly j hj).1, (honly k hk).1]
  · have hclaims : Deed.claims id ⟨w, w'⟩ := by
      refine ⟨hb, ?_⟩
      rw [World.status?_of_progress? ha]
      exact ht.imp (congrArg some) (congrArg some)
    have hcount := h.claims
    rw [if_pos rfl] at hcount
    rw [countP_claims_concat, if_pos hclaims, if_neg (by rcases ht with rfl | rfl <;> decide)]
    omega

theorem Registered.settle {target : Status} (h : Registered id log w .processing attempt)
    (ht : target = .completed ∨ target = .failed) (hold : Deeds.Holds id (deedsOf i log))
    (ha : w'.progress? id = some (target, attempt)) :
    Registered id (log ++ [⟨i, ⟨w, w'⟩⟩]) w' target attempt := by
  have hb := World.status?_of_progress? h.progress
  have hafter := World.status?_of_progress? ha
  have hleaves : Deed.leaves id ⟨w, w'⟩ := by
    refine ⟨hb, ?_⟩
    rw [hafter]
    rcases ht with rfl | rfl <;> decide
  have hnotPending : ¬w.status? id = some .pending := by
    rw [hb]
    decide
  -- The holder lets go, and there was no other one.
  have hnone : ∀ j, ¬Deeds.Holds id (deedsOf j (log ++ [⟨i, ⟨w, w'⟩⟩])) := by
    intro j hj
    rw [holds_deedsOf_concat] at hj
    split at hj
    · rcases hj with htakes | hj
      · exact hnotPending htakes.1
      · exact hj.2 hleaves
    · rename_i hji
      exact hji (h.single j i hj hold)
  refine ⟨ha, fun j hj => absurd hj (hnone j), fun j k hj _ => absurd hj (hnone j), ?_⟩
  have hcount := h.claims
  rw [if_neg (by decide)] at hcount
  rw [countP_claims_concat, if_neg fun hc => hnotPending hc.1,
    if_neg (by rcases ht with rfl | rfl <;> decide)]
  omega

theorem Registered.restart (h : Registered id log w status attempt)
    (hs : status = .completed ∨ status = .failed)
    (ha : w'.progress? id = some (.pending, attempt + 1)) :
    Registered id (log ++ [⟨i, ⟨w, w'⟩⟩]) w' .pending (attempt + 1) := by
  have hb := World.status?_of_progress? h.progress
  have hnotPending : ¬w.status? id = some .pending := by
    rw [hb]
    rcases hs with rfl | rfl <;> decide
  -- Nobody held a finished submission, and making it pending takes it for nobody.
  have hnone : ∀ j, ¬Deeds.Holds id (deedsOf j (log ++ [⟨i, ⟨w, w'⟩⟩])) := by
    intro j hj
    have hold : ∀ k, ¬Deeds.Holds id (deedsOf k log) := by
      intro k hk
      have := h.held k hk
      rcases hs with rfl | rfl <;> cases this
    rw [holds_deedsOf_concat] at hj
    split at hj
    · rcases hj with htakes | hj
      · exact hnotPending htakes.1
      · exact hold i hj.1
    · exact hold j hj
  refine ⟨ha, fun j hj => absurd hj (hnone j), fun j k hj _ => absurd hj (hnone j), ?_⟩
  have hcount := h.claims
  rw [if_neg (by rcases hs with rfl | rfl <;> decide)] at hcount
  rw [countP_claims_concat, if_neg fun hc => hnotPending hc.1, if_pos rfl]
  omega

end PromptForms
