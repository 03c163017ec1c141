/-
  PromptForms.Proofs.Independence
  ───────────────────────────────
  **RUNS OF DISTINCT SUBMISSIONS.**

  Two runs share the store, the registry of their process and the generator, but a run
  neither looks at nor writes what belongs to another submission.  So two runs of distinct
  submissions may come in either order: the rows in the end are the same, except for times
  and for the ids of outputs, which are counted in the order in which they are stored.

      Circumstances      what happens around runs, whatever the world is
      Store.Matches      two stores are the same up to times and the ids of outputs

  Main results:
    • agree_of_marked    a run leaves alone what runs of other submissions look at
    • matches_of_agree   stores that agree on every submission match
    • runs_independent   either order, and what a single run writes
-/
import PromptForms.Proofs.Footprint
import PromptForms.Proofs.Twins

namespace PromptForms

/-! ## §1. Stores up to times and the ids of outputs. -/

/-- The stores have the same forms and pipelines, the same submissions up to their times, and the
same outputs up to their ids and times. -/
structure Store.Matches (s s' : Store) : Prop where
  forms : s.forms = s'.forms
  pipelines : s.pipelines = s'.pipelines
  submissions : s.submissions.map SubmissionRow.timeless = s'.submissions.map SubmissionRow.timeless
  outputs : (s.outputs.map OutputRow.content).Perm (s'.outputs.map OutputRow.content)

/-- The outputs are the same if those of each submission are. -/
theorem perm_of_trails {s s' : Store}
    (h : ∀ id, (s.trail id).map OutputRow.content = (s'.trail id).map OutputRow.content) :
    (s.outputs.map OutputRow.content).Perm (s'.outputs.map OutputRow.content) := by
  classical
  -- A content says which submission it belongs to, so it occurs as often as in the trail of that one.
  have hcount (s : Store) (o : OutputRow) : (s.outputs.map OutputRow.content).count o =
      ((s.trail o.submissionId).map OutputRow.content).count o := by
    unfold Store.trail List.count
    rw [List.countP_map, List.countP_map, List.countP_filter]
    refine List.countP_congr fun other _ => ?_
    constructor
    · intro heq
      have hid : other.content = o := by simpa using heq
      have hsubmission : other.submissionId = o.submissionId := by
        rw [← hid]
        rfl
      simpa [hsubmission] using heq
    · intro heq
      exact (Bool.and_eq_true_iff.1 heq).1
  rw [List.perm_iff_count]
  intro o
  rw [hcount, hcount, h]

/-- **Stores that agree on every submission** match, if they have the same submissions. -/
theorem matches_of_agree {w w' : World}
    (hids : w.store.submissions.map HasId.id = w'.store.submissions.map HasId.id)
    (h : ∀ id, World.Agree id w w') : w.store.Matches w'.store where
  forms := (h 0).forms
  pipelines := (h 0).pipelines
  submissions := Table.map_eq_of_rowsOf hids fun id => (h id).rows
  outputs := perm_of_trails fun id => (h id).trail

/-! ## §2. What a run leaves alone. -/

theorem World.Agree.symm {id : Int} {w w' : World} (h : World.Agree id w w') :
    World.Agree id w' w :=
  ⟨h.forms.symm, h.pipelines.symm, h.rows.symm, h.trail.symm, h.outage.symm⟩

theorem World.Agree.trans {id : Int} {w w' w'' : World} (h : World.Agree id w w')
    (h' : World.Agree id w' w'') : World.Agree id w w'' :=
  ⟨h.forms.trans h'.forms, h.pipelines.trans h'.pipelines, h.rows.trans h'.rows,
    h.trail.trans h'.trail, h.outage.trans h'.outage⟩

/-- What a run of one submission writes, a run of another one does not look at. -/
theorem agree_of_marked {id other : Int} {w w' : World} (hne : id ≠ other)
    (h : Store.Marked other w.store w'.store) (houtage : w'.outage = w.outage) :
    World.Agree id w w' where
  forms := h.forms.symm
  pipelines := h.pipelines.symm
  rows := by
    obtain ⟨change, hchange, hs⟩ := h.submissions
    rw [hs, Table.rowsOf_replace hchange.id_eq, if_neg hne]
  trail := by
    obtain ⟨added, hadded, hs⟩ := h.outputs
    have hnone : added.filter (fun o => o.submissionId == id) = [] := by
      refine List.filter_eq_nil_iff.2 fun o ho hid => hne ?_
      exact (beq_iff_eq.1 hid).symm.trans (hadded o ho).1
    unfold Store.trail
    rw [hs, List.filter_append, hnone, List.append_nil]
  outage := houtage.symm

/-! ## §3. Circumstances. -/

/-- What happens around runs.  How a request ends depends on the request alone.  A run may be asked
to stop at any moments, between its statements and while it waits; its script says at which ones.
The clock may show any times. -/
structure Circumstances (σ : Type) where
  outcome : Request → Outcome
  waiting : Request → σ → Bool × σ
  between : σ → Bool × σ
  clock : World → σ → Calendar.Instant

namespace Circumstances

variable {σ : Type} (c : Circumstances σ) (r : Runner)

/-- They are the surroundings of a run of the submission. -/
def surroundings (id : Int) : Plan.Surroundings σ where
  answer request w s :=
    let (stop, s') := c.waiting request s
    (c.outcome request, w.later r.process id stop (c.clock w s), s')
  react _ after s :=
    let (stop, s') := c.between s
    (after.later r.process id stop (c.clock after s), s')

/-- The world after a run of the submission by itself. -/
def after (id : Int) (s : σ) (w : World) : World :=
  ((r.run id).run.run (c.surroundings r id) w s).2.1

theorem sparesStore (id : Int) : (c.surroundings r id).SparesStore where
  react := fun _ after s => after.store_later r.process id (c.between s).1 (c.clock after s)
  answer := fun request w s => w.store_later r.process id (c.waiting request s).1 (c.clock w s)

theorem blind (id : Int) : (c.surroundings r id).Blind (drift r id) where
  react := fun _ _ after after' s =>
    ⟨⟨(c.between s).1, c.clock after s, c.clock after' s, rfl, rfl⟩, rfl⟩
  answer := fun request w w' s =>
    ⟨rfl, ⟨(c.waiting request s).1, c.clock w s, c.clock w' s, rfl, rfl⟩, rfl⟩

theorem marked_after (id : Int) (s : σ) (w : World) :
    Store.Marked id w.store (c.after r id s w).store :=
  marked_of_run (c.sparesStore r id) r id w s

/-- After a run, two worlds still agree on what runs of its submission look at. -/
theorem rested_after {id : Int} (s : σ) {w w' : World} (hagree : World.Agree id w w')
    (hslots : (w'.registries r.process).slots = (w.registries r.process).slots) :
    Rested r id w w' (c.after r id s w) (c.after r id s w') := by
  have hactive : (w.registries r.process).isActive id = (w'.registries r.process).isActive id := by
    unfold Registry.isActive
    rw [hslots]
  exact ((inStep_run r hagree hactive).run (c.blind r id) s).1

/-- A run gives its slot back, and there is as much of an outage as before. -/
theorem gaveBack_after (id : Int) (s : σ) (w : World) : GaveBack r w (c.after r id s w) := by
  have hself : World.Agree id w w := ⟨rfl, rfl, rfl, rfl, rfl⟩
  exact (c.rested_after r s hself rfl).left

/-- A run of another submission makes no difference to what a run leaves of its own. -/
theorem agree_after {id other : Int} (hne : id ≠ other) (s s' : σ) (w : World) :
    World.Agree id (c.after r id s w) (c.after r id s (c.after r other s' w)) := by
  have hback := c.gaveBack_after r other s' w
  have hagree := agree_of_marked hne (c.marked_after r other s' w) hback.outage
  exact (c.rested_after r s hagree hback.slots).agree

/-- What belongs to a submission is as it was before the run of another one. -/
theorem agree_before {id other : Int} (hne : id ≠ other) (s : σ) (w : World) :
    World.Agree id w (c.after r other s w) :=
  agree_of_marked hne (c.marked_after r other s w) (c.gaveBack_after r other s w).outage

/-- **Either order** of two runs. -/
theorem matches_either_order {first second : Int} (hne : first ≠ second) (a b : σ) (w : World) :
    (c.after r second b (c.after r first a w)).store.Matches
      (c.after r first a (c.after r second b w)).store := by
  have hids (id : Int) (s : σ) (w : World) :
      (c.after r id s w).store.submissions.map HasId.id = w.store.submissions.map HasId.id :=
    (c.marked_after r id s w).map_id
  apply matches_of_agree
  · rw [hids, hids, hids, hids]
  intro id
  -- Either the last run is that of another submission, or it is the only one that matters.
  by_cases hfirst : id = first
  · subst hfirst
    exact (c.agree_before r hne b _).symm.trans (c.agree_after r hne a b w)
  · by_cases hsecond : id = second
    · subst hsecond
      exact (c.agree_after r hfirst b a w).symm.trans (c.agree_before r hfirst a _)
    · have hone := (c.agree_before r hfirst a w).trans (c.agree_before r hsecond b _)
      have hother := (c.agree_before r hsecond b w).trans (c.agree_before r hfirst a _)
      exact hone.symm.trans hother

end Circumstances

/-! ## §4. The result. -/

/-- **Runs of distinct submissions are independent.**  Let a generator's outcomes depend on nothing
but the prompt and the model, and let the runs of two submissions be asked to stop at any moments
`a` and `b`.  Whatever the store contains, and whatever status the submissions have, both orders of
the two runs lead to the same rows, up to times and the ids of outputs.

Whatever generator there is, and whatever happens as long as nobody else writes to the store, a run
changes nothing but the status, the message and the time of its submission, and adds nothing but
outputs under the current attempt of its submission. -/
theorem runs_independent (r : Runner) (w : World) :
    (∀ (σ : Type) (c : Circumstances σ) (first second : Int) (a b : σ), first ≠ second →
      (c.after r second b (c.after r first a w)).store.Matches
        (c.after r first a (c.after r second b w)).store) ∧
    ∀ (σ : Type) (around : Plan.Surroundings σ) (id : Int) (s : σ), around.SparesStore →
      Store.Marked id w.store ((r.run id).run.run around w s).2.1.store :=
  ⟨fun _ c _ _ a b hne => c.matches_either_order r hne a b w,
    fun _ _ id s hspares => marked_of_run hspares r id w s⟩

namespace Independence

/-- Two pending submissions of a form whose pipeline has one step. -/
def start : World where
  store :=
    { pipelines := [{ id := 1, formId := 1, steps := .arr [Step.toJson ⟨1, "Draft", "Write", none, none⟩]
                      createdAt := ⟨0⟩, updatedAt := ⟨0⟩ }]
      submissions := [{ id := 1, formId := 1, fieldSnapshot := .arr [], submittedAt := ⟨0⟩ },
        { id := 2, formId := 1, fieldSnapshot := .arr [], submittedAt := ⟨0⟩ }] }
  tokens := fun _ => ""

/-- Every request is answered; a run is asked to stop while it waits if its script says so. -/
def circumstances : Circumstances Bool where
  outcome request := .replied ⟨.str request.prompt, .null, .null⟩ (.finite false 3 (-1))
  waiting _ asked := (asked, asked)
  between asked := (false, asked)
  clock w _ := ⟨w.now.micros + 1⟩

def runner : Runner := ⟨0, { defaultModel := "base", timeout := .int 1 }⟩

/-- The first submission is run and then the second one, whose run is asked to stop. -/
def oneWay : World := circumstances.after runner 2 true (circumstances.after runner 1 false start)

/-- The other way round. -/
def otherWay : World := circumstances.after runner 1 false (circumstances.after runner 2 true start)

end Independence

/-- One run succeeds and the other one is stopped, in both orders, although the times differ. -/
theorem runs_independent_poems :
    Independence.oneWay.store.Matches Independence.otherWay.store ∧
      Store.Marked 1 Independence.start.store (Independence.circumstances.after Independence.runner 1
        false Independence.start).store ∧
      (Independence.oneWay.store.submissions.map (·.status)) = [.completed, .failed] ∧
      (Independence.oneWay.store.outputs.map (·.output)) = ["Write"] ∧
      (Independence.oneWay.store.submissions.map (·.processedAt)) ≠
        Independence.otherWay.store.submissions.map (·.processedAt) := by
  have hboth := runs_independent Independence.runner Independence.start
  refine ⟨?_, ?_, by decide +kernel, by decide +kernel, by decide +kernel⟩
  · exact hboth.1 Bool Independence.circumstances 1 2 false true (by decide)
  · exact hboth.2 Bool _ 1 false (Independence.circumstances.sparesStore Independence.runner 1)

end PromptForms
