/-
  PromptForms.Proofs.Triggers
  ───────────────────────────
  **BOTH TRIGGERS DO THE SAME.**

  An inline run goes with the answer of its request, and it is lost if there is none.  A
  message asks for its run whatever becomes of the answer, and a failure stays in its
  result.  Nobody can tell the difference: what a request stores is good enough to be
  shown, so a request that leaves a run is answered, and either way the run does the same
  to the world.

      Store.Documented          the data of every submission is an object
      Surroundings.Orderly      what happens while a reply is awaited is made of changes
      Surroundings.host         requests, one after the other, under a trigger

  Main results:
    • Change.documented         every kind of change keeps the data of submissions in order
    • answered_of_dispatched    a request that leaves a run is answered
    • run_serve                 one request under either trigger
    • triggers_agree            all requests, by induction on them
-/
import PromptForms.Proofs.Changes
import PromptForms.Proofs.Overlooking
import PromptForms.Proofs.Served
import PromptForms.Web.Dispatch

namespace PromptForms

open Relation (ReflTransGen)

/-! ## §1. The data of submissions. -/

/-- The data of a submission is an object, and so it can be shown. -/
def SubmissionRow.Documented (row : SubmissionRow) : Prop := ∃ members, row.data = .obj members

/-- The data of every submission is an object. -/
def Store.Documented (s : Store) : Prop := ∀ row ∈ s.submissions, row.Documented

namespace Store.Documented

variable {s s' : Store}

theorem empty : Store.Documented {} := fun _ h => absurd h List.not_mem_nil

theorem replaced (h : s.Documented) (id : Int) {change : SubmissionRow → SubmissionRow}
    (hc : ∀ row, (change row).data = row.data) :
    Store.Documented { s with submissions := s.submissions.replace id change } := by
  refine Table.forall_mem_replace h fun row _ _ hrow => ?_
  unfold SubmissionRow.Documented
  rw [hc]
  exact hrow

/-- A deletion leaves only rows that there were before. -/
theorem removed (h : s.Documented) {submissions : Table SubmissionRow} {outputs : Table OutputRow}
    (hsub : ∀ row ∈ submissions, row ∈ s.submissions) :
    Store.Documented { s with submissions, outputs } := fun row hrow => h row (hsub row hrow)

theorem submitted (h : s.Documented) {row : SubmissionRow} (hrow : row.Documented)
    (hinsert : s.insertSubmission row = some s') : s'.Documented := by
  cases Store.eq_of_insertSubmission hinsert
  intro other hother
  rcases Table.mem_insert.1 hother with rfl | hold
  · exact hrow
  · exact h other hold

theorem of_get? (h : s.Documented) {id : Int} {row : SubmissionRow}
    (hrow : s.submissions.get? id = some row) : row.Documented := h row (Table.mem_of_get? hrow)

end Store.Documented

/-- **A change** keeps the data of submissions in order. -/
theorem Change.documented {s s' : Store} (hs : Change s s') (h : s.Documented) : s'.Documented := by
  cases hs with
  | kept => exact h
  | formCreated draft token now hread hids hinsert =>
    cases Store.eq_of_insertForm hinsert
    exact h
  | pipelineCreated form draft now hread hbears hnone hinsert =>
    cases Store.eq_of_insertPipeline hinsert
    exact h
  | outputStored row result now hinsert =>
    cases Store.eq_of_insertOutput hinsert
    exact h
  | formUpdated | pipelineReplaced | pipelineDeleted => exact h
  | formDeleted form hidle => exact fun row hrow => h row (Table.mem_remove.1 hrow).1
  | submissionDeleted id hrow hidle => exact fun row hrow => h row (Table.mem_remove.1 hrow).1
  | submitted token data sender now hform hactive hfields hvalues hinsert =>
    exact h.submitted ⟨_, rfl⟩ hinsert
  | moved id target now => exact h.replaced id fun _ => rfl
  | settled id now => exact h.replaced id fun _ => rfl
  | misnumbered id form now => exact h.replaced id fun _ => rfl
  | restarted id => exact h.replaced id fun _ => rfl

theorem documented_of_changes {s s' : Store} (hs : ReflTransGen Change s s')
    (h : s.Documented) : s'.Documented := by
  induction hs with
  | refl => exact h
  | tail _ hchange ih => exact hchange.documented ih

/-! ## §2. Changes in surroundings. -/

variable {α β σ : Type}

/-- Nobody else writes between two statements, and what happens to the store while a reply is awaited
is made of changes.  The clock and the active runs are free. -/
structure Plan.Surroundings.Orderly (around : Plan.Surroundings σ) : Prop where
  react : ∀ before after s, (around.react before after s).1.store = after.store
  answer : ∀ request w s, ReflTransGen Change w.store (around.answer request w s).2.1.store

namespace Changes

variable {around : Plan.Surroundings σ}

/-- A plan whose statements are changes leads to a store that has come about by changes. -/
theorem reaches_of_meets (horderly : around.Orderly) {Q : α → Deeds → World → Prop} (t : Plan α)
    (g : Deeds) (w : World) (s : σ) (h : changing.Meets t Q g w) :
    ReflTransGen Change w.store (t.run around w s).2.1.store := by
  -- On the plan; each statement is one more change, and each reply some more.
  induction t generalizing g w s with
  | done a => exact .refl
  | act access update next ih =>
    have hreact := horderly.react w (update w) s
    have hrest := ih w _ _ (around.react w (update w) s).2 (h.2 _ hreact)
    rw [hreact] at hrest
    exact .head h.1 hrest
  | generate request next ih =>
    exact (horderly.answer request w s).trans
      (ih _ g _ (around.answer request w s).2.2 (h _ _ trivial))

theorem run_of_meets (horderly : around.Orderly) {Q : α → Deeds → World → Prop} {t : Plan α}
    {w : World} (s : σ) (h : changing.Meets t Q [] w) :
    ∃ g, Q (t.run around w s).1 g (t.run around w s).2.1 :=
  ⟨_, Contract.Meets.run (fun _ before after s => horderly.react before after s)
    (fun _ _ _ _ => trivial) t [] w s h⟩

/-- A statement that is a change and finds something. -/
theorem finds_change {A : Store → Prop} {B : α → Store → Prop}
    {f : World → Except Failure (α × World)}
    (hf : ∀ w a w', A w.store → f w = .ok (a, w') → Change w.store w'.store ∧ B a w'.store) :
    Finds A (Job.statement f) B := by
  refine Contract.triple_statement fun g w h => ?_
  cases hw : f w with
  | ok pair =>
    obtain ⟨hchange, hB⟩ := hf w pair.1 pair.2 h hw
    refine ⟨hchange, fun w' hcalm a ha => ?_⟩
    cases ha
    rw [show w'.store = _ from hcalm]
    exact hB
  | error e => exact ⟨.kept, fun _ _ a ha => nomatch ha⟩

/-! ## §3. Requests that leave runs. -/

/-- A submission that has just been accepted can be shown. -/
theorem finds_submit (token : String) (data : Members) (sender : Submissions.Sender) :
    Finds Ever (Submissions.submit token data sender) fun row _ => row.Documented := by
  unfold Submissions.submit
  apply finds_bind (finds_getPublic token)
  intro form
  apply finds_ofExcept_bind
  intro fields hfields
  apply finds_ofExcept_bind
  intro values hvalues
  apply finds_change
  rintro w row w' ⟨hform, hactive⟩ hw
  simp only at hw
  split at hw
  · rename_i store hinsert
    cases hw
    exact ⟨.submitted token data sender w.now hform hactive hfields hvalues hinsert, _, rfl⟩
  · cases hw

/-- A submission that has been made pending again can be shown. -/
theorem finds_newAttempt (r : Runner) (id : Int) :
    Finds Store.Documented (r.newAttempt id) fun row _ => row.Documented := by
  apply Contract.triple_newAttempt (R := fun _ w => w.store.Documented) (L := fun _ => True)
    (quiet_store Store.Documented) trivial
  · exact fun _ _ _ => trivial
  · exact fun _ _ _ _ _ => trivial
  · intro g w row h hrow hended
    refine ⟨.restarted id hrow hended, fun w' hcalm => ?_⟩
    show w'.store.Documented
    rw [show w'.store = _ from hcalm]
    exact h.replaced id fun _ => rfl
  · refine Contract.triple_read fun g w h => ⟨.kept, fun w' _ row hrow => ?_⟩
    exact h.of_get? (Store.submission_eq_ok.1 hrow).2
  · exact fun _ _ _ _ _ _ h => nomatch h

theorem finds_startedRow (r : Runner) (what : Web.Start) :
    Finds Store.Documented (Web.startedRow r what) fun row _ => row.Documented := by
  cases what with
  | submit token data sender => exact (finds_submit token data sender).weaken fun _ _ => trivial
  | rerun submission => exact finds_newAttempt r submission

end Changes

namespace Web

/-- A request that leaves runs is answered. -/
def Handled.Answered (handled : Handled) : Prop :=
  handled.dispatched ≠ [] → ∃ answer, handled.outcome = .ok answer

theorem shown_of_documented {row : SubmissionRow} (h : row.Documented) :
    ∃ json, shown (submissionView row) = pure json := by
  obtain ⟨members, hdata⟩ := h
  refine ⟨.obj (submissionMembers row members), ?_⟩
  unfold submissionView
  rw [hdata]
  rfl

/-- An action that leaves a run is answered, and its statements are changes. -/
theorem meets_perform (r : Runner) {action : Action} (hread : action.Read) {w : World}
    (h : w.store.Documented) :
    changing.Meets (perform r action) (fun handled _ _ => handled.Answered) [] w := by
  by_cases hstart : ∃ what, action = .start what
  · obtain ⟨what, rfl⟩ := hstart
    refine (Contract.meets_bind ..).2
      (Contract.Meets.mono ?_ _ _ _ (Changes.finds_startedRow r what [] w h))
    intro res g w hfound
    cases res with
    | error e => exact fun hnone => absurd rfl hnone
    | ok row =>
      obtain ⟨json, hjson⟩ := shown_of_documented (hfound row rfl)
      show changing.Meets ((shown (submissionView row)).run.bind fun view => _) _ g w
      rw [hjson]
      exact fun _ => ⟨_, rfl⟩
  · rw [perform_eq_bind r fun what he => hstart ⟨what, he⟩]
    refine (Contract.meets_bind ..).2 (Contract.Meets.mono ?_ _ _ _
      (Changes.serves.quiet.compositional.answer (Changes.serves.carries r hread) [] w trivial))
    exact fun _ _ _ _ hnone => absurd rfl hnone

/-- **A request that leaves a run is answered**, and its statements are changes. -/
theorem meets_handle (r : Runner) (q : HttpRequest) {w : World} (h : w.store.Documented) :
    changing.Meets (handle r q) (fun handled _ _ => handled.Answered) [] w := by
  by_cases hasks : ∃ action, q.Asks action
  · obtain ⟨action, hasks⟩ := hasks
    rw [handle_of_asks hasks]
    exact meets_perform r hasks.read h
  · obtain ⟨outcome, hdone⟩ := exists_handle_eq_done (not_exists.1 hasks) r
    rw [hdone]
    exact fun hnone => absurd rfl hnone

/-! ## §4. One request under either trigger. -/

section

variable {around : Plan.Surroundings σ} {r : Runner} {w : World} {s : σ}

/-- What follows a plan without a statement or a request changes nothing. -/
theorem run_bind_done (t : Plan α) {f : α → Plan β} (hf : ∀ a, ∃ b, f a = .done b) (w : World)
    (s : σ) : ((t.bind f).run around w s).2 = (t.run around w s).2 := by
  rw [Plan.run_bind]
  obtain ⟨b, hb⟩ := hf (t.run around w s).1
  simp only [hb]
  rfl

/-- What follows a plan whatever its value is. -/
theorem run_bind_const (t : Plan α) (t' : Plan β) (w : World) (s : σ) :
    (t.bind fun _ => t').run around w s =
      t'.run around (t.run around w s).2.1 (t.run around w s).2.2 := by
  rw [Plan.run_bind]

/-- A run in the background does to the world what a run does. -/
theorem run_runUnattended (submission : Int) (w : World) (s : σ) :
    ((r.runUnattended submission).run.run around w s).2 =
      ((r.run submission).run.run around w s).2 :=
  run_bind_done _ (fun _ => ⟨_, rfl⟩) w s

/-- So does a message, whatever its result is. -/
theorem run_runSubmission (submission : Int) (w : World) (s : σ) :
    ((Queue.runSubmission r submission).run.run around w s).2 =
      ((r.run submission).run.run around w s).2 := by
  apply run_bind_done
  rintro (e | row)
  · exact ⟨_, rfl⟩
  · exact ⟨_, rfl⟩

/-- What runs leave, one after the other. -/
def leftBy (around : Plan.Surroundings σ) (r : Runner) (submissions : List Int) (start : World × σ) :
    World × σ :=
  submissions.foldl (fun left submission => ((r.run submission).run.run around left.1 left.2).2) start

theorem run_background {handled : Handled} {answer : Answer}
    (hanswer : handled.outcome = .ok answer) (w : World) (s : σ) :
    ((background r handled).run around w s).2 = leftBy around r handled.dispatched (w, s) := by
  unfold background
  rw [hanswer]
  dsimp only
  -- On the submissions that are left to run; what a run gives back is thrown away.
  induction handled.dispatched generalizing w s with
  | nil => rfl
  | cons first rest ih =>
    show ((((r.runUnattended first).run.bind fun _ => .done ()).bind fun _ =>
      rest.forM _).run around w s).2 = _
    rw [run_bind_const, run_bind_done _ fun _ => ⟨_, rfl⟩, run_runUnattended, ih]
    rfl

theorem run_execute (submissions : List Int) (w : World) (s : σ) :
    ((Queue.execute r submissions).run around w s).2 = leftBy around r submissions (w, s) := by
  unfold Queue.execute
  induction submissions generalizing w s with
  | nil => rfl
  | cons first rest ih =>
    have hfirst : ((Queue.runSubmission r first).run.run around w s).2 =
        ((r.run first).run.run around w s).2 := run_runSubmission first w s
    rw [List.mapM_cons]
    show (((Queue.runSubmission r first).run.bind fun result =>
      (rest.mapM fun submission => (Queue.runSubmission r submission).run).bind fun results =>
        .done (result :: results)).run around w s).2 = _
    rw [Plan.run_bind]
    generalize (Queue.runSubmission r first).run.run around w s = done at hfirst ⊢
    obtain ⟨result, w', s'⟩ := done
    dsimp only at hfirst ⊢
    -- The list of results is put together after the last run, and it changes nothing.
    rw [run_bind_done _ fun _ => ⟨_, rfl⟩, ih, hfirst]
    rfl

/-- **One request** under either trigger: the same answer, the same world, the same requests to the
generator. -/
theorem run_serve (horderly : around.Orderly) (r : Runner) (q : HttpRequest) {w : World}
    (h : w.store.Documented) (s : σ) :
    (serve .inline r q).run around w s = (serve .queue r q).run around w s := by
  -- The request is handled before its trigger counts, so both sides share the handling.
  obtain ⟨-, hanswered⟩ := Changes.run_of_meets horderly s (meets_handle r q h)
  show ((handle r q).bind fun handled =>
      ((background r handled).bind fun _ => .done ([] : List (Except Failure String))).bind fun _ =>
        .done handled.outcome).run around w s =
    ((handle r q).bind fun handled =>
      (Queue.execute r handled.dispatched).bind fun _ => .done handled.outcome).run around w s
  rw [Plan.run_bind, Plan.run_bind]
  generalize (handle r q).run around w s = handling at hanswered ⊢
  obtain ⟨handled, w', s'⟩ := handling
  dsimp only at hanswered ⊢
  -- Without a run there is nothing to do; with one there is an answer, and the run goes with it.
  have hleft : ((background r handled).run around w' s').2 =
      ((Queue.execute r handled.dispatched).run around w' s').2 := by
    rw [run_execute]
    by_cases hnone : handled.dispatched = []
    · rw [hnone]
      unfold background
      rw [hnone]
      split <;> rfl
    · obtain ⟨answer, hanswer⟩ := hanswered hnone
      exact run_background hanswer w' s'
  rw [run_bind_const, run_bind_const, run_bind_const]
  show (handled.outcome, ((background r handled).run around w' s').2) =
    (handled.outcome, ((Queue.execute r handled.dispatched).run around w' s').2)
  rw [hleft]

end

end Web

/-! ## §5. Requests, one after the other. -/

/-- A request and when it comes. -/
structure Web.Visit where
  time : Calendar.Instant
  request : Web.HttpRequest

/-- Requests, one after the other, under a trigger: the answer or the failure of each of them, and
what there is in the end. -/
def Plan.Surroundings.host (around : Plan.Surroundings σ) (trigger : Trigger) (r : Runner) :
    List Web.Visit → World → σ → List (Except Failure Web.Answer) × World × σ
  | [], w, s => ([], w, s)
  | visit :: rest, w, s =>
    let (outcome, w', s') :=
      (Web.serve trigger r visit.request).run around { w with now := visit.time } s
    let (outcomes, last) := around.host trigger r rest w' s'
    (outcome :: outcomes, last)

namespace Changes

variable {around : Plan.Surroundings σ}

/-- A run leads to a store that has come about by changes. -/
theorem reaches_run (horderly : around.Orderly) (r : Runner) (submission : Int) (w : World) (s : σ) :
    ReflTransGen Change w.store ((r.run submission).run.run around w s).2.1.store :=
  reaches_of_meets horderly _ [] w s (accounted_run r submission [] w trivial)

theorem reaches_leftBy (horderly : around.Orderly) (r : Runner) (submissions : List Int)
    (start : World × σ) :
    ReflTransGen Change start.1.store (Web.leftBy around r submissions start).1.store := by
  induction submissions generalizing start with
  | nil => exact .refl
  | cons first rest ih =>
    exact (reaches_run horderly r first start.1 start.2).trans (ih _)

/-- So does a request with all that follows from it. -/
theorem reaches_serve (horderly : around.Orderly) (r : Runner) (q : Web.HttpRequest) (w : World)
    (s : σ) : ReflTransGen Change w.store ((Web.serve .queue r q).run around w s).2.1.store := by
  have hhandle := reaches_of_meets horderly _ [] w s (serves.handle r q [] w trivial)
  show ReflTransGen Change w.store (((Web.handle r q).bind fun handled =>
    (Queue.execute r handled.dispatched).bind fun _ => .done handled.outcome).run around w s).2.1.store
  rw [Plan.run_bind]
  dsimp only
  rw [Web.run_bind_done _ fun _ => ⟨_, rfl⟩, Web.run_execute]
  exact hhandle.trans (reaches_leftBy horderly r _ (_, _))

end Changes

theorem host_inline_eq_queue {around : Plan.Surroundings σ} (horderly : around.Orderly) (r : Runner)
    (visits : List Web.Visit) {w : World} (h : w.store.Documented) (s : σ) :
    around.host .inline r visits w s = around.host .queue r visits w s := by
  -- On the requests; each of them leaves a store in which the data is in order.
  induction visits generalizing w s with
  | nil => rfl
  | cons visit rest ih =>
    have hserve := Web.run_serve horderly r visit.request
      (show ({ w with now := visit.time } : World).store.Documented from h) s
    have hnext := documented_of_changes
      (Changes.reaches_serve horderly r visit.request { w with now := visit.time } s) h
    unfold Plan.Surroundings.host
    rw [hserve]
    dsimp only
    rw [ih hnext]

/-- What answers requests by a script does nothing else. -/
theorem Script.orderly (x : Script) : (x.surroundings fun _ => []).Orderly where
  react := fun _ _ _ => rfl
  answer := fun _ _ _ => .refl

namespace Triggers

/-- The first request is answered, and all others take too long. -/
def script : Script where
  answer earlier _ :=
    if earlier.isEmpty then .replied ⟨.str "a rhyme", .str "base", .int 2⟩ (.finite false 3 (-1))
    else .timedOut
  clock earlier _ := ⟨earlier.length⟩

/-- A form with one step gets a submission, which is run again later. -/
def visits : List Web.Visit :=
  let steps := "[\x7b\"step_number\": 1, \"name\": \"Draft\", \"prompt\": \"Write\"\x7d]"
  [⟨⟨10⟩, Served.sending "POST" "/api/forms/" "\x7b\"name\": \"Poem\"\x7d"⟩,
    ⟨⟨20⟩, Served.sending "PUT" "/api/pipelines/form/1" ("\x7b\"steps\": " ++ steps ++ "\x7d")⟩,
    ⟨⟨30⟩, Served.sending "POST" "/api/submissions/public/poem" "\x7b\x7d"⟩,
    ⟨⟨40⟩, Served.sending "POST" "/api/submissions/1/rerun" ""⟩]

/-- What comes of the requests under a trigger. -/
def hosted (trigger : Trigger) :
    List (Except Failure Web.Answer) × World × (Nat × List Request) :=
  (script.surroundings fun _ => []).host trigger Audit.runner visits Audit.start (1, [])

end Triggers

end PromptForms
