/-
  PromptForms.Proofs.Served
  ─────────────────────────
  **REQUESTS BY THEMSELVES.**

  A request is answered in one turn.  None of its statements waits for a reply, so nobody
  else has a say in what it does: its answer and the world after it depend on the world
  that it finds, and on nothing else.

      Plan.Silent       the plan asks the generator for nothing
      Backend.serve     a request by itself

  Main results:
    • silent_handle                     no request asks the generator for anything
    • Scene.Reaches.silent_request      nor does what is left of one
    • serve_of_asks, serve_of_meets     a request by itself does what its action does, and what
                                        a contract says of it
    • Scene.Reaches.served              a request by itself is a turn among others
-/
import PromptForms.Proofs.Alone
import PromptForms.Proofs.Exclusive
import PromptForms.Proofs.Requests

namespace PromptForms

/-! ## §1. Silent plans. -/

/-- The plan asks the generator for nothing. -/
def Plan.Silent {α : Type} : Plan α → Prop
  | .done _ => True
  | .act _ _ next => ∀ w, (next w).Silent
  | .generate .. => False

theorem Plan.Silent.bind {α β : Type} {t : Plan α} {f : α → Plan β} (ht : t.Silent)
    (hf : ∀ a, (f a).Silent) : (t.bind f).Silent := by
  induction t with
  | done a => exact hf a
  | act access update next ih => exact fun w => ih w (ht w)
  | generate request next ih => exact ht.elim

/-- The same of a job. -/
def Job.Silent {α : Type} (j : Job α) : Prop := Plan.Silent j.run

namespace Job

variable {α : Type}

theorem silent_statement (f : World → Except Failure (α × World)) : Silent (statement f) :=
  fun _ => trivial

theorem silent_inMemory (f : World → Except Failure (α × World)) : Silent (inMemory f) :=
  fun _ => trivial

/-- Whatever is put together from statements is silent. -/
theorem silent : Compositional Silent where
  ofExcept := fun _ => trivial
  read := fun _ _ => trivial
  bind := by
    intro α β j f hj hf
    refine Plan.Silent.bind hj fun res => ?_
    cases res with
    | ok b => exact hf b
    | error e => trivial

end Job

/-! ## §2. No request asks for anything. -/

namespace Web

open Job (silent silent_statement silent_inMemory)

/-- No operation of the service asks the generator for anything: even a rerun only leaves a run to
be started. -/
theorem carries_silent (r : Runner) (action : Action) : action.Carries Job.Silent r := by
  cases action with
  | createForm draft =>
    apply silent.bind (silent.ofCauses _)
    exact fun _ => silent.bind (silent_inMemory _) fun _ => silent_statement _
  | updateForm form patch =>
    apply silent.bind (silent.read _)
    exact fun _ => silent.bind (silent.ofCauses _) fun _ => silent_statement _
  | deleteForm form =>
    apply silent.bind (silent.read _)
    intro _
    apply silent.bind (silent.read _)
    intro found
    cases found with
    | some submission => exact silent.bind (silent.fail _) fun _ => silent_statement _
    | none => exact silent_statement _
  | savePipeline form draft =>
    apply silent.bind (silent.read _)
    intro row
    apply silent.bind (silent.ofExcept _)
    intro fields
    apply silent.bind (silent.ofCauses _)
    exact fun _ => silent.bind (silent_statement _) fun _ => silent.pure _
  | deletePipeline form =>
    exact silent.bind (silent.getPipeline form) fun _ => silent_statement _
  | cancel submission => exact silent_inMemory _
  | deleteSubmission submission =>
    apply silent.bind (silent.read _)
    exact fun _ => silent.refuse (silent_statement _)
  | start what =>
    cases what with
    | submit token data sender =>
      apply silent.bind (silent.getPublic token)
      intro form
      apply silent.bind (silent.ofExcept _)
      intro fields
      exact silent.bind (silent.ofExcept _) fun _ => silent_statement _
    | rerun submission => exact silent.newAttempt (fun _ => trivial) fun _ => silent_statement _
  | listForms | publicForm | getForm | getPipeline | stepVariables | listSubmissions | stats
  | getSubmission | health => trivial

/-- **No request** asks the generator for anything. -/
theorem silent_handle (r : Runner) (q : HttpRequest) : (handle r q).Silent := by
  by_cases hasks : ∃ action, q.Asks action
  · obtain ⟨action, hasks⟩ := hasks
    rw [handle_of_asks hasks]
    have hcarries := carries_silent r action
    by_cases hstart : ∃ what, action = .start what
    · obtain ⟨what, rfl⟩ := hstart
      refine Plan.Silent.bind hcarries fun res => ?_
      cases res with
      | error e => trivial
      | ok row => exact Plan.Silent.bind (silent.shown _) fun _ => trivial
    · rw [perform_eq_bind r fun what he => hstart ⟨what, he⟩]
      exact Plan.Silent.bind (silent.answer hcarries) fun _ => trivial
  · obtain ⟨outcome, hdone⟩ := exists_handle_eq_done (not_exists.1 hasks) r
    rw [hdone]
    trivial

end Web

/-! ## §3. Requests by themselves. -/

namespace Backend

variable {b : Backend} {α : Type} {w w' : World} {sent : List Request}

/-- A silent plan sends nothing. -/
theorem sent_of_silent {t : Plan α} (h : t.Silent) (w : World) :
    (t.run b.surroundings w sent).2.2 = sent := by
  induction t generalizing w with
  | done a => rfl
  | act access update next ih => exact ih w (h w) (update w)
  | generate request next ih => exact h.elim

/-- A plan that writes nothing leaves the store as it was. -/
theorem store_of_writesNothing (t : Plan α) (w : World) (sent : List Request)
    (h : WritesNothing (t.deeds b.surroundings w sent)) :
    (t.run b.surroundings w sent).2.1.store = w.store := by
  induction t generalizing w sent with
  | done a => rfl
  | act access update next ih =>
    have hfirst : (update w).store = w.store := h ⟨w, update w⟩ List.mem_cons_self
    exact (ih w (update w) sent fun d hd => h d (List.mem_cons_of_mem _ hd)).trans hfirst
  | generate request next ih => exact ih _ { w with now := b.clock sent request } _ h

/-- A request by itself: how it is answered, the world after it, and all requests to the generator
that were ever sent. -/
def serve (b : Backend) (r : Runner) (q : Web.HttpRequest) (w : World) (sent : List Request) :
    Web.Handled × World × List Request := (Web.handle r q).run b.surroundings w sent

theorem sent_serve (r : Runner) (q : Web.HttpRequest) : (b.serve r q w sent).2.2 = sent :=
  sent_of_silent (Web.silent_handle r q) w

theorem run_bind_error {β : Type} {job : Job α} {e : Failure} {sent' : List Request}
    (h : b.run job w sent = (.error e, w', sent')) (f : α → Job β) :
    b.run (job >>= f) w sent = (.error e, w', sent') := by
  show Plan.run b.surroundings (Plan.bind job.run (ExceptT.bindCont f)) w sent = _
  rw [Plan.run_bind]
  unfold run at h
  rw [h]
  rfl

/-- A request is answered as its action is. -/
theorem serve_of_asks {r : Runner} {q : Web.HttpRequest} {action : Web.Action}
    (hasks : q.Asks action) (hstart : ∀ what, action ≠ .start what)
    {res : Except Failure Web.Answer} (h : b.run (Web.answer r action) w sent = (res, w', sent)) :
    b.serve r q w sent = ({ outcome := Web.asAnswer res }, w', sent) := by
  unfold serve
  rw [Web.handle_of_asks hasks, Web.perform_eq_bind r hstart, Plan.run_bind]
  unfold run at h
  rw [h]
  rfl

theorem run_getForm {form : Int} {row : FormRow} (hfits : Store.fits form = true)
    (hrow : w.store.forms.get? form = some row) :
    b.run (Forms.get form) w sent = (.ok row, w, sent) := by
  unfold Forms.get Store.checkFits
  rw [run_read]
  simp only [hfits, if_true, bind, Except.bind, hrow]

theorem run_shown_good (json : Json) :
    b.run (Web.shown (.good json)) w sent = (.ok json, w, sent) := rfl

theorem exists_run_shown (document : Schema.Checked Json) :
    ∃ res, b.run (Web.shown document) w sent = (res, w, sent) := by
  unfold Web.shown
  split <;> exact ⟨_, rfl⟩

/-- **What a contract says** of a request holds where it ends. -/
theorem serve_of_meets (b : Backend) (sent : List Request) {C : Contract}
    {Q : Web.Handled → Deeds → World → Prop} (hcalm : ∀ g w, C.calm g w w)
    (hpause : ∀ g w now, C.pause g w { w with now }) {r : Runner} {q : Web.HttpRequest}
    (h : C.Meets (Web.handle r q) Q [] w) :
    Q (b.serve r q w sent).1 ((Web.handle r q).deeds b.surroundings w sent)
      (b.serve r q w sent).2.1 := by
  have hreact (g : Deeds) (before after : World) (sent : List Request) :
      C.calm g after (b.surroundings.react before after sent).1 := hcalm g after
  exact Contract.Meets.run hreact
    (fun g request w sent => hpause g w (b.clock sent request)) _ [] w sent h

end Backend

/-! ## §4. Requests among others. -/

/-- Wherever a request has come to, it is not going to ask the generator for anything. -/
theorem Scene.Reaches.silent_request {S : Setting} {w : World} {s : Scene}
    (hs : Scene.Reaches S { world := w } s) :
    ∀ {i : Nat} {r : Runner} {q : Web.HttpRequest} {plan : Plan Ending},
      s.threads[i]? = some ⟨.request r q, plan⟩ → plan.Silent := by
  -- On the steps; only one thread goes on with each, and it goes on with a part of its plan.
  induction hs with
  | refl => exact fun hi => nomatch hi
  | step _ hstep ih =>
    intro i r q plan hi
    cases hstep with
    | begin task hb ht =>
      rcases List.mem_append.1 (List.mem_of_getElem? hi) with hold | hnew
      · obtain ⟨j, hj⟩ := List.mem_iff_getElem?.1 hold
        exact ih hj
      · cases List.mem_singleton.1 hnew
        exact Plan.Silent.bind (Web.silent_handle r q) fun _ => trivial
    | statement j task access update next hj ht =>
      by_cases hij : j = i
      · subst hij
        rw [List.getElem?_set_self (List.getElem?_eq_some_iff.1 hj).1] at hi
        cases hi
        exact ih hj _
      · rw [List.getElem?_set_ne hij] at hi
        exact ih hi
    | rest j t hj hr ht => exact ih hi
    | reply j task request next outcome hj ht =>
      by_cases hij : j = i
      · subst hij
        rw [List.getElem?_set_self (List.getElem?_eq_some_iff.1 hj).1] at hi
        cases hi
        exact (ih hj).elim
      · rw [List.getElem?_set_ne hij] at hi
        exact ih hi
    | drift w hd => exact ih hi

/-- A thread that has the turn carries out a silent plan to its end. -/
theorem Scene.Reaches.finished {S : Setting} {start : Scene} {i : Nat} {task : Task}
    {plan : Plan Ending} (hsilent : plan.Silent) (b : Backend) (sent : List Request) {s : Scene}
    (hs : Scene.Reaches S start s) (hturn : s.turn = some i)
    (hi : s.threads[i]? = some ⟨task, plan⟩) :
    ∃ s', Scene.Reaches S start s' ∧ s'.turn = some i ∧
      s'.world = (plan.run b.surroundings s.world sent).2.1 ∧
      s'.threads = s.threads.set i ⟨task, .done (plan.run b.surroundings s.world sent).1⟩ := by
  induction plan generalizing s with
  | done ending =>
    obtain ⟨hlen, hthread⟩ := List.getElem?_eq_some_iff.1 hi
    have hsame : s.threads.set i s.threads[i] = s.threads := List.set_getElem_self hlen
    rw [hthread] at hsame
    exact ⟨s, hs, hturn, rfl, hsame.symm⟩
  | act access update next ih =>
    have hnext := Scene.Reaches.step hs (.statement s i task access update next hi (.inr hturn))
    have hlen : i < s.threads.length := (List.getElem?_eq_some_iff.1 hi).1
    obtain ⟨s', hs', hturn', hworld, hthreads⟩ :=
      ih s.world (hsilent s.world) hnext rfl (List.getElem?_set_self hlen)
    refine ⟨s', hs', hturn', hworld, ?_⟩
    rw [hthreads, List.set_set]
    rfl
  | generate request next ih => exact hsilent.elim

/-- **A request by itself** is a turn: it leads from a scene to one with the world after it. -/
theorem Scene.Reaches.served {S : Setting} {start s : Scene} (hs : Scene.Reaches S start s)
    (hturn : s.turn = none) (b : Backend) (r : Runner) (q : Web.HttpRequest)
    (hbegins : S.begins (.request r q)) (sent : List Request) :
    ∃ s', Scene.Reaches S start s' ∧ s'.turn = none ∧
      s'.world = (b.serve r q s.world sent).2.1 ∧
      s'.threads = s.threads ++
        [⟨.request r q, .done (.handled (b.serve r q s.world sent).1)⟩] := by
  have hbegun := Scene.Reaches.step hs (.begin s (.request r q) hbegins (.inr hturn))
  have hsilent : (Task.request r q).plan.Silent :=
    Plan.Silent.bind (Web.silent_handle r q) fun _ => trivial
  have hended : (Task.request r q).plan.run b.surroundings s.world sent =
      (.handled (b.serve r q s.world sent).1, (b.serve r q s.world sent).2) :=
    Plan.run_bind ..
  obtain ⟨s', hs', hturn', hworld, hthreads⟩ :=
    hbegun.finished hsilent b sent rfl List.getElem?_concat_length
  rw [hended] at hworld hthreads
  rw [List.set_append_right _ _ (Nat.le_refl _), Nat.sub_self] at hthreads
  have hlast : s'.threads[s.threads.length]? =
      some ⟨.request r q, .done (.handled (b.serve r q s.world sent).1)⟩ := by
    rw [hthreads]
    exact List.getElem?_concat_length
  exact ⟨{ s' with turn := none }, .step hs' (.rest s' _ _ hlast trivial hturn'), rfl, hworld,
    hthreads⟩

/-! ## §5. Requests with documents. -/

namespace Served

/-- A request with a document. -/
def sending (method target body : String) : Web.HttpRequest :=
  { method, target, headers := [("content-type", "application/json")], body }

/-- A generator that nobody asks. -/
def idle : Backend := { answer := fun _ _ => .timedOut, clock := fun _ _ => ⟨0⟩ }

end Served

end PromptForms
