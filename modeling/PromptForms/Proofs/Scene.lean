/-
  PromptForms.Proofs.Scene
  ────────────────────────
  **MANY TASKS AT ONCE.**

  Tasks begin at any time, in any process and as often as one likes; each becomes a
  thread, which is its plan as far as it has come.  In a setting where threads are
  interleaved, any thread may take the next step.  In one where they take turns, a
  thread keeps its turn until it waits for a reply or ends.  A log says which thread
  carried out which statement.

      Task, Scene, Scene.Step    what there is and what may happen next
      Scene.serve, Scene.hear    a turn of a new task, and of one that gets its reply
      Agreement                  a contract that all threads of a setting can keep

  Main results:
    • `Agreement.safe_step` — one step preserves that every thread will keep to the
      contract whatever the others do.
    • `Agreement.safe_of_reaches` — so it holds in every scene that can be reached.
-/
import PromptForms.Proofs.Contract
import PromptForms.Web.Handle

namespace PromptForms

/-! ## §1. Tasks. -/

/-- What a process may be asked to do. -/
inductive Task where
  | request (r : Runner) (q : Web.HttpRequest)
  /-- A run: started by an answer, from a terminal, or by a message that may come twice. -/
  | run (r : Runner) (submission : Int)
  | newAttempt (r : Runner) (submission : Int)
  | rerun (r : Runner) (submission : Int)
  | cancel (r : Runner) (submission : Int)

/-- How a task ends. -/
inductive Ending where
  | handled (handled : Web.Handled)
  | row (result : Except Failure SubmissionRow)
  | found (result : Except Failure Bool)

/-- The plan of a task. -/
def Task.plan : Task → Plan Ending
  | .request r q => (Web.handle r q).bind fun handled => .done (.handled handled)
  | .run r submission => (r.run submission).run.bind fun result => .done (.row result)
  | .newAttempt r submission => (r.newAttempt submission).run.bind fun result => .done (.row result)
  | .rerun r submission => (r.rerun submission).run.bind fun result => .done (.row result)
  | .cancel r submission => (r.cancel submission).run.bind fun result => .done (.found result)

/-! ## §2. Scenes. -/

/-- A task that has begun. -/
structure Thread where
  task : Task
  plan : Plan Ending

/-- A statement and the thread that carried it out. -/
structure Entry where
  thread : Nat
  deed : Deed

/-- The world and the threads on it. -/
structure Scene where
  world : World
  threads : List Thread := []
  /-- The thread that carried out the last statement, unless it rests. -/
  turn : Option Nat := none
  log : List Entry := []

/-- Which tasks begin, what happens by itself, and whether threads are interleaved. -/
structure Setting where
  begins : Task → Prop
  /-- What becomes of the world without any task. -/
  drifts : World → World → Prop
  interleaved : Prop

/-- The plan has ended or waits for a reply. -/
def Plan.Rests {α : Type} : Plan α → Prop
  | .done _ => True
  | .act .. => False
  | .generate .. => True

/-- What may happen next. -/
inductive Scene.Step (S : Setting) : Scene → Scene → Prop
  | begin (s : Scene) (task : Task) (hb : S.begins task) (ht : S.interleaved ∨ s.turn = none) :
      Step S s { s with
        threads := s.threads ++ [⟨task, task.plan⟩], turn := some s.threads.length }
  | statement (s : Scene) (i : Nat) (task : Task) (access : Access) (update : World → World)
      (next : World → Plan Ending) (hi : s.threads[i]? = some ⟨task, .act access update next⟩)
      (ht : S.interleaved ∨ s.turn = some i) :
      Step S s
        { world := update s.world, threads := s.threads.set i ⟨task, next s.world⟩, turn := some i
          log := s.log ++ [⟨i, ⟨s.world, update s.world⟩⟩] }
  | rest (s : Scene) (i : Nat) (t : Thread) (hi : s.threads[i]? = some t) (hr : t.plan.Rests)
      (ht : s.turn = some i) : Step S s { s with turn := none }
  | reply (s : Scene) (i : Nat) (task : Task) (request : Request) (next : Outcome → Plan Ending)
      (outcome : Outcome) (hi : s.threads[i]? = some ⟨task, .generate request next⟩)
      (ht : S.interleaved ∨ s.turn = none) :
      Step S s { s with threads := s.threads.set i ⟨task, next outcome⟩, turn := some i }
  | drift (s : Scene) (w : World) (hd : S.drifts s.world w) : Step S s { s with world := w }

/-- Any number of steps. -/
inductive Scene.Reaches (S : Setting) (start : Scene) : Scene → Prop
  | refl : Reaches S start start
  | step {s s' : Scene} (hs : Reaches S start s) (h : Step S s s') : Reaches S start s'

/-- A task begins. -/
def Scene.begin (s : Scene) (task : Task) : Scene :=
  { s with threads := s.threads ++ [⟨task, task.plan⟩], turn := some s.threads.length }

/-- A thread carries out its next statement, if it has one. -/
def Scene.next (s : Scene) (i : Nat) : Scene :=
  match s.threads[i]? with
  | some ⟨task, .act _ update next⟩ =>
    { world := update s.world, threads := s.threads.set i ⟨task, next s.world⟩, turn := some i
      log := s.log ++ [⟨i, ⟨s.world, update s.world⟩⟩] }
  | _ => s

/-- Threads carry out statements in a given order. -/
def Scene.follow (s : Scene) (order : List Nat) : Scene := order.foldl Scene.next s

theorem Scene.turn_next {s : Scene} {i : Nat} (ht : s.turn = some i) : (s.next i).turn = some i := by
  unfold Scene.next
  split
  · rfl
  · exact ht

theorem Scene.Reaches.next {S : Setting} {start s : Scene} (hs : Reaches S start s) {i : Nat}
    (ht : S.interleaved ∨ s.turn = some i) : Reaches S start (s.next i) := by
  unfold Scene.next
  split
  · rename_i hi
    exact .step hs (.statement s i _ _ _ _ hi ht)
  · exact hs

theorem Scene.Reaches.follow {S : Setting} {start : Scene} (hS : S.interleaved) (order : List Nat) :
    ∀ {s : Scene}, Reaches S start s → Reaches S start (s.follow order) := by
  induction order with
  | nil => exact fun hs => hs
  | cons i rest ih => exact fun hs => ih (hs.next (.inl hS))

/-- The thread that has the turn keeps it for some statements. -/
theorem Scene.Reaches.followTurn {S : Setting} {start : Scene} {i : Nat} (n : Nat) :
    ∀ {s : Scene}, Reaches S start s → s.turn = some i →
      Reaches S start (s.follow (List.replicate n i)) ∧
        (s.follow (List.replicate n i)).turn = some i := by
  induction n with
  | zero => exact fun hs ht => ⟨hs, ht⟩
  | succ n ih => exact fun hs ht => ih (hs.next (.inr ht)) (Scene.turn_next ht)

theorem Scene.Reaches.begin {S : Setting} {start s : Scene} (hS : S.interleaved)
    (hs : Reaches S start s) {task : Task} (hb : S.begins task) : Reaches S start (s.begin task) :=
  .step hs (.begin s task hb (.inl hS))

/-- A thread gets the reply to its request, whoever has the turn. -/
def Scene.tell (s : Scene) (i : Nat) (outcome : Outcome) : Scene :=
  match s.threads[i]? with
  | some ⟨task, .generate _ next⟩ =>
    { s with threads := s.threads.set i ⟨task, next outcome⟩, turn := some i }
  | _ => s

theorem Scene.Reaches.tell {S : Setting} {start s : Scene} (hS : S.interleaved)
    (hs : Reaches S start s) (i : Nat) (outcome : Outcome) : Reaches S start (s.tell i outcome) := by
  unfold Scene.tell
  split
  · rename_i hi
    exact .step hs (.reply s i _ _ _ outcome hi (.inl hS))
  · exact hs

/-- A step leaves the tasks of all threads as they are, or a task begins. -/
theorem Scene.Step.tasks {S : Setting} {s s' : Scene} (h : Step S s s') :
    s'.threads.map (·.task) = s.threads.map (·.task) ∨
      ∃ task, s'.threads.map (·.task) = s.threads.map (·.task) ++ [task] := by
  have same {i : Nat} {task : Task} {plan : Plan Ending} (hi : s.threads[i]? = some ⟨task, plan⟩)
      (plan' : Plan Ending) :
      (s.threads.set i ⟨task, plan'⟩).map (·.task) = s.threads.map (·.task) := by
    have hlen : i < s.threads.length := (List.getElem?_eq_some_iff.1 hi).1
    have hlen' : i < (s.threads.map (·.task)).length := by rw [List.length_map]; exact hlen
    have hold : (s.threads.map (·.task))[i] = task := by
      rw [List.getElem_map, (List.getElem?_eq_some_iff.1 hi).2]
    rw [List.map_set, ← hold]
    exact List.set_getElem_self hlen'
  cases h with
  | begin task hb ht => exact .inr ⟨task, List.map_append⟩
  | statement i task access update next hi ht => exact .inl (same hi _)
  | rest i t hi hr ht => exact .inl rfl
  | reply i task request next outcome hi ht => exact .inl (same hi _)
  | drift w hd => exact .inl rfl

/-- A scene whose tasks all have a property is reached with such tasks alone. -/
theorem Scene.Reaches.restrict {S : Setting} {start s : Scene} (hs : Reaches S start s)
    {P : Task → Prop} (h : ∀ t ∈ s.threads, P t.task) :
    Reaches { S with begins := fun task => S.begins task ∧ P task } start s := by
  induction hs with
  | refl => exact .refl
  | @step s s' hs hstep ih =>
    have htasks : ∀ task ∈ s'.threads.map (·.task), P task := List.forall_mem_map.2 h
    have hbefore : ∀ task ∈ s.threads.map (·.task), P task := by
      intro task hmem
      rcases hstep.tasks with hsame | ⟨new, hnew⟩
      · exact htasks task (hsame ▸ hmem)
      · exact htasks task (hnew ▸ List.mem_append_left _ hmem)
    have hreached := ih (List.forall_mem_map.1 hbefore)
    cases hstep with
    | begin task hb ht =>
      have hnew := h ⟨task, task.plan⟩ (List.mem_append_right _ List.mem_cons_self)
      exact .step hreached (.begin s task ⟨hb, hnew⟩ ht)
    | statement i task access update next hi ht =>
      exact .step hreached (.statement s i task access update next hi ht)
    | rest i t hi hr ht => exact .step hreached (.rest s i t hi hr ht)
    | reply i task request next outcome hi ht =>
      exact .step hreached (.reply s i task request next outcome hi ht)
    | drift w hd => exact .step hreached (.drift s w hd)

/-! ## §3. Turns. -/

instance {α : Type} : (p : Plan α) → Decidable p.Rests
  | .done _ => isTrue trivial
  | .act .. => isFalse id
  | .generate .. => isTrue trivial

/-- The thread that has the turn carries out its statements, `n` of them at most, and then rests
if it can. -/
def Scene.settle (n : Nat) (s : Scene) : Scene :=
  match s.turn with
  | none => s
  | some i =>
    let s' := s.follow (List.replicate n i)
    match s'.threads[i]? with
    | some t => if t.plan.Rests then { s' with turn := none } else s'
    | none => s'

/-- A task begins and takes its turn, if nobody else has it. -/
def Scene.serve (n : Nat) (s : Scene) (task : Task) : Scene :=
  if s.turn = none then (s.begin task).settle n else s

/-- A thread gets the reply to its request and takes its turn, if nobody else has it. -/
def Scene.hear (n : Nat) (s : Scene) (i : Nat) (outcome : Outcome) : Scene :=
  match s.turn, s.threads[i]? with
  | none, some ⟨task, .generate _ next⟩ =>
    Scene.settle n { s with threads := s.threads.set i ⟨task, next outcome⟩, turn := some i }
  | _, _ => s

theorem Scene.Reaches.settle {S : Setting} {start s : Scene} (hs : Reaches S start s) (n : Nat) :
    Reaches S start (s.settle n) := by
  unfold Scene.settle
  split
  · exact hs
  · rename_i i ht
    obtain ⟨hfollow, hturn⟩ := hs.followTurn n ht
    dsimp only
    split
    · rename_i t hi
      split
      · exact .step hfollow (.rest _ i t hi ‹_› hturn)
      · exact hfollow
    · exact hfollow

theorem Scene.Reaches.serve {S : Setting} {start s : Scene} (hs : Reaches S start s) (n : Nat)
    {task : Task} (hb : S.begins task) : Reaches S start (s.serve n task) := by
  unfold Scene.serve
  split
  · rename_i ht
    exact Reaches.settle (.step hs (.begin s task hb (.inr ht))) n
  · exact hs

theorem Scene.Reaches.serveAll {S : Setting} {start : Scene} (n : Nat) (tasks : List Task)
    (hb : ∀ task ∈ tasks, S.begins task) :
    ∀ {s : Scene}, Reaches S start s → Reaches S start (tasks.foldl (Scene.serve n) s) := by
  induction tasks with
  | nil => exact fun hs => hs
  | cons task rest ih =>
    intro s hs
    exact ih (fun task h => hb task (List.mem_cons_of_mem _ h)) (hs.serve n (hb task List.mem_cons_self))

theorem Scene.Reaches.hear {S : Setting} {start s : Scene} (hs : Reaches S start s) (n i : Nat)
    (outcome : Outcome) : Reaches S start (s.hear n i outcome) := by
  unfold Scene.hear
  split
  · rename_i ht hi
    exact Reaches.settle (.step hs (.reply s i _ _ _ outcome hi (.inr ht))) n
  · exact hs

/-! ## §4. Logs. -/

/-- The deeds of a thread. -/
def deedsOf (i : Nat) (log : List Entry) : Deeds := (log.filter (·.thread = i)).map (·.deed)

/-- The deeds of all threads. -/
def allDeeds (log : List Entry) : Deeds := log.map (·.deed)

theorem mem_deedsOf {i : Nat} {log : List Entry} {d : Deed} :
    d ∈ deedsOf i log ↔ ∃ e ∈ log, e.thread = i ∧ e.deed = d := by
  simp [deedsOf, and_assoc]

theorem deedsOf_concat_self (i : Nat) (log : List Entry) (d : Deed) :
    deedsOf i (log ++ [⟨i, d⟩]) = deedsOf i log ++ [d] := by simp [deedsOf]

theorem deedsOf_concat_of_ne {i j : Nat} (h : j ≠ i) (log : List Entry) (d : Deed) :
    deedsOf j (log ++ [⟨i, d⟩]) = deedsOf j log := by simp [deedsOf, Ne.symm h]

theorem deedsOf_eq_nil {i : Nat} {log : List Entry} (h : ∀ e ∈ log, e.thread < i) :
    deedsOf i log = [] := by
  unfold deedsOf
  rw [List.map_eq_nil_iff, List.filter_eq_nil_iff]
  intro e he
  have := h e he
  simp only [decide_eq_true_eq]
  omega

theorem allDeeds_concat (i : Nat) (log : List Entry) (d : Deed) :
    allDeeds (log ++ [⟨i, d⟩]) = allDeeds log ++ [d] := by simp [allDeeds]

/-- Every statement was carried out in a scene that could be reached, and what was in the log then
is what comes before it now. -/
theorem Scene.Reaches.before {S : Setting} {w : World} {s : Scene}
    (hs : Scene.Reaches S { world := w } s) :
    ∀ earlier e later, s.log = earlier ++ e :: later →
      ∃ s', Scene.Reaches S { world := w } s' ∧ s'.world = e.deed.before ∧ s'.log = earlier := by
  induction hs with
  | refl => exact fun earlier e later h => by simp at h
  | step hs hstep ih =>
    cases hstep with
    | statement i task access update next hi ht =>
      intro earlier e later hlog
      rcases last_or_before hlog with ⟨-, rfl, rfl⟩ | ⟨init, -, hlog⟩
      · exact ⟨_, hs, rfl, rfl⟩
      · exact ih earlier e init hlog
    | begin | rest | reply | drift => exact ih

/-! ## §5. Agreements. -/

/-- A contract that threads can keep side by side: what one of them may do is what the others put
up with. -/
structure Agreement (S : Setting) (C : Contract) where
  /-- What holds where a task ends. -/
  ends : Task → Ending → Deeds → World → Prop
  /-- What the log and the world have in common at any time. -/
  inv : List Entry → World → Prop
  calm_refl : ∀ g w, C.calm g w w
  calm_trans : ∀ g w₁ w₂ w₃, C.calm g w₁ w₂ → C.calm g w₂ w₃ → C.calm g w₁ w₃
  pause_trans : ∀ g w₁ w₂ w₃, C.pause g w₁ w₂ → C.pause g w₂ w₃ → C.pause g w₁ w₃
  pause_of_calm : ∀ g w w', C.calm g w w' → C.pause g w w'
  calm_of_pause : S.interleaved → ∀ g w w', C.pause g w w' → C.calm g w w'
  ends_of_pause : ∀ task ending g w w', ends task ending g w → C.pause g w w' →
    ends task ending g w'
  begins : ∀ task log w w', S.begins task → inv log w → C.calm [] w w' →
    C.Meets task.plan (ends task) [] w'
  statement : ∀ log i w w', inv log w → C.allows (deedsOf i log) ⟨w, w'⟩ →
    inv (log ++ [⟨i, ⟨w, w'⟩⟩]) w' ∧ ∀ j, j ≠ i → C.pause (deedsOf j log) w w'
  drift : ∀ log w w', inv log w → S.drifts w w' → inv log w' ∧ ∀ g, C.calm g w w'

namespace Agreement

variable {S : Setting} {C : Contract}

/-- The same agreement with something else at the ends of the tasks. -/
def ending (A : Agreement S C) (ends : Task → Ending → Deeds → World → Prop)
    (hpause : ∀ task ending g w w', ends task ending g w → C.pause g w w' → ends task ending g w')
    (hbegins : ∀ task log w w', S.begins task → A.inv log w → C.calm [] w w' →
      C.Meets task.plan (ends task) [] w') : Agreement S C :=
  { A with
    ends := ends
    ends_of_pause := hpause
    begins := hbegins }

/-- What may become of the world before the next step of a thread. -/
def around (C : Contract) (s : Scene) (i : Nat) : World → World → Prop :=
  if s.turn = some i then C.calm (deedsOf i s.log) else C.pause (deedsOf i s.log)

/-- The scene has the invariant, every thread will keep to the contract, and all statements so far
were allowed. -/
structure Safe (A : Agreement S C) (s : Scene) : Prop where
  inv : A.inv s.log s.world
  threads : ∀ i t, s.threads[i]? = some t → ∀ w, around C s i s.world w →
    C.Meets t.plan (A.ends t.task) (deedsOf i s.log) w
  logged : ∀ e ∈ s.log, e.thread < s.threads.length
  allowed : ∀ earlier e later, s.log = earlier ++ e :: later →
    C.allows (deedsOf e.thread earlier) e.deed

theorem pause_refl (A : Agreement S C) (g : Deeds) (w : World) : C.pause g w w :=
  A.pause_of_calm g w w (A.calm_refl g w)

theorem around_refl (A : Agreement S C) (s : Scene) (i : Nat) : around C s i s.world s.world := by
  unfold around
  split
  · exact A.calm_refl _ _
  · exact A.pause_refl _ _

/-- A thread that does not have the turn puts up with any pause. -/
theorem Safe.paused {A : Agreement S C} {s : Scene} (h : A.Safe s) {i : Nat} {t : Thread}
    (hi : s.threads[i]? = some t) (ht : S.interleaved ∨ s.turn ≠ some i) {w : World}
    (hw : C.pause (deedsOf i s.log) s.world w) :
    C.Meets t.plan (A.ends t.task) (deedsOf i s.log) w := by
  refine h.threads i t hi w ?_
  unfold around
  split
  · rename_i hturn
    rcases ht with hs | ht
    · exact A.calm_of_pause hs _ _ _ hw
    · exact absurd hturn ht
  · exact hw

/-- The thread itself, as it is now. -/
theorem Safe.meets {A : Agreement S C} {s : Scene} (h : A.Safe s) {i : Nat} {t : Thread}
    (hi : s.threads[i]? = some t) : C.Meets t.plan (A.ends t.task) (deedsOf i s.log) s.world :=
  h.threads i t hi s.world (A.around_refl s i)

/-! ## §6. One step. -/

/-- The turn passes to another thread, or to none; what a thread is waiting for stays. -/
theorem Safe.paused_of_turn {A : Agreement S C} {s s' : Scene} (h : A.Safe s) {i : Nat} {t : Thread}
    {w : World} (hw : around C s' i s'.world w) (hi : s.threads[i]? = some t)
    (ht : S.interleaved ∨ s.turn ≠ some i) (hturn : s'.turn ≠ some i)
    (hdeeds : deedsOf i s'.log = deedsOf i s.log)
    (hworld : C.pause (deedsOf i s.log) s.world s'.world) :
    C.Meets t.plan (A.ends t.task) (deedsOf i s'.log) w := by
  unfold around at hw
  rw [if_neg hturn, hdeeds] at hw
  rw [hdeeds]
  exact h.paused hi ht (A.pause_trans _ _ _ _ hworld hw)

theorem safe_begin {A : Agreement S C} {s : Scene} (h : A.Safe s) (task : Task)
    (hb : S.begins task) (ht : S.interleaved ∨ s.turn = none) :
    A.Safe { s with
      threads := s.threads ++ [⟨task, task.plan⟩], turn := some s.threads.length } where
  inv := h.inv
  threads := by
    intro i t hi w hw
    rcases Nat.lt_trichotomy i s.threads.length with hlt | rfl | hgt
    · -- A thread that was there before: the turn is not its own now.
      rw [List.getElem?_append_left hlt] at hi
      refine h.paused_of_turn hw hi (ht.imp_right fun h0 => by rw [h0]; simp) ?_ rfl
        (A.pause_refl _ _)
      exact fun he => absurd (Option.some.inj he) (by omega)
    · rw [List.getElem?_concat_length] at hi
      cases hi
      have hnil : deedsOf s.threads.length s.log = [] := deedsOf_eq_nil h.logged
      unfold around at hw
      rw [if_pos rfl] at hw
      show C.Meets task.plan (A.ends task) (deedsOf s.threads.length s.log) w
      rw [hnil] at hw ⊢
      exact A.begins task s.log s.world w hb h.inv hw
    · rw [List.getElem?_eq_none (by simp; omega)] at hi
      cases hi
  logged := by
    intro e he
    have := h.logged e he
    simp only [List.length_append, List.length_cons, List.length_nil]
    omega
  allowed := h.allowed

theorem safe_statement {A : Agreement S C} {s : Scene} (h : A.Safe s) {i : Nat} {task : Task}
    {access : Access} {update : World → World} {next : World → Plan Ending}
    (hi : s.threads[i]? = some ⟨task, .act access update next⟩)
    (ht : S.interleaved ∨ s.turn = some i) :
    A.Safe
      { world := update s.world, threads := s.threads.set i ⟨task, next s.world⟩, turn := some i
        log := s.log ++ [⟨i, ⟨s.world, update s.world⟩⟩] } := by
  obtain ⟨hallowed, hnext⟩ := h.meets hi
  obtain ⟨hinv, hothers⟩ := A.statement s.log i s.world (update s.world) h.inv hallowed
  have hlen : i < s.threads.length := (List.getElem?_eq_some_iff.1 hi).1
  refine ⟨hinv, fun j t hj w hw => ?_, fun e he => ?_, fun earlier e later hlog => ?_⟩
  · by_cases hji : j = i
    · -- The thread goes on after its own deed, which is the last one in its list.
      subst hji
      rw [List.getElem?_set_self hlen] at hj
      cases hj
      unfold around at hw
      rw [if_pos rfl, deedsOf_concat_self] at hw
      show C.Meets (next s.world) (A.ends task) (deedsOf j (s.log ++ [⟨j, _⟩])) w
      rw [deedsOf_concat_self]
      exact hnext w hw
    · -- For the others it is something that happens while they wait.
      rw [List.getElem?_set_ne (Ne.symm hji)] at hj
      refine h.paused_of_turn hw hj (ht.imp_right fun h0 => ?_) ?_ (deedsOf_concat_of_ne hji _ _)
        (hothers j hji)
      · rw [h0]
        exact fun he => hji (Option.some.inj he).symm
      · exact fun he => hji (Option.some.inj he).symm
  · rw [List.length_set]
    rcases List.mem_append.1 he with he | he
    · exact h.logged e he
    · rw [List.mem_singleton.1 he]
      exact hlen
  · rcases last_or_before hlog with ⟨-, rfl, rfl⟩ | ⟨init, -, hlog⟩
    · exact hallowed
    · exact h.allowed earlier e init hlog

theorem safe_rest {A : Agreement S C} {s : Scene} (h : A.Safe s) {i : Nat} {t : Thread}
    (hi : s.threads[i]? = some t) (hr : t.plan.Rests) (ht : s.turn = some i) :
    A.Safe { s with turn := none } where
  inv := h.inv
  threads := by
    intro j t' hj w hw
    unfold around at hw
    rw [if_neg (by simp)] at hw
    by_cases hji : j = i
    · subst hji
      rw [hi] at hj
      cases hj
      -- The thread gives up its turn, so from now on it puts up with more.
      have hnow := h.meets hi
      obtain ⟨task, plan⟩ := t
      cases plan with
      | done ending => exact A.ends_of_pause task ending _ _ _ hnow hw
      | act access update next => exact hr.elim
      | generate request next =>
        exact fun outcome w' hw' => hnow outcome w' (A.pause_trans _ _ _ _ hw hw')
    · refine h.paused hj (.inr ?_) hw
      rw [ht]
      exact fun he => hji (Option.some.inj he).symm
  logged := h.logged
  allowed := h.allowed

theorem safe_reply {A : Agreement S C} {s : Scene} (h : A.Safe s) {i : Nat} {task : Task}
    {request : Request} {next : Outcome → Plan Ending} (outcome : Outcome)
    (hi : s.threads[i]? = some ⟨task, .generate request next⟩)
    (ht : S.interleaved ∨ s.turn = none) :
    A.Safe { s with threads := s.threads.set i ⟨task, next outcome⟩, turn := some i } := by
  have hlen : i < s.threads.length := (List.getElem?_eq_some_iff.1 hi).1
  refine ⟨h.inv, fun j t hj w hw => ?_, fun e he => ?_, h.allowed⟩
  · by_cases hji : j = i
    · subst hji
      rw [List.getElem?_set_self hlen] at hj
      cases hj
      unfold around at hw
      rw [if_pos rfl] at hw
      exact h.meets hi outcome w (A.pause_of_calm _ _ _ hw)
    · rw [List.getElem?_set_ne (Ne.symm hji)] at hj
      refine h.paused_of_turn hw hj (ht.imp_right fun h0 => by rw [h0]; simp) ?_ rfl
        (A.pause_refl _ _)
      exact fun he => hji (Option.some.inj he).symm
  · rw [List.length_set]
    exact h.logged e he

theorem safe_drift {A : Agreement S C} {s : Scene} (h : A.Safe s) {w : World}
    (hd : S.drifts s.world w) : A.Safe { s with world := w } := by
  obtain ⟨hinv, hcalm⟩ := A.drift s.log s.world w h.inv hd
  refine ⟨hinv, fun i t hi w' hw => h.threads i t hi w' ?_, h.logged, h.allowed⟩
  -- What happens to the world now comes before what the thread puts up with anyway.
  unfold around at hw ⊢
  split
  · rename_i hturn
    rw [if_pos hturn] at hw
    exact A.calm_trans _ _ _ _ (hcalm _) hw
  · rename_i hturn
    rw [if_neg hturn] at hw
    exact A.pause_trans _ _ _ _ (A.pause_of_calm _ _ _ (hcalm _)) hw

/-- **One step.** -/
theorem safe_step {A : Agreement S C} {s s' : Scene} (h : A.Safe s) (hs : Scene.Step S s s') :
    A.Safe s' := by
  cases hs with
  | begin task hb ht => exact safe_begin h task hb ht
  | statement i task access update next hi ht => exact safe_statement h hi ht
  | rest i t hi hr ht => exact safe_rest h hi hr ht
  | reply i task request next outcome hi ht => exact safe_reply h outcome hi ht
  | drift w hd => exact safe_drift h hd

/-! ## §7. Any number of steps. -/

/-- **Every scene that can be reached** from one without threads. -/
theorem safe_of_reaches (A : Agreement S C) {w : World} {s : Scene} (hinv : A.inv [] w)
    (hs : Scene.Reaches S { world := w } s) : A.Safe s := by
  induction hs with
  | refl =>
    refine ⟨hinv, fun i t hi => ?_, fun e he => ?_, fun earlier e later h => ?_⟩
    · cases hi
    · cases he
    · simp at h
  | step _ hstep ih => exact safe_step ih hstep

/-- A thread that has ended did so as its task has to. -/
theorem Safe.ends {A : Agreement S C} {s : Scene} (h : A.Safe s) {i : Nat} {task : Task}
    {ending : Ending} (hi : s.threads[i]? = some ⟨task, .done ending⟩) :
    A.ends task ending (deedsOf i s.log) s.world := h.meets hi

end Agreement

end PromptForms
