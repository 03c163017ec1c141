/-
  PromptForms.Proofs.Waits
  ────────────────────────
  **WHAT HAPPENS WHILE A PLAN WAITS.**

  A statement on the memory of a process is carried out at once.  A statement on the store
  is begun, carried out a little later, and a little later still the plan goes on; a
  request is handed over, and the plan goes on with its outcome.  When the generator takes
  a request up is its own affair.  In between others may change the world.  A tale lists what a plan has begun, in order, with the worlds at both
  ends of every wait.

      Event, Event.Waits     what a plan begins, and when it waits
      Plan.Tells             a plan that runs among others, with its tale
      Heeds                  what has been asked for is heeded in all that is begun later
      Obeys, ObeysUnasked    plans that do so
      Indifferent            a rule that what it allows does not change

  Main results:
    • `tells_bind`, `tells_jobBind` — the tale of one plan after another.
    • `Contract.Meets.tells` — a plan that keeps to a contract does so in every tale.
    • `obeys_bind`, `obeysUnasked_bind`, `obeys_look` — plans that heed, from their parts.
-/
import PromptForms.Proofs.Contract

namespace PromptForms

/-! ## §1. Events. -/

/-- What a plan begins. -/
inductive Event where
  /-- A statement that is begun in one world, is carried out in another one, and is followed by what
  the plan begins in a third one. -/
  | statement (access : Access) (update : World → World) (begun before resumed : World)
  /-- A request that is handed over in one world; its outcome is known in another one. -/
  | request (sent : Request) (begun resumed : World)

/-- Events in their order. -/
abbrev Tale := List Event

namespace Event

/-- A statement on the store that only reads. -/
def read (begun before resumed : World) : Event := .statement .store id begun before resumed

/-- The world in which the plan goes on. -/
def resumed : Event → World
  | .statement _ _ _ _ resumed => resumed
  | .request _ _ resumed => resumed

/-- The deed of a statement. -/
def deeds : Event → Deeds
  | .statement _ update _ before _ => [⟨before, update before⟩]
  | .request .. => []

/-- Whatever the world, the event leaves the active runs alone. -/
def SparesRuns : Event → Prop
  | .statement _ update _ _ _ => ∀ w, (update w).registries = w.registries
  | .request .. => True

/-- The plan waits from one world to another. -/
inductive Waits : Event → World → World → Prop
  | before (update : World → World) (begun before resumed : World) :
      Waits (.statement .store update begun before resumed) begun before
  | after (update : World → World) (begun before resumed : World) :
      Waits (.statement .store update begun before resumed) (update before) resumed
  | reply (sent : Request) (begun resumed : World) : Waits (.request sent begun resumed) begun resumed

end Event

/-- The deeds of a tale. -/
def Tale.deeds (tale : Tale) : Deeds := tale.flatMap Event.deeds

theorem Tale.deeds_append (tale tale' : Tale) :
    Tale.deeds (tale ++ tale') = tale.deeds ++ tale'.deeds := List.flatMap_append

theorem Tale.deeds_cons (e : Event) (tale : Tale) :
    Tale.deeds (e :: tale) = e.deeds ++ tale.deeds := List.flatMap_cons

/-! ## §2. Tales. -/

variable {α β : Type} {R : World → World → Prop}

/-- From a world a plan may begin these events and end with this value in that world, where others
do what `R` allows during every wait.  An outcome may be anything. -/
inductive Plan.Tells (R : World → World → Prop) : Plan α → World → Tale → α → World → Prop
  | done (a : α) (w : World) : Tells R (.done a) w [] a w
  | memory {update : World → World} {next : World → Plan α} {w w' : World} {tale : Tale} {a : α}
      (h : Tells R (next w) (update w) tale a w') :
      Tells R (.act .memory update next) w
        (.statement .memory update w w (update w) :: tale) a w'
  | store {update : World → World} {next : World → Plan α} {w before resumed w' : World}
      {tale : Tale} {a : α} (hb : R w before) (hr : R (update before) resumed)
      (h : Tells R (next before) resumed tale a w') :
      Tells R (.act .store update next) w
        (.statement .store update w before resumed :: tale) a w'
  | generate {request : Request} {next : Outcome → Plan α} {w resumed w' : World} {tale : Tale}
      {a : α} (outcome : Outcome) (hr : R w resumed)
      (h : Tells R (next outcome) resumed tale a w') :
      Tells R (.generate request next) w (.request request w resumed :: tale) a w'

/-- The tale may be told where others do more. -/
theorem Plan.Tells.mono {R' : World → World → Prop} (hR : ∀ w w', R w w' → R' w w') {t : Plan α}
    {w w' : World} {tale : Tale} {a : α} (h : t.Tells R w tale a w') : t.Tells R' w tale a w' := by
  induction h with
  | done a w => exact .done a w
  | memory _ ih => exact .memory ih
  | store hb hr _ ih => exact .store (hR _ _ hb) (hR _ _ hr) ih
  | generate outcome hr _ ih => exact .generate outcome (hR _ _ hr) ih

/-- A tale: the plan as it goes where requests are answered like this and others do something right
after statements on the store. -/
def Plan.tell (answer : Request → World → Outcome × World) (react : World → World → World) :
    Plan α → World → Tale × α × World
  | .done a, w => ([], a, w)
  | .act .memory update next, w =>
    let (tale, a, w') := (next w).tell answer react (update w)
    (.statement .memory update w w (update w) :: tale, a, w')
  | .act .store update next, w =>
    let (tale, a, w') := (next w).tell answer react (react w (update w))
    (.statement .store update w w (react w (update w)) :: tale, a, w')
  | .generate request next, w =>
    let (tale, a, w') := (next (answer request w).1).tell answer react (answer request w).2
    (.request request w (answer request w).2 :: tale, a, w')

theorem Plan.tells_tell {answer : Request → World → Outcome × World} {react : World → World → World}
    (hrefl : ∀ w, R w w) (hanswer : ∀ request w, R w (answer request w).2)
    (hreact : ∀ before after, R after (react before after)) (t : Plan α) (w : World) :
    t.Tells R w (t.tell answer react w).1 (t.tell answer react w).2.1
      (t.tell answer react w).2.2 := by
  induction t generalizing w with
  | done a => exact .done a w
  | act access update next ih =>
    cases access with
    | memory => exact .memory (ih _ _)
    | store => exact .store (hrefl w) (hreact w (update w)) (ih _ _)
  | generate request next ih => exact .generate _ (hanswer request w) (ih _ _)

/-- An event of such a tale. -/
def Event.Told (answer : Request → World → Outcome × World) (react : World → World → World) :
    Event → Prop
  | .statement .memory update begun before resumed => before = begun ∧ resumed = update begun
  | .statement .store update begun before resumed =>
    before = begun ∧ resumed = react begun (update begun)
  | .request sent begun resumed => resumed = (answer sent begun).2

theorem Plan.told_of_mem_tell {answer : Request → World → Outcome × World}
    {react : World → World → World} {e : Event} {t : Plan α} {w : World}
    (he : e ∈ (t.tell answer react w).1) : e.Told answer react := by
  induction t generalizing w with
  | done a => exact absurd he List.not_mem_nil
  | act access update next ih =>
    cases access with
    | memory =>
      rcases List.mem_cons.1 he with rfl | he
      · exact ⟨rfl, rfl⟩
      · exact ih _ he
    | store =>
      rcases List.mem_cons.1 he with rfl | he
      · exact ⟨rfl, rfl⟩
      · exact ih _ he
  | generate request next ih =>
    rcases List.mem_cons.1 he with rfl | he
    · exact rfl
    · exact ih _ he

/-- What is left of the tale after one of its events is itself a tale. -/
theorem Plan.Tells.rest {e : Event} {later : Tale} (earlier : Tale) :
    ∀ {t : Plan α} {w w' : World} {a : α}, t.Tells R w (earlier ++ e :: later) a w' →
      ∃ t' : Plan α, t'.Tells R e.resumed later a w' := by
  induction earlier with
  | nil =>
    intro t w w' a h
    cases h with
    | memory h => exact ⟨_, h⟩
    | store hb hr h => exact ⟨_, h⟩
    | generate outcome hr h => exact ⟨_, h⟩
  | cons first earlier ih =>
    intro t w w' a h
    cases h with
    | memory h => exact ih h
    | store hb hr h => exact ih h
    | generate outcome hr h => exact ih h

/-- **The tale of one plan after another.** -/
theorem tells_bind {t : Plan α} {f : α → Plan β} {w w' : World} {tale : Tale} {b : β}
    (h : (t.bind f).Tells R w tale b w') :
    ∃ tale₁ tale₂ a w₁, tale = tale₁ ++ tale₂ ∧ t.Tells R w tale₁ a w₁ ∧
      (f a).Tells R w₁ tale₂ b w' := by
  -- On the first plan; each of its events comes before those of the second one.
  induction t generalizing w tale with
  | done a => exact ⟨[], tale, a, w, rfl, .done a w, h⟩
  | act access update next ih =>
    cases h with
    | memory h =>
      obtain ⟨tale₁, tale₂, a, w₁, rfl, h₁, h₂⟩ := ih _ h
      exact ⟨_ :: tale₁, tale₂, a, w₁, rfl, .memory h₁, h₂⟩
    | store hb hr h =>
      obtain ⟨tale₁, tale₂, a, w₁, rfl, h₁, h₂⟩ := ih _ h
      exact ⟨_ :: tale₁, tale₂, a, w₁, rfl, .store hb hr h₁, h₂⟩
  | generate request next ih =>
    cases h with
    | generate outcome hr h =>
      obtain ⟨tale₁, tale₂, a, w₁, rfl, h₁, h₂⟩ := ih _ h
      exact ⟨_ :: tale₁, tale₂, a, w₁, rfl, .generate outcome hr h₁, h₂⟩

/-- The tale of one job after another; the second one is begun only if the first one does not
fail. -/
theorem tells_jobBind {j : Job β} {f : β → Job α} {w w' : World} {tale : Tale}
    {res : Except Failure α} (h : (j >>= f).run.Tells R w tale res w') :
    (∃ e, res = .error e ∧ j.run.Tells R w tale (.error e) w') ∨
      ∃ tale₁ tale₂ b w₁, tale = tale₁ ++ tale₂ ∧ j.run.Tells R w tale₁ (.ok b) w₁ ∧
        (f b).run.Tells R w₁ tale₂ res w' := by
  obtain ⟨tale₁, tale₂, first, w₁, rfl, h₁, h₂⟩ :=
    tells_bind (t := j.run) (f := ExceptT.bindCont f) h
  cases first with
  | ok b => exact .inr ⟨tale₁, tale₂, b, w₁, rfl, h₁, h₂⟩
  | error e =>
    cases h₂
    exact .inl ⟨e, rfl, by simpa using h₁⟩

/-- A statement that only reads answers what holds where it is carried out. -/
theorem tells_read {f : World → Except Failure α} {w w' : World} {tale : Tale}
    {res : Except Failure α} (h : (Job.read f).run.Tells R w tale res w') :
    ∃ before, tale = [.read w before w'] ∧ res = f before := by
  cases h with
  | @store _ _ _ before _ _ _ _ hb hr h =>
    cases h
    exact ⟨before, rfl, rfl⟩

/-- A statement on the memory of a process answers at once. -/
theorem tells_inMemory {f : World → Except Failure (α × World)} {w w' : World} {tale : Tale}
    {res : Except Failure α} (h : (Job.inMemory f).run.Tells R w tale res w') :
    ∃ update, tale = [.statement .memory update w w (update w)] ∧ w' = update w ∧
      res = (f w).map (·.1) ∧ ∀ v, update v = ((f v).map (·.2)).toOption.getD v := by
  cases h with
  | memory h =>
    cases h
    refine ⟨_, rfl, rfl, rfl, fun v => ?_⟩
    cases f v <;> rfl

/-- The condition survives what others do and what leaves the active runs alone. -/
structure Lasting (R : World → World → Prop) (P : World → Prop) : Prop where
  others : ∀ w w', R w w' → P w → P w'
  own : ∀ w w', w'.registries = w.registries → P w → P w'

/-- A lasting condition holds at the end, and at the beginning of every wait; once it holds at the
end of a wait it holds where the plan goes on, and from there to the end. -/
theorem Lasting.tells {P : World → Prop} (hP : Lasting R P) {t : Plan α} {w w' : World} {tale : Tale}
    {a : α} (h : t.Tells R w tale a w') (hspares : ∀ x ∈ tale, x.SparesRuns) :
    (P w → P w' ∧ ∀ x ∈ tale, ∀ v v', x.Waits v v' → P v) ∧
      ∀ x ∈ tale, (∀ v v', x.Waits v v' → P v' → P x.resumed) ∧ (P x.resumed → P w') := by
  induction h with
  | done a w =>
    exact ⟨fun hw => ⟨hw, fun x hx => absurd hx List.not_mem_nil⟩,
      fun x hx => absurd hx List.not_mem_nil⟩
  | @memory update next w w' tale a h ih =>
    obtain ⟨hall, hfrom⟩ := ih fun x hx => hspares x (List.mem_cons_of_mem _ hx)
    refine ⟨fun hw => ?_, List.forall_mem_cons.2
      ⟨⟨nofun, fun hresumed => (hall hresumed).1⟩, hfrom⟩⟩
    obtain ⟨hend, hwaits⟩ := hall (hP.own _ _ (hspares _ List.mem_cons_self w) hw)
    exact ⟨hend, List.forall_mem_cons.2 ⟨nofun, hwaits⟩⟩
  | @store update next w before resumed w' tale a hb hr h ih =>
    obtain ⟨hall, hfrom⟩ := ih fun x hx => hspares x (List.mem_cons_of_mem _ hx)
    have hafter : P before → P (update before) :=
      hP.own _ _ (hspares _ List.mem_cons_self before)
    refine ⟨fun hw => ?_, List.forall_mem_cons.2
      ⟨⟨fun v v' hv hv' => ?_, fun hresumed => (hall hresumed).1⟩, hfrom⟩⟩
    · have hbefore := hP.others _ _ hb hw
      obtain ⟨hend, hwaits⟩ := hall (hP.others _ _ hr (hafter hbefore))
      refine ⟨hend, List.forall_mem_cons.2 ⟨fun v v' hv => ?_, hwaits⟩⟩
      cases hv with
      | before => exact hw
      | after => exact hafter hbefore
    · cases hv with
      | before => exact hP.others _ _ hr (hafter hv')
      | after => exact hv'
  | @generate request next w resumed w' tale a outcome hr h ih =>
    obtain ⟨hall, hfrom⟩ := ih fun x hx => hspares x (List.mem_cons_of_mem _ hx)
    refine ⟨fun hw => ?_, List.forall_mem_cons.2
      ⟨⟨fun v v' hv hv' => ?_, fun hresumed => (hall hresumed).1⟩, hfrom⟩⟩
    · obtain ⟨hend, hwaits⟩ := hall (hP.others _ _ hr hw)
      refine ⟨hend, List.forall_mem_cons.2 ⟨fun v v' hv => ?_, hwaits⟩⟩
      cases hv
      exact hw
    · cases hv
      exact hv'

/-! ## §3. Contracts. -/

/-- **Every tale keeps the contract.**  If the contract puts up with what others do, a plan that
keeps to it does only what it allows, and ends as it says. -/
theorem Contract.Meets.tells {C : Contract} (hrefl : ∀ w, R w w)
    (htrans : ∀ w₁ w₂ w₃, R w₁ w₂ → R w₂ w₃ → R w₁ w₃) (hcalm : ∀ g w w', R w w' → C.calm g w w')
    (hpause : ∀ g w w', R w w' → C.pause g w w') {Q : α → Deeds → World → Prop} {t : Plan α}
    {w w' : World} {tale : Tale} {a : α} (h : t.Tells R w tale a w') :
    ∀ g, (∀ w₁, R w w₁ → C.Meets t Q g w₁) →
      Q a (g ++ tale.deeds) w' ∧
        ∀ earlier d later, tale.deeds = earlier ++ d :: later → C.allows (g ++ earlier) d := by
  -- A statement on the store is carried out after a wait, so the plan has to keep to the contract
  -- in every world that the others may leave.
  have hact : ∀ {g : Deeds} {d : Deed} {rest : Deeds}, C.allows g d →
      (∀ earlier d' later, rest = earlier ++ d' :: later → C.allows (g ++ [d] ++ earlier) d') →
      ∀ earlier d' later, d :: rest = earlier ++ d' :: later → C.allows (g ++ earlier) d' := by
    intro g d rest hd hrest earlier d' later heq
    cases earlier with
    | nil =>
      obtain ⟨rfl, -⟩ := List.cons.inj heq
      rw [List.append_nil]
      exact hd
    | cons first earlier =>
      obtain ⟨rfl, htail⟩ := List.cons.inj heq
      have := hrest earlier d' later htail
      rwa [List.append_assoc] at this
  induction h with
  | done a w =>
    intro g ht
    refine ⟨?_, fun earlier d later heq => ?_⟩
    · show Q a (g ++ []) w
      rw [List.append_nil]
      exact ht w (hrefl w)
    · exact absurd heq (by simp [Tale.deeds])
  | @memory update next w w' tale a h ih =>
    intro g ht
    obtain ⟨hallowed, hnext⟩ := ht w (hrefl w)
    obtain ⟨hend, hrest⟩ := ih _ fun w₁ hw₁ => hnext w₁ (hcalm _ _ _ hw₁)
    rw [List.append_assoc] at hend
    exact ⟨hend, hact hallowed hrest⟩
  | @store update next w before resumed w' tale a hb hr h ih =>
    intro g ht
    obtain ⟨hallowed, hnext⟩ := ht before hb
    obtain ⟨hend, hrest⟩ := ih _ fun w₁ hw₁ => hnext w₁ (hcalm _ _ _ (htrans _ _ _ hr hw₁))
    rw [List.append_assoc] at hend
    exact ⟨hend, hact hallowed hrest⟩
  | @generate request next w resumed w' tale a outcome hr h ih =>
    intro g ht
    exact ih g fun w₁ hw₁ => ht w (hrefl w) outcome w₁ (hpause _ _ _ (htrans _ _ _ hr hw₁))

/-! ## §4. Heeding. -/

/-- Once `F` holds where the plan goes on after an event, only events are begun that `L` allows after
the deeds up to there. -/
def Heeds (F : World → Prop) (L : Deeds → Event → Prop) (g : Deeds) (tale : Tale) : Prop :=
  ∀ earlier e later, tale = earlier ++ e :: later → F e.resumed →
    ∀ x ∈ later, L (g ++ Tale.deeds (earlier ++ [e])) x

/-- After the deeds `g`, the plan leaves the active runs alone, and whenever `F` comes to hold, even
before it begins, it heeds that. -/
def Obeys (R : World → World → Prop) (F : World → Prop) (L : Deeds → Event → Prop) (g : Deeds)
    (t : Plan α) : Prop :=
  ∀ w tale a w', t.Tells R w tale a w' →
    (∀ x ∈ tale, x.SparesRuns) ∧ (F w → ∀ x ∈ tale, L g x) ∧ Heeds F L g tale

/-- The same for a plan that begins where `F` does not hold. -/
def ObeysUnasked (R : World → World → Prop) (F : World → Prop) (L : Deeds → Event → Prop)
    (g : Deeds) (t : Plan α) : Prop :=
  ∀ w tale a w', ¬F w → t.Tells R w tale a w' → (∀ x ∈ tale, x.SparesRuns) ∧ Heeds F L g tale

/-- What is allowed makes no difference to what is allowed after it. -/
def Indifferent (L : Deeds → Event → Prop) : Prop :=
  ∀ g x y, L g x → (L (g ++ x.deeds) y ↔ L g y)

section

variable {F : World → Prop} {L : Deeds → Event → Prop} {g : Deeds} {tale tale' : Tale}
  {w w' : World}

theorem Indifferent.iff_of_forall (hL : Indifferent L) (x : Event) :
    ∀ {g : Deeds}, (∀ y ∈ tale, L g y) → (L (g ++ tale.deeds) x ↔ L g x) := by
  induction tale with
  | nil =>
    intro g _
    rw [show Tale.deeds [] = [] from rfl, List.append_nil]
  | cons y tale ih =>
    intro g h
    obtain ⟨hy, htale⟩ := List.forall_mem_cons.1 h
    rw [Tale.deeds_cons, ← List.append_assoc, ih fun z hz => (hL g y z hy).2 (htale z hz)]
    exact hL g y x hy

theorem heeds_nil : Heeds F L g [] := fun _ _ _ h => absurd h (by simp)

theorem heeds_of_forall (hL : Indifferent L) (h : ∀ x ∈ tale, L g x) : Heeds F L g tale := by
  intro earlier e later heq _ x hx
  rw [hL.iff_of_forall x fun y hy => h y (by rw [heq, List.append_cons]; exact List.mem_append_left _ hy)]
  exact h x (by rw [heq]; simp [hx])

theorem heeds_append (hL : Indifferent L) (h : Heeds F L g tale) (h' : Heeds F L (g ++ tale.deeds) tale')
    (hF : ∀ e ∈ tale, F e.resumed → ∀ x ∈ tale', L (g ++ tale.deeds) x) :
    Heeds F L g (tale ++ tale') := by
  intro earlier e later heq he x hx
  rcases List.append_eq_append_iff.1 heq with ⟨middle, rfl, hright⟩ | ⟨middle, hleft, hright⟩
  · rw [List.append_assoc, Tale.deeds_append, ← List.append_assoc]
    exact h' middle e later hright he x hx
  · cases middle with
    | nil =>
      obtain rfl : tale = earlier := by simpa using hleft
      rw [Tale.deeds_append, ← List.append_assoc]
      exact h' [] e later (by simpa using hright.symm) he x hx
    | cons first middle =>
      obtain ⟨rfl, rfl⟩ := List.cons.inj hright
      have hmiddle := h earlier e middle hleft he
      rcases List.mem_append.1 hx with hx | hx
      · exact hmiddle x hx
      · -- What the first plan begins after the event makes no difference.
        have hlater := hF e (by rw [hleft]; simp) he x hx
        rw [hleft, List.append_cons, Tale.deeds_append, ← List.append_assoc] at hlater
        exact (hL.iff_of_forall x hmiddle).1 hlater

theorem heeds_cons {e : Event} (h : Heeds F L (g ++ e.deeds) tale)
    (hF : F e.resumed → ∀ x ∈ tale, L (g ++ e.deeds) x) : Heeds F L g (e :: tale) := by
  intro earlier e' later heq he x hx
  cases earlier with
  | nil =>
    obtain ⟨rfl, rfl⟩ := List.cons.inj heq
    have hdeeds : Tale.deeds ([] ++ [e]) = e.deeds := by simp [Tale.deeds]
    rw [hdeeds]
    exact hF he x hx
  | cons first earlier =>
    obtain ⟨rfl, htail⟩ := List.cons.inj heq
    rw [List.cons_append, Tale.deeds_cons, ← List.append_assoc]
    exact h earlier e' later htail he x hx

theorem Obeys.unasked {t : Plan α} (h : Obeys R F L g t) : ObeysUnasked R F L g t :=
  fun w tale a w' _ ht => ⟨(h w tale a w' ht).1, (h w tale a w' ht).2.2⟩

theorem obeys_done (a : α) : Obeys R F L g (.done a) := by
  intro w tale b w' h
  cases h
  exact ⟨fun x hx => absurd hx List.not_mem_nil, fun _ x hx => absurd hx List.not_mem_nil, heeds_nil⟩

/-- **One plan after another.** -/
theorem obeys_bind (hF : Lasting R F) (hL : Indifferent L) {t : Plan α} {f : α → Plan β}
    (ht : Obeys R F L g t)
    (hf : ∀ a w tale w', t.Tells R w tale a w' → Obeys R F L (g ++ tale.deeds) (f a)) :
    Obeys R F L g (t.bind f) := by
  intro w tale b w' h
  obtain ⟨tale₁, tale₂, a, w₁, rfl, h₁, h₂⟩ := tells_bind h
  obtain ⟨hspares, hall, hheeds⟩ := ht _ _ _ _ h₁
  obtain ⟨hspares', hall', hheeds'⟩ := hf _ _ _ _ h₁ _ _ _ _ h₂
  obtain ⟨hlasts, hfrom⟩ := hF.tells h₁ hspares
  refine ⟨List.forall_mem_append.2 ⟨hspares, hspares'⟩, fun hw => ?_,
    heeds_append hL hheeds hheeds' fun e he hresumed => hall' ((hfrom e he).2 hresumed)⟩
  exact List.forall_mem_append.2 ⟨hall hw, fun x hx =>
    (hL.iff_of_forall x (hall hw)).1 (hall' (hlasts hw).1 x hx)⟩

theorem obeysUnasked_bind (hF : Lasting R F) (hL : Indifferent L) {t : Plan α} {f : α → Plan β}
    (ht : ObeysUnasked R F L g t)
    (hf : ∀ a w tale w', t.Tells R w tale a w' → Obeys R F L (g ++ tale.deeds) (f a)) :
    ObeysUnasked R F L g (t.bind f) := by
  intro w tale b w' hw h
  obtain ⟨tale₁, tale₂, a, w₁, rfl, h₁, h₂⟩ := tells_bind h
  obtain ⟨hspares, hheeds⟩ := ht _ _ _ _ hw h₁
  obtain ⟨hspares', hall', hheeds'⟩ := hf _ _ _ _ h₁ _ _ _ _ h₂
  obtain ⟨-, hfrom⟩ := hF.tells h₁ hspares
  exact ⟨List.forall_mem_append.2 ⟨hspares, hspares'⟩,
    heeds_append hL hheeds hheeds' fun e he hresumed => hall' ((hfrom e he).2 hresumed)⟩

variable {access : Access} {update : World → World} {next : World → Plan α}

/-- A statement that is begun where `F` does not hold. -/
theorem obeysUnasked_act (hspares : ∀ w, (update w).registries = w.registries)
    (hnext : ∀ w, Obeys R F L (g ++ [⟨w, update w⟩]) (next w)) :
    ObeysUnasked R F L g (.act access update next) := by
  intro w tale a w' _ h
  cases h with
  | memory h =>
    obtain ⟨hrest, hall, hheeds⟩ := hnext _ _ _ _ _ h
    exact ⟨List.forall_mem_cons.2 ⟨hspares, hrest⟩, heeds_cons hheeds hall⟩
  | store hb hr h =>
    obtain ⟨hrest, hall, hheeds⟩ := hnext _ _ _ _ _ h
    exact ⟨List.forall_mem_cons.2 ⟨hspares, hrest⟩, heeds_cons hheeds hall⟩

/-- A statement that may be begun at any time. -/
theorem obeys_act (hF : Lasting R F) (hL : Indifferent L)
    (hspares : ∀ w, (update w).registries = w.registries)
    (hlate : ∀ begun before resumed, L g (.statement access update begun before resumed))
    (hnext : ∀ w, Obeys R F L (g ++ [⟨w, update w⟩]) (next w)) :
    Obeys R F L g (.act access update next) := by
  intro w tale a w' h
  cases h with
  | memory h =>
    obtain ⟨hrest, hall, hheeds⟩ := hnext _ _ _ _ _ h
    refine ⟨List.forall_mem_cons.2 ⟨hspares, hrest⟩, fun hw => ?_, heeds_cons hheeds hall⟩
    exact List.forall_mem_cons.2 ⟨hlate _ _ _, fun x hx =>
      (hL g _ x (hlate w w (update w))).1 (hall (hF.own _ _ (hspares w) hw) x hx)⟩
  | @store _ _ _ before resumed _ _ _ hb hr h =>
    obtain ⟨hrest, hall, hheeds⟩ := hnext _ _ _ _ _ h
    refine ⟨List.forall_mem_cons.2 ⟨hspares, hrest⟩, fun hw => ?_, heeds_cons hheeds hall⟩
    have hresumed : F resumed :=
      hF.others _ _ hr (hF.own _ _ (hspares before) (hF.others _ _ hb hw))
    exact List.forall_mem_cons.2 ⟨hlate _ _ _, fun x hx =>
      (hL g _ x (hlate w before resumed)).1 (hall hresumed x hx)⟩

/-- A request that is handed over where `F` does not hold. -/
theorem obeysUnasked_generate {request : Request} {next : Outcome → Plan α}
    (hnext : ∀ outcome, Obeys R F L g (next outcome)) :
    ObeysUnasked R F L g (.generate request next) := by
  intro w tale a w' _ h
  cases h with
  | @generate _ _ _ resumed _ _ _ outcome hr h =>
    obtain ⟨hrest, hall, hheeds⟩ := hnext _ _ _ _ _ h
    have hsame : g ++ (Event.request request w resumed).deeds = g := List.append_nil g
    exact ⟨List.forall_mem_cons.2 ⟨trivial, hrest⟩,
      heeds_cons (hsame.symm ▸ hheeds) (hsame.symm ▸ hall)⟩

/-- **A look at `F`.**  It needs no waiting, so what follows begins in the world that was looked
at. -/
theorem obeys_look (hL : Indifferent L) (hlate : ∀ w, L g (.statement .memory id w w w))
    (hasked : ∀ w, F w → Obeys R F L (g ++ [⟨w, w⟩]) (next w))
    (hunasked : ∀ w, ¬F w → ObeysUnasked R F L (g ++ [⟨w, w⟩]) (next w)) :
    Obeys R F L g (.act .memory id next) := by
  intro w tale a w' h
  cases h with
  | @memory _ _ _ _ rest _ h =>
    by_cases hw : F w
    · obtain ⟨hrest, hall, hheeds⟩ := hasked w hw _ _ _ _ h
      exact ⟨List.forall_mem_cons.2 ⟨fun _ => rfl, hrest⟩,
        fun _ => List.forall_mem_cons.2 ⟨hlate w, fun x hx => (hL g _ x (hlate w)).1 (hall hw x hx)⟩,
        heeds_cons hheeds hall⟩
    · obtain ⟨hrest, hheeds⟩ := hunasked w hw _ _ _ _ hw h
      exact ⟨List.forall_mem_cons.2 ⟨fun _ => rfl, hrest⟩, fun hF => absurd hF hw,
        heeds_cons hheeds fun hF => absurd hF hw⟩

end

end PromptForms
