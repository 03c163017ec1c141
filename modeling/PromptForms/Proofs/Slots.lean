/-
  PromptForms.Proofs.Slots
  ────────────────────────
  **THE SLOTS OF A PROCESS.**

  Blocks take the slots of submissions and give them back when they are left, also by a
  failure; in between, runs are asked to stop.  What a registry then says is a matter of
  what has happened to it: who is active is who has entered and not left, and a run has
  been asked to stop if somebody did so while it held its slot.

      Registry.Act           what happens to a registry
      Registry.History       a registry after everything that has happened to it
      Registry.openClaims    the blocks that have been entered and not left
      Registry.Signalled     a run has been asked to stop while its block was open
      Runner.claim           a block: take the slot, do something, give it back

  Main results:
    • `Exact.entered`, `left`, `asked`    what each act does to the slots and the flags
    • exact_of_history                    so they are exact after every history
    • run_claim                           a block is left exactly once, however it ends
    • slots_exact                         who is active, who is refused, who has been asked
-/
import PromptForms.Proofs.Alone
import PromptForms.Proofs.Heeding

namespace PromptForms

namespace Registry

/-! ## §1. Histories. -/

/-- What happens to the slots of a process. -/
inductive Act where
  /-- A block takes the slot of a submission; its run has the number. -/
  | entered (submission : Int) (run : Nat)
  /-- A block does not get the slot of a submission. -/
  | refused (submission : Int) (cause : Cause)
  /-- A block that has been entered is left, normally or by a failure. -/
  | left (submission : Int) (run : Nat)
  /-- The run in the slot of a submission is asked to stop, if there is one. -/
  | asked (submission : Int) (found : Bool)

/-- The block that an act enters: its submission and the number of its run. -/
def Act.entry? : Act → Option (Int × Nat)
  | entered submission run => some (submission, run)
  | _ => none

/-- The block that an act leaves. -/
def Act.exit? : Act → Option (Int × Nat)
  | left submission run => some (submission, run)
  | _ => none

/-- The blocks that have been entered. -/
def entries (acts : List Act) : List (Int × Nat) := acts.filterMap Act.entry?

/-- The blocks that have been left. -/
def exits (acts : List Act) : List (Int × Nat) := acts.filterMap Act.exit?

/-- The blocks that have been entered and not left, in the order in which they were entered. -/
def openClaims (acts : List Act) : List (Int × Nat) :=
  (entries acts).filter fun c => c ∉ exits acts

/-- The run has been asked to stop while its block was open. -/
def Signalled (acts : List Act) (run : Nat) : Prop :=
  ∃ before submission, before ++ [.asked submission true] <+: acts ∧
    (submission, run) ∈ openClaims before

/-- The registry after some acts.  Blocks are entered and runs are asked to stop at any moments; a
block is left at any moment after it has been entered, but once only. -/
inductive History : List Act → Registry → Prop
  | start : History [] {}
  | entered {acts : List Act} {r r' : Registry} {submission : Int} {run : Nat}
      (h : History acts r) (hs : r.start submission = .ok (run, r')) :
      History (acts ++ [.entered submission run]) r'
  | refused {acts : List Act} {r : Registry} {submission : Int} {cause : Cause}
      (h : History acts r) (hs : r.start submission = .error cause) :
      History (acts ++ [.refused submission cause]) r
  | left {acts : List Act} {r : Registry} {submission : Int} {run : Nat}
      (h : History acts r) (hopen : (submission, run) ∈ openClaims acts) :
      History (acts ++ [.left submission run]) (r.finish submission)
  | asked {acts : List Act} {r : Registry} (h : History acts r) (submission : Int) :
      History (acts ++ [.asked submission (r.cancel submission).1]) (r.cancel submission).2

/-! ## §2. Open blocks. -/

section

variable {acts more : List Act} {submission : Int} {run : Nat}

@[simp] theorem entries_append : entries (acts ++ more) = entries acts ++ entries more :=
  List.filterMap_append

@[simp] theorem exits_append : exits (acts ++ more) = exits acts ++ exits more :=
  List.filterMap_append

theorem mem_openClaims {c : Int × Nat} : c ∈ openClaims acts ↔ c ∈ entries acts ∧ c ∉ exits acts := by
  unfold openClaims
  rw [List.mem_filter, decide_eq_true_iff]

theorem openClaims_concat_entered (hnew : (submission, run) ∉ exits acts) :
    openClaims (acts ++ [.entered submission run]) = openClaims acts ++ [(submission, run)] := by
  have hentries : entries (acts ++ [.entered submission run]) =
      entries acts ++ [(submission, run)] := entries_append
  have hexits : exits (acts ++ [.entered submission run]) = exits acts :=
    exits_append.trans (List.append_nil _)
  unfold openClaims
  rw [hentries, hexits, List.filter_append, List.filter_singleton, decide_eq_true hnew]
  rfl

theorem openClaims_concat_left :
    openClaims (acts ++ [.left submission run]) =
      (openClaims acts).filter fun c => c ≠ (submission, run) := by
  have hentries : entries (acts ++ [.left submission run]) = entries acts :=
    entries_append.trans (List.append_nil _)
  have hexits : exits (acts ++ [.left submission run]) = exits acts ++ [(submission, run)] :=
    exits_append
  unfold openClaims
  rw [hentries, hexits, List.filter_filter]
  refine List.filter_congr fun c _ => ?_
  simp [not_or, and_comm]

/-- An act that neither enters nor leaves a block. -/
theorem openClaims_concat_other {a : Act} (hentry : entries [a] = []) (hexit : exits [a] = []) :
    openClaims (acts ++ [a]) = openClaims acts := by
  unfold openClaims
  rw [entries_append, exits_append, hentry, hexit, List.append_nil, List.append_nil]

theorem signalled_concat {a : Act} : Signalled (acts ++ [a]) run ↔
    Signalled acts run ∨ ∃ submission, a = .asked submission true ∧
      (submission, run) ∈ openClaims acts := by
  unfold Signalled
  constructor
  · rintro ⟨before, submission, hbefore, hopen⟩
    rcases List.prefix_concat_iff.1 hbefore with heq | hearlier
    · obtain ⟨rfl, hlast⟩ := List.append_inj' heq rfl
      cases hlast
      exact .inr ⟨submission, rfl, hopen⟩
    · exact .inl ⟨before, submission, hearlier, hopen⟩
  · rintro (⟨before, submission, hbefore, hopen⟩ | ⟨submission, rfl, hopen⟩)
    · exact ⟨before, submission, hbefore.trans (List.prefix_append ..), hopen⟩
    · exact ⟨acts, submission, List.prefix_rfl, hopen⟩

/-- Nobody is asked to stop by an act of another kind. -/
theorem signalled_concat_of_ne {a : Act} (h : ∀ submission, a ≠ .asked submission true) :
    Signalled acts run ↔ Signalled (acts ++ [a]) run := by
  rw [signalled_concat, or_iff_left]
  rintro ⟨submission, heq, -⟩
  exact h submission heq

end

/-! ## §3. What a registry says. -/

/-- Nobody is asked to stop by the start of a run. -/
theorem isCancelled_holding_eq (r : Registry) (submission : Int) (run : Nat) :
    (r.holding submission).isCancelled run = r.isCancelled run := by
  unfold isCancelled holding
  rw [List.getD_eq_getElem?_getD, List.getD_eq_getElem?_getD]
  by_cases hlt : run < r.flags.length
  · rw [List.getElem?_append_left hlt]
  · have hle := Nat.not_lt.1 hlt
    rw [List.getElem?_append_right hle, List.getElem?_eq_none hle]
    cases run - r.flags.length <;> rfl

/-- There is a run to ask exactly if the submission is active. -/
theorem found_eq_isActive (r : Registry) (submission : Int) :
    (r.cancel submission).1 = r.isActive submission := by
  rw [Heeding.isActive_eq_isSome_lookup]
  unfold cancel
  cases r.slots.lookup submission <;> rfl

/-- The slots and the flags of a registry say what has happened to it. -/
structure Exact (acts : List Act) (r : Registry) : Prop where
  slots : r.slots = openClaims acts
  /-- A submission has one slot. -/
  single : r.active.Nodup
  /-- Runs are numbered in the order in which their blocks were entered. -/
  numbered : (entries acts).map (·.2) = List.range r.flags.length
  exits_entered : ∀ c ∈ exits acts, c ∈ entries acts
  asked : ∀ run, r.isCancelled run = true ↔ Signalled acts run

namespace Exact

variable {acts : List Act} {r r' : Registry} {submission : Int} {run : Nat}

theorem isActive_iff (h : Exact acts r) :
    r.isActive submission = true ↔ ∃ run, (submission, run) ∈ openClaims acts := by
  rw [← h.slots]
  unfold isActive
  rw [List.any_eq_true]
  constructor
  · rintro ⟨⟨_, run⟩, hslot, heq⟩
    cases beq_iff_eq.1 heq
    exact ⟨run, hslot⟩
  · rintro ⟨run, hslot⟩
    exact ⟨_, hslot, beq_self_eq_true submission⟩

/-- The numbers of runs are smaller than the next one. -/
theorem lt_of_mem_entries (h : Exact acts r) (hc : (submission, run) ∈ entries acts) :
    run < r.flags.length := by
  have hmem : run ∈ (entries acts).map (·.2) := List.mem_map_of_mem hc
  rw [h.numbered] at hmem
  exact List.mem_range.1 hmem

/-- A number belongs to one block only. -/
theorem entries_unique (h : Exact acts r) {other : Int} (hc : (submission, run) ∈ entries acts)
    (hc' : (other, run) ∈ entries acts) : submission = other := by
  have hnodup : ((entries acts).map (·.2)).Nodup := h.numbered ▸ List.nodup_range
  exact congrArg Prod.fst (List.inj_on_of_nodup_map hnodup hc hc' rfl)

theorem start : Exact [] {} where
  slots := rfl
  single := List.nodup_nil
  numbered := rfl
  exits_entered := fun _ hc => nomatch hc
  asked := by
    intro run
    constructor
    · intro h
      cases h
    · rintro ⟨before, submission, hbefore, -⟩
      exact absurd (List.prefix_nil.1 hbefore) (by simp)

theorem entered (h : Exact acts r) (hfree : r.isActive submission = false) :
    Exact (acts ++ [.entered submission r.flags.length]) (r.holding submission) := by
  have hexits : exits (acts ++ [.entered submission r.flags.length]) = exits acts :=
    exits_append.trans (List.append_nil _)
  have hnew : (submission, r.flags.length) ∉ exits acts := fun hexit =>
    Nat.lt_irrefl _ (h.lt_of_mem_entries (h.exits_entered _ hexit))
  refine ⟨?_, ?_, ?_, ?_, ?_⟩
  · rw [openClaims_concat_entered hnew, ← h.slots]
    rfl
  · have hfresh : submission ∉ r.active := by
      intro hmem
      obtain ⟨slot, hslot, rfl⟩ := List.mem_map.1 hmem
      have hactive := List.any_eq_false.1 hfree slot hslot
      exact hactive (beq_self_eq_true _)
    have hactive : (r.holding submission).active = r.active ++ [submission] := List.map_append
    rw [hactive, ← List.concat_eq_append]
    exact h.single.concat hfresh
  · show (entries (acts ++ [.entered submission r.flags.length])).map (·.2) =
      List.range (r.flags ++ [false]).length
    rw [entries_append, List.map_append, h.numbered, List.length_append, List.length_singleton,
      List.range_succ]
    rfl
  · intro c hc
    rw [hexits] at hc
    rw [entries_append]
    exact List.mem_append_left _ (h.exits_entered c hc)
  · intro other
    rw [isCancelled_holding_eq]
    exact (h.asked other).trans (signalled_concat_of_ne nofun)

/-- An act that neither enters nor leaves a block, and that may set flags. -/
theorem other (h : Exact acts r) {a : Act} (hentry : entries [a] = []) (hexit : exits [a] = [])
    (hslots : r'.slots = r.slots) (hlength : r'.flags.length = r.flags.length)
    (hasked : ∀ run, r'.isCancelled run = true ↔ Signalled (acts ++ [a]) run) :
    Exact (acts ++ [a]) r' where
  slots := by rw [hslots, openClaims_concat_other hentry hexit, h.slots]
  single := by
    unfold active
    rw [hslots]
    exact h.single
  numbered := by rw [hlength, entries_append, hentry, List.append_nil, h.numbered]
  exits_entered := by
    rw [exits_append, hexit, entries_append, hentry, List.append_nil, List.append_nil]
    exact h.exits_entered
  asked := hasked

theorem refused (h : Exact acts r) (cause : Cause) :
    Exact (acts ++ [.refused submission cause]) r :=
  h.other rfl rfl rfl rfl fun run => (h.asked run).trans (signalled_concat_of_ne nofun)

theorem left (h : Exact acts r) (hopen : (submission, run) ∈ openClaims acts) :
    Exact (acts ++ [.left submission run]) (r.finish submission) where
  slots := by
    rw [openClaims_concat_left, ← h.slots]
    refine List.filter_congr fun c hc => ?_
    -- The slot of the submission is that of this block.
    have hslot : (submission, run) ∈ r.slots := h.slots ▸ hopen
    rw [Bool.eq_iff_iff, bne_iff_ne, decide_eq_true_iff]
    exact ⟨fun hne heq => hne (heq ▸ rfl),
      fun hne heq => hne (List.inj_on_of_nodup_map h.single hc hslot heq)⟩
  single := h.single.sublist (List.filter_sublist.map _)
  numbered := by
    rw [entries_append, List.map_append]
    exact (List.append_nil _).trans h.numbered
  exits_entered := by
    intro c hc
    rw [exits_append] at hc
    rw [entries_append]
    refine List.mem_append_left _ ?_
    rcases List.mem_append.1 hc with hc | hc
    · exact h.exits_entered c hc
    · cases List.mem_singleton.1 hc
      exact (mem_openClaims.1 hopen).1
  asked := fun other => (h.asked other).trans (signalled_concat_of_ne nofun)

/-- **A request to stop** reaches the run that holds the slot, and nobody else. -/
theorem isCancelled_cancel (h : Exact acts r) : (r.cancel submission).2.isCancelled run =
    (r.isCancelled run || decide ((submission, run) ∈ openClaims acts)) := by
  have hopen (run : Nat) : (submission, run) ∈ openClaims acts ↔
      r.slots.lookup submission = some run := by
    rw [← h.slots]
    exact (Dictionary.lookup_eq_some_iff_mem h.single).symm
  rw [Bool.eq_iff_iff, Bool.or_eq_true, decide_eq_true_iff, hopen]
  unfold cancel
  cases hslot : r.slots.lookup submission with
  | none => simp
  | some holder =>
    have hstarted := h.lt_of_mem_entries (mem_openClaims.1 ((hopen holder).2 hslot)).1
    unfold isCancelled
    simp only [List.getD_eq_getElem?_getD, List.getElem?_set]
    by_cases heq : holder = run
    · simp [heq, heq ▸ hstarted]
    · simp [heq]

theorem asked_concat (h : Exact acts r) (submission : Int) :
    Exact (acts ++ [.asked submission (r.cancel submission).1]) (r.cancel submission).2 := by
  refine h.other rfl rfl (Heeding.slots_cancel r submission)
    (Heeding.length_flags_cancel r submission) fun run => ?_
  rw [h.isCancelled_cancel, Bool.or_eq_true, decide_eq_true_iff, h.asked, signalled_concat]
  refine or_congr_right ⟨fun hopen => ⟨submission, ?_, hopen⟩, ?_⟩
  · rw [found_eq_isActive, h.isActive_iff.2 ⟨run, hopen⟩]
  · rintro ⟨_, heq, hopen⟩
    cases (Act.asked.inj heq).1
    exact hopen

end Exact

/-- **After every history** the slots and the flags say what has happened. -/
theorem exact_of_history {acts : List Act} {r : Registry} (h : History acts r) : Exact acts r := by
  induction h with
  | start => exact .start
  | entered h hs ih =>
    rename_i r r' submission run
    cases hactive : r.isActive submission with
    | false =>
      rw [start_of_free hactive] at hs
      cases hs
      exact ih.entered hactive
    | true =>
      unfold Registry.start at hs
      rw [if_pos hactive] at hs
      cases hs
  | refused h hs ih => exact ih.refused _
  | left h hopen ih => exact ih.left hopen
  | asked h submission ih => exact ih.asked_concat submission

/-! ## §4. Later. -/

section

variable {acts more : List Act} {r r' : Registry} {submission : Int} {run : Nat}

theorem start_of_active (hactive : r.isActive submission = true) :
    r.start submission = .error (.concurrentRun submission) := by
  unfold Registry.start
  exact if_pos hactive

/-- Nobody asks a run to stop after its block has been left. -/
theorem signalled_of_append (h : Exact (acts ++ more) r')
    (hleft : (submission, run) ∈ exits acts) (hs : Signalled (acts ++ more) run) :
    Signalled acts run := by
  obtain ⟨before, stopped, hbefore, hopen⟩ := hs
  rcases List.prefix_or_prefix_of_prefix hbefore (List.prefix_append acts more) with hthen | hlater
  · exact ⟨before, stopped, hthen, hopen⟩
  rcases List.prefix_concat_iff.1 hlater with rfl | ⟨between, rfl⟩
  · exact ⟨before, stopped, List.prefix_rfl, hopen⟩
  · -- The block was open when somebody asked, but it had been left before.
    exfalso
    obtain ⟨hentered, hstill⟩ := mem_openClaims.1 hopen
    obtain ⟨after, hafter⟩ := hbefore
    have hexit : (submission, run) ∈ exits (acts ++ more) := by
      rw [exits_append]
      exact List.mem_append_left _ hleft
    have hentry : (stopped, run) ∈ entries (acts ++ more) := by
      rw [← hafter, List.append_assoc, entries_append]
      exact List.mem_append_left _ hentered
    obtain rfl := h.entries_unique (h.exits_entered _ hexit) hentry
    refine hstill ?_
    rw [exits_append]
    exact List.mem_append_left _ hleft

/-- **The flag of a run that has ended** stays as it is. -/
theorem isCancelled_of_left (h : Exact acts r) (h' : Exact (acts ++ more) r')
    (hleft : (submission, run) ∈ exits acts) : r'.isCancelled run = r.isCancelled run := by
  rw [Bool.eq_iff_iff, h'.asked, h.asked]
  refine ⟨signalled_of_append h' hleft, ?_⟩
  rintro ⟨before, stopped, hbefore, hopen⟩
  exact ⟨before, stopped, hbefore.trans (List.prefix_append ..), hopen⟩

end

end Registry

/-! ## §5. Blocks. -/

namespace Runner

variable {α σ : Type} (r : Runner) (submission : Int) (body : Nat → Job α)

/-- A block: takes the slot of a submission, does something with the number of the run, and gives
the slot back, however that ends. -/
def claim : Job α := do
  let number ← r.claimSlot submission
  (body number).andFinally (r.freeSlot submission)

theorem run_eq_claim : r.run submission = r.claim submission (r.runClaimed submission) := rfl

variable {r submission body} {around : Plan.Surroundings σ} {w : World}

/-- A block that is refused does nothing. -/
theorem run_claim_of_error {cause : Cause}
    (h : (w.registries r.process).start submission = .error cause) (s : σ) :
    (r.claim submission body).run.run around w s =
      (.error (Failure.ofCause cause), around.react w w s) := by
  have hslot : (r.claimSlot submission).run.run around w s =
      (.error (Failure.ofCause cause), around.react w w s) := by
    unfold claimSlot Job.inMemory Job.statementOn
    simp only [ExceptT.run_mk, Plan.run, h]
    rfl
  show Plan.run around (Plan.bind (r.claimSlot submission).run (ExceptT.bindCont _)) w s = _
  rw [Plan.run_bind, hslot]
  rfl

/-- A block that is entered is left once, and its body decides how it ends. -/
theorem run_claim_of_ok {number : Nat} {registry : Registry}
    (h : (w.registries r.process).start submission = .ok (number, registry)) (s : σ) :
    let entered := around.react w (w.withRegistry r.process registry) s
    let ended := (body number).run.run around entered.1 entered.2
    (r.claim submission body).run.run around w s =
      (ended.1, around.react ended.2.1 (ended.2.1.withRegistry r.process
        ((ended.2.1.registries r.process).finish submission)) ended.2.2) := by
  intro entered ended
  have hslot : (r.claimSlot submission).run.run around w s = (.ok number, entered) := by
    unfold claimSlot Job.inMemory Job.statementOn
    simp only [ExceptT.run_mk, Plan.run, h]
    rfl
  show Plan.run around (Plan.bind (r.claimSlot submission).run (ExceptT.bindCont _)) w s = _
  rw [Plan.run_bind, hslot]
  show Plan.run around (Plan.bind (body number).run fun result =>
    Plan.bind (r.freeSlot submission).run fun _ => .done result) entered.1 entered.2 = _
  rw [Plan.run_bind]
  rfl

end Runner

/-! ## §6. The result. -/

/-- **The slots of a process are exact.**  Blocks are entered and left, runs are asked to stop, and
questions are asked at any moments and for any submissions.

The active submissions are those with a block that has been entered and not left, each of them once
and in the order in which their blocks were entered.  For an active submission no block can be
entered, and nothing changes; for any other one a block can be entered, and its run is a new one that
has not been asked to stop, while all others have been asked as before.  A request to stop finds a run
exactly if the submission is active, and it reaches the run that holds the slot and nobody else.  A run
counts as asked exactly if somebody asked while its block was open, so nothing changes for it after
its block has been left.

A run is a block, and in any surroundings a block that is refused does nothing, while one that is
entered gives its slot back however its body ends, and ends as its body does. -/
theorem slots_exact :
    (∀ (acts : List Registry.Act) (r : Registry), r.History acts →
      (r.active = (Registry.openClaims acts).map (·.1) ∧ r.active.Nodup ∧
        ∀ id, r.isActive id = true ↔ id ∈ r.active) ∧
      (∀ id, r.isActive id = true → r.start id = .error (.concurrentRun id)) ∧
      (∀ id, r.isActive id = false → ∃ number r', r.start id = .ok (number, r') ∧
        (∀ other, .entered other number ∉ acts) ∧ r'.isCancelled number = false ∧
        ∀ run, r'.isCancelled run = r.isCancelled run) ∧
      (∀ id, (r.cancel id).1 = r.isActive id ∧ (r.cancel id).2.active = r.active ∧
        ∀ run, (r.cancel id).2.isCancelled run =
          (r.isCancelled run || decide ((id, run) ∈ Registry.openClaims acts))) ∧
      (∀ run, r.isCancelled run = true ↔ Registry.Signalled acts run) ∧
      ∀ more r', Registry.History (acts ++ more) r' → ∀ id run, .left id run ∈ acts →
        r'.isCancelled run = r.isCancelled run) ∧
    ∀ (runner : Runner) (id : Int),
      runner.run id = runner.claim id (runner.runClaimed id) ∧
      ∀ (α σ : Type) (body : Nat → Job α) (around : Plan.Surroundings σ) (w : World) (s : σ),
        (∀ cause, (w.registries runner.process).start id = .error cause →
          (runner.claim id body).run.run around w s =
            (.error (Failure.ofCause cause), around.react w w s)) ∧
        ∀ number registry, (w.registries runner.process).start id = .ok (number, registry) →
          let entered := around.react w (w.withRegistry runner.process registry) s
          let ended := (body number).run.run around entered.1 entered.2
          (runner.claim id body).run.run around w s =
            (ended.1, around.react ended.2.1 (ended.2.1.withRegistry runner.process
              ((ended.2.1.registries runner.process).finish id)) ended.2.2) := by
  refine ⟨fun acts r hr => ?_, fun runner id => ⟨rfl, fun α σ body around w s =>
    ⟨fun cause h => Runner.run_claim_of_error h s, fun number registry h =>
      Runner.run_claim_of_ok h s⟩⟩⟩
  have h := Registry.exact_of_history hr
  refine ⟨⟨?_, h.single, fun id => ?_⟩, fun id => Registry.start_of_active, fun id hfree => ?_,
    fun id => ⟨Registry.found_eq_isActive r id, ?_, fun run => h.isCancelled_cancel⟩, h.asked, ?_⟩
  · rw [← h.slots]
    rfl
  · unfold Registry.isActive Registry.active
    rw [List.any_eq_true, List.mem_map]
    exact exists_congr fun slot => and_congr_right fun _ => beq_iff_eq
  · refine ⟨_, _, Registry.start_of_free hfree, fun other hentered => ?_,
      Registry.isCancelled_holding r id, fun run => Registry.isCancelled_holding_eq r id run⟩
    -- The number of the run is greater than all those before.
    have hentry : (other, r.flags.length) ∈ Registry.entries acts :=
      List.mem_filterMap.2 ⟨_, hentered, rfl⟩
    exact Nat.lt_irrefl _ (h.lt_of_mem_entries hentry)
  · unfold Registry.active
    rw [Heeding.slots_cancel]
  · intro more r' hr' id run hleft
    exact Registry.isCancelled_of_left h (Registry.exact_of_history hr')
      (List.mem_filterMap.2 ⟨_, hleft, rfl⟩)

namespace Slots

open Registry

/-- Two submissions are active, and the first one is asked to stop and given up; a second block for it
is refused before and entered afterwards. -/
def acts : List Act :=
  [.entered 7 0, .entered 8 1, .refused 7 (.concurrentRun 7), .asked 7 true, .left 7 0,
    .asked 7 false, .entered 7 2]

/-- The runs of both submissions are there, and only the run that has ended was asked to stop. -/
def registry : Registry := { slots := [(8, 1), (7, 2)], flags := [true, false, false] }

theorem history : registry.History acts := by
  have both : History [.entered 7 0, .entered 8 1] { slots := [(7, 0), (8, 1)], flags := [false, false] } :=
    .entered (.entered .start rfl) rfl
  have asked : History [.entered 7 0, .entered 8 1, .refused 7 (.concurrentRun 7), .asked 7 true]
      { slots := [(7, 0), (8, 1)], flags := [true, false] } := .asked (.refused both rfl) 7
  exact .entered (.asked (.left asked (by decide)) 7) rfl

end Slots

theorem slots_exact_twice :
    Slots.registry.active = [8, 7] ∧
      Slots.registry.start 7 = .error (.concurrentRun 7) ∧
      Registry.Signalled Slots.acts 0 ∧ ¬Registry.Signalled Slots.acts 2 ∧
      ∀ run, (Slots.registry.cancel 7).2.isCancelled run =
        (Slots.registry.isCancelled run || decide ((7, run) ∈ Registry.openClaims Slots.acts)) := by
  obtain ⟨⟨hactive, -⟩, hrefused, -, hcancel, hasked, -⟩ :=
    slots_exact.1 Slots.acts Slots.registry Slots.history
  refine ⟨hactive.trans (by decide), hrefused 7 (by decide), (hasked 0).1 (by decide), fun h => ?_,
    (hcancel 7).2.2⟩
  exact absurd ((hasked 2).2 h) (by decide)

end PromptForms
