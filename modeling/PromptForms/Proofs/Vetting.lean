/-
  PromptForms.Proofs.Vetting
  ──────────────────────────
  **WHICH PIPELINES THE CHECK LETS THROUGH.**

  The check of a pipeline sorts its steps, lists the names in each prompt, and stops at
  the first name that may not stand there.  What may not stand there can be said without
  the reader of step references: a name of the shape of a step output whose middle is no
  number of a step, or is the number of a step that is not before this one.  The fault that
  is reported is the first one of the offending step with the lowest number.

      Numbers           a text is the number of a step
      Offends           a name may not stand in the prompt of a step
      Faulty            a step has such a name
      IsLowest          the step with the lowest number, the first of them in the list

  Main results:
    • checkName_eq          what the check says of one name, in terms of its reference
    • fault?_isSome_iff     names with a fault, said without the reader
    • isLowest_of_isFirst   the first step in order has the lowest number
    • vetting_exact         what the check says of a pipeline
-/
import Mathlib
import PromptForms.Proofs.Configured
import PromptForms.Proofs.Numbering

namespace PromptForms.Template

/-! ## §1. Names that may not stand in a prompt. -/

/-- The text is a positive decimal number without leading zeros, short enough to be read. -/
def Numbers (text : String) (k : Nat) : Prop :=
  0 < k ∧ k < 10 ^ Numeral.maxDigits ∧ text = toString k

/-- A name of the shape of a step output, with its middle. -/
def HasMiddle (name middle : String) : Prop := name = "step_" ++ middle ++ "_output"

/-- The name has the shape of a step output, but is not that of a step before the given one. -/
def NotBefore (step : Nat) (name : String) : Prop :=
  ∃ middle, HasMiddle name middle ∧
    ((∀ k, ¬Numbers middle k) ∨ ∃ k, Numbers middle k ∧ step ≤ k)

/-- The name is that of all fields, or of one field. -/
def OfFields (fieldIds : List String) (name : String) : Prop :=
  name = allFieldsName ∨ name ∈ fieldIds

/-- The name may not stand in the prompt of the step. -/
def Offends (fieldIds : List String) (step : Nat) (name : String) : Prop :=
  ¬OfFields fieldIds name ∧ NotBefore step name

/-- The name is neither that of fields nor of the shape of a step output. -/
def Unknown (fieldIds : List String) (name : String) : Prop :=
  ¬OfFields fieldIds name ∧ ¬∃ middle, HasMiddle name middle

/-- What is wrong with the reference of a name, whatever the fields are. -/
def fault? (step : Nat) (name : String) : Option VariableFault :=
  match reference name with
  | .error reason => some (.malformed reason)
  | .ok none => none
  | .ok (some k) => if step ≤ k then some (.notEarlier k step) else none

section

variable {fieldIds : List String} {step : Nat} {name : String}

theorem middle?_eq_some_iff (hname : '\n' ∉ name.toList) {m : List Char} :
    middle? name = some m ↔ HasMiddle name (String.ofList m) := by
  rw [middle?_eq_some hname, HasMiddle]
  constructor
  · intro h
    apply String.toList_injective
    simp [h]
  · rintro rfl
    simp

theorem exists_hasMiddle_iff (hname : '\n' ∉ name.toList) :
    (∃ middle, HasMiddle name middle) ↔ (middle? name).isSome = true := by
  rw [Option.isSome_iff_exists]
  constructor
  · rintro ⟨middle, h⟩
    refine ⟨middle.toList, (middle?_eq_some_iff hname).2 ?_⟩
    rwa [String.ofList_toList]
  · rintro ⟨m, h⟩
    exact ⟨_, (middle?_eq_some_iff hname).1 h⟩

/-- Two middles of one name are the same. -/
theorem HasMiddle.unique {middle other : String} (h : HasMiddle name middle)
    (h' : HasMiddle name other) : middle = other := by
  apply String.toList_injective
  have spelled := congrArg String.toList (h.symm.trans h')
  simpa using spelled

theorem hasMiddle_stepOutputName (k : Nat) : HasMiddle (stepOutputName k) (toString k) := rfl

/-- A name refers to a step exactly if its middle is the number of the step. -/
theorem reference_eq_step_iff (hname : '\n' ∉ name.toList) {k : Nat} :
    reference name = .ok (some k) ↔ ∃ middle, HasMiddle name middle ∧ Numbers middle k := by
  constructor
  · intro h
    obtain ⟨rfl, hpositive⟩ := reference_eq_step hname h
    refine ⟨toString k, hasMiddle_stepOutputName k, hpositive, ?_, rfl⟩
    -- The digits have been counted.
    by_contra hlarge
    have shape := (middle?_eq_some_iff hname).2
      (show HasMiddle (stepOutputName k) (String.ofList (Nat.toDigits 10 k)) from rfl)
    have long : Numeral.maxDigits < (Nat.toDigits 10 k).length := by
      rw [← Nat.not_le, Nat.length_toDigits_le_iff (by decide) (by decide)]
      exact hlarge
    unfold reference at h
    simp only [shape, if_pos long] at h
    split at h <;> cases h
  · rintro ⟨middle, hmiddle, hpositive, hsmall, rfl⟩
    obtain rfl : name = stepOutputName k := hmiddle
    exact reference_stepOutputName hpositive hsmall

theorem reference_eq_none_iff (hname : '\n' ∉ name.toList) :
    reference name = .ok none ↔ ¬∃ middle, HasMiddle name middle := by
  rw [reference_eq_none, exists_hasMiddle_iff hname, Option.not_isSome_iff_eq_none]

/-- Names with a fault, said without the reader of references. -/
theorem fault?_isSome_iff (hname : '\n' ∉ name.toList) :
    (fault? step name).isSome = true ↔ NotBefore step name := by
  have refers := fun k => reference_eq_step_iff (k := k) hname
  have shapeless := reference_eq_none_iff hname
  unfold fault? NotBefore
  cases hreference : reference name with
  | error reason =>
    -- The middle is there, and no number of a step.
    rw [hreference] at shapeless refers
    obtain ⟨middle, hmiddle⟩ : ∃ middle, HasMiddle name middle := by
      by_contra hnone
      cases shapeless.2 hnone
    refine iff_of_true rfl ⟨middle, hmiddle, .inl ?_⟩
    intro k hk
    cases (refers k).2 ⟨middle, hmiddle, hk⟩
  | ok found =>
    rw [hreference] at shapeless refers
    cases found with
    | none =>
      refine iff_of_false Bool.false_ne_true ?_
      rintro ⟨middle, hmiddle, -⟩
      exact shapeless.1 rfl ⟨middle, hmiddle⟩
    | some k =>
      obtain ⟨middle, hmiddle, hk⟩ := (refers k).1 rfl
      have same : ∀ {other k'}, HasMiddle name other → Numbers other k' → k' = k := by
        intro other k' hother hk'
        have hfound := (refers k').2 ⟨other, hother, hk'⟩
        injection hfound with hfound
        injection hfound with hfound
        exact hfound.symm
      dsimp only
      constructor
      · intro h
        split at h
        · exact ⟨middle, hmiddle, .inr ⟨k, hk, ‹_›⟩⟩
        · cases h
      · rintro ⟨other, hother, hnone | ⟨k', hk', hle⟩⟩
        · obtain rfl := hmiddle.unique hother
          exact absurd hk (hnone k)
        · rw [same hother hk'] at hle
          rw [if_pos hle]
          rfl

open Classical in
/-- What the check says of one name. -/
theorem checkName_eq (hname : '\n' ∉ name.toList) :
    checkName step fieldIds name =
      if OfFields fieldIds name then .ok none
      else match fault? step name with
        | some fault => .error ⟨step, name, fault⟩
        | none => .ok (if Unknown fieldIds name then some (unknownWarning step name) else none) := by
  have known : (name == allFieldsName || fieldIds.contains name) = true ↔ OfFields fieldIds name := by
    simp [OfFields]
  unfold checkName
  by_cases hknown : OfFields fieldIds name
  · rw [if_pos (known.2 hknown), if_pos hknown]
  · rw [if_neg (mt known.1 hknown), if_neg hknown]
    have shapeless := reference_eq_none_iff hname
    unfold fault? Unknown
    cases hreference : reference name with
    | error reason => rfl
    | ok found =>
      rw [hreference] at shapeless
      cases found with
      | none => simp [hknown, shapeless.1]
      | some k =>
        have shaped : ∃ middle, HasMiddle name middle := by
          by_contra hnone
          cases shapeless.2 hnone
        by_cases hk : step ≤ k <;> simp [hk, shaped]

/-- A name is refused exactly if it may not stand there, and then the fault is its own. -/
theorem checkName_eq_error_iff (hname : '\n' ∉ name.toList) {e : VariableError} :
    checkName step fieldIds name = .error e ↔
      ¬OfFields fieldIds name ∧ ∃ fault, fault? step name = some fault ∧ e = ⟨step, name, fault⟩ := by
  rw [checkName_eq hname]
  by_cases hknown : OfFields fieldIds name
  · simp [hknown]
  · cases fault? step name with
    | none => simp [hknown]
    | some fault => simp [hknown, eq_comm]

theorem exists_checkName_eq_error_iff (hname : '\n' ∉ name.toList) :
    (∃ e, checkName step fieldIds name = .error e) ↔ Offends fieldIds step name := by
  simp only [checkName_eq_error_iff hname, Offends, ← fault?_isSome_iff hname, Option.isSome_iff_exists]
  constructor
  · rintro ⟨e, hunknown, fault, hfault, -⟩
    exact ⟨hunknown, fault, hfault⟩
  · rintro ⟨hunknown, fault, hfault⟩
    exact ⟨_, hunknown, fault, hfault, rfl⟩

open Classical in
/-- What is said of a name that is let through. -/
theorem verdict_of_checkName (hname : '\n' ∉ name.toList) {verdict : Option String}
    (h : checkName step fieldIds name = .ok verdict) :
    verdict = if Unknown fieldIds name then some (unknownWarning step name) else none := by
  rw [checkName_eq hname] at h
  by_cases hknown : OfFields fieldIds name
  · rw [if_pos hknown] at h
    cases h
    rw [if_neg fun hunknown => hunknown.1 hknown]
  · rw [if_neg hknown] at h
    split at h
    · cases h
    · exact (Except.ok.inj h).symm

/-- If no field has a name of the program's own, the fields do not decide what is refused. -/
theorem checkName_eq_error_of_unreserved (hname : '\n' ∉ name.toList)
    (hids : ∀ id ∈ fieldIds, isReserved id = false) {e : VariableError} :
    checkName step fieldIds name = .error e ↔
      ∃ fault, fault? step name = some fault ∧ e = ⟨step, name, fault⟩ := by
  rw [checkName_eq_error_iff hname]
  refine and_iff_right_of_imp ?_
  rintro ⟨fault, hfault, -⟩ hknown
  -- A name of fields refers to no step.
  have noReference : reference name = .ok none := by
    rcases hknown with rfl | hfield
    · decide
    · exact reference_of_not_isReserved (hids name hfield)
  unfold fault? at hfault
  rw [noReference] at hfault
  cases hfault

end

/-! ## §2. Steps. -/

/-- The step has a name that may not stand in its prompt. -/
def Faulty (fieldIds : List String) (step : Step) : Prop :=
  ∃ name ∈ findVariables step.prompt, Offends fieldIds step.number name

open Classical in
/-- The unknown names in the prompt of a step, in order of first appearance. -/
noncomputable def unknownNames (fieldIds : List String) (step : Step) : List String :=
  (findVariables step.prompt).filter fun name => Unknown fieldIds name

theorem nodup_unknownNames (fieldIds : List String) (step : Step) :
    (unknownNames fieldIds step).Nodup :=
  (nodup_findVariables step.prompt).filter _

section

variable {fieldIds : List String} {step : Step}

/-- The check of a step fails as the check of its names. -/
theorem checkStep_eq_error {e : VariableError} :
    checkStep fieldIds step = .error e ↔
      (findVariables step.prompt).mapM (checkName step.number fieldIds) = .error e := by
  unfold checkStep
  cases (findVariables step.prompt).mapM (checkName step.number fieldIds) <;>
    simp [bind, Except.bind, pure, Except.pure]

/-- A step that is refused has a fault in the first name that may not stand there. -/
theorem checkStep_refused {e : VariableError} (h : checkStep fieldIds step = .error e) :
    Faulty fieldIds step ∧ e.step = step.number ∧
      IsFirst (Offends fieldIds step.number) (findVariables step.prompt) e.variableName := by
  obtain ⟨name, ⟨before, after, hnames, hname, hbefore⟩, he⟩ :=
    mapM_eq_error_iff.1 (checkStep_eq_error.1 h)
  have hmem : ∀ other ∈ findVariables step.prompt, '\n' ∉ other.toList :=
    fun other hother => not_feed_mem_of_mem_findVariables hother
  have hhere : name ∈ findVariables step.prompt := by
    rw [hnames]
    simp
  obtain ⟨-, fault, -, rfl⟩ := (checkName_eq_error_iff (hmem name hhere)).1 he
  have hoffends := (exists_checkName_eq_error_iff (hmem name hhere)).1 hname
  refine ⟨⟨name, hhere, hoffends⟩, rfl, before, after, hnames, hoffends, ?_⟩
  intro other hother hoffends
  have hlisted : other ∈ findVariables step.prompt := by
    rw [hnames]
    simp [hother]
  exact hbefore other hother ((exists_checkName_eq_error_iff (hmem other hlisted)).2 hoffends)

theorem exists_checkStep_eq_error_iff :
    (∃ e, checkStep fieldIds step = .error e) ↔ Faulty fieldIds step := by
  constructor
  · rintro ⟨e, h⟩
    exact (checkStep_refused h).1
  · rintro ⟨name, hmem, hoffends⟩
    -- A check that does not fail lets every name through.
    cases hcheck : checkStep fieldIds step with
    | error e => exact ⟨e, rfl⟩
    | ok warnings =>
      obtain ⟨found, hfound, -⟩ := exists_of_bind_eq_ok hcheck
      obtain ⟨verdict, hverdict⟩ := exists_mapM_eq_ok.1 ⟨found, hfound⟩ name hmem
      obtain ⟨e, he⟩ :=
        (exists_checkName_eq_error_iff (not_feed_mem_of_mem_findVariables hmem)).2 hoffends
      rw [hverdict] at he
      cases he

/-- The warnings of a step are about its unknown names. -/
theorem warnings_of_checkStep {warnings : List String} (h : checkStep fieldIds step = .ok warnings) :
    warnings = (unknownNames fieldIds step).map (unknownWarning step.number) := by
  classical
  obtain ⟨found, hfound, hwarnings⟩ := exists_of_bind_eq_ok h
  obtain rfl : found.filterMap id = warnings := by
    injection hwarnings
  have hverdicts := mapM_eq_ok.1 hfound
  have hnames : ∀ name ∈ findVariables step.prompt, '\n' ∉ name.toList :=
    fun name hname => not_feed_mem_of_mem_findVariables hname
  unfold unknownNames
  -- On the names; each adds its warning or none.
  generalize findVariables step.prompt = names at hverdicts hnames ⊢
  clear h hfound hwarnings
  induction hverdicts with
  | nil => rfl
  | @cons name verdict names found hverdict _ ih =>
    have rest := ih fun n hn => hnames n (List.mem_cons_of_mem name hn)
    have here := verdict_of_checkName (hnames name List.mem_cons_self) hverdict
    by_cases hunknown : Unknown fieldIds name
    · rw [if_pos hunknown] at here
      rw [here, List.filter_cons_of_pos (by simpa using hunknown), List.map_cons, ← rest]
      rfl
    · rw [if_neg hunknown] at here
      rw [here, List.filter_cons_of_neg (by simpa using hunknown), ← rest]
      rfl

end

/-! ## §3. Pipelines. -/

/-- The step with a property and the lowest number, the first such step in the list. -/
def IsLowest (p : Step → Prop) (steps : List Step) (step : Step) : Prop :=
  ∃ before after, steps = before ++ step :: after ∧ p step ∧
    (∀ s ∈ before, p s → step.number < s.number) ∧ ∀ s ∈ after, p s → step.number ≤ s.number

/-- The first step in order that has a property is the one with the lowest number. -/
theorem isLowest_of_isFirst {p : Step → Prop} {steps ordered : List Step} {step : Step}
    (horder : Step.Ordered steps ordered) (h : IsFirst p ordered step) : IsLowest p steps step := by
  obtain ⟨before, after, rfl, hstep, hbefore⟩ := h
  -- A step with the property that comes later in order has no lower number.
  have hsorted := List.pairwise_append.1 horder.sorted
  have hnoLower : ∀ s ∈ steps, p s → step.number ≤ s.number := by
    intro s hs hp
    rcases List.mem_append.1 (horder.same.mem_iff.2 hs) with hfront | hback
    · exact absurd hp (hbefore s hfront)
    · rcases List.mem_cons.1 hback with rfl | hlater
      · exact Nat.le_refl _
      · exact (List.pairwise_cons.1 hsorted.2.1).1 s hlater
  -- The steps of its number stand in the list as they stand in order.
  have hties := horder.stable step.number
  rw [List.filter_append, List.filter_cons_of_pos (by simp)] at hties
  obtain ⟨front, rest, rfl, hfront, hrest⟩ := List.filter_eq_append_iff.1 hties.symm
  obtain ⟨skipped, back, rfl, hskipped, -, -⟩ := List.filter_eq_cons_iff.1 hrest
  refine ⟨front ++ skipped, back, by simp, hstep, ?_, ?_⟩
  · intro s hs hp
    refine lt_of_le_of_ne (hnoLower s ?_ hp) ?_
    · rcases List.mem_append.1 hs with h | h <;> simp [h]
    · intro hsame
      rcases List.mem_append.1 hs with h | h
      · have : s ∈ before.filter fun s => s.number = step.number := by
          rw [← hfront]
          exact List.mem_filter.2 ⟨h, decide_eq_true hsame.symm⟩
        exact hbefore s (List.mem_filter.1 this).1 hp
      · exact hskipped s h (decide_eq_true hsame.symm)
  · intro s hs hp
    exact hnoLower s (by simp [hs]) hp

section

variable {steps : List Step} {fields : List Field}

/-- The check of a pipeline fails as the check of its steps in their order. -/
theorem checkSteps_eq_error {e : VariableError} :
    checkSteps steps fields = .error e ↔
      (Step.inStepOrder steps).mapM (checkStep (fields.map (·.id))) = .error e := by
  unfold checkSteps
  cases (Step.inStepOrder steps).mapM (checkStep (fields.map (·.id))) <;>
    simp [bind, Except.bind, pure, Except.pure]

/-- A pipeline that is refused has a fault in its step with the lowest number. -/
theorem checkSteps_refused {e : VariableError} (h : checkSteps steps fields = .error e) :
    ∃ step, IsLowest (Faulty (fields.map (·.id))) steps step ∧ e.step = step.number ∧
      IsFirst (Offends (fields.map (·.id)) step.number) (findVariables step.prompt) e.variableName := by
  obtain ⟨step, hfirst, he⟩ := mapM_eq_error_iff.1 (checkSteps_eq_error.1 h)
  simp only [exists_checkStep_eq_error_iff] at hfirst
  exact ⟨step, isLowest_of_isFirst (Step.ordered_inStepOrder steps) hfirst, (checkStep_refused he).2⟩

/-- A pipeline is let through exactly if none of its steps is faulty. -/
theorem exists_checkSteps_eq_error_iff :
    (∃ e, checkSteps steps fields = .error e) ↔ ∃ step ∈ steps, Faulty (fields.map (·.id)) step := by
  constructor
  · rintro ⟨e, h⟩
    obtain ⟨step, ⟨before, after, rfl, hfaulty, -⟩, -⟩ := checkSteps_refused h
    exact ⟨step, by simp, hfaulty⟩
  · rintro ⟨step, hmem, hfaulty⟩
    cases hcheck : checkSteps steps fields with
    | error e => exact ⟨e, rfl⟩
    | ok warnings =>
      obtain ⟨found, hfound, -⟩ := exists_of_bind_eq_ok hcheck
      obtain ⟨verdict, hverdict⟩ := exists_mapM_eq_ok.1 ⟨found, hfound⟩ step
        ((Step.ordered_inStepOrder steps).same.mem_iff.2 hmem)
      obtain ⟨e, he⟩ := exists_checkStep_eq_error_iff.2 hfaulty
      rw [hverdict] at he
      cases he

/-- The warnings of a pipeline are those of its steps in their order. -/
theorem warnings_of_checkSteps {warnings : List String} (h : checkSteps steps fields = .ok warnings) :
    warnings = (Step.inStepOrder steps).flatMap fun step =>
      (unknownNames (fields.map (·.id)) step).map (unknownWarning step.number) := by
  obtain ⟨found, hfound, hwarnings⟩ := exists_of_bind_eq_ok h
  obtain rfl : found.flatten = warnings := by
    injection hwarnings
  have hverdicts := mapM_eq_ok.1 hfound
  generalize Step.inStepOrder steps = ordered at hverdicts ⊢
  clear h hfound hwarnings
  rw [List.flatMap_def]
  congr 1
  induction hverdicts with
  | nil => rfl
  | cons hstep _ ih => rw [List.map_cons, ← warnings_of_checkStep hstep, ← ih]

/-- If no field has a name of the program's own, the fields do not decide which fault is found. -/
theorem checkSteps_eq_error_congr {fields' : List Field} (hids : reservedIds fields = [])
    (hids' : reservedIds fields' = []) {e : VariableError} :
    checkSteps steps fields = .error e ↔ checkSteps steps fields' = .error e := by
  have hstep : ∀ step ∈ Step.inStepOrder steps, ∀ e,
      checkStep (fields.map (·.id)) step = .error e ↔ checkStep (fields'.map (·.id)) step = .error e := by
    intro step _ e
    rw [checkStep_eq_error, checkStep_eq_error]
    refine mapM_eq_error_congr fun name hname e => ?_
    have hfeed := not_feed_mem_of_mem_findVariables hname
    rw [checkName_eq_error_of_unreserved hfeed (not_isReserved_of_reservedIds hids),
      checkName_eq_error_of_unreserved hfeed (not_isReserved_of_reservedIds hids')]
  rw [checkSteps_eq_error, checkSteps_eq_error]
  exact mapM_eq_error_congr hstep

end

/-- **Which pipelines the check lets through.**  For all steps, with any numbers and in any order, and
for all fields:

  1. The check fails exactly if a step has a name that is neither that of all fields nor of a field,
     has the shape of a step output, and whose middle is no number of a step, or that of a step that is
     not before this one.
  2. Then it names the step with the lowest number that has such a name, the first of them in the list,
     and the first such name in its prompt.
  3. Otherwise it warns about the unknown names of each step, each of them once, in the order of the
     steps and of first appearance.
  4. If no field has a name of the program's own, the fields decide neither whether it fails nor how. -/
theorem vetting_exact (steps : List Step) (fields : List Field) :
    ((∃ e, checkSteps steps fields = .error e) ↔
      ∃ step ∈ steps, ∃ name ∈ findVariables step.prompt,
        Offends (fields.map (·.id)) step.number name) ∧
    (∀ e, checkSteps steps fields = .error e →
      ∃ step, IsLowest (Faulty (fields.map (·.id))) steps step ∧ e.step = step.number ∧
        IsFirst (Offends (fields.map (·.id)) step.number) (findVariables step.prompt) e.variableName) ∧
    (∀ warnings, checkSteps steps fields = .ok warnings →
      (∀ step ∈ steps, (unknownNames (fields.map (·.id)) step).Nodup) ∧
      ∃ ordered, Step.Ordered steps ordered ∧
        warnings = ordered.flatMap fun step =>
          (unknownNames (fields.map (·.id)) step).map (unknownWarning step.number)) ∧
    (reservedIds fields = [] → ∀ fields', reservedIds fields' = [] →
      ∀ e, checkSteps steps fields = .error e ↔ checkSteps steps fields' = .error e) := by
  refine ⟨exists_checkSteps_eq_error_iff, fun e => checkSteps_refused, ?_, ?_⟩
  · intro warnings h
    refine ⟨fun step _ => nodup_unknownNames _ step, Step.inStepOrder steps, ?_, ?_⟩
    · exact Step.ordered_inStepOrder steps
    · exact warnings_of_checkSteps h
  · intro hids fields' hids' e
    exact checkSteps_eq_error_congr hids hids'

namespace Vetting

/-- Three steps, the last two of one number; the second one has an unknown name in front of a reference
with a leading zero. -/
def steps : List Step :=
  [{ number := 3, name := "Send", prompt := "\x7bstep_3_output\x7d" },
    { number := 2, name := "Draft", prompt := "\x7btone\x7d \x7bstep_01_output\x7d \x7bstep_9_output\x7d" },
    { number := 2, name := "Check", prompt := "\x7bstep_x_output\x7d" }]

end Vetting

/-- The draft is the first step with the lowest number that is refused, for the first name of the shape of
a step output in its prompt; no field of a form changes that. -/
theorem vetting_exact_draft :
    (∃ step, IsLowest (Faulty []) Vetting.steps step ∧ 2 = step.number ∧
      IsFirst (Offends [] step.number) (findVariables step.prompt) "step_01_output") ∧
    checkSteps Vetting.steps [{ id := "tone", type := .text, label := "Tone" }] =
      .error ⟨2, "step_01_output", .malformed (.notPositive "01")⟩ := by
  have refused : checkSteps Vetting.steps [] =
      .error ⟨2, "step_01_output", .malformed (.notPositive "01")⟩ := by cbv
  have h := vetting_exact Vetting.steps []
  exact ⟨h.2.1 _ refused, (h.2.2.2 rfl _ (by decide) _).1 refused⟩

end PromptForms.Template
