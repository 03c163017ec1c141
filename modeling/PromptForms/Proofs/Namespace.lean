/-
  PromptForms.Proofs.Namespace
  ────────────────────────────
  **ONE NAMESPACE FOR A STEP.**

  What a prompt may refer to is written down three times: the editor lists it, the
  check sorts the names of a prompt, and a run builds a context.  `Visible` is what all
  three mean.  For a step that the check lets through, a name of its prompt gets no
  warning exactly if it is listed, and exactly if it has a text in the context of the
  step, so the names that are warned about are the ones that strict mode refuses.

  Main results:
    • mem_availableVariables_iff   the editor lists the visible names
    • hasKey_context_iff           the context has the visible names
    • checkName_accepted           the check warns about all other names
    • namespace_agrees             the three together, and what follows for a run
-/
import Mathlib.Data.List.TFAE
import PromptForms.Proofs.Documents
import PromptForms.Proofs.Placeholders
import PromptForms.Proofs.References
import PromptForms.Run.Execute
import PromptForms.Template.Check

namespace PromptForms.Template

/-! ## §1. What a step sees. -/

/-- The names that a step may refer to: all fields, each field, and the outputs before it. -/
def Visible (fieldIds : List String) (step : Nat) (name : String) : Prop :=
  name = allFieldsName ∨ name ∈ fieldIds ∨ ∃ k, 0 < k ∧ k < step ∧ name = stepOutputName (k : Nat)

/-- The editor lists the visible names. -/
theorem mem_availableVariables_iff (fields : List Field) (step : Nat) (name : String) :
    name ∈ (availableVariables fields step).map (·.name) ↔
      Visible (fields.map (·.id)) step name := by
  have listed : (availableVariables fields step).map (·.name)
      = allFieldsName :: fields.map (·.id) ++
          (List.range' 1 (step - 1)).map fun k => stepOutputName (k : Nat) := by
    have bound : ((step : Int) - 1).toNat = step - 1 := by omega
    simp [availableVariables, bound, Function.comp_def]
  rw [listed, Visible]
  simp only [List.cons_append, List.mem_cons, List.mem_append, List.mem_map, List.mem_range'_1]
  constructor
  · rintro (rfl | hfield | ⟨k, hk, rfl⟩)
    · exact .inl rfl
    · exact .inr (.inl hfield)
    · exact .inr (.inr ⟨k, by omega, by omega, rfl⟩)
  · rintro (rfl | hfield | ⟨k, hpositive, hless, rfl⟩)
    · exact .inl rfl
    · exact .inr (.inl hfield)
    · exact .inr (.inr ⟨k, by omega, rfl⟩)

/-- The outputs of exactly the steps before a step. -/
def OutputsBefore (step : Nat) (outputs : List Output) : Prop :=
  ∀ k : Int, (∃ o ∈ outputs, o.step = k) ↔ 1 ≤ k ∧ k < step

/-- The context of a step has the visible names. -/
theorem hasKey_context_iff (fields : List Field) (values : Dictionary Value) {step : Nat}
    {outputs : List Output} (houtputs : OutputsBefore step outputs) (name : String) :
    (context fields values outputs step).hasKey name = true ↔
      Visible (fields.map (·.id)) step name := by
  have ofFields : (fieldTexts fields values).hasKey name = (fields.map (·.id)).contains name := by
    rw [fieldTexts, Dictionary.hasKey_ofPairs, List.map_map]
    rfl
  have ofOutputs : name ∈ (outputTexts outputs step).map (·.1) ↔
      ∃ k, 0 < k ∧ k < step ∧ name = stepOutputName (k : Nat) := by
    simp only [outputTexts, List.map_map, List.mem_map, List.mem_filter, decide_eq_true_eq]
    constructor
    · rintro ⟨o, ⟨ho, -⟩, rfl⟩
      obtain ⟨least, less⟩ := (houtputs o.step).1 ⟨o, ho, rfl⟩
      refine ⟨o.step.toNat, by omega, by omega, ?_⟩
      show stepOutputName o.step = _
      rw [Int.toNat_of_nonneg (by omega)]
    · rintro ⟨k, hpositive, hless, rfl⟩
      obtain ⟨o, ho, hk⟩ := (houtputs k).2 ⟨by omega, by omega⟩
      exact ⟨o, ⟨ho, by omega⟩, congrArg stepOutputName hk⟩
  rw [context, Dictionary.hasKey_setAll, Dictionary.hasKey_set, ofFields, Bool.or_eq_true,
    Bool.or_eq_true, List.contains_iff_mem, List.contains_iff_mem, beq_iff_eq, ofOutputs, Visible,
    or_assoc]

/-! ## §2. What the check says. -/

/-- A visible name is let through without a warning, any other with one or not at all. -/
theorem checkName_accepted {fieldIds : List String} {step : Nat}
    (hstep : step < 10 ^ Numeral.maxDigits) {name : String} (hname : '\n' ∉ name.toList)
    {verdict : Option String} (h : checkName step fieldIds name = .ok verdict) :
    (verdict = none ∧ Visible fieldIds step name) ∨
      (verdict = some (unknownWarning step name) ∧ ¬ Visible fieldIds step name) := by
  unfold checkName at h
  split at h
  · rename_i known
    refine .inl ⟨by cases h; rfl, ?_⟩
    simp only [Bool.or_eq_true, beq_iff_eq, List.contains_iff_mem] at known
    rcases known with rfl | hfield
    · exact .inl rfl
    · exact .inr (.inl hfield)
  · rename_i unknown
    simp only [Bool.or_eq_true, beq_iff_eq, List.contains_iff_mem, not_or] at unknown
    split at h
    · cases h
    · rename_i noReference
      refine .inr ⟨by cases h; rfl, ?_⟩
      rintro (hall | hfield | ⟨k, hpositive, hless, rfl⟩)
      · exact unknown.1 hall
      · exact unknown.2 hfield
      · rw [reference_stepOutputName hpositive (by omega)] at noReference
        cases noReference
    · rename_i k refers
      obtain ⟨rfl, hpositive⟩ := reference_eq_step hname refers
      split at h
      · cases h
      · exact .inl ⟨by cases h; rfl, .inr (.inr ⟨k, hpositive, by omega, rfl⟩)⟩

/-- Two names of a step have different warnings. -/
theorem unknownWarning_injective (step : Nat) : Function.Injective (unknownWarning step) := by
  intro a b h
  have spelled := congrArg String.toList h
  simp only [unknownWarning, String.toList_append, List.append_cancel_right_eq,
    List.append_cancel_left_eq] at spelled
  exact String.toList_injective spelled

open Classical in
/-- Verdicts on names that are all let through: the warnings are about those that the step does
not see. -/
theorem warnings_of_verdicts {fieldIds : List String} {step : Nat}
    (hstep : step < 10 ^ Numeral.maxDigits) {names : List String} {found : List (Option String)}
    (hnames : ∀ name ∈ names, '\n' ∉ name.toList)
    (hfound : List.Forall₂ (fun name verdict => checkName step fieldIds name = .ok verdict)
      names found) :
    found.filterMap id =
      (names.filter fun name => ¬ Visible fieldIds step name).map (unknownWarning step) := by
  induction hfound with
  | nil => rfl
  | @cons name verdict names found hverdict _ ih =>
    have rest := ih fun n hn => hnames n (List.mem_cons_of_mem name hn)
    rcases checkName_accepted hstep (hnames name List.mem_cons_self) hverdict with
      ⟨rfl, seen⟩ | ⟨rfl, unseen⟩
    · rw [List.filterMap_cons_none rfl, List.filter_cons_of_neg (by simpa using seen), rest]
    · rw [List.filterMap_cons_some (show id (some (unknownWarning step name)) = _ from rfl),
        List.filter_cons_of_pos (by simpa using unseen), List.map_cons, rest]

open Classical in
/-- The warnings of a step are those about the names that it does not see, in order of first
appearance. -/
theorem checkStep_accepted {fieldIds : List String} {step : Step}
    (hstep : step.number < 10 ^ Numeral.maxDigits) {warnings : List String}
    (h : checkStep fieldIds step = .ok warnings) :
    warnings = ((findVariables step.prompt).filter fun name =>
      ¬ Visible fieldIds step.number name).map (unknownWarning step.number) := by
  unfold checkStep at h
  cases hfound : (findVariables step.prompt).mapM (checkName step.number fieldIds) with
  | error e =>
    rw [hfound] at h
    cases h
  | ok found =>
    rw [hfound] at h
    cases h
    exact warnings_of_verdicts hstep (fun name hname => not_feed_mem_of_mem_findVariables hname)
      (mapM_eq_ok.1 hfound)

/-! ## §3. The editor, the check and a run agree. -/

/-- The names of a step that the check has warned about, in order of first appearance. -/
def warnedNames (step : Step) (warnings : List String) : List String :=
  (findVariables step.prompt).filter fun name => warnings.contains (unknownWarning step.number name)

/-- A name of a step is warned about exactly if the step does not see it. -/
theorem mem_warnings_iff {fieldIds : List String} {step : Step}
    (hstep : step.number < 10 ^ Numeral.maxDigits) {warnings : List String}
    (h : checkStep fieldIds step = .ok warnings) {name : String}
    (hname : name ∈ findVariables step.prompt) :
    unknownWarning step.number name ∈ warnings ↔ ¬ Visible fieldIds step.number name := by
  classical
  rw [checkStep_accepted hstep h, List.mem_map_of_injective (unknownWarning_injective step.number),
    List.mem_filter, decide_eq_true_iff]
  exact and_iff_right hname

/-- The warnings are those about the names that have been warned about, each of them once. -/
theorem warnings_eq_map {fieldIds : List String} {step : Step}
    (hstep : step.number < 10 ^ Numeral.maxDigits) {warnings : List String}
    (h : checkStep fieldIds step = .ok warnings) :
    warnings = (warnedNames step warnings).map (unknownWarning step.number) := by
  classical
  conv_lhs => rw [checkStep_accepted hstep h]
  congr 1
  apply List.filter_congr
  intro name hname
  rw [Bool.eq_iff_iff, List.contains_iff_mem, decide_eq_true_iff, mem_warnings_iff hstep h hname]

/-- The names of a step without a text in its context are those that the check has warned about. -/
theorem unresolved_eq_warnedNames {fields : List Field} {step : Step}
    (hstep : step.number < 10 ^ Numeral.maxDigits) {warnings : List String}
    (h : checkStep (fields.map (·.id)) step = .ok warnings) (values : Dictionary Value)
    {outputs : List Output} (houtputs : OutputsBefore step.number outputs) :
    unresolved step.prompt (context fields values outputs step.number)
      = warnedNames step warnings := by
  apply List.filter_congr
  intro name hname
  have known := hasKey_context_iff fields values houtputs name
  rw [← Dictionary.isSome_lookup] at known
  rw [Bool.eq_iff_iff, List.contains_iff_mem, mem_warnings_iff hstep h hname, ← known,
    Bool.not_eq_true, Option.isNone_iff_eq_none, Option.isSome_eq_false_iff,
    Option.isNone_iff_eq_none]

/-- For a step that the check lets through, a name of its prompt gets no warning exactly if the
editor lists it, and exactly if the context of the step has it.  So strict mode refuses the names
that the check has warned about, and a step without warnings sends its prompt in either mode. -/
theorem namespace_agrees (fields : List Field) (values : Dictionary Value) {step : Step}
    {outputs : List Output} {warnings : List String}
    (hstep : step.number < 10 ^ Numeral.maxDigits)
    (haccepted : checkStep (fields.map (·.id)) step = .ok warnings)
    (houtputs : OutputsBefore step.number outputs) (x : Executor) :
    let seen := context fields values outputs step.number
    (∀ name ∈ findVariables step.prompt,
      [unknownWarning step.number name ∉ warnings,
       name ∈ (availableVariables fields step.number).map (·.name),
       seen.hasKey name = true].TFAE) ∧
    warnings = (warnedNames step warnings).map (unknownWarning step.number) ∧
    (warnings ≠ [] →
      resolve .strict step.prompt seen = .error (warnedNames step warnings) ∧
      (x.mode = .strict → x.execute step seen =
        Job.fail (.step step.number
          (Cause.unresolvedVariable (warnedNames step warnings)).message))) ∧
    (warnings = [] →
      (∀ mode, resolve mode step.prompt seen = .ok (render step.prompt seen)) ∧
      x.execute step seen = do
        let sent : Request := ⟨render step.prompt seen, x.modelFor step⟩
        let outcome ← Job.request sent
        Job.ofExcept (x.judge step sent outcome)) := by
  intro seen
  have written := warnings_eq_map hstep haccepted
  have refused : unresolved step.prompt seen = warnedNames step warnings :=
    unresolved_eq_warnedNames hstep haccepted values houtputs
  refine ⟨?_, written, ?_, ?_⟩
  · intro name hname
    tfae_have 1 ↔ 2 := by
      rw [mem_warnings_iff hstep haccepted hname, not_not, mem_availableVariables_iff]
    tfae_have 2 ↔ 3 := by
      rw [mem_availableVariables_iff, hasKey_context_iff fields values houtputs]
    tfae_finish
  · intro hsome
    have strict : resolve .strict step.prompt seen = .error (warnedNames step warnings) := by
      cases hnames : warnedNames step warnings with
      | nil =>
        rw [hnames] at written
        exact absurd written hsome
      | cons name more =>
        unfold resolve
        rw [refused, hnames]
    refine ⟨strict, ?_⟩
    intro hmode
    unfold Executor.execute
    rw [hmode, strict]
  · intro hnone
    have resolved : ∀ mode, resolve mode step.prompt seen = .ok (render step.prompt seen) := by
      intro mode
      have empty : unresolved step.prompt seen = [] := by
        rw [refused, ← List.map_eq_nil_iff, ← written, hnone]
      unfold resolve
      rw [empty]
      cases mode <;> rfl
    refine ⟨resolved, ?_⟩
    unfold Executor.execute
    rw [resolved x.mode]

/-- A greeting that uses a field, an earlier output and an unknown name. -/
def greeting : Step :=
  { number := 2, name := "Greeting", prompt := "Dear {name}, {step_1_output} {tone}" }

theorem namespace_agrees_greeting :
    resolve .strict greeting.prompt
        (context [⟨"name", .text, "Name", false, none, none, none, none, 0⟩] [] [⟨1, "Hello"⟩] 2)
      = .error ["tone"] := by
  have before : OutputsBefore 2 [⟨1, "Hello"⟩] := by
    intro k
    constructor
    · rintro ⟨o, ho, rfl⟩
      cases List.mem_singleton.1 ho
      decide
    · intro hk
      exact ⟨⟨1, "Hello"⟩, List.mem_singleton.2 rfl, by show (1 : Int) = k; omega⟩
  have small : greeting.number < 10 ^ Numeral.maxDigits :=
    lt_of_lt_of_le (by decide : 2 < 10 ^ 1) (Nat.pow_le_pow_right (by decide) (by decide))
  have accepted : checkStep ["name"] greeting = .ok [unknownWarning 2 "tone"] := by decide +kernel
  have agrees := namespace_agrees [⟨"name", .text, "Name", false, none, none, none, none, 0⟩] []
    small accepted before ⟨"model", .int 1, .strict⟩
  exact (agrees.2.2.1 (by simp)).1.trans (by decide +kernel)

end PromptForms.Template
