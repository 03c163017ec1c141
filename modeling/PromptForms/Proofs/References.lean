/-
  PromptForms.Proofs.References
  ─────────────────────────────
  **NAMES AND THE STEPS THEY REFER TO.**

  Writing the name of a step output and reading the step off a name are two functions
  of their own.  On names without a line feed they are inverse to each other, as long
  as the number has few enough digits to be read.

  Main results:
    • isStepNumber_iff       the middles that are read are the numerals as they are written
    • middle?_eq_some        what a name of the shape of a step output looks like
    • reference_eq_step      a name refers to step k only if it is the name of its output
    • reference_stepOutputName
                             every output of a step that can be written is referred to
    • isReserved_stepOutputName
                             the name of every output is reserved
-/
import PromptForms.Form.Draft
import PromptForms.Proofs.Numerals
import PromptForms.Template.Reference

namespace PromptForms.Template

open Numeral

/-! ## §1. Numbers of steps. -/

/-- A list of characters is read as a number exactly if it is how a positive number is written. -/
theorem isStepNumber_iff (cs : List Char) :
    isStepNumber cs = true ↔ 0 < digitsValue cs ∧ cs = Nat.toDigits 10 (digitsValue cs) := by
  constructor
  · intro h
    cases cs with
    | nil => simp [isStepNumber] at h
    | cons c rest =>
      simp only [isStepNumber, List.all_cons, List.head?_cons, Option.any_some, Bool.and_eq_true,
        List.all_eq_true, bne_iff_ne] at h
      obtain ⟨⟨hc, hrest⟩, nonzero⟩ := h
      obtain ⟨spelled, small⟩ := digitChar_of_isDigit hc
      have positive : 0 < c.toNat - '0'.toNat := by
        by_contra hzero
        apply nonzero
        rw [← spelled, Nat.eq_zero_of_not_pos hzero]
        rfl
      have written : Nat.toDigits 10 (digitsValue (c :: rest)) = c :: rest := by
        rw [digitsValue_eq, Nat.ofDigitChars_cons, Nat.mul_zero, Nat.zero_add,
          toDigits_ofDigitChars hrest positive, Nat.toDigits_of_lt_base small, spelled]
        rfl
      refine ⟨?_, written.symm⟩
      by_contra hzero
      rw [Nat.eq_zero_of_not_pos hzero, Nat.toDigits_zero] at written
      exact nonzero (List.cons.inj written).1.symm
  · rintro ⟨positive, written⟩
    have digits : ∀ c ∈ cs, c.isDigit = true := by
      intro c hc
      rw [written] at hc
      exact Nat.isDigit_of_mem_toDigits (by decide) (by decide) hc
    have noZero := head?_toDigits_ne_zero positive
    rw [← written] at noZero
    cases cs with
    | nil => exact absurd written.symm Nat.toDigits_ne_nil
    | cons c rest =>
      simp only [isStepNumber, Bool.and_eq_true, List.all_eq_true, List.head?_cons,
        Option.any_some, bne_iff_ne]
      refine ⟨digits, ?_⟩
      intro hzero
      exact noZero (congrArg some hzero)

/-! ## §2. Names of the shape of a step output. -/

theorem without?_eq_some {front cs rest : List Char} :
    without? front cs = some rest ↔ cs = front ++ rest := by
  induction front generalizing cs with
  | nil => simp [without?]
  | cons p front ih =>
    cases cs with
    | nil => simp [without?]
    | cons c cs =>
      by_cases h : p = c
      · simp [without?, h, ih]
      · simp [without?, h, Ne.symm h]

theorem dropFinalFeed_of_not_mem {cs : List Char} (h : '\n' ∉ cs) : dropFinalFeed cs = cs := by
  unfold dropFinalFeed
  rw [if_neg]
  intro hlast
  exact h (List.mem_of_getLast? hlast)

/-- The middle of a name stands between `step_` and `_output`. -/
theorem middle?_eq_some {name : String} (hname : '\n' ∉ name.toList) {m : List Char} :
    middle? name = some m ↔ name.toList = "step_".toList ++ (m ++ "_output".toList) := by
  constructor
  · intro h
    simp only [middle?, dropFinalFeed_of_not_mem hname] at h
    split at h
    · cases h
    · rename_i rest hfront
      split at h
      · cases h
      · rename_i back hback
        split at h
        · cases h
        · cases h
          rw [without?_eq_some] at hfront hback
          rw [hfront, ← List.reverse_reverse rest, hback]
          simp
  · intro h
    have front : without? "step_".toList name.toList = some (m ++ "_output".toList) :=
      without?_eq_some.2 h
    have back : without? "_output".toList.reverse (m ++ "_output".toList).reverse
        = some m.reverse := by
      rw [without?_eq_some, List.reverse_append]
    have noFeed : m.reverse.contains '\n' = false := by
      rw [Bool.eq_false_iff]
      intro hfeed
      apply hname
      rw [h]
      have : '\n' ∈ m := by simpa using hfeed
      simp [this]
    unfold middle?
    rw [dropFinalFeed_of_not_mem hname]
    simp only [front, back, noFeed]
    simp

/-- The name of an output is the number between `step_` and `_output`. -/
theorem toList_outputName (k : Int) :
    (stepOutputName k).toList = "step_".toList ++ (k.repr.toList ++ "_output".toList) := by
  show ("step_" ++ k.repr ++ "_output").toList = _
  simp

/-- The characters of the name of a step output. -/
theorem toList_stepOutputName (k : Nat) :
    (stepOutputName k).toList
      = "step_".toList ++ (Nat.toDigits 10 k ++ "_output".toList) := by
  have digits : (k : Int).repr.toList = Nat.toDigits 10 k := by
    show k.repr.toList = _
    simp
  rw [toList_outputName, digits]

theorem not_feed_mem_repr (k : Int) : '\n' ∉ k.repr.toList := by
  have digits (n : Nat) : '\n' ∉ n.repr.toList := by
    rw [Nat.toList_repr]
    intro hmem
    exact absurd (Nat.isDigit_of_mem_toDigits (by decide) (by decide) hmem) (by decide)
  cases k with
  | ofNat n => exact digits n
  | negSucc n =>
    show '\n' ∉ ("-" ++ (n + 1).repr).toList
    rw [String.toList_append, List.mem_append, not_or]
    exact ⟨by decide, digits (n + 1)⟩

theorem not_feed_mem_stepOutputName (k : Int) : '\n' ∉ (stepOutputName k).toList := by
  rw [toList_outputName]
  simp only [List.mem_append, not_or]
  exact ⟨by decide, not_feed_mem_repr k, by decide⟩

/-- The name of an output is reserved. -/
theorem isReserved_stepOutputName (k : Int) : isReserved (stepOutputName k) = true := by
  have shape := (middle?_eq_some (not_feed_mem_stepOutputName k)).2 (toList_outputName k)
  unfold isReserved
  rw [shape]
  exact Bool.or_true _

/-- No output is called like the variable of all fields. -/
theorem stepOutputName_ne_allFieldsName (k : Int) : stepOutputName k ≠ allFieldsName := by
  intro h
  have spelled := congrArg String.toList h
  rw [toList_outputName] at spelled
  exact absurd (List.cons.inj spelled).1 (by decide)

theorem not_isReserved_of_reservedIds {fields : List Field} (h : reservedIds fields = []) :
    ∀ id ∈ fields.map (·.id), isReserved id = false := by
  intro id hid
  unfold reservedIds at h
  rw [List.filter_eq_nil_iff] at h
  simpa using h id hid

/-! ## §3. From names to steps and back. -/

/-- The output of a step whose number can be written in few enough digits is referred to by its
name. -/
theorem reference_stepOutputName {k : Nat} (hpositive : 0 < k) (hsmall : k < 10 ^ maxDigits) :
    reference (stepOutputName k) = .ok (some k) := by
  have shape : middle? (stepOutputName k) = some (Nat.toDigits 10 k) :=
    (middle?_eq_some (not_feed_mem_stepOutputName k)).2 (toList_stepOutputName k)
  have number : isStepNumber (Nat.toDigits 10 k) = true := by
    rw [isStepNumber_iff, digitsValue_toDigits]
    exact ⟨hpositive, rfl⟩
  have short : ¬ maxDigits < (Nat.toDigits 10 k).length := by
    rw [Nat.not_lt, Nat.length_toDigits_le_iff (by decide) (by decide)]
    exact hsmall
  unfold reference
  simp only [shape, number, if_neg short, digitsValue_toDigits]
  rfl

/-- A name refers to no step exactly if it has another shape. -/
theorem reference_eq_none {name : String} : reference name = .ok none ↔ middle? name = none := by
  unfold reference
  split
  · rename_i shape
    exact iff_of_true rfl shape
  · rename_i m shape
    rw [shape]
    constructor
    · intro h
      split at h
      · cases h
      · split at h <;> cases h
    · intro h
      cases h

/-- A name without a line feed refers to a step only if it is the name of its output. -/
theorem reference_eq_step {name : String} (hname : '\n' ∉ name.toList) {k : Nat}
    (h : reference name = .ok (some k)) :
    name = stepOutputName k ∧ 0 < k := by
  unfold reference at h
  split at h
  · cases h
  · rename_i m shape
    split at h
    · cases h
    · rename_i number
      split at h
      · cases h
      · have value : digitsValue m = k := by injection h with h; injection h
        have accepted : isStepNumber m = true := by simpa using number
        obtain ⟨positive, written⟩ := (isStepNumber_iff m).1 accepted
        rw [value] at positive written
        refine ⟨?_, positive⟩
        apply String.toList_injective
        rw [toList_stepOutputName, ← written]
        exact (middle?_eq_some hname).1 shape

end PromptForms.Template
