/-
  PromptForms.Proofs.StepNames
  ────────────────────────────
  **THE NAMES OF STEPS AND THE NUMBERS THEY ARE READ AS.**

  The name of an output is written around the number of its step, and the number is read
  off it again in two stages: the shape of the name first, with as long a middle as fits,
  then the middle.  On names without a line feed the two are inverse: a name is read as a
  number only if it is the name that is written for it.  A name of the shape that is
  written for no step is refused, and the reason tells which stage refused it.

      IsStepCount       the numbers of steps that can be written and read
      Refuses           why the middle of a name is the number of no step

  Main results:
    • reference_eq_step_iff_name    names that are read as a number are those written for it
    • reference_eq_error_iff        names that are refused, and the reason
    • isReserved_iff                reserved names are those that are read, refused, or `all_fields`
    • stepNames_inverse             writing and reading are inverse
-/
import PromptForms.Proofs.StepContext
import PromptForms.Proofs.Vetting

namespace PromptForms.Template

open Numeral

/-! ## §1. Numbers that can be written and read. -/

/-- A positive number that is written with no more digits than are read. -/
def IsStepCount (k : Nat) : Prop := 0 < k ∧ (Nat.toDigits 10 k).length ≤ maxDigits

theorem length_toDigits_le_maxDigits {k : Nat} :
    (Nat.toDigits 10 k).length ≤ maxDigits ↔ k < 10 ^ maxDigits :=
  Nat.length_toDigits_le_iff (by decide) (by decide)

theorem numbers_iff {text : String} {k : Nat} :
    Numbers text k ↔ IsStepCount k ∧ text = toString k := by
  rw [Numbers, IsStepCount, length_toDigits_le_maxDigits, and_assoc]

/-! ## §2. The two stages of reading. -/

/-- The reason for which a middle is refused: it is not how a positive number is written, or it is, but
with more digits than are read. -/
inductive Refuses (middle : String) : ReferenceError → Prop
  | notPositive (h : ∀ k, 0 < k → middle ≠ toString k) : Refuses middle (.notPositive middle)
  | tooLong (k : Nat) (positive : 0 < k) (written : middle = toString k)
      (long : maxDigits < (Nat.toDigits 10 k).length) :
      Refuses middle (.tooLong (Nat.toDigits 10 k).length)

theorem toList_toString (k : Nat) : (toString k).toList = Nat.toDigits 10 k := Nat.toList_repr

theorem ofList_eq_toString_iff {m : List Char} {k : Nat} :
    String.ofList m = toString k ↔ m = Nat.toDigits 10 k := by
  rw [← String.toList_inj, String.toList_ofList, toList_toString]

/-- The second stage lets through the numerals of positive numbers. -/
theorem isStepNumber_iff_toString (m : List Char) :
    isStepNumber m = true ↔ ∃ k : Nat, 0 < k ∧ String.ofList m = toString k := by
  rw [isStepNumber_iff]
  constructor
  · rintro ⟨hpositive, hm⟩
    exact ⟨digitsValue m, hpositive, ofList_eq_toString_iff.2 hm⟩
  · rintro ⟨k, hpositive, hk⟩
    obtain rfl := ofList_eq_toString_iff.1 hk
    rw [digitsValue_toDigits]
    exact ⟨hpositive, rfl⟩

section

variable {name : String}

/-- A name is read as a number exactly if it is the name that is written for it. -/
theorem reference_eq_step_iff_name (hname : '\n' ∉ name.toList) {k : Nat} :
    reference name = .ok (some k) ↔ IsStepCount k ∧ name = stepOutputName k := by
  rw [reference_eq_step_iff hname]
  constructor
  · rintro ⟨middle, hmiddle, hk⟩
    obtain ⟨hcount, rfl⟩ := numbers_iff.1 hk
    exact ⟨hcount, hmiddle⟩
  · rintro ⟨hcount, rfl⟩
    exact ⟨toString k, hasMiddle_stepOutputName k, numbers_iff.2 ⟨hcount, rfl⟩⟩

/-- A name is refused exactly if its middle is. -/
theorem reference_eq_error_iff (hname : '\n' ∉ name.toList) {e : ReferenceError} :
    reference name = .error e ↔ ∃ middle, HasMiddle name middle ∧ Refuses middle e := by
  cases shape : middle? name with
  | none =>
    have shapeless : ¬∃ middle, HasMiddle name middle := by
      rw [exists_hasMiddle_iff hname, shape]
      exact Bool.false_ne_true
    refine iff_of_false ?_ ?_
    · rw [reference_eq_none.2 shape]
      intro h
      cases h
    · rintro ⟨middle, hmiddle, -⟩
      exact shapeless ⟨middle, hmiddle⟩
  | some m =>
    have hm : HasMiddle name (String.ofList m) := (middle?_eq_some_iff hname).1 shape
    -- The middle that is read is the only one.
    have here : (∃ middle, HasMiddle name middle ∧ Refuses middle e) ↔ Refuses (String.ofList m) e := by
      constructor
      · rintro ⟨middle, hmiddle, h⟩
        rwa [hm.unique hmiddle]
      · exact fun h => ⟨_, hm, h⟩
    rw [here]
    unfold reference
    simp only [shape]
    have numeral := isStepNumber_iff_toString m
    cases hnumber : isStepNumber m with
    | false =>
      rw [hnumber] at numeral
      have noNumber : ∀ k : Nat, 0 < k → String.ofList m ≠ toString k :=
        fun k hk h => Bool.false_ne_true (numeral.2 ⟨k, hk, h⟩)
      rw [Bool.not_false, if_pos rfl]
      constructor
      · rintro ⟨⟩
        exact .notPositive noNumber
      · rintro (_ | ⟨k, hk, h, -⟩)
        · rfl
        · exact absurd h (noNumber k hk)
    | true =>
      obtain ⟨k, hk, hwritten⟩ := numeral.1 hnumber
      obtain rfl := ofList_eq_toString_iff.1 hwritten
      rw [Bool.not_true, if_neg Bool.false_ne_true]
      constructor
      · intro h
        split at h
        · rename_i long
          cases h
          exact .tooLong k hk rfl long
        · cases h
      · intro h
        cases h with
        | notPositive h => exact absurd hwritten (h k hk)
        | tooLong j _ hj long =>
          obtain rfl : k = j := Nat.repr_inj.1 hj
          rw [if_pos long]

/-- A name of the shape of an output is refused unless it is written for a step. -/
theorem exists_reference_eq_error_iff (hname : '\n' ∉ name.toList) :
    (∃ e, reference name = .error e) ↔
      (∃ middle, HasMiddle name middle) ∧ ∀ k, IsStepCount k → name ≠ stepOutputName k := by
  have reads := fun k => reference_eq_step_iff_name (k := k) hname
  have shapeless := reference_eq_none_iff hname
  cases hreference : reference name with
  | error e =>
    rw [hreference] at reads shapeless
    refine iff_of_true ⟨e, rfl⟩ ⟨?_, ?_⟩
    · by_contra hnone
      cases shapeless.2 hnone
    · intro k hk h
      cases (reads k).2 ⟨hk, h⟩
  | ok found =>
    rw [hreference] at reads shapeless
    refine iff_of_false (by simp) ?_
    rintro ⟨hshape, hnot⟩
    cases found with
    | none => exact shapeless.1 rfl hshape
    | some k =>
      obtain ⟨hk, h⟩ := (reads k).1 rfl
      exact hnot k hk h

/-- A name is reserved exactly if it is that of all fields, or is read or refused. -/
theorem isReserved_iff : isReserved name = true ↔ name = allFieldsName ∨ reference name ≠ .ok none := by
  rw [isReserved, Bool.or_eq_true, beq_iff_eq, ne_eq, reference_eq_none, Option.isSome_iff_ne_none]

end

/-! ## §3. Writing and reading. -/

/-- **Names of outputs and numbers of steps are inverse.**

  1. For every positive number of at most `maxDigits` digits, the name of the output is reserved, and is
     read as the number.
  2. Two outputs have different names, whatever their numbers are.
  3. A name without a line feed is read as a number exactly if it is the name that is written for it, and
     the number is positive and has at most `maxDigits` digits; it is read as no reference exactly if it is
     not `step_` and `_output` around a middle.  Any other name is refused: one with a middle that is
     written for no such number, for the reason that the middle gives.
  4. A name, with or without line feeds, is reserved exactly if it is that of all fields, or is not read as
     no reference. -/
theorem stepNames_inverse :
    (∀ k, IsStepCount k →
      isReserved (stepOutputName k) = true ∧ reference (stepOutputName k) = .ok (some k)) ∧
    Function.Injective stepOutputName ∧
    (∀ name, '\n' ∉ name.toList →
      (∀ k, reference name = .ok (some k) ↔ IsStepCount k ∧ name = stepOutputName k) ∧
      (reference name = .ok none ↔ ¬∃ middle, HasMiddle name middle) ∧
      ((∃ e, reference name = .error e) ↔
        (∃ middle, HasMiddle name middle) ∧ ∀ k, IsStepCount k → name ≠ stepOutputName k) ∧
      ∀ e, reference name = .error e ↔ ∃ middle, HasMiddle name middle ∧ Refuses middle e) ∧
    ∀ name, isReserved name = true ↔ name = allFieldsName ∨ reference name ≠ .ok none := by
  refine ⟨?_, stepOutputName_injective, ?_, fun name => isReserved_iff⟩
  · intro k hk
    refine ⟨isReserved_stepOutputName k, ?_⟩
    exact (reference_eq_step_iff_name (not_feed_mem_stepOutputName k)).2 ⟨hk, rfl⟩
  · intro name hname
    exact ⟨fun k => reference_eq_step_iff_name hname, reference_eq_none_iff hname,
      exists_reference_eq_error_iff hname, fun e => reference_eq_error_iff hname⟩

/-- The name of the twelfth output is read back; a name with two suffixes is refused for what stands in
front of the last of them, and is reserved. -/
theorem stepNames_inverse_twelve :
    reference "step_12_output" = .ok (some 12) ∧
    reference "step_1_output_output" = .error (.notPositive "1_output") ∧
    isReserved "step_1_output_output" = true := by
  obtain ⟨hwritten, -, hread, hreserved⟩ := stepNames_inverse
  have refused : reference "step_1_output_output" = .error (.notPositive "1_output") := by
    refine ((hread "step_1_output_output" (by decide)).2.2.2 _).2 ⟨"1_output", rfl, .notPositive ?_⟩
    intro k _ h
    have digit : ('_').isDigit = true := by
      refine Nat.isDigit_of_mem_toDigits (b := 10) (n := k) (by decide) (by decide) ?_
      rw [← toList_toString, ← h]
      decide
    exact absurd digit (by decide)
  refine ⟨(hwritten 12 ⟨by decide, by decide⟩).2, refused, (hreserved _).2 (.inr ?_)⟩
  rw [refused]
  intro h
  cases h

/-- One line feed at the end of a name is overlooked, so such a name is read without being written. -/
example : reference "step_1_output\n" = .ok (some 1) := by decide

end PromptForms.Template
