/-
  PromptForms.Template.Reference
  ──────────────────────────────
  **NAMES OF STEP OUTPUTS.**

  The output of step 3 is the variable `step_3_output`.  Every name of that shape is
  reserved, whatever stands in the middle, and so is `all_fields`; a reserved name is
  no id of a field.  A name of the shape whose middle is no positive decimal number
  without leading zeros is malformed.

      stepOutputName      the variable of a step
      middle?             what stands between `step_` and `_output`
      isReserved          names that no field may have
      reference           the step that a name refers to
-/
import PromptForms.Number.Numeral

namespace PromptForms.Template

/-- The variable that holds all fields. -/
def allFieldsName : String := "all_fields"

/-- The variable that holds the output of a step. -/
def stepOutputName (number : Int) : String := s!"step_{number}_output"

/-- A list without a prefix that it must have. -/
def without? : (front cs : List Char) → Option (List Char)
  | [], cs => some cs
  | p :: front, c :: cs => if p = c then without? front cs else none
  | _ :: _, [] => none

/-- A text without one line feed at its end. -/
def dropFinalFeed (cs : List Char) : List Char :=
  if cs.getLast? = some '\n' then cs.dropLast else cs

/-- What stands between `step_` and `_output`; one line feed may follow the name, and the middle
holds none. -/
def middle? (name : String) : Option (List Char) :=
  let cs := dropFinalFeed name.toList
  match without? "step_".toList cs with
  | none => none
  | some rest => match without? "_output".toList.reverse rest.reverse with
    | none => none
    | some m => if m.contains '\n' then none else some m.reverse

/-- Names that no field may have. -/
def isReserved (name : String) : Bool :=
  name == allFieldsName || (middle? name).isSome

/-- Why a name of the shape of a step output names no step. -/
inductive ReferenceError where
  | notPositive (middle : String)
  | tooLong (digits : Nat)
  deriving DecidableEq, Repr

/-- The wording of the reason. -/
def ReferenceError.message : ReferenceError → String
  | notPositive middle => s!"'{middle}' is not a positive step number"
  | tooLong digits => Numeral.tooLongMessage digits

/-- A decimal number without leading zeros. -/
def isStepNumber (cs : List Char) : Bool :=
  cs.all Char.isDigit && cs.head?.any (· != '0')

/-- The step that a name refers to; none if the name has another shape. -/
def reference (name : String) : Except ReferenceError (Option Nat) :=
  match middle? name with
  | none => .ok none
  | some m =>
    if !isStepNumber m then .error (.notPositive (String.ofList m))
    else if Numeral.maxDigits < m.length then .error (.tooLong m.length)
    else .ok (some (Numeral.digitsValue m))

end PromptForms.Template
