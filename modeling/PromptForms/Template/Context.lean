/-
  PromptForms.Template.Context
  ────────────────────────────
  **WHAT A STEP SEES.**

  The prompt of a step may use the text of every field, all fields at once, and the
  outputs of the steps before it.  A field without a value has the empty text.

      fieldTexts     the texts of the fields by id
      allFieldsText  one line per field, in display order
      context        the variables of a step
-/
import PromptForms.Form.Field
import PromptForms.Submission.Value
import PromptForms.Template.Reference
import PromptForms.Template.Scan

namespace PromptForms.Template

/-- The output of a step. -/
structure Output where
  step : Int
  text : String
  deriving DecidableEq, Repr

/-- The text of a field that may have no value. -/
def valueText (value : Option Value) : String := (value.map Value.asText).getD ""

/-- The texts of the fields by id. -/
def fieldTexts (fields : List Field) (values : Dictionary Value) : Context :=
  Dictionary.ofPairs (fields.map fun f => (f.id, valueText (values.lookup f.id)))

/-- One line per field, in display order. -/
def allFieldsText (fields : List Field) (texts : Context) : String :=
  "\n".intercalate ((Field.inDisplayOrder fields).map fun f =>
    f.label ++ ": " ++ (texts.lookup f.id).getD "")

/-- The outputs of the steps before a step, by variable. -/
def outputTexts (outputs : List Output) (step : Int) : List (String × String) :=
  (outputs.filter fun o => o.step < step).map fun o => (stepOutputName o.step, o.text)

/-- The variables of a step. -/
def context (fields : List Field) (values : Dictionary Value) (outputs : List Output)
    (step : Int) : Context :=
  -- Outputs come last, so a field cannot stand in for one.
  let texts := fieldTexts fields values
  (texts.set allFieldsName (allFieldsText fields texts)).setAll (outputTexts outputs step)

end PromptForms.Template
