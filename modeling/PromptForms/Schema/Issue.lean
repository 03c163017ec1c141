/-
  PromptForms.Schema.Issue
  ────────────────────────
  **WHAT CAN BE WRONG WITH A DOCUMENT.**

  A document that does not fit its schema is refused with a list of issues.  An issue
  names a place, as the path of member names and list positions that leads to it, and
  a fault.  The kind and the wording of a fault are fixed here and nowhere else.

      Fault          the faults
      Fault.kind     the word by which a client tells them apart
      Fault.message  the wording
      Issue          a fault at a place
-/
import PromptForms.Json.Basic

namespace PromptForms.Schema

/-! ## §1. Faults. -/

/-- One reason to refuse a value. -/
inductive Fault where
  /-- A required member is not there. -/
  | missing
  /-- An object is expected, and its members are what counts. -/
  | notRecord
  /-- An object with any members is expected. -/
  | notDictionary
  | notList
  | notText
  | tooShort (least : Nat)
  | tooLong (greatest : Nat)
  /-- One of a few texts is expected. -/
  | notOneOf (choices : List String)
  | notBool
  /-- A text or number that could stand for a truth value, but for neither one. -/
  | unclearBool
  | notInt
  | unclearInt
  | fractionalInt
  | hugeInt
  | notFinite
  | notNumber
  | unclearNumber
  | below (least : Int)
  | above (greatest : Int)
  | notDate
  /-- A text that is neither a date nor a point in time, with the reason. -/
  | unclearDate (reason : String)
  /-- A point in time that is not the start of a day. -/
  | inexactDate
  /-- No member tells which alternative is meant. -/
  | untagged (member : String)
  | unknownTag (tag member : String) (choices : List String)
  | notJson
  /-- A rule of the program's own is violated. -/
  | violated (rule : String)
  /-- A number in the document is too large for what it counts; nothing else is reported. -/
  | beyondRange (reason : String)
  deriving DecidableEq, Repr

namespace Fault

/-- The word by which a client tells faults apart. -/
def kind : Fault → String
  | missing => "missing"
  | notRecord => "model_attributes_type"
  | notDictionary => "dict_type"
  | notList => "list_type"
  | notText => "string_type"
  | tooShort _ => "string_too_short"
  | tooLong _ => "string_too_long"
  | notOneOf _ => "enum"
  | notBool => "bool_type"
  | unclearBool => "bool_parsing"
  | notInt => "int_type"
  | unclearInt => "int_parsing"
  | fractionalInt => "int_from_float"
  | hugeInt => "int_parsing_size"
  | notFinite => "finite_number"
  | notNumber => "float_type"
  | unclearNumber => "float_parsing"
  | below _ => "greater_than_equal"
  | above _ => "less_than_equal"
  | notDate => "date_type"
  | unclearDate _ => "date_from_datetime_parsing"
  | inexactDate => "date_from_datetime_inexact"
  | untagged _ => "union_tag_not_found"
  | unknownTag .. => "union_tag_invalid"
  | notJson => "json_invalid"
  | violated _ => "value_error"
  | beyondRange _ => "out_of_range"

/-- A count with its noun in the right number. -/
def characters (n : Nat) : String := if n = 1 then "1 character" else s!"{n} characters"

/-- Texts between apostrophes, joined by commas and a final `or`. -/
def alternatives (choices : List String) : String :=
  let shown := choices.map fun c => s!"'{c}'"
  match shown.reverse with
  | [] => ""
  | [only] => only
  | last :: before => ", ".intercalate before.reverse ++ " or " ++ last

/-- The wording of a fault. -/
def message : Fault → String
  | missing => "Field required"
  | notRecord => "Input should be a valid dictionary or object to extract fields from"
  | notDictionary => "Input should be a valid dictionary"
  | notList => "Input should be a valid list"
  | notText => "Input should be a valid string"
  | tooShort n => s!"String should have at least {characters n}"
  | tooLong n => s!"String should have at most {characters n}"
  | notOneOf choices => s!"Input should be {alternatives choices}"
  | notBool => "Input should be a valid boolean"
  | unclearBool => "Input should be a valid boolean, unable to interpret input"
  | notInt => "Input should be a valid integer"
  | unclearInt => "Input should be a valid integer, unable to parse string as an integer"
  | fractionalInt => "Input should be a valid integer, got a number with a fractional part"
  | hugeInt => "Unable to parse input string as an integer, exceeded maximum size"
  | notFinite => "Input should be a finite number"
  | notNumber => "Input should be a valid number"
  | unclearNumber => "Input should be a valid number, unable to parse string as a number"
  | below n => s!"Input should be greater than or equal to {n}"
  | above n => s!"Input should be less than or equal to {n}"
  | notDate => "Input should be a valid date"
  | unclearDate reason => s!"Input should be a valid date or datetime, {reason}"
  | inexactDate => "Datetimes provided to dates should have zero time - e.g. be exact dates"
  | untagged member => s!"Unable to extract tag using discriminator '{member}'"
  | unknownTag tag member choices =>
    s!"Input tag '{tag}' found using '{member}' does not match any of the expected tags: " ++
      ", ".intercalate (choices.map fun c => s!"'{c}'")
  | notJson => "JSON decode error"
  | violated rule => s!"Value error, {rule}"
  | beyondRange reason => reason

end Fault

/-! ## §2. Issues. -/

/-- A fault at a place. -/
structure Issue where
  path : List String
  fault : Fault
  deriving DecidableEq, Repr

/-- The same issue seen from one level further out. -/
def Issue.under (step : String) (issue : Issue) : Issue :=
  { issue with path := step :: issue.path }

end PromptForms.Schema
