/-
  PromptForms.Form.Field
  ──────────────────────
  **FIELDS OF A FORM.**

  A field asks for one value.  It has an id, by which templates refer to its value, a
  type, a label and, as far as the type needs them, options and rules.  A stored
  field is checked again whenever it is loaded, by the same check as a submitted one.

      FieldType, Rules, Field
      Field.check       a document as a field
      Field.toJson      the document of a field; every member is written
      inDisplayOrder    fields as a form shows them
-/
import PromptForms.Schema.Scalar
import PromptForms.Pattern.Reader

namespace PromptForms

open Schema

/-! ## §1. Types. -/

/-- The kinds of input. -/
inductive FieldType where
  | text | email | textarea | number | date | select | checkbox | radio | file
  deriving DecidableEq, Repr

namespace FieldType

/-- The word for a type. -/
def name : FieldType → String
  | text => "text"
  | email => "email"
  | textarea => "textarea"
  | number => "number"
  | date => "date"
  | select => "select"
  | checkbox => "checkbox"
  | radio => "radio"
  | file => "file"

/-- All types, in the order in which a message lists them. -/
def all : List FieldType := [text, email, textarea, number, date, select, checkbox, radio, file]

/-- Types whose values are picked from the options of the field. -/
def isChoice : FieldType → Bool
  | select | checkbox | radio => true
  | _ => false

/-- Reads a type. -/
def check : Json → Checked FieldType := oneOf (all.map fun t => (t.name, t))

end FieldType

/-! ## §2. Rules. -/

/-- Limits on a value: on the value of a number, on the length of a text. -/
structure Rules where
  least : Option Binary64 := none
  greatest : Option Binary64 := none
  pattern : Option String := none
  /-- Replaces the reason of a refusal. -/
  message : Option String := none
  deriving DecidableEq, Repr

namespace Rules

/-- A text that can be read as a pattern. -/
def checkPattern (value : Json) : Checked String :=
  (text value).andThen fun p =>
    match Pattern.read p with
    | .ok _ => .good p
    | .error .hugeRepeat => .fault (.beyondRange (Pattern.PatternError.hugeRepeat.message p))
    | .error e => .fault (.violated (e.message p))

/-- Reads rules. -/
def check (value : Json) : Checked Rules :=
  (record value).andThen fun m =>
    Rules.mk <$> m.nullable "min" real <*> m.nullable "max" real <*>
      m.nullable "pattern" checkPattern <*> m.nullable "message" text

/-- The document of rules. -/
def toJson (r : Rules) : Json :=
  .obj [("min", .ofOption .real r.least), ("max", .ofOption .real r.greatest),
    ("pattern", .ofOption .str r.pattern), ("message", .ofOption .str r.message)]

end Rules

/-! ## §3. Fields. -/

/-- One input of a form. -/
structure Field where
  id : String
  type : FieldType
  label : String
  required : Bool := false
  placeholder : Option String := none
  helpText : Option String := none
  options : Option (List String) := none
  rules : Option Rules := none
  order : Int := 0
  deriving DecidableEq, Repr

namespace Field

/-- The characters that no id holds: braces would end a placeholder, line breaks cannot stand
in one. -/
def isIdChar (c : Char) : Bool := c != '{' && c != '}' && c != '\n' && c != '\r'

/-- Can the id stand in a placeholder?  One line feed at its end is overlooked. -/
def isSafeId (id : String) : Bool :=
  let cs := id.toList
  let body := if cs.getLast? = some '\n' then cs.dropLast else cs
  !body.isEmpty && body.all isIdChar

/-- Reads an id. -/
def checkId (value : Json) : Checked String :=
  (boundedText 1 (some 100) value).andThen
    (Checked.ensure isSafeId fun _ => .violated "Field id must not contain braces or line breaks")

/-- Options are there where the type needs them, and each of them once. -/
def checkOptions (f : Field) : Checked Field :=
  if f.type.isChoice then
    match f.options.getD [] with
    | [] => .fault (.violated s!"Field '{f.id}' of type {f.type.name} requires options")
    | options =>
      if options.eraseDups.length = options.length then .good f
      else .fault (.violated s!"Field '{f.id}' has duplicate options")
  else .good f

/-- Reads a field. -/
def check (value : Json) : Checked Field :=
  (record value).andThen fun m =>
    (Field.mk <$> m.required "id" checkId <*> m.required "type" FieldType.check <*>
      m.required "label" (boundedText 1 (some 300)) <*> m.optional "required" false bool <*>
      m.nullable "placeholder" text <*> m.nullable "help_text" text <*>
      m.nullable "options" (listOf text) <*> m.nullable "validation" Rules.check <*>
      m.optional "order" 0 int : Checked Field).andThen checkOptions

/-- The document of a field. -/
def toJson (f : Field) : Json :=
  .obj [("id", .str f.id), ("type", .str f.type.name), ("label", .str f.label),
    ("required", .bool f.required), ("placeholder", .ofOption .str f.placeholder),
    ("help_text", .ofOption .str f.helpText), ("options", .ofOption .texts f.options),
    ("validation", .ofOption Rules.toJson f.rules), ("order", .int f.order)]

/-- Fields by their order; fields of one order stay as they were declared. -/
def inDisplayOrder (fields : List Field) : List Field :=
  fields.mergeSort fun a b => a.order ≤ b.order

/-- The first id that a field shares with one before it. -/
def firstDuplicate? (seen : List String) : List Field → Option String
  | [] => none
  | f :: rest => if seen.contains f.id then some f.id else firstDuplicate? (f.id :: seen) rest

/-- Reads the fields of a form; no two have one id. -/
def checkAll (value : Json) : Checked (List Field) :=
  (listOf check value).andThen fun fields =>
    match firstDuplicate? [] fields with
    | some id => .fault (.violated s!"Duplicate field id '{id}'")
    | none => .good fields

end Field

end PromptForms
