/-
  PromptForms.Submission.Value
  ────────────────────────────
  **SUBMITTED VALUES.**

  What a person enters is read once, on arrival, and kept as a value of one of six
  kinds.  Everything later sees these values only: rows keep their documents, and
  templates receive their texts.

      Value            the kinds
      Value.asText     what a template receives
      Value.toJson     what a row keeps
      Value.check      reads what a row keeps
-/
import PromptForms.Schema.Scalar
import PromptForms.Calendar.LenientDate

namespace PromptForms

open Schema

/-- One submitted value. -/
inductive Value where
  /-- From a text, email or textarea field. -/
  | text (value : String)
  | number (value : Number)
  | date (value : Calendar.Date)
  /-- One option, from a select or radio field. -/
  | choice (value : String)
  /-- Options in the order in which they were chosen. -/
  | choices (values : List String)
  /-- A reference to a file. -/
  | file (value : String)

namespace Value

/-! ## §1. Texts and documents. -/

/-- A number as a text. -/
def numberText : Number → String
  | .int i => toString i
  | .real x => x.shortest

/-- What a template receives. -/
def asText : Value → String
  | text s => s
  | number n => numberText n
  | date d => d.toText
  | choice s => s
  | choices items => ", ".intercalate items
  | file s => s

/-- The word for a kind. -/
def kind : Value → String
  | text _ => "text"
  | number _ => "number"
  | date _ => "date"
  | choice _ => "choice"
  | choices _ => "multi_choice"
  | file _ => "file"

/-- The words for all kinds, in the order in which a message lists them. -/
def kinds : List String := ["text", "number", "date", "choice", "multi_choice", "file"]

/-- The document of a value, tagged with its kind. -/
def toJson (v : Value) : Json :=
  .obj [("kind", .str v.kind), match v with
    | text s => ("value", .str s)
    | number n => ("value", .ofNumber n)
    | date d => ("value", .str d.toText)
    | choice s => ("value", .str s)
    | choices items => ("values", .texts items)
    | file s => ("value", .str s)]

/-! ## §2. Reading documents. -/

/-- The document of each kind. -/
def readers : List (String × (Members → Checked Value)) :=
  [("text", fun m => text <$> m.required "value" Schema.text),
    ("number", fun m => number <$> m.required "value" Schema.number),
    ("date", fun m => date <$> m.required "value" Calendar.lenientDate),
    ("choice", fun m => choice <$> m.required "value" Schema.text),
    ("multi_choice", fun m => choices <$> m.required "values" (listOf Schema.text)),
    ("file", fun m => file <$> m.required "value" Schema.text)]

/-- Reads the document of a value; the issues of a kind stand under its word. -/
def check (value : Json) : Checked Value :=
  (record value).andThen fun m =>
    match m.lookup "kind" with
    | none => .fault (.untagged "kind")
    | some tag =>
      let known := match tag with
        | .str name => readers.lookup name
        | _ => none
      match known with
      | some read => (read m).under tag.display
      | none => .fault (.unknownTag tag.display "kind" kinds)

/-- Reads the values of a submission; only the first bad one is reported. -/
def checkAll (members : Members) : Checked (Dictionary Value) :=
  members.foldr (fun pair rest =>
    (check pair.2).andThen fun v => rest.map ((pair.1, v) :: ·)) (.good [])

/-- The documents of the values of a submission. -/
def allToJson (values : Dictionary Value) : Json :=
  .obj (values.map fun pair => (pair.1, pair.2.toJson))

end Value

end PromptForms
