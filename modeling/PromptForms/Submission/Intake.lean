/-
  PromptForms.Submission.Intake
  ─────────────────────────────
  **READING SUBMITTED DATA.**

  Each field of a form reads the raw value that was submitted for it.  An empty value
  is absent, which only a required field minds.  A value that a field refuses has a
  reason; the rules of the field may replace every reason but the one for absence.

      Field.read     the value of one field
      readData       the values of all fields, or all reasons
-/
import PromptForms.Form.Field
import PromptForms.Pattern.Matcher
import PromptForms.Email.Address
import PromptForms.Submission.Value

namespace PromptForms

namespace Intake

/-! ## §1. Refusals. -/

/-- Why a field gives no value. -/
inductive Refusal where
  /-- The value is refused with a reason. -/
  | rejected (reason : String)
  /-- A limit on a length is no number of characters; the whole submission is given up. -/
  | endlessLimit
  deriving DecidableEq, Repr

/-- The wording for a limit that is no number of characters. -/
def endlessLimitMessage : String := "cannot convert float infinity to integer"

/-- Absent: null, a blank text, or an empty list. -/
def isEmpty : Json → Bool
  | .null => true
  | .str s => Text.blankText s
  | .arr items => items.isEmpty
  | _ => false

/-- A refusal with the reason of the field's own rules, or else the default one. -/
def reject {α : Type} (f : Field) (default : String) : Except Refusal α :=
  let own := (f.rules.bind (·.message)).getD ""
  .error (.rejected (if own.isEmpty then default else own))

/-! ## §2. Rules. -/

/-- A limit on a length as a number of characters. -/
def characterLimit (limit : Binary64) : Except Refusal Int :=
  match limit.truncate with
  | some n => .ok n
  | none => .error .endlessLimit

/-- The rules of a field on a text: its length first, its pattern last. -/
def checkText (f : Field) (text : String) : Except Refusal Unit := do
  let some rules := f.rules | return
  let size := Number.int text.length
  if let some least := rules.least then
    if size.lt (.real least) then
      let limit ← characterLimit least
      reject f s!"must be at least {limit} characters"
  if let some greatest := rules.greatest then
    if Number.lt (.real greatest) size then
      let limit ← characterLimit greatest
      reject f s!"must be at most {limit} characters"
  if let some pattern := rules.pattern then
    let fits := match Pattern.read pattern with
      | .ok p => p.matchesAll text
      | .error _ => false
    if !fits then reject f "has an invalid format"

/-- The rules of a field on a number. -/
def checkNumber (f : Field) (n : Number) : Except Refusal Unit := do
  let some rules := f.rules | return
  if let some least := rules.least then
    if n.lt (.real least) then reject f s!"must be at least {least.general}"
  if let some greatest := rules.greatest then
    if Number.lt (.real greatest) n then reject f s!"must be at most {greatest.general}"

/-! ## §3. Types. -/

/-- A text, or a number as a text. -/
def textOf? : Json → Option String
  | .str s => some s
  | .int i => some (toString i)
  | .real x => some x.shortest
  | _ => none

/-- A number, or a text that shows one. -/
def numberOf? : Json → Option Number
  | .int i => some (.int i)
  | .real x => some (.real x)
  | .str s => Numeral.read? s
  | _ => none

/-- The texts of a list of texts. -/
def textsOf? : List Json → Option (List String)
  | [] => some []
  | .str s :: rest => (textsOf? rest).map (s :: ·)
  | _ :: _ => none

/-- One chosen option as a text, or a list of chosen options. -/
def selectionOf? : Json → Option (List String)
  | .str s => some [s]
  | .arr items => textsOf? items
  | _ => none

/-- Reads a text; an email address has to be one before its rules count. -/
def readText (f : Field) (raw : Json) : Except Refusal Value := do
  let some text := textOf? raw | reject f "must be a string"
  if f.type = .email && !Email.isAddress text then reject f "must be a valid email address"
  checkText f text
  return .text text

/-- Reads a number. -/
def readNumber (f : Field) (raw : Json) : Except Refusal Value := do
  let some n := numberOf? raw | reject f "must be a number"
  checkNumber f n
  return .number n

/-- Reads a date. -/
def readDate (f : Field) (raw : Json) : Except Refusal Value :=
  let date? := match raw with
    | .str s => Calendar.Date.ofIsoText? s
    | _ => none
  match date? with
  | some d => .ok (.date d)
  | none => reject f "must be an ISO date (YYYY-MM-DD)"

/-- Reads one option. -/
def readChoice (f : Field) (raw : Json) : Except Refusal Value :=
  let options := f.options.getD []
  let chosen? := match raw with
    | .str s => if options.contains s then some s else none
    | _ => none
  match chosen? with
  | some s => .ok (.choice s)
  | none => reject f ("must be one of: " ++ ", ".intercalate options)

/-- Reads any number of options. -/
def readChoices (f : Field) (raw : Json) : Except Refusal Value := do
  let some selected := selectionOf? raw | reject f "must be a list of options"
  match selected.filter fun s => !(f.options.getD []).contains s with
  | [] => return .choices selected
  | unknown => reject f ("contains unknown options: " ++ ", ".intercalate unknown)

/-- Reads a reference to a file. -/
def readFile (f : Field) : Json → Except Refusal Value
  | .str s => .ok (.file s)
  | _ => reject f "must be a file reference"

end Intake

/-! ## §4. Fields and submissions. -/

open Intake

/-- The value that a field reads; none if it is absent and may be. -/
def Field.read (f : Field) (raw : Json) : Except Refusal (Option Value) :=
  if isEmpty raw then
    if f.required then .error (.rejected "is required") else .ok none
  else some <$> match f.type with
    | .text | .textarea | .email => readText f raw
    | .number => readNumber f raw
    | .date => readDate f raw
    | .select | .radio => readChoice f raw
    | .checkbox => readChoices f raw
    | .file => readFile f raw

/-- The values and the reasons found so far. -/
structure Intake.Found where
  values : Dictionary Value := []
  reasons : Dictionary String := []

/-- What one more field finds. -/
def Intake.Found.add (found : Found) (data : Members) (f : Field) : Except Refusal Found :=
  match f.read ((data.lookup f.id).getD .null) with
  | .ok (some value) => .ok { found with values := found.values.set f.id value }
  | .ok none => .ok found
  | .error (.rejected reason) => .ok { found with reasons := found.reasons.set f.id reason }
  | .error .endlessLimit => .error .endlessLimit

/-- Why submitted data is refused. -/
inductive Intake.DataError where
  /-- The reasons by field. -/
  | rejected (reasons : Dictionary String)
  | endlessLimit
  deriving DecidableEq, Repr

/-- The values of all fields that have one, by field.  Data for no field is left out. -/
def Intake.readData (fields : List Field) (data : Members) :
    Except DataError (Dictionary Value) :=
  match fields.foldlM (fun (found : Found) f => found.add data f) {} with
  | .ok found => if found.reasons.isEmpty then .ok found.values else .error (.rejected found.reasons)
  | .error _ => .error .endlessLimit

end PromptForms
