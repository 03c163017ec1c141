/-
  PromptForms.Form.Draft
  ──────────────────────
  **WRITING FORMS.**

  A draft describes a new form.  A patch describes a change of one: a member that is
  not given leaves its part of the form alone, and fields are replaced as a whole.

      FormDraft, FormPatch    and their `check`
      reservedIds             the ids that no field may have
-/
import PromptForms.Form.Field
import PromptForms.Template.Reference

namespace PromptForms

open Schema

/-- A form to be created. -/
structure FormDraft where
  name : String
  description : Option String := none
  isActive : Bool := true
  fields : List Field := []
  deriving DecidableEq, Repr

/-- Reads a draft. -/
def FormDraft.check (value : Json) : Checked FormDraft :=
  (record value).andThen fun m =>
    FormDraft.mk <$> m.required "name" (boundedText 1 (some 200)) <*>
      m.nullable "description" (boundedText 0 (some 3000)) <*>
      m.optional "is_active" true bool <*> m.optional "fields" [] Field.checkAll

/-- The document of a draft. -/
def FormDraft.toJson (d : FormDraft) : Json :=
  .obj [("name", .str d.name), ("description", .ofOption .str d.description),
    ("is_active", .bool d.isActive), ("fields", .arr (d.fields.map Field.toJson))]

/-- A change of a form: for each part nothing, or what is given for it, which may be null. -/
structure FormPatch where
  name : Option (Option String) := none
  description : Option (Option String) := none
  isActive : Option (Option Bool) := none
  fields : Option (Option (List Field)) := none
  deriving DecidableEq, Repr

/-- Reads a patch. -/
def FormPatch.check (value : Json) : Checked FormPatch :=
  (record value).andThen fun m =>
    FormPatch.mk <$> m.given "name" (orNull (boundedText 1 (some 200))) <*>
      m.given "description" (orNull text) <*> m.given "is_active" (orNull bool) <*>
      m.given "fields" (orNull Field.checkAll)

/-- The fields that a patch puts in place of the old ones. -/
def FormPatch.newFields? (p : FormPatch) : Option (List Field) := p.fields.join

/-- The document of a patch; parts that are not given are null. -/
def FormPatch.toJson (p : FormPatch) : Json :=
  .obj [("name", .ofOption .str p.name.join), ("description", .ofOption .str p.description.join),
    ("is_active", .ofOption .bool p.isActive.join),
    ("fields", .ofOption (fun fs => .arr (fs.map Field.toJson)) p.newFields?)]

/-- The ids among the fields that are names of the program's own variables. -/
def reservedIds (fields : List Field) : List String :=
  (fields.map (·.id)).filter Template.isReserved

end PromptForms
