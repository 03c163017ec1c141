/-
  PromptForms.Schema.Checked
  ──────────────────────────
  **CHECKS THAT COLLECT EVERY ISSUE.**

  Checking a document yields its meaning or all of its issues, in the order of the
  members.  Independent checks are combined with `<*>`, which runs both and joins
  their issues; a check that needs the outcome of another one is added with `andThen`.

      Checked          a meaning or issues
      Checked.all      the items of a list, each under its position
      Members.required, Members.optional, Members.nullable    the members of an object
-/
import PromptForms.Schema.Issue

namespace PromptForms.Schema

/-! ## §1. Outcomes. -/

/-- The outcome of a check: a meaning, or a first issue and further ones. -/
inductive Checked (α : Type) where
  | good (value : α)
  | bad (first : Issue) (more : List Issue)
  deriving Repr

namespace Checked

variable {α β : Type}

/-- All issues, none if the check succeeded. -/
def issues : Checked α → List Issue
  | good _ => []
  | bad first more => first :: more

/-- The meaning, if there is one. -/
def value? : Checked α → Option α
  | good a => some a
  | bad .. => none

/-- Applies a function to the meaning. -/
def map (f : α → β) : Checked α → Checked β
  | good a => good (f a)
  | bad i is => bad i is

/-- Joins two independent checks; the issues of the first one come first. -/
def ap (f : Checked (α → β)) (x : Unit → Checked α) : Checked β :=
  match f, x () with
  | good g, good a => good (g a)
  | good _, bad i is => bad i is
  | bad i is, good _ => bad i is
  | bad i is, bad j js => bad i (is ++ j :: js)

instance : Applicative Checked where
  pure := good
  map := map
  seq := ap

/-- Adds a check that needs the outcome of the first one. -/
def andThen (x : Checked α) (f : α → Checked β) : Checked β :=
  match x with
  | good a => f a
  | bad i is => bad i is

/-- One fault, here. -/
def fault (f : Fault) : Checked α := bad ⟨[], f⟩ []

/-- The value itself if it passes a test, else a fault. -/
def ensure (test : α → Bool) (f : α → Fault) (a : α) : Checked α :=
  if test a then good a else fault (f a)

/-- The same check seen from one level further out. -/
def under (step : String) : Checked α → Checked α
  | good a => good a
  | bad i is => bad (i.under step) (is.map (Issue.under step))

/-- Checks the items of a list, each under its position, counted from `start`. -/
def allFrom (check : Json → Checked α) (start : Nat) : List Json → Checked (List α)
  | [] => good []
  | item :: rest => (· :: ·) <$> (check item).under (toString start) <*> allFrom check (start + 1) rest

/-- Checks the items of a list, each under its position. -/
def all (check : Json → Checked α) (items : List Json) : Checked (List α) :=
  allFrom check 0 items

@[simp] theorem issues_good (a : α) : (good a).issues = [] := rfl

theorem issues_ap (f : Checked (α → β)) (x : Unit → Checked α) :
    (f.ap x).issues = f.issues ++ (x ()).issues := by
  unfold ap
  cases f <;> cases x () <;> simp [issues]

end Checked

/-! ## §2. Members of an object. -/

/-- The members of an object. -/
def record : Json → Checked Members
  | .obj members => .good members
  | _ => .fault .notRecord

/-- Any object. -/
def dictionary : Json → Checked Members
  | .obj members => .good members
  | _ => .fault .notDictionary

/-- A list with checked items. -/
def listOf {α : Type} (check : Json → Checked α) : Json → Checked (List α)
  | .arr items => Checked.all check items
  | _ => .fault .notList

/-- Null, or a checked value. -/
def orNull {α : Type} (check : Json → Checked α) : Json → Checked (Option α)
  | .null => .good none
  | value => (check value).map some

end PromptForms.Schema

namespace PromptForms.Members

open Schema

/-- A member that has to be there. -/
def required {α : Type} (members : Members) (name : String) (check : Json → Checked α) : Checked α :=
  match members.lookup name with
  | some value => (check value).under name
  | none => (Checked.fault .missing).under name

/-- A member with a default. -/
def optional {α : Type} (members : Members) (name : String) (default : α)
    (check : Json → Checked α) : Checked α :=
  match members.lookup name with
  | some value => (check value).under name
  | none => .good default

/-- A member that may be null or absent. -/
def nullable {α : Type} (members : Members) (name : String) (check : Json → Checked α) :
    Checked (Option α) :=
  members.optional name none (orNull check)

/-- A member that may be absent; a given null is kept apart from absence. -/
def given {α : Type} (members : Members) (name : String) (check : Json → Checked α) :
    Checked (Option α) :=
  match members.lookup name with
  | some value => ((check value).map some).under name
  | none => .good none

end PromptForms.Members
