/-
  PromptForms.Json.Basic
  ──────────────────────
  **JSON VALUES.**

  Payloads, stored columns and answers are JSON values.  Integers have any size and
  are not binary64 numbers of the same value, and the members of an object keep their
  order, because the order decides which of two faults is reported first.

      Json            the values
      get?            the member of an object
      onlyGiven       a value reduced to the members that another one gives
      truthy          what counts as given
      display         the text of a value inside a message
-/
import PromptForms.Dictionary
import PromptForms.Number.DecimalText
import PromptForms.Text.Quoted

namespace PromptForms

/-! ## §1. Values. -/

/-- A JSON value. -/
inductive Json where
  | null
  | bool (value : Bool)
  | int (value : Int)
  | real (value : Binary64)
  | str (value : String)
  | arr (items : List Json)
  | obj (members : List (String × Json))
  deriving BEq, Repr, Inhabited

/-- The members of an object, each name at most once, in order of arrival. -/
abbrev Members := Dictionary Json

namespace Json

/-- The member of an object; none if the value is no object or lacks it. -/
def get? (value : Json) (name : String) : Option Json :=
  match value with
  | .obj members => members.lookup name
  | _ => none

/-- A number as a JSON value. -/
def ofNumber : Number → Json
  | .int i => .int i
  | .real x => .real x

/-- Null for an absent value. -/
def ofOption {α : Type} (encode : α → Json) : Option α → Json
  | none => .null
  | some a => encode a

/-- A list of texts. -/
def texts (items : List String) : Json := .arr (items.map .str)

/-- Null, false, zero and everything empty count as not given. -/
def truthy : Json → Bool
  | .null => false
  | .bool b => b
  | .int i => i != 0
  | .real x => x.isNonzero
  | .str s => !s.isEmpty
  | .arr items => !items.isEmpty
  | .obj members => !members.isEmpty

mutual

/-- A value without the members that another value does not give, at every depth. -/
def onlyGiven (given : Json) : Json → Json
  | .obj members => match given with
    | .obj names => .obj (onlyGivenMembers names members)
    | _ => .obj members
  | .arr items => match given with
    | .arr others => .arr (onlyGivenItems others items)
    | _ => .arr items
  | value => value

/-- The items of a list, each reduced to what its counterpart gives. -/
def onlyGivenItems : (given items : List Json) → List Json
  | given :: others, item :: rest => onlyGiven given item :: onlyGivenItems others rest
  | [], items => items
  | _, [] => []

/-- The members that are given, each reduced to what is given of it. -/
def onlyGivenMembers (given : List (String × Json)) : (members : List (String × Json)) →
    List (String × Json)
  | [] => []
  | (name, value) :: rest =>
    match given.lookup name with
    | some g => (name, onlyGiven g value) :: onlyGivenMembers given rest
    | none => onlyGivenMembers given rest

end

/-! ## §2. Values inside messages. -/

mutual

/-- A value as a message quotes it: texts between quotes, the constants `None`, `True` and
`False`, lists between square brackets, objects between braces. -/
def quoted : Json → String
  | .null => "None"
  | .bool b => if b then "True" else "False"
  | .int i => toString i
  | .real x => x.shortest
  | .str s => Text.quoted s
  | .arr items => "[" ++ ", ".intercalate (quotedItems items) ++ "]"
  | .obj members => "\x7b" ++ ", ".intercalate (quotedMembers members) ++ "\x7d"

/-- The items of a list. -/
def quotedItems : List Json → List String
  | [] => []
  | item :: rest => quoted item :: quotedItems rest

/-- The members of an object. -/
def quotedMembers : List (String × Json) → List String
  | [] => []
  | (name, value) :: rest => (Text.quoted name ++ ": " ++ quoted value) :: quotedMembers rest

end

/-- A value as a message names it: a text as it is, anything else quoted. -/
def display : Json → String
  | .str s => s
  | value => value.quoted

end Json

end PromptForms
