/-
  PromptForms.Json.Writer
  ───────────────────────
  **WRITING JSON.**

  A value is written on one line, without blanks, and in ASCII alone: a character beyond
  ASCII is written as one or two escapes of four hexadecimal digits.  A number that is
  not finite is written by its name.

      Json.write        the text of a value
      Json.finiteOnly   a value with null in place of numbers that are not finite
-/
import PromptForms.Json.Basic

namespace PromptForms.Json

/-! ## §1. Texts and numbers. -/

/-- An escape of four hexadecimal digits. -/
def escape (code : Nat) : String :=
  let digits := Nat.toDigits 16 code
  "\\u" ++ String.ofList (List.replicate (4 - digits.length) '0' ++ digits)

/-- A character inside a text. -/
def writeChar (c : Char) : String :=
  if c == '"' then "\\\""
  else if c == '\\' then "\\\\"
  else if ' ' ≤ c && c.toNat < 127 then c.toString
  else if c.toNat < 0x10000 then escape c.toNat
  else
    let rest := c.toNat - 0x10000
    escape (0xD800 + rest / 0x400) ++ escape (0xDC00 + rest % 0x400)

/-- A text between quotes. -/
def writeText (s : String) : String :=
  "\"" ++ s.toList.foldl (fun written c => written ++ writeChar c) "" ++ "\""

/-- A binary64 number. -/
def writeReal : Binary64 → String
  | .infinite negative => if negative then "-Infinity" else "Infinity"
  | .nan => "NaN"
  | x => x.shortest

/-! ## §2. Values. -/

mutual

/-- Writes a value. -/
def write : Json → String
  | .null => "null"
  | .bool b => if b then "true" else "false"
  | .int i => toString i
  | .real x => writeReal x
  | .str s => writeText s
  | .arr items => "[" ++ writeItems items ++ "]"
  | .obj members => "\x7b" ++ writeMembers members ++ "\x7d"

/-- Writes the items of a list. -/
def writeItems : List Json → String
  | [] => ""
  | [item] => write item
  | item :: rest => write item ++ "," ++ writeItems rest

/-- Writes the members of an object. -/
def writeMembers : List (String × Json) → String
  | [] => ""
  | [(name, value)] => writeText name ++ ":" ++ write value
  | (name, value) :: rest => writeText name ++ ":" ++ write value ++ "," ++ writeMembers rest

end

/-! ## §3. Finite numbers. -/

mutual

/-- A value with null in place of numbers that are not finite. -/
def finiteOnly : Json → Json
  | .real x => if x.isFinite then .real x else .null
  | .arr items => .arr (finiteItems items)
  | .obj members => .obj (finiteMembers members)
  | value => value

/-- The items of a list, finite numbers only. -/
def finiteItems : List Json → List Json
  | [] => []
  | item :: rest => finiteOnly item :: finiteItems rest

/-- The members of an object, finite numbers only. -/
def finiteMembers : List (String × Json) → List (String × Json)
  | [] => []
  | (name, value) :: rest => (name, finiteOnly value) :: finiteMembers rest

end

end PromptForms.Json
