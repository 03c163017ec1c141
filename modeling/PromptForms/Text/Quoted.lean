/-
  PromptForms.Text.Quoted
  ───────────────────────
  **QUOTED TEXT.**

  Messages that name an unexpected text show it between quotes, so that blanks and
  control characters stay visible.  Apostrophes enclose the text, double quotes if it
  holds an apostrophe and no double quote.  The enclosing quote, the backslash and
  every character without a shape of its own are escaped.

      quoted         the quoted form of a text
-/
import PromptForms.Text.CharacterClass

namespace PromptForms.Text

/-- A character that is shown as itself. -/
def isPrintable (c : Char) : Bool :=
  match classOf c with
  | .separator => c == ' '
  | .other => false
  | _ => true

/-- The last `width` hexadecimal digits of `n`. -/
def hexDigits (width n : Nat) : List Char :=
  let digits := Nat.toDigits 16 n
  List.replicate (width - digits.length) '0' ++ digits

/-- One character inside a text enclosed by `mark`. -/
def escapeChar (mark c : Char) : List Char :=
  if c == mark || c == '\\' then ['\\', c]
  else if c == '\n' then ['\\', 'n']
  else if c == '\r' then ['\\', 'r']
  else if c == '\t' then ['\\', 't']
  else if isPrintable c then [c]
  else if c.toNat < 0x100 then '\\' :: 'x' :: hexDigits 2 c.toNat
  else if c.toNat < 0x10000 then '\\' :: 'u' :: hexDigits 4 c.toNat
  else '\\' :: 'U' :: hexDigits 8 c.toNat

/-- The quoted form of a text. -/
def quoted (text : String) : String :=
  let cs := text.toList
  let mark := if cs.contains '\'' && !cs.contains '"' then '"' else '\''
  String.ofList (mark :: cs.flatMap (escapeChar mark) ++ [mark])

end PromptForms.Text
