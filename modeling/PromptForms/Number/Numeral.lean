/-
  PromptForms.Number.Numeral
  ──────────────────────────
  **NUMERALS AS PEOPLE TYPE THEM.**

  A number may arrive as a text.  The digits of every script are digits, blanks
  around the numeral do not count, a sign may stand in front, and single underscores
  may separate digits.  An integer numeral has at most `maxDigits` digits; a longer
  one is still a fractional numeral.

      readInt        integer numerals, with the reason of a refusal
      readReal?      fractional numerals, infinities and `nan` included
-/
import PromptForms.Number.Binary64
import PromptForms.Text.Blank
import PromptForms.Text.CharacterClass

namespace PromptForms.Numeral

/-! ## §1. One alphabet. -/

/-- One character of a numeral that is not written in ASCII alone: blanks become spaces and
digits of every script become ASCII digits; what has no place in a numeral becomes `?`. -/
def unify (c : Char) : Char :=
  if c.toNat < 127 then c
  else if Text.isBlank c then ' '
  else match Text.digitValue? c with
    | some v => Char.ofNat ('0'.toNat + v)
    | none => '?'

/-- A numeral with the digits and blanks of every script unified.  A text of ASCII characters
alone is left as it is. -/
def unified (cs : List Char) : List Char :=
  if cs.all (·.toNat < 128) then cs else cs.map unify

/-- A numeral without the blanks around it. -/
def core (text : String) : List Char :=
  Text.trimBy Text.isAsciiSpace (unified text.toList)

/-- A sign in front, and what follows it. -/
def splitSign : List Char → Bool × List Char
  | '-' :: rest => (true, rest)
  | '+' :: rest => (false, rest)
  | rest => (false, rest)

/-- Removes underscores; none if one of them does not stand between two digits. -/
def dropSeparators (cs : List Char) : Option (List Char) :=
  go false cs
where
  /-- `afterDigit` says whether the character before the rest is a digit. -/
  go (afterDigit : Bool) : List Char → Option (List Char)
    | [] => some []
    | '_' :: rest =>
      if afterDigit && (rest.head?.any Char.isDigit) then go false rest else none
    | c :: rest => (go c.isDigit rest).map (c :: ·)

/-- The value of a list of ASCII digits. -/
def digitsValue (digits : List Char) : Nat :=
  digits.foldl (fun n c => n * 10 + (c.toNat - '0'.toNat)) 0

/-! ## §2. Integer numerals. -/

/-- The most digits an integer numeral may have. -/
def maxDigits : Nat := 4300

/-- What a text says as an integer numeral. -/
inductive IntReading where
  | value (i : Int)
  | tooLong (digits : Nat)
  | malformed
  deriving DecidableEq, Repr

/-- Why an integer numeral of that many digits is refused. -/
def tooLongMessage (digits : Nat) : String :=
  s!"Exceeds the limit ({maxDigits} digits) for integer string conversion: value has {digits} " ++
    "digits; use sys.set_int_max_str_digits() to increase the limit"

/-- Reads an integer numeral. -/
def readInt (text : String) : IntReading :=
  let (negative, body) := splitSign (core text)
  match dropSeparators body with
  | none => .malformed
  | some digits =>
    if digits.isEmpty || !digits.all Char.isDigit then .malformed
    else if maxDigits < digits.length then .tooLong digits.length
    else
      let n := digitsValue digits
      .value (if negative then -(n : Int) else n)

/-! ## §3. Fractional numerals. -/

/-- The exponent part of a numeral: nothing, or `e` with an optional sign and digits. -/
def readExponent? : List Char → Option Int
  | [] => some 0
  | c :: rest =>
    if c == 'e' || c == 'E' then
      let (negative, digits) := splitSign rest
      if digits.isEmpty || !digits.all Char.isDigit then none
      else some (if negative then -(digitsValue digits : Int) else digitsValue digits)
    else none

/-- An unsigned numeral: digits with an optional point and an optional exponent. -/
def readUnsigned? (negative : Bool) (body : List Char) : Option Binary64 :=
  let whole := body.takeWhile Char.isDigit
  let rest := body.dropWhile Char.isDigit
  let (fraction, rest) := match rest with
    | '.' :: after => (after.takeWhile Char.isDigit, after.dropWhile Char.isDigit)
    | other => ([], other)
  if whole.isEmpty && fraction.isEmpty then none
  else (readExponent? rest).map fun e =>
    Binary64.ofDecimal negative (digitsValue (whole ++ fraction)) (e - fraction.length)

/-- The names of the numbers that have no digits, in lower case. -/
def named? (negative : Bool) (body : List Char) : Option Binary64 :=
  match String.ofList (body.map Char.toLower) with
  | "inf" | "infinity" => some (.infinite negative)
  | "nan" => some .nan
  | _ => none

/-- Reads a signed fractional numeral or named number without blanks and separators. -/
def readPlainReal? (cs : List Char) : Option Binary64 :=
  let (negative, body) := splitSign cs
  (named? negative body).or (readUnsigned? negative body)

/-- Reads a fractional numeral. -/
def readReal? (text : String) : Option Binary64 :=
  (dropSeparators (core text)).bind readPlainReal?

/-- Reads a numeral: an integer if it is one, else a fractional number. -/
def read? (text : String) : Option Number :=
  match readInt text with
  | .value i => some (.int i)
  | _ => (readReal? text).map .real

end PromptForms.Numeral
