/-
  PromptForms.Web.Address
  ───────────────────────
  **ADDRESSES OF REQUESTS.**

  The target of a request is a path and perhaps a query.  In both, an octet may be
  written as `%` and two hexadecimal digits; in a query a plus sign stands for a blank.

      Target.ofText     splits a target
      decoded           undoes the escapes
      Target.query?     the last value of a name in the query
      escaped           a path as an answer may carry it
-/
import PromptForms.Dictionary
import PromptForms.Text.Blank

namespace PromptForms.Web

/-! ## §1. Escapes. -/

/-- The value of a hexadecimal digit. -/
def hexValue? (c : Char) : Option Nat :=
  if c.isDigit then some (c.toNat - '0'.toNat)
  else if 'a' ≤ c && c ≤ 'f' then some (c.toNat - 'a'.toNat + 10)
  else if 'A' ≤ c && c ≤ 'F' then some (c.toNat - 'A'.toNat + 10)
  else none

/-- The octets of a text, with escapes undone; a percent sign that starts no escape stays. -/
def octets : List Char → List UInt8
  | [] => []
  | '%' :: a :: b :: rest =>
    match hexValue? a, hexValue? b with
    | some x, some y => UInt8.ofNat (x * 16 + y) :: octets rest
    | _, _ => '%'.toNat.toUInt8 :: octets (a :: b :: rest)
  | c :: rest => (String.ofList [c]).toUTF8.toList ++ octets rest

/-- The octets that may follow the first octet of a character: the lowest and the highest second
octet, and how many octets follow.  None if no character of more than one octet starts so. -/
def followers? (first : UInt8) : Option (UInt8 × UInt8 × Nat) :=
  if first < 0xC2 then none
  else if first < 0xE0 then some (0x80, 0xBF, 1)
  else if first < 0xF0 then
    some (if first = 0xE0 then 0xA0 else 0x80, if first = 0xED then 0x9F else 0xBF, 2)
  else if first < 0xF5 then
    some (if first = 0xF0 then 0x90 else 0x80, if first = 0xF4 then 0x8F else 0xBF, 3)
  else none

/-- The longest part of a list that can follow the first octet of a character. -/
def following (first : UInt8) (rest : List UInt8) : List UInt8 :=
  match followers? first, rest with
  | some (low, high, count), second :: more =>
    if low ≤ second && second ≤ high then
      second :: (more.take (count - 1)).takeWhile fun b => 0x80 ≤ b && b ≤ 0xBF
    else []
  | _, _ => []

/-- The character of octets that belong together; a replacement character if they are incomplete. -/
def characterOf (bytes : List UInt8) : Char :=
  match (String.fromUTF8? (ByteArray.mk bytes.toArray)).map String.toList with
  | some [c] => c
  | _ => Char.ofNat 0xFFFD

/-- The characters of a list of octets; octets of no character are shown as a replacement
character, as many of them at a time as could have been the start of one. -/
def charactersOf : List UInt8 → List Char
  | [] => []
  | first :: rest =>
    let more := following first rest
    characterOf (first :: more) :: charactersOf (rest.drop more.length)
termination_by bytes => bytes.length
decreasing_by simp only [List.length_drop, List.length_cons]; omega

/-- A text with its escapes undone. -/
def decoded (text : String) : String := String.ofList (charactersOf (octets text.toList))

/-! ## §2. Targets. -/

/-- A target: the decoded path and the query as it came. -/
structure Target where
  path : String
  query : String
  deriving DecidableEq, Repr

/-- Splits a target at its first question mark; a fragment does not count. -/
def Target.ofText (text : String) : Target :=
  let cs := text.toList.takeWhile (· != '#')
  { path := decoded (String.ofList (cs.takeWhile (· != '?')))
    query := String.ofList ((cs.dropWhile (· != '?')).drop 1) }

/-- A part of a query with its escapes undone. -/
def decodedPart (part : String) : String :=
  decoded (String.ofList (part.toList.map fun c => if c == '+' then ' ' else c))

/-- A name and its value; without an equals sign the value is empty. -/
def pairOf (part : String) : String × String :=
  let cs := part.toList
  (decodedPart (String.ofList (cs.takeWhile (· != '='))),
    decodedPart (String.ofList ((cs.dropWhile (· != '=')).drop 1)))

/-- The names and values of a query; a later value counts. -/
def Target.pairs (t : Target) : Dictionary String :=
  Dictionary.ofPairs (((Text.pieces '&' t.query).filter (· != "")).map pairOf)

/-- The last value of a name in the query. -/
def Target.query? (t : Target) (name : String) : Option String := t.pairs.lookup name

/-! ## §3. Paths in answers. -/

/-- Characters that stand for themselves in an address. -/
def isPlain (c : Char) : Bool :=
  c.isAlphanum || "_.-~:/%#?=@[]!$&'()*+,;".toList.contains c

/-- An octet as an escape. -/
def escapedOctet (b : UInt8) : String :=
  let digits := (Nat.toDigits 16 b.toNat).map Char.toUpper
  "%" ++ String.ofList (List.replicate (2 - digits.length) '0' ++ digits)

/-- A text with escapes for all characters that do not stand for themselves. -/
def escaped (text : String) : String :=
  "".intercalate (text.toList.map fun c =>
    if isPlain c then c.toString
    else "".intercalate ((String.ofList [c]).toUTF8.toList.map escapedOctet))

end PromptForms.Web
