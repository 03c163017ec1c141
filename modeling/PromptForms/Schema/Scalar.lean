/-
  PromptForms.Schema.Scalar
  ─────────────────────────
  **LENIENT SCALARS.**

  Documents are written by people and programs of many kinds, so a scalar is accepted
  in every spelling that leaves no doubt: an integer may come as a text or as an
  integral fraction, a truth value as one of a few words.  Texts are the exception,
  nothing else is ever taken for a text.

      text, boundedText   texts, with bounds on their number of characters
      oneOf               one of a few texts
      bool, int, real     lenient truth values, integers and binary64 numbers
      number              an integer if it can be one, else a binary64 number
-/
import PromptForms.Schema.Checked
import PromptForms.Number.Numeral

namespace PromptForms.Schema

/-! ## §1. Texts. -/

/-- A text. -/
def text : Json → Checked String
  | .str s => .good s
  | _ => .fault .notText

/-- A text of at least `least` and, if given, at most `greatest` characters. -/
def boundedText (least : Nat) (greatest : Option Nat) (value : Json) : Checked String :=
  (text value).andThen fun s =>
    if s.length < least then .fault (.tooShort least)
    else match greatest with
      | some most => if most < s.length then .fault (.tooLong most) else .good s
      | none => .good s

/-- The meaning of one of a few texts, in the order in which a message lists them. -/
def oneOf {α : Type} (choices : List (String × α)) : Json → Checked α
  | .str s => match choices.lookup s with
    | some a => .good a
    | none => .fault (.notOneOf (choices.map (·.1)))
  | _ => .fault (.notOneOf (choices.map (·.1)))

/-! ## §2. Truth values. -/

/-- The words for true, in lower case. -/
def trueWords : List String := ["1", "on", "t", "true", "y", "yes"]

/-- The words for false, in lower case. -/
def falseWords : List String := ["0", "off", "f", "false", "n", "no"]

/-- A truth value, the numbers 0 and 1, or one of a few words in any case. -/
def bool : Json → Checked Bool
  | .bool b => .good b
  | .int i => ofInt i
  | .real x => if x.isIntegral then ofInt (x.truncate.getD 2) else .fault .notBool
  | .str s =>
    let word := String.ofList (s.toList.map Char.toLower)
    if trueWords.contains word then .good true
    else if falseWords.contains word then .good false
    else .fault .unclearBool
  | _ => .fault .notBool
where
  /-- The numbers 0 and 1; a number beyond 64 bits is not even an unclear truth value. -/
  ofInt (i : Int) : Checked Bool :=
    if i = 0 then .good false
    else if i = 1 then .good true
    else if -0x8000000000000000 ≤ i && i < 0x8000000000000000 then .fault .unclearBool
    else .fault .notBool

/-! ## §3. Integers. -/

/-- Drops zeros, and underscores after the first one, from the front of an unsigned numeral;
the last digit before a point or the end stays.  None if the text starts with neither a digit
nor a minus sign. -/
def dropLeadingZeros (cs : List Char) : Option (List Char) :=
  match cs with
  | '0' :: rest => go '0' rest
  | c :: _ => if c.isDigit || c == '-' then some cs else none
  | [] => none
where
  /-- `last` is the character before the rest. -/
  go (last : Char) : List Char → Option (List Char)
    | [] => some [last]
    | c :: rest =>
      if c == '0' || c == '_' then go c rest
      else if c.isDigit then some (c :: rest)
      else if c == '.' then some (last :: c :: rest)
      else none

/-- Drops a point that is followed by zeros only. -/
def dropZeroFraction (cs : List Char) : List Char :=
  let fraction := cs.dropWhile (· != '.')
  if 1 < fraction.length && (fraction.drop 1).all (· == '0') then cs.takeWhile (· != '.') else cs

/-- Removes underscores; none if one stands at an end or beside another one. -/
def dropUnderscores (cs : List Char) : Option (List Char) :=
  go true cs
where
  /-- `edge` says that no underscore may stand here. -/
  go (edge : Bool) : List Char → Option (List Char)
    | [] => some []
    | '_' :: rest => if edge || rest.isEmpty then none else go true rest
    | c :: rest => (go false rest).map (c :: ·)

/-- The parts of an integer text that count: no blanks around it, no plus sign, no leading
zeros, no fraction of zeros, no separators. -/
def cleanInt (s : String) : Option (List Char) :=
  let trimmed := Text.trimBy Text.isWhiteSpace s.toList
  let unsigned := match trimmed with
    | '+' :: rest => if rest.head? == some '-' then none else some rest
    | other => some other
  unsigned.bind fun cs => (dropLeadingZeros cs).bind fun cs => dropUnderscores (dropZeroFraction cs)

/-- Reads an integer text. -/
def intOfText (s : String) : Checked Int :=
  match cleanInt s with
  | none => .fault .unclearInt
  | some cs =>
    if Numeral.maxDigits < cs.length then .fault .hugeInt
    else
      let (negative, digits) := match cs with
        | '-' :: rest => (true, rest)
        | other => (false, other)
      if digits.isEmpty || !digits.all Char.isDigit then .fault .unclearInt
      else
        let n : Int := Numeral.digitsValue digits
        .good (if negative then -n else n)

/-- An integer, a truth value, an integral number within 64 bits, or a text that shows one. -/
def int : Json → Checked Int
  | .bool b => .good (if b then 1 else 0)
  | .int i => .good i
  | .real x =>
    match x.truncate with
    | none => .fault .notFinite
    | some i =>
      if !x.isIntegral then .fault .fractionalInt
      else if -0x8000000000000000 < i && i < 0x8000000000000000 then .good i
      else .fault .hugeInt
  | .str s => intOfText s
  | _ => .fault .notInt

/-- An integer from `least` on. -/
def intFrom (least : Int) (value : Json) : Checked Int :=
  (int value).andThen (Checked.ensure (fun i => least ≤ i) fun _ => .below least)

/-- An integer between two bounds. -/
def intBetween (least greatest : Int) (value : Json) : Checked Int :=
  (intFrom least value).andThen (Checked.ensure (fun i => i ≤ greatest) fun _ => .above greatest)

/-! ## §4. Binary64 numbers. -/

/-- Reads a number text; separators are accepted where an integer text accepts them. -/
def realOfText (s : String) : Checked Binary64 :=
  let cs := Text.trimBy Text.isWhiteSpace s.toList
  match (Numeral.readPlainReal? cs).or ((dropUnderscores cs).bind Numeral.readPlainReal?) with
  | some x => .good x
  | none => .fault .unclearNumber

/-- A binary64 number, an integer within its range, a truth value, or a text that shows one. -/
def real : Json → Checked Binary64
  | .bool b => .good ((Binary64.ofInt? (if b then 1 else 0)).getD .nan)
  | .int i => match Binary64.ofInt? i with
    | some x => .good x
    | none => .fault .notNumber
  | .real x => .good x
  | .str s => realOfText s
  | _ => .fault .notNumber

/-- A number: a number of either kind as it is, else an integer, else a binary64 number.  What
is neither one has both kinds of issue. -/
def number (value : Json) : Checked Number :=
  match value with
  | .int i => .good (.int i)
  | .real x => .good (.real x)
  | _ =>
    match int value, real value with
    | .good i, _ => .good (.int i)
    | .bad .., .good x => .good (.real x)
    | .bad i is, .bad j js =>
      let under (step : String) (list : List Issue) := list.map (Issue.under step)
      .bad (i.under "int") (under "int" is ++ j.under "float" :: under "float" js)

end PromptForms.Schema
