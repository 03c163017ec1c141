/-
  PromptForms.Email.Domain
  ────────────────────────
  **DOMAIN NAMES OF ADDRESSES.**

  The part of an address after the `@` is a domain name that mail can be sent to: dot
  separated labels of letters, digits and inner hyphens, in any script, with at least
  one dot, ending in a letter, and not reserved for special use.  Upper-case letters,
  wide letters and wide dots count as the plain ones.  A label with characters beyond
  ASCII has an ASCII form, and the limits of 63 and 253 characters hold for that form.

      asciiForm?      the ASCII form of an acceptable domain name
-/
import PromptForms.Email.Punycode
import PromptForms.Text.LetterCase
import PromptForms.Text.CharacterClass

namespace PromptForms.Email

/-! ## §1. Characters. -/

/-- A visible character: one that is neither a separator nor a control character nor
unassigned; a mark needs a character to stand on, so it is not visible in first place. -/
def visible (cs : List Char) : Bool :=
  cs.all (fun c => match Text.classOf c with
    | .letter | .number | .punctuation | .symbol | .mark => true
    | _ => false) &&
  !(cs.head?.any fun c => Text.classOf c == .mark)

/-- A letter or digit of ASCII. -/
def isPlain (c : Char) : Bool := c.isAlphanum

/-- The characters that a domain name may be written with. -/
def isHostChar (c : Char) : Bool := isPlain c || c == '-' || c == '.' || 0x80 ≤ c.toNat

/-- The character that counts in place of a character. -/
def mapped (c : Char) : Char :=
  let n := c.toNat
  if n == 0x3002 || n == 0xFF0E || n == 0xFF61 then '.'
  else if 0xFF01 ≤ n && n ≤ 0xFF5E then Text.toLower (Char.ofNat (n - 0xFEE0))
  else Text.toLower c

/-- A character beyond ASCII that a label may hold: letters in lower case, marks and digits. -/
def isLabelChar (c : Char) : Bool :=
  match Text.classOf c with
  | .letter => Text.toLower c == c
  | .mark => true
  | .number => Text.isDecimalDigit c || c.toNat == 0x3007
  | _ => isPlain c || c == '-'

/-! ## §2. Labels. -/

/-- The parts of a text between its dots. -/
def splitDots (cs : List Char) : List (List Char) :=
  match cs with
  | [] => [[]]
  | c :: rest =>
    match splitDots rest with
    | [] => [[c]]
    | part :: parts => if c == '.' then [] :: part :: parts else (c :: part) :: parts

/-- The lower-case prefix of encoded labels. -/
def encodedPrefix : List Char := ['x', 'n', '-', '-']

/-- Two hyphens in third and fourth place are reserved for encoded labels. -/
def reservedHyphens (label : List Char) : Bool :=
  (label.drop 2).take 2 == ['-', '-'] && label.take 4 != encodedPrefix

/-- A label beyond ASCII that may be encoded. -/
def encodable (label : List Char) : Bool :=
  label.all isLabelChar && !(label.head?.any fun c => Text.classOf c == .mark) &&
    (label.drop 2).take 2 != ['-', '-'] && label.head? != some '-' && label.getLast? != some '-'

/-- The ASCII form of a label. -/
def labelForm? (label : List Char) : Option (List Char) :=
  if label.isEmpty || label.head? == some '-' || label.getLast? == some '-' || reservedHyphens label
  then none
  else if label.all (·.toNat < 0x80) then
    if !label.all (fun c => isPlain c || c == '-') then none
    else if label.take 4 == encodedPrefix then
      match Punycode.decode? (label.drop 4) with
      | some decoded =>
        if label.length = 4 || decoded.isEmpty || !encodable decoded then none else some label
      | none => none
    else some label
  else if encodable label then some (encodedPrefix ++ Punycode.encode label)
  else none

/-! ## §3. Domain names. -/

/-- Top-level names that no mail is sent to. -/
def specialUse : List String := ["arpa", "invalid", "local", "localhost", "onion", "test"]

/-- The ASCII form of a domain name that mail can be sent to. -/
def asciiForm? (domain : List Char) : Option (List Char) :=
  if domain.isEmpty || !domain.all isHostChar || !visible domain then none
  else
    let labels := splitDots (domain.map mapped)
    match labels.mapM labelForm? with
    | none => none
    | some forms =>
      let whole := ['.'].intercalate forms
      let last := String.ofList (forms.getLast?.getD [])
      let lastChar := whole.getLast?.getD '.'
      if forms.all (·.length ≤ 63) && whole.length ≤ 253 && 2 ≤ forms.length &&
          lastChar.isAlpha && !specialUse.contains last then some whole
      else none

end PromptForms.Email
