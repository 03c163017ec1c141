/-
  PromptForms.Email.Address
  ─────────────────────────
  **EMAIL ADDRESSES.**

  An email field takes an address, with or without a display name in front of it:
  `ann@example.com` or `Ann Lee <ann@example.com>`.  The part before the `@` is a dot
  separated list of atoms in any script; quoted parts are refused.

      isAddress       may a text be the value of an email field?
-/
import PromptForms.Email.Domain
import PromptForms.Pattern.Matcher

namespace PromptForms.Email

/-! ## §1. The part before the `@`. -/

/-- The ASCII characters of an atom. -/
def isAtomChar (c : Char) : Bool :=
  c.isAlphanum || "_!#$%&'*+-/=?^`\x7b|\x7d~".toList.contains c

/-- Dot separated atoms of ASCII, or of visible characters of every script. -/
def isLocalPart (cs : List Char) : Bool :=
  (splitDots cs).all (fun atom => !atom.isEmpty && atom.all fun c => isAtomChar c || 0x80 ≤ c.toNat) &&
    (cs.all (·.toNat < 0x80) || visible cs)

/-! ## §2. Addresses. -/

/-- The greatest number of characters of an address, in every form of it. -/
def maxLength : Nat := 254

/-- A local part, an `@` and a domain name that mail can be sent to. -/
def isBareAddress (text : String) : Bool :=
  let cs := text.toList
  let localPart := cs.takeWhile (· != '@')
  let domain := (cs.dropWhile (· != '@')).drop 1
  isLocalPart localPart &&
    match asciiForm? domain with
    | none => false
    | some form =>
      let size := localPart.length + 1 + domain.length
      let octets := (String.ofList localPart).utf8ByteSize + 1 +
        (String.ofList (domain.map mapped)).utf8ByteSize
      size ≤ maxLength && octets ≤ maxLength &&
        (!localPart.all (·.toNat < 0x80) || localPart.length + 1 + form.length ≤ maxLength)

/-- A display name, plain or quoted, and an address in angle brackets. -/
def displayForm : Except Pattern.PatternError Pattern :=
  Pattern.read <|
    "\\s*(?:((?:[\\w!#$%&'*+\\-/=?^_`\x7b|\x7d~]+\\s+)*[\\w!#$%&'*+\\-/=?^_`\x7b|\x7d~]+)" ++
      "|\"((?:[^\"]|\")+)\")?\\s*<(.+)>\\s*"

/-- The address that a text shows: what stands in angle brackets after a display name, else the
text itself; spaces around it do not count. -/
def shownAddress (text : String) : String :=
  let inner := match displayForm with
    | .ok p => ((p.matchAll? text).bind fun s => s.capturedText? 3 text).getD text
    | .error _ => text
  String.ofList (Text.trimBy (· == ' ') inner.toList)

/-- The greatest number of characters of a text that is looked at. -/
def maxTextLength : Nat := 2048

/-- May a text be the value of an email field? -/
def isAddress (text : String) : Bool :=
  text.length ≤ maxTextLength && isBareAddress (shownAddress text)

end PromptForms.Email
