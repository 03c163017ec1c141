/-
  PromptForms.Pattern.Basic
  ─────────────────────────
  **PATTERNS OF FIELD RULES.**

  A form designer may demand that a text matches a pattern, in the usual notation of
  regular expressions: character sets, greedy, lazy and possessive repetition, groups
  and references to them, conditions on groups, look-around and inline flags.  This
  module holds the syntax tree, its width and the reasons to refuse a pattern.

      Node             the constructs
      Node.widths      least and greatest number of characters of a match
      Reason, PatternError, PatternError.message
-/
import PromptForms.Text.Quoted

namespace PromptForms.Pattern

/-! ## §1. Syntax. -/

/-- The switches that inline flags turn on and off. -/
structure Flags where
  ignoreCase : Bool := false
  multiline : Bool := false
  dotAll : Bool := false
  verbose : Bool := false
  /-- Classes and letter case look at ASCII alone. -/
  ascii : Bool := false
  /-- Classes and letter case look at every script; this is the default. -/
  unicode : Bool := false
  /-- Repetition is refused. -/
  template : Bool := false
  deriving DecidableEq, Repr, Inhabited

/-- The classes of characters that have an escape. -/
inductive CharClass where
  | digit | space | word
  deriving DecidableEq, Repr

/-- One item of a character set. -/
inductive SetItem where
  | point (code : Nat)
  | range (first last : Nat)
  | cls (kind : CharClass) (negated : Bool)
  deriving DecidableEq, Repr

/-- Positions without width. -/
inductive Anchor where
  | lineStart | lineEnd | textStart | textEnd | boundary | noBoundary
  deriving DecidableEq, Repr

/-- How a repetition gives back what it took. -/
inductive Greed where
  | greedy | lazy | possessive
  deriving DecidableEq, Repr

/-- A construct.  A sequence of constructs is a list. -/
inductive Node where
  | point (code : Nat) (negated : Bool)
  | any
  | set (negated : Bool) (items : List SetItem)
  | anchor (kind : Anchor)
  | reference (group : Nat)
  | condition (group : Nat) (yes : List Node) (no : List Node)
  | choice (alternatives : List (List Node))
  | group (index : Option Nat) (on off : Flags) (body : List Node)
  | atomic (body : List Node)
  | look (ahead negated : Bool) (body : List Node)
  | repeated (least : Nat) (greatest : Option Nat) (greed : Greed) (body : List Node)
  deriving Inhabited

/-! ## §2. Widths. -/

/-- Widths beyond this one count as unbounded. -/
def maxWidth : Nat := 0x10000000000000000

/-- Least and greatest width. -/
abbrev Widths := Nat × Nat

mutual

/-- The widths of a construct, given those of the closed groups. -/
def Node.widths (groups : Nat → Widths) : Node → Widths
  | .point .. | .any | .set .. => (1, 1)
  | .anchor _ | .look .. => (0, 0)
  | .reference g => groups g
  | .condition _ yes no =>
    let (a, b) := sequenceWidths groups yes
    let (c, d) := sequenceWidths groups no
    (min a c, max b d)
  | .choice alternatives => choiceWidths groups alternatives
  | .group _ _ _ body | .atomic body => sequenceWidths groups body
  | .repeated least greatest _ body =>
    let (a, b) := sequenceWidths groups body
    (a * least, match greatest with
      | some n => b * n
      | none => if b = 0 then 0 else maxWidth)

/-- The widths of a sequence. -/
def sequenceWidths (groups : Nat → Widths) : List Node → Widths
  | [] => (0, 0)
  | node :: rest =>
    let (a, b) := node.widths groups
    let (c, d) := sequenceWidths groups rest
    (min (a + c) maxWidth, min (b + d) maxWidth)

/-- The widths of a choice. -/
def choiceWidths (groups : Nat → Widths) : List (List Node) → Widths
  | [] => (maxWidth, 0)
  | body :: rest =>
    let (a, b) := sequenceWidths groups body
    let (c, d) := choiceWidths groups rest
    (min a c, max b d)

end

/-! ## §3. Reasons to refuse a pattern. -/

/-- Why a pattern is refused. -/
inductive Reason where
  | endEscape
  | badEscape (escape : String)
  | incompleteEscape (escape : String)
  | octalEscape (escape : String)
  | missing (what : String)
  | unterminatedName (terminator : Char)
  | unterminatedSet
  | unterminatedGroup
  | unterminatedComment
  | unknownCharacterName (name : String)
  | badRange (first last : String)
  | crossedRepeat
  | nothingToRepeat
  | repeatedRepeat
  | unexpectedEnd
  | unknownExtension (text : String)
  | badGroupName (name : String)
  | unknownGroupName (name : String)
  | takenGroupName (name : String) (group earlier : Nat)
  | badGroupNumber
  | noSuchGroup (group : Nat)
  | openGroup
  | sameLookBehind
  | threeBranches
  | lateFlags
  | missingFlagEnd (allowed : String)
  | unknownFlag
  | missingFlag
  | localeFlag
  | typeFlags
  | offTypeFlags
  | onGlobalFlag
  | offGlobalFlag
  | onAndOff
  | unbalanced
  | variableLookBehind
  | templateRepeat (greed : Greed)
  deriving DecidableEq, Repr

/-- The wording of a reason. -/
def Reason.text : Reason → String
  | endEscape => "bad escape (end of pattern)"
  | badEscape e => s!"bad escape {e}"
  | incompleteEscape e => s!"incomplete escape {e}"
  | octalEscape e => s!"octal escape value {e} outside of range 0-0o377"
  | missing what => s!"missing {what}"
  | unterminatedName c => s!"missing {c}, unterminated name"
  | unterminatedSet => "unterminated character set"
  | unterminatedGroup => "missing ), unterminated subpattern"
  | unterminatedComment => "missing ), unterminated comment"
  | unknownCharacterName n => s!"undefined character name {Text.quoted n}"
  | badRange a b => s!"bad character range {a}-{b}"
  | crossedRepeat => "min repeat greater than max repeat"
  | nothingToRepeat => "nothing to repeat"
  | repeatedRepeat => "multiple repeat"
  | unexpectedEnd => "unexpected end of pattern"
  | unknownExtension t => s!"unknown extension ?{t}"
  | badGroupName n => s!"bad character in group name {Text.quoted n}"
  | unknownGroupName n => s!"unknown group name {Text.quoted n}"
  | takenGroupName n g e =>
    s!"redefinition of group name {Text.quoted n} as group {g}; was group {e}"
  | badGroupNumber => "bad group number"
  | noSuchGroup g => s!"invalid group reference {g}"
  | openGroup => "cannot refer to an open group"
  | sameLookBehind => "cannot refer to group defined in the same lookbehind subpattern"
  | threeBranches => "conditional backref with more than two branches"
  | lateFlags => "global flags not at the start of the expression"
  | missingFlagEnd allowed => s!"missing {allowed}"
  | unknownFlag => "unknown flag"
  | missingFlag => "missing flag"
  | localeFlag => "bad inline flags: cannot use 'L' flag with a str pattern"
  | typeFlags => "bad inline flags: flags 'a', 'u' and 'L' are incompatible"
  | offTypeFlags => "bad inline flags: cannot turn off flags 'a', 'u' and 'L'"
  | onGlobalFlag => "bad inline flags: cannot turn on global flag"
  | offGlobalFlag => "bad inline flags: cannot turn off global flag"
  | onAndOff => "bad inline flags: flag turned on and off"
  | unbalanced => "unbalanced parenthesis"
  | variableLookBehind => "look-behind requires fixed-width pattern"
  | templateRepeat greed =>
    "internal: unsupported template operator " ++ match greed with
      | .greedy => "MAX_REPEAT"
      | .lazy => "MIN_REPEAT"
      | .possessive => "POSSESSIVE_REPEAT"

/-- A refused pattern. -/
inductive PatternError where
  /-- The reason and, if there is one, the position in characters. -/
  | invalid (reason : Reason) (position : Option Nat)
  /-- Two flags on the whole pattern exclude each other. -/
  | exclusiveFlags
  /-- A repetition count is too large. -/
  | hugeRepeat
  deriving DecidableEq, Repr

/-- Position, and line and column if the pattern has several lines. -/
def positionText (pattern : String) (position : Nat) : String :=
  let cs := pattern.toList
  let before := cs.take position
  let line := before.count '\n' + 1
  let column := (before.reverse.takeWhile (· != '\n')).length + 1
  s!" at position {position}" ++
    if cs.contains '\n' then s!" (line {line}, column {column})" else ""

/-- The wording of a refusal. -/
def PatternError.message (pattern : String) : PatternError → String
  | .invalid reason position =>
    "Invalid pattern: " ++ reason.text ++ position.elim "" (positionText pattern)
  | .exclusiveFlags => "ASCII and UNICODE flags are incompatible"
  | .hugeRepeat => "the repetition number is too large"

end PromptForms.Pattern
