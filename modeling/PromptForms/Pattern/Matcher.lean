/-
  PromptForms.Pattern.Matcher
  ───────────────────────────
  **MATCHING PATTERNS.**

  A pattern is matched by trying its choices in order and going back on failure.  A
  construct is run with the continuation of what follows it, so going back is an
  ordinary `orElse`.  The recursion is on the pattern; only repetition recurses on a
  count, and a repetition whose last round consumed nothing starts no further one, so
  what is left of the text bounds its rounds.

      Pattern.matchesAll    does the pattern match the whole of a text?
-/
import PromptForms.Pattern.Reader
import PromptForms.Text.LetterCase

namespace PromptForms.Pattern

/-! ## §1. Characters. -/

/-- The flags inside a group; turning on one kind of classes turns off the other. -/
def Flags.inside (flags on off : Flags) : Flags :=
  let base := if on.ascii || on.unicode then { flags with ascii := false, unicode := false } else flags
  let f := base.union on
  ⟨f.ignoreCase && !off.ignoreCase, f.multiline && !off.multiline, f.dotAll && !off.dotAll,
    f.verbose && !off.verbose, f.ascii && !off.ascii, f.unicode && !off.unicode,
    f.template && !off.template⟩

/-- Letters, numbers and the underscore. -/
def isWord (ascii : Bool) (c : Char) : Bool :=
  c == '_' || if ascii then c.isAlphanum else Text.isAlphanumeric c

/-- The characters of a class. -/
def CharClass.holds (ascii : Bool) (c : Char) : CharClass → Bool
  | .digit => if ascii then c.isDigit else Text.isDecimalDigit c
  | .space => if ascii then Text.isAsciiSpace c else Text.isBlank c
  | .word => isWord ascii c

/-- The code points that stand for a character: itself, or all that equal it when case is
ignored. -/
def variants (flags : Flags) (c : Char) : List Nat :=
  if !flags.ignoreCase then [c.toNat]
  else if flags.ascii then
    if c.isUpper then [c.toNat, c.toNat + 32]
    else if c.isLower then [c.toNat, c.toNat - 32]
    else [c.toNat]
  else Text.caseVariants c.toNat

/-- Is a character in an item of a set? -/
def SetItem.holds (flags : Flags) (c : Char) (points : List Nat) : SetItem → Bool
  | .point code => points.contains code
  | .range first last => points.any fun n => first ≤ n && n ≤ last
  | .cls kind negated => kind.holds flags.ascii c != negated

/-- The character at a position, if it is there and has a property. -/
def charHolds (text : Array Char) (position : Nat) (p : Char → Bool) : Bool :=
  (text[position]?).any p

/-- Is a position an anchor? -/
def Anchor.holds (text : Array Char) (flags : Flags) (position : Nat) : Anchor → Bool
  | .textStart => position == 0
  | .textEnd => position == text.size
  | .lineStart =>
    position == 0 || flags.multiline && charHolds text (position - 1) (· == '\n')
  | .lineEnd =>
    position == text.size ||
      charHolds text position (· == '\n') && (flags.multiline || position + 1 == text.size)
  | .boundary => text.size != 0 && wordBefore != wordAfter
  | .noBoundary => text.size != 0 && wordBefore == wordAfter
where
  /-- Is there a word character before the position? -/
  wordBefore : Bool := position != 0 && charHolds text (position - 1) (isWord flags.ascii)
  /-- Is there a word character after the position? -/
  wordAfter : Bool := charHolds text position (isWord flags.ascii)

/-! ## §2. Spots and rounds. -/

/-- How far a match has come: a position in the text, and where groups began and ended. -/
structure Spot where
  position : Nat
  starts : Array (Option Nat)
  ends : Array (Option Nat)

/-- What is left to be matched. -/
abbrev Next := Spot → Option Spot

/-- A construct: it continues from each of its matches in turn. -/
abbrev Step := Spot → Next → Option Spot

/-- The part of the text that a group took last, if it is closed. -/
def Spot.captured (s : Spot) (group : Nat) : Option (Nat × Nat) :=
  match s.starts.getD group none, s.ends.getD group none with
  | some a, some b => if a ≤ b then some (a, b) else none
  | _, _ => none

/-- Exactly `n` rounds. -/
def rounds (step : Step) : (n : Nat) → Step
  | 0, s, next => next s
  | n + 1, s, next => step s fun t => rounds step n t next

/-- Is another round allowed? -/
def mayContinue (left last : Option Nat) (s : Spot) : Bool :=
  left != some 0 && last != some s.position

/-- As many rounds as possible, giving back one at a time. -/
def greedyRounds (step : Step) : (fuel : Nat) → (left last : Option Nat) → Step
  | 0, _, _, s, next => next s
  | fuel + 1, left, last, s, next =>
    if mayContinue left last s then
      (step s fun t => greedyRounds step fuel (left.map (· - 1)) (some s.position) t next) <|> next s
    else next s

/-- As few rounds as possible, taking one more at a time. -/
def lazyRounds (step : Step) : (fuel : Nat) → (left last : Option Nat) → Step
  | 0, _, _, s, next => next s
  | fuel + 1, left, last, s, next =>
    next s <|>
      if mayContinue left last s then
        step s fun t => lazyRounds step fuel (left.map (· - 1)) (some s.position) t next
      else none

/-- Exactly `n` rounds, each with its first match only. -/
def firmRounds (step : Step) : (n : Nat) → Spot → Option Spot
  | 0, s => some s
  | n + 1, s => (step s some).bind (firmRounds step n)

/-- As many rounds as possible, each with its first match only. -/
def firmMore (step : Step) : (fuel : Nat) → (left last : Option Nat) → Spot → Spot
  | 0, _, _, s => s
  | fuel + 1, left, last, s =>
    if mayContinue left last s then
      match step s some with
      | some t => firmMore step fuel (left.map (· - 1)) (some s.position) t
      | none => s
    else s

/-- A repetition. -/
def repeatStep (size least : Nat) (greatest : Option Nat) (greed : Greed) (step : Step) : Step :=
  fun s next =>
    let left := greatest.map (· - least)
    let fuel (t : Spot) := size - t.position + 2
    match greed with
    | .greedy => rounds step least s fun t => greedyRounds step (fuel t) left none t next
    | .lazy => rounds step least s fun t => lazyRounds step (fuel t) left none t next
    | .possessive => (firmRounds step least s).bind fun t => next (firmMore step (fuel t) left none t)

/-! ## §3. Constructs. -/

/-- Moves on by one character with a property. -/
def oneChar (text : Array Char) (p : Char → Bool) : Step := fun s next =>
  if charHolds text s.position p then next { s with position := s.position + 1 } else none

/-- Matches again what a group took. -/
def again (text : Array Char) (flags : Flags) (group : Nat) : Step := fun s next =>
  match s.captured group with
  | none => none
  | some (a, b) =>
    let size := b - a
    let same (i : Nat) : Bool :=
      match text[a + i]?, text[s.position + i]? with
      | some c, some d =>
        c == d || flags.ignoreCase &&
          (if flags.ascii then c.toLower == d.toLower else Text.toLower c == Text.toLower d)
      | _, _ => false
    if s.position + size ≤ text.size && (List.range size).all same then
      next { s with position := s.position + size }
    else none

mutual

/-- Runs one construct. -/
def Node.run (text : Array Char) (widths : Nat → Widths) (flags : Flags) : Node → Step
  | .point code negated => oneChar text fun c => (variants flags c).contains code != negated
  | .any => oneChar text fun c => flags.dotAll || c != '\n'
  | .set negated items => oneChar text fun c =>
    let points := variants flags c
    items.any (·.holds flags c points) != negated
  | .anchor kind => fun s next => if kind.holds text flags s.position then next s else none
  | .reference group => again text flags group
  | .condition group yes no => fun s next =>
    if (s.captured group).isSome then runAll text widths flags yes s next
    else runAll text widths flags no s next
  | .choice alternatives => fun s next => runFirst text widths flags alternatives s next
  | .group index on off body => fun s next =>
    let inner := flags.inside on off
    match index with
    | none => runAll text widths inner body s next
    | some g =>
      runAll text widths inner body
        { s with starts := s.starts.setIfInBounds g (some s.position) }
        fun t => next { t with ends := t.ends.setIfInBounds g (some t.position) }
  | .atomic body => fun s next => (runAll text widths flags body s some).bind next
  | .look ahead negated body => fun s next =>
    let back := if ahead then 0 else (sequenceWidths widths body).1
    let found :=
      if back ≤ s.position then
        runAll text widths flags body { s with position := s.position - back } some
      else none
    match found, negated with
    | some t, false => next { t with position := s.position }
    | none, true => next s
    | _, _ => none
  | .repeated least greatest greed body =>
    repeatStep text.size least greatest greed fun s next => runAll text widths flags body s next

/-- Runs the constructs of a sequence one after the other. -/
def runAll (text : Array Char) (widths : Nat → Widths) (flags : Flags) : List Node → Step
  | [] => fun s next => next s
  | node :: rest => fun s next =>
    node.run text widths flags s fun t => runAll text widths flags rest t next

/-- Runs the first alternative from which the rest can be matched. -/
def runFirst (text : Array Char) (widths : Nat → Widths) (flags : Flags) : List (List Node) → Step
  | [] => fun _ _ => none
  | body :: rest => fun s next =>
    runAll text widths flags body s next <|> runFirst text widths flags rest s next

end

end Pattern

/-- A match of the pattern with the whole of a text. -/
def Pattern.matchAll? (p : Pattern) (text : String) : Option Pattern.Spot :=
  let chars := text.toList.toArray
  let blank : Array (Option Nat) := Array.replicate p.widths.size none
  let atEnd (s : Pattern.Spot) : Option Pattern.Spot :=
    if s.position = chars.size then some s else none
  Pattern.runAll chars (fun g => p.widths.getD g (0, 0)) p.flags p.body ⟨0, blank, blank⟩ atEnd

/-- Does the pattern match the whole of a text? -/
def Pattern.matchesAll (p : Pattern) (text : String) : Bool := (p.matchAll? text).isSome

/-- The text that a group took in a match. -/
def Pattern.Spot.capturedText? (s : Pattern.Spot) (group : Nat) (text : String) : Option String :=
  (s.captured group).map fun (a, b) => String.ofList ((text.toList.drop a).take (b - a))

end PromptForms
