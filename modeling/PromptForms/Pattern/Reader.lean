/-
  PromptForms.Pattern.Reader
  ──────────────────────────
  **READING PATTERNS.**

  A pattern is read token by token; a token is one character, or a backslash with the
  character after it.  Every reading step answers the tokens that are left together
  with the proof that there are fewer of them, so reading ends without a bound on the
  depth of groups.  The first fault ends the reading and is reported with its position.

  Moving on to a lone backslash at the end of the pattern is itself a fault, so it is
  reported before any fault of the token that was left.

      Pattern         a pattern that is ready to be matched
      Pattern.read    reads a text as a pattern
-/
import PromptForms.Pattern.Basic
import PromptForms.Number.Numeral

namespace PromptForms.Pattern

/-! ## §1. Tokens. -/

/-- A character, or a backslash with the character after it. -/
structure Token where
  position : Nat
  first : Char
  second : Option Char
  deriving DecidableEq, Repr

/-- The characters of a token. -/
def Token.chars (t : Token) : List Char := t.first :: t.second.toList

/-- The text of a token. -/
def Token.text (t : Token) : String := String.ofList t.chars

/-- Is the token this one character? -/
def Token.is (t : Token) (c : Char) : Bool := t.first == c && t.second.isNone

/-- Is the token one character with a property? -/
def Token.isOne (t : Token) (p : Char → Bool) : Bool := p t.first && t.second.isNone

/-- The tokens of a text, and whether a lone backslash is left at its end. -/
def tokenize (position : Nat) : List Char → List Token × Bool
  | [] => ([], false)
  | ['\\'] => ([], true)
  | '\\' :: c :: rest =>
    let (ts, broken) := tokenize (position + 2) rest
    (⟨position, '\\', some c⟩ :: ts, broken)
  | c :: rest =>
    let (ts, broken) := tokenize (position + 1) rest
    (⟨position, c, none⟩ :: ts, broken)

/-- Tokens that are still to be read. -/
abbrev Source := List Token

/-- Some of the tokens are left, perhaps all. -/
abbrev Rest (ts : Source) := { r : Source // r.length ≤ ts.length }

/-- At least one token has been read. -/
abbrev Less (ts : Source) := { r : Source // r.length < ts.length }

/-- A rest of fewer tokens. -/
def Less.rest {ts : Source} (r : Less ts) : Rest ts := ⟨r.1, Nat.le_of_lt r.2⟩

/-- A rest of a rest after the first token. -/
def Rest.after {ts : Source} {r : Less ts} (q : Rest r.1) : Less ts :=
  ⟨q.1, Nat.lt_of_le_of_lt q.2 r.2⟩

/-! ## §2. Groups and faults. -/

/-- What is known of the whole pattern while it is read. -/
structure Bounds where
  /-- Its number of characters. -/
  size : Nat
  /-- Does it end in a lone backslash? -/
  broken : Bool

/-- What has been learned of groups and flags so far. -/
structure Groups where
  flags : Flags := {}
  names : List (String × Nat) := []
  /-- The widths of the groups, none while a group is open; group 0 is the whole pattern. -/
  widths : Array (Option Widths) := #[none]
  /-- Inside a look-behind: the number of groups when it began. -/
  lookBehind : Option Nat := none
  /-- Groups that a condition names by number, with the position of the first one. -/
  conditions : List (Nat × Nat) := []
  deriving Inhabited

/-- Reading with the groups so far and a possible fault. -/
abbrev Read := ReaderT Bounds (StateT Groups (Except PatternError))

/-- The position of the next token. -/
def tell : Source → Read Nat
  | t :: _ => return t.position
  | [] => return (← read).size

/-- A fault at a position. -/
def failAt {α : Type} (position : Nat) (reason : Reason) : Read α :=
  throw (.invalid reason (some position))

/-- A fault `back` characters before the next token. -/
def fail {α : Type} (ts : Source) (reason : Reason) (back : Nat) : Read α := do
  failAt ((← tell ts) - back) reason

/-- Moving on to these tokens: a fault if only a lone backslash is left. -/
def arrive (ts : Source) : Read Unit := do
  let bounds ← read
  if ts.isEmpty && bounds.broken then
    throw (.invalid .endEscape (some (bounds.size - 1)))

/-- Reads one token. -/
def take? (ts : Source) : Read (Option (Token × Less ts)) :=
  match ts with
  | [] => return none
  | t :: rest => do
    arrive rest
    return some (t, ⟨rest, by simp⟩)

/-- Reads one character if it is the next token. -/
def skip? (ts : Source) (c : Char) : Read (Option (Less ts)) :=
  match ts with
  | [] => return none
  | t :: rest =>
    if t.is c then do
      arrive rest
      return some ⟨rest, by simp⟩
    else return none

/-- Reads at most `count` characters with a property. -/
def takeSome (p : Char → Bool) : (count : Nat) → (ts : Source) → Read (List Char × Rest ts)
  | 0, ts => return ([], ⟨ts, Nat.le_refl _⟩)
  | _ + 1, [] => return ([], ⟨[], Nat.le_refl _⟩)
  | n + 1, t :: rest =>
    if t.isOne p then do
      arrive rest
      let (cs, r) ← takeSome p n rest
      return (t.first :: cs, ⟨r.1, Nat.le_trans r.2 (by simp)⟩)
    else return ([], ⟨t :: rest, Nat.le_refl _⟩)

/-- Reads a name up to its terminator. -/
def takeName (terminator : Char) (what : String) (ts : Source) (done : List Char) :
    Read (String × Rest ts) :=
  match ts with
  | [] =>
    if done.isEmpty then fail [] (.missing what) 0
    else fail [] (.unterminatedName terminator) done.length
  | t :: rest => do
    arrive rest
    if t.is terminator then
      if done.isEmpty then fail rest (.missing what) 1
      else return (String.ofList done, ⟨rest, by simp⟩)
    else
      let (name, r) ← takeName terminator what rest (done ++ t.chars)
      return (name, ⟨r.1, Nat.le_trans r.2 (by simp)⟩)

/-! ## §3. Escapes. -/

/-- Hexadecimal digits. -/
def isHexDigit (c : Char) : Bool :=
  c.isDigit || ('a' ≤ c && c ≤ 'f') || ('A' ≤ c && c ≤ 'F')

/-- Octal digits. -/
def isOctDigit (c : Char) : Bool := '0' ≤ c && c ≤ '7'

/-- The value of digits of a base up to sixteen. -/
def digitsIn (base : Nat) (cs : List Char) : Nat :=
  cs.foldl (fun n c => n * base + value c) 0
where
  /-- The value of one digit. -/
  value (c : Char) : Nat :=
    if c.isDigit then c.toNat - '0'.toNat else c.toLower.toNat - 'a'.toNat + 10

/-- The characters that can be written by name. -/
def namedPoints : List (String × Nat) :=
  [("SPACE", 0x20), ("EXCLAMATION MARK", 0x21), ("QUOTATION MARK", 0x22), ("NUMBER SIGN", 0x23),
   ("DOLLAR SIGN", 0x24), ("PERCENT SIGN", 0x25), ("AMPERSAND", 0x26), ("APOSTROPHE", 0x27),
   ("LEFT PARENTHESIS", 0x28), ("RIGHT PARENTHESIS", 0x29), ("ASTERISK", 0x2A),
   ("PLUS SIGN", 0x2B), ("COMMA", 0x2C), ("HYPHEN-MINUS", 0x2D), ("FULL STOP", 0x2E),
   ("SOLIDUS", 0x2F), ("COLON", 0x3A), ("SEMICOLON", 0x3B), ("LESS-THAN SIGN", 0x3C),
   ("EQUALS SIGN", 0x3D), ("GREATER-THAN SIGN", 0x3E), ("QUESTION MARK", 0x3F),
   ("COMMERCIAL AT", 0x40), ("LEFT SQUARE BRACKET", 0x5B), ("REVERSE SOLIDUS", 0x5C),
   ("RIGHT SQUARE BRACKET", 0x5D), ("CIRCUMFLEX ACCENT", 0x5E), ("LOW LINE", 0x5F),
   ("GRAVE ACCENT", 0x60), ("LEFT CURLY BRACKET", 0x7B), ("VERTICAL LINE", 0x7C),
   ("RIGHT CURLY BRACKET", 0x7D), ("TILDE", 0x7E), ("NO-BREAK SPACE", 0xA0),
   ("SECTION SIGN", 0xA7), ("DEGREE SIGN", 0xB0), ("PLUS-MINUS SIGN", 0xB1),
   ("MICRO SIGN", 0xB5), ("MIDDLE DOT", 0xB7), ("MULTIPLICATION SIGN", 0xD7),
   ("DIVISION SIGN", 0xF7), ("EN DASH", 0x2013), ("EM DASH", 0x2014),
   ("LEFT SINGLE QUOTATION MARK", 0x2018), ("RIGHT SINGLE QUOTATION MARK", 0x2019),
   ("LEFT DOUBLE QUOTATION MARK", 0x201C), ("RIGHT DOUBLE QUOTATION MARK", 0x201D),
   ("BULLET", 0x2022), ("HORIZONTAL ELLIPSIS", 0x2026), ("EURO SIGN", 0x20AC),
   ("SNOWMAN", 0x2603), ("GRINNING FACE", 0x1F600)]

/-- The character of a name in any case: a letter or digit by its systematic name, or one of the
listed ones. -/
def pointNamed? (name : String) : Option Nat :=
  let upper := String.ofList (name.toList.map Char.toUpper)
  let digits := ["ZERO", "ONE", "TWO", "THREE", "FOUR", "FIVE", "SIX", "SEVEN", "EIGHT", "NINE"]
  match Text.pieces ' ' upper with
  | ["LATIN", "CAPITAL", "LETTER", l] => letter l
  | ["LATIN", "SMALL", "LETTER", l] => (letter l).map (· + 32)
  | ["DIGIT", d] => (digits.idxOf? d).map (· + '0'.toNat)
  | _ => namedPoints.lookup upper
where
  /-- A single capital letter. -/
  letter (l : String) : Option Nat :=
    match l.toList with
    | [c] => if c.isUpper then some c.toNat else none
    | _ => none

/-- Escapes of one character that stand for a control character or a backslash. -/
def controlEscape? : Char → Option Char
  | 'a' => some '\x07'
  | 'b' => some '\x08'
  | 'f' => some '\x0c'
  | 'n' => some '\n'
  | 'r' => some '\r'
  | 't' => some '\t'
  | 'v' => some '\x0b'
  | '\\' => some '\\'
  | _ => none

/-- Escapes for classes of characters. -/
def classEscape? : Char → Option SetItem
  | 'd' => some (.cls .digit false)
  | 'D' => some (.cls .digit true)
  | 's' => some (.cls .space false)
  | 'S' => some (.cls .space true)
  | 'w' => some (.cls .word false)
  | 'W' => some (.cls .word true)
  | _ => none

/-- Escapes for positions. -/
def anchorEscape? : Char → Option Anchor
  | 'A' => some .textStart
  | 'b' => some .boundary
  | 'B' => some .noBoundary
  | 'Z' => some .textEnd
  | _ => none

/-- Reads an escape of exactly `count` hexadecimal digits after `\` and the letter `c`. -/
def hexEscape (c : Char) (count : Nat) (ts : Source) : Read (Nat × Rest ts) := do
  let (digits, r) ← takeSome isHexDigit count ts
  let text := String.ofList ('\\' :: c :: digits)
  if digits.length < count then fail r.1 (.incompleteEscape text) text.length
  let code := digitsIn 16 digits
  if 0x10FFFF < code then fail r.1 (.badEscape text) text.length
  return (code, r)

/-- Reads an escape by name after `\N`. -/
def nameEscape (ts : Source) : Read (Nat × Rest ts) := do
  match ← skip? ts '{' with
  | none => fail ts (.missing "\x7b") 0
  | some r =>
    let (name, q) ← takeName '}' "character name" r.1 []
    match pointNamed? name with
    | some code => return (code, ⟨q.1, Nat.le_trans q.2 (Nat.le_of_lt r.2)⟩)
    | none => fail q.1 (.unknownCharacterName name) (name.length + 4)

/-- The escapes that stand for one character in and outside of sets; none if the letter `c`
begins no such escape. -/
def pointEscape? (c : Char) (ts : Source) : Read (Option (Nat × Rest ts)) :=
  match c with
  | 'x' => some <$> hexEscape 'x' 2 ts
  | 'u' => some <$> hexEscape 'u' 4 ts
  | 'U' => some <$> hexEscape 'U' 8 ts
  | 'N' => some <$> nameEscape ts
  | _ => return none

/-- An escape that only makes its character literal; letters and digits have no such escape. -/
def literalEscape (c : Char) (ts : Source) : Read Nat :=
  if c.isAlphanum then fail ts (.badEscape (String.ofList ['\\', c])) 2 else return c.toNat

/-- Reads an octal escape whose digits so far are given; a value beyond one byte is a fault. -/
def octalValue (digits : List Char) (ts : Source) : Read Nat := do
  let value := digitsIn 8 digits
  if 0o377 < value then
    fail ts (.octalEscape (String.ofList ('\\' :: digits))) (digits.length + 1)
  return value

/-- Reads an escape inside a set, after the token that begins it. -/
def setEscape (c : Char) (ts : Source) : Read (SetItem × Rest ts) := do
  let all : Rest ts := ⟨ts, Nat.le_refl _⟩
  match controlEscape? c, classEscape? c with
  | some x, _ => return (.point x.toNat, all)
  | none, some item => return (item, all)
  | none, none =>
    match ← pointEscape? c ts with
    | some (code, r) => return (.point code, r)
    | none =>
      if isOctDigit c then
        let (more, r) ← takeSome isOctDigit 2 ts
        return (.point (← octalValue (c :: more) r.1), r)
      else return (.point (← literalEscape c ts), all)

/-- Refuses a reference to an open group or, inside a look-behind, to a group of its own. -/
def checkLookBehind (group : Nat) (ts : Source) : Read Unit := do
  let g ← get
  match g.lookBehind with
  | none => return ()
  | some limit =>
    if (g.widths.getD group none).isNone then fail ts .openGroup 0
    if limit ≤ group then fail ts .sameLookBehind 0

/-- A reference to a group by number, written with `length` characters. -/
def groupReference (group length : Nat) (ts : Source) : Read Node := do
  let g ← get
  if group < g.widths.size then
    if (g.widths.getD group none).isNone then fail ts .openGroup length
    checkLookBehind group ts
    return .reference group
  else fail ts (.noSuchGroup group) (length - 1)

/-- Reads an escape of digits that does not start with a zero: a reference, or three octal
digits. -/
def digitEscape (c : Char) (ts : Source) : Read (Node × Rest ts) := do
  let (second, r) ← takeSome Char.isDigit 1 ts
  match second with
  | [d] =>
    let (third, q) ←
      if isOctDigit c && isOctDigit d then takeSome isOctDigit 1 r.1
      else pure ([], ⟨r.1, Nat.le_refl _⟩)
    if third.isEmpty then
      return (← groupReference (digitsIn 10 [c, d]) 3 r.1, r)
    else
      let code ← octalValue (c :: d :: third) q.1
      return (.point code false, ⟨q.1, Nat.le_trans q.2 r.2⟩)
  | _ => return (← groupReference (digitsIn 10 [c]) 2 r.1, r)

/-- Reads an escape outside of sets, after the token that begins it. -/
def escape (c : Char) (ts : Source) : Read (Node × Rest ts) := do
  let all : Rest ts := ⟨ts, Nat.le_refl _⟩
  match anchorEscape? c, classEscape? c, controlEscape? c with
  | some kind, _, _ => return (.anchor kind, all)
  | none, some item, _ => return (.set false [item], all)
  | none, none, some x => return (.point x.toNat false, all)
  | none, none, none =>
    match ← pointEscape? c ts with
    | some (code, r) => return (.point code false, r)
    | none =>
      if c == '0' then
        let (more, r) ← takeSome isOctDigit 2 ts
        return (.point (digitsIn 8 more) false, r)
      else if c.isDigit then digitEscape c ts
      else return (.point (← literalEscape c ts) false, all)

/-! ## §4. Character sets. -/

/-- The meaning of one token inside a set. -/
def setCode (t : Token) (ts : Source) : Read (SetItem × Rest ts) :=
  match t.second with
  | some c => setEscape c ts
  | none => return (.point t.first.toNat, ⟨ts, Nat.le_refl _⟩)

/-- Reads the items of a set that began at `here` up to its closing bracket; a bracket in first
place is an item. -/
def setItems (here : Nat) (ts : Source) (done : List SetItem) : Read (List SetItem × Rest ts) := do
  match ← take? ts with
  | none => failAt here .unterminatedSet
  | some (this, r) =>
    if this.is ']' && !done.isEmpty then return (done.reverse, r.rest)
    else
      let (one, r1) ← setCode this r.1
      have h1 := Nat.lt_of_le_of_lt r1.2 r.2
      match ← skip? r1.1 '-' with
      | none =>
        let (items, q) ← setItems here r1.1 (one :: done)
        return (items, ⟨q.1, Nat.le_trans q.2 (Nat.le_of_lt h1)⟩)
      | some r2 =>
        match ← take? r2.1 with
        | none => failAt here .unterminatedSet
        | some (that, r3) =>
          have h3 := Nat.lt_trans (Nat.lt_trans r3.2 r2.2) h1
          if that.is ']' then
            return ((.point '-'.toNat :: one :: done).reverse, ⟨r3.1, Nat.le_of_lt h3⟩)
          else
            let (two, r4) ← setCode that r3.1
            have h4 := Nat.lt_of_le_of_lt r4.2 h3
            let bad : Read (List SetItem × Rest ts) :=
              fail r4.1 (.badRange this.text that.text) (this.chars.length + 1 + that.chars.length)
            match one, two with
            | .point first, .point last =>
              if last < first then bad
              else
                let (items, q) ← setItems here r4.1 (.range first last :: done)
                return (items, ⟨q.1, Nat.le_trans q.2 (Nat.le_of_lt h4)⟩)
            | _, _ => bad
termination_by ts.length

/-! ## §5. Repetition. -/

/-- Counts from here on are too large. -/
def maxRepeat : Nat := 4294967295

/-- Reads counts after an opening brace: the least and the greatest count as digits.  None if
the braces do not close, in which case the opening one is literal. -/
def repeatCounts (ts : Source) : Read (Option (List Char × List Char × Less ts)) := do
  let (low, r) ← takeSome Char.isDigit ts.length ts
  let (high, q) ← match ← skip? r.1 ',' with
    | some q => do
      let (high, p) ← takeSome Char.isDigit q.1.length q.1
      pure (high, (⟨p.1, Nat.le_trans p.2 (Nat.le_of_lt q.2)⟩ : Rest r.1))
    | none => pure (low, ⟨r.1, Nat.le_refl _⟩)
  match ← skip? q.1 '}' with
  | some p =>
    return some (low, high, ⟨p.1, Nat.lt_of_lt_of_le p.2 (Nat.le_trans q.2 r.2)⟩)
  | none => return none

/-- The counts of a repetition sign; none for a brace that is literal. -/
def repeatSign (sign : Char) (here : Nat) (ts : Source) :
    Read (Option (Nat × Option Nat × Rest ts)) := do
  let all : Rest ts := ⟨ts, Nat.le_refl _⟩
  match sign with
  | '?' => return some (0, some 1, all)
  | '*' => return some (0, none, all)
  | '+' => return some (1, none, all)
  | _ =>
    if ts.head?.any (·.is '}') then return none
    match ← repeatCounts ts with
    | none => return none
    | some (low, high, r) =>
      let least := digitsIn 10 low
      if maxRepeat ≤ least then throw .hugeRepeat
      if high.isEmpty then return some (least, none, r.rest)
      let greatest := digitsIn 10 high
      if maxRepeat ≤ greatest then throw .hugeRepeat
      if greatest < least then failAt here .crossedRepeat
      return some (least, some greatest, r.rest)

/-- How a repetition gives back, by the sign after it. -/
def repeatGreed (ts : Source) : Read (Greed × Rest ts) := do
  match ← skip? ts '?' with
  | some r => return (.lazy, r.rest)
  | none => match ← skip? ts '+' with
    | some r => return (.possessive, r.rest)
    | none => return (.greedy, ⟨ts, Nat.le_refl _⟩)

/-! ## §6. Heads of groups. -/

/-- What the characters after an opening parenthesis announce. -/
inductive GroupHead where
  | capture (name : Option String)
  | plain (on off : Flags)
  | atomic
  | look (ahead negated : Bool)
  | condition (group : Nat)
  /-- A reference by name, complete with its parenthesis. -/
  | reference (group : Nat)
  /-- A comment, complete with its parenthesis. -/
  | comment
  /-- Flags for the whole pattern, complete with their parenthesis. -/
  | globalFlags (flags : Flags)

/-- The flag of a letter; the letter `L` is one, but never allowed. -/
def flagOf? : Char → Option Flags
  | 'i' => some { ignoreCase := true }
  | 'L' => some {}
  | 'm' => some { multiline := true }
  | 's' => some { dotAll := true }
  | 'x' => some { verbose := true }
  | 'a' => some { ascii := true }
  | 't' => some { template := true }
  | 'u' => some { unicode := true }
  | _ => none

/-- The flag of a token. -/
def Token.flag? (t : Token) : Option Flags :=
  if t.second.isNone then flagOf? t.first else none

/-- Flags of either set. -/
def Flags.union (f g : Flags) : Flags :=
  ⟨f.ignoreCase || g.ignoreCase, f.multiline || g.multiline, f.dotAll || g.dotAll,
    f.verbose || g.verbose, f.ascii || g.ascii, f.unicode || g.unicode, f.template || g.template⟩

/-- Flags of both sets. -/
def Flags.inter (f g : Flags) : Flags :=
  ⟨f.ignoreCase && g.ignoreCase, f.multiline && g.multiline, f.dotAll && g.dotAll,
    f.verbose && g.verbose, f.ascii && g.ascii, f.unicode && g.unicode, f.template && g.template⟩

/-- Why a token is no flag. -/
def flagFault {α : Type} (t : Token) (ts : Source) (otherwise : Reason) : Read α :=
  fail ts (if t.isOne fun c => Text.classOf c == .letter then .unknownFlag else otherwise)
    t.chars.length

/-- Reads flags to turn on, from the token `t` up to one of `)`, `-` and `:`. -/
def flagsOn (t : Token) (ts : Source) (on : Flags) : Read (Flags × Char × Rest ts) := do
  match t.flag? with
  | none => flagFault t ts (.missingFlagEnd "-, : or )")
  | some flag =>
    if t.is 'L' then fail ts .localeFlag 0
    let on := on.union flag
    if (flag.ascii || flag.unicode) && on.ascii && on.unicode then fail ts .typeFlags 0
    match ← take? ts with
    | none => fail ts (.missingFlagEnd "-, : or )") 0
    | some (next, r) =>
      if next.isOne [')', '-', ':'].contains then return (on, next.first, r.rest)
      else
        let (flags, c, q) ← flagsOn next r.1 on
        return (flags, c, ⟨q.1, Nat.le_trans q.2 (Nat.le_of_lt r.2)⟩)
termination_by ts.length

/-- Reads flags to turn off, from the token `t` up to a colon. -/
def flagsOff (t : Token) (ts : Source) (off : Flags) : Read (Flags × Rest ts) := do
  match t.flag? with
  | none => flagFault t ts (.missingFlagEnd ":")
  | some flag =>
    if flag.ascii || flag.unicode || t.is 'L' then fail ts .offTypeFlags 0
    let off := off.union flag
    match ← take? ts with
    | none => fail ts (.missingFlagEnd ":") 0
    | some (next, r) =>
      if next.is ':' then return (off, r.rest)
      else
        let (flags, q) ← flagsOff next r.1 off
        return (flags, ⟨q.1, Nat.le_trans q.2 (Nat.le_of_lt r.2)⟩)
termination_by ts.length

/-- Reads inline flags whose first token is `t`. -/
def flagHead (t : Token) (ts : Source) : Read (GroupHead × Rest ts) := do
  let (on, last, r) ←
    if t.is '-' then pure ({}, '-', (⟨ts, Nat.le_refl _⟩ : Rest ts)) else flagsOn t ts {}
  if last == ')' then return (.globalFlags on, r)
  if on.template then fail r.1 .onGlobalFlag 1
  let (off, q) ←
    if last == '-' then do
      match ← take? r.1 with
      | none => fail r.1 .missingFlag 0
      | some (next, p) =>
        if next.flag?.isNone then flagFault next p.1 .missingFlag
        let (off, q) ← flagsOff next p.1 {}
        pure (off, (⟨q.1, Nat.le_trans q.2 (Nat.le_of_lt p.2)⟩ : Rest r.1))
    else pure ({}, ⟨r.1, Nat.le_refl _⟩)
  if off.template then fail q.1 .offGlobalFlag 1
  if on.inter off != {} then fail q.1 .onAndOff 1
  return (.plain on off, ⟨q.1, Nat.le_trans q.2 r.2⟩)

/-- May a text name a group? -/
def isGroupName (name : String) : Bool :=
  match name.toList with
  | [] => false
  | c :: rest => starts c && rest.all fun d =>
      starts d || Text.classOf d == .mark || Text.isDecimalDigit d
where
  /-- The characters that a name may start with. -/
  starts (c : Char) : Bool := c == '_' || Text.classOf c == .letter

/-- Demands a group name. -/
def checkGroupName (name : String) (ts : Source) : Read Unit :=
  if isGroupName name then return ()
  else fail ts (.badGroupName name) (name.length + 1)

/-- The group of a name. -/
def groupNamed (name : String) (ts : Source) : Read Nat := do
  match (← get).names.lookup name with
  | some g => return g
  | none => fail ts (.unknownGroupName name) (name.length + 1)

/-- Reads what follows `?P`. -/
def extensionHead (ts : Source) : Read (GroupHead × Rest ts) := do
  match ← skip? ts '<' with
  | some r =>
    let (name, q) ← takeName '>' "group name" r.1 []
    checkGroupName name q.1
    return (.capture (some name), ⟨q.1, Nat.le_trans q.2 (Nat.le_of_lt r.2)⟩)
  | none => match ← skip? ts '=' with
    | some r =>
      let (name, q) ← takeName ')' "group name" r.1 []
      checkGroupName name q.1
      let group ← groupNamed name q.1
      if ((← get).widths.getD group none).isNone then fail q.1 .openGroup (name.length + 1)
      checkLookBehind group q.1
      return (.reference group, ⟨q.1, Nat.le_trans q.2 (Nat.le_of_lt r.2)⟩)
    | none => match ← take? ts with
      | none => fail ts .unexpectedEnd 0
      | some (t, r) => fail r.1 (.unknownExtension ("P" ++ t.text)) (t.chars.length + 2)

/-- Reads the group of a condition, by name or by number. -/
def conditionHead (ts : Source) : Read (GroupHead × Rest ts) := do
  let (name, r) ← takeName ')' "group name" ts []
  let group ←
    if isGroupName name then groupNamed name r.1
    else match Numeral.readInt name with
      | .value (.ofNat 0) => fail r.1 .badGroupNumber (name.length + 1)
      | .value (.ofNat n) => do
        let position := (← tell r.1) - name.length - 1
        modify fun g =>
          if g.conditions.any (·.1 == n) then g
          else { g with conditions := g.conditions ++ [(n, position)] }
        pure n
      | _ => fail r.1 (.badGroupName name) (name.length + 1)
  checkLookBehind group r.1
  return (.condition group, r)

/-- Skips a comment that began at `start` up to its parenthesis. -/
def commentTail (start : Nat) (ts : Source) : Read (Rest ts) :=
  match ts with
  | [] => failAt start .unterminatedComment
  | t :: rest => do
    arrive rest
    if t.is ')' then return ⟨rest, by simp⟩
    else
      let r ← commentTail start rest
      return ⟨r.1, Nat.le_trans r.2 (by simp)⟩

/-- Reads the head of the group whose parenthesis is at `start`. -/
def groupHead (start : Nat) (ts : Source) : Read (GroupHead × Rest ts) := do
  match ← skip? ts '?' with
  | none => return (.capture none, ⟨ts, Nat.le_refl _⟩)
  | some q =>
    match ← take? q.1 with
    | none => fail q.1 .unexpectedEnd 0
    | some (t, r) =>
      have hr := Nat.le_of_lt (Nat.lt_trans r.2 q.2)
      let here : Rest ts := ⟨r.1, hr⟩
      let widen (x : GroupHead × Rest r.1) : GroupHead × Rest ts :=
        (x.1, ⟨x.2.1, Nat.le_trans x.2.2 hr⟩)
      if t.is 'P' then widen <$> extensionHead r.1
      else if t.is ':' then return (.plain {} {}, here)
      else if t.is '#' then
        let s ← commentTail start r.1
        return widen (.comment, s)
      else if t.is '=' then return (.look true false, here)
      else if t.is '!' then return (.look true true, here)
      else if t.is '<' then
        match ← take? r.1 with
        | none => fail r.1 .unexpectedEnd 0
        | some (u, p) =>
          let there : Rest ts := ⟨p.1, Nat.le_trans (Nat.le_of_lt p.2) hr⟩
          if u.is '=' then return (.look false false, there)
          else if u.is '!' then return (.look false true, there)
          else fail p.1 (.unknownExtension ("<" ++ u.text)) (u.chars.length + 2)
      else if t.is '(' then widen <$> conditionHead r.1
      else if t.is '>' then return (.atomic, here)
      else if t.flag?.isSome || t.is '-' then widen <$> flagHead t r.1
      else fail r.1 (.unknownExtension t.text) (t.chars.length + 1)

/-- Opens a group and answers its number. -/
def openGroup (name : Option String) (ts : Source) : Read Nat := do
  let g ← get
  let group := g.widths.size
  match name with
  | none => set { g with widths := g.widths.push none }
  | some n =>
    match g.names.lookup n with
    | some earlier => fail ts (.takenGroupName n group earlier) (n.length + 1)
    | none => set { g with widths := g.widths.push none, names := (n, group) :: g.names }
  return group

/-- The widths of the groups that are closed. -/
def Groups.closedWidths (g : Groups) (group : Nat) : Widths := (g.widths.getD group none).getD (0, 0)

/-- Closes a group. -/
def closeGroup (group : Nat) (body : List Node) : Read Unit :=
  modify fun g =>
    { g with widths := g.widths.setIfInBounds group (some (sequenceWidths g.closedWidths body)) }

/-! ## §7. Sequences and choices. -/

/-- Skips a comment of a verbose pattern up to the end of its line. -/
def lineComment (ts : Source) : Read (Rest ts) :=
  match ts with
  | [] => return ⟨[], Nat.le_refl _⟩
  | t :: rest => do
    arrive rest
    if t.is '\n' then return ⟨rest, by simp⟩
    else
      let r ← lineComment rest
      return ⟨r.1, Nat.le_trans r.2 (by simp)⟩

/-- Demands the parenthesis that closes the group begun at `start`. -/
def closing (start : Nat) (ts : Source) : Read (Less ts) := do
  match ← skip? ts ')' with
  | some r => return r
  | none => failAt start .unterminatedGroup

/-- Is this construct a position or a repetition? -/
def repeatFault? : Node → Option Reason
  | .anchor _ => some .nothingToRepeat
  | .repeated .. => some .repeatedRepeat
  | _ => none

mutual

/-- Reads a choice between sequences, up to a closing parenthesis or the end. -/
def choice (ts : Source) (verbose top : Bool) (done : List (List Node)) :
    Read (List Node × Rest ts) := do
  let (body, r) ← sequence ts verbose (top && done.isEmpty) []
  match ← skip? r.1 '|' with
  | some q =>
    have hq : q.1.length < ts.length := Nat.lt_of_lt_of_le q.2 r.2
    let verbose ← if top then (fun g => g.flags.verbose) <$> get else pure verbose
    let (nodes, p) ← choice q.1 verbose top (body :: done)
    return (nodes, ⟨p.1, Nat.le_trans p.2 (Nat.le_of_lt hq)⟩)
  | none => return (if done.isEmpty then body else [.choice (body :: done).reverse], r)
termination_by (ts.length, 1)

/-- Reads a sequence, up to a bar, a closing parenthesis or the end; `first` says that it is
the first one of the pattern. -/
def sequence (ts : Source) (verbose first : Bool) (done : List Node) :
    Read (List Node × Rest ts) :=
  match ts with
  | [] => return (done.reverse, ⟨[], Nat.le_refl _⟩)
  | t :: rest => do
    if t.is '|' || t.is ')' then return (done.reverse, ⟨t :: rest, Nat.le_refl _⟩)
    arrive rest
    let full := t :: rest
    /- Goes on after a construct. -/
    let go (node : Option Node) (r : Rest rest) (verbose : Bool := verbose) :
        Read (List Node × Rest full) := do
      have : r.1.length < rest.length + 1 := Nat.lt_succ_of_le r.2
      let (nodes, q) ← sequence r.1 verbose first (node.toList ++ done)
      return (nodes, ⟨q.1, Nat.le_trans q.2 (Nat.le_of_lt this)⟩)
    let all : Rest rest := ⟨rest, Nat.le_refl _⟩
    if verbose && t.isOne Text.isAsciiSpace then go none all
    else if verbose && t.is '#' then go none (← lineComment rest)
    else match t.second with
    | some c =>
      let (node, r) ← escape c rest
      go (some node) r
    | none =>
      match t.first with
      | '[' =>
        let negated ← skip? rest '^'
        let start : Rest rest := match negated with
          | some r => r.rest
          | none => all
        let (items, r) ← setItems t.position start.1 []
        let node := match items with
          | [.point code] => Node.point code negated.isSome
          | _ => .set negated.isSome items
        go (some node) ⟨r.1, Nat.le_trans r.2 start.2⟩
      | '.' => go (some .any) all
      | '^' => go (some (.anchor .lineStart)) all
      | '$' => go (some (.anchor .lineEnd)) all
      | '(' =>
        let start := t.position
        let (head, r) ← groupHead start rest
        have hr : r.1.length < rest.length + 1 := Nat.lt_succ_of_le r.2
        /- Reads the body of a group and its closing parenthesis. -/
        let inner (verbose : Bool) : Read (List Node × Rest rest) := do
          let (body, q) ← choice r.1 verbose false []
          let p ← closing start q.1
          return (body, ⟨p.1, Nat.le_trans (Nat.le_of_lt p.2) (Nat.le_trans q.2 r.2)⟩)
        match head with
        | .comment => go none r
        | .reference group => go (some (.reference group)) r
        | .globalFlags flags =>
          modify fun g => { g with flags := g.flags.union flags }
          if !first || !done.isEmpty then failAt start .lateFlags
          go none r (← get).flags.verbose
        | .capture name =>
          let group ← openGroup name r.1
          let (body, q) ← inner verbose
          closeGroup group body
          go (some (.group (some group) {} {} body)) q
        | .plain on off =>
          let (body, q) ← inner ((verbose || on.verbose) && !off.verbose)
          go (some (.group none on off body)) q
        | .atomic =>
          let (body, q) ← inner verbose
          go (some (.atomic body)) q
        | .look ahead negated =>
          let outer := (← get).lookBehind
          if !ahead && outer.isNone then
            modify fun g => { g with lookBehind := some g.widths.size }
          let (body, q) ← choice r.1 verbose false []
          if !ahead && outer.isNone then modify fun g => { g with lookBehind := none }
          let p ← closing start q.1
          go (some (.look ahead negated body))
            ⟨p.1, Nat.le_trans (Nat.le_of_lt p.2) (Nat.le_trans q.2 r.2)⟩
        | .condition group =>
          let (yes, q) ← sequence r.1 verbose false []
          have hq : q.1.length < rest.length + 1 := Nat.lt_of_le_of_lt q.2 hr
          match ← skip? q.1 '|' with
          | none =>
            let p ← closing start q.1
            go (some (.condition group yes []))
              ⟨p.1, Nat.le_trans (Nat.le_of_lt p.2) (Nat.le_trans q.2 r.2)⟩
          | some s =>
            have hs : s.1.length < rest.length + 1 := Nat.lt_trans s.2 hq
            let (no, u) ← sequence s.1 verbose false []
            if u.1.head?.any (·.is '|') then fail u.1 .threeBranches 0
            let p ← closing start u.1
            go (some (.condition group yes no))
              ⟨p.1, Nat.le_of_lt_succ (Nat.lt_trans p.2 (Nat.lt_of_le_of_lt u.2 hs))⟩
      | sign =>
        if sign == '*' || sign == '+' || sign == '?' || sign == '{' then
          let here ← tell rest
          match ← repeatSign sign here rest with
          | none => go (some (.point sign.toNat false)) all
          | some (least, greatest, r) =>
            match done with
            | [] => failAt (here - 1) .nothingToRepeat
            | item :: before =>
              if let some reason := repeatFault? item then failAt (here - 1) reason
              let (greed, q) ← repeatGreed r.1
              let node := Node.repeated least greatest greed [item]
              have hq : q.1.length < rest.length + 1 :=
                Nat.lt_succ_of_le (Nat.le_trans q.2 r.2)
              let (nodes, p) ← sequence q.1 verbose first (node :: before)
              return (nodes, ⟨p.1, Nat.le_trans p.2 (Nat.le_of_lt hq)⟩)
        else go (some (.point sign.toNat false)) all
termination_by (ts.length, 0)

end

/-! ## §8. Whole patterns. -/

mutual

/-- The first construct that can be read and not be matched: a look-behind without a fixed
width, or a repetition where repetition is switched off. -/
def Node.flaw? (widths : Nat → Widths) (flags : Flags) : Node → Option Reason
  | .point .. | .any | .set .. | .anchor _ | .reference _ => none
  | .condition _ yes no => (flaws? widths flags yes).or (flaws? widths flags no)
  | .choice alternatives => choiceFlaw? widths flags alternatives
  | .group _ _ _ body | .atomic body => flaws? widths flags body
  | .look ahead _ body =>
    let (least, greatest) := sequenceWidths widths body
    if !ahead && least != greatest then some .variableLookBehind else flaws? widths flags body
  | .repeated _ _ greed body =>
    if flags.template then some (.templateRepeat greed) else flaws? widths flags body

/-- The first flaw of a sequence. -/
def flaws? (widths : Nat → Widths) (flags : Flags) : List Node → Option Reason
  | [] => none
  | node :: rest => (node.flaw? widths flags).or (flaws? widths flags rest)

/-- The first flaw of a choice. -/
def choiceFlaw? (widths : Nat → Widths) (flags : Flags) : List (List Node) → Option Reason
  | [] => none
  | body :: rest => (flaws? widths flags body).or (choiceFlaw? widths flags rest)

end

end Pattern

/-- A pattern that is ready to be matched. -/
structure Pattern where
  body : List Pattern.Node
  flags : Pattern.Flags
  /-- The widths of its groups. -/
  widths : Array Pattern.Widths

namespace Pattern

/-- Reads a whole text as a pattern. -/
def readAll (ts : Source) : Read Pattern := do
  arrive ts
  let (body, r) ← choice ts false true []
  let g ← get
  if g.flags.ascii && g.flags.unicode then throw .exclusiveFlags
  unless r.1.isEmpty do fail r.1 .unbalanced 0
  for (group, position) in g.conditions do
    if g.widths.size ≤ group then failAt position (.noSuchGroup group)
  if let some reason := flaws? g.closedWidths g.flags body then throw (.invalid reason none)
  return ⟨body, g.flags, g.widths.map (·.getD (0, 0))⟩

/-- Reads a text as a pattern. -/
def read (text : String) : Except PatternError Pattern :=
  let (ts, broken) := tokenize 0 text.toList
  ((readAll ts).run ⟨text.length, broken⟩ |>.run {}).map (·.1)

end PromptForms.Pattern
