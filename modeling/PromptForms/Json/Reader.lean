/-
  PromptForms.Json.Reader
  ───────────────────────
  **READING JSON TEXTS.**

  A text is read from left to right; the first fault ends the reading and is reported
  with its position, counted in characters.  Besides the standard grammar the
  constants `NaN`, `Infinity` and `-Infinity` are numbers.  A name that occurs twice
  in an object keeps the place of its first and the value of its last occurrence.

  Every reading step answers what is left of the text together with the proof that
  it is shorter, so the readers below end without a bound on their depth.

      Json.read       a whole text
-/
import PromptForms.Json.Basic
import PromptForms.Number.Numeral

namespace PromptForms.Json

/-! ## §1. Faults and rests. -/

/-- Why a text is no JSON value. -/
inductive ReadError where
  /-- The grammar is violated at this position. -/
  | malformed (position : Nat)
  /-- An integer has more digits than a numeral may have. -/
  | hugeInteger
  deriving DecidableEq, Repr

/-- A fault while characters are left: the number of characters that were left. -/
inductive Stuck where
  | at (left : Nat)
  | hugeInteger

/-- What is left of `s` after at least one character. -/
abbrev Shorter (s : List Char) := { r : List Char // r.length < s.length }

/-- What is left of `s`, perhaps all of it. -/
abbrev NotLonger (s : List Char) := { r : List Char // r.length ≤ s.length }

/-- The blanks between tokens. -/
def isSpace (c : Char) : Bool := c == ' ' || c == '\t' || c == '\n' || c == '\r'

/-- Skips blanks. -/
def skipSpace (s : List Char) : NotLonger s :=
  ⟨s.dropWhile isSpace, (List.dropWhile_suffix isSpace).length_le⟩

/-- A rest of a rest. -/
def Shorter.after {s : List Char} (r : Shorter s) (t : NotLonger r.1) : Shorter s :=
  ⟨t.1, Nat.lt_of_le_of_lt t.2 r.2⟩

/-- What follows the first character of a rest is shorter still. -/
theorem Shorter.tail_lt {s r : List Char} (h : r.length < s.length) {c : Char} {tail : List Char}
    (hr : r = c :: tail) : tail.length < s.length := by
  rw [hr, List.length_cons] at h
  omega

/-- What follows a word is shorter than the text that starts with it. -/
theorem Shorter.length_lt_append (c : Char) (word rest : List Char) :
    rest.length < (c :: word ++ rest).length := by
  rw [List.length_append, List.length_cons]
  omega

/-- What follows a number with at least one digit is shorter than the text. -/
theorem Shorter.length_drop_lt {s : List Char} (hs : ¬s.length = 0) {sign whole pointed power : Nat}
    (hw : ¬whole = 0) : (s.drop (sign + whole + pointed + power)).length < s.length := by
  rw [List.length_drop]
  omega

/-! ## §2. Texts. -/

/-- The value of four hexadecimal digits. -/
def hex4? (a b c d : Char) : Option Nat :=
  [a, b, c, d].foldlM (fun n x => (digit? x).map (n * 16 + ·)) 0
where
  /-- The value of one hexadecimal digit of either case. -/
  digit? (x : Char) : Option Nat :=
    if x.isDigit then some (x.toNat - '0'.toNat)
    else if 'a' ≤ x && x ≤ 'f' then some (x.toNat - 'a'.toNat + 10)
    else if 'A' ≤ x && x ≤ 'F' then some (x.toNat - 'A'.toNat + 10)
    else none

/-- The character that a short escape stands for. -/
def shortEscape? : Char → Option Char
  | '"' => some '"'
  | '\\' => some '\\'
  | '/' => some '/'
  | 'b' => some '\x08'
  | 'f' => some '\x0c'
  | 'n' => some '\n'
  | 'r' => some '\r'
  | 't' => some '\t'
  | _ => none

/-- The units that open and close a surrogate pair. -/
def isHigh (u : Nat) : Bool := 0xD800 ≤ u && u ≤ 0xDBFF

/-- The second unit of a surrogate pair. -/
def isLow (u : Nat) : Bool := 0xDC00 ≤ u && u ≤ 0xDFFF

/-- The character of one unit; a unit of a broken pair has none and becomes U+FFFD. -/
def unitChar (u : Nat) : Char :=
  if isHigh u || isLow u then '\uFFFD' else Char.ofNat u

/-- Reads the rest of a text after its opening quote; `left` characters were left before the
quote. -/
def text (left : Nat) : (s : List Char) → (done : List Char) → Except Stuck (String × Shorter s)
  | [], _ => .error (.at left)
  | '"' :: rest, done => .ok (String.ofList done.reverse, ⟨rest, by simp⟩)
  | '\\' :: 'u' :: a :: b :: c :: d :: '\\' :: 'u' :: e :: f :: g :: h :: i :: rest, done =>
    match hex4? a b c d with
    | none => .error (.at (rest.length + 12))
    | some high =>
      if isHigh high then
        match hex4? e f g h with
        | none => .error (.at (rest.length + 6))
        | some low =>
          if isLow low then
            (text left (i :: rest)
              (Char.ofNat (0x10000 + (high - 0xD800) * 0x400 + (low - 0xDC00)) :: done)).map
              fun (t, r) => (t, ⟨r.1, Nat.lt_trans r.2 (by simp)⟩)
          else
            (text left ('\\' :: 'u' :: e :: f :: g :: h :: i :: rest) (unitChar high :: done)).map
              fun (t, r) => (t, ⟨r.1, Nat.lt_trans r.2 (by simp)⟩)
      else
        (text left ('\\' :: 'u' :: e :: f :: g :: h :: i :: rest) (unitChar high :: done)).map
          fun (t, r) => (t, ⟨r.1, Nat.lt_trans r.2 (by simp)⟩)
  | '\\' :: 'u' :: a :: b :: c :: d :: e :: rest, done =>
    match hex4? a b c d with
    | none => .error (.at (rest.length + 6))
    | some u =>
      (text left (e :: rest) (unitChar u :: done)).map
        fun (t, r) => (t, ⟨r.1, Nat.lt_trans r.2 (by simp)⟩)
  | '\\' :: 'u' :: rest, _ => .error (.at (rest.length + 1))
  | ['\\'], _ => .error (.at left)
  | '\\' :: c :: rest, done =>
    match shortEscape? c with
    | none => .error (.at (rest.length + 2))
    | some x =>
      (text left rest (x :: done)).map fun (t, r) => (t, ⟨r.1, Nat.lt_trans r.2 (by simp only [List.length_cons]; omega)⟩)
  | c :: rest, done =>
    if c.toNat ≤ 0x1F then .error (.at (rest.length + 1))
    else
      (text left rest (c :: done)).map fun (t, r) => (t, ⟨r.1, Nat.lt_trans r.2 (by simp)⟩)

/-! ## §3. Numbers and constants. -/

/-- The digits of an integer part: a zero alone, or digits that start with another one. -/
def integerPart : List Char → List Char
  | '0' :: _ => ['0']
  | s => s.takeWhile Char.isDigit

/-- The digits after a point, if there is at least one. -/
def fractionPart : List Char → List Char
  | '.' :: rest => rest.takeWhile Char.isDigit
  | _ => []

/-- The characters of an exponent with at least one digit. -/
def exponentPart : List Char → List Char
  | c :: rest =>
    if c == 'e' || c == 'E' then
      match rest with
      | sign :: after =>
        if sign == '+' || sign == '-' then
          let digits := after.takeWhile Char.isDigit
          if digits.isEmpty then [] else c :: sign :: digits
        else
          let digits := rest.takeWhile Char.isDigit
          if digits.isEmpty then [] else c :: digits
      | [] => []
    else []
  | [] => []

/-- Reads a number or a constant word at the start of a text. -/
def scalar (s : List Char) : Except Stuck (Json × Shorter s) :=
  match s with
  | 'n' :: 'u' :: 'l' :: 'l' :: rest =>
    .ok (.null, ⟨rest, Shorter.length_lt_append 'n' ['u', 'l', 'l'] rest⟩)
  | 't' :: 'r' :: 'u' :: 'e' :: rest =>
    .ok (.bool true, ⟨rest, Shorter.length_lt_append 't' ['r', 'u', 'e'] rest⟩)
  | 'f' :: 'a' :: 'l' :: 's' :: 'e' :: rest =>
    .ok (.bool false, ⟨rest, Shorter.length_lt_append 'f' ['a', 'l', 's', 'e'] rest⟩)
  | 'N' :: 'a' :: 'N' :: rest =>
    .ok (.real .nan, ⟨rest, Shorter.length_lt_append 'N' ['a', 'N'] rest⟩)
  | 'I' :: 'n' :: 'f' :: 'i' :: 'n' :: 'i' :: 't' :: 'y' :: rest =>
    .ok (.real (.infinite false), 
      ⟨rest, Shorter.length_lt_append 'I' ['n', 'f', 'i', 'n', 'i', 't', 'y'] rest⟩)
  | '-' :: 'I' :: 'n' :: 'f' :: 'i' :: 'n' :: 'i' :: 't' :: 'y' :: rest =>
    .ok (.real (.infinite true), 
      ⟨rest, Shorter.length_lt_append '-' ['I', 'n', 'f', 'i', 'n', 'i', 't', 'y'] rest⟩)
  | s =>
    let (negative, body) := match s with
      | '-' :: rest => (true, rest)
      | _ => (false, s)
    let whole := integerPart body
    if hw : whole.length = 0 then .error (.at s.length)
    else
      let fraction := fractionPart (body.drop whole.length)
      let pointed := if fraction.isEmpty then 0 else fraction.length + 1
      let power := exponentPart (body.drop (whole.length + pointed))
      let size := (if negative then 1 else 0) + whole.length + pointed + power.length
      if hs : s.length = 0 then .error (.at 0)
      else
        let rest : Shorter s := ⟨s.drop size, Shorter.length_drop_lt hs hw⟩
        if pointed + power.length = 0 then
          if Numeral.maxDigits < whole.length then .error .hugeInteger
          else
            let n : Int := Numeral.digitsValue whole
            .ok (.int (if negative then -n else n), rest)
        else
          let exponent := (Numeral.readExponent? power).getD 0
          let x := Binary64.ofDecimal negative (Numeral.digitsValue (whole ++ fraction))
            (exponent - fraction.length)
          .ok (.real x, rest)

/-! ## §4. Values. -/

mutual

/-- Reads the value that the text starts with. -/
def value (s : List Char) : Except Stuck (Json × Shorter s) :=
  match s with
  | [] => .error (.at 0)
  | '"' :: rest =>
    (text (rest.length + 1) rest []).map fun (t, r) => (.str t, ⟨r.1, Nat.lt_succ_of_lt r.2⟩)
  | '[' :: rest =>
    let inner := skipSpace rest
    have hinner : (skipSpace rest).1.length < rest.length + 1 := Nat.lt_succ_of_le inner.2
    match hi : inner.1 with
    | ']' :: after => .ok (.arr [], ⟨after, Shorter.tail_lt hinner hi⟩)
    | _ => (items inner.1 []).map fun (list, r) => (.arr list, ⟨r.1, Nat.lt_trans r.2 hinner⟩)
  | '{' :: rest =>
    let inner := skipSpace rest
    have hinner : (skipSpace rest).1.length < rest.length + 1 := Nat.lt_succ_of_le inner.2
    match hi : inner.1 with
    | '}' :: after => .ok (.obj [], ⟨after, Shorter.tail_lt hinner hi⟩)
    | _ => (members inner.1 []).map fun (pairs, r) =>
      (.obj (Dictionary.ofPairs pairs), ⟨r.1, Nat.lt_trans r.2 hinner⟩)
  | s => scalar s
termination_by 2 * s.length
decreasing_by all_goals (rw [List.length_cons]; omega)

/-- Reads the items of a list up to its closing bracket. -/
def items (s : List Char) (done : List Json) : Except Stuck (List Json × Shorter s) :=
  match value s with
  | .error e => .error e
  | .ok (item, r) =>
    let r' := r.after (skipSpace r.1)
    match h : r'.1 with
    | ']' :: rest => .ok ((item :: done).reverse, ⟨rest, Shorter.tail_lt r'.2 h⟩)
    | ',' :: rest =>
      let next := skipSpace rest
      have hnext : (skipSpace rest).1.length < s.length :=
        Nat.lt_of_le_of_lt next.2 (Shorter.tail_lt r'.2 h)
      (items next.1 (item :: done)).map fun (list, t) => (list, ⟨t.1, Nat.lt_trans t.2 hnext⟩)
    | other => .error (.at other.length)
termination_by 2 * s.length + 1
decreasing_by all_goals omega

/-- Reads the members of an object up to its closing brace. -/
def members (s : List Char) (done : List (String × Json)) :
    Except Stuck (List (String × Json) × Shorter s) :=
  match s with
  | '"' :: rest =>
    match text (rest.length + 1) rest [] with
    | .error e => .error e
    | .ok (name, r) =>
      let r' := r.after (skipSpace r.1)
      match h : r'.1 with
      | ':' :: after =>
        let start := skipSpace after
        have hstart : (skipSpace after).1.length < rest.length + 1 :=
          Nat.lt_succ_of_lt (Nat.lt_of_le_of_lt start.2 (Shorter.tail_lt r'.2 h))
        match value start.1 with
        | .error e => .error e
        | .ok (item, v) =>
          let v' := v.after (skipSpace v.1)
          match hv : v'.1 with
          | '}' :: left =>
            .ok (((name, item) :: done).reverse,
              ⟨left, Nat.lt_trans (Shorter.tail_lt v'.2 hv) hstart⟩)
          | ',' :: left =>
            let next := skipSpace left
            have hnext : (skipSpace left).1.length < rest.length + 1 :=
              Nat.lt_trans (Nat.lt_of_le_of_lt next.2 (Shorter.tail_lt v'.2 hv)) hstart
            (members next.1 ((name, item) :: done)).map fun (list, t) =>
              (list, ⟨t.1, Nat.lt_trans t.2 hnext⟩)
          | other => .error (.at other.length)
      | other => .error (.at other.length)
  | s => .error (.at s.length)
termination_by 2 * s.length + 1
decreasing_by all_goals (rw [List.length_cons]; omega)

end

/-- Reads a whole text: one value with blanks around it. -/
def read (source : String) : Except ReadError Json :=
  let s := source.toList
  let report : Stuck → ReadError
    | .at left => .malformed (s.length - left)
    | .hugeInteger => .hugeInteger
  match value (skipSpace s).1 with
  | .error e => .error (report e)
  | .ok (v, r) =>
    let left := (skipSpace r.1).1
    if left.isEmpty then .ok v else .error (report (.at left.length))

end PromptForms.Json
