/-
  PromptForms.Email.Punycode
  ──────────────────────────
  **THE ASCII FORM OF A LABEL.**

  A label of a domain name with characters beyond ASCII travels as its ASCII
  characters followed by digits that say where the other ones go.  The digits are
  numbers in a mixed base that adapts to the numbers seen so far.

      encode      a label to its digits
      decode?     back again
-/

namespace PromptForms.Email.Punycode

/-! ## §1. The adaptive base. -/

/-- The number of digits. -/
def base : Nat := 36

/-- The smallest threshold. -/
def tMin : Nat := 1

/-- The greatest threshold. -/
def tMax : Nat := 26

/-- Divides by `base - tMin` while the number is large and counts the divisions. -/
def settle (delta count : Nat) : Nat × Nat :=
  if (base - tMin) * tMax / 2 < delta then settle (delta / (base - tMin)) (count + 1)
  else (delta, count)
termination_by delta
decreasing_by
  apply Nat.div_lt_self
  · simp only [base, tMin, tMax] at *; omega
  · simp [base, tMin]

/-- The bias after a number `delta` when `count` characters are placed. -/
def adapt (delta count : Nat) (first : Bool) : Nat :=
  let delta := if first then delta / 700 else delta / 2
  let (rest, steps) := settle (delta + delta / count) 0
  base * steps + (base - tMin + 1) * rest / (rest + 38)

/-- The threshold of the digit in place `k`, counted in steps of `base`. -/
def threshold (k bias : Nat) : Nat :=
  if k ≤ bias then tMin else if bias + tMax ≤ k then tMax else k - bias

/-- The digit of a value. -/
def digit (v : Nat) : Char :=
  if v < 26 then Char.ofNat (v + 'a'.toNat) else Char.ofNat (v - 26 + '0'.toNat)

/-- The value of a digit. -/
def digitValue? (c : Char) : Option Nat :=
  if c.isDigit then some (c.toNat - '0'.toNat + 26)
  else if 'a' ≤ c && c ≤ 'z' then some (c.toNat - 'a'.toNat)
  else if 'A' ≤ c && c ≤ 'Z' then some (c.toNat - 'A'.toNat)
  else none

/-! ## §2. Encoding. -/

/-- The digits of a number. -/
def number (q k bias : Nat) : List Char :=
  let t := threshold k bias
  if q < t then [digit q]
  else digit (t + (q - t) % (base - t)) :: number ((q - t) / (base - t)) (k + base) bias
termination_by q
decreasing_by
  have ht : 1 ≤ threshold k bias ∧ threshold k bias ≤ 26 := by
    unfold threshold tMin tMax
    split
    · omega
    · split <;> omega
  have : q - threshold k bias < q := by omega
  exact Nat.lt_of_le_of_lt (Nat.div_le_self _ _) this

/-- What encoding keeps: the number of the next placement, the bias and the characters placed. -/
structure Progress where
  delta : Nat
  bias : Nat
  placed : Nat

/-- Goes through the label once for the code point `point`. -/
def round (point basic : Nat) : List Nat → Progress → List Char × Progress
  | [], p => ([], p)
  | c :: rest, p =>
    if c < point then round point basic rest { p with delta := p.delta + 1 }
    else if c = point then
      let digits := number p.delta base p.bias
      let (more, q) := round point basic rest
        ⟨0, adapt p.delta (p.placed + 1) (p.placed == basic), p.placed + 1⟩
      (digits ++ more, q)
    else round point basic rest p

/-- Places the code points beyond ASCII in ascending order, `last` being the one before. -/
def rounds (label : List Nat) (basic : Nat) : (points : List Nat) → (last : Nat) → Progress → List Char
  | [], _, _ => []
  | point :: rest, last, p =>
    let (digits, q) := round point basic label
      { p with delta := p.delta + (point - last) * (p.placed + 1) }
    digits ++ rounds label basic rest (point + 1) { q with delta := q.delta + 1 }

/-- The encoded form of a label. -/
def encode (label : List Char) : List Char :=
  let codes := label.map Char.toNat
  let basic := label.filter (·.toNat < 0x80)
  let points := ((codes.filter (0x80 ≤ ·)).eraseDups).mergeSort
  (if basic.isEmpty then [] else basic ++ ['-']) ++
    rounds codes basic.length points 0x80 ⟨0, 72, basic.length⟩

/-! ## §3. Decoding. -/

/-- Reads one number: the sum of the digits with their weights, and what is left. -/
def readNumber? (bias : Nat) : (k weight sum : Nat) → List Char → Option (Nat × List Char)
  | _, _, _, [] => none
  | k, weight, sum, c :: rest => do
    let v ← digitValue? c
    let t := threshold k bias
    let sum := sum + v * weight
    if v < t then some (sum, rest)
    else readNumber? bias (k + base) (weight * (base - t)) sum rest

/-- The label of an encoded form. -/
def decode? (text : List Char) : Option (List Char) :=
  let tail := (text.reverse.takeWhile (· != '-')).reverse
  let basic := text.take (text.length - tail.length - 1)
  let first := basic.length
  (go first tail basic)
where
  /-- Places the characters after the ASCII ones; the first placement adapts the bias faster. -/
  go (first : Nat) (digits label : List Char) : Option (List Char) :=
    match digits with
    | [] => some label
    | _ => do
      let (sum, rest) ← readNumber? 72 base 1 0 digits
      let size := first + 1
      let code := 0x80 + sum / size
      let here := sum % size
      if 0x10FFFF < code || (0xD800 ≤ code && code ≤ 0xDFFF) then none
      else
        next rest.length rest code (here + 1) (adapt sum size true)
          (label.take here ++ Char.ofNat code :: label.drop here)
  /-- Places further characters; `count` bounds their number. -/
  next : (count : Nat) → (digits : List Char) → (point i bias : Nat) → (label : List Char) →
      Option (List Char)
    | _, [], _, _, _, label => some label
    | 0, _ :: _, _, _, _, _ => none
    | count + 1, digits, point, i, bias, label => do
      let (sum, rest) ← readNumber? bias base 1 0 digits
      let size := label.length + 1
      let total := i + sum
      let code := point + total / size
      let here := total % size
      if 0x10FFFF < code || (0xD800 ≤ code && code ≤ 0xDFFF) then none
      else
        next count rest code (here + 1) (adapt sum size false)
          (label.take here ++ Char.ofNat code :: label.drop here)

end PromptForms.Email.Punycode
