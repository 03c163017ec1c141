/-
  PromptForms.Number.Binary64
  ───────────────────────────
  **BINARY FLOATING POINT, EXACTLY.**

  The bounds of a field and the fractional numbers people submit are binary64
  numbers.  They are kept as what they denote, `± significand · 2 ^ exponent`, so
  every comparison and conversion below is integer arithmetic and can be reasoned
  about.  Rounding happens in one place only, `ofRatio`, which sends a quotient to
  the nearest representable number and a tie to the even neighbour.

      ofRatio        nearest binary64 number of a quotient
      ofInt?         nearest binary64 number of an integer, if it is in range
      ofDecimal      nearest binary64 number of digits times a power of ten
      lt             exact order; nothing is below or above a number that is no number
      truncate       the integer part
-/

namespace PromptForms

/-- A binary64 number: `± significand * 2 ^ exponent`, an infinity, or no number. -/
inductive Binary64 where
  | finite (negative : Bool) (significand : Nat) (exponent : Int)
  | infinite (negative : Bool)
  | nan
  deriving DecidableEq, Repr

namespace Binary64

/-! ## §1. Rounding. -/

/-- The natural number nearest to `num / den`; a half goes to the even neighbour. -/
def roundQuotient (num den : Nat) : Nat :=
  let whole := num / den
  let twice := 2 * (num % den)
  if twice < den then whole else if den < twice then whole + 1 else whole + whole % 2

/-- The least exponent of a binary64 number. -/
def minExponent : Int := -1074

/-- The greatest exponent of a finite binary64 number. -/
def maxExponent : Int := 971

/-- The zero of the given sign. -/
def zero (negative : Bool) : Binary64 := .finite negative 0 minExponent

/-- `num * 2 ^ (-exponent)` over `den * 2 ^ exponent`, whichever power is a natural one. -/
def scaleDown (num den : Nat) (exponent : Int) : Nat × Nat :=
  (num * Nat.pow 2 (-exponent).toNat, den * Nat.pow 2 exponent.toNat)

/-- The exponent at which `num / den` has a significand of 53 bits, and never below the least one. -/
def exponentOf (num den : Nat) : Int :=
  -- The logarithms leave one bit open, so the guess is right or one too great.
  let guess : Int := (num.log2 : Int) - (den.log2 : Int) - 52
  let (n, d) := scaleDown num den guess
  max (if n < 0x10000000000000 * d then guess - 1 else guess) minExponent

/-- The binary64 number nearest to `± num / den`; a tie goes to the even significand and
what lies beyond the greatest finite number is infinite. -/
def ofRatio (negative : Bool) (num den : Nat) : Binary64 :=
  if num = 0 then zero negative
  else
    let e := exponentOf num den
    let (n, d) := scaleDown num den e
    let m := roundQuotient n d
    -- Rounding up may reach the next power of two.
    let (m, e) := if m = 0x20000000000000 then (0x10000000000000, e + 1) else (m, e)
    if maxExponent < e then .infinite negative else .finite negative m e

/-! ## §2. Conversions. -/

/-- The binary64 number nearest to an integer; none if the integer is out of range. -/
def ofInt? (i : Int) : Option Binary64 :=
  match ofRatio (decide (i < 0)) i.natAbs 1 with
  | .infinite _ => none
  | x => some x

/-- The binary64 number nearest to `± digits * 10 ^ exponent`.  Digits that reach far beyond
the range are answered at once. -/
def ofDecimal (negative : Bool) (digits : Nat) (exponent : Int) : Binary64 :=
  if digits = 0 then zero negative
  else
    let magnitude : Int := exponent + (digits.log2 * 30103 / 100000 : Nat)
    if 400 < magnitude then .infinite negative
    else if magnitude < -400 then zero negative
    else ofRatio negative (digits * Nat.pow 10 exponent.toNat) (Nat.pow 10 (-exponent).toNat)

/-- A finite number as a quotient of natural numbers. -/
def ratio (significand : Nat) (exponent : Int) : Nat × Nat :=
  (significand * Nat.pow 2 exponent.toNat, Nat.pow 2 (-exponent).toNat)

/-- The integer part of a finite number; none for an infinity and for no number. -/
def truncate : Binary64 → Option Int
  | .finite negative m e =>
    let (n, d) := ratio m e
    some (if negative then -(n / d : Nat) else (n / d : Nat))
  | _ => none

/-- No fractional part is lost by `truncate`. -/
def isIntegral : Binary64 → Bool
  | .finite _ m e => let (n, d) := ratio m e; n % d == 0
  | _ => false

/-- Neither an infinity nor no number. -/
def isFinite : Binary64 → Bool
  | .finite .. => true
  | _ => false

/-- Neither of the two zeros. -/
def isNonzero : Binary64 → Bool
  | .finite _ m _ => m != 0
  | _ => true

/-- The rounded product of two numbers. -/
def mul : Binary64 → Binary64 → Binary64
  | .finite s m e, .finite t n f =>
    let (a, b) := ratio (m * n) (e + f)
    ofRatio (s != t) a b
  | .nan, _ | _, .nan => .nan
  | .infinite s, .infinite t => .infinite (s != t)
  | .infinite s, .finite t n _ => if n = 0 then .nan else .infinite (s != t)
  | .finite s m _, .infinite t => if m = 0 then .nan else .infinite (s != t)

/-- A number divided by a positive natural number, rounded once. -/
def divNat (x : Binary64) (n : Nat) : Binary64 :=
  match x with
  | .finite s m e => let (a, b) := ratio m e; ofRatio s a (b * n)
  | other => other

/-! ## §3. Order. -/

/-- `m * 2 ^ e < n * 2 ^ f`, compared exactly. -/
def scaledLt (m : Int) (e : Int) (n : Int) (f : Int) : Bool :=
  let low := min e f
  decide (m * Int.pow 2 (e - low).toNat < n * Int.pow 2 (f - low).toNat)

/-- The signed significand. -/
def signed (negative : Bool) (m : Nat) : Int := if negative then -(m : Int) else m

/-- The exact order.  Nothing compares with no number. -/
def lt : Binary64 → Binary64 → Bool
  | .nan, _ | _, .nan => false
  | .infinite s, .infinite t => s && !t
  | .infinite s, .finite .. => s
  | .finite .., .infinite t => !t
  | .finite s m e, .finite t n f => scaledLt (signed s m) e (signed t n) f

/-- Two numbers of one value; the zeros are equal and no number equals itself not. -/
def sameValue : Binary64 → Binary64 → Bool
  | .nan, _ | _, .nan => false
  | x, y => !lt x y && !lt y x

end Binary64

/-! ## §4. Integers beside binary64 numbers. -/

/-- A number as it is submitted: an integer of any size or a binary64 number. -/
inductive Number where
  | int (value : Int)
  | real (value : Binary64)
  deriving DecidableEq, Repr

namespace Number

/-- The exact order of integers and binary64 numbers together. -/
def lt : Number → Number → Bool
  | .int i, .int j => decide (i < j)
  | .real x, .real y => x.lt y
  | .int i, .real (.finite s m e) => Binary64.scaledLt i 0 (Binary64.signed s m) e
  | .int _, .real (.infinite s) => !s
  | .real (.finite s m e), .int j => Binary64.scaledLt (Binary64.signed s m) e j 0
  | .real (.infinite s), .int _ => s
  | .int _, .real .nan | .real .nan, .int _ => false

/-- An integer equals the binary64 number of the same value. -/
def sameValue : Number → Number → Bool
  | .int i, .int j => i == j
  | .real x, .real y => x.sameValue y
  | .int _, .real .nan | .real .nan, .int _ => false
  | x, y => !lt x y && !lt y x

end Number

end PromptForms
