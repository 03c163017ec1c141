/-
  PromptForms.Number.DecimalText
  ──────────────────────────────
  **DECIMAL TEXTS OF BINARY64 NUMBERS.**

  Two notations are written.  A stored number is written with the fewest digits that
  read back as the same number (`shortest`), a bound inside a message with at most
  six significant digits (`general`).  Both choose digits on a decimal grid first and
  lay them out afterwards, by one record of layout decisions each.

      shortestDigits   the fewest digits that read back, nearest to the number
      roundedDigits    the six-digit rounding, a tie to the even digit
      Layout.write     digits to text
-/
import PromptForms.Number.Binary64

namespace PromptForms.Binary64

/-! ## §1. The decimal grid. -/

/-- Does `10 ^ k` not exceed `num / den`? -/
def powerTenLe (k : Int) (num den : Nat) : Bool :=
  Nat.pow 10 k.toNat * den ≤ num * Nat.pow 10 (-k).toNat

/-- The exponent of the leading decimal digit of `num / den`. -/
def leadingExponent (num den : Nat) : Int :=
  let guess : Int := ((num.log2 : Int) - (den.log2 : Int)) * 30103 / 100000
  if powerTenLe (guess + 1) num den then guess + 1
  else if powerTenLe guess num den then guess
  else if powerTenLe (guess - 1) num den then guess - 1
  else guess - 2

/-- `num / den` in units of `10 ^ k`. -/
def inUnits (num den : Nat) (k : Int) : Nat × Nat :=
  (num * Nat.pow 10 (-k).toNat, den * Nat.pow 10 k.toNat)

/-- A coefficient and the power of ten it is multiplied with. -/
structure Decimal where
  coefficient : Nat
  exponent : Int
  deriving DecidableEq, Repr

/-- The point of the grid of `places` digits that reads back as the number and is nearest
to it, if one of the two neighbours does. -/
def onGrid? (significand : Nat) (exponent : Int) (places : Nat) : Option Decimal :=
  let (num, den) := ratio significand exponent
  let unit := leadingExponent num den - places + 1
  let (n, d) := inUnits num den unit
  let below := n / d
  let readsBack (c : Nat) : Bool := ofDecimal false c unit == .finite false significand exponent
  let nearer := roundQuotient n d
  let farther := if nearer = below then below + 1 else below
  if readsBack nearer then some ⟨nearer, unit⟩
  else if readsBack farther then some ⟨farther, unit⟩
  else none

/-- The fewest digits that read back; seventeen always do. -/
def shortestDigits (significand : Nat) (exponent : Int) : Decimal :=
  if significand = 0 then ⟨0, 0⟩
  else ((List.range' 1 17).findSome? (onGrid? significand exponent)).getD ⟨significand, exponent⟩

/-- The number rounded to `places` significant digits, a tie to the even digit. -/
def roundedDigits (places significand : Nat) (exponent : Int) : Decimal :=
  if significand = 0 then ⟨0, 0⟩
  else
    let (num, den) := ratio significand exponent
    let unit := leadingExponent num den - places + 1
    let (n, d) := inUnits num den unit
    ⟨roundQuotient n d, unit⟩

/-! ## §2. Layout. -/

/-- How digits become a text: the least and the greatest exponent of the leading digit that
are written positionally, and whether an integral number ends in `.0`. -/
structure Layout where
  least : Int
  greatest : Int
  pointZero : Bool

/-- Stored numbers: positional from 0.0001 up to below 10 ^ 16, always with a point. -/
def shortestLayout : Layout := ⟨-4, 15, true⟩

/-- Bounds in messages: positional from 0.0001 up to below 10 ^ 6, a point only if needed. -/
def generalLayout : Layout := ⟨-4, 5, false⟩

/-- The digits of a coefficient without its trailing zeros; zero has the digit 0. -/
def significantDigits (coefficient : Nat) : List Char :=
  match ((Nat.toDigits 10 coefficient).reverse.dropWhile (· == '0')).reverse with
  | [] => ['0']
  | digits => digits

/-- Writes the digits of a decimal without sign. -/
def Layout.write (layout : Layout) (x : Decimal) : List Char :=
  let digits := significantDigits x.coefficient
  let leading : Int :=
    if x.coefficient = 0 then 0 else x.exponent + (Nat.toDigits 10 x.coefficient).length - 1
  if layout.least ≤ leading && leading ≤ layout.greatest then
    if leading < 0 then
      '0' :: '.' :: List.replicate (-leading - 1).toNat '0' ++ digits
    else
      let whole := leading.toNat + 1
      let fraction := digits.drop whole
      digits.take whole ++ List.replicate (whole - digits.length) '0' ++
        (if fraction.isEmpty then (if layout.pointZero then ['.', '0'] else []) else '.' :: fraction)
  else
    let power := Nat.toDigits 10 leading.natAbs
    digits.take 1 ++ (if digits.length = 1 then [] else '.' :: digits.drop 1) ++
      'e' :: (if leading < 0 then '-' else '+') :: List.replicate (2 - power.length) '0' ++ power

/-- A text with its sign. -/
def withSign (negative : Bool) (text : List Char) : String :=
  String.ofList (if negative then '-' :: text else text)

/-! ## §3. The two notations. -/

/-- The fewest digits that read back: `1.0`, `0.1`, `1e+16`, `-0.0`, `inf`, `nan`. -/
def shortest : Binary64 → String
  | .finite s m e => withSign s (shortestLayout.write (shortestDigits m e))
  | .infinite s => withSign s "inf".toList
  | .nan => "nan"

/-- At most six significant digits: `5`, `0.1`, `1e+06`, `-0`, `inf`, `nan`. -/
def general : Binary64 → String
  | .finite s m e => withSign s (generalLayout.write (roundedDigits 6 m e))
  | .infinite s => withSign s "inf".toList
  | .nan => "nan"

end PromptForms.Binary64
