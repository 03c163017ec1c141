/-
  PromptForms.Proofs.Rounding
  ───────────────────────────
  **ROUNDING TO THE NEAREST NUMBER.**

  A quotient is rounded at the exponent at which it has 53 bits, which is a matter of its
  value alone.  What is closer to a binary64 number than half a unit of the seventeenth
  decimal digit is rounded to it, also where the units change.

      Canonical       the significands and exponents that numbers have
      quotient        the value of a pair of natural numbers

  Main results:
    • sound_ofRatio       rounding gives nothing but numbers of the format
    • ofRatio_congr       rounding looks at the value only
    • ofRatio_of_near     what is close to a number is rounded to it
-/
import Mathlib.Algebra.Order.Field.Power
import Mathlib.Data.Int.Log
import Mathlib.Data.Rat.Floor
import Mathlib.Tactic.FieldSimp
import Mathlib.Tactic.Linarith
import Mathlib.Tactic.Positivity
import Mathlib.Tactic.Ring
import PromptForms.Number.DecimalText

namespace PromptForms.Binary64

/-! ## §1. Values. -/

/-- The significands and exponents of numbers: 53 bits, fewer only at the least exponent. -/
structure Canonical (m : Nat) (e : Int) : Prop where
  small : m < 2 ^ 53
  full : 2 ^ 52 ≤ m ∨ e = minExponent
  least : minExponent ≤ e
  greatest : e ≤ maxExponent

/-- A number of the format. -/
def Sound : Binary64 → Prop
  | .finite _ m e => Canonical m e
  | .infinite _ => True
  | .nan => True

/-- The value of a pair of natural numbers. -/
def quotient (pair : Nat × Nat) : ℚ := pair.1 / pair.2

/-- A power with a natural exponent in front and one behind. -/
theorem pow_toNat_div_pow_toNat {b : ℚ} (hb : b ≠ 0) (k : Int) :
    b ^ k.toNat / b ^ (-k).toNat = b ^ k := by
  rw [← zpow_natCast, ← zpow_natCast, ← zpow_sub₀ hb, Int.toNat_sub_toNat_neg]

theorem quotient_scaleDown (num den : Nat) (e : Int) :
    quotient (scaleDown num den e) = num / den / 2 ^ e := by
  have h := pow_toNat_div_pow_toNat (two_ne_zero (α := ℚ)) e
  have hup : (2 : ℚ) ^ e.toNat ≠ 0 := by positivity
  have hdown : (2 : ℚ) ^ (-e).toNat ≠ 0 := by positivity
  rw [← h]
  simp only [quotient, scaleDown, Nat.pow_eq, Nat.cast_mul, Nat.cast_pow, Nat.cast_ofNat]
  field_simp

theorem quotient_ratio (m : Nat) (e : Int) : quotient (ratio m e) = m * 2 ^ e := by
  rw [← pow_toNat_div_pow_toNat (two_ne_zero (α := ℚ)) e]
  simp only [quotient, ratio, Nat.pow_eq, Nat.cast_mul, Nat.cast_pow, Nat.cast_ofNat]
  ring

theorem scaleDown_pos {num den : Nat} (hden : 0 < den) (e : Int) : 0 < (scaleDown num den e).2 :=
  Nat.mul_pos hden (Nat.pow_pos (by decide))

/-! ## §2. Quotients to natural numbers. -/

theorem roundQuotient_near (num : Nat) {den : Nat} (hden : 0 < den) :
    |(roundQuotient num den : ℚ) - num / den| ≤ 1 / 2 := by
  have hd : (0 : ℚ) < den := by exact_mod_cast hden
  have split : (num : ℚ) = den * (num / den : Nat) + (num % den : Nat) := by
    exact_mod_cast (Nat.div_add_mod num den).symm
  have away (r : Nat) : (r : ℚ) - num / den = ((r : ℚ) * den - num) / den := by
    field_simp
  have below (h : 2 * (num % den) ≤ den) : |((num / den : Nat) : ℚ) - num / den| ≤ 1 / 2 := by
    have h' : 2 * ((num % den : Nat) : ℚ) ≤ den := by exact_mod_cast h
    rw [away, abs_div, abs_of_pos hd, div_le_iff₀ hd, abs_le]
    constructor <;> nlinarith [Nat.cast_nonneg (α := ℚ) (num % den)]
  have above (h : den ≤ 2 * (num % den)) : |((num / den + 1 : Nat) : ℚ) - num / den| ≤ 1 / 2 := by
    have h' : (den : ℚ) ≤ 2 * ((num % den : Nat) : ℚ) := by exact_mod_cast h
    have hlt : ((num % den : Nat) : ℚ) < den := by exact_mod_cast Nat.mod_lt num hden
    rw [away, abs_div, abs_of_pos hd, div_le_iff₀ hd, abs_le]
    push_cast
    constructor <;> nlinarith
  unfold roundQuotient
  dsimp only
  split
  · exact below (by omega)
  · split
    · exact above (by omega)
    · rcases Nat.mod_two_eq_zero_or_one (num / den) with heven | hodd
      · rw [heven]
        exact below (by omega)
      · rw [hodd]
        exact above (by omega)

/-- Natural numbers less than a whole apart are the same. -/
theorem eq_of_near {m n : Nat} {x : ℚ} (hm : |(m : ℚ) - x| ≤ 1 / 2) (hn : |(n : ℚ) - x| < 1 / 2) :
    m = n := by
  rw [abs_le] at hm
  rw [abs_lt] at hn
  have hlow : (m : ℚ) < (n + 1 : Nat) := by
    push_cast
    linarith
  have hhigh : (n : ℚ) < (m + 1 : Nat) := by
    push_cast
    linarith
  have hlow' : m < n + 1 := by exact_mod_cast hlow
  have hhigh' : n < m + 1 := by exact_mod_cast hhigh
  omega

/-- A half is the same half whatever the quotient is written with. -/
theorem roundQuotient_mul (num den : Nat) {factor : Nat} (hfactor : 0 < factor) :
    roundQuotient (factor * num) (factor * den) = roundQuotient num den := by
  unfold roundQuotient
  dsimp only
  rw [Nat.mul_div_mul_left _ _ hfactor, Nat.mul_mod_mul_left, Nat.mul_left_comm 2]
  simp only [Nat.mul_lt_mul_left hfactor]

theorem roundQuotient_congr {num den num' den' : Nat} (hden : 0 < den) (hden' : 0 < den')
    (h : num * den' = num' * den) : roundQuotient num den = roundQuotient num' den' := by
  rw [← roundQuotient_mul num den hden', ← roundQuotient_mul num' den' hden, Nat.mul_comm den' num,
    h, Nat.mul_comm num' den, Nat.mul_comm den' den]

/-- Pairs of one value. -/
theorem mul_eq_mul_of_quotient {num den num' den' : Nat} (hden : 0 < den) (hden' : 0 < den')
    (h : (num / den : ℚ) = num' / den') : num * den' = num' * den := by
  have hd : (den : ℚ) ≠ 0 := by exact_mod_cast hden.ne'
  have hd' : (den' : ℚ) ≠ 0 := by exact_mod_cast hden'.ne'
  exact_mod_cast (div_eq_div_iff hd hd').1 h

/-! ## §3. Exponents. -/

theorem one_lt_two : 1 < 2 := by decide

theorem two_pow_mul_zpow (k : Nat) (e : Int) :
    (2 : ℚ) ^ k * 2 ^ e = (2 : Nat) ^ ((k : Int) + e) := by
  rw [Nat.cast_ofNat, zpow_add₀ two_ne_zero, zpow_natCast]

/-- The binary logarithms of its parts leave a quotient two powers of two to lie between. -/
theorem quotient_between {num den : Nat} (hnum : 0 < num) (hden : 0 < den) :
    (2 : ℚ) ^ ((num.log2 : Int) - den.log2 - 1) ≤ num / den ∧
      (num / den : ℚ) < 2 ^ ((num.log2 : Int) - den.log2 + 1) := by
  have hd : (0 : ℚ) < den := by exact_mod_cast hden
  have num_ge : (2 : ℚ) ^ num.log2 ≤ num := by exact_mod_cast Nat.log2_self_le hnum.ne'
  have num_lt : (num : ℚ) < 2 ^ (num.log2 + 1) := by exact_mod_cast Nat.lt_log2_self (n := num)
  have den_ge : (2 : ℚ) ^ den.log2 ≤ den := by exact_mod_cast Nat.log2_self_le hden.ne'
  have den_lt : (den : ℚ) < 2 ^ (den.log2 + 1) := by exact_mod_cast Nat.lt_log2_self (n := den)
  constructor
  · rw [le_div_iff₀ hd]
    calc (2 : ℚ) ^ ((num.log2 : Int) - den.log2 - 1) * den
        ≤ 2 ^ ((num.log2 : Int) - den.log2 - 1) * 2 ^ (den.log2 + 1) := by gcongr
      _ = 2 ^ num.log2 := by
        rw [← zpow_natCast, ← zpow_natCast, ← zpow_add₀ two_ne_zero]
        congr 1
        push_cast
        ring
      _ ≤ num := num_ge
  · rw [div_lt_iff₀ hd]
    calc (num : ℚ) < 2 ^ (num.log2 + 1) := num_lt
      _ = 2 ^ ((num.log2 : Int) - den.log2 + 1) * 2 ^ den.log2 := by
        rw [← zpow_natCast, ← zpow_natCast, ← zpow_add₀ two_ne_zero]
        congr 1
        push_cast
        ring
      _ ≤ 2 ^ ((num.log2 : Int) - den.log2 + 1) * den := by gcongr

theorem quotient_pos {num den : Nat} (hnum : 0 < num) (hden : 0 < den) : (0 : ℚ) < num / den :=
  div_pos (by exact_mod_cast hnum) (by exact_mod_cast hden)

/-- The comparison of a scaled quotient with a power of two. -/
theorem scaleDown_lt_iff (num : Nat) {den : Nat} (hden : 0 < den) (e : Int) (k : Nat) :
    (scaleDown num den e).1 < 2 ^ k * (scaleDown num den e).2 ↔
      (num / den : ℚ) < (2 : Nat) ^ ((k : Int) + e) := by
  have hunit : (0 : ℚ) < 2 ^ e := by positivity
  have hd : (0 : ℚ) < (scaleDown num den e).2 := by exact_mod_cast scaleDown_pos hden e
  rw [← two_pow_mul_zpow, ← div_lt_iff₀ hunit, ← quotient_scaleDown, quotient, div_lt_iff₀ hd]
  exact_mod_cast Iff.rfl

/-- The exponent of a quotient is a matter of the binary logarithm of its value. -/
theorem exponentOf_eq {num den : Nat} (hnum : 0 < num) (hden : 0 < den) :
    exponentOf num den = max (Int.log 2 (num / den : ℚ) - 52) minExponent := by
  have hpos := quotient_pos hnum hden
  -- The logarithm is the difference of the logarithms or one less.
  obtain ⟨lower, upper⟩ := quotient_between hnum hden
  have below_upper := (Int.lt_zpow_iff_log_lt one_lt_two hpos).1 (by rwa [Nat.cast_ofNat])
  have above_lower := (Int.zpow_le_iff_le_log one_lt_two hpos).1 (by rwa [Nat.cast_ofNat])
  -- The comparison decides which of the two it is.
  have decides := scaleDown_lt_iff num hden ((num.log2 : Int) - den.log2 - 52) 52
  rw [Int.lt_zpow_iff_log_lt one_lt_two hpos, show (2 : Nat) ^ 52 = 0x10000000000000 from rfl]
    at decides
  unfold exponentOf
  dsimp only
  by_cases hless : Int.log 2 (num / den : ℚ) < (num.log2 : Int) - den.log2
  · rw [if_pos (decides.2 (by omega))]
    congr 1
    omega
  · rw [if_neg (fun h => hless (by have := decides.1 h; omega))]
    congr 1
    omega

/-! ## §4. Rounding. -/

section

variable {num den : Nat}

theorem minExponent_le (hnum : 0 < num) (hden : 0 < den) : minExponent ≤ exponentOf num den := by
  rw [exponentOf_eq hnum hden]
  exact le_max_right _ _

/-- At its exponent a quotient has at most 53 bits, and no fewer unless the exponent is the
least. -/
theorem scaled_bounds (hnum : 0 < num) (hden : 0 < den) :
    (num / den : ℚ) < 2 ^ 53 * 2 ^ exponentOf num den ∧
      ((2 : ℚ) ^ 52 * 2 ^ exponentOf num den ≤ num / den ∨ exponentOf num den = minExponent) := by
  have hexponent := exponentOf_eq hnum hden
  rw [two_pow_mul_zpow, two_pow_mul_zpow,
    Int.lt_zpow_iff_log_lt one_lt_two (quotient_pos hnum hden),
    Int.zpow_le_iff_le_log one_lt_two (quotient_pos hnum hden)]
  omega

/-- There is one such exponent only. -/
theorem exponentOf_eq_of_bounds (hnum : 0 < num) (hden : 0 < den) {e : Int}
    (hleast : minExponent ≤ e) (hupper : (num / den : ℚ) < 2 ^ 53 * 2 ^ e)
    (hlower : (2 : ℚ) ^ 52 * 2 ^ e ≤ num / den ∨ e = minExponent) : exponentOf num den = e := by
  have hexponent := exponentOf_eq hnum hden
  rw [two_pow_mul_zpow, Int.lt_zpow_iff_log_lt one_lt_two (quotient_pos hnum hden)] at hupper
  rw [two_pow_mul_zpow, Int.zpow_le_iff_le_log one_lt_two (quotient_pos hnum hden)] at hlower
  omega

/-- The significand at the exponent of a quotient. -/
def significandOf (num den : Nat) : Nat :=
  roundQuotient (scaleDown num den (exponentOf num den)).1 (scaleDown num den (exponentOf num den)).2

theorem significandOf_near (num : Nat) (hden : 0 < den) :
    |(significandOf num den : ℚ) - num / den / 2 ^ exponentOf num den| ≤ 1 / 2 := by
  rw [← quotient_scaleDown]
  exact roundQuotient_near _ (scaleDown_pos hden _)

/-- What lies less than half a unit away is the significand. -/
theorem significandOf_eq (hden : 0 < den) {m : Nat} {x : ℚ}
    (hx : (num / den : ℚ) = x * 2 ^ exponentOf num den) (hm : |(m : ℚ) - x| < 1 / 2) :
    significandOf num den = m := by
  have hunit : (2 : ℚ) ^ exponentOf num den ≠ 0 := by positivity
  have hround := significandOf_near num hden
  rw [hx, mul_div_cancel_right₀ _ hunit] at hround
  exact eq_of_near hround hm

theorem ofRatio_zero (negative : Bool) (den : Nat) : ofRatio negative 0 den = zero negative :=
  if_pos rfl

theorem ofRatio_eq (negative : Bool) (hnum : 0 < num) :
    ofRatio negative num den =
      let m := significandOf num den
      let e := exponentOf num den
      if m = 2 ^ 53 then
        if maxExponent < e + 1 then .infinite negative else .finite negative (2 ^ 52) (e + 1)
      else if maxExponent < e then .infinite negative else .finite negative m e := by
  unfold ofRatio significandOf
  rw [if_neg hnum.ne']
  dsimp only
  generalize roundQuotient _ _ = m
  by_cases hcarry : m = 0x20000000000000
  · simp only [hcarry, Nat.reducePow, if_true]
  · simp only [hcarry, Nat.reducePow, if_false]

theorem canonical_zero : Canonical 0 minExponent :=
  ⟨by decide, .inr rfl, le_refl _, by decide⟩

/-- Rounding gives nothing but numbers of the format. -/
theorem sound_ofRatio (negative : Bool) (num : Nat) (hden : 0 < den) :
    (ofRatio negative num den).Sound := by
  rcases Nat.eq_zero_or_pos num with hzero | hnum
  · rw [hzero, ofRatio_zero]
    exact canonical_zero
  obtain ⟨hsmall, hfull⟩ := scaled_bounds hnum hden
  have hunit : (0 : ℚ) < 2 ^ exponentOf num den := by positivity
  have hnear := abs_le.1 (significandOf_near num hden)
  have least := minExponent_le hnum hden
  have small : significandOf num den ≤ 2 ^ 53 := by
    have hlt : (num / den / 2 ^ exponentOf num den : ℚ) < 2 ^ 53 := (div_lt_iff₀ hunit).2 hsmall
    have hcast : (significandOf num den : ℚ) < (2 ^ 53 + 1 : Nat) := by
      push_cast
      linarith
    have := Nat.cast_lt.1 hcast
    omega
  have full : 2 ^ 52 ≤ significandOf num den ∨ exponentOf num den = minExponent := by
    rcases hfull with hfull | hmin
    · left
      have hle : (2 : ℚ) ^ 52 ≤ num / den / 2 ^ exponentOf num den := (le_div_iff₀ hunit).2 hfull
      have hcast : ((2 ^ 52 : Nat) : ℚ) < (significandOf num den + 1 : Nat) := by
        push_cast
        linarith
      have := Nat.cast_lt.1 hcast
      omega
    · exact .inr hmin
  rw [ofRatio_eq negative hnum]
  dsimp only
  split
  · split
    · trivial
    · exact ⟨by decide, .inl (le_refl _), by omega, by omega⟩
  · split
    · trivial
    · exact ⟨by omega, full, least, by omega⟩

/-- Rounding looks at the value of a quotient only. -/
theorem ofRatio_congr (negative : Bool) {num' den' : Nat} (hden : 0 < den) (hden' : 0 < den')
    (h : (num / den : ℚ) = num' / den') :
    ofRatio negative num den = ofRatio negative num' den' := by
  have hcross := mul_eq_mul_of_quotient hden hden' h
  rcases Nat.eq_zero_or_pos num with hzero | hnum
  · have hzero' : num' = 0 := by
      rw [hzero, Nat.zero_mul, eq_comm, Nat.mul_eq_zero] at hcross
      exact hcross.resolve_right hden.ne'
    rw [hzero, hzero', ofRatio_zero, ofRatio_zero]
  have hnum' : 0 < num' := by
    rcases Nat.eq_zero_or_pos num' with hzero | hpos
    · rw [hzero, Nat.zero_mul] at hcross
      exact absurd hcross (Nat.mul_pos hnum hden').ne'
    · exact hpos
  have exponents : exponentOf num den = exponentOf num' den' := by
    rw [exponentOf_eq hnum hden, exponentOf_eq hnum' hden', h]
  have significands : significandOf num den = significandOf num' den' := by
    unfold significandOf
    rw [exponents]
    apply roundQuotient_congr (scaleDown_pos hden _) (scaleDown_pos hden' _)
    apply mul_eq_mul_of_quotient (scaleDown_pos hden _) (scaleDown_pos hden' _)
    have hvalues := quotient_scaleDown num den (exponentOf num' den')
    rw [h, ← quotient_scaleDown] at hvalues
    exact hvalues
  rw [ofRatio_eq negative hnum, ofRatio_eq negative hnum', exponents, significands]

/-- What is as close to a number as half a unit of its seventeenth decimal digit is rounded to
it. -/
theorem ofRatio_of_near (negative : Bool) {m : Nat} {e : Int} (hcanonical : Canonical m e)
    (hm : 0 < m) (hden : 0 < den)
    (hnear : |(num / den : ℚ) - m * 2 ^ e| * (2 * 10 ^ 16) ≤ m * 2 ^ e) :
    ofRatio negative num den = .finite negative m e := by
  obtain ⟨hsmall, hfull, hleast, hgreatest⟩ := hcanonical
  have hunit : (0 : ℚ) < 2 ^ e := by positivity
  -- The quotient in units of the number.
  obtain ⟨x, hx⟩ : ∃ x : ℚ, (num / den : ℚ) = x * 2 ^ e :=
    ⟨num / den / 2 ^ e, (div_mul_cancel₀ _ hunit.ne').symm⟩
  have hdistance : |(m : ℚ) - x| * (2 * 10 ^ 16) ≤ m := by
    rw [hx, ← sub_mul, abs_mul, abs_of_pos hunit, mul_right_comm, abs_sub_comm] at hnear
    exact le_of_mul_le_mul_right hnear hunit
  have hbits : (m : ℚ) + 1 ≤ 2 ^ 53 := by exact_mod_cast hsmall
  have hone : (1 : ℚ) ≤ m := by exact_mod_cast hm
  have hrange := abs_lt.1 (show |(m : ℚ) - x| < 0.4504 by linarith)
  have hnum : 0 < num := by
    apply Nat.pos_of_ne_zero
    intro hzero
    rw [hzero, Nat.cast_zero, zero_div, eq_comm, mul_eq_zero] at hx
    rcases hx with hx | hx <;> linarith
  rw [ofRatio_eq negative hnum]
  dsimp only
  by_cases hbelow : x < 2 ^ 52 ∧ e ≠ minExponent
  · -- Just below a power of two the units are half as large, and rounding carries.
    obtain ⟨hlow, hmin⟩ := hbelow
    have hpower : m = 2 ^ 52 := by
      have hcast : (m : ℚ) < (2 ^ 52 + 1 : Nat) := by
        push_cast
        linarith
      have := Nat.cast_lt.1 hcast
      omega
    have hm52 : (m : ℚ) = 2 ^ 52 := by rw [hpower]; norm_num
    have hcloser := abs_lt.1 (show |(m : ℚ) - x| < 0.2252 by linarith)
    have hhalf : (num / den : ℚ) = 2 * x * 2 ^ (e - 1) := by
      rw [hx, show e = e - 1 + 1 by ring, zpow_add_one₀ two_ne_zero, add_sub_cancel_right]
      ring
    have hunit' : (0 : ℚ) < 2 ^ (e - 1) := by positivity
    have hexponent : exponentOf num den = e - 1 := by
      apply exponentOf_eq_of_bounds hnum hden (by omega)
      · rw [hhalf]
        exact mul_lt_mul_of_pos_right (by linarith) hunit'
      · left
        rw [hhalf]
        exact mul_le_mul_of_nonneg_right (by linarith) hunit'.le
    have hcarry : significandOf num den = 2 ^ 53 := by
      apply significandOf_eq hden (hexponent.symm ▸ hhalf)
      rw [abs_lt]
      push_cast
      constructor <;> linarith
    rw [if_pos hcarry, hexponent, sub_add_cancel, if_neg (by omega), hpower]
  · have hexponent : exponentOf num den = e := by
      apply exponentOf_eq_of_bounds hnum hden hleast
      · rw [hx]
        exact mul_lt_mul_of_pos_right (by linarith) hunit
      · by_cases hmin : e = minExponent
        · exact .inr hmin
        · left
          rw [hx]
          exact mul_le_mul_of_nonneg_right (not_lt.1 fun h => hbelow ⟨h, hmin⟩) hunit.le
    have hsame : significandOf num den = m := by
      apply significandOf_eq hden (hexponent.symm ▸ hx)
      linarith
    rw [hsame, hexponent, if_neg (by omega), if_neg (by omega)]

end

end PromptForms.Binary64
