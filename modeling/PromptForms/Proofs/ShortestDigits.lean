/-
  PromptForms.Proofs.ShortestDigits
  ─────────────────────────────────
  **DIGITS THAT READ BACK.**

  A number is written with the fewest digits that read back as the number.  Seventeen digits
  always do, because half a unit of the seventeenth digit is closer to the number than the
  middle to its neighbour.  So the search always finds some digits, and digits of the same
  value read back as well.

      InReach         sizes that occur
      Spells          digits that read back, and how long and how large they may be

  Main results:
    • ofDecimal_congr           decimals of one value read as one number
    • leadingExponent_spec      the exponent of the leading digit is the decimal logarithm
    • shortestDigits_spells     the digits that are chosen read back
-/
import PromptForms.Proofs.Rounding

namespace PromptForms.Binary64

/-! ## §1. Digits times a power of ten. -/

/-- The sign takes no part in rounding. -/
theorem ofRatio_sign {negative other : Bool} {num den m : Nat} {e : Int}
    (h : ofRatio negative num den = .finite negative m e) :
    ofRatio other num den = .finite other m e := by
  rcases Nat.eq_zero_or_pos num with hzero | hnum
  · rw [hzero, ofRatio_zero] at h ⊢
    cases h
    rfl
  · rw [ofRatio_eq _ hnum] at h ⊢
    dsimp only at h ⊢
    split at h
    · split at h
      · cases h
      · cases h
        rw [if_pos ‹_›, if_neg ‹_›]
    · split at h
      · cases h
      · cases h
        rw [if_neg ‹_›, if_neg ‹_›]

/-! Powers of two and of ten, by two fractions on either side of the decimal logarithm of two. -/

theorem two_zpow_le_ten_zpow_of_nonneg {a b : Int} (ha : 0 ≤ a) (h : 28 * a ≤ 93 * b) :
    (2 : ℚ) ^ a ≤ 10 ^ b := by
  have hpow : ((2 : ℚ) ^ a) ^ 93 ≤ (10 ^ b) ^ 93 := by
    calc ((2 : ℚ) ^ a) ^ 93 = (2 ^ 93) ^ a := by
          rw [← zpow_natCast, ← zpow_natCast, ← zpow_mul, ← zpow_mul, mul_comm]
      _ ≤ (10 ^ 28) ^ a := zpow_le_zpow_left₀ ha (by norm_num) (by norm_num)
      _ = 10 ^ (28 * a) := by rw [zpow_mul, zpow_ofNat]
      _ ≤ 10 ^ (93 * b) := zpow_le_zpow_right₀ (by norm_num) h
      _ = (10 ^ b) ^ 93 := by rw [mul_comm, zpow_mul, zpow_ofNat]
  exact (pow_le_pow_iff_left₀ (by positivity) (by positivity) (by decide)).1 hpow

theorem ten_zpow_le_two_zpow_of_nonneg {a b : Int} (ha : 0 ≤ a) (h : 196 * b ≤ 59 * a) :
    (10 : ℚ) ^ b ≤ 2 ^ a := by
  have hpow : ((10 : ℚ) ^ b) ^ 196 ≤ (2 ^ a) ^ 196 := by
    calc ((10 : ℚ) ^ b) ^ 196 = 10 ^ (196 * b) := by rw [mul_comm 196, zpow_mul, zpow_ofNat]
      _ ≤ 10 ^ (59 * a) := zpow_le_zpow_right₀ (by norm_num) h
      _ = (10 ^ 59) ^ a := by rw [zpow_mul, zpow_ofNat]
      _ ≤ (2 ^ 196) ^ a := zpow_le_zpow_left₀ ha (by norm_num) (by norm_num)
      _ = (2 ^ a) ^ 196 := by
          rw [← zpow_natCast, ← zpow_natCast, ← zpow_mul, ← zpow_mul, mul_comm]
  exact (pow_le_pow_iff_left₀ (by positivity) (by positivity) (by decide)).1 hpow

theorem two_zpow_le_ten_zpow {a b : Int} (hup : 28 * a ≤ 93 * b) (hdown : 59 * a ≤ 196 * b) :
    (2 : ℚ) ^ a ≤ 10 ^ b := by
  rcases le_total 0 a with ha | ha
  · exact two_zpow_le_ten_zpow_of_nonneg ha hup
  · have h := ten_zpow_le_two_zpow_of_nonneg (a := -a) (b := -b) (by omega) (by omega)
    rw [zpow_neg, zpow_neg] at h
    exact (inv_le_inv₀ (by positivity) (by positivity)).1 h

theorem ten_zpow_le_two_zpow {a b : Int} (hup : 93 * b ≤ 28 * a) (hdown : 196 * b ≤ 59 * a) :
    (10 : ℚ) ^ b ≤ 2 ^ a := by
  have h := two_zpow_le_ten_zpow (a := -a) (b := -b) (by omega) (by omega)
  rw [zpow_neg, zpow_neg] at h
  exact (inv_le_inv₀ (by positivity) (by positivity)).1 h

/-- Numbers of a size that no binary64 number except zero exceeds or falls short of. -/
def InReach (x : ℚ) : Prop := (10 : ℚ) ^ (-330 : Int) ≤ x ∧ x ≤ 10 ^ (330 : Int)

theorem power_of_ten_pos (k : Nat) : 0 < Nat.pow 10 k := Nat.pow_pos (by decide)

/-- The digits and the power that stand for a decimal, as a pair of natural numbers. -/
theorem decimal_value (digits : Nat) (k : Int) :
    ((digits * Nat.pow 10 k.toNat : Nat) : ℚ) / (Nat.pow 10 (-k).toNat : Nat) = digits * 10 ^ k := by
  rw [← pow_toNat_div_pow_toNat (by norm_num : (10 : ℚ) ≠ 0) k]
  simp only [Nat.pow_eq, Nat.cast_mul, Nat.cast_pow, Nat.cast_ofNat]
  ring

/-- Digits of any size that occurs, with a value of any size that occurs, are rounded as they
are. -/
theorem ofDecimal_eq (negative : Bool) {digits : Nat} {k : Int} (hpos : 0 < digits)
    (hdigits : digits < 2 ^ 200) (hreach : InReach (digits * 10 ^ k)) :
    ofDecimal negative digits k =
      ofRatio negative (digits * Nat.pow 10 k.toNat) (Nat.pow 10 (-k).toNat) := by
  obtain ⟨hlow, hhigh⟩ := hreach
  have hten : (0 : ℚ) < 10 ^ k := by positivity
  have hlog : digits.log2 < 200 := (Nat.log2_lt hpos.ne').2 hdigits
  have hk : k ≤ 330 := by
    have hone : (1 : ℚ) ≤ digits := by exact_mod_cast hpos
    have hle : (10 : ℚ) ^ k ≤ 10 ^ (330 : Int) :=
      le_trans (le_mul_of_one_le_left hten.le hone) hhigh
    exact (zpow_le_zpow_iff_right₀ (by norm_num)).1 hle
  have hk' : -391 ≤ k := by
    have hlt : (digits : ℚ) < 10 ^ (61 : Int) := by
      calc (digits : ℚ) < 2 ^ 200 := by exact_mod_cast hdigits
        _ ≤ 10 ^ (61 : Int) := by norm_num
    have hle : (10 : ℚ) ^ (-330 : Int) < 10 ^ (61 + k) := by
      rw [zpow_add₀ (by norm_num)]
      exact lt_of_le_of_lt hlow (mul_lt_mul_of_pos_right hlt hten)
    have := (zpow_lt_zpow_iff_right₀ (by norm_num : (1 : ℚ) < 10)).1 hle
    omega
  unfold ofDecimal
  rw [if_neg hpos.ne']
  dsimp only
  rw [if_neg (by omega), if_neg (by omega)]

/-- Decimals of one value read as one number. -/
theorem ofDecimal_congr {negative other : Bool} {digits digits' m : Nat} {k k' e : Int}
    (hdigits : digits < 2 ^ 200) (hdigits' : digits' < 2 ^ 200)
    (hreach : InReach (digits * 10 ^ k)) (hvalue : (digits * 10 ^ k : ℚ) = digits' * 10 ^ k')
    (h : ofDecimal negative digits k = .finite negative m e) :
    ofDecimal other digits' k' = .finite other m e := by
  have positive {n : Nat} {j : Int} (hn : InReach (n * 10 ^ j)) : 0 < n := by
    apply Nat.pos_of_ne_zero
    intro hzero
    have : (0 : ℚ) < 10 ^ (-330 : Int) := by positivity
    have := hn.1
    simp only [hzero, Nat.cast_zero, zero_mul] at this
    linarith
  have hreach' : InReach (digits' * 10 ^ k') := hvalue ▸ hreach
  rw [ofDecimal_eq negative (positive hreach) hdigits hreach] at h
  rw [ofDecimal_eq other (positive hreach') hdigits' hreach']
  have same : ofRatio negative (digits' * Nat.pow 10 k'.toNat) (Nat.pow 10 (-k').toNat)
      = .finite negative m e := by
    rw [← h]
    apply ofRatio_congr negative (power_of_ten_pos _) (power_of_ten_pos _)
    rw [decimal_value, decimal_value, hvalue]
  exact ofRatio_sign same

/-! ## §2. The fewest digits. -/

theorem powerTenLe_iff {k : Int} {num den : Nat} (hden : 0 < den) :
    powerTenLe k num den = true ↔ (10 : ℚ) ^ k ≤ num / den := by
  have hd : (0 : ℚ) < den := by exact_mod_cast hden
  have hdown : (0 : ℚ) < 10 ^ (-k).toNat := by positivity
  unfold powerTenLe
  rw [decide_eq_true_eq, ← pow_toNat_div_pow_toNat (by norm_num : (10 : ℚ) ≠ 0) k,
    div_le_div_iff₀ hdown hd]
  simp only [Nat.pow_eq]
  exact_mod_cast Iff.rfl

section

variable {m : Nat} {e : Int}

/-- The sizes of numbers. -/
theorem Canonical.reach (h : Canonical m e) (hm : 0 < m) :
    (2 : ℚ) ^ (-1074 : Int) ≤ m * 2 ^ e ∧ (m * 2 ^ e : ℚ) < 2 ^ (1024 : Int) := by
  have hone : (1 : ℚ) ≤ m := by exact_mod_cast hm
  have hbits : (m : ℚ) < 2 ^ (53 : Int) := by exact_mod_cast h.small
  have hunit : (0 : ℚ) < 2 ^ e := by positivity
  constructor
  · calc (2 : ℚ) ^ (-1074 : Int) ≤ 2 ^ e := zpow_le_zpow_right₀ (by norm_num) h.least
      _ ≤ m * 2 ^ e := le_mul_of_one_le_left hunit.le hone
  · calc (m * 2 ^ e : ℚ) < 2 ^ (53 : Int) * 2 ^ e := mul_lt_mul_of_pos_right hbits hunit
      _ = 2 ^ (53 + e) := by rw [zpow_add₀ two_ne_zero]
      _ ≤ 2 ^ (1024 : Int) := by
        have hgreatest : e ≤ 971 := h.greatest
        exact zpow_le_zpow_right₀ (by norm_num) (by omega)

theorem ratio_pos (m : Nat) (e : Int) : 0 < (ratio m e).2 := Nat.pow_pos (by decide)

/-- The exponent of the leading digit is the decimal logarithm. -/
theorem leadingExponent_spec {num den : Nat} (hnum : 0 < num) (hden : 0 < den)
    (hsize : num.log2 < 10000) (hsize' : den.log2 < 10000) :
    (10 : ℚ) ^ leadingExponent num den ≤ num / den ∧
      (num / den : ℚ) < 10 ^ (leadingExponent num den + 1) := by
  obtain ⟨lower, upper⟩ := quotient_between hnum hden
  unfold leadingExponent
  dsimp only
  generalize hguess : ((num.log2 : Int) - (den.log2 : Int)) * 30103 / 100000 = guess
  have top : (num / den : ℚ) < 10 ^ (guess + 1 + 1) :=
    lt_of_lt_of_le upper (two_zpow_le_ten_zpow (by omega) (by omega))
  have bottom : (10 : ℚ) ^ (guess - 2) ≤ num / den :=
    le_trans (ten_zpow_le_two_zpow (by omega) (by omega)) lower
  have below {k : Int} (h : ¬powerTenLe k num den = true) : (num / den : ℚ) < 10 ^ k :=
    not_le.1 fun hle => h ((powerTenLe_iff hden).2 hle)
  split
  · exact ⟨(powerTenLe_iff hden).1 ‹_›, top⟩
  · split
    · exact ⟨(powerTenLe_iff hden).1 ‹_›, below ‹_›⟩
    · split
      · exact ⟨(powerTenLe_iff hden).1 ‹_›, by rw [sub_add_cancel]; exact below ‹_›⟩
      · refine ⟨bottom, ?_⟩
        rw [show guess - 2 + 1 = guess - 1 by ring]
        exact below ‹_›

/-- The parts of a number as a quotient have no more bits than the exponents allow. -/
theorem Canonical.log2_ratio_lt (h : Canonical m e) (hm : 0 < m) :
    (ratio m e).1.log2 < 10000 ∧ (ratio m e).2.log2 < 10000 := by
  have hleast : -1074 ≤ e := h.least
  have hgreatest : e ≤ 971 := h.greatest
  have hpower : 0 < 2 ^ e.toNat := Nat.pow_pos (by decide)
  have hnum : (m * 2 ^ e.toNat).log2 < 53 + e.toNat := by
    rw [Nat.log2_lt (Nat.mul_pos hm hpower).ne', Nat.pow_add]
    exact Nat.mul_lt_mul_of_pos_right h.small hpower
  have hden : (2 ^ (-e).toNat).log2 = (-e).toNat := Nat.log2_two_pow
  constructor
  · show (m * 2 ^ e.toNat).log2 < 10000
    omega
  · show (2 ^ (-e).toNat).log2 < 10000
    omega

theorem quotient_inUnits (num den : Nat) (k : Int) :
    quotient (inUnits num den k) = num / den / 10 ^ k := by
  have hup : (10 : ℚ) ^ k.toNat ≠ 0 := by positivity
  have hdown : (10 : ℚ) ^ (-k).toNat ≠ 0 := by positivity
  rw [← pow_toNat_div_pow_toNat (by norm_num : (10 : ℚ) ≠ 0) k]
  simp only [quotient, inUnits, Nat.pow_eq, Nat.cast_mul, Nat.cast_pow, Nat.cast_ofNat]
  field_simp

/-- The exponent of the last of some digits of a number. -/
def unitOf (m : Nat) (e : Int) (places : Nat) : Int :=
  leadingExponent (ratio m e).1 (ratio m e).2 - places + 1

/-- A number in units of the last of its digits: at least one unit in the first place, and fewer
than ten. -/
theorem Canonical.in_units (h : Canonical m e) (hm : 0 < m) (places : Nat) :
    (10 : ℚ) ^ ((places : Int) - 1) * 10 ^ unitOf m e places ≤ m * 2 ^ e ∧
      (m * 2 ^ e : ℚ) < 10 ^ places * 10 ^ unitOf m e places := by
  obtain ⟨hsize, hsize'⟩ := h.log2_ratio_lt hm
  have hnum : 0 < (ratio m e).1 := Nat.mul_pos hm (Nat.pow_pos (by decide))
  obtain ⟨hlow, hhigh⟩ := leadingExponent_spec hnum (ratio_pos m e) hsize hsize'
  have hvalue : ((ratio m e).1 / (ratio m e).2 : ℚ) = m * 2 ^ e := quotient_ratio m e
  rw [hvalue] at hlow hhigh
  unfold unitOf
  constructor
  · rw [← zpow_add₀ (by norm_num), show (places : Int) - 1
      + (leadingExponent (ratio m e).1 (ratio m e).2 - places + 1)
      = leadingExponent (ratio m e).1 (ratio m e).2 by ring]
    exact hlow
  · rw [← zpow_natCast, ← zpow_add₀ (by norm_num), show (places : Int)
      + (leadingExponent (ratio m e).1 (ratio m e).2 - places + 1)
      = leadingExponent (ratio m e).1 (ratio m e).2 + 1 by ring]
    exact hhigh

/-- The whole units of a number. -/
def wholeUnits (m : Nat) (e : Int) (places : Nat) : Nat :=
  let (n, d) := inUnits (ratio m e).1 (ratio m e).2 (unitOf m e places)
  n / d

/-- The units of a number, rounded. -/
def nearestUnits (m : Nat) (e : Int) (places : Nat) : Nat :=
  let (n, d) := inUnits (ratio m e).1 (ratio m e).2 (unitOf m e places)
  roundQuotient n d

theorem inUnits_pos (m : Nat) (e : Int) (k : Int) :
    0 < (inUnits (ratio m e).1 (ratio m e).2 k).2 :=
  Nat.mul_pos (ratio_pos m e) (power_of_ten_pos _)

/-- The value of a number in units. -/
theorem value_inUnits (m : Nat) (e k : Int) :
    ((inUnits (ratio m e).1 (ratio m e).2 k).1 / (inUnits (ratio m e).1 (ratio m e).2 k).2 : ℚ)
      * 10 ^ k = m * 2 ^ e := by
  have hunit : (10 : ℚ) ^ k ≠ 0 := by positivity
  have hvalue : ((ratio m e).1 / (ratio m e).2 : ℚ) = m * 2 ^ e := quotient_ratio m e
  have hscaled := quotient_inUnits (ratio m e).1 (ratio m e).2 k
  rw [hvalue] at hscaled
  exact (eq_div_iff hunit).1 hscaled

theorem wholeUnits_le (m : Nat) (e : Int) (places : Nat) :
    (wholeUnits m e places : ℚ) * 10 ^ unitOf m e places ≤ m * 2 ^ e ∧
      (m * 2 ^ e : ℚ) < (wholeUnits m e places + 1) * 10 ^ unitOf m e places := by
  have hd : (0 : ℚ) < (inUnits (ratio m e).1 (ratio m e).2 (unitOf m e places)).2 := by
    exact_mod_cast inUnits_pos m e (unitOf m e places)
  have hunit : (0 : ℚ) < 10 ^ unitOf m e places := by positivity
  rw [← value_inUnits m e (unitOf m e places)]
  constructor
  · apply mul_le_mul_of_nonneg_right _ hunit.le
    rw [le_div_iff₀ hd]
    exact_mod_cast Nat.div_mul_le_self _ _
  · apply mul_lt_mul_of_pos_right _ hunit
    rw [div_lt_iff₀ hd, mul_comm]
    exact_mod_cast Nat.lt_mul_div_succ _ (inUnits_pos m e (unitOf m e places))

theorem nearestUnits_near (m : Nat) (e : Int) (places : Nat) :
    |(nearestUnits m e places : ℚ) * 10 ^ unitOf m e places - m * 2 ^ e|
      ≤ 1 / 2 * 10 ^ unitOf m e places := by
  have hunit : (0 : ℚ) < 10 ^ unitOf m e places := by positivity
  rw [← value_inUnits m e (unitOf m e places), ← sub_mul, abs_mul, abs_of_pos hunit]
  apply mul_le_mul_of_nonneg_right _ hunit.le
  exact roundQuotient_near _ (inUnits_pos m e (unitOf m e places))

/-- Digits that read back as a number, and how long and how large they may be. -/
structure Spells (x : Decimal) (m : Nat) (e : Int) : Prop where
  positive : 0 < x.coefficient
  short : x.coefficient ≤ 10 ^ 17
  reach : InReach (x.coefficient * 10 ^ x.exponent)
  reads : ofDecimal false x.coefficient x.exponent = .finite false m e

/-- Either neighbour of a number on the grid of its digits is positive and of a size that
occurs. -/
theorem Canonical.neighbour (h : Canonical m e) (hm : 0 < m) {places c : Nat} (hplaces : 1 ≤ places)
    (hlow : wholeUnits m e places ≤ c) (hhigh : c ≤ wholeUnits m e places + 1) :
    0 < c ∧ c ≤ 10 ^ places ∧ InReach (c * 10 ^ unitOf m e places) := by
  obtain ⟨hfirst, hlast⟩ := h.in_units hm places
  obtain ⟨hwhole, hpart⟩ := wholeUnits_le m e places
  obtain ⟨hleast, hgreatest⟩ := h.reach hm
  have hunit : (0 : ℚ) < 10 ^ unitOf m e places := by positivity
  have hone : (1 : ℚ) ≤ 10 ^ ((places : Int) - 1) := one_le_zpow₀ (by norm_num) (by omega)
  have hunitle : (10 : ℚ) ^ unitOf m e places ≤ m * 2 ^ e :=
    le_trans (le_mul_of_one_le_left hunit.le hone) hfirst
  have positive : 0 < wholeUnits m e places := by
    have hlt : (1 : ℚ) < wholeUnits m e places + 1 := by
      have := lt_of_le_of_lt hunitle hpart
      exact lt_of_mul_lt_mul_right (by rwa [one_mul]) hunit.le
    have : (0 : ℚ) < wholeUnits m e places := by linarith
    exact_mod_cast this
  have few : wholeUnits m e places < 10 ^ places := by
    have hlt := lt_of_mul_lt_mul_right (lt_of_le_of_lt hwhole hlast) hunit.le
    exact_mod_cast hlt
  have hlow' : (wholeUnits m e places : ℚ) ≤ c := by exact_mod_cast hlow
  have hhigh' : (c : ℚ) ≤ wholeUnits m e places + 1 := by exact_mod_cast hhigh
  have hpositive : (1 : ℚ) ≤ wholeUnits m e places := by exact_mod_cast positive
  refine ⟨by omega, by omega, ?_, ?_⟩
  · calc (10 : ℚ) ^ (-330 : Int) ≤ 2 ^ (-1075 : Int) := ten_zpow_le_two_zpow (by omega) (by omega)
      _ = 2 ^ (-1074 : Int) / 2 := by
        rw [show (-1075 : Int) = -1074 - 1 from rfl, zpow_sub_one₀ two_ne_zero, div_eq_mul_inv]
      _ ≤ m * 2 ^ e / 2 := by linarith
      _ ≤ c * 10 ^ unitOf m e places := by nlinarith
  · calc (c * 10 ^ unitOf m e places : ℚ) ≤ 2 * (m * 2 ^ e) := by nlinarith
      _ ≤ 2 * 2 ^ (1024 : Int) := by linarith
      _ = 2 ^ (1025 : Int) := by
        rw [show (1025 : Int) = 1024 + 1 from rfl, zpow_add_one₀ two_ne_zero, mul_comm]
      _ ≤ 10 ^ (330 : Int) := two_zpow_le_ten_zpow (by omega) (by omega)

theorem roundQuotient_neighbour (num den : Nat) :
    roundQuotient num den = num / den ∨ roundQuotient num den = num / den + 1 := by
  unfold roundQuotient
  dsimp only
  split
  · exact .inl rfl
  · split
    · exact .inr rfl
    · omega

/-- The other neighbour of a number. -/
def farther (m : Nat) (e : Int) (places : Nat) : Nat :=
  if nearestUnits m e places = wholeUnits m e places then wholeUnits m e places + 1
  else wholeUnits m e places

theorem onGrid?_eq (m : Nat) (e : Int) (places : Nat) :
    onGrid? m e places =
      if ofDecimal false (nearestUnits m e places) (unitOf m e places) = .finite false m e then
        some ⟨nearestUnits m e places, unitOf m e places⟩
      else if ofDecimal false (farther m e places) (unitOf m e places) = .finite false m e then
        some ⟨farther m e places, unitOf m e places⟩
      else none := by
  unfold onGrid? farther nearestUnits wholeUnits unitOf
  simp only [beq_iff_eq]

/-- Both candidates are neighbours. -/
theorem candidates (m : Nat) (e : Int) (places : Nat) {c : Nat}
    (hc : c = nearestUnits m e places ∨ c = farther m e places) :
    wholeUnits m e places ≤ c ∧ c ≤ wholeUnits m e places + 1 := by
  have nearest : nearestUnits m e places = wholeUnits m e places ∨
      nearestUnits m e places = wholeUnits m e places + 1 := roundQuotient_neighbour _ _
  unfold farther at hc
  split at hc <;> omega

theorem onGrid?_spells (h : Canonical m e) (hm : 0 < m) {places : Nat} (hplaces : 1 ≤ places)
    (hplaces' : places ≤ 17) {x : Decimal} (hx : onGrid? m e places = some x) : Spells x m e := by
  have spells {c : Nat} (hc : c = nearestUnits m e places ∨ c = farther m e places)
      (hreads : ofDecimal false c (unitOf m e places) = .finite false m e) :
      Spells ⟨c, unitOf m e places⟩ m e := by
    obtain ⟨hlow, hhigh⟩ := candidates m e places hc
    obtain ⟨positive, short, reach⟩ := h.neighbour hm hplaces hlow hhigh
    exact ⟨positive, le_trans short (Nat.pow_le_pow_right (by decide) hplaces'), reach, hreads⟩
  rw [onGrid?_eq] at hx
  split at hx
  · rename_i hreads
    cases hx
    exact spells (.inl rfl) hreads
  · split at hx
    · rename_i hreads
      cases hx
      exact spells (.inr rfl) hreads
    · cases hx

theorem lt_two_pow_of_le_ten_pow {c : Nat} (h : c ≤ 10 ^ 17) : c < 2 ^ 200 :=
  lt_of_le_of_lt h (by decide)

/-- Seventeen digits always read back. -/
theorem onGrid?_seventeen (h : Canonical m e) (hm : 0 < m) :
    onGrid? m e 17 = some ⟨nearestUnits m e 17, unitOf m e 17⟩ := by
  obtain ⟨hlow, hhigh⟩ := candidates m e 17 (.inl rfl)
  obtain ⟨positive, short, reach⟩ := h.neighbour hm (by decide) hlow hhigh
  have reads : ofDecimal false (nearestUnits m e 17) (unitOf m e 17) = .finite false m e := by
    rw [ofDecimal_eq false positive (lt_two_pow_of_le_ten_pow short) reach]
    apply ofRatio_of_near false h hm (power_of_ten_pos _)
    rw [decimal_value]
    -- The error is half a unit at most, and there are that many units in the number.
    calc _ ≤ 1 / 2 * (10 : ℚ) ^ unitOf m e 17 * (2 * 10 ^ 16) :=
          mul_le_mul_of_nonneg_right (nearestUnits_near m e 17) (by norm_num)
      _ = 10 ^ 16 * 10 ^ unitOf m e 17 := by ring
      _ ≤ m * 2 ^ e := (h.in_units hm 17).1
  rw [onGrid?_eq, if_pos reads]

/-- The digits that are chosen for a number read back as the number. -/
theorem shortestDigits_spells (h : Canonical m e) (hm : 0 < m) :
    Spells (shortestDigits m e) m e := by
  have found : ((List.range' 1 17).findSome? (onGrid? m e)).isSome = true := by
    rw [List.findSome?_isSome_iff]
    exact ⟨17, by decide, by rw [onGrid?_seventeen h hm]; rfl⟩
  obtain ⟨x, hx⟩ := Option.isSome_iff_exists.1 found
  obtain ⟨places, hplaces, hgrid⟩ := List.exists_of_findSome?_eq_some hx
  rw [List.mem_range'_1] at hplaces
  unfold shortestDigits
  rw [if_neg hm.ne', hx]
  exact onGrid?_spells h hm hplaces.1 (by omega) hgrid

end

end PromptForms.Binary64
