/-
  PromptForms.Proofs.Numerals
  ───────────────────────────
  **DIGITS AND THE NUMBERS THEY SPELL.**

  Numbers are written without leading zeros, or with zeros in front up to a width, and
  read digit by digit.

  Main results:
    • digitsValue_toDigits      reading what is written
    • toDigits_ofDigitChars     digits behind a positive number extend its numeral
    • head?_toDigits_ne_zero    a positive number is written without leading zeros
-/
import Mathlib.Data.Nat.Digits.Defs
import PromptForms.Number.Numeral

namespace PromptForms.Numeral

theorem digitsValue_eq (digits : List Char) :
    digitsValue digits = Nat.ofDigitChars 10 digits 0 := by
  unfold digitsValue Nat.ofDigitChars
  congr 1
  funext n c
  omega

/-- Reading the digits of a number gives the number back. -/
theorem digitsValue_toDigits (n : Nat) : digitsValue (Nat.toDigits 10 n) = n := by
  rw [digitsValue_eq, Nat.ofDigitChars_ten_toDigits]

/-- The digits stand in one run. -/
theorem toNat_of_isDigit {c : Char} (h : c.isDigit = true) : 48 ≤ c.toNat ∧ c.toNat ≤ 57 := by
  simpa [Char.isDigit, UInt32.le_iff_toNat_le] using h

/-- A digit is the digit of its value. -/
theorem digitChar_of_isDigit {c : Char} (h : c.isDigit = true) :
    Nat.digitChar (c.toNat - '0'.toNat) = c ∧ c.toNat - '0'.toNat < 10 := by
  have bounds := toNat_of_isDigit h
  have small : c.toNat - '0'.toNat < 10 := by
    show c.toNat - 48 < 10
    omega
  refine ⟨?_, small⟩
  apply Char.toNat_inj.mp
  rw [Nat.toNat_digitChar_of_lt_ten small]
  show 48 + (c.toNat - 48) = c.toNat
  omega

/-- Digits behind a positive number extend its numeral. -/
theorem toDigits_ofDigitChars {digits : List Char} (hdigits : ∀ c ∈ digits, c.isDigit = true)
    {n : Nat} (hn : 0 < n) :
    Nat.toDigits 10 (Nat.ofDigitChars 10 digits n) = Nat.toDigits 10 n ++ digits := by
  induction digits generalizing n with
  | nil => simp
  | cons c rest ih =>
    obtain ⟨spelled, small⟩ := digitChar_of_isDigit (hdigits c List.mem_cons_self)
    have step : Nat.toDigits 10 (10 * n + (c.toNat - '0'.toNat)) = Nat.toDigits 10 n ++ [c] := by
      have appended := Nat.toDigits_append_toDigits (b := 10) (by decide) hn small
      rw [Nat.toDigits_of_lt_base small, spelled] at appended
      exact appended.symm
    rw [Nat.ofDigitChars_cons,
      ih (fun d hd => hdigits d (List.mem_cons_of_mem c hd)) (by omega), step]
    simp

/-- The numeral of a positive number does not start with a zero. -/
theorem head?_toDigits_ne_zero {n : Nat} (hn : 0 < n) :
    (Nat.toDigits 10 n).head? ≠ some '0' := by
  induction n using Nat.strongRecOn with
  | ind n ih =>
    rw [Nat.toDigits_eq_if (by decide)]
    by_cases small : n < 10
    · rw [if_pos small, List.head?_cons]
      intro hzero
      have value := congrArg Char.toNat (Option.some.inj hzero)
      rw [Nat.toNat_digitChar_of_lt_ten small] at value
      change 48 + n = 48 at value
      omega
    · have earlier := ih (n / 10) (by omega) (by omega)
      rw [if_neg small]
      cases hd : Nat.toDigits 10 (n / 10) with
      | nil => exact absurd hd Nat.toDigits_ne_nil
      | cons c rest => simpa [hd] using earlier

end PromptForms.Numeral
