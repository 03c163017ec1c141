/-
  PromptForms.Proofs.NumberTexts
  ──────────────────────────────
  **NUMBERS IN JSON TEXTS.**

  A number is written as digits, perhaps with a point and an exponent, and read up to the
  first character that cannot belong to it.  Whichever notation is chosen for a number, its
  digits have the value of the digits that were chosen, so the number is read again.

      Ends            what may follow a number
      Spelling        the parts of a numeral

  Main results:
    • scalar_spelling     a numeral is read to its end
    • scalar_toString     integers are read as they were
    • scalar_writeReal    binary64 numbers are read as they were
-/
import Mathlib.Data.List.TakeWhile
import PromptForms.Json.Reader
import PromptForms.Json.Writer
import PromptForms.Proofs.Numerals
import PromptForms.Proofs.ShortestDigits

namespace PromptForms.Json

/-! ## §1. The parts of a numeral. -/

/-- What may follow a number. -/
def Ends (rest : List Char) : Prop :=
  ∀ c ∈ rest.head?, c.isDigit = false ∧ c ≠ '.' ∧ c ≠ 'e' ∧ c ≠ 'E'

/-- A sign in front of a numeral. -/
def signed (negative : Bool) (body : List Char) : List Char :=
  if negative then '-' :: body else body

/-- The digits after a point, with the point. -/
def pointed (fraction : List Char) : List Char :=
  if fraction.isEmpty then [] else '.' :: fraction

/-- The unsigned numeral that the parts make up: a whole part without leading zeros, perhaps digits
after a point, perhaps an exponent. -/
structure Spelling where
  whole : List Char
  fraction : List Char
  power : List Char

namespace Spelling

/-- The characters of a numeral. -/
def body (n : Spelling) : List Char := n.whole ++ (pointed n.fraction ++ n.power)

/-- A numeral that can be written in one way only. -/
structure Proper (n : Spelling) : Prop where
  digits : ∀ c ∈ n.whole ++ n.fraction, c.isDigit = true
  whole : n.whole = ['0'] ∨ n.whole ≠ [] ∧ n.whole.head? ≠ some '0'
  power : n.power = [] ∨ ∃ sign digits, (sign = '+' ∨ sign = '-') ∧ digits ≠ [] ∧
    (∀ c ∈ digits, c.isDigit = true) ∧ n.power = 'e' :: sign :: digits

end Spelling

theorem takeWhile_isDigit_append {digits rest : List Char}
    (hdigits : ∀ c ∈ digits, c.isDigit = true) (hrest : ∀ c ∈ rest.head?, c.isDigit = false) :
    (digits ++ rest).takeWhile Char.isDigit = digits := by
  rw [List.takeWhile_append_of_pos hdigits]
  cases rest with
  | nil => simp
  | cons c rest =>
    have hc := hrest c rfl
    simp [hc]

section

variable {n : Spelling} {rest : List Char}

theorem Spelling.Proper.whole_ne_nil (h : n.Proper) : n.whole ≠ [] := by
  rcases h.whole with hzero | ⟨hne, -⟩
  · rw [hzero]
    exact List.cons_ne_nil _ _
  · exact hne

/-- What follows the digits of a numeral starts with no digit. -/
theorem Spelling.Proper.head_power (h : n.Proper) (hrest : Ends rest) :
    ∀ c ∈ (n.power ++ rest).head?, c.isDigit = false ∧ c ≠ '.' := by
  rcases h.power with hpower | ⟨sign, digits, -, -, -, hpower⟩
  · rw [hpower]
    intro c hc
    exact ⟨(hrest c hc).1, (hrest c hc).2.1⟩
  · rw [hpower]
    intro c hc
    cases hc
    exact ⟨by decide, by decide⟩

theorem Spelling.Proper.head_point (h : n.Proper) (hrest : Ends rest) :
    ∀ c ∈ (pointed n.fraction ++ (n.power ++ rest)).head?, c.isDigit = false := by
  unfold pointed
  split
  · exact fun c hc => (h.head_power hrest c hc).1
  · intro c hc
    cases hc
    decide

theorem integerPart_numeral (h : n.Proper) (hrest : Ends rest) :
    integerPart (n.whole ++ (pointed n.fraction ++ (n.power ++ rest))) = n.whole := by
  have digits : ∀ c ∈ n.whole, c.isDigit = true :=
    fun c hc => h.digits c (List.mem_append_left _ hc)
  rcases h.whole with hzero | ⟨hne, hhead⟩
  · rw [hzero]
    rfl
  · cases hwhole : n.whole with
    | nil => exact absurd hwhole hne
    | cons c more =>
      rw [hwhole] at hhead digits
      unfold integerPart
      split
      · rename_i htext
        cases htext
        exact absurd rfl hhead
      · exact takeWhile_isDigit_append digits (h.head_point hrest)

theorem fractionPart_numeral (h : n.Proper) (hrest : Ends rest) :
    fractionPart (pointed n.fraction ++ (n.power ++ rest)) = n.fraction := by
  have digits : ∀ c ∈ n.fraction, c.isDigit = true :=
    fun c hc => h.digits c (List.mem_append_right _ hc)
  have next := h.head_power hrest
  unfold pointed
  split
  · rename_i hempty
    rw [List.isEmpty_iff.1 hempty, List.nil_append]
    unfold fractionPart
    split
    · rename_i htext
      rw [htext] at next
      exact absurd rfl (next '.' rfl).2
    · rfl
  · exact takeWhile_isDigit_append digits fun c hc => (next c hc).1

theorem exponentPart_numeral (h : n.Proper) (hrest : Ends rest) :
    exponentPart (n.power ++ rest) = n.power := by
  rcases h.power with hpower | ⟨sign, digits, hsign, hne, hdigits, hpower⟩
  · rw [hpower, List.nil_append]
    cases rest with
    | nil => rfl
    | cons c rest =>
      obtain ⟨-, -, he, hE⟩ := hrest c rfl
      unfold exponentPart
      simp [he, hE]
  · have read := takeWhile_isDigit_append hdigits fun c hc => (hrest c hc).1
    rw [hpower]
    unfold exponentPart
    rcases hsign with rfl | rfl <;> simp [read, hne]

/-- A numeral starts with a digit. -/
theorem Spelling.Proper.exists_cons (h : n.Proper) :
    ∃ c tail, n.body = c :: tail ∧ c.isDigit = true := by
  obtain ⟨c, tail, hwhole⟩ := List.exists_cons_of_ne_nil h.whole_ne_nil
  refine ⟨c, tail ++ (pointed n.fraction ++ n.power), ?_, ?_⟩
  · rw [Spelling.body, hwhole]
    rfl
  · exact h.digits c (List.mem_append_left _ (hwhole ▸ List.mem_cons_self))

end

/-! The sign of a numeral is told from its first digit. -/

section

variable {c : Char} {body tail : List Char} (negative : Bool)

theorem signed_append (body rest : List Char) :
    signed negative (body ++ rest) = signed negative body ++ rest := by
  cases negative <;> rfl

theorem length_signed_body (n : Spelling) : (signed negative n.body).length =
    (if negative then 1 else 0) + n.whole.length + (pointed n.fraction).length + n.power.length := by
  cases negative <;> simp [signed, Spelling.body] <;> omega

theorem head_signed (hbody : body = c :: tail) (hc : c.isDigit = true) (d : Char) (more : List Char)
    (hs : signed negative body = d :: more) :
    d.isDigit = true ∨ d = '-' ∧ ∃ x more', more = x :: more' ∧ x.isDigit = true := by
  cases negative with
  | false =>
    left
    change body = d :: more at hs
    rw [hbody] at hs
    cases hs
    exact hc
  | true =>
    right
    cases hs
    exact ⟨rfl, c, tail, hbody, hc⟩

theorem split_signed (hbody : body = c :: tail) (hc : c.isDigit = true) :
    (match signed negative body with
      | '-' :: rest => (true, rest)
      | _ => (false, signed negative body)) = (negative, body) := by
  cases negative with
  | false =>
    rw [show signed false body = body from rfl]
    split
    · cases hbody
      exact absurd hc (by decide)
    · rfl
  | true => rfl

end

/-- **A numeral is read to its end**, whatever follows it. -/
theorem scalar_spelling {n : Spelling} {rest : List Char} (negative : Bool) (h : n.Proper)
    (hrest : Ends rest) :
    ∃ r : Shorter (signed negative (n.body ++ rest)), r.1 = rest ∧
      scalar (signed negative (n.body ++ rest)) =
        if n.fraction = [] ∧ n.power = [] then
          if Numeral.maxDigits < n.whole.length then .error .hugeInteger
          else
            let value : Int := Numeral.digitsValue n.whole
            .ok (.int (if negative then -value else value), r)
        else
          .ok (.real (Binary64.ofDecimal negative (Numeral.digitsValue (n.whole ++ n.fraction))
            ((Numeral.readExponent? n.power).getD 0 - n.fraction.length)), r) := by
  obtain ⟨c, tail, hstart, hc⟩ := h.exists_cons
  have hcons : n.body ++ rest = c :: (tail ++ rest) := by rw [hstart, List.cons_append]
  -- Where each part stands.
  have hbody : n.body ++ rest = n.whole ++ (pointed n.fraction ++ (n.power ++ rest)) := by
    simp [Spelling.body]
  have hint : integerPart (n.body ++ rest) = n.whole := by
    rw [hbody]
    exact integerPart_numeral h hrest
  have hfraction : fractionPart ((n.body ++ rest).drop n.whole.length) = n.fraction := by
    rw [hbody, List.drop_left]
    exact fractionPart_numeral h hrest
  have hpower : exponentPart ((n.body ++ rest).drop (n.whole.length + (pointed n.fraction).length))
      = n.power := by
    rw [hbody, ← List.append_assoc, ← List.length_append, List.drop_left]
    exact exponentPart_numeral h hrest
  have hpointed : (pointed n.fraction).length =
      if n.fraction.isEmpty then 0 else n.fraction.length + 1 := by
    unfold pointed
    split <;> rfl
  have hwhole : n.whole.length ≠ 0 := fun h0 => h.whole_ne_nil (List.length_eq_zero_iff.1 h0)
  have hplain : (pointed n.fraction).length + n.power.length = 0 ↔
      n.fraction = [] ∧ n.power = [] := by
    unfold pointed
    cases n.fraction <;> simp
  have hsize := length_signed_body negative n
  have hsplit := split_signed negative hcons hc
  have hhead := head_signed negative hcons hc
  have happend := signed_append negative n.body rest
  revert hsplit hhead happend
  generalize signed negative (n.body ++ rest) = s
  intro hsplit hhead happend
  have hdrop : s.drop ((if negative then 1 else 0) + n.whole.length + (pointed n.fraction).length
      + n.power.length) = rest := by
    rw [happend, List.drop_left' hsize]
  have hnonempty : s.length ≠ 0 := by
    rw [happend, List.length_append]
    omega
  have hlt : rest.length < s.length := by
    rw [happend, List.length_append]
    omega
  unfold scalar
  split
  case h_7 =>
    split
    rename_i heq
    cases hsplit.symm.trans heq
    refine ⟨⟨rest, hlt⟩, rfl, ?_⟩
    simp only [hint, hfraction, ← hpointed, hpower, hwhole, hdrop, hplain, hnonempty, dite_false]
  all_goals
    rcases hhead _ _ rfl with hdigit | ⟨hminus, x, more, hmore, hdigit⟩
    · exact absurd hdigit (by decide)
    · cases hmore
      first | exact absurd hminus (by decide) | exact absurd hdigit (by decide)

/-! ## §2. Integers. -/

theorem toList_toString (i : Int) :
    (toString i).toList = signed (decide (i < 0)) (Nat.toDigits 10 i.natAbs) := by
  rw [Int.toString_eq_repr]
  cases i with
  | ofNat n =>
    show n.repr.toList = _
    rw [Nat.toList_repr]
    rfl
  | negSucc n =>
    rw [decide_eq_true (Int.negSucc_lt_zero n)]
    show ("-" ++ (n + 1).repr).toList = '-' :: Nat.toDigits 10 (n + 1)
    rw [String.toList_append, Nat.toList_repr]
    simp

theorem isDigit_of_mem_toDigits {k : Nat} {c : Char} (hc : c ∈ Nat.toDigits 10 k) :
    c.isDigit = true :=
  Nat.isDigit_of_mem_toDigits (by decide) (by decide) hc

/-- Digits alone. -/
theorem proper_toDigits (k : Nat) : Spelling.Proper ⟨Nat.toDigits 10 k, [], []⟩ where
  digits := fun c hc => isDigit_of_mem_toDigits (List.append_nil _ ▸ hc)
  whole := by
    rcases Nat.eq_zero_or_pos k with hzero | hpos
    · left
      rw [hzero]
      exact Nat.toDigits_zero 10
    · exact .inr ⟨Nat.toDigits_ne_nil, Numeral.head?_toDigits_ne_zero hpos⟩
  power := .inl rfl

/-- Integers that are no longer than an integer may be are read as they were. -/
theorem scalar_toString {i : Int} {rest : List Char} (hi : i.natAbs < 10 ^ Numeral.maxDigits)
    (hrest : Ends rest) :
    ∃ r : Shorter ((toString i).toList ++ rest), r.1 = rest ∧
      scalar ((toString i).toList ++ rest) = .ok (.int i, r) := by
  have short : (Nat.toDigits 10 i.natAbs).length ≤ Numeral.maxDigits :=
    (Nat.length_toDigits_le_iff (by decide) (by decide)).2 hi
  have text : (toString i).toList ++ rest = signed (decide (i < 0))
      ((⟨Nat.toDigits 10 i.natAbs, [], []⟩ : Spelling).body ++ rest) := by
    rw [toList_toString, signed_append]
    simp [Spelling.body, pointed]
  obtain ⟨r, hr, hread⟩ := scalar_spelling (decide (i < 0)) (proper_toDigits i.natAbs) hrest
  rw [text]
  refine ⟨r, hr, ?_⟩
  rw [hread, if_pos ⟨rfl, rfl⟩, if_neg (Nat.not_lt.2 short)]
  have value : (if decide (i < 0) = true then -(i.natAbs : Int) else i.natAbs) = i := by
    by_cases hneg : i < 0
    · rw [if_pos (decide_eq_true hneg)]
      omega
    · rw [if_neg (by simpa using hneg)]
      omega
  simp only [Numeral.digitsValue_toDigits, value]

/-! ## §3. Digits of one value. -/

namespace Spelling

/-- The digits of a numeral as a number. -/
def digits (n : Spelling) : Nat := Numeral.digitsValue (n.whole ++ n.fraction)

/-- The power of ten that the digits are multiplied with. -/
def exponent (n : Spelling) : Int := (Numeral.readExponent? n.power).getD 0 - n.fraction.length

end Spelling

theorem digitsValue_append (a b : List Char) :
    Numeral.digitsValue (a ++ b) =
      Numeral.digitsValue a * 10 ^ b.length + Numeral.digitsValue b := by
  simp only [Numeral.digitsValue_eq]
  rw [Nat.ofDigitChars_append, Nat.ofDigitChars_eq_ofDigitChars_zero, Nat.mul_comm]

theorem digitsValue_replicate (k : Nat) : Numeral.digitsValue (List.replicate k '0') = 0 := by
  rw [Numeral.digitsValue_eq, Nat.ofDigitChars_replicate_zero, Nat.mul_zero]

/-- Zeros in front of digits change nothing. -/
theorem digitsValue_zeros_append (zeros : Nat) (digits : List Char) :
    Numeral.digitsValue (List.replicate zeros '0' ++ digits) = Numeral.digitsValue digits := by
  rw [digitsValue_append, digitsValue_replicate, Nat.zero_mul, Nat.zero_add]

/-- An exponent as a scientific notation writes it. -/
def exponentDigits (k : Int) : List Char :=
  List.replicate (2 - (Nat.toDigits 10 k.natAbs).length) '0' ++ Nat.toDigits 10 k.natAbs

theorem isDigit_of_mem_exponentDigits {k : Int} {c : Char} (hc : c ∈ exponentDigits k) :
    c.isDigit = true := by
  rcases List.mem_append.1 hc with hzero | hdigit
  · rw [List.eq_of_mem_replicate hzero]
    rfl
  · exact isDigit_of_mem_toDigits hdigit

theorem exponentDigits_ne_nil (k : Int) : exponentDigits k ≠ [] := by
  intro h
  exact Nat.toDigits_ne_nil (List.append_eq_nil_iff.1 h).2

theorem readExponent?_exponentDigits (k : Int) :
    Numeral.readExponent? ('e' :: (if k < 0 then '-' else '+') :: exponentDigits k) = some k := by
  have digits : (exponentDigits k).all Char.isDigit = true :=
    List.all_eq_true.2 fun c hc => isDigit_of_mem_exponentDigits hc
  have nonempty : (exponentDigits k).isEmpty = false := by
    simpa using exponentDigits_ne_nil k
  have value : Numeral.digitsValue (exponentDigits k) = k.natAbs := by
    rw [exponentDigits, digitsValue_zeros_append, Numeral.digitsValue_toDigits]
  by_cases hneg : k < 0
  · rw [if_pos hneg]
    simp [Numeral.readExponent?, Numeral.splitSign, digits, nonempty, value, abs_of_neg hneg]
  · rw [if_neg hneg]
    simp [Numeral.readExponent?, Numeral.splitSign, digits, nonempty, value]
    omega

/-! ## §4. Layouts. -/

/-- A numeral that shows a decimal: at least one character says that it is no integer, and its
digits have the value of the decimal. -/
structure Spelling.Shows (n : Spelling) (x : Binary64.Decimal) : Prop where
  proper : n.Proper
  fractional : ¬(n.fraction = [] ∧ n.power = [])
  value : (n.digits * 10 ^ n.exponent : ℚ) = x.coefficient * 10 ^ x.exponent
  short : n.digits < 2 ^ 200

/-- The digits of a number that count, and the zeros behind them. -/
structure Significant (sig : List Char) (zeros c : Nat) : Prop where
  digits : ∀ d ∈ sig, d.isDigit = true
  nonempty : sig ≠ []
  head : sig.head? ≠ some '0'
  value : Numeral.digitsValue sig * 10 ^ zeros = c

/-- The digits of a positive number are its significant digits, and zeros. -/
theorem exists_significant {c : Nat} (hc : 0 < c) :
    ∃ zeros, Significant (Binary64.significantDigits c) zeros c ∧
      (Nat.toDigits 10 c).length = (Binary64.significantDigits c).length + zeros := by
  let last := (Nat.toDigits 10 c).reverse.takeWhile (· == '0')
  have split : Nat.toDigits 10 c =
      ((Nat.toDigits 10 c).reverse.dropWhile (· == '0')).reverse ++ last.reverse := by
    rw [← List.reverse_append, List.takeWhile_append_dropWhile, List.reverse_reverse]
  have zeros : last.reverse = List.replicate last.length '0' := by
    rw [List.eq_replicate_iff]
    refine ⟨List.length_reverse, ?_⟩
    intro d hd
    have hzero := List.mem_takeWhile_imp (List.mem_reverse.1 hd)
    exact beq_iff_eq.1 hzero
  have hhead := Numeral.head?_toDigits_ne_zero hc
  have nonempty : ((Nat.toDigits 10 c).reverse.dropWhile (· == '0')).reverse ≠ [] := by
    intro hempty
    rw [hempty, List.nil_append, zeros] at split
    cases hcount : last.length with
    | zero =>
      rw [hcount] at split
      exact Nat.toDigits_ne_nil split
    | succ k =>
      rw [hcount] at split
      rw [split] at hhead
      exact hhead rfl
  have significant : Binary64.significantDigits c =
      ((Nat.toDigits 10 c).reverse.dropWhile (· == '0')).reverse := by
    unfold Binary64.significantDigits
    split
    · rename_i hempty
      exact absurd hempty nonempty
    · rfl
  rw [← significant, zeros] at split
  rw [← significant] at nonempty
  refine ⟨last.length, ⟨?_, nonempty, ?_, ?_⟩, ?_⟩
  · intro d hd
    apply isDigit_of_mem_toDigits
    rw [split]
    exact List.mem_append_left _ hd
  · rwa [split, List.head?_append_of_ne_nil _ nonempty] at hhead
  · have value := Numeral.digitsValue_toDigits c
    rw [split, digitsValue_append, digitsValue_replicate, List.length_replicate] at value
    exact value
  · have hlength := congrArg List.length split
    rwa [List.length_append, List.length_replicate] at hlength

namespace Significant

variable {sig : List Char} {zeros c : Nat} {k : Int}

/-- The value of a decimal by its significant digits. -/
theorem rational (h : Significant sig zeros c) (k : Int) :
    (Numeral.digitsValue sig * 10 ^ (k + zeros) : ℚ) = c * 10 ^ k := by
  rw [← h.value, add_comm, zpow_add₀ (by norm_num), zpow_natCast]
  push_cast
  ring

theorem digitsValue_le (h : Significant sig zeros c) (hc : c ≤ 10 ^ 17) :
    Numeral.digitsValue sig ≤ 10 ^ 17 := by
  have hle : Numeral.digitsValue sig ≤ Numeral.digitsValue sig * 10 ^ zeros :=
    Nat.le_mul_of_pos_right _ (Nat.pow_pos (by decide))
  rw [h.value] at hle
  exact le_trans hle hc

theorem length_pos (h : Significant sig zeros c) : 0 < sig.length :=
  List.length_pos_iff.2 h.nonempty

/-- The exponent of the leading digit. -/
def leading (sig : List Char) (zeros : Nat) (k : Int) : Int := k + (sig.length + zeros : Nat) - 1

/-- A numeral shows a decimal if its digits are the significant ones with zeros behind them, and its
exponent makes up for these. -/
theorem shows (h : Significant sig zeros c) (hc : c ≤ 10 ^ 17) {n : Spelling} (hproper : n.Proper)
    (hfractional : ¬(n.fraction = [] ∧ n.power = [])) (more : Nat) (hmore : more ≤ 17)
    (hdigits : n.digits = Numeral.digitsValue sig * 10 ^ more)
    (hexponent : n.exponent = k + zeros - more) : n.Shows ⟨c, k⟩ where
  proper := hproper
  fractional := hfractional
  value := by
    rw [← h.rational, hdigits, hexponent, zpow_sub₀ (by norm_num), zpow_natCast]
    push_cast
    field_simp
  short := by
    rw [hdigits]
    calc Numeral.digitsValue sig * 10 ^ more ≤ 10 ^ 17 * 10 ^ 17 :=
          Nat.mul_le_mul (h.digitsValue_le hc) (Nat.pow_le_pow_right (by decide) hmore)
      _ < 2 ^ 200 := by norm_num

/-- A decimal below one: zeros after the point, then the digits. -/
theorem shows_below_one (h : Significant sig zeros c) (hc : c ≤ 10 ^ 17)
    (hbelow : leading sig zeros k < 0) :
    Spelling.Shows ⟨['0'], List.replicate (-leading sig zeros k - 1).toNat '0' ++ sig, []⟩
      ⟨c, k⟩ := by
  have hproper : Spelling.Proper
      ⟨['0'], List.replicate (-leading sig zeros k - 1).toNat '0' ++ sig, []⟩ := by
    refine ⟨?_, .inl rfl, .inl rfl⟩
    intro d hd
    simp only [List.mem_append, List.mem_singleton, List.mem_replicate] at hd
    rcases hd with rfl | ⟨-, rfl⟩ | hd
    · rfl
    · rfl
    · exact h.digits d hd
  apply h.shows hc hproper (by simp [h.nonempty]) 0 (Nat.zero_le 17)
  · rw [Nat.pow_zero, Nat.mul_one]
    unfold Spelling.digits
    exact (digitsValue_zeros_append 1 _).trans (digitsValue_zeros_append _ sig)
  · unfold Spelling.exponent leading at *
    simp only [Numeral.readExponent?, Option.getD_some, List.length_append, List.length_replicate]
    omega

/-- A decimal of a moderate size: the point stands among the digits, or behind zeros. -/
theorem shows_positional (h : Significant sig zeros c) (hc : c ≤ 10 ^ 17)
    (hleast : 0 ≤ leading sig zeros k) (hgreatest : leading sig zeros k ≤ 15) {whole : Nat}
    (hwhole : whole = (leading sig zeros k).toNat + 1) :
    Spelling.Shows ⟨sig.take whole ++ List.replicate (whole - sig.length) '0',
      if (sig.drop whole).isEmpty then ['0'] else sig.drop whole, []⟩ ⟨c, k⟩ := by
  have hhead : (sig.take whole ++ List.replicate (whole - sig.length) '0').head? ≠ some '0' := by
    have head := h.head
    cases hsig : sig with
    | nil => exact absurd hsig h.nonempty
    | cons d rest =>
      rw [hsig] at head
      rw [hwhole]
      exact head
  have hne : sig.take whole ++ List.replicate (whole - sig.length) '0' ≠ [] := by
    cases hsig : sig with
    | nil => exact absurd hsig h.nonempty
    | cons d rest =>
      rw [hwhole]
      exact List.cons_ne_nil _ _
  have hproper : Spelling.Proper ⟨sig.take whole ++ List.replicate (whole - sig.length) '0',
      if (sig.drop whole).isEmpty then ['0'] else sig.drop whole, []⟩ := by
    refine ⟨?_, .inr ⟨hne, hhead⟩, .inl rfl⟩
    intro d hd
    simp only [List.mem_append, List.mem_replicate] at hd
    rcases hd with (hd | ⟨-, rfl⟩) | hd
    · exact h.digits d (List.mem_of_mem_take hd)
    · rfl
    · split at hd
      · rw [List.mem_singleton.1 hd]
        rfl
      · exact h.digits d (List.mem_of_mem_drop hd)
  have hlength := h.length_pos
  by_cases hlong : sig.length ≤ whole
  · rw [List.drop_eq_nil_of_le hlong, List.take_of_length_le hlong] at hproper ⊢
    apply h.shows hc hproper (by simp) (whole - sig.length + 1) (by omega)
    · show Numeral.digitsValue ((sig ++ List.replicate (whole - sig.length) '0') ++ ['0']) = _
      rw [digitsValue_append, digitsValue_append, digitsValue_replicate, List.length_replicate,
        Nat.add_zero, Nat.pow_succ, ← Nat.mul_assoc]
      rfl
    · unfold Spelling.exponent leading at *
      simp [Numeral.readExponent?]
      omega
  · have hdrop : (sig.drop whole).isEmpty = false := by
      simp
      omega
    rw [hdrop, show whole - sig.length = 0 by omega] at hproper ⊢
    apply h.shows hc hproper (by simp; omega) 0 (Nat.zero_le 17)
    · unfold Spelling.digits
      simp
    · unfold Spelling.exponent leading at *
      simp [Numeral.readExponent?]
      omega

/-- A very large or very small decimal: one digit in front of the point, and an exponent. -/
theorem shows_scientific (h : Significant sig zeros c) (hc : c ≤ 10 ^ 17) :
    Spelling.Shows ⟨sig.take 1, sig.drop 1, 'e' :: (if leading sig zeros k < 0 then '-' else '+') ::
      exponentDigits (leading sig zeros k)⟩ ⟨c, k⟩ := by
  have hsplit : ∃ d rest, sig = d :: rest := List.exists_cons_of_ne_nil h.nonempty
  have hproper : Spelling.Proper ⟨sig.take 1, sig.drop 1,
      'e' :: (if leading sig zeros k < 0 then '-' else '+') :: exponentDigits (leading sig zeros k)⟩ := by
    refine ⟨?_, .inr ?_, .inr ⟨_, _, ?_, exponentDigits_ne_nil _, ?_, rfl⟩⟩
    · intro d hd
      rw [List.take_append_drop] at hd
      exact h.digits d hd
    · have head := h.head
      obtain ⟨d, rest, rfl⟩ := hsplit
      exact ⟨List.cons_ne_nil _ _, head⟩
    · split
      · exact .inr rfl
      · exact .inl rfl
    · exact fun d hd => isDigit_of_mem_exponentDigits hd
  have hlength := h.length_pos
  apply h.shows hc hproper (by simp) 0 (Nat.zero_le 17)
  · unfold Spelling.digits
    rw [List.take_append_drop, Nat.pow_zero, Nat.mul_one]
  · unfold Spelling.exponent
    dsimp only
    rw [readExponent?_exponentDigits, Option.getD_some, List.length_drop]
    unfold leading
    omega

end Significant

/-- **Whatever the notation**, a positive decimal is written as a numeral that shows it. -/
theorem exists_spelling {x : Binary64.Decimal} (hpos : 0 < x.coefficient)
    (hshort : x.coefficient ≤ 10 ^ 17) :
    ∃ n : Spelling, n.Shows x ∧ Binary64.shortestLayout.write x = n.body := by
  obtain ⟨zeros, h, hlength⟩ := exists_significant hpos
  unfold Binary64.Layout.write
  dsimp only
  rw [if_neg hpos.ne', hlength]
  revert h
  generalize Binary64.significantDigits x.coefficient = sig
  intro h
  rw [show x.exponent + ((sig.length + zeros : Nat) : Int) - 1 = Significant.leading sig zeros x.exponent
    from rfl]
  split
  · rename_i hrange
    rw [Bool.and_eq_true] at hrange
    split
    · rename_i hbelow
      refine ⟨_, h.shows_below_one hshort hbelow, ?_⟩
      simp [Spelling.body, pointed, h.nonempty]
    · rename_i hleast
      refine ⟨_, h.shows_positional hshort (not_lt.1 hleast) (of_decide_eq_true hrange.2) rfl, ?_⟩
      simp only [Spelling.body, pointed]
      cases hdrop : (sig.drop ((Significant.leading sig zeros x.exponent).toNat + 1)).isEmpty with
      | true => simp [Binary64.shortestLayout]
      | false => simp [hdrop]
  · refine ⟨_, h.shows_scientific hshort, ?_⟩
    have hone : sig.length = 1 ↔ (sig.drop 1).isEmpty = true := by
      have := h.length_pos
      rw [List.isEmpty_iff, List.drop_eq_nil_iff]
      omega
    simp only [Spelling.body, pointed, hone, exponentDigits]
    simp

/-! ## §5. Binary64 numbers. -/

theorem toList_withSign (negative : Bool) (text : List Char) :
    (Binary64.withSign negative text).toList = signed negative text := by
  cases negative <;> simp [Binary64.withSign, signed]

/-- A numeral that is no integer is read as a binary64 number. -/
theorem scalar_real {n : Spelling} {rest : List Char} (negative : Bool) (h : n.Proper)
    (hfractional : ¬(n.fraction = [] ∧ n.power = [])) (hrest : Ends rest) :
    ∃ r : Shorter (signed negative (n.body ++ rest)), r.1 = rest ∧
      scalar (signed negative (n.body ++ rest)) =
        .ok (.real (Binary64.ofDecimal negative n.digits n.exponent), r) := by
  obtain ⟨r, hr, hread⟩ := scalar_spelling negative h hrest
  rw [if_neg hfractional] at hread
  exact ⟨r, hr, hread⟩

/-- The zeros are written with a point. -/
theorem proper_zero : Spelling.Proper ⟨['0'], ['0'], []⟩ where
  digits := by simp
  whole := .inl rfl
  power := .inl rfl

/-- A finite number is written as a numeral that is no integer, and whose digits mean the number. -/
theorem exists_writeReal (negative : Bool) {m : Nat} {e : Int} (h : Binary64.Canonical m e) :
    ∃ n : Spelling, n.Proper ∧ ¬(n.fraction = [] ∧ n.power = []) ∧
      (writeReal (.finite negative m e)).toList = signed negative n.body ∧
      Binary64.ofDecimal negative n.digits n.exponent = .finite negative m e := by
  have text {n : Spelling}
      (htext : Binary64.shortestLayout.write (Binary64.shortestDigits m e) = n.body) :
      (writeReal (.finite negative m e)).toList = signed negative n.body := by
    rw [← htext]
    exact toList_withSign negative _
  rcases Nat.eq_zero_or_pos m with rfl | hm
  · have hmin : e = Binary64.minExponent := h.full.resolve_left (by decide)
    refine ⟨⟨['0'], ['0'], []⟩, proper_zero, by decide, text ?_, ?_⟩
    · rw [Binary64.shortestDigits, if_pos rfl]
      decide
    · rw [hmin]
      rfl
  · have spells := Binary64.shortestDigits_spells h hm
    obtain ⟨n, hshows, htext⟩ := exists_spelling spells.positive spells.short
    refine ⟨n, hshows.proper, hshows.fractional, text htext, ?_⟩
    exact Binary64.ofDecimal_congr (Binary64.lt_two_pow_of_le_ten_pow spells.short) hshows.short
      spells.reach hshows.value.symm spells.reads

/-- **Binary64 numbers** are read as they were. -/
theorem scalar_writeReal {x : Binary64} {rest : List Char} (hx : x.Sound) (hrest : Ends rest) :
    ∃ r : Shorter ((writeReal x).toList ++ rest), r.1 = rest ∧
      scalar ((writeReal x).toList ++ rest) = .ok (.real x, r) := by
  cases x with
  | nan => exact ⟨_, rfl, rfl⟩
  | infinite negative => cases negative <;> exact ⟨_, rfl, rfl⟩
  | finite negative m e =>
    obtain ⟨n, hproper, hfractional, htext, hread⟩ := exists_writeReal negative hx
    rw [htext, ← signed_append, ← hread]
    exact scalar_real negative hproper hfractional hrest

end PromptForms.Json
