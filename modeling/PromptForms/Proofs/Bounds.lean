/-
  PromptForms.Proofs.Bounds
  ─────────────────────────
  **NUMBERS AND THEIR LIMITS.**

  A number field compares what it reads with its limits, integers of any size and binary64
  numbers alike, and refuses a number that is below the one or above the other.  The
  comparison is that of the values.  What is no number has no value, so it is neither below
  nor above anything, and passes every limit.

      Number.value?     the value of a number, a rational number or an infinity
      Number.Le         one value is at most another
      Field.Admits      the limits of a field hold for a number

  Main results:
    • Number.lt_iff            the comparison is that of the values
    • checkNumber_eq_ok_iff    what passes: the numbers within the limits, and what is no number
    • readInt_toString         an integer is read from its decimal text
    • numbers_bounded          which numbers a field accepts
    • unbounded_nan            what is no number is accepted by a field with limits
-/
import Mathlib.Order.WithBot
import PromptForms.Proofs.Acceptance

namespace PromptForms

open Intake

/-! ## §1. Values. -/

/-- The rational numbers with an infinity at each end. -/
abbrev Extended := WithBot (WithTop ℚ)

/-- A rational number among the extended ones. -/
def Extended.ofRat (q : ℚ) : Extended := ((q : WithTop ℚ) : WithBot (WithTop ℚ))

/-- The value of a binary64 number; none for what is no number. -/
def Binary64.value? : Binary64 → Option Extended
  | .finite negative m e => some (Extended.ofRat (signed negative m * 2 ^ e))
  | .infinite negative => some (if negative then ⊥ else ⊤)
  | .nan => none

/-- The value of a number. -/
def Number.value? : Number → Option Extended
  | .int i => some (Extended.ofRat i)
  | .real x => x.value?

/-- One number is at most another; neither holds of what is no number. -/
def Number.Le (a b : Number) : Prop :=
  ∃ x y, a.value? = some x ∧ b.value? = some y ∧ x ≤ y

theorem Extended.ofRat_lt_ofRat {p q : ℚ} : Extended.ofRat p < Extended.ofRat q ↔ p < q := by
  unfold ofRat
  rw [WithBot.coe_lt_coe, WithTop.coe_lt_coe]

theorem Extended.ofRat_lt_top (q : ℚ) : Extended.ofRat q < ⊤ := by
  unfold ofRat
  rw [← WithBot.coe_top, WithBot.coe_lt_coe]
  exact WithTop.coe_lt_top q

theorem Extended.bot_lt_ofRat (q : ℚ) : ⊥ < Extended.ofRat q := WithBot.bot_lt_coe _

/-- Scaled numbers are compared as what they denote. -/
theorem Binary64.scaledLt_iff (m e n f : Int) :
    scaledLt m e n f = true ↔ (m : ℚ) * 2 ^ e < n * 2 ^ f := by
  -- Both sides in units of the smaller power.
  have scaled : ∀ (k g : Int), min e f ≤ g →
      (k : ℚ) * 2 ^ g = (k * Int.pow 2 (g - min e f).toNat : Int) * 2 ^ min e f := by
    intro k g hg
    have hsplit : g = ((g - min e f).toNat : Int) + min e f := by omega
    conv_lhs => rw [hsplit, zpow_add₀ two_ne_zero, zpow_natCast]
    rw [Int.pow_eq]
    push_cast
    ring
  have hunit : (0 : ℚ) < 2 ^ min e f := by positivity
  rw [scaled m e (min_le_left e f), scaled n f (min_le_right e f), mul_lt_mul_iff_left₀ hunit,
    Int.cast_lt]
  unfold scaledLt
  rw [decide_eq_true_iff]

theorem Binary64.value?_eq_none {x : Binary64} : x.value? = none ↔ x = .nan := by
  cases x <;> simp [value?]

theorem Number.value?_eq_none {n : Number} : n.value? = none ↔ n = .real .nan := by
  cases n with
  | int i => simp [value?]
  | real x => simp [value?, Binary64.value?_eq_none]

/-- **The order of numbers** is that of their values. -/
theorem Number.lt_iff (a b : Number) :
    a.lt b = true ↔ ∃ x y, a.value? = some x ∧ b.value? = some y ∧ x < y := by
  have whole (i : Int) : Extended.ofRat i = Extended.ofRat ((i : ℚ) * 2 ^ (0 : Int)) := by simp
  cases a with
  | int i =>
    cases b with
    | int j =>
      simp [lt, value?, Extended.ofRat_lt_ofRat]
    | real y =>
      cases y with
      | finite s m e =>
        simp [lt, value?, Binary64.value?, whole i, Extended.ofRat_lt_ofRat, Binary64.scaledLt_iff]
      | infinite s =>
        cases s <;> simp [lt, value?, Binary64.value?, Extended.ofRat_lt_top]
      | nan => simp [lt, value?, Binary64.value?]
  | real x =>
    cases x with
    | finite s m e =>
      cases b with
      | int j =>
        simp [lt, value?, Binary64.value?, whole j, Extended.ofRat_lt_ofRat, Binary64.scaledLt_iff]
      | real y =>
        cases y with
        | finite t n f =>
          simp [lt, Binary64.lt, value?, Binary64.value?, Extended.ofRat_lt_ofRat,
            Binary64.scaledLt_iff]
        | infinite t =>
          cases t <;> simp [lt, Binary64.lt, value?, Binary64.value?, Extended.ofRat_lt_top]
        | nan => simp [lt, Binary64.lt, value?, Binary64.value?]
    | infinite s =>
      cases b with
      | int j =>
        cases s <;> simp [lt, value?, Binary64.value?, Extended.bot_lt_ofRat]
      | real y =>
        cases y with
        | finite t n f =>
          cases s <;> simp [lt, Binary64.lt, value?, Binary64.value?, Extended.bot_lt_ofRat]
        | infinite t =>
          cases s <;> cases t <;> simp [lt, Binary64.lt, value?, Binary64.value?]
        | nan => simp [lt, Binary64.lt, value?, Binary64.value?]
    | nan =>
      cases b <;> simp [lt, Binary64.lt, value?, Binary64.value?]

/-- Of two numbers with values, one is not below the other exactly if it is at least as great. -/
theorem Number.lt_eq_false_iff {a b : Number} (ha : a ≠ .real .nan) (hb : b ≠ .real .nan) :
    a.lt b = false ↔ b.Le a := by
  obtain ⟨x, hx⟩ := Option.ne_none_iff_exists'.1 (mt value?_eq_none.1 ha)
  obtain ⟨y, hy⟩ := Option.ne_none_iff_exists'.1 (mt value?_eq_none.1 hb)
  rw [← Bool.not_eq_true, lt_iff, Le]
  simp [hx, hy]

theorem Number.lt_nan (a : Number) : a.lt (.real .nan) = false := by
  rw [← Bool.not_eq_true, lt_iff]
  simp [value?, Binary64.value?]

theorem Number.nan_lt (b : Number) : Number.lt (.real .nan) b = false := by
  rw [← Bool.not_eq_true, lt_iff]
  simp [value?, Binary64.value?]

theorem Number.not_le_nan (a : Number) : ¬a.Le (.real .nan) := by
  simp [Le, value?, Binary64.value?]

theorem Number.not_nan_le (b : Number) : ¬Number.Le (.real .nan) b := by
  simp [Le, value?, Binary64.value?]

/-! ## §2. Limits. -/

/-- The limits hold for a number. -/
structure Rules.Admits (rules : Rules) (n : Number) : Prop where
  least : ∀ least, rules.least = some least → Number.Le (.real least) n
  greatest : ∀ greatest, rules.greatest = some greatest → Number.Le n (.real greatest)

/-- The limits are numbers. -/
structure Rules.Comparable (rules : Rules) : Prop where
  least : rules.least ≠ some .nan
  greatest : rules.greatest ≠ some .nan

/-- The limits of a field hold for a number. -/
def Field.Admits (f : Field) (n : Number) : Prop := ∀ rules, f.rules = some rules → rules.Admits n

/-- The limits of a field are numbers. -/
def Field.Comparable (f : Field) : Prop := ∀ rules, f.rules = some rules → rules.Comparable

/-- The field has no limits. -/
def Field.Unlimited (f : Field) : Prop :=
  ∀ rules, f.rules = some rules → rules.least = none ∧ rules.greatest = none

section

variable {f : Field} {n : Number}

/-- Only a field without limits admits what is no number. -/
theorem Field.admits_nan_iff : f.Admits (.real .nan) ↔ f.Unlimited := by
  constructor
  · intro h rules hrules
    obtain ⟨hleast, hgreatest⟩ := h rules hrules
    constructor
    · cases hl : rules.least with
      | none => rfl
      | some least => exact absurd (hleast least hl) (Number.not_le_nan _)
    · cases hg : rules.greatest with
      | none => rfl
      | some greatest => exact absurd (hgreatest greatest hg) (Number.not_nan_le _)
  · intro h rules hrules
    obtain ⟨hleast, hgreatest⟩ := h rules hrules
    constructor
    · intro least hl
      rw [hleast] at hl
      cases hl
    · intro greatest hg
      rw [hgreatest] at hg
      cases hg

/-- The check of a number asks for each limit whether it is missed. -/
theorem checkNumber_eq_ok :
    checkNumber f n = .ok () ↔ ∀ rules, f.rules = some rules →
      (∀ least, rules.least = some least → n.lt (.real least) = false) ∧
      ∀ greatest, rules.greatest = some greatest → Number.lt (.real greatest) n = false := by
  unfold checkNumber
  cases f.rules with
  | none => simp [pure, Except.pure]
  | some rules =>
    obtain ⟨least?, greatest?, pattern?, message⟩ := rules
    cases least? with
    | none =>
      cases greatest? with
      | none => simp [pure, Except.pure]
      | some greatest =>
        cases hg : Number.lt (.real greatest) n <;> simp [hg, reject, pure, Except.pure]
    | some least =>
      cases hl : n.lt (.real least) with
      | true => simp [hl, reject, bind, Except.bind]
      | false =>
        cases greatest? with
        | none => simp [hl, pure, Except.pure]
        | some greatest =>
          cases hg : Number.lt (.real greatest) n <;> simp [hl, hg, reject, pure, Except.pure]

/-- What passes the check: the numbers within the limits, and what is no number. -/
theorem checkNumber_eq_ok_iff (hlimits : f.Comparable) :
    checkNumber f n = .ok () ↔ f.Admits n ∨ n = .real .nan := by
  rw [checkNumber_eq_ok]
  by_cases hnan : n = .real .nan
  -- No limit is missed by what is below nothing and above nothing.
  · subst hnan
    simp [Number.nan_lt, Number.lt_nan]
  · rw [or_iff_left hnan]
    refine forall_congr' fun rules => forall_congr' fun hrules => ?_
    have hleast : ∀ least, rules.least = some least → Number.real least ≠ .real .nan := by
      rintro least hl ⟨⟩
      exact (hlimits rules hrules).least hl
    have hgreatest : ∀ greatest, rules.greatest = some greatest →
        Number.real greatest ≠ .real .nan := by
      rintro greatest hg ⟨⟩
      exact (hlimits rules hrules).greatest hg
    constructor
    · rintro ⟨hl, hg⟩
      constructor
      · intro least h
        exact (Number.lt_eq_false_iff hnan (hleast least h)).1 (hl least h)
      · intro greatest h
        exact (Number.lt_eq_false_iff (hgreatest greatest h) hnan).1 (hg greatest h)
    · rintro ⟨hl, hg⟩
      constructor
      · intro least h
        exact (Number.lt_eq_false_iff hnan (hleast least h)).2 (hl least h)
      · intro greatest h
        exact (Number.lt_eq_false_iff (hgreatest greatest h) hnan).2 (hg greatest h)

end

/-! ## §3. Integers in texts. -/

namespace Numeral

/-- A text without underscores has none to remove. -/
theorem dropSeparators_eq_self {cs : List Char} (h : '_' ∉ cs) : dropSeparators cs = some cs := by
  suffices ∀ afterDigit, dropSeparators.go afterDigit cs = some cs from this false
  induction cs with
  | nil => exact fun _ => rfl
  | cons c rest ih =>
    intro afterDigit
    rw [List.mem_cons, not_or] at h
    rw [dropSeparators.go.eq_3 _ _ _ fun hc => h.1 hc.symm, ih h.2]
    rfl

theorem splitSign_signed {digits : List Char} (negative : Bool)
    (hdigits : ∀ c ∈ digits, c.isDigit = true) (hne : digits ≠ []) :
    splitSign (Json.signed negative digits) = (negative, digits) := by
  obtain ⟨c, rest, rfl⟩ := List.exists_cons_of_ne_nil hne
  cases negative with
  | true => rfl
  | false =>
    have hc := hdigits c List.mem_cons_self
    show splitSign (c :: rest) = (false, c :: rest)
    unfold splitSign
    split
    · rename_i heq
      cases heq
      cases hc
    · rename_i heq
      cases heq
      cases hc
    · rfl

/-- Digits, perhaps after a minus sign, stand in a text that is looked at as it is. -/
theorem core_signed {digits : List Char} (negative : Bool)
    (hdigits : ∀ c ∈ digits, c.isDigit = true) :
    core (String.ofList (Json.signed negative digits)) = Json.signed negative digits := by
  have plain : ∀ c ∈ Json.signed negative digits,
      c.toNat < 128 ∧ Text.isAsciiSpace c = false := by
    intro c hc
    have hcases : c = '-' ∨ c.isDigit = true := by
      cases negative with
      | true => exact (List.mem_cons.1 hc).imp_right (hdigits c)
      | false => exact .inr (hdigits c hc)
    rcases hcases with rfl | hdigit
    · decide
    · have bounds := toNat_of_isDigit hdigit
      have hspace : c ≠ ' ' := by
        rintro rfl
        cases hdigit
      refine ⟨by omega, ?_⟩
      simp [Text.isAsciiSpace, hspace]
      omega
  unfold core unified
  rw [String.toList_ofList, if_pos (by simpa using fun c hc => (plain c hc).1)]
  exact Text.trimBy_eq_self (fun c hc => (plain c (List.mem_of_head? hc)).2)
    fun c hc => (plain c (List.mem_of_getLast? hc)).2

/-- An integer that is no longer than an integer may be is read from its decimal text. -/
theorem readInt_toString {i : Int} (hi : (toString i.natAbs).length ≤ maxDigits) :
    readInt (toString i) = .value i := by
  have hdigits : ∀ c ∈ Nat.toDigits 10 i.natAbs, c.isDigit = true :=
    fun c hc => Json.isDigit_of_mem_toDigits hc
  have hlength : (Nat.toDigits 10 i.natAbs).length ≤ maxDigits := by
    rw [← Nat.toList_repr]
    exact hi
  have htext : toString i =
      String.ofList (Json.signed (decide (i < 0)) (Nat.toDigits 10 i.natAbs)) := by
    rw [← Json.toList_toString, String.ofList_toList]
  have hseparators : '_' ∉ Nat.toDigits 10 i.natAbs := by
    intro h
    cases hdigits _ h
  unfold readInt
  rw [htext, core_signed _ hdigits, splitSign_signed _ hdigits Nat.toDigits_ne_nil]
  simp only [dropSeparators_eq_self hseparators]
  rw [if_neg (by simpa [Nat.toDigits_ne_nil] using hdigits), if_neg (Nat.not_lt.2 hlength),
    digitsValue_toDigits]
  congr 1
  by_cases hneg : i < 0
  · rw [if_pos (decide_eq_true hneg)]
    omega
  · rw [if_neg (by simpa using hneg)]
    omega

end Numeral

/-- The decimal text of an integer is not blank. -/
theorem Intake.isEmpty_toString (i : Int) : isEmpty (.str (toString i)) = false := by
  have hne : Nat.toDigits 10 i.natAbs ≠ [] := Nat.toDigits_ne_nil
  obtain ⟨c, rest, hcons⟩ := List.exists_cons_of_ne_nil hne
  have hdigit : c.isDigit = true := Json.isDigit_of_mem_toDigits (hcons ▸ List.mem_cons_self)
  have bounds := Numeral.toNat_of_isDigit hdigit
  have hblank := Text.isBlank_eq_false (c := c) (by omega) (by omega)
  have hmem : c ∈ (toString i).toList := by
    rw [Json.toList_toString, hcons]
    unfold Json.signed
    split <;> simp
  show (toString i).toList.all Text.isBlank = false
  rw [List.all_eq_false]
  exact ⟨c, hmem, by simp [hblank]⟩

/-! ## §4. Fields for numbers. -/

section

variable {f : Field} {raw : Json}

theorem Intake.readNumber_eq_ok {v : Value} : readNumber f raw = .ok v ↔
    ∃ n, numberOf? raw = some n ∧ checkNumber f n = .ok () ∧ v = .number n := by
  unfold readNumber
  cases hn : numberOf? raw with
  | none => simp [reject]
  | some n =>
    cases hcheck : checkNumber f n with
    | error e => simp [hcheck, bind, Except.bind]
    | ok u => simp [hcheck, bind, Except.bind, pure, Except.pure, eq_comm]

/-- A field for numbers keeps the number that it finds, if that passes the check. -/
theorem Field.read_number (htype : f.type = .number) {v : Value} :
    f.read raw = .ok (some v) ↔ isEmpty raw = false ∧
      ∃ n, numberOf? raw = some n ∧ checkNumber f n = .ok () ∧ v = .number n := by
  cases hempty : isEmpty raw with
  | true =>
    rw [read_of_isEmpty hempty]
    cases f.required <;> simp
  | false =>
    unfold Field.read
    simp only [hempty, htype, Bool.false_eq_true, if_false, true_and, map_some_eq_ok,
      readNumber_eq_ok]

end

/-- **Numbers within their limits.**  A field for numbers whose limits are numbers accepts the values
that show a number, if the number is within the limits or is no number at all; it keeps that number.
So what it keeps respects the limits, except for what is no number in a field with a limit.  Every
integer within the limits is accepted, as a number and as its decimal text if that is no longer
than the text of an integer may be. -/
theorem numbers_bounded {f : Field} (htype : f.type = .number) (hlimits : f.Comparable) :
    (∀ raw v, f.read raw = .ok (some v) ↔ isEmpty raw = false ∧
      ∃ n, numberOf? raw = some n ∧ (f.Admits n ∨ n = .real .nan) ∧ v = .number n) ∧
    (∀ raw n, f.read raw = .ok (some (.number n)) →
      (f.Admits n ↔ n ≠ .real .nan ∨ f.Unlimited)) ∧
    ∀ i : Int, f.Admits (.int i) →
      f.read (.int i) = .ok (some (.number (.int i))) ∧
      ((toString i.natAbs).length ≤ Numeral.maxDigits →
        f.read (.str (toString i)) = .ok (some (.number (.int i)))) := by
  have accepted : ∀ raw v, f.read raw = .ok (some v) ↔ isEmpty raw = false ∧
      ∃ n, numberOf? raw = some n ∧ (f.Admits n ∨ n = .real .nan) ∧ v = .number n := by
    intro raw v
    simp only [Field.read_number htype, checkNumber_eq_ok_iff hlimits]
  refine ⟨accepted, ?_, ?_⟩
  · intro raw n h
    obtain ⟨-, m, -, hm, heq⟩ := (accepted raw _).1 h
    cases heq
    constructor
    · intro hadmits
      by_cases hnan : n = .real .nan
      · exact .inr (Field.admits_nan_iff.1 (hnan ▸ hadmits))
      · exact .inl hnan
    · rintro (hnumber | hfree)
      · exact hm.resolve_right hnumber
      · rcases hm with hm | rfl
        · exact hm
        · exact Field.admits_nan_iff.2 hfree
  · intro i hi
    constructor
    · exact (accepted _ _).2 ⟨rfl, .int i, rfl, .inl hi, rfl⟩
    · intro hlength
      have hread : numberOf? (.str (toString i)) = some (.int i) := by
        show Numeral.read? (toString i) = _
        unfold Numeral.read?
        rw [Numeral.readInt_toString hlength]
      exact (accepted _ _).2 ⟨isEmpty_toString i, .int i, hread, .inl hi, rfl⟩

/-- A rating from 1 to 10. -/
def Bounds.rating : Field :=
  { id := "rating", type := .number, label := "Rating"
    rules := some { least := some (.ofRatio false 1 1), greatest := some (.ofRatio false 10 1) } }

theorem Bounds.rating_comparable : rating.Comparable := by
  rintro _ ⟨⟩
  constructor <;> decide +kernel

theorem Bounds.rating_admits_seven : rating.Admits (.int 7) := by
  rintro _ ⟨⟩
  constructor
  · rintro _ ⟨⟩
    exact (Number.lt_eq_false_iff (by decide +kernel) (by decide +kernel)).1 (by decide +kernel)
  · rintro _ ⟨⟩
    exact (Number.lt_eq_false_iff (by decide +kernel) (by decide +kernel)).1 (by decide +kernel)

theorem numbers_bounded_rating :
    Bounds.rating.read (.int 7) = .ok (some (.number (.int 7))) ∧
      Bounds.rating.read (.str (toString (7 : Int))) = .ok (some (.number (.int 7))) := by
  obtain ⟨plain, spelled⟩ :=
    (numbers_bounded rfl Bounds.rating_comparable).2.2 7 Bounds.rating_admits_seven
  exact ⟨plain, spelled (by decide)⟩

/-- **A number beyond its limits.**  A field with limits that are numbers accepts the text `nan`: what
that shows is neither below the one limit nor above the other, but it is not between them either. -/
theorem unbounded_nan :
    Bounds.rating.type = .number ∧ Bounds.rating.Comparable ∧
      Bounds.rating.read (.str "nan") = .ok (some (.number (.real .nan))) ∧
      ¬Bounds.rating.Admits (.real .nan) := by
  refine ⟨rfl, Bounds.rating_comparable, by rfl, ?_⟩
  rw [Field.admits_nan_iff]
  intro h
  cases (h _ rfl).1

end PromptForms
