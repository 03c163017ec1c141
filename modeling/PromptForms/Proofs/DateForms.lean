/-
  PromptForms.Proofs.DateForms
  ────────────────────────────
  **WHICH TEXTS ARE DATES.**

  A field for dates asks for `YYYY-MM-DD` and is content with every form of the standard that
  its reader knows: a day of a month or a day of a week, with dashes or without them, and a
  week without a day, which stands for its Monday.  The date is kept and the form is not, so
  what a template receives is the text that was entered only if that had the first form.

      Spells       a number in so many digits
      Dashed       the form that is asked for
      Shows        the forms that are read

  Main results:
    • Spells.unique             a number is written in so many digits in one way
    • dashed_iff                the form that is asked for is the one dates are written in
    • ofIsoText?_eq_some_iff    which texts are read as which date
    • dates_accepted            which values a field for dates accepts, and what becomes of them
    • undashed_date             a date in another form is accepted and changed
-/
import PromptForms.Proofs.Dates
import PromptForms.Proofs.Acceptance

namespace PromptForms.Calendar

/-! ## §1. Numbers in so many digits. -/

/-- A number written in so many digits. -/
structure Spells (width : Nat) (cs : List Char) (n : Nat) : Prop where
  length : cs.length = width
  value : digits? cs = some n

section

variable {width n : Nat} {cs cs' : List Char}

theorem digits?_eq_some_iff : digits? cs = some n ↔
    (∀ c ∈ cs, c.isDigit = true) ∧ Nat.ofDigitChars 10 cs 0 = n := by
  rw [← Numeral.digitsValue_eq]
  unfold digits?
  split
  · rename_i h
    rw [List.all_eq_true] at h
    exact ⟨fun heq => ⟨h, Option.some.inj heq⟩, fun heq => congrArg some heq.2⟩
  · rename_i h
    rw [List.all_eq_true] at h
    exact ⟨nofun, fun heq => absurd heq.1 h⟩

theorem Spells.isDigit (h : Spells width cs n) : ∀ c ∈ cs, c.isDigit = true :=
  (digits?_eq_some_iff.1 h.value).1

/-- The value of digits says which digits they are, if it is known how many there are. -/
theorem ofDigitChars_injective {as bs : List Char} (hlength : as.length = bs.length)
    (ha : ∀ c ∈ as, c.isDigit = true) (hb : ∀ c ∈ bs, c.isDigit = true) {k l : Nat}
    (h : Nat.ofDigitChars 10 as k = Nat.ofDigitChars 10 bs l) : k = l ∧ as = bs := by
  induction as generalizing bs k l with
  | nil =>
    rw [List.length_eq_zero_iff.1 hlength.symm] at h ⊢
    exact ⟨h, rfl⟩
  | cons a as ih =>
    obtain ⟨b, bs, rfl⟩ := List.exists_cons_of_length_pos (l := bs) (hlength ▸ Nat.succ_pos _)
    obtain ⟨aspelled, asmall⟩ := Numeral.digitChar_of_isDigit (ha a List.mem_cons_self)
    obtain ⟨bspelled, bsmall⟩ := Numeral.digitChar_of_isDigit (hb b List.mem_cons_self)
    rw [Nat.ofDigitChars_cons, Nat.ofDigitChars_cons] at h
    -- The digits after the first start from a value that ends in the first.
    obtain ⟨hvalue, rfl⟩ := ih (Nat.succ.inj hlength) (fun c hc => ha c (List.mem_cons_of_mem a hc))
      (fun c hc => hb c (List.mem_cons_of_mem b hc)) h
    have hdigit : a.toNat - '0'.toNat = b.toNat - '0'.toNat := by omega
    refine ⟨by omega, ?_⟩
    rw [← aspelled, ← bspelled, hdigit]

theorem spells_padded (hw : 0 < width) (hn : n < 10 ^ width) :
    Spells width (padded width n).toList n :=
  ⟨length_padded hw hn, digits?_padded width n⟩

/-- A number is written in so many digits in one way. -/
theorem Spells.unique (h : Spells width cs n) (h' : Spells width cs' n) : cs = cs' := by
  obtain ⟨hdigits, hvalue⟩ := digits?_eq_some_iff.1 h.value
  obtain ⟨hdigits', hvalue'⟩ := digits?_eq_some_iff.1 h'.value
  exact (ofDigitChars_injective (h.length.trans h'.length.symm) hdigits hdigits'
    (hvalue.trans hvalue'.symm)).2

end

/-! ## §2. Forms. -/

/-- The form `YYYY-MM-DD` of a date. -/
inductive Dashed : List Char → Date → Prop where
  | intro {y m n : List Char} {d : Date} : Spells 4 y d.year → Spells 2 m d.month →
      Spells 2 n d.day → Dashed (y ++ '-' :: (m ++ '-' :: n)) d

/-- The forms of a date. -/
inductive Shows : List Char → Date → Prop where
  /-- The form `YYYY-MM-DD`. -/
  | dashed {cs : List Char} {d : Date} : Dashed cs d → Shows cs d
  /-- The form `YYYYMMDD`, perhaps with two octets that are not read. -/
  | plain {y m n rest : List Char} {d : Date} : Spells 4 y d.year → Spells 2 m d.month →
      Spells 2 n d.day → emptyOrTwoOctets rest = true → Shows (y ++ (m ++ (n ++ rest))) d
  /-- The form `YYYY-Www-D`. -/
  | dashedWeekday {y w k : List Char} {year week day : Nat} {d : Date} : Spells 4 y year →
      Spells 2 w week → Spells 1 k day → Date.ofWeek? year week day = some d →
      Shows (y ++ '-' :: 'W' :: (w ++ '-' :: k)) d
  /-- The form `YYYY-Www`. -/
  | dashedWeek {y w : List Char} {year week : Nat} {d : Date} : Spells 4 y year →
      Spells 2 w week → Date.ofWeek? year week 1 = some d → Shows (y ++ '-' :: 'W' :: w) d
  /-- The form `YYYYWwwD`, perhaps with two octets that are not read. -/
  | plainWeekday {y w k rest : List Char} {year week day : Nat} {d : Date} : Spells 4 y year →
      Spells 2 w week → Spells 1 k day → Date.ofWeek? year week day = some d →
      emptyOrTwoOctets rest = true → Shows (y ++ 'W' :: (w ++ (k ++ rest))) d
  /-- The form `YYYYWww`. -/
  | plainWeek {y w : List Char} {year week : Nat} {d : Date} : Spells 4 y year →
      Spells 2 w week → Date.ofWeek? year week 1 = some d → Shows (y ++ 'W' :: w) d

/-- The form that is asked for is the one in which dates are written. -/
theorem dashed_iff {cs : List Char} {d : Date} : Dashed cs d ↔ cs = d.toText.toList := by
  have hyear := spells_padded (by decide) d.inRange.year
  have hmonth := spells_padded (by decide) d.inRange.month_lt
  have hday := spells_padded (by decide) d.inRange.day_lt
  rw [d.toList_toText]
  constructor
  · rintro ⟨hy, hm, hn⟩
    rw [hy.unique hyear, hm.unique hmonth, hn.unique hday]
  · rintro rfl
    exact .intro hyear hmonth hday

section

variable {y m n w k : List Char} {d : Date}

theorem Date.ofNumbers?_eq_some_iff {year month day : Nat} :
    Date.ofNumbers? year month day = some d ↔ year = d.year ∧ month = d.month ∧ day = d.day := by
  constructor
  · intro h
    unfold Date.ofNumbers? at h
    split at h
    · cases h
      exact ⟨rfl, rfl, rfl⟩
    · cases h
  · rintro ⟨rfl, rfl, rfl⟩
    exact d.ofNumbers?_self

theorem numeral?_eq_some_iff {width v : Nat} {cs : List Char} :
    numeral? width cs = some v ↔ Spells width cs v := by
  unfold numeral?
  split
  case isTrue hlength => exact ⟨fun h => ⟨hlength, h⟩, Spells.value⟩
  case isFalse hlength => exact ⟨nofun, fun h => absurd h.length hlength⟩

theorem day_eq_some_iff : Date.ofIsoText?.day y m n = some d ↔
    Spells 4 y d.year ∧ Spells 2 m d.month ∧ Spells 2 n d.day := by
  unfold Date.ofIsoText?.day
  simp only [bind, Option.bind_eq_some_iff, Date.ofNumbers?_eq_some_iff, numeral?_eq_some_iff]
  constructor
  · rintro ⟨_, hy, _, hm, _, hn, rfl, rfl, rfl⟩
    exact ⟨hy, hm, hn⟩
  · rintro ⟨hy, hm, hn⟩
    exact ⟨_, hy, _, hm, _, hn, rfl, rfl, rfl⟩

theorem week_eq_some_iff : Date.ofIsoText?.week y w k = some d ↔
    ∃ year week day, Spells 4 y year ∧ Spells 2 w week ∧ Spells 1 k day ∧
      Date.ofWeek? year week day = some d := by
  unfold Date.ofIsoText?.week
  simp only [bind, Option.bind_eq_some_iff, numeral?_eq_some_iff]
  constructor
  · rintro ⟨year, hy, week, hw, day, hk, h⟩
    exact ⟨year, week, day, hy, hw, hk, h⟩
  · rintro ⟨year, week, day, hy, hw, hk, h⟩
    exact ⟨year, hy, week, hw, day, hk, h⟩

/-- The number of a Monday. -/
theorem spells_monday : Spells 1 ['1'] 1 := ⟨rfl, rfl⟩

theorem Spells.monday {v : Nat} (h : Spells 1 ['1'] v) : v = 1 :=
  Option.some.inj (h.value.symm.trans spells_monday.value)

/-- Every text that is read is in one of the forms. -/
theorem Shows.of_ofIsoText? {s : String} (h : Date.ofIsoText? s = some d) : Shows s.toList d := by
  unfold Date.ofIsoText? at h
  -- The text is put together again from the parts that the reader cut it into.
  rw [← List.take_append_drop 4 s.toList]
  generalize s.toList.take 4 = y at h ⊢
  generalize s.toList.drop 4 = after at h ⊢
  unfold Date.ofIsoText?.afterYear at h
  split at h
  case h_1 rest =>
    rw [← List.take_append_drop 2 rest]
    generalize rest.take 2 = w at h ⊢
    generalize rest.drop 2 = tail at h ⊢
    split at h
    case h_1 =>
      obtain ⟨year, week, day, hy, hw, hk, hd⟩ := week_eq_some_iff.1 h
      rw [List.append_nil]
      exact .dashedWeek hy hw (hk.monday ▸ hd)
    case h_2 =>
      obtain ⟨year, week, day, hy, hw, hk, hd⟩ := week_eq_some_iff.1 h
      exact .dashedWeekday hy hw hk hd
    case h_3 => cases h
  case h_2 rest =>
    rw [← List.take_append_drop 2 rest]
    generalize rest.take 2 = w at h ⊢
    generalize rest.drop 2 = tail at h ⊢
    split at h
    case h_1 =>
      obtain ⟨year, week, day, hy, hw, hk, hd⟩ := week_eq_some_iff.1 h
      rw [List.append_nil]
      exact .plainWeek hy hw (hk.monday ▸ hd)
    case h_2 =>
      split at h
      case isTrue hfilling =>
        obtain ⟨year, week, day, hy, hw, hk, hd⟩ := week_eq_some_iff.1 h
        exact .plainWeekday hy hw hk hd hfilling
      case isFalse => cases h
  case h_3 rest _ =>
    rw [← List.take_append_drop 2 rest]
    generalize rest.take 2 = m at h ⊢
    generalize rest.drop 2 = tail at h ⊢
    split at h
    case h_1 =>
      obtain ⟨hy, hm, hn⟩ := day_eq_some_iff.1 h
      exact .dashed (.intro hy hm hn)
    case h_2 => cases h
  case h_4 =>
    split at h
    case isTrue hfilling =>
      obtain ⟨hy, hm, hn⟩ := day_eq_some_iff.1 h
      have hform := Shows.plain hy hm hn hfilling
      have htail : (after.drop 2).drop 2 = after.drop 4 := List.drop_drop
      rwa [← htail, List.take_append_drop, List.take_append_drop] at hform
    case isFalse => cases h

theorem Spells.two {cs : List Char} {v : Nat} (h : Spells 2 cs v) : ∃ a b, cs = [a, b] :=
  List.length_eq_two.1 h.length

theorem Spells.one {cs : List Char} {v : Nat} (h : Spells 1 cs v) : ∃ a, cs = [a] :=
  List.length_eq_one_iff.1 h.length

/-- Every text in one of the forms is read. -/
theorem Shows.ofIsoText?_eq {s : String} (h : Shows s.toList d) : Date.ofIsoText? s = some d := by
  generalize hs : s.toList = cs at h
  unfold Date.ofIsoText?
  rw [hs]
  -- No digit is a dash or a `W`, so each text is in one form only.
  have noMark : ∀ c : Char, c.isDigit = true → c ≠ '-' ∧ c ≠ 'W' := by
    intro c hc
    constructor <;> rintro rfl <;> cases hc
  cases h with
  | dashed h =>
    obtain ⟨hy, hm, hn⟩ := h
    rw [List.take_left' hy.length, List.drop_left' hy.length]
    have value := day_eq_some_iff.2 ⟨hy, hm, hn⟩
    obtain ⟨f, g, rfl⟩ := hm.two
    have hf := noMark f (hm.isDigit f List.mem_cons_self)
    simpa [Date.ofIsoText?.afterYear, hf] using value
  | plain hy hm hn hfilling =>
    rw [List.take_left' hy.length, List.drop_left' hy.length]
    have value := day_eq_some_iff.2 ⟨hy, hm, hn⟩
    obtain ⟨f, g, rfl⟩ := hm.two
    obtain ⟨i, j, rfl⟩ := hn.two
    have hf := noMark f (hm.isDigit f List.mem_cons_self)
    simpa [Date.ofIsoText?.afterYear, hf, hfilling] using value
  | dashedWeekday hy hw hk hd =>
    rw [List.take_left' hy.length, List.drop_left' hy.length]
    have value := week_eq_some_iff.2 ⟨_, _, _, hy, hw, hk, hd⟩
    obtain ⟨f, g, rfl⟩ := hw.two
    exact value
  | dashedWeek hy hw hd =>
    rw [List.take_left' hy.length, List.drop_left' hy.length]
    have value := week_eq_some_iff.2 ⟨_, _, 1, hy, hw, spells_monday, hd⟩
    obtain ⟨f, g, rfl⟩ := hw.two
    exact value
  | plainWeekday hy hw hk hd hfilling =>
    rw [List.take_left' hy.length, List.drop_left' hy.length]
    have value := week_eq_some_iff.2 ⟨_, _, _, hy, hw, hk, hd⟩
    obtain ⟨f, g, rfl⟩ := hw.two
    obtain ⟨i, rfl⟩ := hk.one
    simpa [Date.ofIsoText?.afterYear, hfilling] using value
  | plainWeek hy hw hd =>
    rw [List.take_left' hy.length, List.drop_left' hy.length]
    have value := week_eq_some_iff.2 ⟨_, _, 1, hy, hw, spells_monday, hd⟩
    obtain ⟨f, g, rfl⟩ := hw.two
    exact value

/-- **The texts that are read** as dates are those in one of the forms. -/
theorem Date.ofIsoText?_eq_some_iff {s : String} :
    Date.ofIsoText? s = some d ↔ Shows s.toList d :=
  ⟨Shows.of_ofIsoText?, Shows.ofIsoText?_eq⟩

end

end PromptForms.Calendar

namespace PromptForms

open Intake Calendar

/-! ## §3. Fields for dates. -/

/-- **Dates that are accepted.**  A field for dates accepts the texts in one of the forms and keeps
the date, and refuses every other value.  All dates in the form that is asked for are accepted, and
a template receives them as they were entered; that is so of no other text. -/
theorem dates_accepted {f : Field} (htype : f.type = .date) {raw : Json}
    (hraw : isEmpty raw = false) :
    (∀ v, f.read raw = .ok (some v) ↔
      ∃ s d, raw = .str s ∧ Shows s.toList d ∧ v = .date d) ∧
    ((¬∃ s d, raw = .str s ∧ Shows s.toList d) →
      f.read raw = reject f "must be an ISO date (YYYY-MM-DD)") ∧
    (∀ s d, raw = .str s → Dashed s.toList d →
      f.read raw = .ok (some (.date d)) ∧ (Value.date d).asText = s) ∧
    ∀ s v, raw = .str s → f.read raw = .ok (some v) →
      (v.asText = s ↔ ∃ d, Dashed s.toList d) := by
  have hread : f.read raw = some <$> readDate f raw := by
    unfold Field.read
    simp only [hraw, Bool.false_eq_true, if_false, htype]
  have shown : ∀ s d, raw = .str s → Shows s.toList d → f.read raw = .ok (some (.date d)) := by
    rintro s d rfl hs
    rw [hread]
    unfold readDate
    simp only [Date.ofIsoText?_eq_some_iff.2 hs]
    rfl
  have other : (¬∃ s d, raw = .str s ∧ Shows s.toList d) →
      f.read raw = reject f "must be an ISO date (YYYY-MM-DD)" := by
    intro hno
    rw [hread]
    unfold readDate
    cases raw with
    | str s =>
      have hnone : Date.ofIsoText? s = none := by
        rw [Option.eq_none_iff_forall_ne_some]
        intro d hd
        exact hno ⟨s, d, rfl, Date.ofIsoText?_eq_some_iff.1 hd⟩
      simp only [hnone]
      rfl
    | _ => rfl
  have accepted : ∀ v, f.read raw = .ok (some v) ↔
      ∃ s d, raw = .str s ∧ Shows s.toList d ∧ v = .date d := by
    intro v
    constructor
    · intro hv
      by_cases h : ∃ s d, raw = .str s ∧ Shows s.toList d
      · obtain ⟨s, d, hs, hd⟩ := h
        rw [shown s d hs hd] at hv
        cases hv
        exact ⟨s, d, hs, hd, rfl⟩
      · rw [other h] at hv
        cases hv
    · rintro ⟨s, d, hs, hd, rfl⟩
      exact shown s d hs hd
  have written : ∀ (d : Date) (s : String), (Value.date d).asText = s ↔ Dashed s.toList d := by
    intro d s
    rw [dashed_iff, String.toList_inj]
    exact eq_comm
  refine ⟨accepted, other, ?_, ?_⟩
  · intro s d hs hd
    exact ⟨shown s d hs (.dashed hd), (written d s).2 hd⟩
  · intro s v hs hv
    obtain ⟨s', d, hs', hd, rfl⟩ := (accepted v).1 hv
    cases hs.symm.trans hs'
    constructor
    · intro h
      exact ⟨d, (written d s).1 h⟩
    · rintro ⟨e, he⟩
      have heq := (Date.ofIsoText?_eq_some_iff.2 hd).symm.trans
        (Date.ofIsoText?_eq_some_iff.2 (.dashed he))
      cases heq
      exact (written d s).2 he

/-- A field for a day. -/
def DateForms.dayField : Field := { id := "day", type := .date, label := "Day" }

/-- The first of May 2024. -/
def DateForms.mayDay : Date := ⟨2024, 5, 1, by decide⟩

theorem dates_accepted_mayDay :
    DateForms.dayField.read (.str "2024-05-01") = .ok (some (.date DateForms.mayDay)) ∧
      (Value.date DateForms.mayDay).asText = "2024-05-01" := by
  have visible : isEmpty (.str "2024-05-01") = false := by decide
  have dashed : Dashed "2024-05-01".toList DateForms.mayDay := dashed_iff.2 (by decide)
  exact (dates_accepted rfl visible).2.2.1 _ _ rfl dashed

/-- **A date without dashes** is accepted, though it does not have the form that is asked for, and a
template receives another text than was entered. -/
theorem undashed_date :
    DateForms.dayField.type = .date ∧ isEmpty (.str "20240501") = false ∧
      (¬∃ d, Dashed "20240501".toList d) ∧
      DateForms.dayField.read (.str "20240501") = .ok (some (.date DateForms.mayDay)) ∧
      (Value.date DateForms.mayDay).asText ≠ "20240501" := by
  refine ⟨rfl, by decide, ?_, rfl, by decide⟩
  rintro ⟨d, hd⟩
  have hlength := congrArg List.length (dashed_iff.1 hd)
  rw [d.length_toText] at hlength
  cases hlength

end PromptForms
