/-
  PromptForms.Proofs.Dates
  ────────────────────────
  **DATES AS TEXTS.**

  A date is written in ten characters, with zeros in front of its numbers.  The lenient
  reading of stored values, which also takes points in time and counts of seconds, finds
  in that text the date and nothing else.

  Main results:
    • digits?_padded          the digits of a number that fits its width spell it
    • lenientDate_toText      a date that is written is read as it was
-/
import PromptForms.Calendar.LenientDate
import PromptForms.Proofs.Numerals

namespace PromptForms.Calendar

/-! ## §1. Numbers of fixed width. -/

section

variable {width n : Nat}

theorem length_padded (hw : 0 < width) (hn : n < 10 ^ width) :
    (padded width n).toList.length = width := by
  have short : (Nat.toDigits 10 n).length ≤ width :=
    (Nat.length_toDigits_le_iff (by decide) hw).2 hn
  simp only [padded, String.toList_ofList, List.length_append, List.length_replicate]
  omega

theorem isDigit_of_mem_padded {c : Char} (h : c ∈ (padded width n).toList) : c.isDigit = true := by
  simp only [padded, String.toList_ofList, List.mem_append] at h
  rcases h with hzero | hdigit
  · rw [List.eq_of_mem_replicate hzero]
    rfl
  · exact Nat.isDigit_of_mem_toDigits (by decide) (by decide) hdigit

/-- The digits of a number spell it, with or without zeros in front. -/
theorem digits?_padded (width n : Nat) : digits? (padded width n).toList = some n := by
  have digits : (padded width n).toList.all Char.isDigit = true :=
    List.all_eq_true.2 fun c hc => isDigit_of_mem_padded hc
  have value : Numeral.digitsValue (padded width n).toList = n := by
    simp only [padded, String.toList_ofList]
    rw [Numeral.digitsValue_eq, Nat.ofDigitChars_append, Nat.ofDigitChars_replicate_zero,
      Nat.mul_zero, Nat.ofDigitChars_ten_toDigits]
  unfold digits?
  rw [if_pos digits]
  exact congrArg some value

end

section

variable {cs before after : List Char} {start : Nat}

/-- A field of a text that holds a number of its width. -/
theorem field_eq_ok {width n : Nat} (reason : String) (hw : 0 < width) (hn : n < 10 ^ width)
    (hcs : cs = before ++ ((padded width n).toList ++ after)) (hstart : before.length = start) :
    field cs start width reason = .ok n := by
  have part : (cs.drop start).take width = (padded width n).toList := by
    rw [hcs, ← hstart, List.drop_left, List.take_left' (length_padded hw hn)]
  have digits : (padded width n).toList.all Char.isDigit = true :=
    List.all_eq_true.2 fun c hc => isDigit_of_mem_padded hc
  unfold field
  simp only [part, length_padded hw hn, digits, digits?_padded]
  rfl

theorem separator_eq_ok {c : Char} (reason : String) (hcs : cs = before ++ c :: after)
    (hstart : before.length = start) : separator cs start [c] reason = .ok () := by
  unfold separator
  rw [hcs, ← hstart, List.getElem?_append_right (Nat.le_refl _), Nat.sub_self,
    List.getElem?_cons_zero]
  simp

end

/-! ## §2. Dates. -/

/-- Every character takes at least one octet. -/
theorem length_le_utf8ByteSize (cs : List Char) : cs.length ≤ (String.ofList cs).utf8ByteSize := by
  induction cs with
  | nil => exact Nat.zero_le _
  | cons c rest ih =>
    rw [String.ofList_cons, String.utf8ByteSize_append, String.utf8ByteSize_singleton,
      List.length_cons]
    have := c.utf8Size_pos
    omega

theorem daysInMonth_le (year month : Nat) : daysInMonth year month ≤ 31 := by
  unfold daysInMonth
  split
  case h_12 => split <;> decide
  all_goals decide

/-- Only the months 1 to 12 have days. -/
theorem month_of_daysInMonth_pos {year month : Nat} (h : 0 < daysInMonth year month) :
    1 ≤ month ∧ month ≤ 12 := by
  unfold daysInMonth at h
  split at h
  case h_13 => cases h
  all_goals decide

/-- The numbers of a date lie in their ranges and fit their widths. -/
structure Date.InRange (d : Date) : Prop where
  year : d.year < 10 ^ 4
  month : 1 ≤ d.month ∧ d.month ≤ 12
  day : 1 ≤ d.day ∧ d.day ≤ daysInMonth d.year d.month

theorem Date.inRange (d : Date) : d.InRange := by
  have valid := d.valid
  simp only [exists?, Bool.and_eq_true, decide_eq_true_eq] at valid
  obtain ⟨⟨⟨-, hyear⟩, hday⟩, hday'⟩ := valid
  exact ⟨by omega, month_of_daysInMonth_pos (by omega : 0 < daysInMonth d.year d.month), hday, hday'⟩

theorem Date.InRange.month_lt {d : Date} (h : d.InRange) : d.month < 10 ^ 2 := by
  have := h.month
  omega

theorem Date.InRange.day_lt {d : Date} (h : d.InRange) : d.day < 10 ^ 2 := by
  have := h.day
  have := daysInMonth_le d.year d.month
  omega

/-- The characters of a date. -/
theorem Date.toList_toText (d : Date) :
    d.toText.toList = (padded 4 d.year).toList ++
      '-' :: ((padded 2 d.month).toList ++ '-' :: (padded 2 d.day).toList) := by
  show (padded 4 d.year ++ "-" ++ padded 2 d.month ++ "-" ++ padded 2 d.day).toList = _
  simp

theorem Date.length_toText (d : Date) : d.toText.toList.length = 10 := by
  rw [d.toList_toText, List.length_append, List.length_cons, List.length_append, List.length_cons,
    length_padded (by decide) d.inRange.year, length_padded (by decide) d.inRange.month_lt,
    length_padded (by decide) d.inRange.day_lt]

/-- The numbers of a date are read from its text. -/
theorem dateFields_toText (d : Date) :
    dateFields d.toText.toList = .ok (d.year, d.month, d.day) := by
  have hyear := length_padded (by decide) d.inRange.year
  have hmonth := length_padded (by decide) d.inRange.month_lt
  have long : 10 ≤ d.toText.utf8ByteSize := by
    have := length_le_utf8ByteSize d.toText.toList
    rwa [d.length_toText, String.ofList_toList] at this
  -- Where each part stands in the text.
  have atYear : d.toText.toList = [] ++ ((padded 4 d.year).toList ++
      '-' :: ((padded 2 d.month).toList ++ '-' :: (padded 2 d.day).toList)) := d.toList_toText
  have atMonth : d.toText.toList = ((padded 4 d.year).toList ++ ['-']) ++
      ((padded 2 d.month).toList ++ '-' :: (padded 2 d.day).toList) := by
    rw [d.toList_toText]
    simp
  have atSecond : d.toText.toList = ((padded 4 d.year).toList ++ '-' :: (padded 2 d.month).toList) ++
      '-' :: (padded 2 d.day).toList := by
    rw [d.toList_toText]
    simp
  have atDay : d.toText.toList =
      ((padded 4 d.year).toList ++ '-' :: ((padded 2 d.month).toList ++ ['-'])) ++
        ((padded 2 d.day).toList ++ []) := by
    rw [d.toList_toText]
    simp
  unfold dateFields
  rw [field_eq_ok _ (by decide) d.inRange.year atYear List.length_nil,
    separator_eq_ok _ d.toList_toText hyear,
    field_eq_ok _ (by decide) d.inRange.month_lt atMonth (by simp [hyear]),
    separator_eq_ok _ atSecond (by simp [hyear, hmonth]),
    field_eq_ok _ (by decide) d.inRange.day_lt atDay (by simp [hyear, hmonth])]
  simp [inRange, long, d.inRange.month, d.inRange.day, bind, Except.bind, pure, Except.pure]

/-- A date that is written is read as it was. -/
theorem lenientDate_toText (d : Date) : lenientDate (.str d.toText) = .good d := by
  show dateOfText d.toText = .good d
  unfold dateOfText
  simp only [dateFields_toText, d.length_toText]
  show dateOfFields (d.year, d.month, d.day) = .good d
  unfold dateOfFields
  simp only [Date.ofNumbers?_self]

end PromptForms.Calendar
