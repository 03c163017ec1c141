/-
  PromptForms.Calendar.Date
  ─────────────────────────
  **CALENDAR DATES.**

  A date is a day of the Gregorian calendar in the years 1 to 9999; days that do not
  exist cannot be written down.  Dates are counted from 1 January of the year 1, which
  is day 1, and every reading of a date goes through that count or through `ofNumbers?`.

      Date              a day that exists
      ordinal           its number
      ofOrdinal?        the day of a number
      Date.toText       `YYYY-MM-DD`
      ofIsoText?        the calendar and week forms of the international standard
-/

namespace PromptForms.Calendar

/-! ## §1. Days that exist. -/

/-- A year with a 29 February. -/
def isLeap (year : Nat) : Bool :=
  year % 4 == 0 && (year % 100 != 0 || year % 400 == 0)

/-- The number of days of a month; zero if there is no such month. -/
def daysInMonth (year month : Nat) : Nat :=
  match month with
  | 1 | 3 | 5 | 7 | 8 | 10 | 12 => 31
  | 4 | 6 | 9 | 11 => 30
  | 2 => if isLeap year then 29 else 28
  | _ => 0

/-- The numbers of a day that exists. -/
def exists? (year month day : Nat) : Bool :=
  1 ≤ year && year ≤ 9999 && 1 ≤ day && day ≤ daysInMonth year month

/-- A day of the Gregorian calendar in the years 1 to 9999. -/
structure Date where
  year : Nat
  month : Nat
  day : Nat
  valid : exists? year month day = true
  deriving DecidableEq

/-- The date of three numbers, if the day exists. -/
def Date.ofNumbers? (year month day : Nat) : Option Date :=
  if h : exists? year month day = true then some ⟨year, month, day, h⟩ else none

theorem Date.ofNumbers?_self (d : Date) : Date.ofNumbers? d.year d.month d.day = some d := by
  simp [Date.ofNumbers?, d.valid]

/-! ## §2. Counting days. -/

/-- The days before 1 January of a year. -/
def daysBeforeYear (year : Nat) : Nat :=
  let y := year - 1
  y * 365 + y / 4 - y / 100 + y / 400

/-- The days of a year before a month. -/
def daysBeforeMonth (year month : Nat) : Nat :=
  (List.range (month - 1)).foldl (fun days m => days + daysInMonth year (m + 1)) 0

/-- The number of a day; 1 January of the year 1 is day 1. -/
def ordinalOf (year month day : Nat) : Nat :=
  daysBeforeYear year + daysBeforeMonth year month + day

/-- The number of a date. -/
def Date.ordinal (d : Date) : Nat := ordinalOf d.year d.month d.day

/-- The month and day of the day after `days` days of a year, from the given months on. -/
def monthAndDay (year : Nat) : (months : List Nat) → (days : Nat) → Nat × Nat
  | [], days => (13, days + 1)
  | month :: rest, days =>
    let size := daysInMonth year month
    if days < size then (month, days + 1) else monthAndDay year rest (days - size)

/-- The year, month and day of a positive day number.  Four centuries, one century, four years
and one year are split off in turn; the last day of a long cycle stays in its last part. -/
def civil (ordinal : Nat) : Nat × Nat × Nat :=
  let n := ordinal - 1
  let q400 := n / 146097
  let n := n % 146097
  let q100 := min (n / 36524) 3
  let n := n - q100 * 36524
  let q4 := n / 1461
  let n := n % 1461
  let q1 := min (n / 365) 3
  let n := n - q1 * 365
  let year := q400 * 400 + q100 * 100 + q4 * 4 + q1 + 1
  let (month, day) := monthAndDay year (List.range' 1 12) n
  (year, month, day)

/-- The date of a day number, if it is in the years 1 to 9999. -/
def Date.ofOrdinal? (ordinal : Nat) : Option Date :=
  if ordinal = 0 then none
  else let (y, m, d) := civil ordinal; Date.ofNumbers? y m d

/-! ## §3. Weeks. -/

/-- The day of the week of a day number, 0 for Monday. -/
def weekday (ordinal : Nat) : Nat := (ordinal + 6) % 7

/-- The number of the Monday of the first week of a year: the week that holds 4 January.
It may lie in the year before, so the count is shifted by seven days. -/
def firstMondayShifted (year : Nat) : Nat :=
  let newYear := ordinalOf year 1 1
  let offset := weekday newYear
  if 3 < offset then newYear + 7 - offset + 7 else newYear - offset + 7

/-- A year with 53 weeks starts on a Thursday, or on a Wednesday if it is a leap year. -/
def hasWeek53 (year : Nat) : Bool :=
  let first := weekday (ordinalOf year 1 1)
  first == 3 || (first == 2 && isLeap year)

/-- The date of a day of a week, if the year has that week. -/
def Date.ofWeek? (year week day : Nat) : Option Date :=
  let weekExists := 1 ≤ week && (week ≤ 52 || (week == 53 && hasWeek53 year))
  if 1 ≤ year && year ≤ 9999 && weekExists && 1 ≤ day && day ≤ 7 then
    Date.ofOrdinal? (firstMondayShifted year + (week - 1) * 7 + (day - 1) - 7)
  else none

/-! ## §4. Texts. -/

/-- The decimal digits of a number, filled with zeros to a width. -/
def padded (width n : Nat) : String :=
  let digits := Nat.toDigits 10 n
  String.ofList (List.replicate (width - digits.length) '0' ++ digits)

/-- The form `YYYY-MM-DD`. -/
def Date.toText (d : Date) : String :=
  s!"{padded 4 d.year}-{padded 2 d.month}-{padded 2 d.day}"

/-- The value of a list of ASCII digits; none if another character is among them. -/
def digits? (cs : List Char) : Option Nat :=
  if cs.all Char.isDigit then
    some (cs.foldl (fun n c => n * 10 + (c.toNat - '0'.toNat)) 0)
  else none

/-- The value of decimal digits, if there are so many of them and nothing else. -/
def numeral? (width : Nat) (cs : List Char) : Option Nat :=
  if cs.length = width then digits? cs else none

/-- A text of no octets or of two octets. -/
def emptyOrTwoOctets (cs : List Char) : Bool :=
  cs.isEmpty || (String.ofList cs).utf8ByteSize == 2

/-- Reads a date in one of the forms `YYYY-MM-DD`, `YYYYMMDD`, `YYYY-Www-D`, `YYYYWwwD`,
`YYYY-Www` and `YYYYWww`; a week without day means its Monday.  A form with neither dash may be
followed by two octets, which fill it up to the width of a form with dashes and are not read. -/
def Date.ofIsoText? (text : String) : Option Date :=
  afterYear (text.toList.take 4) (text.toList.drop 4)
where
  /-- A year, a month and a day. -/
  day (y m d : List Char) : Option Date := do
    Date.ofNumbers? (← numeral? 4 y) (← numeral? 2 m) (← numeral? 2 d)
  /-- A year, a week and a day of the week. -/
  week (y w d : List Char) : Option Date := do
    Date.ofWeek? (← numeral? 4 y) (← numeral? 2 w) (← numeral? 1 d)
  /-- A year and what follows it. -/
  afterYear (y : List Char) : List Char → Option Date
    | '-' :: 'W' :: rest =>
      match rest.drop 2 with
      | [] => week y (rest.take 2) ['1']
      | '-' :: d => week y (rest.take 2) d
      | _ => none
    | 'W' :: rest =>
      match rest.drop 2 with
      | [] => week y (rest.take 2) ['1']
      | d :: filling => if emptyOrTwoOctets filling then week y (rest.take 2) [d] else none
    | '-' :: rest =>
      match rest.drop 2 with
      | '-' :: d => day y (rest.take 2) d
      | _ => none
    | rest =>
      if emptyOrTwoOctets (rest.drop 4) then day y (rest.take 2) ((rest.drop 2).take 2) else none

end PromptForms.Calendar
