/-
  PromptForms.Calendar.LenientDate
  ────────────────────────────────
  **DATES IN STORED VALUES.**

  A stored date is `YYYY-MM-DD`.  Values written by hand are read leniently: a point
  in time that is a midnight stands for its day, and so does a number of seconds
  since 1970 (of milliseconds, if it is too large for seconds).  A point in time that
  is no midnight is refused as inexact, everything else with the first reason met.

      DateTimeText     the fields of a date and time, read with reasons
      lenientDate      a stored value to a date
-/
import PromptForms.Calendar.Date
import PromptForms.Schema.Scalar

namespace PromptForms.Calendar

open Schema

/-! ## §1. Fields of fixed width. -/

/-- A reading of a text that fails with a reason. -/
abbrev Reading (α : Type) := Except String α

/-- The value of the characters at `at` … `at + width - 1`; none of them may be anything but a
digit. -/
def field (cs : List Char) (start width : Nat) (reason : String) : Reading Nat :=
  let part := (cs.drop start).take width
  if part.length = width && part.all Char.isDigit then .ok ((digits? part).getD 0)
  else .error reason

/-- Demands one of a few characters. -/
def separator (cs : List Char) (start : Nat) (allowed : List Char) (reason : String) :
    Reading Unit :=
  match cs[start]? with
  | some c => if allowed.contains c then .ok () else .error reason
  | none => .error reason

/-- Demands that a value lies in a range. -/
def inRange (ok : Bool) (reason : String) : Reading Unit :=
  if ok then .ok () else .error reason

/-- Reads a date at the start of a text. -/
def dateFields (cs : List Char) : Reading (Nat × Nat × Nat) := do
  inRange (10 ≤ (String.ofList cs).utf8ByteSize) "input is too short"
  let year ← field cs 0 4 "invalid character in year"
  separator cs 4 ['-'] "invalid date separator, expected `-`"
  let month ← field cs 5 2 "invalid character in month"
  separator cs 7 ['-'] "invalid date separator, expected `-`"
  let day ← field cs 8 2 "invalid character in day"
  inRange (1 ≤ month && month ≤ 12) "month value is outside expected range of 1-12"
  inRange (1 ≤ day && day ≤ daysInMonth year month) "day value is outside expected range"
  return (year, month, day)

/-- Reads the seconds and their fraction after a time's minutes: whether both are zero, and what
follows. -/
def secondFields (cs : List Char) : Reading (Bool × List Char) :=
  match cs with
  | ':' :: _ => do
    let second ← field cs 1 2 "invalid character in second"
    inRange (second ≤ 59) "second value is outside expected range of 0-59"
    let rest := cs.drop 3
    let pointed := rest.head? == some '.' || rest.head? == some ','
    if pointed then
      let digits := (rest.drop 1).takeWhile Char.isDigit
      inRange (!digits.isEmpty) "second fraction is missing"
      return (second == 0 && (digits.take 6).all (· == '0'), (rest.drop 1).dropWhile Char.isDigit)
    else return (second == 0, rest)
  | _ => .ok (true, cs)

/-- Reads an offset from UTC up to the end of the text. -/
def offsetFields (cs : List Char) : Reading Unit := do
  match cs with
  | [] => return ()
  | c :: rest =>
    let rest ←
      if c == 'Z' || c == 'z' then pure rest
      else do
        inRange (['+', '-', '\u2212'].contains c) "invalid timezone sign"
        let hour ← field rest 0 2 "invalid timezone hour"
        let after := rest.drop 2
        let after := if after.head? == some ':' then after.drop 1 else after
        let minute ← field after 0 2 "invalid timezone minute"
        inRange (minute < 60) "timezone minute value is outside expected range of 0-59"
        inRange (hour < 24) "timezone offset must be less than 24 hours"
        pure (after.drop 2)
    inRange rest.isEmpty "unexpected extra characters at the end of the input"

/-- Reads a date and time; the flag says whether the time is a midnight. -/
def dateTimeFields (cs : List Char) : Reading ((Nat × Nat × Nat) × Bool) := do
  let date ← dateFields cs
  separator cs 10 ['T', 't', ' ', '_'] "invalid datetime separator, expected `T`, `t`, `_` or space"
  let time := cs.drop 11
  inRange (5 ≤ (String.ofList time).utf8ByteSize) "input is too short"
  let hour ← field time 0 2 "invalid character in hour"
  separator time 2 [':'] "invalid time separator, expected `:`"
  let minute ← field time 3 2 "invalid character in minute"
  inRange (hour ≤ 23) "hour value is outside expected range of 0-23"
  inRange (minute ≤ 59) "minute value is outside expected range of 0-59"
  let (zeroSecond, rest) ← secondFields (time.drop 5)
  offsetFields rest
  return (date, hour == 0 && minute == 0 && zeroSecond)

/-! ## §2. Seconds since 1970. -/

/-- Numbers of a greater size count milliseconds. -/
def secondsLimit : Nat := 20000000000

/-- The day of a number of seconds or milliseconds, with `exact` saying whether nothing is
left over. -/
def dayOfCount (count : Int) (exact : Bool) : Reading (Nat × Bool) := do
  let inSeconds := count.natAbs ≤ secondsLimit
  let seconds := if inSeconds then count else count.fdiv 1000
  let whole := exact && (inSeconds || count.fmod 1000 == 0)
  inRange (-11676096000 ≤ seconds) "dates before 1600 are not supported as unix timestamps"
  inRange (seconds ≤ 253402300799) "dates after 9999 are not supported as unix timestamps"
  return ((seconds.fdiv 86400 + 719163).toNat, whole && seconds.fmod 86400 == 0)

/-- The day of a count, as the outcome of a check. -/
def dateOfCount (count : Int) (exact : Bool) : Checked Date :=
  match dayOfCount count exact with
  | .error reason => .fault (.unclearDate reason)
  | .ok (ordinal, midnight) =>
    if midnight then
      match Date.ofOrdinal? ordinal with
      | some d => .good d
      | none => .fault (.unclearDate "dates after 9999 are not supported as unix timestamps")
    else .fault .inexactDate

/-- A text that shows a count: an optional sign, digits, and perhaps a point with digits.  The
flag says that the fraction is zero. -/
def countOfText? (cs : List Char) : Option (Int × Bool) :=
  let (negative, body) := Numeral.splitSign cs
  let whole := body.takeWhile Char.isDigit
  let rest := body.dropWhile Char.isDigit
  let fraction? := match rest with
    | [] => some []
    | '.' :: digits => if digits.all Char.isDigit then some digits else none
    | _ => none
  fraction?.bind fun fraction =>
    if whole.isEmpty && fraction.isEmpty then none
    else
      let n := Numeral.digitsValue whole
      let zero := fraction.all (· == '0')
      let count : Int := if negative then -(n : Int) - (if zero then 0 else 1) else n
      if count.natAbs < 0x8000000000000000 then some (count, zero) else none

/-! ## §3. Stored values. -/

/-- The date of three fields; the year 0 is none of the calendar. -/
def dateOfFields (fields : Nat × Nat × Nat) : Checked Date :=
  match Date.ofNumbers? fields.1 fields.2.1 fields.2.2 with
  | some d => .good d
  | none => .fault (.unclearDate "year value is outside expected range")

/-- Reads a text: a date, else a date and time, else a count. -/
def dateOfText (s : String) : Checked Date :=
  let cs := s.toList
  match dateFields cs with
  | .ok fields =>
    if cs.length = 10 then dateOfFields fields
    else dateTime cs
  | .error _ => dateTime cs
where
  /-- Reads a date and time, or a count. -/
  dateTime (cs : List Char) : Checked Date :=
    match dateTimeFields cs with
    | .ok (fields, midnight) => if midnight then dateOfFields fields else .fault .inexactDate
    | .error reason => match countOfText? cs with
      | some (count, exact) => dateOfCount count exact
      | none => .fault (.unclearDate reason)

/-- The microseconds of the fraction of a number of seconds, whatever its sign; half a
microsecond counts as one. -/
def microsOfFraction (significand : Nat) (exponent : Int) : Nat :=
  let (num, den) := Binary64.ratio significand exponent
  let million := Binary64.ofRatio false 1000000 1
  match (Binary64.ofRatio false (num % den) den).mul million with
  | .finite _ m e =>
    let (n, d) := Binary64.ratio m e
    (2 * n + d) / (2 * d)
  | _ => 0

/-- The date of a number of seconds or milliseconds. -/
def dateOfReal : Binary64 → Checked Date
  | .finite negative m e =>
    let (num, den) := Binary64.ratio m e
    let size : Int := num / den
    let below := if negative then (if num % den = 0 then -size else -size - 1) else size
    let micros := microsOfFraction m e
    if micros = 1000000 && below.natAbs ≤ secondsLimit then dateOfCount (below + 1) true
    else dateOfCount below (micros = 0)
  | .infinite negative => dateOfCount (if negative then -0x8000000000000000 else 0x8000000000000000) true
  | .nan => .fault (.unclearDate "NaN values not permitted")

/-- The date that a stored value means. -/
def lenientDate : Json → Checked Date
  | .str s => dateOfText s
  | .int i => if (Binary64.ofInt? i).isSome then dateOfCount i true else .fault .notDate
  | .real x => dateOfReal x
  | _ => .fault .notDate

end PromptForms.Calendar
