/-
  PromptForms.Calendar.Instant
  ────────────────────────────
  **POINTS IN TIME.**

  Rows record when they were made, changed and processed.  A point in time is a
  number of microseconds since 1 January 1970, 0:00 UTC, and is shown in UTC.

      Instant           a point in time
      Instant.rowText   as rows show it, `…+00:00`
      Instant.webText   as answers show it, `…Z`
      Instant.ofText?   reads a text of either kind
      startOfDay        the midnight at or before it
-/
import PromptForms.Calendar.Date

namespace PromptForms.Calendar

/-- A point in time, in microseconds since 1 January 1970, 0:00 UTC. -/
structure Instant where
  micros : Int
  deriving DecidableEq, Repr, Inhabited

namespace Instant

/-- The microseconds of a day. -/
def dayMicros : Int := 86400000000

/-- The day number of 1 January 1970. -/
def epochDay : Int := 719163

/-- A point in time given by its second. -/
def ofSeconds (seconds : Int) : Instant := ⟨seconds * 1000000⟩

/-- The midnight at or before a point in time. -/
def startOfDay (t : Instant) : Instant := ⟨t.micros.fdiv dayMicros * dayMicros⟩

/-- The number of the day in UTC. -/
def ordinal (t : Instant) : Nat := (t.micros.fdiv dayMicros + epochDay).toNat

/-- Date and time in UTC; a fraction of a second is shown with six digits if there is one. -/
def baseText (t : Instant) : String :=
  let (y, m, d) := civil t.ordinal
  let rest := (t.micros.fmod dayMicros).toNat
  let second := rest / 1000000
  let fraction := rest % 1000000
  s!"{padded 4 y}-{padded 2 m}-{padded 2 d}T" ++
    s!"{padded 2 (second / 3600)}:{padded 2 (second / 60 % 60)}:{padded 2 (second % 60)}" ++
    (if fraction = 0 then "" else s!".{padded 6 fraction}")

/-- As rows show it. -/
def rowText (t : Instant) : String := t.baseText ++ "+00:00"

/-- As answers show it. -/
def webText (t : Instant) : String := t.baseText ++ "Z"

/-- The microseconds of a fraction of a second: none, or a point and up to six digits. -/
def fraction? : List Char → Option Nat
  | [] => some 0
  | '.' :: ds =>
    if ds.isEmpty || 6 < ds.length then none
    else (digits? ds).map fun n => n * Nat.pow 10 (6 - ds.length)
  | _ => none

/-- The minutes by which a text is ahead of UTC, and the text without them. -/
def splitOffset? (cs : List Char) : Option (Int × List Char) :=
  match cs.reverse with
  | 'Z' :: front => some (0, front.reverse)
  | m2 :: m1 :: ':' :: h2 :: h1 :: sign :: front =>
    if sign == '+' || sign == '-' then
      (digits? [h1, h2]).bind fun h => (digits? [m1, m2]).map fun m =>
        let minutes : Int := h * 60 + m
        (if sign == '-' then -minutes else minutes, front.reverse)
    else some (0, cs)
  | _ => some (0, cs)

/-- The time of a day in microseconds: `HH:MM:SS` and a fraction. -/
def timeOfDay? : List Char → Option Nat
  | h1 :: h2 :: ':' :: m1 :: m2 :: ':' :: s1 :: s2 :: rest => do
    let h ← digits? [h1, h2]
    let m ← digits? [m1, m2]
    let s ← digits? [s1, s2]
    let f ← fraction? rest
    if h < 24 && m < 60 && s < 60 then some (((h * 60 + m) * 60 + s) * 1000000 + f) else none
  | _ => none

/-- Reads a date, a `T` or a blank, a time of day and the distance from UTC. -/
def ofText? (text : String) : Option Instant := do
  let cs := text.toList
  let date ← Date.ofIsoText? (String.ofList (cs.take 10))
  let (ahead, time) ← splitOffset? (cs.drop 11)
  let micros ← timeOfDay? time
  if (cs[10]?).any (fun c => c == 'T' || c == ' ') then
    some ⟨((date.ordinal : Int) - epochDay) * dayMicros + micros - ahead * 60000000⟩
  else none

end Instant

end PromptForms.Calendar
