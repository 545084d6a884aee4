/-
**Points in time as text.**

* `Text.timestamp`: date and time of day of a number of seconds since 1970.
-/

namespace Gatehouse.Text

/-- A number with at least so many digits. -/
def padNumber (width value : Nat) : String :=
  let digits := Nat.toDigits 10 value
  String.ofList (List.replicate (width - digits.length) '0' ++ digits)

/-- Year, month and day of a number of days since 1970. The year is taken to begin in March, so that
the day that leap years add is its last. -/
def dateOf (days : Nat) : Nat × Nat × Nat :=
  let shifted := days + 719468
  let era := shifted / 146097
  let dayOfEra := shifted % 146097
  let yearOfEra := (dayOfEra - dayOfEra / 1460 + dayOfEra / 36524 - dayOfEra / 146096) / 365
  let dayOfYear := dayOfEra - (365 * yearOfEra + yearOfEra / 4 - yearOfEra / 100)
  let monthFromMarch := (5 * dayOfYear + 2) / 153
  let day := dayOfYear - (153 * monthFromMarch + 2) / 5 + 1
  let month := if monthFromMarch < 10 then monthFromMarch + 3 else monthFromMarch - 9
  let year := yearOfEra + era * 400
  (if month ≤ 2 then year + 1 else year, month, day)

/-- Date and time of day of a number of seconds since 1970. -/
def timestamp (seconds : Nat) : String :=
  let (year, month, day) := dateOf (seconds / 86400)
  let time := seconds % 86400
  padNumber 4 year ++ "-" ++ padNumber 2 month ++ "-" ++ padNumber 2 day ++ "T" ++
    padNumber 2 (time / 3600) ++ ":" ++ padNumber 2 (time / 60 % 60) ++ ":" ++
    padNumber 2 (time % 60) ++ "+00:00"

end Gatehouse.Text
