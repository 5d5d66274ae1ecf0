import BuildPipeline.Text.Basic

/-! Instants as calendar text in universal time, to the millisecond. -/

namespace BuildPipeline

structure CalendarDay where
  year : Nat
  month : Nat
  day : Nat
deriving DecidableEq

/-- The day that is so many days after 1 January 1970. Years are counted from
March, so that a leap day comes last, in eras of 400 years. -/
def CalendarDay.ofDays (days : Nat) : CalendarDay :=
  let shifted := days + 719468
  let dayOfEra := shifted % 146097
  let yearOfEra := (dayOfEra - dayOfEra / 1460 + dayOfEra / 36524 - dayOfEra / 146096) / 365
  let dayOfYear := dayOfEra - (365 * yearOfEra + yearOfEra / 4 - yearOfEra / 100)
  let monthFromMarch := (5 * dayOfYear + 2) / 153
  let month := if monthFromMarch < 10 then monthFromMarch + 3 else monthFromMarch - 9
  let year := yearOfEra + 400 * (shifted / 146097)
  { year := if month ≤ 2 then year + 1 else year
    month
    day := dayOfYear - (153 * monthFromMarch + 2) / 5 + 1 }

/-- Decimal digits with zeros in front. -/
def padded (width value : Nat) : Text :=
  let digits := decimal value
  List.replicate (width - digits.length) 0x30 ++ digits

/-- The text of an instant, given in milliseconds since 1970. -/
def timestampText (milliseconds : Nat) : Text :=
  let seconds := milliseconds / 1000
  let day := CalendarDay.ofDays (seconds / 86400)
  let time := seconds % 86400
  padded 4 day.year ++ "-" ++ padded 2 day.month ++ "-" ++ padded 2 day.day ++ "T" ++
    padded 2 (time / 3600) ++ ":" ++ padded 2 (time / 60 % 60) ++ ":" ++ padded 2 (time % 60) ++ "." ++
    padded 3 (milliseconds % 1000) ++ "Z"

end BuildPipeline
