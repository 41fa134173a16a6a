import LicenseSurvey.Report.Shortest

/-! # Times

A report says when its survey started and ended and how long it took. Times are
counted from the start of 1970 and shown in Coordinated Universal Time.
-/

namespace LicenseSurvey

/-- A point in time: seconds since the start of 1970 and nanoseconds behind them.
Nanoseconds from 1000000000 on lie in a leap second that follows the second. -/
structure Instant where
  seconds : Int
  nanoseconds : Nat
deriving DecidableEq, Repr

namespace Instant

/-! ## Calendar -/

structure Date where
  year : Int
  month : Nat
  day : Nat
deriving DecidableEq, Repr

/-- The date of a day, counted from the start of 1970. Years are taken to begin in
March, so that a leap day is the last day of its year, and fall into eras of 400
years with the same number of days. -/
def dateOfDay (day : Int) : Date :=
  let shifted := day + 719468
  let era := shifted.fdiv 146097
  let dayOfEra := (shifted - era * 146097).toNat
  let yearOfEra :=
    (dayOfEra - dayOfEra / 1460 + dayOfEra / 36524 - dayOfEra / 146096) / 365
  let dayOfYear := dayOfEra - (365 * yearOfEra + yearOfEra / 4 - yearOfEra / 100)
  let marchMonth := (5 * dayOfYear + 2) / 153
  let month := if marchMonth < 10 then marchMonth + 3 else marchMonth - 9
  { year := era * 400 + yearOfEra + (if month ≤ 2 then 1 else 0)
    month
    day := dayOfYear - (153 * marchMonth + 2) / 5 + 1 }

example : dateOfDay 0 = ⟨1970, 1, 1⟩ ∧ dateOfDay 19782 = ⟨2024, 2, 29⟩ ∧
    dateOfDay (-719162) = ⟨1, 1, 1⟩ := by decide

/-! ## Writing times -/

def padded (width number : Nat) : Text :=
  let digits := Nat.toDigits 10 number
  List.replicate (width - digits.length) '0' ++ digits

def yearText (year : Int) : Text :=
  if 0 ≤ year ∧ year ≤ 9999 then padded 4 year.toNat
  else (if year < 0 then '-' else '+') :: padded 4 year.natAbs

def fractionText (nanoseconds : Nat) : Text :=
  if nanoseconds = 0 then []
  else if nanoseconds % 1000000 = 0 then '.' :: padded 3 (nanoseconds / 1000000)
  else if nanoseconds % 1000 = 0 then '.' :: padded 6 (nanoseconds / 1000)
  else '.' :: padded 9 nanoseconds

def secondOfDay (instant : Instant) : Nat := (instant.seconds.fmod 86400).toNat

def isLeap (instant : Instant) : Bool := 1000000000 ≤ instant.nanoseconds

def text (instant : Instant) : Text :=
  let date := dateOfDay (instant.seconds.fdiv 86400)
  let second := instant.secondOfDay
  yearText date.year ++ '-' :: padded 2 date.month ++ '-' :: padded 2 date.day ++
    'T' :: padded 2 (second / 3600) ++ ':' :: padded 2 (second / 60 % 60) ++
    ':' :: padded 2 (second % 60 + instant.nanoseconds / 1000000000) ++
    fractionText (instant.nanoseconds % 1000000000) ++ "+00:00".toList

/-! ## Durations -/

/-- The leap seconds to count between two times, going by their times of day: a leap
second that the earlier of them lies in is over at the later one. -/
def leapSecondsUntil (start stop : Instant) : Int :=
  if start.secondOfDay < stop.secondOfDay ∧ start.isLeap then 1
  else if stop.secondOfDay < start.secondOfDay ∧ stop.isLeap then -1
  else 0

def nanosecondsUntil (start stop : Instant) : Int :=
  (stop.seconds - start.seconds + leapSecondsUntil start stop) * 1000000000 +
    stop.nanoseconds - start.nanoseconds

example : nanosecondsUntil ⟨59, 1500000000⟩ ⟨60, 0⟩ = 500000000 := by decide

def durationStyle : DecimalStyle := ⟨-4, 16, 'e'⟩

/-- A number of nanoseconds as seconds. The number is rounded to a binary fraction,
and so is the quotient. -/
def secondsText (nanoseconds : Int) : Text :=
  if nanoseconds = 0 then "0.0".toList
  else
    let rounded := (BinaryFraction.ofRatio ⟨nanoseconds.natAbs, 1⟩).ratio
    let quotient : Ratio := ⟨rounded.numerator, rounded.denominator * 1000000000⟩
    (if nanoseconds < 0 then ['-'] else []) ++
      durationStyle.write (Decimal.shortest (BinaryFraction.ofRatio quotient))

/-- The duration from one time to another in seconds. A duration whose nanoseconds
do not fit 64 bits counts as none. -/
def durationText (start stop : Instant) : Text :=
  let nanoseconds := nanosecondsUntil start stop
  if nanoseconds < -0x8000000000000000 ∨ 0x8000000000000000 ≤ nanoseconds then secondsText 0
  else secondsText nanoseconds

end Instant

end LicenseSurvey
