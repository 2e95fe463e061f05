/-
DelegatedEscrow/Calendar.lean

A clock reading as text: date and time in the Gregorian calendar, extended to
all years before and after its introduction, in universal time and without a
fraction of a second.  Years from 0 to 9999 have four digits; every other year
carries a sign and at least four.

The calendar has years −262143 to 262142.  A reading outside them has no date,
and is written as its number of seconds.
-/
import DelegatedEscrow.Timestamp

namespace DelegatedEscrow

namespace Calendar

/-- A day of the Gregorian calendar. -/
structure Date where
  year : Int
  month : Nat
  day : Nat
deriving DecidableEq, Repr

/-- The date that lies `days` days after 1970-01-01.

Years are counted from March, so that a leap day is the last of its year, and in
eras of 400 years, each of 146097 days. -/
def Date.ofDays (days : Int) : Date :=
  -- 719468 days lead from 0000-03-01 to 1970-01-01.
  let shifted := days + 719468
  let era := shifted / 146097
  let dayOfEra := (shifted % 146097).toNat
  let yearOfEra := (dayOfEra - dayOfEra / 1460 + dayOfEra / 36524 - dayOfEra / 146096) / 365
  let dayOfYear := dayOfEra - (365 * yearOfEra + yearOfEra / 4 - yearOfEra / 100)
  -- Months from March have 31, 30, 31, 30, 31 days and again.
  let fromMarch := (5 * dayOfYear + 2) / 153
  let month := if fromMarch < 10 then fromMarch + 3 else fromMarch - 9
  { year := yearOfEra + era * 400 + (if month ≤ 2 then 1 else 0)
    month
    day := dayOfYear - (153 * fromMarch + 2) / 5 + 1 }

/-- The digits of `n`, at least `width` of them. -/
def padded (width n : Nat) : String :=
  let digits := Nat.toDigits 10 n
  String.ofList (List.replicate (width - digits.length) '0' ++ digits)

/-- A year: four digits up to 9999, otherwise signed. -/
def yearText (y : Int) : String :=
  if y < 0 then "-" ++ padded 4 y.natAbs
  else if y ≤ 9999 then padded 4 y.natAbs
  else "+" ++ padded 4 y.natAbs

/-- A date as year, month and day. -/
def Date.text (d : Date) : String :=
  yearText d.year ++ "-" ++ padded 2 d.month ++ "-" ++ padded 2 d.day

/-- A time of day, given in seconds after midnight. -/
def timeText (secs : Nat) : String :=
  padded 2 (secs / 3600) ++ ":" ++ padded 2 (secs / 60 % 60) ++ ":" ++ padded 2 (secs % 60)

/-- The first second of year −262143. -/
def first : Int := -8334601228800

/-- The last second of year 262142. -/
def last : Int := 8210266876799

end Calendar

namespace Timestamp

/-- The calendar has a date for this reading. -/
def Dated (t : Timestamp) : Prop := Calendar.first ≤ t.toInt ∧ t.toInt ≤ Calendar.last

instance (t : Timestamp) : Decidable t.Dated :=
  inferInstanceAs (Decidable (_ ∧ _))

/-- Date and time in universal time, or the bare seconds outside the calendar. -/
def text (t : Timestamp) : String :=
  if t.Dated then
    (Calendar.Date.ofDays (t.toInt / 86400)).text ++ "T" ++
      Calendar.timeText (t.toInt % 86400).toNat ++ "+00:00"
  else toString t.toInt ++ "s"

end Timestamp

end DelegatedEscrow
