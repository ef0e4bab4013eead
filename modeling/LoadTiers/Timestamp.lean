/-! # Points in time

A point in time in UTC as date and time of day. A leap second is the second 60 of its minute.
-/

namespace LoadTiers

/-- Whether a year of the proleptic calendar has a leap day. -/
def isLeapYear (year : Int) : Bool := year % 4 = 0 && (year % 100 ≠ 0 || year % 400 = 0)

def daysInMonth (year : Int) (month : Nat) : Nat :=
  match month with
  | 2 => if isLeapYear year then 29 else 28
  | 4 | 6 | 9 | 11 => 30
  | _ => 31

/-- A date and a time of day, possibly out of the ranges of either. -/
structure CivilTime where
  year : Int
  month : Nat
  day : Nat
  hour : Nat
  minute : Nat
  second : Nat
  nanos : Nat
  deriving DecidableEq

namespace CivilTime

/-- The dates of the calendar, with years of at most 19 bits, and the times of a day. -/
def IsValid (t : CivilTime) : Prop :=
  (-262143 ≤ t.year ∧ t.year ≤ 262142) ∧ (1 ≤ t.month ∧ t.month ≤ 12) ∧
    (1 ≤ t.day ∧ t.day ≤ daysInMonth t.year t.month) ∧
    t.hour < 24 ∧ t.minute < 60 ∧ t.second ≤ 60 ∧ t.nanos < 1000000000

instance (t : CivilTime) : Decidable t.IsValid := by unfold IsValid; infer_instance

/-- The number of days from 1970-01-01 to a date. Years are counted from March here, so that the
leap day is the last of a year. -/
def daysFromEpoch (year : Int) (month day : Nat) : Int :=
  let y := if month ≤ 2 then year - 1 else year
  let monthFromMarch := (month + 9) % 12
  let dayOfYear := (153 * monthFromMarch + 2) / 5 + day - 1
  365 * y + y / 4 - y / 100 + y / 400 + dayOfYear - 719468

/-- The date that lies some days after 1970-01-01: year, month and day. -/
def dateOfDays (days : Int) : Int × Nat × Nat :=
  let z := days + 719468
  let era := z / 146097
  let dayOfEra := (z % 146097).toNat
  let yearOfEra := (dayOfEra - dayOfEra / 1460 + dayOfEra / 36524 - dayOfEra / 146096) / 365
  let dayOfYear := dayOfEra - (365 * yearOfEra + yearOfEra / 4 - yearOfEra / 100)
  let monthFromMarch := (5 * dayOfYear + 2) / 153
  let day := dayOfYear - (153 * monthFromMarch + 2) / 5 + 1
  let month := if monthFromMarch < 10 then monthFromMarch + 3 else monthFromMarch - 9
  (yearOfEra + era * 400 + (if month ≤ 2 then 1 else 0), month, day)

def minusMinutes (t : CivilTime) (minutes : Int) : CivilTime :=
  if minutes = 0 then t
  else
    let m : Int := 60 * t.hour + t.minute - minutes
    let (year, month, day) := dateOfDays (daysFromEpoch t.year t.month t.day + m / 1440)
    let m := (m % 1440).toNat
    { t with year, month, day, hour := m / 60, minute := m % 60 }

end CivilTime

/-- A point in time, as the date and time of day that it is in UTC. -/
structure Timestamp extends CivilTime where
  valid : toCivilTime.IsValid
  deriving DecidableEq

namespace Timestamp

def ofCivil? (t : CivilTime) : Option Timestamp :=
  if h : t.IsValid then some ⟨t, h⟩ else none

/-- The point in time some seconds and nanoseconds after the start of 1970. Leap seconds are not
counted: a time within one is a second and more after the second 59 of its minute. -/
def ofUnix? (seconds : Int) (nanos : Nat) : Option Timestamp :=
  let (year, month, day) := CivilTime.dateOfDays (seconds / 86400)
  let s := (seconds % 86400).toNat
  let (second, nanos) :=
    if s % 60 = 59 ∧ 1000000000 ≤ nanos then (60, nanos - 1000000000) else (s % 60, nanos)
  ofCivil? { year, month, day, hour := s / 3600, minute := s / 60 % 60, second, nanos }

end Timestamp

end LoadTiers
