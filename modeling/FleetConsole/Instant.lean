/-! Points in time, counted in nanoseconds from the start of 1970, and their civil date and time of
day in the proleptic Gregorian calendar. -/
namespace FleetConsole

/-- A point in time with a year between -262143 and 262142. -/
structure Instant where
  nanos : Int
  inRange : -8334601228800000000000 ≤ nanos ∧ nanos ≤ 8210266876799999999999
  deriving DecidableEq

namespace Instant

/-- Whole milliseconds; what is left is dropped toward the past. -/
def millis (t : Instant) : Int := t.nanos / 1000000

def ofMillis? (millis : Int) : Option Instant :=
  if h : -8334601228800000 ≤ millis ∧ millis ≤ 8210266876799999 then
    some ⟨millis * 1000000, by omega⟩
  else none

theorem millis_of_ofMillis? {millis : Int} {t : Instant} (h : ofMillis? millis = some t) :
    t.millis = millis := by
  unfold ofMillis? at h
  split at h
  · cases h
    exact Int.mul_ediv_cancel _ (by decide)
  · cases h

/-- The instant closest to a count of nanoseconds. -/
def clampNanos (nanos : Int) : Instant :=
  ⟨max (-8334601228800000000000) (min nanos 8210266876799999999999), by omega⟩

/-- The instant closest to a count of milliseconds. -/
def clamp (millis : Int) : Instant := clampNanos (millis * 1000000)

def epoch : Instant := ⟨0, by omega⟩

instance : Inhabited Instant := ⟨epoch⟩

/-- The instant `millis` later, or the last one there is. -/
def later (t : Instant) (millis : Int) : Instant := clampNanos (t.nanos + millis * 1000000)

instance : LE Instant := ⟨fun s t => s.nanos ≤ t.nanos⟩

instance (s t : Instant) : Decidable (s ≤ t) :=
  inferInstanceAs (Decidable (s.nanos ≤ t.nanos))

/-- A day of the calendar. -/
structure Date where
  year : Int
  month : Nat
  day : Nat
  deriving DecidableEq, Repr

/-- The date that lies a number of days after the first of January 1970. Years are counted from
March within eras of 400 years, so that the leap day comes last. -/
def Date.ofDays (days : Int) : Date :=
  let shifted := days + 719468
  let era := shifted / 146097
  let dayOfEra := (shifted % 146097).toNat
  let yearOfEra :=
    (dayOfEra - dayOfEra / 1460 + dayOfEra / 36524 - dayOfEra / 146096) / 365
  let dayOfYear := dayOfEra - (365 * yearOfEra + yearOfEra / 4 - yearOfEra / 100)
  let monthFromMarch := (5 * dayOfYear + 2) / 153
  let day := dayOfYear - (153 * monthFromMarch + 2) / 5 + 1
  let month := if monthFromMarch < 10 then monthFromMarch + 3 else monthFromMarch - 9
  let year := (yearOfEra : Int) + era * 400
  ⟨if month ≤ 2 then year + 1 else year, month, day⟩

/-- A number with at least `width` digits. -/
def padded (width n : Nat) : String :=
  let digits := Nat.toDigits 10 n
  String.ofList (List.replicate (width - digits.length) '0' ++ digits)

/-- Years of four digits stand alone; any other year has a sign. -/
def yearText (year : Int) : String :=
  if 0 ≤ year && year ≤ 9999 then padded 4 year.toNat
  else (if year < 0 then "-" else "+") ++ padded 4 year.natAbs

/-- Date and time of day to the second; what is left of a second is dropped toward the past. -/
def text (t : Instant) : String :=
  let seconds := t.nanos / 1000000000
  let date := Date.ofDays (seconds / 86400)
  let second := (seconds % 86400).toNat
  yearText date.year ++ "-" ++ padded 2 date.month ++ "-" ++ padded 2 date.day ++ " " ++
    padded 2 (second / 3600) ++ ":" ++ padded 2 (second / 60 % 60) ++ ":" ++ padded 2 (second % 60)

end Instant

end FleetConsole
