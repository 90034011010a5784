import Kerberos.Numeral
import Kerberos.Time.Calendar
import Kerberos.Time.Duration

/-! # Instants

    An instant is an exact number of nanoseconds since 1 January 1970, within the years
    -9999 to 9999.  The bounds are part of the type.  Sums that leave the years are `none`
    (`add?`) or, in the computation of validity periods, the last second a KerberosTime can
    carry (`addCapped`). -/

namespace Kerberos

structure Instant where
  /-- Nanoseconds since the start of 1970. -/
  nanos : Int
  /-- The year is at least -9999. -/
  first_le : -377705116800000000000 ≤ nanos
  /-- The year is at most 9999. -/
  le_last : nanos ≤ 253402300799999999999
  deriving DecidableEq, Repr

namespace Instant

theorem ext {s t : Instant} (h : s.nanos = t.nanos) : s = t := by
  cases s; cases t; simp_all

instance : LE Instant := ⟨fun s t => s.nanos ≤ t.nanos⟩

instance : LT Instant := ⟨fun s t => s.nanos < t.nanos⟩

instance (s t : Instant) : Decidable (s ≤ t) := inferInstanceAs (Decidable (s.nanos ≤ t.nanos))

instance (s t : Instant) : Decidable (s < t) := inferInstanceAs (Decidable (s.nanos < t.nanos))

theorem le_iff (s t : Instant) : s ≤ t ↔ s.nanos ≤ t.nanos := Iff.rfl

theorem lt_iff (s t : Instant) : s < t ↔ s.nanos < t.nanos := Iff.rfl

instance : Min Instant := ⟨fun s t => if s ≤ t then s else t⟩

/-- The span from the second instant to the first. -/
instance : HSub Instant Instant Duration := ⟨fun s t => ⟨s.nanos - t.nanos⟩⟩

/-- The instant at `nanos`, if its year lies between -9999 and 9999. -/
def ofNanos? (nanos : Int) : Option Instant :=
  if h : -377705116800000000000 ≤ nanos ∧ nanos ≤ 253402300799999999999 then
    some ⟨nanos, h.1, h.2⟩
  else none

/-- The start of 1970.  Requests write it where they mean "unspecified". -/
def epoch : Instant := ⟨0, by decide, by decide⟩

/-- The last second of year 9999, the latest time a KerberosTime can carry. -/
def infinity : Instant := ⟨253402300799000000000, by decide, by decide⟩

/-- The instant `d` later, if it still lies within the years. -/
def add? (t : Instant) (d : Duration) : Option Instant :=
  ofNanos? (t.nanos + d.nanos)

/-- The instant `d` later, but never later than `infinity`. -/
def addCapped (t : Instant) (d : Duration) : Instant :=
  match t.add? d with
  | some later => min later infinity
  | none => infinity

/-- The start of the second that the instant lies in. -/
def wholeSecond (t : Instant) : Instant :=
  ⟨t.nanos / 1000000000 * 1000000000, by have := t.first_le; omega, by have := t.le_last; omega⟩

/-- The nanoseconds passed since the start of the second. -/
def subsecond (t : Instant) : Nat := (t.nanos % 1000000000).toNat

/-- Seconds from the start of year 0 to the start of 1970. -/
def epochSeconds : Int := 62167219200

/-- The date and time of day, in UTC. -/
def civil (t : Instant) : CivilTime :=
  CivilTime.ofSeconds (t.nanos / 1000000000 + epochSeconds)

/-- The start of the civil second `c`, if its date exists and its year is within bounds. -/
def ofCivil? (c : CivilTime) : Option Instant :=
  if Calendar.dateExists c.year c.month c.day && c.hour < 24 && c.minute < 60 && c.second < 60 then
    ofNanos? ((c.toSeconds - epochSeconds) * 1000000000)
  else none

/-- The text of an instant, as in `2026-10-14 9:05:07.25 +00:00:00`. -/
def text (t : Instant) : String :=
  let c := t.civil
  let sign := if c.year < 0 then "-" else ""
  let date := sign ++ Numeral.padded 4 c.year.natAbs ++ "-" ++ Numeral.padded 2 c.month ++ "-" ++ Numeral.padded 2 c.day
  let time := toString c.hour ++ ":" ++ Numeral.padded 2 c.minute ++ ":" ++ Numeral.padded 2 c.second
  date ++ " " ++ time ++ "." ++ Numeral.billionths t.subsecond ++ " +00:00:00"

end Instant

end Kerberos
