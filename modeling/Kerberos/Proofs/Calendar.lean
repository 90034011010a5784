import Kerberos.Time.Instant

/-! # The calendar goes both ways

    Every day lies in the year that `Calendar.yearOfDay` finds for it, and walking the months
    loses nothing, so a civil time leads back to the second that it was made from.  The year
    of an instant is negative only before the start of year 0.
-/

namespace Kerberos

namespace Calendar

/-! ## Years -/

/-- The estimate is off by at most one year, and is put right. -/
theorem yearOfDay_bounds (day : Int) :
    daysBeforeYear (yearOfDay day) ≤ day ∧ day < daysBeforeYear (yearOfDay day + 1) := by
  unfold yearOfDay
  simp only
  split
  · next h =>
    -- The estimate is a year late.
    constructor
    · simp only [daysBeforeYear] at *
      omega
    · simpa using h
  · next h =>
    split
    · next h' =>
      -- The estimate is a year early.
      constructor
      · exact h'
      · simp only [daysBeforeYear] at *
        omega
    · next h' => exact ⟨Int.not_lt.mp h, Int.not_le.mp h'⟩

theorem yearOfDay_nonneg_iff (day : Int) : 0 ≤ yearOfDay day ↔ 0 ≤ day := by
  have hbounds := yearOfDay_bounds day
  simp only [daysBeforeYear] at hbounds
  omega

/-- The days of months in a row. -/
def totalDays : (lengths : List Nat) → Nat
  | [] => 0
  | length :: lengths => length + totalDays lengths

/-- The months of a year make up the days to the next one. -/
theorem totalDays_monthLengths (year : Int) :
    (totalDays (monthLengths (isLeap year)) : Int) =
      daysBeforeYear (year + 1) - daysBeforeYear year := by
  cases hleap : isLeap year with
  | true =>
    have hyear : year % 4 = 0 ∧ (year % 100 ≠ 0 ∨ year % 400 = 0) := by
      simpa [isLeap] using hleap
    show (366 : Int) = _
    simp only [daysBeforeYear]
    omega
  | false =>
    have hyear : year % 4 = 0 → year % 100 = 0 ∧ year % 400 ≠ 0 := by
      simpa [isLeap] using hleap
    show (365 : Int) = _
    simp only [daysBeforeYear]
    omega

/-! ## Months -/

theorem foldl_add_eq (lengths : List Nat) (n : Nat) :
    lengths.foldl (· + ·) n = n + totalDays lengths := by
  induction lengths generalizing n with
  | nil => rfl
  | cons length lengths ih =>
    rw [List.foldl_cons, ih, totalDays]
    omega

/-- A day within the months is found in one of them, behind the ones before it. -/
theorem splitMonths_spec {lengths : List Nat} {dayOfYear : Nat}
    (h : dayOfYear < totalDays lengths) :
    ∃ length, lengths[(splitMonths lengths dayOfYear).1]? = some length ∧
      (splitMonths lengths dayOfYear).2 < length ∧
      totalDays (lengths.take (splitMonths lengths dayOfYear).1) +
        (splitMonths lengths dayOfYear).2 = dayOfYear := by
  induction lengths generalizing dayOfYear with
  | nil => cases h
  | cons length lengths ih =>
    rw [totalDays] at h
    by_cases hfirst : dayOfYear < length
    · refine ⟨length, ?_⟩
      rw [splitMonths, if_pos hfirst]
      exact ⟨rfl, hfirst, Nat.zero_add _⟩
    · -- The day lies behind the first month, and is looked for in the others.
      obtain ⟨found, hfound, hday, hsum⟩ := @ih (dayOfYear - length) (by omega)
      refine ⟨found, ?_⟩
      simp only [splitMonths, hfirst, ↓reduceIte]
      refine ⟨hfound, hday, ?_⟩
      rw [List.take_succ_cons, totalDays]
      omega

theorem bounds_of_dateExists {year : Int} {month day : Nat}
    (h : dateExists year month day = true) :
    1 ≤ month ∧ month ≤ 12 ∧ 1 ≤ day ∧ day ≤ 31 := by
  unfold dateExists at h
  simp only [Bool.and_eq_true, decide_eq_true_eq] at h
  obtain ⟨⟨hmonth, hday⟩, hlast⟩ := h
  split at hlast
  · next length hlength =>
    have hmem := List.mem_of_getElem? hlength
    have hlt := (List.getElem?_eq_some_iff.mp hlength).1
    have hcount : (monthLengths (isLeap year)).length = 12 := rfl
    have hlong : length ≤ 31 := by
      simp only [monthLengths, List.mem_cons, List.not_mem_nil, or_false] at hmem
      split at hmem <;> omega
    have hle := of_decide_eq_true hlast
    omega
  · cases hlast

end Calendar

namespace CivilTime

open Calendar

/-! ## Seconds -/

/-- The day of the year lies within the months of the year. -/
theorem dayOfYear_lt (day : Int) :
    (day - daysBeforeYear (yearOfDay day)).toNat <
      totalDays (monthLengths (isLeap (yearOfDay day))) := by
  have hbounds := yearOfDay_bounds day
  have hlength := totalDays_monthLengths (yearOfDay day)
  omega

theorem dateExists_ofSeconds (seconds : Int) :
    dateExists (ofSeconds seconds).year (ofSeconds seconds).month (ofSeconds seconds).day = true := by
  obtain ⟨length, hlength, hday, -⟩ := splitMonths_spec (dayOfYear_lt (seconds / 86400))
  simp only [dateExists, ofSeconds, Nat.add_sub_cancel, hlength]
  rw [Bool.and_eq_true, Bool.and_eq_true]
  refine ⟨⟨decide_eq_true ?_, decide_eq_true ?_⟩, decide_eq_true ?_⟩
  · omega
  · omega
  · omega

theorem timeOfDay_ofSeconds (seconds : Int) :
    (ofSeconds seconds).hour < 24 ∧ (ofSeconds seconds).minute < 60 ∧
      (ofSeconds seconds).second < 60 := by
  simp only [ofSeconds]
  omega

theorem toSeconds_ofSeconds (seconds : Int) : (ofSeconds seconds).toSeconds = seconds := by
  have hbounds := yearOfDay_bounds (seconds / 86400)
  obtain ⟨length, -, -, hsum⟩ := splitMonths_spec (dayOfYear_lt (seconds / 86400))
  simp only [toSeconds, dayOfDate, ofSeconds, Nat.add_sub_cancel, foldl_add_eq, Nat.zero_add,
    hsum]
  omega

end CivilTime

namespace Instant

/-- The year is not negative, so a KerberosTime can carry the instant. -/
def Expressible (t : Instant) : Prop := 0 ≤ t.civil.year

theorem expressible_iff (t : Instant) : t.Expressible ↔ -62167219200000000000 ≤ t.nanos := by
  show 0 ≤ Calendar.yearOfDay ((t.nanos / 1000000000 + epochSeconds) / 86400) ↔ _
  rw [Calendar.yearOfDay_nonneg_iff, epochSeconds]
  omega

theorem Expressible.of_le {s t : Instant} (hs : s.Expressible) (h : s ≤ t) : t.Expressible := by
  rw [le_iff] at h
  rw [expressible_iff] at hs ⊢
  omega

theorem Expressible.wholeSecond {t : Instant} (h : t.Expressible) : t.wholeSecond.Expressible := by
  rw [expressible_iff] at h ⊢
  simp only [Instant.wholeSecond]
  omega

/-- A civil time from year 0 on stands for an instant from year 0 on. -/
theorem expressible_of_ofCivil? {c : CivilTime} {t : Instant} (hyear : 0 ≤ c.year)
    (h : ofCivil? c = some t) : t.Expressible := by
  rw [expressible_iff]
  unfold ofCivil? at h
  split at h
  · unfold ofNanos? at h
    split at h
    · cases h
      simp only [CivilTime.toSeconds, Calendar.dayOfDate, Calendar.daysBeforeYear, epochSeconds]
      omega
    · cases h
  · cases h

/-- The last instant lies in year 9999. -/
theorem civil_year_lt (t : Instant) : t.civil.year < 10000 := by
  have hlast := t.le_last
  have hbounds := Calendar.yearOfDay_bounds ((t.nanos / 1000000000 + epochSeconds) / 86400)
  show Calendar.yearOfDay ((t.nanos / 1000000000 + epochSeconds) / 86400) < 10000
  simp only [Calendar.daysBeforeYear, epochSeconds] at *
  omega

/-- The civil time of an instant stands for the second that the instant lies in. -/
theorem ofCivil?_civil (t : Instant) : ofCivil? t.civil = some t.wholeSecond := by
  have hdate := CivilTime.dateExists_ofSeconds (t.nanos / 1000000000 + epochSeconds)
  obtain ⟨hhour, hminute, hsecond⟩ :=
    CivilTime.timeOfDay_ofSeconds (t.nanos / 1000000000 + epochSeconds)
  have hnanos : (t.civil.toSeconds - epochSeconds) * 1000000000 = t.wholeSecond.nanos := by
    simp only [civil, CivilTime.toSeconds_ofSeconds, wholeSecond]
    omega
  unfold ofCivil?
  rw [if_pos (by simp [civil, hdate, hhour, hminute, hsecond]), hnanos]
  unfold ofNanos?
  rw [dif_pos ⟨t.wholeSecond.first_le, t.wholeSecond.le_last⟩]

end Instant

end Kerberos
