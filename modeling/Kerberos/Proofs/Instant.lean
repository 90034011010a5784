import Kerberos.Time.Instant

/-! # Order, sums and whole seconds of instants -/

namespace Kerberos

theorem Duration.ofConfigured_nonneg (seconds : UInt64) : 0 ≤ (ofConfigured seconds).nanos := by
  simp only [ofConfigured, ofSeconds, maxSeconds, nanosPerSecond]
  omega

namespace Instant

theorem lt_irrefl (t : Instant) : ¬ t < t :=
  Int.lt_irrefl t.nanos

theorem lt_trans {s t u : Instant} (hst : s < t) (htu : t < u) : s < u := by
  rw [lt_iff] at *
  omega

theorem lt_of_lt_of_le {s t u : Instant} (hst : s < t) (htu : t ≤ u) : s < u := by
  rw [lt_iff] at *
  rw [le_iff] at htu
  omega

theorem not_lt {s t : Instant} : ¬ s < t ↔ t ≤ s := by
  rw [lt_iff, le_iff]
  omega

theorem eq_of_not_lt {s t : Instant} (hst : ¬ s < t) (hts : ¬ t < s) : s = t := by
  rw [lt_iff] at hst hts
  exact ext (by omega)

/-! ## Spans -/

theorem nanos_sub (s t : Instant) : (s - t).nanos = s.nanos - t.nanos := rfl

theorem nanos_min (s t : Instant) : (min s t).nanos = min s.nanos t.nanos := by
  show (if s ≤ t then s else t).nanos = _
  split
  · next h =>
    rw [le_iff] at h
    omega
  · next h =>
    rw [le_iff] at h
    omega

theorem min_le_right (s t : Instant) : min s t ≤ t := by
  rw [le_iff, nanos_min]
  omega

theorem min_eq_left_of_lt {s t : Instant} (h : s < t) : min s t = s := by
  rw [lt_iff] at h
  apply ext
  rw [nanos_min]
  omega

theorem min_lt_iff {s t u : Instant} : min s t < u ↔ s < u ∨ t < u := by
  rw [lt_iff, lt_iff, lt_iff, nanos_min]
  omega

theorem nanos_of_add? {t u : Instant} {d : Duration} (h : t.add? d = some u) :
    u.nanos = t.nanos + d.nanos := by
  unfold add? ofNanos? at h
  split at h
  · cases h
    rfl
  · cases h

/-- A sum is the earlier of the sum in full and the last second, whether or not the sum in
    full is an instant. -/
theorem nanos_addCapped (t : Instant) {d : Duration} (hd : 0 ≤ d.nanos) :
    (t.addCapped d).nanos = min (t.nanos + d.nanos) infinity.nanos := by
  have hfirst := t.first_le
  unfold addCapped add? ofNanos?
  by_cases hbounds : -377705116800000000000 ≤ t.nanos + d.nanos ∧
      t.nanos + d.nanos ≤ 253402300799999999999
  · rw [dif_pos hbounds]
    exact nanos_min _ _
  · -- The sum lies behind the last year, for it is no earlier than its first part.
    have hinfinity : infinity.nanos = 253402300799000000000 := rfl
    rw [dif_neg hbounds]
    show infinity.nanos = _
    omega

theorem addCapped_le_infinity (t : Instant) {d : Duration} (hd : 0 ≤ d.nanos) :
    t.addCapped d ≤ infinity := by
  rw [le_iff, nanos_addCapped t hd]
  omega

theorem le_addCapped {t : Instant} (ht : t ≤ infinity) {d : Duration} (hd : 0 ≤ d.nanos) :
    t ≤ t.addCapped d := by
  rw [le_iff] at ht
  rw [le_iff, nanos_addCapped t hd]
  omega

/-! ## Whole seconds -/

theorem wholeSecond_mono {s t : Instant} (h : s ≤ t) : s.wholeSecond ≤ t.wholeSecond := by
  rw [le_iff] at h ⊢
  simp only [wholeSecond]
  omega

theorem wholeSecond_wholeSecond (t : Instant) : t.wholeSecond.wholeSecond = t.wholeSecond := by
  apply ext
  simp only [wholeSecond]
  omega

end Instant

end Kerberos
