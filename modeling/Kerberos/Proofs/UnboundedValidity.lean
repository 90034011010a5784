import Kerberos.Proofs.Validity

/-! # Validity periods on a time line without ends

    Validity periods are computed with instants that lie within the years, sums that stop at
    the last second of all, and spans that stop at the longest one.  `Validity.ideal` is the
    rule that the computation follows, over the integers: a time is a number of nanoseconds, a
    configured span is as long as its number says, and nothing stops anywhere.  The two come
    to the same in every case, refusals included (`Validity.outcome_choose`).  The caps are
    never in the way, for a span that is too long for a register is also too long for the
    years.
-/

namespace Kerberos

/-! ## Spans of any length -/

/-- The nanoseconds of a number of seconds, however many they are. -/
def Duration.unlimited (seconds : UInt64) : Int := seconds.toNat * 1000000000

/-- A configured span is as long as its number says, or longer than all the years. -/
theorem Duration.ofConfigured_cases (seconds : UInt64) :
    (ofConfigured seconds).nanos = unlimited seconds ∨
      maxSeconds * nanosPerSecond ≤ unlimited seconds ∧
        (ofConfigured seconds).nanos = maxSeconds * nanosPerSecond := by
  simp only [ofConfigured, ofSeconds, unlimited, maxSeconds, nanosPerSecond]
  omega

namespace Instant

/-- Behind the last second of all it does not matter how long a span is. -/
theorem nanos_addCapped_ofConfigured (t : Instant) (seconds : UInt64) :
    (t.addCapped (.ofConfigured seconds)).nanos =
      min (t.nanos + Duration.unlimited seconds) infinity.nanos := by
  have hfirst := t.first_le
  have hcases := Duration.ofConfigured_cases seconds
  have hinfinity : infinity.nanos = 253402300799000000000 := by decide
  rw [nanos_addCapped t (Duration.ofConfigured_nonneg seconds)]
  simp only [Duration.maxSeconds, Duration.nanosPerSecond] at hcases
  omega

/-- No two instants are as far apart as a span that is cut short. -/
theorem sub_lt_ofConfigured_iff (s t : Instant) (seconds : UInt64) :
    s - t < Duration.ofConfigured seconds ↔ s.nanos - t.nanos < Duration.unlimited seconds := by
  have hlast := s.le_last
  have hfirst := t.first_le
  have hcases := Duration.ofConfigured_cases seconds
  rw [Duration.lt_iff, nanos_sub]
  simp only [Duration.maxSeconds, Duration.nanosPerSecond] at hcases
  omega

end Instant

/-! ## The rule -/

/-- A validity period, its times counted in nanoseconds from the start of 1970. -/
structure IdealValidity where
  startTime : Int
  endTime : Int
  renewTill : Option Int
  postdated : Bool
  deriving DecidableEq, Repr

/-- Why there is no validity period. -/
inductive Denial where
  | cannotPostdate
  | neverValid
  | renewalForbidden
  deriving DecidableEq, Repr

namespace Validity

/-- The wanted start, if it is later than the skew allows. -/
def lateStart (c : RealmConfig) (request : RequestBody) (now : Int) : Option Instant :=
  request.start.filter fun start =>
    min (now + Duration.unlimited c.skewSeconds) Instant.infinity.nanos < start.nanos

/-- The client wanted more than the end that it gets, settles for renewals, and may have them. -/
def settles (c : RealmConfig) (request : RequestBody) (endTime : Int) : Bool :=
  request.options.contains .renewableOk && request.till.any (endTime < ·.nanos)
    && c.renewableAllowed

/-- The validity period of a ticket issued at `now`.  A wanted start that is later than the skew
    allows is granted to postdated tickets only.  The ticket ends at the wanted end, at the end
    of the longest life or with the last second of all, whichever is first.  A client that
    settles for renewals may renew until the wanted end, and any other that asks for renewals
    until the end that it asks for, as long as the realm allows. -/
def ideal (c : RealmConfig) (request : RequestBody) (now : Int) : Except Denial IdealValidity :=
  let lastSecond := Instant.infinity.nanos
  let late := lateStart c request now
  let startTime := (late.map Instant.nanos).getD now
  let till := (request.till.map Instant.nanos).getD lastSecond
  let endTime := min till (min (startTime + Duration.unlimited c.lifetimeSeconds) lastSecond)
  let lastRenewal := min (startTime + Duration.unlimited c.renewalSeconds) lastSecond
  if late.isSome && !request.options.contains .postdated then .error .cannotPostdate
  else if endTime < startTime ∨ endTime - startTime < Duration.unlimited c.skewSeconds then
    .error .neverValid
  else if request.options.contains .renewable && !c.renewableAllowed then
    .error .renewalForbidden
  else
    .ok {
      startTime, endTime, postdated := late.isSome
      renewTill :=
        if settles c request endTime then some (min till lastRenewal)
        else if request.options.contains .renewable then
          some (min ((request.rtime.map Instant.nanos).getD lastSecond) lastRenewal)
        else none }

/-- The times of a period as integers. -/
def onLine (v : Validity) : IdealValidity where
  startTime := v.startTime.nanos
  endTime := v.endTime.nanos
  renewTill := v.renewTill.map Instant.nanos
  postdated := v.postdated

/-- The refusals of validity periods, without their details. -/
def denial? : Refusal → Option Denial
  | .cannotPostdate => some .cannotPostdate
  | .neverValid _ => some .neverValid
  | .policyViolation .renewable => some .renewalForbidden
  | _ => none

/-- What the computation of a period comes to, with its times as integers. -/
def outcome : Except Refusal Validity → Option (Except Denial IdealValidity)
  | .ok v => some (.ok v.onLine)
  | .error refusal => (denial? refusal).map .error

/-! ## Agreement -/

section agreement
variable (c : RealmConfig) (request : RequestBody)

theorem lt_addCapped_skew_iff (now start : Instant) :
    now.addCapped c.skew < start ↔
      min (now.nanos + Duration.unlimited c.skewSeconds) Instant.infinity.nanos < start.nanos := by
  unfold RealmConfig.skew
  rw [Instant.lt_iff, Instant.nanos_addCapped_ofConfigured]

theorem chooseStart_eq (now : Instant) :
    chooseStart c request now =
      if (lateStart c request now.nanos).isSome && !request.options.contains .postdated then
        .error .cannotPostdate
      else .ok ((lateStart c request now.nanos).getD now, (lateStart c request now.nanos).isSome) := by
  unfold chooseStart lateStart
  cases request.start with
  | none => simp
  | some start =>
    by_cases hlate : min (now.nanos + Duration.unlimited c.skewSeconds)
        Instant.infinity.nanos < start.nanos
    · have hcapped := (lt_addCapped_skew_iff c now start).mpr hlate
      by_cases hasked : request.options.contains .postdated = true
      · simp [Option.filter, hlate, hcapped, hasked]
      · simp [Option.filter, hlate, hcapped, hasked]
    · have hcapped : ¬ now.addCapped c.skew < start := by
        intro h
        exact hlate ((lt_addCapped_skew_iff c now start).mp h)
      simp [Option.filter, hlate, hcapped]

theorem nanos_chooseEnd (start : Instant) :
    (chooseEnd c request start).nanos =
      min ((request.till.map Instant.nanos).getD Instant.infinity.nanos)
        (min (start.nanos + Duration.unlimited c.lifetimeSeconds) Instant.infinity.nanos) := by
  have hcapped := Instant.nanos_addCapped_ofConfigured start c.lifetimeSeconds
  unfold chooseEnd RealmConfig.lifetime
  rw [Instant.nanos_min, hcapped]
  cases request.till with
  | none => rfl
  | some till => rfl

theorem wantedRenewal_eq (endTime : Instant) :
    wantedRenewal c request endTime =
      if settles c request endTime.nanos then request.till
      else if request.options.contains .renewable then
        some (request.rtime.getD Instant.infinity)
      else none := by
  unfold wantedRenewal wantedRenewal.asked settles
  cases request.till with
  | none => simp
  | some till => simp [Instant.lt_iff]

/-- Renewals are forbidden to those who ask for them outright. -/
theorem renewal_forbidden_iff (endTime : Instant) :
    ((wantedRenewal c request endTime).isSome && !c.renewableAllowed) =
      (request.options.contains .renewable && !c.renewableAllowed) := by
  rw [wantedRenewal_eq]
  by_cases hsettles : settles c request endTime.nanos = true
  · -- Whoever gets renewals by settling for them is allowed to have them.
    have hallowed : c.renewableAllowed = true := by
      unfold settles at hsettles
      simp only [Bool.and_eq_true] at hsettles
      exact hsettles.2
    simp [hallowed]
  · by_cases hasked : request.options.contains .renewable = true
    · simp [hsettles, hasked]
    · simp [hsettles, hasked]

theorem nanos_renewTill (start endTime : Instant) :
    ((wantedRenewal c request endTime).map fun wanted =>
        min wanted (start.addCapped c.renewal)).map Instant.nanos =
      if settles c request endTime.nanos then
        some (min ((request.till.map Instant.nanos).getD Instant.infinity.nanos)
          (start.addCapped c.renewal).nanos)
      else if request.options.contains .renewable then
        some (min ((request.rtime.map Instant.nanos).getD Instant.infinity.nanos)
          (start.addCapped c.renewal).nanos)
      else none := by
  rw [wantedRenewal_eq]
  by_cases hsettles : settles c request endTime.nanos = true
  · cases htill : request.till with
    | none => simp [settles, htill] at hsettles
    | some till => simp [hsettles, Instant.nanos_min]
  · by_cases hasked : request.options.contains .renewable = true
    · cases request.rtime with
      | none => simp [hsettles, hasked, Instant.nanos_min]
      | some rtime => simp [hsettles, hasked, Instant.nanos_min]
    · simp [hsettles, hasked]

/-- The period comes out as the rule says, and is refused as the rule says, in every case. -/
theorem outcome_choose (now : Instant) :
    outcome (choose c request now) = some (ideal c request now.nanos) := by
  have hstart := chooseStart_eq c request now
  by_cases hpost : ((lateStart c request now.nanos).isSome &&
      !request.options.contains .postdated) = true
  · rw [if_pos hpost] at hstart
    have hrefused : choose c request now = .error .cannotPostdate := by
      unfold choose
      rw [hstart]
      rfl
    unfold ideal
    simp only [hrefused, hpost, ↓reduceIte, outcome, denial?, Option.map_some]
  · rw [if_neg hpost] at hstart
    have hnow : ((lateStart c request now.nanos).map Instant.nanos).getD now.nanos =
        ((lateStart c request now.nanos).getD now).nanos := by
      cases lateStart c request now.nanos <;> rfl
    rw [choose_of_start hstart]
    unfold ideal
    simp only [hpost, Bool.false_eq_true, ↓reduceIte, hnow, renewal_forbidden_iff]
    generalize (lateStart c request now.nanos).isSome = late
    generalize (lateStart c request now.nanos).getD now = start
    -- On both sides the same end is put to the same tests.
    have hrenewal : (start.addCapped c.renewal).nanos =
        min (start.nanos + Duration.unlimited c.renewalSeconds) Instant.infinity.nanos :=
      Instant.nanos_addCapped_ofConfigured _ _
    simp only [← nanos_chooseEnd, ← hrenewal, ← nanos_renewTill]
    generalize chooseEnd c request start = endTime
    have hshort : endTime - start < c.skew ↔
        endTime.nanos - start.nanos < Duration.unlimited c.skewSeconds :=
      Instant.sub_lt_ofConfigured_iff _ _ _
    by_cases hends : endTime < start
    · have hnever : endTime.nanos < start.nanos := hends
      simp only [hends, hnever, true_or, ↓reduceIte, outcome, denial?, Option.map_some]
    by_cases hlong : endTime - start < c.skew
    · have hnever := hshort.mp hlong
      simp only [hends, hlong, hnever, or_true, ↓reduceIte, outcome, denial?, Option.map_some]
    have hvalid : ¬ (endTime.nanos < start.nanos ∨
        endTime.nanos - start.nanos < Duration.unlimited c.skewSeconds) := by
      intro hnever
      exact hnever.elim hends fun h => hlong (hshort.mpr h)
    simp only [hends, hlong, hvalid, ↓reduceIte]
    by_cases hforbidden : (request.options.contains .renewable && !c.renewableAllowed) = true
    · simp only [hforbidden, ↓reduceIte, outcome, denial?, Option.map_some]
    · simp only [hforbidden, Bool.false_eq_true, ↓reduceIte, outcome, onLine]

end agreement

end Validity

end Kerberos
