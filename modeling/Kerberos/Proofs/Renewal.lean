import Kerberos.Proofs.Envelope
import Kerberos.Proofs.Options
import Kerberos.Proofs.Validity

/-! # The end of renewals

    A renewable ticket can be renewed until the wanted end of renewals or until the end of the
    longest renewals, whichever comes first (`Validity.Chosen.renewTill_eq_some`).  What is
    wanted comes from two places.  A client that asks for renewals outright names their end,
    and a client that settles for renewals gets them until the end that it wanted for its
    ticket, whatever else it has asked for.

    So to settle for renewals never costs a client its period, but it may cost it renewals:
    they end at the wanted end of the ticket even if the client has asked for a later end of
    renewals.  And the end of renewals is put to no test, unlike the end of the ticket: a
    client that asks for an end of renewals in the past gets it.
-/

namespace Kerberos

/-- The same request from a client that also settles for renewals. -/
def RequestBody.settling (request : RequestBody) : RequestBody :=
  { request with options := request.options ||| .renewableOk }

/-- The ticket ends before the wanted end. -/
def RequestBody.CutShort (request : RequestBody) (endTime : Instant) : Prop :=
  ∃ till, request.till = some till ∧ endTime < till

theorem RequestBody.settling_settlesForRenewals_iff {request : RequestBody} {endTime : Instant} :
    request.settling.SettlesForRenewals endTime ↔ request.CutShort endTime :=
  ⟨And.right, fun hcut => ⟨KdcOptions.contains_or_self _ _, hcut⟩⟩

namespace Validity

/-- The ticket is valid for the same time, and it is renewable if `v` is. -/
structure Keeps (w v : Validity) : Prop where
  startTime : w.startTime = v.startTime
  endTime : w.endTime = v.endTime
  postdated : w.postdated = v.postdated
  renewable : v.renewable → w.renewable

section chosen
variable {c : RealmConfig} {request : RequestBody} {now : Instant} {v : Validity}

/-- Renewals end at the wanted end or at the end of the longest renewals. -/
theorem Chosen.renewTill_eq_some (h : v.Chosen c request now) {last : Instant}
    (hlast : v.renewTill = some last) :
    c.renewableAllowed = true ∧ ∃ wanted, wantedRenewal c request v.endTime = some wanted ∧
      last = min wanted (v.startTime.addCapped c.renewal) := by
  rw [h.renewTill, Option.map_eq_some_iff] at hlast
  obtain ⟨wanted, hwanted, rfl⟩ := hlast
  have hallowed := h.allowed (by rw [hwanted]; rfl)
  exact ⟨hallowed, wanted, hwanted, rfl⟩

theorem Chosen.start_le_infinity (h : v.Chosen c request now) :
    v.startTime ≤ Instant.infinity := by
  have hend : v.endTime ≤ v.startTime.addCapped c.lifetime := by
    rw [h.endTime, Instant.le_iff, chooseEnd, Instant.nanos_min]
    omega
  have hcap := v.startTime.addCapped_le_infinity (Duration.ofConfigured_nonneg c.lifetimeSeconds)
  have hordered := h.ordered
  unfold RealmConfig.lifetime at hend
  rw [Instant.le_iff] at *
  omega

/-- The longest renewals do not end before the ticket starts. -/
theorem Chosen.start_le_longest (h : v.Chosen c request now) :
    v.startTime ≤ v.startTime.addCapped c.renewal :=
  Instant.le_addCapped h.start_le_infinity (Duration.ofConfigured_nonneg c.renewalSeconds)

/-! ## Settling for renewals -/

theorem chooseStart_settling (c : RealmConfig) (request : RequestBody) (now : Instant) :
    chooseStart c request.settling now = chooseStart c request now :=
  chooseStart_congr c now (KdcOptions.contains_or_of_apart rfl request.options)

theorem asked_settling (request : RequestBody) :
    wantedRenewal.asked request.settling = wantedRenewal.asked request :=
  asked_congr (KdcOptions.contains_or_of_apart rfl request.options)

theorem wantedRenewal_settling_of_cut {endTime : Instant} (hcut : request.CutShort endTime)
    (hallowed : c.renewableAllowed = true) :
    wantedRenewal c request.settling endTime = request.till :=
  wantedRenewal_of_settles (RequestBody.settling_settlesForRenewals_iff.mpr hcut) hallowed

/-- A client whose ticket is not cut short has nothing to settle for. -/
theorem wantedRenewal_settling_of_not_cut {endTime : Instant}
    (h : ¬ (request.CutShort endTime ∧ c.renewableAllowed = true)) :
    wantedRenewal c request.settling endTime = wantedRenewal c request endTime := by
  have hsettling : ¬ (request.settling.SettlesForRenewals endTime ∧
      c.renewableAllowed = true) := by
    rwa [RequestBody.settling_settlesForRenewals_iff]
  have hsettles : ¬ (request.SettlesForRenewals endTime ∧ c.renewableAllowed = true) :=
    fun hboth => h ⟨hboth.1.2, hboth.2⟩
  rw [wantedRenewal_of_not_settles hsettling, wantedRenewal_of_not_settles hsettles,
    asked_settling]

/-- The period with the renewals of a client that settles for them. -/
def settling (v : Validity) (c : RealmConfig) (request : RequestBody) : Validity :=
  { v with
    renewTill := (wantedRenewal c request.settling v.endTime).map fun wanted =>
      min wanted (v.startTime.addCapped c.renewal) }

/-- A client that also settles for renewals is refused nothing. -/
theorem Chosen.settling (h : v.Chosen c request now) :
    (v.settling c request).Chosen c request.settling now where
  start := by rw [chooseStart_settling]; exact h.start
  endTime := h.endTime
  ordered := h.ordered
  notShort := h.notShort
  renewTill := rfl
  allowed := by
    intro hsome
    by_cases hcut : request.CutShort v.endTime ∧ c.renewableAllowed = true
    · exact hcut.2
    · apply h.allowed
      rw [← wantedRenewal_settling_of_not_cut hcut]
      exact hsome

theorem settling_renewTill_of_cut {till : Instant} (htill : request.till = some till)
    (hcut : v.endTime < till) (hallowed : c.renewableAllowed = true) :
    (v.settling c request).renewTill = some (min till (v.startTime.addCapped c.renewal)) := by
  unfold settling
  rw [wantedRenewal_settling_of_cut ⟨till, htill, hcut⟩ hallowed, htill]
  rfl

theorem Chosen.settling_renewTill_of_not_cut (h : v.Chosen c request now)
    (hcut : ¬ (request.CutShort v.endTime ∧ c.renewableAllowed = true)) :
    (v.settling c request).renewTill = v.renewTill := by
  rw [h.renewTill, ← wantedRenewal_settling_of_not_cut hcut]
  rfl

theorem Chosen.settling_keeps (h : v.Chosen c request now) : (v.settling c request).Keeps v where
  startTime := rfl
  endTime := rfl
  postdated := rfl
  renewable := by
    intro hrenewable
    unfold renewable at *
    by_cases hcut : request.CutShort v.endTime ∧ c.renewableAllowed = true
    · obtain ⟨⟨till, htill, hcut⟩, hallowed⟩ := hcut
      rw [settling_renewTill_of_cut htill hcut hallowed]
      rfl
    · rw [h.settling_renewTill_of_not_cut hcut]
      exact hrenewable

/-- Whoever settles for renewals as well gets a ticket for the same time, and a renewable one
    if it would have got a renewable one before.  But its renewals end earlier than before if
    the wanted end of the ticket lies between the end of the ticket and the end of the
    renewals before.  Then the wanted end of the ticket is the end of the renewals. -/
theorem settling_costs_only_renewals (h : choose c request now = .ok v) :
    ∃ w, choose c request.settling now = .ok w ∧ w.Keeps v ∧
      ∀ last, v.renewTill = some last → ∃ last', w.renewTill = some last' ∧
        (last' < last ↔ ∃ till, request.till = some till ∧ v.endTime < till ∧ till < last) ∧
        (last' < last → request.till = some last') := by
  have hchosen := choose_eq_ok h
  refine ⟨v.settling c request, hchosen.settling.choose_eq, hchosen.settling_keeps, ?_⟩
  intro last hlast
  obtain ⟨hallowed, wanted, -, hmin⟩ := hchosen.renewTill_eq_some hlast
  have hlongest : last ≤ v.startTime.addCapped c.renewal := by
    rw [hmin]
    exact Instant.min_le_right _ _
  by_cases hcut : request.CutShort v.endTime
  · -- Now the renewals end where the ticket was wanted to end, or with the longest renewals.  The
    -- longest renewals do not end before `last`, so only the wanted end can.
    obtain ⟨till, htill, hcut⟩ := hcut
    have hearlier : min till (v.startTime.addCapped c.renewal) < last → till < last := by
      intro hmin
      exact (Instant.min_lt_iff.mp hmin).resolve_right (Instant.not_lt.mpr hlongest)
    refine ⟨_, settling_renewTill_of_cut htill hcut hallowed, ?_, ?_⟩
    · constructor
      · intro hmin
        exact ⟨till, htill, hcut, hearlier hmin⟩
      · rintro ⟨till', htill', -, hbefore⟩
        rw [htill] at htill'
        cases htill'
        exact Instant.min_lt_iff.mpr (.inl hbefore)
    · intro hmin
      have hbefore := Instant.lt_of_lt_of_le (hearlier hmin) hlongest
      rw [Instant.min_eq_left_of_lt hbefore]
      exact htill
  · -- A ticket that is not cut short keeps its renewals as they were.
    have hsame := hchosen.settling_renewTill_of_not_cut fun hboth => hcut hboth.1
    refine ⟨last, hsame.trans hlast, ?_, ?_⟩
    · constructor
      · intro hless
        exact absurd hless (Instant.lt_irrefl last)
      · rintro ⟨till, htill, hends, -⟩
        exact absurd ⟨till, htill, hends⟩ hcut
    · intro hless
      exact absurd hless (Instant.lt_irrefl last)

end chosen

end Validity

namespace Sample

/-- Two days after noon, a day longer than tickets last. -/
def inTwoDays : Instant := ⟨1792152000000000000, by decide, by decide⟩

def inAWeek : Instant := ⟨1792584000000000000, by decide, by decide⟩

/-- The user wants a ticket for two days and renewals for a week. -/
def weekRequest : RequestBody :=
  { request.toRequestBody with
    options := .renewable, till := some inTwoDays, rtime := some inAWeek }

end Sample

namespace Validity

/-- The user may renew for a week, and for two days if it would settle for renewals. -/
theorem settling_costs_five_days :
    Sample.weekRequest.options.contains .renewableOk = false ∧
      ∃ v w, choose {} Sample.weekRequest Sample.noon = .ok v ∧
        choose {} Sample.weekRequest.settling Sample.noon = .ok w ∧
        v.renewTill = some Sample.inAWeek ∧ w.renewTill = some Sample.inTwoDays ∧
        Sample.inTwoDays < Sample.inAWeek :=
  ⟨rfl, _, _, rfl, rfl, rfl, rfl, by decide⟩

/-- Nothing else changes for the user. -/
theorem settling_costs_only_renewals_of_a_week :
    ∃ v w, choose {} Sample.weekRequest Sample.noon = .ok v ∧
      choose {} Sample.weekRequest.settling Sample.noon = .ok w ∧ w.Keeps v ∧
      w.renewTill = Sample.weekRequest.till := by
  have hchosen : ∃ v, choose {} Sample.weekRequest Sample.noon = .ok v ∧
      v.renewTill = some Sample.inAWeek ∧ v.endTime < Sample.inTwoDays := by
    exact ⟨_, rfl, rfl, by decide⟩
  obtain ⟨v, hv, hlast, hcut⟩ := hchosen
  obtain ⟨w, hw, hkeeps, hrenewals⟩ := settling_costs_only_renewals hv
  obtain ⟨last, hlast', hearlier, htill⟩ := hrenewals Sample.inAWeek hlast
  have hless : last < Sample.inAWeek :=
    hearlier.mpr ⟨Sample.inTwoDays, rfl, hcut, by decide⟩
  exact ⟨v, w, hv, hw, hkeeps, hlast'.trans (htill hless).symm⟩

/-! ## Renewals that end before the ticket starts -/

section chosen
variable {c : RealmConfig} {request : RequestBody} {now : Instant} {v : Validity}

/-- Whoever does not settle for renewals has named their end, or left it open. -/
theorem wanted_of_not_settles {endTime wanted : Instant}
    (hwanted : wantedRenewal c request endTime = some wanted)
    (h : ¬ request.SettlesForRenewals endTime) :
    wanted = request.rtime.getD Instant.infinity := by
  rw [wantedRenewal_of_not_settles fun hboth => h hboth.1] at hwanted
  unfold wantedRenewal.asked at hwanted
  split at hwanted
  · exact (Option.some.inj hwanted).symm
  · cases hwanted

/-- Only an end of renewals that the client has named can lie before the start. -/
theorem Chosen.named_of_early (h : v.Chosen c request now) {wanted : Instant}
    (hwanted : wantedRenewal c request v.endTime = some wanted)
    (hallowed : c.renewableAllowed = true) (hearly : wanted < v.startTime) :
    ¬ request.SettlesForRenewals v.endTime ∧ request.rtime = some wanted := by
  have hnot : ¬ request.SettlesForRenewals v.endTime := by
    -- The wanted end of a ticket that is cut short lies behind its end.
    intro hsettles
    rw [wantedRenewal_of_settles hsettles hallowed] at hwanted
    obtain ⟨-, till, htill, hcut⟩ := hsettles
    rw [htill] at hwanted
    cases hwanted
    exact Instant.not_lt.mpr h.ordered (Instant.lt_trans hcut hearly)
  have hnamed := wanted_of_not_settles hwanted hnot
  cases hrtime : request.rtime with
  | none =>
    rw [hnamed, hrtime] at hearly
    exact absurd hearly (Instant.not_lt.mpr h.start_le_infinity)
  | some rtime =>
    rw [hrtime] at hnamed
    exact ⟨hnot, congrArg some hnamed.symm⟩

/-- A ticket never ends before it starts, but its renewals may.  They do so if the client names
    an end of renewals before the start, and gets what it has named because it does not settle
    for the wanted end of its ticket. -/
theorem renewals_end_before_start_iff (h : choose c request now = .ok v) :
    v.startTime ≤ v.endTime ∧
      ∀ last, v.renewTill = some last →
        (last < v.startTime ↔ ¬ request.SettlesForRenewals v.endTime ∧
          ∃ rtime, request.rtime = some rtime ∧ rtime < v.startTime) ∧
        (last < v.startTime → request.rtime = some last) := by
  have hchosen := choose_eq_ok h
  refine ⟨hchosen.ordered, ?_⟩
  intro last hlast
  obtain ⟨hallowed, wanted, hwanted, rfl⟩ := hchosen.renewTill_eq_some hlast
  have hlongest := hchosen.start_le_longest
  have hearly : min wanted (v.startTime.addCapped c.renewal) < v.startTime →
      wanted < v.startTime := by
    intro hmin
    exact (Instant.min_lt_iff.mp hmin).resolve_right (Instant.not_lt.mpr hlongest)
  constructor
  · constructor
    · intro hmin
      obtain ⟨hnot, hrtime⟩ := hchosen.named_of_early hwanted hallowed (hearly hmin)
      exact ⟨hnot, wanted, hrtime, hearly hmin⟩
    · rintro ⟨hnot, rtime, hrtime, hbefore⟩
      have hnamed := wanted_of_not_settles hwanted hnot
      rw [hrtime] at hnamed
      rw [hnamed]
      exact Instant.min_lt_iff.mpr (.inl hbefore)
  · intro hmin
    have hwhole := Instant.min_eq_left_of_lt
      (Instant.lt_of_lt_of_le (hearly hmin) hlongest)
    rw [hwhole]
    exact (hchosen.named_of_early hwanted hallowed (hearly hmin)).2

end chosen

end Validity

namespace Sample

/-- An hour before noon. -/
def eleven : Instant := ⟨1791975600000000000, by decide, by decide⟩

/-- An hour after noon. -/
def one : Instant := ⟨1791982800000000000, by decide, by decide⟩

/-- The user wants a ticket until one, and renewals until eleven. -/
def lateRequest : RequestBody :=
  { request.toRequestBody with options := .renewable, till := some one, rtime := some eleven }

end Sample

namespace Validity

theorem choose_lateRequest :
    ∃ v, choose {} Sample.lateRequest Sample.noon = .ok v ∧ v.startTime = Sample.noon ∧
      v.renewTill = some Sample.eleven :=
  ⟨_, rfl, rfl, rfl⟩

/-- At noon the user gets renewals until eleven. -/
theorem renewals_end_before_start_at_noon :
    ∃ v, choose {} Sample.lateRequest Sample.noon = .ok v ∧
      v.renewTill = some Sample.eleven ∧ Sample.eleven < v.startTime ∧
      v.startTime ≤ v.endTime := by
  obtain ⟨v, hv, hstart, hlast⟩ := choose_lateRequest
  obtain ⟨hordered, hrenewals⟩ := renewals_end_before_start_iff hv
  have hnot : ¬ Sample.lateRequest.SettlesForRenewals v.endTime := fun h => by cases h.1
  have hbefore : Sample.eleven < v.startTime := by
    rw [(hrenewals Sample.eleven hlast).1, hstart]
    exact ⟨hnot, Sample.eleven, rfl, by decide⟩
  exact ⟨v, hv, hlast, hbefore, hordered⟩

/-- So it is not true of every ticket that its renewals end no earlier than it starts. -/
theorem renewals_may_end_before_start :
    ¬ ∀ (c : RealmConfig) (request : RequestBody) (now : Instant) (v : Validity) (last : Instant),
      now ≤ .infinity → choose c request now = .ok v → v.renewTill = some last →
        v.startTime ≤ last := by
  intro hnever
  obtain ⟨v, hv, hstart, hlast⟩ := choose_lateRequest
  have hle := hnever {} Sample.lateRequest Sample.noon v Sample.eleven (by decide) hv hlast
  rw [hstart] at hle
  exact absurd hle (by decide)

end Validity

end Kerberos
