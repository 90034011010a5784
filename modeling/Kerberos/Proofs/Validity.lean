import Kerberos.Exchange.Validity
import Kerberos.Proofs.Exchange
import Kerberos.Proofs.Instant

/-! # What a validity period says about the request

    `Validity.choose` settles the start first, then the end, and then the end of renewals.
    `Validity.Chosen` lists what it has decided if it comes to a period at all, with one field
    for each decision, and everything else about periods follows from that list.

    Two of the decisions show in the flags of a ticket: whether it is postdated, which means
    that the request wants a start later than the skew allows (`RequestBody.StartsLate`), and
    whether it is renewable.
-/

namespace Kerberos

/-- The wanted start lies later than the skew allows.  The bound is the last second of all if
    the clock and the skew come to more than that. -/
def RequestBody.StartsLate (request : RequestBody) (c : RealmConfig) (now : Instant) : Prop :=
  ∃ start, request.start = some start ∧
    min (now.nanos + c.skew.nanos) Instant.infinity.nanos < start.nanos

/-- The ticket ends before the wanted end, and the client has said that it takes a renewable
    ticket in place of the longer life. -/
def RequestBody.SettlesForRenewals (request : RequestBody) (endTime : Instant) : Prop :=
  request.options.contains .renewableOk ∧ ∃ till, request.till = some till ∧ endTime < till

namespace Validity

/-! ## The start -/

theorem lt_of_addCapped_skew_iff {c : RealmConfig} {now start : Instant} :
    now.addCapped c.skew < start ↔
      min (now.nanos + c.skew.nanos) Instant.infinity.nanos < start.nanos := by
  have hskew : 0 ≤ c.skew.nanos := Duration.ofConfigured_nonneg c.skewSeconds
  rw [Instant.lt_iff, Instant.nanos_addCapped now hskew]

/-- A late start is granted to those who ask for a postdated ticket. -/
theorem chooseStart_of_late {c : RealmConfig} {request : RequestBody} {now start : Instant}
    (hstart : request.start = some start)
    (hlate : min (now.nanos + c.skew.nanos) Instant.infinity.nanos < start.nanos) :
    chooseStart c request now =
      if request.options.contains .postdated then .ok (start, true)
      else .error .cannotPostdate := by
  unfold chooseStart
  rw [hstart]
  exact if_pos (lt_of_addCapped_skew_iff.mpr hlate)

/-- Any other start is now. -/
theorem chooseStart_of_not_late {c : RealmConfig} {request : RequestBody} {now : Instant}
    (h : ¬ request.StartsLate c now) : chooseStart c request now = .ok (now, false) := by
  unfold chooseStart
  cases hstart : request.start with
  | none => rfl
  | some start =>
    have hearly : ¬ now.addCapped c.skew < start :=
      fun hlate => h ⟨start, hstart, lt_of_addCapped_skew_iff.mp hlate⟩
    exact if_neg hearly

/-! ## The end of renewals -/

theorem asked_isSome (request : RequestBody) :
    (wantedRenewal.asked request).isSome = request.options.contains .renewable := by
  unfold wantedRenewal.asked
  by_cases h : request.options.contains .renewable = true
  · rw [if_pos h, h]
    rfl
  · rw [if_neg h, Bool.eq_false_iff.mpr h]
    rfl

/-- A client that settles for renewals gets them as long as it wanted its ticket to last. -/
theorem wantedRenewal_of_settles {c : RealmConfig} {request : RequestBody} {endTime : Instant}
    (h : request.SettlesForRenewals endTime) (hallowed : c.renewableAllowed = true) :
    wantedRenewal c request endTime = request.till := by
  obtain ⟨hcontent, till, htill, hcut⟩ := h
  have hall : (request.options.contains .renewableOk && endTime < till && c.renewableAllowed) =
      true := by
    rw [hcontent, hallowed, decide_eq_true hcut]
    rfl
  unfold wantedRenewal
  rw [htill]
  exact if_pos hall

/-- Anyone else gets the renewals that it has asked for. -/
theorem wantedRenewal_of_not_settles {c : RealmConfig} {request : RequestBody}
    {endTime : Instant} (h : ¬ (request.SettlesForRenewals endTime ∧ c.renewableAllowed = true)) :
    wantedRenewal c request endTime = wantedRenewal.asked request := by
  unfold wantedRenewal
  cases htill : request.till with
  | none => rfl
  | some till =>
    apply if_neg
    intro hall
    simp only [Bool.and_eq_true, decide_eq_true_eq] at hall
    exact h ⟨⟨hall.1.1, till, htill, hall.1.2⟩, hall.2⟩

theorem wantedRenewal_isSome_iff {c : RealmConfig} {request : RequestBody} {endTime : Instant} :
    (wantedRenewal c request endTime).isSome ↔
      request.options.contains .renewable ∨
      request.SettlesForRenewals endTime ∧ c.renewableAllowed := by
  by_cases hsettles : request.SettlesForRenewals endTime ∧ c.renewableAllowed = true
  · have htill : request.till.isSome := by
      obtain ⟨-, till, htill, -⟩ := hsettles.1
      rw [htill]
      rfl
    rw [wantedRenewal_of_settles hsettles.1 hsettles.2]
    exact ⟨fun _ => .inr hsettles, fun _ => htill⟩
  · rw [wantedRenewal_of_not_settles hsettles, asked_isSome]
    exact ⟨Or.inl, fun h => h.resolve_right hsettles⟩

/-! ## The whole period -/

/-- The period is the one that was chosen. -/
structure Chosen (v : Validity) (c : RealmConfig) (request : RequestBody) (now : Instant) :
    Prop where
  start : chooseStart c request now = .ok (v.startTime, v.postdated)
  endTime : v.endTime = chooseEnd c request v.startTime
  ordered : v.startTime ≤ v.endTime
  notShort : ¬ v.endTime - v.startTime < c.skew
  renewTill : v.renewTill =
    (wantedRenewal c request v.endTime).map fun wanted =>
      min wanted (v.startTime.addCapped c.renewal)
  allowed : (wantedRenewal c request v.endTime).isSome → c.renewableAllowed

/-- Once the start is settled, a period comes out unless one of three refusals is due. -/
theorem choose_of_start {c : RealmConfig} {request : RequestBody} {now start : Instant}
    {postdated : Bool} (h : chooseStart c request now = .ok (start, postdated)) :
    choose c request now =
      let endTime := chooseEnd c request start
      if endTime < start then .error (.neverValid (.endsBeforeStart endTime start))
      else if endTime - start < c.skew then
        .error (.neverValid (.shorterThanSkew (endTime - start)))
      else if (wantedRenewal c request endTime).isSome && !c.renewableAllowed then
        .error (.policyViolation .renewable)
      else
        .ok {
          startTime := start, endTime, postdated
          renewTill := (wantedRenewal c request endTime).map fun wanted =>
            min wanted (start.addCapped c.renewal) } := by
  unfold choose
  rw [h]
  simp only [throw, throwThe, MonadExceptOf.throw, bind, Except.bind]
  by_cases hends : chooseEnd c request start < start
  · simp only [hends, ↓reduceIte]
  by_cases hshort : chooseEnd c request start - start < c.skew
  · simp only [hends, hshort, ↓reduceIte]
  simp only [hends, hshort, ↓reduceIte]
  cases wantedRenewal c request (chooseEnd c request start) with
  | none => rfl
  | some wanted =>
    by_cases hforbidden : (!c.renewableAllowed) = true
    · simp [hforbidden]
    · simp [hforbidden, pure, Except.pure]

theorem choose_eq_ok {c : RealmConfig} {request : RequestBody} {now : Instant} {v : Validity}
    (h : choose c request now = .ok v) : v.Chosen c request now := by
  obtain ⟨⟨start, postdated⟩, hstart, -⟩ := except_bind_eq_ok_iff.mp h
  rw [choose_of_start hstart] at h
  -- There is a period, so none of the refusals was due.
  by_cases hends : chooseEnd c request start < start
  · simp [hends] at h
  by_cases hshort : chooseEnd c request start - start < c.skew
  · simp [hends, hshort] at h
  by_cases hforbidden : ((wantedRenewal c request (chooseEnd c request start)).isSome &&
      !c.renewableAllowed) = true
  · simp only [hends, hshort, hforbidden, ↓reduceIte] at h
    cases h
  simp only [hends, hshort, hforbidden, Bool.false_eq_true, ↓reduceIte, Except.ok.injEq] at h
  subst h
  exact {
    start := hstart
    endTime := rfl
    ordered := Instant.not_lt.mp hends
    notShort := hshort
    renewTill := rfl
    allowed := by
      intro hsome
      simpa [hsome] using hforbidden }

/-- Decisions that pass every test make a period. -/
theorem Chosen.choose_eq {c : RealmConfig} {request : RequestBody} {now : Instant} {v : Validity}
    (h : v.Chosen c request now) : choose c request now = .ok v := by
  obtain ⟨startTime, endTime, renewTill, postdated⟩ := v
  obtain ⟨hstart, hend, hordered, hlong, hrenewal, hallowed⟩ := h
  simp only at hstart hend hordered hlong hrenewal hallowed
  subst hend hrenewal
  have hpermitted : ¬ ((wantedRenewal c request (chooseEnd c request startTime)).isSome &&
      !c.renewableAllowed) = true := by
    intro hforbidden
    simp only [Bool.and_eq_true, Bool.not_eq_true'] at hforbidden
    rw [hallowed hforbidden.1] at hforbidden
    cases hforbidden.2
  rw [choose_of_start hstart]
  simp only
  rw [if_neg (Instant.not_lt.mpr hordered), if_neg hlong, if_neg hpermitted]

/-! ## What shows in the flags -/

section chosen
variable {c : RealmConfig} {request : RequestBody} {now : Instant} {v : Validity}

/-- A late start is the start that was wanted, and a postdated ticket was asked for. -/
theorem Chosen.of_late (h : v.Chosen c request now) (hlate : request.StartsLate c now) :
    v.postdated = true ∧ request.options.contains .postdated = true ∧
      request.start = some v.startTime := by
  obtain ⟨start, hstart, hbound⟩ := hlate
  have hchosen := h.start
  rw [chooseStart_of_late hstart hbound] at hchosen
  by_cases hasked : request.options.contains .postdated = true
  · rw [if_pos hasked] at hchosen
    have hpair := Prod.mk.inj (Except.ok.inj hchosen)
    rw [← hpair.1, ← hpair.2]
    exact ⟨rfl, hasked, hstart⟩
  · rw [if_neg hasked] at hchosen
    cases hchosen

/-- Any other ticket starts at once. -/
theorem Chosen.of_not_late (h : v.Chosen c request now) (hearly : ¬ request.StartsLate c now) :
    v.postdated = false ∧ v.startTime = now := by
  have hchosen := h.start
  rw [chooseStart_of_not_late hearly] at hchosen
  have hpair := Prod.mk.inj (Except.ok.inj hchosen)
  exact ⟨hpair.2.symm, hpair.1.symm⟩

theorem Chosen.postdated_iff (h : v.Chosen c request now) :
    v.postdated = true ↔ request.StartsLate c now := by
  constructor
  · intro hpostdated
    by_cases hlate : request.StartsLate c now
    · exact hlate
    · rw [(h.of_not_late hlate).1] at hpostdated
      cases hpostdated
  · exact fun hlate => (h.of_late hlate).1

theorem Chosen.renewable_iff (h : v.Chosen c request now) :
    v.renewTill.isSome ↔ c.renewableAllowed ∧
      (request.options.contains .renewable ∨ request.SettlesForRenewals v.endTime) := by
  have hwanted : v.renewTill.isSome = (wantedRenewal c request v.endTime).isSome := by
    rw [h.renewTill, Option.isSome_map]
  constructor
  · intro hsome
    rw [hwanted] at hsome
    have hallowed := h.allowed hsome
    exact ⟨hallowed, (wantedRenewal_isSome_iff.mp hsome).imp id And.left⟩
  · intro hgranted
    rw [hwanted, wantedRenewal_isSome_iff]
    exact hgranted.2.imp id fun hsettles => ⟨hsettles, hgranted.1⟩

end chosen

end Validity

end Kerberos
