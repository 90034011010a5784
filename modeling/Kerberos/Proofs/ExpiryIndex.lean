import Mathlib.Data.List.Nodup
import Kerberos.Proofs.ReplayLog

/-! # The buckets index what is remembered

    Eviction reads off the buckets what to forget and looks at nothing else.  A record that
    stood in no bucket would be remembered for ever, and one that still stood in the bucket
    of an earlier acceptance would be forgotten too early.  `ReplayCache.Indexed` says that
    neither happens: a record stands in the buckets once, under the expiry time of the
    acceptance that is remembered, and in none if that time is no instant.

    `Consistent` says where a record stands but does not count.  `Filed` adds the counting,
    and every check keeps it, whatever the order of the times and of the records.
-/

namespace Kerberos

/-- A list without repetitions that has the members of an option is that option. -/
theorem list_eq_toList_of_nodup {α : Type} {l : List α} {o : Option α} (hnodup : l.Nodup)
    (hmem : ∀ a, a ∈ l ↔ o = some a) : l = o.toList := by
  cases o with
  | none =>
    apply List.eq_nil_iff_forall_not_mem.mpr
    intro a ha
    cases (hmem a).mp ha
  | some b =>
    apply List.perm_singleton.mp
    apply (List.perm_ext_iff_of_nodup hnodup (List.nodup_singleton b)).mpr
    intro a
    rw [hmem, List.mem_singleton, Option.some.injEq]
    exact eq_comm

namespace ExpiryBucket

/-- The expiry times under which a record stands in the buckets, as often as it stands there. -/
def expiriesOf (record : ReplayRecord) (buckets : List ExpiryBucket) : List Instant :=
  ((entries buckets).filter (·.1 == record)).map (·.2)

theorem mem_expiriesOf {record : ReplayRecord} {buckets : List ExpiryBucket} {expiry : Instant} :
    expiry ∈ expiriesOf record buckets ↔ (record, expiry) ∈ entries buckets := by
  simp [expiriesOf]

theorem nodup_expiriesOf {buckets : List ExpiryBucket} (h : (entries buckets).Nodup)
    (record : ReplayRecord) : (expiriesOf record buckets).Nodup := by
  apply List.Nodup.map_on
  · -- Two entries of one record differ in their expiry times, if they differ.
    intro a ha b hb hexpiry
    have ha' : a.1 = record := by simpa using (List.mem_filter.mp ha).2
    have hb' : b.1 = record := by simpa using (List.mem_filter.mp hb).2
    exact Prod.ext (ha'.trans hb'.symm) hexpiry
  · exact h.filter _

end ExpiryBucket

namespace ReplayCache

/-! ## Counting -/

/-- The buckets agree with what is remembered, no bucket holds a record twice, and none is
    empty. -/
structure Filed (c : ReplayCache) : Prop where
  consistent : c.Consistent
  once : (ExpiryBucket.entries c.buckets).Nodup
  filled : ∀ bucket ∈ c.buckets, bucket.records ≠ []

theorem Filed.empty (retention : Duration) : (empty retention).Filed where
  consistent := Consistent.empty retention
  once := List.nodup_nil
  filled := by
    intro bucket hbucket
    cases hbucket

theorem Filed.evict {c : ReplayCache} (h : c.Filed) (now : Instant) : (c.evict now).Filed where
  consistent := h.consistent.evict now
  once := by
    -- What is left of the buckets is their end.
    obtain ⟨expired, hsplit⟩ := List.dropWhile_suffix (l := c.buckets) (·.expiry < now)
    have honce := h.once
    rw [← hsplit, ExpiryBucket.entries, List.flatMap_append] at honce
    exact honce.of_append_right
  filled := by
    intro bucket hbucket
    exact h.filled bucket ((List.dropWhile_sublist _).subset hbucket)

theorem Filed.remember {c : ReplayCache} (h : c.Filed) {record : ReplayRecord}
    (hnew : ∀ t, (record, t) ∉ c.seen) (now : Instant) : (c.remember record now).Filed where
  consistent := h.consistent.remember hnew now
  once := by
    unfold ReplayCache.remember
    cases now.add? c.retention with
    | none => exact h.once
    | some expiry =>
      apply (ExpiryBucket.entries_add_perm expiry record c.buckets).nodup_iff.mpr
      apply List.nodup_cons.mpr
      refine ⟨?_, h.once⟩
      intro hmem
      -- A record in a bucket is remembered, and this one is new.
      obtain ⟨t, hseen, -⟩ := (h.consistent.indexed record expiry).mp hmem
      exact hnew t hseen
  filled := by
    unfold ReplayCache.remember
    cases now.add? c.retention with
    | none => exact h.filled
    | some expiry =>
      intro bucket hbucket
      rcases ExpiryBucket.mem_add hbucket with hold | rfl | ⟨other, -, -, rfl⟩
      · exact h.filled bucket hold
      · simp
      · simp

theorem Filed.check {c : ReplayCache} (h : c.Filed) (record : ReplayRecord) (now : Instant) :
    (c.check record now).2.Filed :=
  check_keeps (h.evict now) fun hnew => (h.evict now).remember hnew now

theorem filed_after (retention : Duration) (checks : List ReplayCheck) :
    ((empty retention).after checks).Filed := by
  apply memoryAfter_invariant ReplayCache.check Filed
  · intro c record now h
    exact h.check record now
  · exact Filed.empty retention

/-! ## The index -/

/-- The buckets index the remembered records by expiry time. -/
structure Indexed (c : ReplayCache) : Prop where
  /-- No record is remembered with two times. -/
  distinct : (c.seen.map (·.1)).Nodup
  /-- No expiry time has two buckets. -/
  ascending : ExpiryBucket.Ascending c.buckets
  /-- A remembered record stands in the buckets once, under its expiry time, or in none if it
      never expires. -/
  expiries : ∀ record t, (record, t) ∈ c.seen →
    ExpiryBucket.expiriesOf record c.buckets = (t.add? c.retention).toList
  remembered : ∀ bucket ∈ c.buckets, ∀ record ∈ bucket.records, ∃ t, (record, t) ∈ c.seen
  filled : ∀ bucket ∈ c.buckets, bucket.records ≠ []

theorem Filed.indexed {c : ReplayCache} (h : c.Filed) : c.Indexed where
  distinct := h.consistent.distinct
  ascending := h.consistent.ascending
  expiries := by
    intro record t hseen
    apply list_eq_toList_of_nodup (ExpiryBucket.nodup_expiriesOf h.once record)
    intro expiry
    rw [ExpiryBucket.mem_expiriesOf, h.consistent.indexed]
    constructor
    · rintro ⟨t', hseen', hexpiry⟩
      rw [h.consistent.time_unique hseen hseen']
      exact hexpiry
    · intro hexpiry
      exact ⟨t, hseen, hexpiry⟩
  remembered := by
    intro bucket hbucket record hrecord
    have hentry := ExpiryBucket.mem_entries.mpr ⟨bucket, hbucket, rfl, hrecord⟩
    obtain ⟨t, hseen, -⟩ := (h.consistent.indexed record bucket.expiry).mp hentry
    exact ⟨t, hseen⟩
  filled := h.filled

/-- After a check no bucket is overdue, unless the record was remembered by this check and had
    expired before it came. -/
theorem Consistent.overdue_of_check {c : ReplayCache} (h : c.Consistent) {record : ReplayRecord}
    {now : Instant} {bucket : ExpiryBucket} (hbucket : bucket ∈ (c.check record now).2.buckets)
    (hoverdue : bucket.expiry < now) :
    (c.check record now).1 = .fresh ∧ c.retention.nanos < 0 ∧
      now.add? c.retention = some bucket.expiry ∧ bucket.records = [record] := by
  -- The eviction at the start of the check leaves nothing overdue.
  have hevicted : ∀ other ∈ (c.evict now).buckets, ¬ other.expiry < now := by
    intro other hother
    exact ((ExpiryBucket.mem_dropWhile_iff h.ascending now other).mp hother).2
  cases hcontains : (c.evict now).contains record with
  | true =>
    rw [check_of_contains hcontains] at hbucket
    exact absurd hoverdue (hevicted bucket hbucket)
  | false =>
    rw [check_of_not_contains hcontains] at hbucket ⊢
    have hretention : (c.evict now).retention = c.retention := rfl
    unfold ReplayCache.remember at hbucket
    rw [hretention] at hbucket
    cases hexpiry : now.add? c.retention with
    | none =>
      rw [hexpiry] at hbucket
      exact absurd hoverdue (hevicted bucket hbucket)
    | some expiry =>
      rw [hexpiry] at hbucket
      have hnanos := Instant.nanos_of_add? hexpiry
      rcases ExpiryBucket.mem_add hbucket with hold | rfl | ⟨other, hother, hsame, rfl⟩
      · exact absurd hoverdue (hevicted bucket hold)
      · have hbefore : expiry.nanos < now.nanos := hoverdue
        exact ⟨rfl, by omega, rfl, rfl⟩
      · rw [← hsame] at hoverdue
        exact absurd hoverdue (hevicted other hother)

/-- After every run of checks, in whichever order the times come, the buckets index what is
    remembered, and what is remembered is what was accepted and has not been found overdue
    since.  A check leaves no bucket overdue but that of its own record, and an eviction
    forgets exactly the records that expire before it. -/
theorem indexed_after (retention : Duration) (checks : List ReplayCheck) :
    let c := (empty retention).after checks
    c.retention = retention ∧ c.Indexed ∧
    (∀ record t, (record, t) ∈ c.seen ↔ HeldSince retention checks record t) ∧
    (∀ record now, ∀ bucket ∈ (c.check record now).2.buckets, bucket.expiry < now →
      (c.check record now).1 = .fresh ∧ retention.nanos < 0 ∧
        now.add? retention = some bucket.expiry ∧ bucket.records = [record]) ∧
    ∀ record t, (record, t) ∈ c.seen → ∀ now,
      (record, t) ∈ (c.evict now).seen ↔
        ∀ expiry, t.add? retention = some expiry → now ≤ expiry := by
  intro c
  have hfiled : c.Filed := filed_after retention checks
  have hretention : c.retention = retention := after_retention retention checks
  refine ⟨hretention, hfiled.indexed, fun record t => mem_after_iff, ?_, ?_⟩
  · intro record now bucket hbucket hoverdue
    have hown := hfiled.consistent.overdue_of_check hbucket hoverdue
    rw [hretention] at hown
    exact hown
  · intro record t hseen now
    rw [hfiled.consistent.mem_evict_iff, hretention, not_forgotten_iff]
    constructor
    · intro hkept
      exact hkept.2
    · intro hlive
      exact ⟨hseen, hlive⟩

/-- A timestamp is forgotten after ten minutes, and the clock is set back.  Accepted anew, it
    stands under its new expiry time alone and is kept until then.  Under a retention below
    zero the bucket of a record is overdue from the start. -/
theorem indexed_after_of_repeated :
    let record : ReplayRecord := ⟨"PW13", Instant.epoch, 1⟩
    let other : ReplayRecord := ⟨"PW14", Instant.epoch, 1⟩
    let minute (n : Nat) (h : n < 60) : Instant := ⟨n * 60000000000, by omega, by omega⟩
    let first : ReplayCheck := ⟨record, minute 2 (by decide)⟩
    let later : ReplayCheck := ⟨other, minute 13 (by decide)⟩
    let again : ReplayCheck := ⟨record, minute 1 (by decide)⟩
    let c := (empty (Duration.ofSeconds 600)).after [first, later, again]
    ExpiryBucket.expiriesOf record c.buckets = [minute 11 (by decide)] ∧
      HeldSince (Duration.ofSeconds 600) [first, later, again] record again.now ∧
      (record, again.now) ∈ (c.evict (minute 11 (by decide))).seen ∧
      (record, again.now) ∉ (c.evict (minute 12 (by decide))).seen ∧
      ∃ bucket ∈ ((empty (Duration.ofSeconds (-60))).check record again.now).2.buckets,
        bucket.expiry < again.now ∧ bucket.records = [record] := by
  intro record other minute first later again c
  have hafter := indexed_after (Duration.ofSeconds 600) [first, later, again]
  obtain ⟨hretention, hindexed, hheld, -, hevicted⟩ := hafter
  have hseen : (record, again.now) ∈ c.seen := by decide
  have hend : again.now.add? (Duration.ofSeconds 600) = some (minute 11 (by decide)) := by decide
  refine ⟨?_, (hheld record again.now).mp hseen, ?_, ?_, ?_⟩
  · have hexpiries := hindexed.expiries record again.now hseen
    rw [hretention, hend] at hexpiries
    exact hexpiries
  · apply (hevicted record again.now hseen (minute 11 (by decide))).mpr
    intro expiry hexpiry
    rw [hend, Option.some.injEq] at hexpiry
    subst hexpiry
    exact Int.le_refl _
  · intro hkept
    have hlive := (hevicted record again.now hseen (minute 12 (by decide))).mp hkept
    exact absurd (hlive _ hend) (by decide)
  · -- The bucket of a record that had expired when it came.
    obtain ⟨-, -, -, hoverdue, -⟩ := indexed_after (Duration.ofSeconds (-60)) []
    have hbucket : (⟨minute 0 (by decide), [record]⟩ : ExpiryBucket) ∈
        ((empty (Duration.ofSeconds (-60))).check record again.now).2.buckets := by decide
    have hbefore : minute 0 (by decide) < again.now := by decide
    obtain ⟨-, -, -, hrecords⟩ := hoverdue record again.now _ hbucket hbefore
    exact ⟨_, hbucket, hbefore, hrecords⟩

end ReplayCache

end Kerberos
