import Kerberos.Proofs.Instant
import Kerberos.ReplayLog

/-! # What the replay cache remembers

    The cache keeps its records twice: all of them with the times at which they were
    accepted, and those that expire in buckets by expiry time.  `ReplayCache.Consistent` says
    that the two agree.  It holds of an empty cache and is kept by every check, whatever the
    order of the times, and it makes eviction forget exactly the records whose retention has
    ended (`Consistent.evict_seen`).
-/

namespace Kerberos

/-! ## Buckets -/

namespace ExpiryBucket

/-- The records of all buckets with their expiry times. -/
def entries (buckets : List ExpiryBucket) : List (ReplayRecord × Instant) :=
  buckets.flatMap fun bucket => bucket.records.map fun record => (record, bucket.expiry)

/-- The buckets stand in the order of their expiry times, and no two have the same. -/
def Ascending (buckets : List ExpiryBucket) : Prop :=
  buckets.Pairwise fun a b => a.expiry < b.expiry

theorem mem_entries {buckets : List ExpiryBucket} {record : ReplayRecord} {expiry : Instant} :
    (record, expiry) ∈ entries buckets ↔
      ∃ bucket ∈ buckets, bucket.expiry = expiry ∧ record ∈ bucket.records := by
  simp only [entries, List.mem_flatMap, List.mem_map, Prod.mk.injEq]
  constructor
  · rintro ⟨bucket, hbucket, _, hrecord, rfl, rfl⟩
    exact ⟨bucket, hbucket, rfl, hrecord⟩
  · rintro ⟨bucket, hbucket, rfl, hrecord⟩
    exact ⟨bucket, hbucket, record, hrecord, rfl, rfl⟩

/-- Adding a record adds one entry, wherever its bucket stands. -/
theorem entries_add_perm (expiry : Instant) (record : ReplayRecord) (buckets : List ExpiryBucket) :
    (entries (add expiry record buckets)).Perm ((record, expiry) :: entries buckets) := by
  induction buckets with
  | nil => exact List.Perm.refl _
  | cons bucket buckets ih =>
    unfold add
    split
    · -- The record gets a bucket of its own in front.
      exact List.Perm.refl _
    · next hlt =>
      split
      · -- The record goes somewhere behind the first bucket.
        simp only [entries, List.flatMap_cons] at ih ⊢
        exact (ih.append_left _).trans List.perm_middle
      · next hgt =>
        -- Neither earlier nor later: the first bucket is the one.
        have hexpiry : expiry = bucket.expiry := Instant.eq_of_not_lt hlt hgt
        subst hexpiry
        simp only [entries, List.flatMap_cons, List.map_append, List.map_cons, List.map_nil,
          List.append_assoc, List.singleton_append]
        exact List.perm_middle

theorem mem_entries_add (expiry : Instant) (record : ReplayRecord) (buckets : List ExpiryBucket)
    (entry : ReplayRecord × Instant) :
    entry ∈ entries (add expiry record buckets) ↔
      entry = (record, expiry) ∨ entry ∈ entries buckets := by
  rw [(entries_add_perm expiry record buckets).mem_iff, List.mem_cons]

/-- A bucket is an old one, a new one for the record alone, or an old one with the record behind
    the others. -/
theorem mem_add {expiry : Instant} {record : ReplayRecord} {buckets : List ExpiryBucket}
    {bucket : ExpiryBucket} (h : bucket ∈ add expiry record buckets) :
    bucket ∈ buckets ∨ bucket = ⟨expiry, [record]⟩ ∨
      ∃ other ∈ buckets, other.expiry = expiry ∧ bucket = ⟨expiry, other.records ++ [record]⟩ := by
  induction buckets with
  | nil =>
    simp only [add, List.mem_singleton] at h
    exact .inr (.inl h)
  | cons head buckets ih =>
    unfold add at h
    split at h
    · rcases List.mem_cons.mp h with h | h
      · exact .inr (.inl h)
      · exact .inl h
    · next hlt =>
      split at h
      · rcases List.mem_cons.mp h with h | h
        · exact .inl (List.mem_cons.mpr (.inl h))
        · rcases ih h with h | h | ⟨other, hother, h⟩
          · exact .inl (List.mem_cons_of_mem _ h)
          · exact .inr (.inl h)
          · exact .inr (.inr ⟨other, List.mem_cons_of_mem _ hother, h⟩)
      · next hgt =>
        have hexpiry : head.expiry = expiry := Instant.eq_of_not_lt hgt hlt
        rcases List.mem_cons.mp h with h | h
        · rw [hexpiry] at h
          exact .inr (.inr ⟨head, List.mem_cons_self, hexpiry, h⟩)
        · exact .inl (List.mem_cons_of_mem _ h)

theorem mem_expiry_add {expiry : Instant} {record : ReplayRecord} {buckets : List ExpiryBucket}
    {bucket : ExpiryBucket} (h : bucket ∈ add expiry record buckets) :
    bucket.expiry = expiry ∨ ∃ other ∈ buckets, other.expiry = bucket.expiry := by
  rcases mem_add h with h | rfl | ⟨other, hother, -, rfl⟩
  · exact .inr ⟨bucket, h, rfl⟩
  · exact .inl rfl
  · exact .inl rfl

theorem ascending_add (expiry : Instant) (record : ReplayRecord) {buckets : List ExpiryBucket}
    (h : Ascending buckets) : Ascending (add expiry record buckets) := by
  induction buckets with
  | nil => exact List.pairwise_singleton _ _
  | cons head buckets ih =>
    obtain ⟨hhead, htail⟩ := List.pairwise_cons.mp h
    unfold add
    split
    · next hlt =>
      refine List.pairwise_cons.mpr ⟨fun bucket hbucket => ?_, h⟩
      rcases List.mem_cons.mp hbucket with rfl | hbucket
      · exact hlt
      · exact Instant.lt_trans hlt (hhead bucket hbucket)
    · split
      · next hgt =>
        -- What is added behind the first bucket expires later than it, like all else there.
        refine List.pairwise_cons.mpr ⟨fun bucket hbucket => ?_, ih htail⟩
        rcases mem_expiry_add hbucket with heq | ⟨other, hother, heq⟩
        · rw [heq]
          exact hgt
        · rw [← heq]
          exact hhead other hother
      · exact List.pairwise_cons.mpr ⟨hhead, htail⟩

/-- In ascending order, the buckets that have expired by `now` are the first ones. -/
theorem span_of_ascending {buckets : List ExpiryBucket} (h : Ascending buckets) (now : Instant) :
    buckets.takeWhile (·.expiry < now) = buckets.filter (·.expiry < now) ∧
      buckets.dropWhile (·.expiry < now) = buckets.filter (¬ ·.expiry < now) := by
  induction buckets with
  | nil => exact ⟨rfl, rfl⟩
  | cons head buckets ih =>
    obtain ⟨hhead, htail⟩ := List.pairwise_cons.mp h
    obtain ⟨htake, hdrop⟩ := ih htail
    by_cases hnow : head.expiry < now
    · simp [hnow, htake, hdrop]
    · -- The first bucket has not expired, so no later one has.
      have hlive : ∀ bucket ∈ head :: buckets, ¬ bucket.expiry < now := by
        refine List.forall_mem_cons.mpr ⟨hnow, fun bucket hmem hlt => ?_⟩
        exact hnow (Instant.lt_trans (hhead bucket hmem) hlt)
      rw [List.takeWhile_cons_of_neg (by simpa using hnow),
        List.dropWhile_cons_of_neg (by simpa using hnow)]
      constructor
      · exact (List.filter_eq_nil_iff.mpr (by simpa using hlive)).symm
      · exact (List.filter_eq_self.mpr (by simpa using hlive)).symm

theorem mem_takeWhile_iff {buckets : List ExpiryBucket} (h : Ascending buckets) (now : Instant)
    (bucket : ExpiryBucket) :
    bucket ∈ buckets.takeWhile (·.expiry < now) ↔ bucket ∈ buckets ∧ bucket.expiry < now := by
  rw [(span_of_ascending h now).1, List.mem_filter, decide_eq_true_eq]

theorem mem_dropWhile_iff {buckets : List ExpiryBucket} (h : Ascending buckets) (now : Instant)
    (bucket : ExpiryBucket) :
    bucket ∈ buckets.dropWhile (·.expiry < now) ↔ bucket ∈ buckets ∧ ¬ bucket.expiry < now := by
  rw [(span_of_ascending h now).2, List.mem_filter, decide_eq_true_eq]

end ExpiryBucket

/-! ## The cache -/

namespace ReplayCache

/-- Records and buckets agree: no record is remembered twice, and the buckets hold exactly the
    records that expire, each under its expiry time. -/
structure Consistent (c : ReplayCache) : Prop where
  ascending : ExpiryBucket.Ascending c.buckets
  distinct : (c.seen.map (·.1)).Nodup
  indexed : ∀ record expiry, (record, expiry) ∈ ExpiryBucket.entries c.buckets ↔
    ∃ t, (record, t) ∈ c.seen ∧ t.add? c.retention = some expiry

theorem Consistent.empty (retention : Duration) : (empty retention).Consistent where
  ascending := List.Pairwise.nil
  distinct := List.nodup_nil
  indexed := by simp [ReplayCache.empty, ExpiryBucket.entries]

/-- A record is remembered with one time only. -/
theorem Consistent.time_unique {c : ReplayCache} (h : c.Consistent) {record : ReplayRecord}
    {t t' : Instant} (ht : (record, t) ∈ c.seen) (ht' : (record, t') ∈ c.seen) : t = t' := by
  have hdistinct := h.distinct
  generalize c.seen = seen at ht ht' hdistinct
  induction seen with
  | nil => cases ht
  | cons entry seen ih =>
    obtain ⟨hnew, hrest⟩ := List.nodup_cons.mp hdistinct
    rcases List.mem_cons.mp ht with rfl | hmem
    · rcases List.mem_cons.mp ht' with heq | hmem'
      · exact (Prod.mk.inj heq).2.symm
      · exact absurd (List.mem_map_of_mem hmem') hnew
    · rcases List.mem_cons.mp ht' with rfl | hmem'
      · exact absurd (List.mem_map_of_mem hmem) hnew
      · exact ih hmem hmem' hrest

theorem forgotten_iff {retention : Duration} {t now : Instant} :
    ReplayLog.forgotten retention t now = true ↔
      ∃ expiry, t.add? retention = some expiry ∧ expiry < now := by
  unfold ReplayLog.forgotten
  cases t.add? retention <;> simp

/-- Eviction forgets exactly the records whose retention has ended. -/
theorem Consistent.evict_seen {c : ReplayCache} (h : c.Consistent) (now : Instant) :
    (c.evict now).seen =
      c.seen.filter fun entry => !ReplayLog.forgotten c.retention entry.2 now := by
  -- To be in a bucket that has expired is to have a retention that has ended.
  refine List.filter_congr fun ⟨record, t⟩ hmem => ?_
  have hexpired : record ∈ (c.buckets.takeWhile (·.expiry < now)).flatMap (·.records) ↔
      ReplayLog.forgotten c.retention t now = true := by
    rw [List.mem_flatMap, forgotten_iff]
    constructor
    · rintro ⟨bucket, hbucket, hrecord⟩
      obtain ⟨hbucket, hlt⟩ := (ExpiryBucket.mem_takeWhile_iff h.ascending now bucket).mp hbucket
      obtain ⟨t', hseen, hexpiry⟩ := (h.indexed record bucket.expiry).mp
        (ExpiryBucket.mem_entries.mpr ⟨bucket, hbucket, rfl, hrecord⟩)
      -- The bucket could stand for another acceptance, if there were another.
      rw [h.time_unique hmem hseen]
      exact ⟨bucket.expiry, hexpiry, hlt⟩
    · rintro ⟨expiry, hexpiry, hlt⟩
      obtain ⟨bucket, hbucket, rfl, hrecord⟩ := ExpiryBucket.mem_entries.mp
        ((h.indexed record expiry).mpr ⟨t, hmem, hexpiry⟩)
      exact ⟨bucket, (ExpiryBucket.mem_takeWhile_iff h.ascending now bucket).mpr ⟨hbucket, hlt⟩,
        hrecord⟩
  rw [Bool.eq_iff_iff, Bool.not_eq_true', Bool.not_eq_true', ← Bool.not_eq_true,
    ← Bool.not_eq_true, ← hexpired, List.contains_iff_mem]

theorem Consistent.mem_evict_iff {c : ReplayCache} (h : c.Consistent) (now : Instant)
    (entry : ReplayRecord × Instant) :
    entry ∈ (c.evict now).seen ↔
      entry ∈ c.seen ∧ ReplayLog.forgotten c.retention entry.2 now = false := by
  rw [h.evict_seen, List.mem_filter, Bool.not_eq_true']

theorem Consistent.evict {c : ReplayCache} (h : c.Consistent) (now : Instant) :
    (c.evict now).Consistent where
  ascending := h.ascending.sublist (List.dropWhile_sublist _)
  distinct := h.distinct.sublist (List.filter_sublist.map _)
  indexed := by
    intro record expiry
    have hbuckets : (record, expiry) ∈ ExpiryBucket.entries (c.evict now).buckets ↔
        (record, expiry) ∈ ExpiryBucket.entries c.buckets ∧ ¬ expiry < now := by
      simp only [ExpiryBucket.mem_entries, ReplayCache.evict,
        ExpiryBucket.mem_dropWhile_iff h.ascending]
      constructor
      · rintro ⟨bucket, ⟨hbucket, hlive⟩, rfl, hrecord⟩
        exact ⟨⟨bucket, hbucket, rfl, hrecord⟩, hlive⟩
      · rintro ⟨⟨bucket, hbucket, rfl, hrecord⟩, hlive⟩
        exact ⟨bucket, ⟨hbucket, hlive⟩, rfl, hrecord⟩
    rw [hbuckets, h.indexed]
    constructor
    · rintro ⟨⟨t, hseen, hexpiry⟩, hlive⟩
      refine ⟨t, (h.mem_evict_iff now _).mpr ⟨hseen, ?_⟩, hexpiry⟩
      rw [← Bool.not_eq_true, forgotten_iff]
      rintro ⟨expiry', hexpiry', hlt⟩
      rw [hexpiry] at hexpiry'
      cases hexpiry'
      exact hlive hlt
    · rintro ⟨t, hseen, hexpiry⟩
      obtain ⟨hseen, hremembered⟩ := (h.mem_evict_iff now _).mp hseen
      refine ⟨⟨t, hseen, hexpiry⟩, fun hlt => ?_⟩
      rw [← Bool.not_eq_true, forgotten_iff] at hremembered
      exact hremembered ⟨expiry, hexpiry, hlt⟩

/-- The expiry times of what is remembered are the old ones and that of the new record. -/
theorem exists_mem_remember_iff (c : ReplayCache) (record record' : ReplayRecord)
    (now expiry : Instant) :
    (∃ t, (record', t) ∈ (c.remember record now).seen ∧ t.add? c.retention = some expiry) ↔
      (record' = record ∧ now.add? c.retention = some expiry) ∨
        ∃ t, (record', t) ∈ c.seen ∧ t.add? c.retention = some expiry := by
  simp only [remember, List.mem_cons, Prod.mk.injEq]
  constructor
  · rintro ⟨t, ⟨rfl, rfl⟩ | hmem, hexpiry⟩
    · exact .inl ⟨rfl, hexpiry⟩
    · exact .inr ⟨t, hmem, hexpiry⟩
  · rintro (⟨rfl, hexpiry⟩ | ⟨t, hmem, hexpiry⟩)
    · exact ⟨now, .inl ⟨rfl, rfl⟩, hexpiry⟩
    · exact ⟨t, .inr hmem, hexpiry⟩

theorem Consistent.remember {c : ReplayCache} (h : c.Consistent) {record : ReplayRecord}
    (hnew : ∀ t, (record, t) ∉ c.seen) (now : Instant) : (c.remember record now).Consistent where
  ascending := by
    unfold ReplayCache.remember
    cases now.add? c.retention with
    | none => exact h.ascending
    | some expiry => exact ExpiryBucket.ascending_add expiry record h.ascending
  distinct := by
    refine List.nodup_cons.mpr ⟨fun hmem => ?_, h.distinct⟩
    obtain ⟨⟨_, t⟩, hseen, rfl⟩ := List.mem_map.mp hmem
    exact hnew t hseen
  indexed := by
    intro record' expiry'
    change _ ↔ ∃ t, (record', t) ∈ (c.remember record now).seen ∧
      t.add? c.retention = some expiry'
    rw [exists_mem_remember_iff, ← h.indexed]
    unfold ReplayCache.remember
    cases now.add? c.retention with
    | none =>
      -- The record never expires, so it is in no bucket.
      simp
    | some expiry =>
      simp only [ExpiryBucket.mem_entries_add, Prod.mk.injEq, Option.some.injEq]
      constructor
      · rintro (⟨rfl, rfl⟩ | hmem)
        · exact .inl ⟨rfl, rfl⟩
        · exact .inr hmem
      · rintro (⟨rfl, rfl⟩ | hmem)
        · exact .inl ⟨rfl, rfl⟩
        · exact .inr hmem

theorem contains_iff (c : ReplayCache) (record : ReplayRecord) :
    c.contains record = true ↔ ∃ t, (record, t) ∈ c.seen := by
  simp [contains]

theorem not_mem_seen_of_not_contains {c : ReplayCache} {record : ReplayRecord}
    (h : c.contains record = false) (t : Instant) : (record, t) ∉ c.seen := by
  intro hmem
  rw [(contains_iff c record).mpr ⟨t, hmem⟩] at h
  cases h

/-! ## Checks -/

theorem check_of_contains {c : ReplayCache} {record : ReplayRecord} {now : Instant}
    (h : (c.evict now).contains record = true) : c.check record now = (.replay, c.evict now) := by
  simp [check, h]

theorem check_of_not_contains {c : ReplayCache} {record : ReplayRecord} {now : Instant}
    (h : (c.evict now).contains record = false) :
    c.check record now = (.fresh, (c.evict now).remember record now) := by
  simp [check, h]

theorem check_retention (c : ReplayCache) (record : ReplayRecord) (now : Instant) :
    (c.check record now).2.retention = c.retention := by
  cases h : (c.evict now).contains record with
  | true => rw [check_of_contains h]; rfl
  | false => rw [check_of_not_contains h]; rfl

/-- What evictions keep up, and entries of new records, is kept up by a check. -/
theorem check_keeps {P : ReplayCache → Prop} {c : ReplayCache} {record : ReplayRecord}
    {now : Instant} (hevict : P (c.evict now))
    (hremember : (∀ t, (record, t) ∉ (c.evict now).seen) →
      P ((c.evict now).remember record now)) : P (c.check record now).2 := by
  cases hcontains : (c.evict now).contains record with
  | true =>
    rw [check_of_contains hcontains]
    exact hevict
  | false =>
    rw [check_of_not_contains hcontains]
    exact hremember (not_mem_seen_of_not_contains hcontains)

theorem Consistent.check {c : ReplayCache} (h : c.Consistent) (record : ReplayRecord)
    (now : Instant) : (c.check record now).2.Consistent :=
  check_keeps (h.evict now) fun hnew => (h.evict now).remember hnew now

/-- A record is found if and only if it is remembered and its retention has not ended. -/
theorem Consistent.check_eq_replay_iff {c : ReplayCache} (h : c.Consistent)
    (record : ReplayRecord) (now : Instant) :
    (c.check record now).1 = .replay ↔
      ∃ t, (record, t) ∈ c.seen ∧ ReplayLog.forgotten c.retention t now = false := by
  have hevict : (c.evict now).contains record = true ↔
      ∃ t, (record, t) ∈ c.seen ∧ ReplayLog.forgotten c.retention t now = false := by
    rw [contains_iff]
    exact exists_congr fun t => h.mem_evict_iff now (record, t)
  rw [← hevict]
  cases hcontains : (c.evict now).contains record with
  | true => simp [check_of_contains hcontains]
  | false => simp [check_of_not_contains hcontains]

/-- After a check, what has not been forgotten is still remembered, and so is a new record. -/
theorem Consistent.mem_check_iff {c : ReplayCache} (h : c.Consistent) (record : ReplayRecord)
    (now : Instant) (entry : ReplayRecord × Instant) :
    entry ∈ (c.check record now).2.seen ↔
      (entry ∈ c.seen ∧ ReplayLog.forgotten c.retention entry.2 now = false) ∨
        ((c.check record now).1 = .fresh ∧ entry = (record, now)) := by
  cases hcontains : (c.evict now).contains record with
  | true =>
    rw [check_of_contains hcontains]
    simpa using h.mem_evict_iff now entry
  | false =>
    rw [check_of_not_contains hcontains]
    show entry ∈ (record, now) :: (c.evict now).seen ↔ _
    rw [List.mem_cons, h.mem_evict_iff now entry, or_comm]
    simp

end ReplayCache

end Kerberos
