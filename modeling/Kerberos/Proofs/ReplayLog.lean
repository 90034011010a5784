import Mathlib.Data.List.Induction
import Kerberos.Proofs.ReplayCache

/-! # The replay cache answers as the replay log does

    A run of checks goes to the cache and to the log, both empty at the start.  The two stay
    in step: `ReplayCache.Mirrors` relates a cache to the log that lists the same records in
    the order in which they came, and one check keeps the relation and gives the same verdict
    (`Mirrors.check`).  By induction on the run they give the same answers throughout.

    The second half reads the verdicts off the run alone.  The cache holds what was accepted
    and has not been forgotten by a check since then (`ReplayCache.mem_after_iff`).  A record
    is found only if it was accepted before, at a time whose retention has not ended, and
    under a clock that does not go back it is always found then.  A record that was found
    leaves no trace.
-/

namespace Kerberos

/-! ## Runs of checks -/

/-- A step of a run with one step more is the last one or a step of the run. -/
theorem list_concat_eq_append_cons {α : Type} {l before after : List α} {a last : α}
    (h : l ++ [last] = before ++ a :: after) :
    (before = l ∧ a = last) ∨ ∃ init, after = init ++ [last] ∧ l = before ++ a :: init := by
  rcases List.eq_nil_or_concat after with rfl | ⟨init, b, rfl⟩
  · obtain ⟨hbefore, hlast⟩ := List.append_inj' h rfl
    exact .inl ⟨hbefore.symm, (List.singleton_inj.mp hlast).symm⟩
  · rw [List.concat_eq_append, ← List.cons_append, ← List.append_assoc] at h
    obtain ⟨hl, hlast⟩ := List.append_inj' h rfl
    rw [List.concat_eq_append, hlast]
    exact .inr ⟨init, rfl, hl⟩

/-- A timestamp that comes to be checked, and the time at which it comes. -/
structure ReplayCheck where
  record : ReplayRecord
  now : Instant
  deriving DecidableEq, Repr

section Runs

variable {M N : Type} (check : M → ReplayRecord → Instant → Verdict × M) (size : M → Nat)

/-- A memory after a run of checks. -/
def memoryAfter (m : M) (checks : List ReplayCheck) : M :=
  checks.foldl (fun m q => (check m q.record q.now).2) m

/-- The answers of a memory to a run of checks: each verdict, and the number of records held
    after it. -/
def memoryAnswers (m : M) : List ReplayCheck → List (Verdict × Nat)
  | [] => []
  | q :: checks =>
    let (verdict, m) := check m q.record q.now
    (verdict, size m) :: memoryAnswers m checks

theorem memoryAfter_concat (m : M) (checks : List ReplayCheck) (q : ReplayCheck) :
    memoryAfter check m (checks ++ [q]) =
      (check (memoryAfter check m checks) q.record q.now).2 := by
  simp [memoryAfter]

/-- What an invariant of a memory says of it before a run it says of it after the run. -/
theorem memoryAfter_invariant (Inv : M → Prop)
    (hcheck : ∀ m record now, Inv m → Inv (check m record now).2) {m : M} (hm : Inv m)
    (checks : List ReplayCheck) : Inv (memoryAfter check m checks) := by
  induction checks generalizing m with
  | nil => exact hm
  | cons q checks ih => exact ih (hcheck m q.record q.now hm)

/-- Two memories give the same answers if some relation between them is kept by every check,
    under the same verdict, and makes them of the same size. -/
theorem memoryAnswers_eq_of_simulation (Related : M → N → Prop)
    {check' : N → ReplayRecord → Instant → Verdict × N} {size' : N → Nat}
    (hsize : ∀ m n, Related m n → size m = size' n)
    (hcheck : ∀ m n record now, Related m n →
      (check m record now).1 = (check' n record now).1 ∧
        Related (check m record now).2 (check' n record now).2)
    {m : M} {n : N} (hrelated : Related m n) (checks : List ReplayCheck) :
    memoryAnswers check size m checks = memoryAnswers check' size' n checks := by
  induction checks generalizing m n with
  | nil => rfl
  | cons q checks ih =>
    obtain ⟨hverdict, hnext⟩ := hcheck m n q.record q.now hrelated
    simp only [memoryAnswers]
    rw [hverdict, hsize _ _ hnext, ih hnext]

end Runs

def ReplayCache.after (c : ReplayCache) (checks : List ReplayCheck) : ReplayCache :=
  memoryAfter check c checks

def ReplayCache.answers (c : ReplayCache) (checks : List ReplayCheck) : List (Verdict × Nat) :=
  memoryAnswers check size c checks

def ReplayLog.answers (l : ReplayLog) (checks : List ReplayCheck) : List (Verdict × Nat) :=
  memoryAnswers check size l checks

/-- What the log keeps of its list at `now`. -/
def ReplayLog.live (l : ReplayLog) (now : Instant) : List (ReplayRecord × Instant) :=
  l.accepted.filter fun (_, t) => !forgotten l.retention t now

theorem ReplayLog.check_eq (l : ReplayLog) (record : ReplayRecord) (now : Instant) :
    l.check record now =
      if (l.live now).any (·.1 == record) then (.replay, ⟨l.retention, l.live now⟩)
      else (.fresh, ⟨l.retention, l.live now ++ [(record, now)]⟩) := rfl

namespace ReplayCache

theorem after_concat (c : ReplayCache) (checks : List ReplayCheck) (q : ReplayCheck) :
    c.after (checks ++ [q]) = ((c.after checks).check q.record q.now).2 :=
  memoryAfter_concat check c checks q

/-! ## Cache and log in step -/

/-- The log lists what the cache remembers, the oldest first. -/
structure Mirrors (c : ReplayCache) (l : ReplayLog) : Prop where
  consistent : c.Consistent
  retention : l.retention = c.retention
  seen : c.seen = l.accepted.reverse

theorem Mirrors.empty (retention : Duration) :
    (empty retention).Mirrors (ReplayLog.empty retention) where
  consistent := Consistent.empty retention
  retention := rfl
  seen := rfl

theorem Mirrors.size {c : ReplayCache} {l : ReplayLog} (h : c.Mirrors l) : c.size = l.size := by
  rw [ReplayCache.size, h.seen, List.length_reverse, ReplayLog.size]

/-- Eviction leaves in the cache what the log keeps of its list. -/
theorem Mirrors.evict_seen {c : ReplayCache} {l : ReplayLog} (h : c.Mirrors l) (now : Instant) :
    (c.evict now).seen = (l.live now).reverse := by
  rw [h.consistent.evict_seen, h.seen, ReplayLog.live, h.retention, List.filter_reverse]

/-- One check: the same verdict, and cache and log are in step after it. -/
theorem Mirrors.check {c : ReplayCache} {l : ReplayLog} (h : c.Mirrors l) (record : ReplayRecord)
    (now : Instant) :
    (c.check record now).1 = (l.check record now).1 ∧
      (c.check record now).2.Mirrors (l.check record now).2 := by
  have hevict := h.evict_seen now
  have hcontains : (c.evict now).contains record = (l.live now).any (·.1 == record) := by
    rw [contains, hevict, List.any_reverse]
  have hconsistent := h.consistent.check record now
  rw [ReplayLog.check_eq, ← hcontains]
  cases hfound : (c.evict now).contains record with
  | true =>
    -- Found in both: neither gets a new record.
    rw [check_of_contains hfound] at hconsistent ⊢
    exact ⟨rfl, hconsistent, h.retention, hevict⟩
  | false =>
    -- New in both: it goes to the front of the one and to the end of the other.
    rw [check_of_not_contains hfound] at hconsistent ⊢
    refine ⟨rfl, hconsistent, h.retention, ?_⟩
    show (record, now) :: (c.evict now).seen = (l.live now ++ [(record, now)]).reverse
    rw [hevict, List.reverse_append]
    rfl

theorem answers_empty_eq (retention : Duration) (checks : List ReplayCheck) :
    (empty retention).answers checks = (ReplayLog.empty retention).answers checks := by
  apply memoryAnswers_eq_of_simulation check size Mirrors
  · intro c l h
    exact h.size
  · intro c l record now h
    exact h.check record now
  · exact Mirrors.empty retention

/-! ## Verdicts read off the run -/

theorem consistent_after (retention : Duration) (checks : List ReplayCheck) :
    ((empty retention).after checks).Consistent := by
  apply memoryAfter_invariant check Consistent
  · intro c record now h
    exact h.check record now
  · exact Consistent.empty retention

theorem after_retention (retention : Duration) (checks : List ReplayCheck) :
    ((empty retention).after checks).retention = retention := by
  apply memoryAfter_invariant check (·.retention = retention)
  · intro c record now h
    rw [check_retention, h]
  · rfl

/-- The record was checked at `t` in this run and was found to be new. -/
def AcceptedAt (retention : Duration) (checks : List ReplayCheck) (record : ReplayRecord)
    (t : Instant) : Prop :=
  ∃ earlier later, checks = earlier ++ ⟨record, t⟩ :: later ∧
    (((empty retention).after earlier).check record t).1 = .fresh

/-- The record was checked at `t` in this run and was found to be new, and no check since then
    came when its retention had ended. -/
def HeldSince (retention : Duration) (checks : List ReplayCheck) (record : ReplayRecord)
    (t : Instant) : Prop :=
  ∃ earlier later, checks = earlier ++ ⟨record, t⟩ :: later ∧
    (((empty retention).after earlier).check record t).1 = .fresh ∧
    ∀ q ∈ later, ReplayLog.forgotten retention t q.now = false

theorem not_heldSince_nil (retention : Duration) (record : ReplayRecord) (t : Instant) :
    ¬ HeldSince retention [] record t := by
  rintro ⟨earlier, later, hsplit, -⟩
  simp at hsplit

theorem heldSince_concat_iff {retention : Duration} {checks : List ReplayCheck} {q : ReplayCheck}
    {record : ReplayRecord} {t : Instant} :
    HeldSince retention (checks ++ [q]) record t ↔
      (HeldSince retention checks record t ∧ ReplayLog.forgotten retention t q.now = false) ∨
        q = ⟨record, t⟩ ∧ (((empty retention).after checks).check record t).1 = .fresh := by
  constructor
  · rintro ⟨earlier, later, hsplit, hfresh, hkept⟩
    rcases list_concat_eq_append_cons hsplit with ⟨rfl, rfl⟩ | ⟨init, rfl, rfl⟩
    · exact .inr ⟨rfl, hfresh⟩
    · rw [List.forall_mem_append, List.forall_mem_singleton] at hkept
      exact .inl ⟨⟨earlier, init, rfl, hfresh, hkept.1⟩, hkept.2⟩
  · rintro (⟨⟨earlier, later, rfl, hfresh, hkept⟩, hlast⟩ | ⟨rfl, hfresh⟩)
    · refine ⟨earlier, later ++ [q], by simp, hfresh, ?_⟩
      rw [List.forall_mem_append, List.forall_mem_singleton]
      exact ⟨hkept, hlast⟩
    · exact ⟨checks, [], rfl, hfresh, by simp⟩

/-- In whichever order the times come, a cache holds exactly the records that were accepted in
    the run and not forgotten by a check since then. -/
theorem mem_after_iff {retention : Duration} {checks : List ReplayCheck} {record : ReplayRecord}
    {t : Instant} :
    (record, t) ∈ ((empty retention).after checks).seen ↔ HeldSince retention checks record t := by
  induction checks using List.reverseRecOn with
  | nil =>
    constructor
    · intro hmem
      cases hmem
    · intro hheld
      exact absurd hheld (not_heldSince_nil retention record t)
  | append_singleton checks q ih =>
    obtain ⟨record', now⟩ := q
    rw [after_concat, (consistent_after retention checks).mem_check_iff, after_retention, ih,
      heldSince_concat_iff]
    -- The check that remembers the record is the last one of the run, or one before it.
    apply or_congr Iff.rfl
    rw [Prod.mk.injEq, ReplayCheck.mk.injEq]
    constructor
    · rintro ⟨hfresh, rfl, rfl⟩
      exact ⟨⟨rfl, rfl⟩, hfresh⟩
    · rintro ⟨⟨rfl, rfl⟩, hfresh⟩
      exact ⟨hfresh, rfl, rfl⟩

/-- What a cache holds after a run of checks: only records that were accepted in the run, and
    each of these until a check came after its retention. -/
structure Retains (retention : Duration) (checks : List ReplayCheck) : Prop where
  consistent : ((empty retention).after checks).Consistent
  unchanged : ((empty retention).after checks).retention = retention
  sound : ∀ record t, (record, t) ∈ ((empty retention).after checks).seen →
    AcceptedAt retention checks record t
  complete : ∀ record t, AcceptedAt retention checks record t →
    (record, t) ∈ ((empty retention).after checks).seen ∨
      ∃ q ∈ checks, ReplayLog.forgotten retention t q.now = true

theorem retains (retention : Duration) (checks : List ReplayCheck) :
    Retains retention checks where
  consistent := consistent_after retention checks
  unchanged := after_retention retention checks
  sound := by
    intro record t hmem
    obtain ⟨earlier, later, hsplit, hfresh, -⟩ := mem_after_iff.mp hmem
    exact ⟨earlier, later, hsplit, hfresh⟩
  complete := by
    rintro record t ⟨earlier, later, rfl, hfresh⟩
    by_cases hkept : ∀ q ∈ later, ReplayLog.forgotten retention t q.now = false
    · exact .inl (mem_after_iff.mpr ⟨earlier, later, rfl, hfresh, hkept⟩)
    · -- Some check since then came after the retention.
      simp only [not_forall, Bool.not_eq_false] at hkept
      obtain ⟨q, hq, hforgotten⟩ := hkept
      refine .inr ⟨q, ?_, hforgotten⟩
      exact List.mem_append_right _ (List.mem_cons_of_mem _ hq)

/-- What has been forgotten stays forgotten as long as the clock does not go back. -/
theorem forgotten_mono {retention : Duration} {t now now' : Instant} (hle : now ≤ now')
    (h : ReplayLog.forgotten retention t now = true) :
    ReplayLog.forgotten retention t now' = true := by
  obtain ⟨expiry, hexpiry, hlt⟩ := forgotten_iff.mp h
  exact forgotten_iff.mpr ⟨expiry, hexpiry, Instant.lt_of_lt_of_le hlt hle⟩

theorem not_forgotten_iff {retention : Duration} {t now : Instant} :
    ReplayLog.forgotten retention t now = false ↔
      ∀ expiry, t.add? retention = some expiry → now ≤ expiry := by
  rw [← Bool.not_eq_true, forgotten_iff]
  constructor
  · intro h expiry hexpiry
    exact Instant.not_lt.mp fun hlt => h ⟨expiry, hexpiry, hlt⟩
  · rintro h ⟨expiry, hexpiry, hlt⟩
    exact Instant.not_lt.mpr (h expiry hexpiry) hlt

/-- In whichever order the times come, a record is found only if it was accepted before and
    its retention, counted from then, has not ended. -/
theorem acceptedAt_of_replay {retention : Duration} {checks : List ReplayCheck}
    {record : ReplayRecord} {now : Instant}
    (h : (((empty retention).after checks).check record now).1 = .replay) :
    ∃ t, AcceptedAt retention checks record t ∧
      ∀ expiry, t.add? retention = some expiry → now ≤ expiry := by
  have hretains := retains retention checks
  rw [hretains.consistent.check_eq_replay_iff, hretains.unchanged] at h
  obtain ⟨t, hmem, hkept⟩ := h
  exact ⟨t, hretains.sound record t hmem, not_forgotten_iff.mp hkept⟩

/-- Under a clock that has not gone back, a record is found if it was accepted before and its
    retention has not ended. -/
theorem replay_of_acceptedAt {retention : Duration} {checks : List ReplayCheck}
    {record : ReplayRecord} {now t : Instant} (hlatest : ∀ q ∈ checks, q.now ≤ now)
    (haccepted : AcceptedAt retention checks record t)
    (hlive : ∀ expiry, t.add? retention = some expiry → now ≤ expiry) :
    (((empty retention).after checks).check record now).1 = .replay := by
  have hretains := retains retention checks
  have hkept := not_forgotten_iff.mpr hlive
  rw [hretains.consistent.check_eq_replay_iff, hretains.unchanged]
  rcases hretains.complete record t haccepted with hmem | ⟨q, hq, hforgotten⟩
  · exact ⟨t, hmem, hkept⟩
  · rw [forgotten_mono (hlatest q hq) hforgotten] at hkept
    cases hkept

/-! ## A record that was found leaves no trace -/

theorem dropWhile_expired_dropWhile {now now' : Instant} (hle : now ≤ now')
    (buckets : List ExpiryBucket) :
    (buckets.dropWhile (·.expiry < now)).dropWhile (·.expiry < now') =
      buckets.dropWhile (·.expiry < now') := by
  induction buckets with
  | nil => rfl
  | cons bucket buckets ih =>
    by_cases hnow : bucket.expiry < now
    · have hnow' : bucket.expiry < now' := Instant.lt_of_lt_of_le hnow hle
      rw [List.dropWhile_cons_of_pos (by simpa using hnow),
        List.dropWhile_cons_of_pos (by simpa using hnow'), ih]
    · rw [List.dropWhile_cons_of_neg (by simpa using hnow)]

/-- An eviction does nothing that a later one does not do. -/
theorem Consistent.evict_evict {c : ReplayCache} (h : c.Consistent) {now now' : Instant}
    (hle : now ≤ now') : (c.evict now).evict now' = c.evict now' := by
  have hseen : ((c.evict now).evict now').seen = (c.evict now').seen := by
    rw [(h.evict now).evict_seen, h.evict_seen, h.evict_seen, List.filter_filter]
    refine List.filter_congr fun entry _ => ?_
    show (!ReplayLog.forgotten c.retention entry.2 now' &&
      !ReplayLog.forgotten c.retention entry.2 now) = _
    cases hforgotten : ReplayLog.forgotten c.retention entry.2 now with
    | false => simp
    | true => simp [forgotten_mono hle hforgotten]
  have hbuckets : ((c.evict now).evict now').buckets = (c.evict now').buckets :=
    dropWhile_expired_dropWhile hle c.buckets
  show ReplayCache.mk c.retention _ _ = ReplayCache.mk c.retention _ _
  exact congrArg₂ (ReplayCache.mk c.retention) hseen hbuckets

theorem Consistent.check_evict {c : ReplayCache} (h : c.Consistent) {now now' : Instant}
    (hle : now ≤ now') (record : ReplayRecord) :
    (c.evict now).check record now' = c.check record now' := by
  unfold ReplayCache.check
  rw [h.evict_evict hle]

theorem Consistent.answers_evict {c : ReplayCache} (h : c.Consistent) {now : Instant}
    {checks : List ReplayCheck} (hlater : ∀ q ∈ checks, now ≤ q.now) :
    (c.evict now).answers checks = c.answers checks := by
  cases checks with
  | nil => rfl
  | cons q checks =>
    -- The first check evicts again, and from there on the two caches are one.
    simp only [answers, memoryAnswers]
    rw [h.check_evict (hlater q List.mem_cons_self)]

/-- The later answers are the same as if the check that found the record had not been made. -/
theorem answers_after_replay {retention : Duration} {earlier later : List ReplayCheck}
    {q : ReplayCheck} (hlater : ∀ q' ∈ later, q.now ≤ q'.now)
    (hreplay : (((empty retention).after earlier).check q.record q.now).1 = .replay) :
    ((empty retention).after (earlier ++ [q])).answers later =
      ((empty retention).after earlier).answers later := by
  rw [after_concat]
  cases hfound : (((empty retention).after earlier).evict q.now).contains q.record with
  | false =>
    rw [check_of_not_contains hfound] at hreplay
    cases hreplay
  | true =>
    rw [check_of_contains hfound]
    exact (retains retention earlier).consistent.answers_evict hlater

/-! ## The cache against the log -/

/-- Cache and log give the same verdicts and hold as many records, whatever the order of the
    times, and what is found was accepted within the retention.  If the times do not go back,
    all that was accepted within the retention is found, and finding it prolongs nothing. -/
theorem answers_eq_log (retention : Duration) (checks : List ReplayCheck) :
    (empty retention).answers checks = (ReplayLog.empty retention).answers checks ∧
    ∀ earlier q later, checks = earlier ++ q :: later →
      ((((empty retention).after earlier).check q.record q.now).1 = .replay →
        ∃ t, AcceptedAt retention earlier q.record t ∧
          ∀ expiry, t.add? retention = some expiry → q.now ≤ expiry) ∧
      (checks.Pairwise (fun q q' => q.now ≤ q'.now) →
        ((((empty retention).after earlier).check q.record q.now).1 = .replay ↔
          ∃ t, AcceptedAt retention earlier q.record t ∧
            ∀ expiry, t.add? retention = some expiry → q.now ≤ expiry) ∧
        ((((empty retention).after earlier).check q.record q.now).1 = .replay →
          ((empty retention).after (earlier ++ [q])).answers later =
            ((empty retention).after earlier).answers later)) := by
  refine ⟨answers_empty_eq retention checks, ?_⟩
  intro earlier q later hsplit
  refine ⟨acceptedAt_of_replay, ?_⟩
  intro hordered
  -- All checks before this one come no later than it, and all behind it no earlier.
  rw [hsplit, List.pairwise_append, List.pairwise_cons] at hordered
  obtain ⟨-, ⟨hlater, -⟩, hacross⟩ := hordered
  have hearlier : ∀ q' ∈ earlier, q'.now ≤ q.now := fun q' hq' =>
    hacross q' hq' q List.mem_cons_self
  refine ⟨⟨acceptedAt_of_replay, ?_⟩, answers_after_replay hlater⟩
  rintro ⟨t, haccepted, hlive⟩
  exact replay_of_acceptedAt hearlier haccepted hlive

/-- A timestamp is sent twice within ten minutes and is found the second time.  Sent once more,
    when the ten minutes counted from the first time are over, it is new again. -/
theorem answers_eq_log_of_repeated :
    let record : ReplayRecord := ⟨"PW13", Instant.epoch, 1⟩
    let first : ReplayCheck := ⟨record, Instant.epoch⟩
    let second : ReplayCheck := ⟨record, ⟨600000000000, by decide, by decide⟩⟩
    let third : ReplayCheck := ⟨record, ⟨600000000001, by decide, by decide⟩⟩
    let c := empty (Duration.ofSeconds 600)
    c.answers [first, second, third] = [(.fresh, 1), (.replay, 1), (.fresh, 1)] ∧
      ((c.after [first]).check record second.now).1 = .replay ∧
      (c.after [first, second]).answers [third] = (c.after [first]).answers [third] := by
  intro record first second third c
  obtain ⟨hlog, hsplit⟩ := answers_eq_log (Duration.ofSeconds 600) [first, second, third]
  have hordered : [first, second, third].Pairwise fun q q' => q.now ≤ q'.now := by decide
  obtain ⟨hiff, htrace⟩ := (hsplit [first] second [third] rfl).2 hordered
  have hreplay : ((c.after [first]).check record second.now).1 = .replay := by
    apply hiff.mpr
    refine ⟨Instant.epoch, ⟨[], [], rfl, rfl⟩, ?_⟩
    intro expiry hexpiry
    cases hexpiry
    decide
  exact ⟨hlog.trans (by decide), hreplay, htrace hreplay⟩

end ReplayCache

end Kerberos
