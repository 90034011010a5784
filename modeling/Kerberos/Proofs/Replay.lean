import Kerberos.Proofs.Envelope
import Kerberos.Proofs.ReplayLog
import Kerberos.Proofs.Run

/-! # A timestamp is accepted once

    The replay cache forgets, so it cannot hold every timestamp that was ever accepted.  It
    holds those that matter: a timestamp is accepted only within the skew of the clock, and
    the cache keeps it until the clock has left the skew behind.  `Service.Recalls` is what
    every run keeps up: a record in the cache was accepted, and one that was accepted is in
    the cache unless its retention has ended.
-/

namespace Kerberos

/-! ## Retention outlasts the skew -/

theorem RealmConfig.doubled_skew_le_retention (c : RealmConfig) :
    c.skew.doubled ≤ c.retention := by
  show _ ≤ (if _ then _ else _)
  split
  · exact (Duration.le_iff _ _).mpr (Int.le_refl _)
  · next hle =>
    rw [Duration.le_iff] at hle ⊢
    omega

/-- As long as a timestamp lies within the skew of the clock, its acceptance is remembered. -/
theorem RealmConfig.not_forgotten (c : RealmConfig) {accepted now ctime : Instant}
    (haccepted : (accepted - ctime).abs ≤ c.skew) (hnow : (now - ctime).abs ≤ c.skew) :
    ReplayLog.forgotten c.retention accepted now = false := by
  rw [← Bool.not_eq_true, ReplayCache.forgotten_iff]
  rintro ⟨expiry, hexpiry, hlt⟩
  -- Two instants within the skew of a third are no more than twice the skew apart.
  have hretention := c.doubled_skew_le_retention
  have hlast := now.le_last
  have hfirst := accepted.first_le
  have hnanos := Instant.nanos_of_add? hexpiry
  rw [Instant.lt_iff] at hlt
  rw [Duration.le_iff] at haccepted hnow hretention
  simp only [Duration.abs, Duration.doubled, Instant.nanos_sub, Duration.max,
    Duration.maxSeconds, Duration.nanosPerSecond] at *
  omega

namespace Service

open Exchange

/-! ## Acceptance -/

/-- The request passes the pre-authentication stage as `client`, by a timestamp that shows
    the client's time as `ctime` and `cusec`. -/
def PassesAs (s : Service) (l : Ledger) (now : Instant) (request : AsRequest)
    (client : DirectoryEntry) (ctime : Instant) (cusec : UInt32) : Prop :=
  ∃ c key stamp,
    s.Reaches request now c ∧ c.client = client ∧
    s.ShowsTimestamp request now client c.etype key stamp ∧
    stamp.timestamp = ctime ∧ stamp.usec.getD 0 = cusec ∧
    ∃ admitted l', (s.admitRequest request now).runOn l = (.ok admitted, l')

/-- In the course of `history` some request has passed. -/
def HasPassedAs (s : Service) (history : List Event) (client : DirectoryEntry) (ctime : Instant)
    (cusec : UInt32) : Prop :=
  ∃ earlier e later request,
    history = earlier ++ e :: later ∧ e.arrival.request? = some request ∧
    s.PassesAs (s.ledgerAfter earlier) e.now request client ctime cusec

/-- A timestamp that the replay cache knows as `record` is accepted. -/
def Accepts (s : Service) (l : Ledger) (now : Instant) (request : AsRequest)
    (record : ReplayRecord) : Prop :=
  ∃ c key stamp,
    s.Reaches request now c ∧ s.ShowsTimestamp request now c.client c.etype key stamp ∧
    stampRecord c.client stamp = record ∧ (l.cache.check record now).1 = .fresh

theorem passesAs_iff_fresh {s : Service} {l : Ledger} {now : Instant} {request : AsRequest}
    {c : Candidate} {key : EncryptionKey} {stamp : PaEncTimestamp}
    (hreaches : s.Reaches request now c)
    (hshows : s.ShowsTimestamp request now c.client c.etype key stamp) :
    s.PassesAs l now request c.client stamp.timestamp (stamp.usec.getD 0) ↔
      (l.cache.check (stampRecord c.client stamp) now).1 = .fresh := by
  have hadmitted := admitRequest_of_shown hreaches hshows l
  constructor
  · rintro ⟨c', key', stamp', -, -, -, -, -, admitted, l', hpasses⟩
    rw [hadmitted] at hpasses
    cases hverdict : (l.cache.check (stampRecord c.client stamp) now).1 with
    | fresh => rfl
    | replay => simp [hverdict] at hpasses
  · intro hfresh
    rw [hfresh] at hadmitted
    exact ⟨c, key, stamp, hreaches, rfl, hshows, rfl, rfl, _, _, hadmitted⟩

/-- At some time of the history the record was accepted, at `t`. -/
def Accepted (s : Service) (history : List Event) (record : ReplayRecord) (t : Instant) : Prop :=
  ∃ earlier e later request,
    history = earlier ++ e :: later ∧ e.arrival.request? = some request ∧ t = e.now ∧
    s.Accepts (s.ledgerAfter earlier) e.now request record

theorem accepted_concat_iff {s : Service} {history : List Event} {e : Event}
    {record : ReplayRecord} {t : Instant} :
    s.Accepted (history ++ [e]) record t ↔
      s.Accepted history record t ∨
        ∃ request, e.arrival.request? = some request ∧ t = e.now ∧
          s.Accepts (s.ledgerAfter history) e.now request record := by
  constructor
  · rintro ⟨earlier, e', later, request, hsplit, hrest⟩
    -- The acceptance belongs to the last event or to one before it.
    rcases list_concat_eq_append_cons hsplit with ⟨rfl, rfl⟩ | ⟨init, -, rfl⟩
    · exact .inr ⟨request, hrest⟩
    · exact .inl ⟨earlier, e', init, request, rfl, hrest⟩
  · rintro (⟨earlier, e', later, request, rfl, hrest⟩ | ⟨request, hrest⟩)
    · exact ⟨earlier, e', later ++ [e], request, by simp, hrest⟩
    · exact ⟨history, e, [], request, rfl, hrest⟩

/-! ## What a run keeps up -/

/-- What the replay cache knows at the end of a history. -/
structure Recalls (s : Service) (history : List Event) : Prop where
  consistent : (s.ledgerAfter history).cache.Consistent
  retention : (s.ledgerAfter history).cache.retention = s.config.retention
  sound : ∀ record t, (record, t) ∈ (s.ledgerAfter history).cache.seen →
    s.Accepted history record t
  complete : ∀ record t, s.Accepted history record t →
    (record, t) ∈ (s.ledgerAfter history).cache.seen ∨
      ∃ e ∈ history, ReplayLog.forgotten s.config.retention t e.now = true

theorem Recalls.nil (s : Service) : s.Recalls [] where
  consistent := ReplayCache.Consistent.empty s.config.retention
  retention := rfl
  sound := by
    intro record t hmem
    cases hmem
  complete := by
    rintro record t ⟨earlier, e, later, _, hsplit, _⟩
    simp at hsplit

/-- An event that has no accepted timestamp to it changes nothing. -/
theorem Recalls.concat_of_cache_eq {s : Service} {history : List Event} (h : s.Recalls history)
    {e : Event} (hcache : (s.ledgerAfter (history ++ [e])).cache = (s.ledgerAfter history).cache)
    (hnone : ∀ request record, e.arrival.request? = some request →
      ¬ s.Accepts (s.ledgerAfter history) e.now request record) :
    s.Recalls (history ++ [e]) where
  consistent := by
    rw [hcache]
    exact h.consistent
  retention := by
    rw [hcache]
    exact h.retention
  sound := by
    intro record t hmem
    rw [hcache] at hmem
    exact accepted_concat_iff.mpr (.inl (h.sound record t hmem))
  complete := by
    intro record t haccepted
    rw [hcache]
    rcases accepted_concat_iff.mp haccepted with hearlier | ⟨request, hrequest, -, haccepts⟩
    · rcases h.complete record t hearlier with hmem | ⟨e', he', hforgotten⟩
      · exact .inl hmem
      · exact .inr ⟨e', List.mem_append_left _ he', hforgotten⟩
    · exact absurd haccepts (hnone request record hrequest)

/-- A request that shows a timestamp has it run through the replay cache. -/
theorem ledgerAfter_cache_of_shown {s : Service} (history : List Event) {e : Event}
    {request : AsRequest} {c : Candidate} {key : EncryptionKey} {stamp : PaEncTimestamp}
    (hrequest : e.arrival.request? = some request) (hreaches : s.Reaches request e.now c)
    (hshows : s.ShowsTimestamp request e.now c.client c.etype key stamp) :
    (s.ledgerAfter (history ++ [e])).cache =
      ((s.ledgerAfter history).cache.check (stampRecord c.client stamp) e.now).2 := by
  rw [ledgerAfter_concat, receive_eq, hrequest]
  show ((s.handle e.clock request).runOn _).2.cache = _
  rw [handle_cache]
  show ((s.admitRequest request e.now).runOn _).2.cache = _
  rw [admitRequest_of_shown hreaches hshows]

/-- A request shows one timestamp only, so there is one record that it can have accepted. -/
theorem accepts_iff_of_shown {s : Service} (l : Ledger) {request : AsRequest} {now : Instant}
    {c : Candidate} {key : EncryptionKey} {stamp : PaEncTimestamp}
    (hreaches : s.Reaches request now c)
    (hshows : s.ShowsTimestamp request now c.client c.etype key stamp) (record : ReplayRecord) :
    s.Accepts l now request record ↔
      record = stampRecord c.client stamp ∧
        (l.cache.check (stampRecord c.client stamp) now).1 = .fresh := by
  constructor
  · rintro ⟨c', key', stamp', hreaches', hshows', rfl, hfresh⟩
    obtain rfl := hreaches.unique hreaches'
    obtain rfl := hshows.unique hshows'
    exact ⟨rfl, hfresh⟩
  · rintro ⟨rfl, hfresh⟩
    exact ⟨c, key, stamp, hreaches, hshows, rfl, hfresh⟩

/-- An event that shows a timestamp enters it, if it is new, and forgets some others. -/
theorem Recalls.concat_of_shown {s : Service} {history : List Event} (h : s.Recalls history)
    {e : Event} {request : AsRequest} {c : Candidate} {key : EncryptionKey}
    {stamp : PaEncTimestamp} (hrequest : e.arrival.request? = some request)
    (hreaches : s.Reaches request e.now c)
    (hshows : s.ShowsTimestamp request e.now c.client c.etype key stamp) :
    s.Recalls (history ++ [e]) := by
  have hcache := ledgerAfter_cache_of_shown history hrequest hreaches hshows
  have haccepts := accepts_iff_of_shown (s.ledgerAfter history) hreaches hshows
  refine {
    consistent := by rw [hcache]; exact h.consistent.check _ _
    retention := by rw [hcache, ReplayCache.check_retention]; exact h.retention
    sound := ?_
    complete := ?_ }
  · intro record t hmem
    rw [hcache, h.consistent.mem_check_iff] at hmem
    rw [accepted_concat_iff]
    rcases hmem with ⟨hmem, -⟩ | ⟨hfresh, heq⟩
    · exact .inl (h.sound record t hmem)
    · obtain ⟨hrecord, htime⟩ := Prod.mk.inj heq
      exact .inr ⟨request, hrequest, htime, (haccepts _).mpr ⟨hrecord, hfresh⟩⟩
  · intro record t haccepted
    rw [hcache, h.consistent.mem_check_iff, h.retention]
    rcases accepted_concat_iff.mp haccepted with hearlier | ⟨request', hrequest', rfl, hnew⟩
    · rcases h.complete record t hearlier with hmem | ⟨e', he', hforgotten⟩
      · -- The event itself is the one that forgets what has been remembered so far.
        cases hforgotten : ReplayLog.forgotten s.config.retention t e.now with
        | true => exact .inr ⟨e, by simp, hforgotten⟩
        | false => exact .inl (.inl ⟨hmem, rfl⟩)
      · exact .inr ⟨e', List.mem_append_left _ he', hforgotten⟩
    · obtain rfl : request' = request := Option.some.inj (hrequest'.symm.trans hrequest)
      obtain ⟨hrecord, hfresh⟩ := (haccepts record).mp hnew
      exact .inl (.inr ⟨hfresh, Prod.ext hrecord rfl⟩)

theorem Recalls.concat {s : Service} {history : List Event} (h : s.Recalls history)
    (e : Event) : s.Recalls (history ++ [e]) := by
  cases hrequest : e.arrival.request? with
  | none =>
    -- Octets that hold no request do not get as far as the cache.
    apply h.concat_of_cache_eq
    · rw [ledgerAfter_concat, receive_eq, hrequest]
    · intro request record hsome
      rw [hrequest] at hsome
      cases hsome
  | some request =>
    by_cases hshown : ∃ c key stamp, s.Reaches request e.now c ∧
        s.ShowsTimestamp request e.now c.client c.etype key stamp
    · obtain ⟨c, key, stamp, hreaches, hshows⟩ := hshown
      exact h.concat_of_shown hrequest hreaches hshows
    · apply h.concat_of_cache_eq
      · rw [ledgerAfter_concat, receive_eq, hrequest]
        show ((s.handle e.clock request).runOn _).2.cache = _
        rw [handle_cache]
        exact admitRequest_cache_of_not_shown
          (fun c key stamp hreaches hshows => hshown ⟨c, key, stamp, hreaches, hshows⟩) _
      · rintro request' record hsome ⟨c, key, stamp, hreaches, hshows, -⟩
        rw [hrequest] at hsome
        cases hsome
        exact hshown ⟨c, key, stamp, hreaches, hshows⟩

/-- The invariant holds at the end of every history. -/
theorem recalls (s : Service) (history : List Event) : s.Recalls history := by
  induction history using List.reverseRecOn with
  | nil => exact Recalls.nil s
  | append_singleton history e ih => exact ih.concat e

/-! ## Timestamps are accepted once -/

/-- The replay cache tells timestamps of different clients apart. -/
theorem stampRecord_eq_iff {s : Service} {entries : List DirectoryEntry}
    (hdirectory : s.directory = (PrincipalTable.ofEntries entries).directory)
    {request request' : AsRequest} {now now' : Instant} {c c' : Candidate}
    (hreaches : s.Reaches request now c) (hreaches' : s.Reaches request' now' c')
    (stamp stamp' : PaEncTimestamp) :
    stampRecord c'.client stamp' = stampRecord c.client stamp ↔
      c'.client = c.client ∧ stamp'.timestamp = stamp.timestamp ∧
        stamp'.usec.getD 0 = stamp.usec.getD 0 := by
  have hfound := hreaches.found
  have hfound' := hreaches'.found
  simp only [hdirectory, PrincipalTable.directory, Except.ok.injEq] at hfound hfound'
  simp only [stampRecord, ReplayRecord.of, ReplayRecord.mk.injEq]
  constructor
  · rintro ⟨hkey, hpair⟩
    exact ⟨(PrincipalTable.keyed_ofEntries entries).eq_of_lookupKey_eq hfound' hfound hkey, hpair⟩
  · rintro ⟨hclient, hpair⟩
    rw [hclient]
    exact ⟨rfl, hpair⟩

/-- The requests that have passed with a timestamp are the ones that had its record accepted. -/
theorem hasPassedAs_iff_accepted {s : Service} {entries : List DirectoryEntry}
    (hdirectory : s.directory = (PrincipalTable.ofEntries entries).directory)
    {request : AsRequest} {now : Instant} {c : Candidate} (hreaches : s.Reaches request now c)
    (history : List Event) (stamp : PaEncTimestamp) :
    s.HasPassedAs history c.client stamp.timestamp (stamp.usec.getD 0) ↔
      ∃ t, s.Accepted history (stampRecord c.client stamp) t := by
  constructor
  · rintro ⟨earlier, e, later, request', hsplit, hrequest', hpasses⟩
    -- The earlier request showed the same pair for the same client, so it has the same record.
    obtain ⟨c', key', stamp', hreaches', hclient, hshows', hctime, hcusec, -⟩ := id hpasses
    rw [← hclient] at hshows' hpasses
    rw [← hctime, ← hcusec] at hpasses
    have hrecord : stampRecord c'.client stamp' = stampRecord c.client stamp :=
      (stampRecord_eq_iff hdirectory hreaches hreaches' _ _).mpr ⟨hclient, hctime, hcusec⟩
    have hfresh := (passesAs_iff_fresh hreaches' hshows').mp hpasses
    rw [hrecord] at hfresh
    exact ⟨e.now, earlier, e, later, request', hsplit, hrequest', rfl, c', key', stamp',
      hreaches', hshows', hrecord, hfresh⟩
  · rintro ⟨t, earlier, e, later, request', hsplit, hrequest', -, c', key', stamp', hreaches',
      hshows', hrecord, hfresh⟩
    obtain ⟨hclient, hctime, hcusec⟩ :=
      (stampRecord_eq_iff hdirectory hreaches hreaches' _ _).mp hrecord
    rw [← hrecord] at hfresh
    have hpasses := (passesAs_iff_fresh hreaches' hshows').mpr hfresh
    rw [hclient, hctime, hcusec] at hpasses
    exact ⟨earlier, e, later, request', hsplit, hrequest', hpasses⟩

/-- The replay cache finds a timestamp that lies within the skew if and only if it was
    accepted before, however long ago that was. -/
theorem check_eq_replay_iff_accepted {s : Service} {history : List Event} {clock : Instant}
    (hlatest : ∀ e ∈ history, e.clock ≤ clock) {request : AsRequest} {c : Candidate}
    {key : EncryptionKey} {stamp : PaEncTimestamp}
    (hshows : s.ShowsTimestamp request clock.wholeSecond c.client c.etype key stamp) :
    ((s.ledgerAfter history).cache.check (stampRecord c.client stamp) clock.wholeSecond).1 =
        .replay ↔ ∃ t, s.Accepted history (stampRecord c.client stamp) t := by
  have hrecalls := s.recalls history
  rw [hrecalls.consistent.check_eq_replay_iff, hrecalls.retention]
  constructor
  · rintro ⟨t, hmem, -⟩
    exact ⟨t, hrecalls.sound _ _ hmem⟩
  · rintro ⟨t, haccepted⟩
    -- The earlier request was within the skew of its own clock, and this one of now.
    have hkept : ReplayLog.forgotten s.config.retention t clock.wholeSecond = false := by
      obtain ⟨earlier, e, later, request', -, -, rfl, c', key', stamp', -, hshows', hrecord, -⟩ :=
        haccepted
      have hctime : stamp'.timestamp = stamp.timestamp := (ReplayRecord.mk.inj hrecord).2.1
      have hearlier := hshows'.timely
      rw [hctime] at hearlier
      exact s.config.not_forgotten hearlier hshows.timely
    rcases hrecalls.complete _ t haccepted with hmem | ⟨e, he, hforgotten⟩
    · exact ⟨t, hmem, hkept⟩
    · -- What is forgotten stays forgotten, as the clock has not gone back since.
      have hlater : e.now ≤ clock.wholeSecond := Instant.wholeSecond_mono (hlatest e he)
      obtain ⟨expiry, hexpiry, hlt⟩ := ReplayCache.forgotten_iff.mp hforgotten
      rw [ReplayCache.forgotten_iff.mpr ⟨expiry, hexpiry, Instant.lt_of_lt_of_le hlt hlater⟩]
        at hkept
      cases hkept

/-- In a run under a clock that does not go back, a timestamp that lies within the skew is
    refused as a replay if and only if it was accepted from the same client before, under
    whichever spelling of the client's name.  Otherwise the request passes. -/
theorem replayed_iff_hasPassedAs {s : Service} {entries : List DirectoryEntry}
    (hdirectory : s.directory = (PrincipalTable.ofEntries entries).directory)
    {run earlier later : List Event} {e : Event}
    (hordered : run.Pairwise fun e e' => e.clock ≤ e'.clock)
    (hsplit : run = earlier ++ e :: later) {request : AsRequest}
    (hrequest : e.arrival.request? = some request) {c : Candidate} {key : EncryptionKey}
    {stamp : PaEncTimestamp} (hreaches : s.Reaches request e.now c)
    (hshows : s.ShowsTimestamp request e.now c.client c.etype key stamp) :
    (s.outcome? (s.ledgerAfter earlier) e = some (.error (.refused (.preAuthFailed .replayed))) ↔
      s.HasPassedAs earlier c.client stamp.timestamp (stamp.usec.getD 0)) ∧
    (s.PassesAs (s.ledgerAfter earlier) e.now request c.client stamp.timestamp
        (stamp.usec.getD 0) ↔
      ¬ s.HasPassedAs earlier c.client stamp.timestamp (stamp.usec.getD 0)) := by
  have hlatest : ∀ e' ∈ earlier, e'.clock ≤ e.clock := by
    intro e' he'
    rw [hsplit] at hordered
    exact (List.pairwise_append.mp hordered).2.2 e' he' e List.mem_cons_self
  have hpassed := hasPassedAs_iff_accepted hdirectory hreaches earlier stamp
  have hreplay := check_eq_replay_iff_accepted hlatest hshows
  rw [← hpassed] at hreplay
  constructor
  · rw [outcome?, hrequest, Option.map_some, Option.some.injEq,
      handle_replayed_iff hreaches hshows]
    exact hreplay
  · rw [passesAs_iff_fresh hreaches hshows, ← hreplay]
    show _ ↔ ¬ (ReplayCache.check _ _ e.now).1 = .replay
    cases (ReplayCache.check _ _ e.now).1 <;> simp

/-- In the small realm the same request is sent twice at noon, and is refused the second time. -/
theorem replayed_iff_hasPassedAs_at_noon :
    let first : Event := ⟨Sample.noon, .request Sample.request⟩
    Sample.service.outcome? (Sample.service.ledgerAfter [first]) first =
      some (.error (.refused (.preAuthFailed .replayed))) := by
  intro first
  obtain ⟨l, hidentify⟩ := exists_of_fst_eq
    (x := Sample.service.identify Sample.request first.now) (l := Ledger.start {})
    (a := ⟨.aes256, .principal "PW13", Sample.user⟩) (by decide +kernel)
  have hreaches := identify_eq_ok hidentify
  obtain ⟨data, plaintext, hopens⟩ := openTimestamp_eq_ok_iff.mp
    (show Sample.service.openTimestamp Sample.userKey Sample.proof = .ok Sample.stamp by
      decide +kernel)
  have hshows : Sample.service.ShowsTimestamp Sample.request first.now Sample.user .aes256
      Sample.userKey Sample.stamp := {
    method := rfl
    longTerm := by decide +kernel
    opens := ⟨Sample.proof, data, plaintext, by decide +kernel, hopens⟩
    timely := by decide +kernel }
  have hfirst : Sample.service.PassesAs (Sample.service.ledgerAfter []) first.now Sample.request
      Sample.user Sample.stamp.timestamp (Sample.stamp.usec.getD 0) :=
    (passesAs_iff_fresh hreaches hshows).mpr rfl
  have hdirectory : Sample.service.directory =
      (PrincipalTable.ofEntries Sample.entries).directory := rfl
  have hordered : [first, first].Pairwise fun e e' => e.clock ≤ e'.clock := by decide
  have hsplit : [first, first] = [first] ++ first :: [] := rfl
  exact (replayed_iff_hasPassedAs hdirectory hordered hsplit rfl hreaches hshows).1.mpr
    ⟨[], first, [], Sample.request, rfl, rfl, hfirst⟩

end Service

end Kerberos
