import Kerberos.Proofs.Calls
import Kerberos.Proofs.Envelope
import Kerberos.Proofs.ReplayLog
import Kerberos.Proofs.Run

/-! # What an exchange leaves behind

    Exchanges share the replay cache and the verifier of one-time passwords.  A request that
    shows no timestamp leaves the cache exactly as it was (`Service.ShowsNone` lists the ways
    in which this comes about).  A timestamp that is shown makes the cache forget what has
    expired, and is entered if it is new; what happens behind the proof has no say in it, so
    a timestamp is consumed even if the ticket is refused in the end.  The verifier is called
    once at most.
-/

namespace Kerberos

/-! ## Records that stay -/

/-- A record is found by every check within its retention, whatever other checks were made
    meanwhile, as long as they were made within its retention too. -/
theorem ReplayCache.Consistent.replay_after {c : ReplayCache} (h : c.Consistent)
    {record : ReplayRecord} {t now : Instant} {later : List ReplayCheck}
    (hmem : (record, t) ∈ c.seen)
    (hlater : ∀ q ∈ later, ReplayLog.forgotten c.retention t q.now = false)
    (hnow : ReplayLog.forgotten c.retention t now = false) :
    ((c.after later).check record now).1 = .replay := by
  induction later generalizing c with
  | nil => exact (h.check_eq_replay_iff record now).mpr ⟨t, hmem, hnow⟩
  | cons q later ih =>
    have hretention := c.check_retention q.record q.now
    have hkept : (record, t) ∈ (c.check q.record q.now).2.seen :=
      (h.mem_check_iff q.record q.now _).mpr (.inl ⟨hmem, hlater q List.mem_cons_self⟩)
    refine ih (h.check q.record q.now) hkept ?_ ?_
    · rw [hretention]
      exact fun q' hq' => hlater q' (List.mem_cons_of_mem q hq')
    · rw [hretention]
      exact hnow

/-- So a record that passes a check as new is found from then on. -/
theorem ReplayCache.Consistent.replay_after_fresh {c : ReplayCache} (h : c.Consistent)
    {record : ReplayRecord} {t now : Instant} {later : List ReplayCheck}
    (hfresh : (c.check record t).1 = .fresh)
    (hlater : ∀ q ∈ later, ReplayLog.forgotten c.retention t q.now = false)
    (hnow : ReplayLog.forgotten c.retention t now = false) :
    (((c.check record t).2.after later).check record now).1 = .replay := by
  have hmem : (record, t) ∈ (c.check record t).2.seen :=
    (h.mem_check_iff record t _).mpr (.inr ⟨hfresh, rfl⟩)
  rw [← c.check_retention record t] at hlater hnow
  exact (h.check record t).replay_after hmem hlater hnow

namespace Service

open Exchange

variable {s : Service} {request : AsRequest} {now : Instant}

/-! ## Requests that show no timestamp -/

/-- The ways in which no timestamp comes to be shown. -/
inductive ShowsNone (s : Service) (request : AsRequest) (now : Instant) : Prop where
  /-- The exchange ends ahead of the proof. -/
  | stopped (h : ∀ c, ¬ s.Reaches request now c)
  /-- The client has to give a one-time password. -/
  | password {c : Candidate} (reaches : s.Reaches request now c)
      (method : c.client.otpMethod ≠ none)
  /-- The client has no key of the encryption type in use. -/
  | keyless {c : Candidate} (reaches : s.Reaches request now c)
      (unkeyed : c.client.keys.get? c.etype = none)
  /-- The request has no proof to it. -/
  | missing (h : request.proof? = none)
  /-- The proof is no encrypted data, does not decrypt, or decrypts to no timestamp. -/
  | unopened {c : Candidate} {key : EncryptionKey} (reaches : s.Reaches request now c)
      (longTerm : c.client.keys.get? c.etype = some key)
      (closed : ∀ stamp, ¬ s.OpensTo request key stamp)
  /-- The timestamp lies outside the skew. -/
  | untimely {c : Candidate} {key : EncryptionKey} {stamp : PaEncTimestamp}
      (reaches : s.Reaches request now c) (longTerm : c.client.keys.get? c.etype = some key)
      (opens : s.OpensTo request key stamp)
      (late : s.config.skew < (now - stamp.timestamp).abs)

/-- There are no other ways. -/
theorem showsNone_iff :
    s.ShowsNone request now ↔ ∀ c key stamp, s.Reaches request now c →
      ¬ s.ShowsTimestamp request now c.client c.etype key stamp := by
  constructor
  · intro h c key stamp hreaches hshows
    cases h with
    | stopped h => exact h c hreaches
    | password reaches method =>
      cases hreaches.unique reaches
      exact method hshows.method
    | keyless reaches unkeyed =>
      cases hreaches.unique reaches
      rw [hshows.longTerm] at unkeyed
      cases unkeyed
    | missing h =>
      obtain ⟨proof, _, _, hproof, -⟩ := hshows.opens
      rw [h] at hproof
      cases hproof
    | unopened reaches longTerm closed =>
      cases hreaches.unique reaches
      rw [hshows.longTerm] at longTerm
      cases longTerm
      exact closed stamp hshows.opens
    | untimely reaches longTerm opens late =>
      cases hreaches.unique reaches
      rw [hshows.longTerm] at longTerm
      cases longTerm
      cases hshows.opens.unique opens
      have htimely := hshows.timely
      rw [Duration.le_iff] at htimely
      rw [Duration.lt_iff] at late
      omega
  · intro h
    by_cases hreaches : ∃ c, s.Reaches request now c
    case neg => exact .stopped fun c hc => hreaches ⟨c, hc⟩
    obtain ⟨c, hreaches⟩ := hreaches
    cases hmethod : c.client.otpMethod with
    | some method => exact .password hreaches (by rw [hmethod]; exact nofun)
    | none =>
      cases hkey : c.client.keys.get? c.etype with
      | none => exact .keyless hreaches hkey
      | some key =>
        by_cases hopens : ∃ stamp, s.OpensTo request key stamp
        case neg => exact .unopened hreaches hkey fun stamp hstamp => hopens ⟨stamp, hstamp⟩
        obtain ⟨stamp, hopens⟩ := hopens
        -- The timestamp is shown if it is timely, so it is not.
        refine .untimely hreaches hkey hopens ?_
        by_cases htimely : (now - stamp.timestamp).abs ≤ s.config.skew
        · exact absurd ⟨hmethod, hkey, hopens, htimely⟩ (h c key stamp hreaches)
        · rw [Duration.le_iff] at htimely
          rw [Duration.lt_iff]
          omega

/-! ## The replay cache -/

theorem handle_cache_of_showsNone {clock : Instant} (h : s.ShowsNone request clock.wholeSecond)
    (l : Ledger) : ((s.handle clock request).runOn l).2.cache = l.cache := by
  rw [handle_cache]
  exact admitRequest_cache_of_not_shown (showsNone_iff.mp h) l

theorem handle_cache_of_shown {clock : Instant} {c : Candidate} {key : EncryptionKey}
    {stamp : PaEncTimestamp} (hreaches : s.Reaches request clock.wholeSecond c)
    (hshows : s.ShowsTimestamp request clock.wholeSecond c.client c.etype key stamp)
    (l : Ledger) :
    ((s.handle clock request).runOn l).2.cache =
      (l.cache.check (stampRecord c.client stamp) clock.wholeSecond).2 := by
  rw [handle_cache, admitRequest_of_shown hreaches hshows]

/-! ## The verifier of one-time passwords -/

/-- The calls hand over a one-time password once at most, and only one that is due: the
    exchange has come as far as the proof, and the client uses one-time passwords and has
    sent one. -/
structure UsesVerifier (s : Service) (request : AsRequest) (now : Instant) (calls : List Call) :
    Prop where
  once : calls.countP Call.isOtp ≤ 1
  due : ∀ method proof, .verifyOtp method proof ∈ calls →
    ∃ c, s.Reaches request now c ∧ c.client.otpMethod = some method ∧
      request.proof? = some proof

theorem countP_isOtp_eq_zero {calls : List Call} (h : ∀ call ∈ calls, call.isOtp = false) :
    calls.countP Call.isOtp = 0 :=
  List.countP_eq_zero.mpr fun call hcall => by rw [h call hcall]; exact Bool.false_ne_true

theorem UsesVerifier.of_none {calls : List Call} (h : ∀ call ∈ calls, call.isOtp = false) :
    s.UsesVerifier request now calls where
  once := by
    rw [countP_isOtp_eq_zero h]
    exact Nat.zero_le 1
  due := fun method proof hmem => nomatch h _ hmem

theorem UsesVerifier.concat {calls : List Call} (h : ∀ call ∈ calls, call.isOtp = false)
    {c : Candidate} {method : OtpMethod} {proof : Octets} (hreaches : s.Reaches request now c)
    (hmethod : c.client.otpMethod = some method) (hproof : request.proof? = some proof) :
    s.UsesVerifier request now (calls ++ [.verifyOtp method proof]) where
  once := by
    rw [List.countP_append, countP_isOtp_eq_zero h]
    exact Nat.le_refl 1
  due := by
    intro method' proof' hmem
    rcases List.mem_append.mp hmem with hmem | hmem
    · exact nomatch h _ hmem
    · cases List.mem_singleton.mp hmem
      exact ⟨c, hreaches, hmethod, hproof⟩

theorem UsesVerifier.append {calls more : List Call} (h : s.UsesVerifier request now calls)
    (hmore : ∀ call ∈ more, call.isOtp = false) : s.UsesVerifier request now (calls ++ more) where
  once := by
    rw [List.countP_append, countP_isOtp_eq_zero hmore]
    exact h.once
  due := by
    intro method proof hmem
    rcases List.mem_append.mp hmem with hmem | hmem
    · exact h.due method proof hmem
    · exact nomatch hmore _ hmem

theorem admitRequest_usesVerifier (s : Service) (request : AsRequest) (now : Instant)
    (l : Ledger) :
    ∃ made, ((s.admitRequest request now).runOn l).2.calls = l.calls ++ made ∧
      s.UsesVerifier request now made := by
  obtain ⟨first, hfirst, hclient⟩ := s.identify_makes request now l
  have hnone : ∀ call ∈ first, call.isOtp = false := by
    intro call hcall
    obtain ⟨name, rfl⟩ := hclient call hcall
    rfl
  unfold admitRequest
  rcases hidentify : (s.identify request now).runOn l with ⟨e | c, l₁⟩
  · rw [hidentify] at hfirst
    rw [runOn_bind_of_error hidentify]
    exact ⟨first, hfirst, .of_none hnone⟩
  · have hreaches := identify_eq_ok hidentify
    rw [hidentify] at hfirst
    rw [runOn_bind_of_ok hidentify]
    -- What is added to the outcome makes no call.
    have hstage : ∀ x : Exchange PreAuthOutcome,
        ((x >>= fun outcome => (return ⟨c, outcome⟩ : Exchange Admitted)).runOn l₁).2 =
          (x.runOn l₁).2 := by
      intro x
      rw [runOn_bind]
      rcases x.runOn l₁ with ⟨e | outcome, l₂⟩ <;> rfl
    rw [hstage]
    rcases s.verifyPreAuth_calls request c.client c.etype now l₁ with
      hcalls | ⟨method, proof, hmethod, hproof, hcalls⟩
    · exact ⟨first, hcalls.trans hfirst, .of_none hnone⟩
    · refine ⟨first ++ [.verifyOtp method proof], ?_, .concat hnone hreaches hmethod hproof⟩
      rw [hcalls, hfirst, List.append_assoc]

theorem handle_usesVerifier (s : Service) (clock : Instant) (request : AsRequest) (l : Ledger) :
    ∃ made, ((s.handle clock request).runOn l).2.calls = l.calls ++ made ∧
      s.UsesVerifier request clock.wholeSecond made := by
  obtain ⟨made, hmade, huses⟩ := s.admitRequest_usesVerifier request clock.wholeSecond l
  unfold handle
  rcases hpassed : (s.admitRequest request clock.wholeSecond).runOn l with ⟨e | admitted, l₁⟩
  · rw [hpassed] at hmade
    rw [runOn_bind_of_error hpassed]
    exact ⟨made, hmade, huses⟩
  · obtain ⟨more, hmore, hnone⟩ := s.grant_makes request clock.wholeSecond admitted l₁
    rw [hpassed] at hmade
    rw [runOn_bind_of_ok hpassed]
    refine ⟨made ++ more, ?_, huses.append hnone⟩
    rw [hmore, hmade, List.append_assoc]

/-! ## All effects -/

/-- A request that shows no timestamp leaves the replay cache as it was.  A timestamp that is
    shown makes the cache forget the records whose retention has ended by now.  If its record is
    among the others, the request is refused as a replay.  If it is not, it is entered with the
    time at which it came, whatever comes of the request, and every further check finds it as
    long as its retention lasts.  The verifier of one-time passwords is called once at most. -/
theorem handle_effects (s : Service) (retention : Duration) (checks : List ReplayCheck)
    (calls : List Call) (clock : Instant) (request : AsRequest) :
    let now := clock.wholeSecond
    let cache := (ReplayCache.empty retention).after checks
    let live := cache.seen.filter fun entry => !ReplayLog.forgotten retention entry.2 now
    let run := (s.handle clock request).runOn ⟨cache, calls⟩
    (s.ShowsNone request now → run.2.cache = cache) ∧
      (∀ c key stamp, s.Reaches request now c →
        s.ShowsTimestamp request now c.client c.etype key stamp →
        let record := stampRecord c.client stamp
        ((∃ t, (record, t) ∈ live) →
          run.1 = .error (.refused (.preAuthFailed .replayed)) ∧
            run.2.cache = cache.evict now ∧ run.2.cache.seen = live) ∧
        ((¬ ∃ t, (record, t) ∈ live) →
          run.1 ≠ .error (.refused (.preAuthFailed .replayed)) ∧
            run.2.cache = (cache.evict now).remember record now ∧
            run.2.cache.seen = (record, now) :: live ∧
            ∀ later now', (∀ q ∈ later, ReplayLog.forgotten retention now q.now = false) →
              ReplayLog.forgotten retention now now' = false →
              ((run.2.cache.after later).check record now').1 = .replay)) ∧
      ∃ made, run.2.calls = calls ++ made ∧ s.UsesVerifier request now made := by
  intro now cache live run
  have hretains := ReplayCache.retains retention checks
  refine ⟨fun h => handle_cache_of_showsNone h _, ?_, s.handle_usesVerifier clock request _⟩
  intro c key stamp hreaches hshows record
  have hcache : run.2.cache = (cache.check record now).2 :=
    handle_cache_of_shown hreaches hshows _
  have hreplayed : run.1 = .error (.refused (.preAuthFailed .replayed)) ↔
      (cache.check record now).1 = .replay := handle_replayed_iff hreaches hshows _
  have hlive : (cache.evict now).seen = live := by
    have hseen := hretains.consistent.evict_seen now
    rw [hretains.unchanged] at hseen
    exact hseen
  have hcontains : (cache.evict now).contains record = true ↔ ∃ t, (record, t) ∈ live := by
    rw [ReplayCache.contains_iff, hlive]
  constructor
  · intro hmem
    have hcheck := ReplayCache.check_of_contains (hcontains.mpr hmem)
    rw [hcheck] at hcache hreplayed
    exact ⟨hreplayed.mpr rfl, hcache, by rw [hcache, hlive]⟩
  · intro hnew
    rw [← hcontains, Bool.not_eq_true] at hnew
    have hcheck := ReplayCache.check_of_not_contains hnew
    -- The record is in the cache that the check leaves behind, and it stays there.
    have hfound : ∀ later now', (∀ q ∈ later, ReplayLog.forgotten retention now q.now = false) →
        ReplayLog.forgotten retention now now' = false →
        ((run.2.cache.after later).check record now').1 = .replay := by
      intro later now' hlater hnow'
      rw [← hretains.unchanged] at hlater hnow'
      rw [hcache]
      exact hretains.consistent.replay_after_fresh (by rw [hcheck]) hlater hnow'
    rw [hcheck] at hcache hreplayed
    refine ⟨fun h => (nomatch hreplayed.mp h), hcache, ?_, hfound⟩
    rw [hcache, ← hlive]
    rfl

/-- The user proves who it is and asks for a service that does not exist.  The ticket is refused,
    and the timestamp is consumed all the same, whatever other timestamp comes next. -/
theorem handle_effects_at_noon :
    let request := { Sample.request with sname := some (.principal "nobody") }
    let record := stampRecord Sample.user Sample.stamp
    let other : ReplayCheck := ⟨stampRecord Sample.ticketService Sample.stamp, Sample.noon⟩
    ∃ l', (Sample.service.handle Sample.noon request).runOn (Ledger.start {}) =
        (.error (.refused (.unknownServer (.notFound (.principal "nobody")))), l') ∧
      l'.cache.seen = [(record, Sample.noon.wholeSecond)] ∧
      ((l'.cache.after [other]).check record Sample.noon).1 = .replay ∧
      Sample.service.UsesVerifier request Sample.noon.wholeSecond l'.calls := by
  intro request record other
  obtain ⟨l, hidentify⟩ := exists_of_fst_eq
    (x := Sample.service.identify request Sample.noon.wholeSecond) (l := Ledger.start {})
    (a := ⟨.aes256, .principal "PW13", Sample.user⟩) (by decide +kernel)
  have hreaches := identify_eq_ok hidentify
  obtain ⟨data, plaintext, hopens⟩ := openTimestamp_eq_ok_iff.mp
    (show Sample.service.openTimestamp Sample.userKey Sample.proof = .ok Sample.stamp by
      decide +kernel)
  have hshows : Sample.service.ShowsTimestamp request Sample.noon.wholeSecond Sample.user .aes256
      Sample.userKey Sample.stamp := {
    method := rfl
    longTerm := by decide +kernel
    opens := ⟨Sample.proof, data, plaintext, by decide +kernel, hopens⟩
    timely := by decide +kernel }
  obtain ⟨-, hshown, made, hcalls, huses⟩ := Sample.service.handle_effects
    (RealmConfig.retention {}) [] [] Sample.noon request
  -- Before the first exchange there is no record that could be live.
  obtain ⟨-, -, hseen, hreplay⟩ := (hshown _ _ _ hreaches hshows).2
    fun ⟨t, hmem⟩ => List.not_mem_nil (show (record, t) ∈ [] from hmem)
  have hfound := hreplay [other] Sample.noon (by decide +kernel) (by decide +kernel)
  have hrefused : ((Sample.service.handle Sample.noon request).runOn (Ledger.start {})).1 =
      .error (.refused (.unknownServer (.notFound (.principal "nobody")))) := by decide +kernel
  rw [show (⟨(ReplayCache.empty (RealmConfig.retention {})).after [], []⟩ : Ledger) =
    Ledger.start {} from rfl] at hseen hfound hcalls
  rcases hrun : (Sample.service.handle Sample.noon request).runOn (Ledger.start {}) with
    ⟨outcome, l'⟩
  rw [hrun] at hrefused hseen hfound hcalls
  obtain rfl : outcome = _ := hrefused
  rw [List.nil_append] at hcalls
  rw [← hcalls] at huses
  exact ⟨l', rfl, hseen, hfound, huses⟩

end Service

end Kerberos
