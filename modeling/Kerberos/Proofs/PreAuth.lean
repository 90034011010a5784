import Kerberos.Proofs.Admission

/-! # Proofs of identity

    What a client has to show, and what the pre-authentication stage makes of it.  There are
    two kinds of proof.  An encrypted timestamp is shown (`Service.ShowsTimestamp`) and then
    still has to be new to the replay cache.  A one-time password is accepted by the verifier
    or not (`Service.ShowsPassword`).  `Service.Proves` is either kind of proof, verified
    against a given replay cache.
-/

namespace Kerberos

namespace Service

open Exchange

/-! ## What is shown -/

/-- The first encrypted timestamp of the request decrypts under `key` to `stamp`. -/
def OpensTo (s : Service) (request : AsRequest) (key : EncryptionKey) (stamp : PaEncTimestamp) :
    Prop :=
  ∃ proof data plaintext,
    request.proof? = some proof ∧
    EncryptedData.read proof = .ok data ∧
    s.cipher.decrypt key KeyUsage.encTimestamp data = .ok plaintext ∧
    PaEncTimestamp.read plaintext = .ok stamp

/-- A client without a one-time password shows a timestamp under its long-term key, and the
    timestamp lies within the skew of `now`. -/
structure ShowsTimestamp (s : Service) (request : AsRequest) (now : Instant)
    (client : DirectoryEntry) (etype : EncryptionType) (key : EncryptionKey)
    (stamp : PaEncTimestamp) : Prop where
  method : client.otpMethod = none
  longTerm : client.keys.get? etype = some key
  opens : s.OpensTo request key stamp
  timely : (now - stamp.timestamp).abs ≤ s.config.skew

/-- A client with a one-time password shows one that the verifier accepts, and the verifier
    derives `key` from it. -/
def ShowsPassword (s : Service) (request : AsRequest) (client : DirectoryEntry)
    (key : EncryptionKey) : Prop :=
  ∃ method proof verifier,
    client.otpMethod = some method ∧
    request.proof? = some proof ∧
    s.otp = some verifier ∧
    verifier client method proof = some key

/-- What the replay cache remembers of a timestamp. -/
def stampRecord (client : DirectoryEntry) (stamp : PaEncTimestamp) : ReplayRecord :=
  ReplayRecord.of client.principal client.realm stamp.timestamp (stamp.usec.getD 0)

/-- A proof is verified, against the replay cache `cache` if it is a timestamp. -/
inductive Proves (s : Service) (cache : ReplayCache) (request : AsRequest) (now : Instant)
    (client : DirectoryEntry) (etype : EncryptionType) (key : EncryptionKey) : Prop where
  | password (h : s.ShowsPassword request client key)
  | timestamp (stamp : PaEncTimestamp) (h : s.ShowsTimestamp request now client etype key stamp)
      (fresh : (cache.check (stampRecord client stamp) now).1 = .fresh)

theorem openTimestamp_eq_ok_iff {s : Service} {key : EncryptionKey} {proof : Octets}
    {stamp : PaEncTimestamp} :
    s.openTimestamp key proof = .ok stamp ↔
      ∃ data plaintext, EncryptedData.read proof = .ok data ∧
        s.cipher.decrypt key KeyUsage.encTimestamp data = .ok plaintext ∧
        PaEncTimestamp.read plaintext = .ok stamp := by
  simp only [openTimestamp, Cipher.openMessage, except_bind_eq_ok_iff, mapError_eq_ok_iff]
  constructor
  · rintro ⟨data, hdata, plaintext, hplaintext, hstamp⟩
    exact ⟨data, plaintext, hdata, hplaintext, hstamp⟩
  · rintro ⟨data, plaintext, hdata, hplaintext, hstamp⟩
    exact ⟨data, hdata, plaintext, hplaintext, hstamp⟩

theorem openTimestamp_refusal {s : Service} {key : EncryptionKey} {proof : Octets}
    {r : Refusal} (h : s.openTimestamp key proof = .error r) : ∃ why, r = .badIntegrity why := by
  simp only [openTimestamp, bind, Except.bind] at h
  cases hdata : EncryptedData.read proof with
  | error cause =>
    rw [hdata] at h
    cases h
    exact ⟨_, rfl⟩
  | ok data =>
    simp only [hdata, mapError_ok] at h
    obtain ⟨cause, -, rfl⟩ := mapError_eq_error_iff.mp h
    exact ⟨_, rfl⟩

theorem OpensTo.openTimestamp {s : Service} {request : AsRequest} {key : EncryptionKey}
    {stamp : PaEncTimestamp} (h : s.OpensTo request key stamp) :
    ∃ proof, request.proof? = some proof ∧ s.openTimestamp key proof = .ok stamp := by
  obtain ⟨proof, data, plaintext, hproof, hrest⟩ := h
  exact ⟨proof, hproof, openTimestamp_eq_ok_iff.mpr ⟨data, plaintext, hrest⟩⟩

theorem OpensTo.unique {s : Service} {request : AsRequest} {key : EncryptionKey}
    {stamp stamp' : PaEncTimestamp} (h : s.OpensTo request key stamp)
    (h' : s.OpensTo request key stamp') : stamp' = stamp := by
  obtain ⟨proof, hproof, hopen⟩ := h.openTimestamp
  obtain ⟨proof', hproof', hopen'⟩ := h'.openTimestamp
  have hproofs : proof' = proof := Option.some.inj (hproof'.symm.trans hproof)
  subst hproofs
  simpa using hopen'.symm.trans hopen

/-- A request shows one timestamp only. -/
theorem ShowsTimestamp.unique {s : Service} {request : AsRequest} {now : Instant}
    {client : DirectoryEntry} {etype : EncryptionType} {key key' : EncryptionKey}
    {stamp stamp' : PaEncTimestamp} (h : s.ShowsTimestamp request now client etype key stamp)
    (h' : s.ShowsTimestamp request now client etype key' stamp') : stamp' = stamp := by
  have hkey : key' = key := Option.some.inj (h'.longTerm.symm.trans h.longTerm)
  subst hkey
  exact h.opens.unique h'.opens

/-! ## What the stage makes of it -/

/-- A timestamp that is shown is entered in the replay cache, and passes if it is new there. -/
theorem verifyPreAuth_of_showsTimestamp {s : Service} {request : AsRequest} {now : Instant}
    {client : DirectoryEntry} {etype : EncryptionType} {key : EncryptionKey}
    {stamp : PaEncTimestamp} (h : s.ShowsTimestamp request now client etype key stamp)
    (l : Ledger) :
    (s.verifyPreAuth request client etype now).runOn l =
      (match (l.cache.check (stampRecord client stamp) now).1 with
        | .fresh => .ok { clientKey := key, preAuthenticated := true }
        | .replay => .error (.refused (.preAuthFailed .replayed)),
      { l with cache := (l.cache.check (stampRecord client stamp) now).2 }) := by
  obtain ⟨proof, hproof, hopen⟩ := h.opens.openTimestamp
  -- All that stands in the way is checked already, so the stage comes down to the replay cache.
  have htimely : ¬ s.config.skew < (now - stamp.timestamp).abs := by
    have hle := h.timely
    rw [Duration.le_iff] at hle
    rw [Duration.lt_iff]
    omega
  simp only [verifyPreAuth, PreAuthMethod.ofEntry, h.method, verifyTimestamp, h.longTerm, hproof]
  rw [hopen, runOn_bind_of_ok (runOn_liftM _ _)]
  simp only [htimely, ↓reduceIte]
  rw [runOn_bind_of_ok (runOn_checkReplay _ _ _)]
  cases hverdict : (l.cache.check (stampRecord client stamp) now).1 with
  | fresh =>
    simp only [stampRecord] at hverdict
    simp only [hverdict, stampRecord]
    rfl
  | replay =>
    simp only [stampRecord] at hverdict
    simp only [hverdict, stampRecord]
    rfl

theorem ShowsTimestamp.passes {s : Service} {request : AsRequest} {now : Instant}
    {client : DirectoryEntry} {etype : EncryptionType} {key : EncryptionKey}
    {stamp : PaEncTimestamp} (h : s.ShowsTimestamp request now client etype key stamp)
    {l : Ledger} (hfresh : (l.cache.check (stampRecord client stamp) now).1 = .fresh) :
    ((s.verifyPreAuth request client etype now).runOn l).1 =
      .ok { clientKey := key, preAuthenticated := true } := by
  rw [verifyPreAuth_of_showsTimestamp h, hfresh]

theorem ShowsTimestamp.isReplay {s : Service} {request : AsRequest} {now : Instant}
    {client : DirectoryEntry} {etype : EncryptionType} {key : EncryptionKey}
    {stamp : PaEncTimestamp} (h : s.ShowsTimestamp request now client etype key stamp)
    {l : Ledger} (hreplay : (l.cache.check (stampRecord client stamp) now).1 = .replay) :
    ((s.verifyPreAuth request client etype now).runOn l).1 =
      .error (.refused (.preAuthFailed .replayed)) := by
  rw [verifyPreAuth_of_showsTimestamp h, hreplay]

/-- A timestamp that opens and lies outside the skew is refused for that. -/
theorem verifyPreAuth_of_outsideSkew {s : Service} {request : AsRequest} {now : Instant}
    {client : DirectoryEntry} {etype : EncryptionType} {key : EncryptionKey}
    {stamp : PaEncTimestamp} (hmethod : client.otpMethod = none)
    (hkey : client.keys.get? etype = some key) (hopens : s.OpensTo request key stamp)
    (hlate : s.config.skew < (now - stamp.timestamp).abs) (l : Ledger) :
    (s.verifyPreAuth request client etype now).runOn l =
      (.error (.refused (.preAuthFailed .outsideSkew)), l) := by
  obtain ⟨proof, hproof, hopen⟩ := hopens.openTimestamp
  simp only [verifyPreAuth, PreAuthMethod.ofEntry, hmethod, verifyTimestamp, hkey, hproof]
  rw [hopen, runOn_bind_of_ok (runOn_liftM _ _)]
  simp only [hlate, ↓reduceIte]
  rw [runOn_bind_of_error (runOn_refuse _ _)]

/-- What the stage can refuse for, if no timestamp is shown. -/
def RefusesUnshown (s : Service) (client : DirectoryEntry) (r : Refusal) : Prop :=
  r ≠ .preAuthFailed .replayed ∧
  ∀ hint, r = .preAuthRequired hint → hint = { etypes := s.config.etypes, salt := client.salt }

theorem refusesUnshown_proofWanted (s : Service) (client : DirectoryEntry) :
    s.RefusesUnshown client (s.proofWanted client) := by
  refine ⟨by simp [proofWanted], fun hint h => ?_⟩
  cases h
  rfl

theorem verifyOtp_sparing (s : Service) (request : AsRequest) (client : DirectoryEntry)
    (method : OtpMethod) :
    Sparing (s.RefusesUnshown client) (s.verifyOtp request client method) := by
  unfold verifyOtp
  refine .guard (s.refusesUnshown_proofWanted client) ?_
  split
  · split
    · refine .bind (.enter _) fun _ => ?_
      split
      · exact .pure _
      · exact .refuse (by simp [RefusesUnshown])
    · exact .refuse (by simp [RefusesUnshown])
  · exact .refuse (by simp [RefusesUnshown])

/-- Without a timestamp that is shown, the stage leaves the replay cache alone. -/
theorem verifyPreAuth_of_not_shown {s : Service} {request : AsRequest} {now : Instant}
    {client : DirectoryEntry} {etype : EncryptionType}
    (h : ∀ key stamp, ¬ s.ShowsTimestamp request now client etype key stamp) :
    Sparing (s.RefusesUnshown client) (s.verifyPreAuth request client etype now) := by
  cases hmethod : client.otpMethod with
  | some method =>
    simp only [verifyPreAuth, PreAuthMethod.ofEntry, hmethod]
    exact s.verifyOtp_sparing request client method
  | none =>
    simp only [verifyPreAuth, PreAuthMethod.ofEntry, hmethod, verifyTimestamp]
    split
    · next key hkey =>
      split
      · exact .guard (s.refusesUnshown_proofWanted client) (.pure _)
      · next proof hproof =>
        cases hopen : s.openTimestamp key proof with
        | error r =>
          obtain ⟨why, rfl⟩ := openTimestamp_refusal hopen
          exact .refuse_bind (by simp [RefusesUnshown]) _
        | ok stamp =>
          -- A timestamp that opens and is not shown has to lie outside the skew.
          obtain ⟨data, plaintext, hdata⟩ := openTimestamp_eq_ok_iff.mp hopen
          have hlate : s.config.skew < (now - stamp.timestamp).abs := by
            rw [Duration.lt_iff]
            by_cases hle : (now - stamp.timestamp).abs ≤ s.config.skew
            · exact absurd ⟨hmethod, hkey, ⟨proof, data, plaintext, hproof, hdata⟩, hle⟩
                (h key stamp)
            · rw [Duration.le_iff] at hle
              omega
          change Sparing _ (if s.config.skew < (now - stamp.timestamp).abs then _ else _)
          rw [if_pos hlate]
          exact .refuse_bind (by simp [RefusesUnshown]) _
    · exact .refuse (by simp [RefusesUnshown])

theorem verifyOtp_eq_ok {s : Service} {request : AsRequest} {client : DirectoryEntry}
    {method : OtpMethod} {l l' : Ledger} {outcome : PreAuthOutcome}
    (hmethod : client.otpMethod = some method)
    (h : (s.verifyOtp request client method).runOn l = (.ok outcome, l')) :
    outcome.preAuthenticated = true ∧ s.ShowsPassword request client outcome.clientKey := by
  unfold verifyOtp at h
  cases hempty : request.padata.isEmpty with
  | true => simp [hempty, runOn_bind] at h
  | false =>
    simp only [hempty, Bool.false_eq_true, ↓reduceIte] at h
    cases hproof : request.proof? with
    | none => simp [hproof] at h
    | some proof =>
      cases hverifier : s.otp with
      | none => simp [hproof, hverifier] at h
      | some verifier =>
        simp only [hproof, hverifier] at h
        rw [runOn_bind_of_ok (runOn_enter _ _)] at h
        cases hkey : verifier client method proof with
        | none => simp [hkey] at h
        | some key =>
          simp only [hkey] at h
          cases h
          exact ⟨rfl, method, proof, verifier, hmethod, hproof, hverifier, hkey⟩

/-- A client that uses no passwords and shows no timestamp passes only if it gives no proof and
    is not asked for one. -/
theorem verifyTimestamp_eq_ok_of_not_shown {s : Service} {request : AsRequest} {now : Instant}
    {client : DirectoryEntry} {etype : EncryptionType} {l l' : Ledger} {outcome : PreAuthOutcome}
    (hmethod : client.otpMethod = none)
    (hshown : ∀ key stamp, ¬ s.ShowsTimestamp request now client etype key stamp)
    (h : (s.verifyTimestamp request client etype now).runOn l = (.ok outcome, l')) :
    outcome.preAuthenticated = false ∧ request.proof? = none ∧
      s.config.timestampRequired = false ∧ client.keys.get? etype = some outcome.clientKey := by
  unfold verifyTimestamp at h
  cases hkey : client.keys.get? etype with
  | none => simp [hkey] at h
  | some key =>
    simp only [hkey] at h
    cases hproof : request.proof? with
    | none =>
      -- Without a proof the stage is passed only where none is required.
      cases hrequired : s.config.timestampRequired with
      | true =>
        simp only [hproof, hrequired, ↓reduceIte] at h
        rw [runOn_bind_of_error (runOn_refuse _ _)] at h
        cases h
      | false =>
        simp only [hproof, hrequired, Bool.false_eq_true, ↓reduceIte] at h
        cases h
        exact ⟨rfl, rfl, rfl, rfl⟩
    | some proof =>
      -- The timestamp would have to open within the skew, and then it would be shown.
      simp only [hproof] at h
      obtain ⟨stamp, l₁, hopen, h⟩ := runOn_bind_eq_ok_iff.mp h
      rw [runOn_liftM, Prod.mk.injEq, mapError_eq_ok_iff] at hopen
      obtain ⟨data, plaintext, hdata⟩ := openTimestamp_eq_ok_iff.mp hopen.1
      by_cases hlate : s.config.skew < (now - stamp.timestamp).abs
      · simp [hlate, runOn_bind] at h
      · refine absurd ⟨hmethod, hkey, ⟨proof, data, plaintext, hproof, hdata⟩, ?_⟩
          (hshown key stamp)
        rw [Duration.lt_iff] at hlate
        rw [Duration.le_iff]
        omega

/-- The ways in which the stage can be passed.  Without a proof it is passed only by a client
    that gives none, uses no passwords, and is not asked for a timestamp. -/
theorem verifyPreAuth_eq_ok {s : Service} {request : AsRequest} {now : Instant}
    {client : DirectoryEntry} {etype : EncryptionType} {l l' : Ledger} {outcome : PreAuthOutcome}
    (h : (s.verifyPreAuth request client etype now).runOn l = (.ok outcome, l')) :
    (outcome.preAuthenticated = true ∧ s.Proves l.cache request now client etype outcome.clientKey) ∨
    (outcome.preAuthenticated = false ∧ client.otpMethod = none ∧ request.proof? = none ∧
      s.config.timestampRequired = false ∧ client.keys.get? etype = some outcome.clientKey) := by
  by_cases hshown : ∃ key stamp, s.ShowsTimestamp request now client etype key stamp
  · obtain ⟨key, stamp, hshows⟩ := hshown
    rw [verifyPreAuth_of_showsTimestamp hshows] at h
    cases hverdict : (l.cache.check (stampRecord client stamp) now).1 with
    | replay => simp [hverdict] at h
    | fresh =>
      rw [hverdict] at h
      cases h
      exact .inl ⟨rfl, .timestamp stamp hshows hverdict⟩
  cases hmethod : client.otpMethod with
  | some method =>
    simp only [verifyPreAuth, PreAuthMethod.ofEntry, hmethod] at h
    obtain ⟨hproved, hpassword⟩ := verifyOtp_eq_ok hmethod h
    exact .inl ⟨hproved, .password hpassword⟩
  | none =>
    simp only [verifyPreAuth, PreAuthMethod.ofEntry, hmethod] at h
    obtain ⟨hproved, hproof⟩ := verifyTimestamp_eq_ok_of_not_shown hmethod
      (fun key stamp hshows => hshown ⟨key, stamp, hshows⟩) h
    exact .inr ⟨hproved, rfl, hproof⟩

end Service

end Kerberos
