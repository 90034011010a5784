import Kerberos.Proofs.Envelope
import Kerberos.Proofs.Grant

/-! # No reply without the proof that is due

    A reply means that every check was passed.  In particular the client has given the proof
    that its account and the realm ask for, and the flags of the ticket say whether a proof
    was verified in the exchange that led to it.
-/

namespace Kerberos

namespace Service

/-- The stage is passed with a proof if and only if there is one. -/
theorem preAuthenticated_iff_proves {s : Service} {request : AsRequest} {now : Instant}
    {client : DirectoryEntry} {etype : EncryptionType} {l l' : Ledger} {outcome : PreAuthOutcome}
    (h : (s.verifyPreAuth request client etype now).runOn l = (.ok outcome, l')) :
    outcome.preAuthenticated = true ↔ ∃ key, s.Proves l.cache request now client etype key := by
  rcases verifyPreAuth_eq_ok h with ⟨hproved, hproves⟩ | ⟨hproved, hmethod, hproof, _, _⟩
  · exact ⟨fun _ => ⟨_, hproves⟩, fun _ => hproved⟩
  · rw [hproved]
    constructor
    · intro hfalse
      cases hfalse
    · -- Either kind of proof is carried by the request, and there is none.
      rintro ⟨key, ⟨_, _, _, _, hsome, _⟩ | ⟨_, hshows, _⟩⟩
      · rw [hproof] at hsome
        cases hsome
      · obtain ⟨_, _, _, hsome, _⟩ := hshows.opens
        rw [hproof] at hsome
        cases hsome

/-- Where a proof is due, the way without one is not open. -/
theorem preAuthenticated_of_due {s : Service} {request : AsRequest} {now : Instant}
    {client : DirectoryEntry} {etype : EncryptionType} {l l' : Ledger} {outcome : PreAuthOutcome}
    (h : (s.verifyPreAuth request client etype now).runOn l = (.ok outcome, l'))
    (hdue : s.config.timestampRequired ∨ client.otpMethod.isSome) :
    outcome.preAuthenticated = true := by
  rcases verifyPreAuth_eq_ok h with ⟨hproved, -⟩ | ⟨-, hmethod, -, hrequired, -⟩
  · exact hproved
  · rw [hmethod, hrequired] at hdue
    simp at hdue

/-- A client with a one-time password passes by showing one. -/
theorem showsPassword_of_passes {s : Service} {request : AsRequest} {now : Instant}
    {client : DirectoryEntry} {etype : EncryptionType} {l l' : Ledger} {outcome : PreAuthOutcome}
    (h : (s.verifyPreAuth request client etype now).runOn l = (.ok outcome, l'))
    (hpassword : client.otpMethod.isSome) : s.ShowsPassword request client outcome.clientKey := by
  rcases verifyPreAuth_eq_ok h with ⟨-, hshows | ⟨_, hshows, _⟩⟩ | ⟨-, hmethod, -⟩
  · exact hshows
  · rw [hshows.method] at hpassword
    cases hpassword
  · rw [hmethod] at hpassword
    cases hpassword

/-- Any other client that gives or owes a timestamp passes by showing a new one. -/
theorem showsTimestamp_of_passes {s : Service} {request : AsRequest} {now : Instant}
    {client : DirectoryEntry} {etype : EncryptionType} {l l' : Ledger} {outcome : PreAuthOutcome}
    (h : (s.verifyPreAuth request client etype now).runOn l = (.ok outcome, l'))
    (hmethod : client.otpMethod = none)
    (hgiven : request.proof?.isSome ∨ s.config.timestampRequired) :
    ∃ stamp, s.ShowsTimestamp request now client etype outcome.clientKey stamp ∧
      (l.cache.check (stampRecord client stamp) now).1 = .fresh := by
  rcases verifyPreAuth_eq_ok h with ⟨-, ⟨method, _, _, hpassword, _⟩ | ⟨stamp, hshows, hfresh⟩⟩ |
    ⟨-, -, hproof, hrequired, -⟩
  · rw [hmethod] at hpassword
    cases hpassword
  · exact ⟨stamp, hshows, hfresh⟩
  · rw [hproof, hrequired] at hgiven
    simp at hgiven

/-! ## What a reply assures -/

/-- What a reply assures about the exchange that led to it: who the client `c` is, which key
    the reply is sealed under, and what `part` the ticket carries. -/
structure Assurance (s : Service) (l : Ledger) (now : Instant) (request : AsRequest)
    (reply : AsReply) (l' : Ledger) (c : Candidate) (clientKey : EncryptionKey)
    (part : EncTicketPart) : Prop where
  version : request.pvno = 5
  realm : sameIgnoringCase request.realm s.config.realm
  negotiated : negotiateEtype s.config request.etypes = .ok c.etype
  named : request.cname = some c.cname
  found : s.directory c.cname s.config.realm = .ok (some c.client)
  enabled : c.client.disabled = false
  unlocked : c.client.lockedOut = false
  unexpired : ∀ expiry, c.client.expiration = some expiry → now ≤ expiry
  ticketOptions : request.options &&& .tgsOnly = .empty
  permitted : s.config.Permits request.options
  /-- A client with a one-time password has given one that the verifier accepts. -/
  password : c.client.otpMethod.isSome → s.ShowsPassword request c.client clientKey
  /-- Any other client has given a timestamp that is new to the replay cache, if it gave one
      at all or had to. -/
  timestamp : c.client.otpMethod = none → request.proof?.isSome ∨ s.config.timestampRequired →
    ∃ stamp, s.ShowsTimestamp request now c.client c.etype clientKey stamp ∧
      (l.cache.check (stampRecord c.client stamp) now).1 = .fresh
  /-- The exchange ends with the sealing of `part` in the ticket and of the part for the client. -/
  carried : ∃ earlier serverKey ticketText replyText,
    l'.calls = earlier ++ [.encrypt serverKey KeyUsage.ticket ticketText,
      .encrypt clientKey KeyUsage.asReply replyText] ∧
    part.write = .ok ticketText ∧ reply.part.write = .ok replyText ∧
    (∃ n, s.cipher.encrypt n serverKey KeyUsage.ticket ticketText = .ok reply.ticket.encPart) ∧
    ∃ n, s.cipher.encrypt n clientKey KeyUsage.asReply replyText = .ok reply.encPart
  /-- Ticket and reply are flagged if and only if a proof was verified in this exchange. -/
  ticketFlag : part.flags.contains .preAuthent ↔
    ∃ key, s.Proves l.cache request now c.client c.etype key
  replyFlag : reply.part.flags.contains .preAuthent ↔
    ∃ key, s.Proves l.cache request now c.client c.etype key
  /-- Where a proof is due there is one, and the flags say so. -/
  due : s.config.timestampRequired ∨ c.client.otpMethod.isSome →
    part.flags.contains .preAuthent ∧ reply.part.flags.contains .preAuthent

/-- Nobody gets a reply without passing every check and giving the proof that is due. -/
theorem reply_requires_proof {s : Service} {clock : Instant} {request : AsRequest}
    {l l' : Ledger} {reply : AsReply} (h : (s.handle clock request).runOn l = (.ok reply, l')) :
    ∃ c clientKey part,
      Assurance s l clock.wholeSecond request reply l' c clientKey part := by
  obtain ⟨g, l₁, hg⟩ := handle_eq_ok h
  have hflag := preAuthenticated_iff_proves hg.passes
  have htimestamp := showsTimestamp_of_passes hg.passes
  have hticketFlag : (g.part s request clock.wholeSecond).flags.contains .preAuthent =
      g.outcome.preAuthenticated := (Grants.contains_flags _).1
  have hreplyFlag : reply.part.flags.contains .preAuthent = g.outcome.preAuthenticated := by
    rw [hg.replyPart]
    exact hticketFlag
  refine ⟨g.candidate, g.outcome.clientKey, g.part s request clock.wholeSecond, {
    version := hg.reaches.version
    realm := hg.reaches.realm
    negotiated := hg.reaches.negotiated
    named := hg.reaches.named
    found := hg.reaches.found
    enabled := hg.reaches.usable.enabled
    unlocked := hg.reaches.usable.unlocked
    unexpired := hg.reaches.usable.unexpired
    ticketOptions := by simpa [KdcOptions.intersects] using hg.ticketOptions
    permitted := hg.reaches.permitted
    password := showsPassword_of_passes hg.passes
    timestamp := htimestamp
    carried := ?_
    ticketFlag := by rw [hticketFlag]; exact hflag
    replyFlag := by rw [hreplyFlag]; exact hflag
    due := ?_ }⟩
  · refine ⟨l₁.calls ++ [.lookup .server g.sname, .randomKey g.candidate.etype], g.serverKey,
      g.ticketText, g.replyText, ?_, hg.ticketWritten, hg.replyWritten, ⟨_, hg.ticketSealed⟩,
      ⟨_, hg.replySealed⟩⟩
    rw [hg.calls_eq]
    simp [Granting.laterCalls]
  · intro hdue
    rw [hticketFlag, hreplyFlag]
    exact ⟨preAuthenticated_of_due hg.passes hdue, preAuthenticated_of_due hg.passes hdue⟩

/-- The user of the small realm gets its reply at noon. -/
theorem reply_requires_proof_at_noon :
    ∃ reply l',
      (Sample.service.handle Sample.noon Sample.request).runOn (Ledger.start {}) =
        (.ok reply, l') ∧
      ∃ c clientKey part, Assurance Sample.service (Ledger.start {}) Sample.noon.wholeSecond
        Sample.request reply l' c clientKey part := by
  obtain ⟨reply, l', hrun⟩ := Exchange.exists_of_isOk
    (x := Sample.service.handle Sample.noon Sample.request) (l := Ledger.start {})
    (by decide +kernel)
  exact ⟨reply, l', hrun, reply_requires_proof hrun⟩

end Service

end Kerberos
