import Kerberos.Proofs.Envelope
import Kerberos.Proofs.Grant
import Kerberos.Proofs.SealedParts
import Kerberos.Wire.Request

/-! # Service and client get the same credential

    A reply carries a credential twice: once for the service, inside the ticket, and once for
    the client.  The two parts are put together by different rules and written in different
    orders.  `Service.Opens` says what each side finds when it opens its part, and
    `Credential` says that they find the same.
-/

namespace Kerberos

open Asn1

/-- The plaintext of a call stays below `sightLimit`.  A longer one is more than a machine can
    address, and a reader would not see past its length. -/
def Call.InSight : Call → Prop
  | .encrypt _ _ plaintext => plaintext.length < sightLimit
  | _ => True

instance : DecidablePred Call.InSight
  | .encrypt _ _ plaintext => inferInstanceAs (Decidable (plaintext.length < sightLimit))
  | .lookup _ _ | .verifyOtp _ _ | .randomKey _ => inferInstanceAs (Decidable True)

/-- The parts for the service and for the client tell of the same credential. -/
structure Credential (t : EncTicketPart) (r : EncAsRepPart) : Prop where
  key : r.key = t.key
  flags : r.flags = t.flags
  authTime : r.authTime = t.authTime
  startTime : r.startTime = t.startTime
  endTime : r.endTime = t.endTime
  renewTill : r.renewTill = t.renewTill
  caddr : r.caddr = t.caddr

/-- Cutting times to the second does not set the parts apart. -/
theorem Credential.inWholeSeconds {t : EncTicketPart} {r : EncAsRepPart} (h : Credential t r) :
    Credential t.inWholeSeconds r.inWholeSeconds where
  key := h.key
  flags := h.flags
  authTime := congrArg Instant.wholeSecond h.authTime
  startTime := congrArg (Option.map Instant.wholeSecond) h.startTime
  endTime := congrArg Instant.wholeSecond h.endTime
  renewTill := congrArg (Option.map Instant.wholeSecond) h.renewTill
  caddr := h.caddr

namespace Service

/-- What the client is not told of tickets without renewal is not there to begin with. -/
theorem credential_ofTicket (s : Service) (request : RequestBody) (now : Instant)
    (cname : PrincipalName) (validity : Validity) (caddr : Option (List HostAddress))
    (sessionKey : EncryptionKey) (preAuthenticated : Bool) (ticket : Ticket)
    (client : DirectoryEntry) :
    Credential (s.ticketPart request now cname validity caddr sessionKey preAuthenticated)
      (EncAsRepPart.ofTicket request
        ⟨ticket, s.ticketPart request now cname validity caddr sessionKey preAuthenticated⟩
        client) where
  key := rfl
  flags := rfl
  authTime := rfl
  startTime := rfl
  endTime := rfl
  renewTill := by
    have hflag : (grantedFlags request.options validity preAuthenticated).contains .renewable =
        validity.renewTill.isSome := (Grants.contains_flags _).2
    simp only [EncAsRepPart.ofTicket, ticketPart, hflag]
    cases validity.renewTill <;> rfl
  caddr := rfl

/-! ## Keys -/

/-- The client's key for the exchange: the one that the verifier derives from its one-time
    password, or else its long-term key. -/
inductive ClientKey (s : Service) (request : AsRequest) (client : DirectoryEntry)
    (etype : EncryptionType) (key : EncryptionKey) : Prop where
  | password (h : s.ShowsPassword request client key)
  | longTerm (method : client.otpMethod = none) (h : client.keys.get? etype = some key)

theorem clientKey_of_verifyPreAuth {s : Service} {request : AsRequest} {now : Instant}
    {client : DirectoryEntry} {etype : EncryptionType} {l l' : Ledger} {outcome : PreAuthOutcome}
    (h : (s.verifyPreAuth request client etype now).runOn l = (.ok outcome, l')) :
    s.ClientKey request client etype outcome.clientKey := by
  rcases verifyPreAuth_eq_ok h with ⟨-, hshows | ⟨_, hshows, -⟩⟩ | ⟨-, hmethod, -, -, hkey⟩
  · exact .password hshows
  · exact .longTerm hshows.method hshows.longTerm
  · exact .longTerm hmethod hkey

/-- The service opens the ticket and finds `t`, and the client opens its part and finds `r`,
    each with its own key of the negotiated type. -/
structure Opens (s : Service) (request : AsRequest) (reply : AsReply) (t : EncTicketPart)
    (r : EncAsRepPart) : Prop where
  service : ∃ etype sname server serverKey,
    negotiateEtype s.config request.etypes = .ok etype ∧
    request.sname = some sname ∧ s.directory sname s.config.realm = .ok (some server) ∧
    server.keys.get? etype = some serverKey ∧
    s.cipher.openMessage serverKey KeyUsage.ticket reply.ticket.encPart EncTicketPart.read = .ok t
  client : ∃ etype cname client clientKey,
    negotiateEtype s.config request.etypes = .ok etype ∧
    request.cname = some cname ∧ s.directory cname s.config.realm = .ok (some client) ∧
    s.ClientKey request client etype clientKey ∧
    s.cipher.openMessage clientKey KeyUsage.asReply reply.encPart EncAsRepPart.read = .ok r

/-! ## Replies -/

/-- The parts that a reply carries are opened, and they are a credential. -/
theorem Granting.Explains.opens {g : Granting} {s : Service} {now : Instant} {request : AsRequest}
    {l l₁ l' : Ledger} {reply : AsReply} (h : g.Explains s now request l l₁ reply l')
    (hcipher : s.cipher.Faithful) (hcname : g.candidate.cname.kind < 128)
    (hsname : g.sname.kind < 128) (hsight : ∀ call ∈ l'.calls, call.InSight) :
    s.Opens request reply (g.part s request now).inWholeSeconds reply.part.inWholeSeconds := by
  -- Both plaintexts were handed to the cipher in this exchange, so both are in sight.
  have hticketSight : g.ticketText.length < sightLimit := by
    refine hsight (.encrypt g.serverKey KeyUsage.ticket g.ticketText) ?_
    rw [h.calls_eq]
    simp [Granting.laterCalls]
  have hreplySight : g.replyText.length < sightLimit := by
    refine hsight (.encrypt g.outcome.clientKey KeyUsage.asReply g.replyText) ?_
    rw [h.calls_eq]
    simp [Granting.laterCalls]
  have hticketRead : EncTicketPart.read g.ticketText = .ok (g.part s request now).inWholeSeconds :=
    EncTicketPart.read_of_write h.ticketWritten hcname hticketSight
  have hreplyRead : EncAsRepPart.read g.replyText = .ok reply.part.inWholeSeconds := by
    refine EncAsRepPart.read_of_write h.replyWritten ?_ hreplySight
    rw [h.replyPart]
    show reply.ticket.sname.kind < 128
    rw [h.ticketSname]
    exact hsname
  constructor
  · exact ⟨_, _, _, _, h.reaches.negotiated, h.named, h.found, h.serverKey,
      hcipher.opens h.ticketSealed hticketRead⟩
  · exact ⟨_, _, _, _, h.reaches.negotiated, h.reaches.named, h.reaches.found,
      clientKey_of_verifyPreAuth h.passes, hcipher.opens h.replySealed hreplyRead⟩

end Service

/-- The nonce of a request is the word that the client wrote, in either way of writing it. -/
theorem AsRequest.nonce_of_written {message : Octets} {request : AsRequest}
    (h : AsRequest.read message = .ok request) {received : Wire.ReceivedRequest}
    (hreceived : Wire.requestReader.run message = some received) {n : UInt32}
    (hn : received.body.nonce = octetsOfWord n ∨ received.body.nonce = Integer.ofWord n) :
    request.nonce = n := by
  have hnonce : Wire.nonce received.body.nonce = .ok n := by
    rcases hn with hn | hn
    · rw [hn, Wire.nonce_octetsOfWord]
    · rw [hn, Wire.nonce_ofWord]
  simp only [AsRequest.read, hreceived, Wire.ReceivedRequest.check] at h
  split at h
  · cases h
  · simp only [except_bind_eq_ok_iff, Wire.ReceivedBody.check] at h
    obtain ⟨_, -, _, -, body, ⟨_, -, _, -, _, -, _, -, _, -, nonce, hread, _, -, hbody⟩, h⟩ := h
    cases hbody
    cases h
    exact Except.ok.inj (hread.symm.trans hnonce)

namespace Service

/-- Service and client open their parts of a reply and find the same credential in them, for
    the client and the service that the reply names in the clear. -/
theorem reply_parts_agree {s : Service} (hcipher : s.cipher.Faithful) {message : Octets}
    {request : AsRequest} (hrequest : AsRequest.read message = .ok request)
    (hcname : ∀ n, request.cname = some n → n.kind < 128)
    (hsname : ∀ n, request.sname = some n → n.kind < 128) {clock : Instant} {l l' : Ledger}
    {reply : AsReply} (hrun : (s.handle clock request).runOn l = (.ok reply, l'))
    (hsight : ∀ call ∈ l'.calls, call.InSight) :
    ∃ t r, s.Opens request reply t r ∧ Credential t r ∧
      (t.cname = reply.cname ∧ t.crealm = reply.crealm) ∧
      (r.sname = reply.ticket.sname ∧ request.sname = some r.sname) ∧
      (r.srealm = reply.ticket.realm ∧ r.srealm = s.config.realm) ∧
      r.nonce = request.nonce ∧
      ∀ received n, Wire.requestReader.run message = some received →
        received.body.nonce = octetsOfWord n ∨ received.body.nonce = Integer.ofWord n →
        r.nonce = n := by
  obtain ⟨g, l₁, hg⟩ := handle_eq_ok hrun
  have hopens := hg.opens hcipher (hcname _ hg.reaches.named) (hsname _ hg.named) hsight
  -- What the two sides read are the two parts as they were put together, to the second.
  have hcredential : Credential (g.part s request clock.wholeSecond) reply.part := by
    rw [hg.replyPart]
    exact s.credential_ofTicket _ _ _ _ _ _ _ _ _
  have hnonce : reply.part.nonce = request.nonce := by
    rw [hg.replyPart]
    rfl
  have hservice : reply.part.sname = reply.ticket.sname ∧ reply.part.srealm = reply.ticket.realm := by
    rw [hg.replyPart]
    exact ⟨rfl, rfl⟩
  refine ⟨_, _, hopens, hcredential.inWholeSeconds, ⟨hg.cname.symm, hg.crealm.symm⟩,
    ⟨hservice.1, ?_⟩, ⟨hservice.2, hservice.2.trans hg.ticketRealm⟩, hnonce,
    fun received n hreceived hn => ?_⟩
  · show request.sname = some reply.part.sname
    rw [hservice.1, hg.ticketSname]
    exact hg.named
  · exact hnonce.trans (AsRequest.nonce_of_written hrequest hreceived hn)

/-- The user of the small realm and its ticket service get the same credential at noon. -/
theorem reply_parts_agree_at_noon :
    AsRequest.read Sample.message = .ok Sample.request ∧
    ∃ reply l',
      (Sample.service.handle Sample.noon Sample.request).runOn (Ledger.start {}) =
        (.ok reply, l') ∧
      ∃ t r, Sample.service.Opens Sample.request reply t r ∧ Credential t r ∧
        (t.cname = reply.cname ∧ t.crealm = reply.crealm) ∧
        (r.sname = reply.ticket.sname ∧ Sample.request.sname = some r.sname) ∧
        (r.srealm = reply.ticket.realm ∧ r.srealm = Sample.service.config.realm) ∧
        r.nonce = Sample.request.nonce ∧
        ∀ received n, Wire.requestReader.run Sample.message = some received →
          received.body.nonce = octetsOfWord n ∨ received.body.nonce = Integer.ofWord n →
          r.nonce = n := by
  have hrequest : AsRequest.read Sample.message = .ok Sample.request := by decide +kernel
  obtain ⟨reply, l', hrun⟩ := Exchange.exists_of_isOk
    (x := Sample.service.handle Sample.noon Sample.request) (l := Ledger.start {})
    (by decide +kernel)
  have hsight : ∀ call ∈ ((Sample.service.handle Sample.noon Sample.request).runOn
      (Ledger.start {})).2.calls, call.InSight := by decide +kernel
  rw [hrun] at hsight
  refine ⟨hrequest, reply, l', hrun, ?_⟩
  exact reply_parts_agree Cipher.envelope_faithful hrequest (by decide) (by decide) hrun hsight

end Service

end Kerberos
