import Kerberos.Proofs.PreAuth

/-! # What a reply stands for

    A reply is the last of a series of decisions.  `Service.Granting` records them, and
    `Service.Granting.Explains` says how they follow from the request, the ledger and the
    collaborators, stage by stage.  Every reply has such a record (`handle_eq_ok`), so what
    a reply promises is read off the record, without a look at the stages.
-/

namespace Kerberos

/-! ## Flags and decisions -/

/-- The flags that the initial exchange knows. -/
def TicketFlags.issuable : TicketFlags :=
  initial ||| preAuthent ||| forwardable ||| proxiable ||| mayPostdate ||| postdated ||| invalid
    ||| renewable

/-- The flags show what was decided and nothing else. -/
structure Grants.ShownBy (g : Grants) (flags : TicketFlags) : Prop where
  initial : flags.contains .initial = true
  preAuthent : flags.contains .preAuthent = g.preAuthenticated
  forwardable : flags.contains .forwardable = g.forwardable
  proxiable : flags.contains .proxiable = g.proxiable
  mayPostdate : flags.contains .mayPostdate = g.mayPostdate
  postdated : flags.contains .postdated = g.postdated
  invalid : flags.contains .invalid = g.postdated
  renewable : flags.contains .renewable = g.renewable
  others : TicketFlags.issuable.contains flags = true

theorem Grants.shownBy_flags (g : Grants) : g.ShownBy g.flags := by
  obtain ⟨proved, forwardable, proxiable, mayPostdate, postdated, renewable⟩ := g
  cases proved <;> cases forwardable <;> cases proxiable <;> cases mayPostdate <;>
    cases postdated <;> cases renewable <;> constructor <;> rfl

/-- The flags that later decisions look at say what was decided. -/
theorem Grants.contains_flags (g : Grants) :
    g.flags.contains .preAuthent = g.preAuthenticated ∧
      g.flags.contains .renewable = g.renewable :=
  ⟨g.shownBy_flags.preAuthent, g.shownBy_flags.renewable⟩

namespace Service

open Exchange

/-! ## Tickets -/

/-- The plaintext of a ticket, from what was decided about it. -/
def ticketPart (s : Service) (request : RequestBody) (now : Instant) (cname : PrincipalName)
    (validity : Validity) (caddr : Option (List HostAddress)) (sessionKey : EncryptionKey)
    (preAuthenticated : Bool) : EncTicketPart :=
  { flags := grantedFlags request.options validity preAuthenticated
    key := sessionKey, crealm := s.config.realm, cname, transited := .empty, authTime := now
    startTime := some validity.startTime, endTime := validity.endTime
    renewTill := validity.renewTill, caddr }

theorem issueTicket_eq_ok {s : Service} {request : RequestBody} {now : Instant}
    {etype : EncryptionType} {cname sname : PrincipalName} {server : DirectoryEntry}
    {preAuthenticated : Bool} {issued : IssuedTicket} {l l' : Ledger}
    (h : (s.issueTicket request now etype cname sname server preAuthenticated).runOn l =
      (.ok issued, l')) :
    request.options.intersects .tgsOnly = false ∧
    ∃ validity caddr serverKey sessionKey plaintext,
      Validity.choose s.config request now = .ok validity ∧
      clientAddresses s.config request = .ok caddr ∧
      server.keys.get? etype = some serverKey ∧
      s.cipher.randomKey (l.calls.countP Call.isRandomKey) etype = .ok sessionKey ∧
      issued.part =
        s.ticketPart request now cname validity caddr sessionKey preAuthenticated ∧
      issued.part.write = .ok plaintext ∧
      s.cipher.encrypt (l.calls.countP Call.isEncrypt) serverKey KeyUsage.ticket plaintext =
        .ok issued.ticket.encPart ∧
      issued.ticket.realm = s.config.realm ∧ issued.ticket.sname = sname ∧
      l' = (l.noting (.randomKey etype)).noting (.encrypt serverKey KeyUsage.ticket plaintext) := by
  unfold issueTicket at h
  cases htgs : request.options.intersects .tgsOnly with
  | true =>
    simp only [htgs, ↓reduceIte] at h
    rw [runOn_bind_of_error (runOn_refuse _ _)] at h
    cases h
  | false =>
    refine ⟨rfl, ?_⟩
    simp only [htgs, Bool.false_eq_true, ↓reduceIte] at h
    -- Neither of the two decisions touches the ledger.
    obtain ⟨validity, l₁, hvalidity, h⟩ := runOn_bind_eq_ok_iff.mp h
    obtain ⟨caddr, l₂, hcaddr, h⟩ := runOn_bind_eq_ok_iff.mp h
    rw [runOn_liftM, Prod.mk.injEq, mapError_eq_ok_iff] at hvalidity hcaddr
    obtain ⟨hvalidity, rfl⟩ := hvalidity
    obtain ⟨hcaddr, rfl⟩ := hcaddr
    cases hserverKey : server.keys.get? etype with
    | none => simp [hserverKey] at h
    | some serverKey =>
      simp only [hserverKey] at h
      obtain ⟨sessionKey, l₃, hdraw, h⟩ := runOn_bind_eq_ok_iff.mp h
      obtain ⟨hsessionKey, rfl⟩ := runOn_drawKey_eq_ok hdraw
      obtain ⟨encPart, l₄, hencPart, h⟩ := runOn_bind_eq_ok_iff.mp h
      obtain ⟨plaintext, hwritten, hsealed, rfl⟩ := runOn_encrypt_eq_ok hencPart
      cases h
      -- Drawing the session key has not changed how many plaintexts were encrypted.
      have hcount : (l.noting (.randomKey etype)).calls.countP Call.isEncrypt =
          l.calls.countP Call.isEncrypt := by
        simp [Call.isEncrypt]
      rw [hcount] at hsealed
      exact ⟨validity, caddr, serverKey, sessionKey, plaintext, hvalidity, hcaddr, rfl,
        hsessionKey, rfl, hwritten, hsealed, rfl, rfl, rfl⟩

/-! ## Replies -/

theorem buildReply_eq_ok {cipher : Cipher} {request : RequestBody} {issued : IssuedTicket}
    {crealm : String} {cname : PrincipalName} {client : DirectoryEntry}
    {clientKey : EncryptionKey} {etype : EncryptionType} {reply : AsReply} {l l' : Ledger}
    (h : (buildReply cipher request issued crealm cname client clientKey etype).runOn l =
      (.ok reply, l')) :
    ∃ plaintext info,
      reply.part.write = .ok plaintext ∧
      cipher.encrypt (l.calls.countP Call.isEncrypt) clientKey KeyUsage.asReply plaintext =
        .ok reply.encPart ∧
      ({ etypes := [etype], salt := client.salt } : PreAuthHint).etypeInfo2 = .ok info ∧
      reply.padata = [⟨PaData.etypeInfo2, info⟩] ∧ reply.crealm = crealm ∧ reply.cname = cname ∧
      reply.ticket = issued.ticket ∧
      reply.part = EncAsRepPart.ofTicket request issued client ∧
      l' = l.noting (.encrypt clientKey KeyUsage.asReply plaintext) := by
  unfold buildReply at h
  obtain ⟨encPart, l₁, hencPart, h⟩ := runOn_bind_eq_ok_iff.mp h
  obtain ⟨plaintext, hwritten, hsealed, rfl⟩ := runOn_encrypt_eq_ok hencPart
  cases hinfo : ({ etypes := [etype], salt := client.salt } : PreAuthHint).etypeInfo2 with
  | error cause => simp [hinfo] at h
  | ok info =>
    simp only [hinfo] at h
    cases h
    exact ⟨plaintext, info, hwritten, hsealed, rfl, rfl, rfl, rfl, rfl, rfl, rfl⟩

/-! ## Whole exchanges -/

/-- What an exchange that ends in a reply has decided. -/
structure Granting where
  candidate : Candidate
  outcome : PreAuthOutcome
  sname : PrincipalName
  server : DirectoryEntry
  serverKey : EncryptionKey
  sessionKey : EncryptionKey
  validity : Validity
  caddr : Option (List HostAddress)
  /-- The octets that are sealed in the ticket. -/
  ticketText : Octets
  /-- The octets that are sealed for the client. -/
  replyText : Octets

namespace Granting

/-- The plaintext of the ticket. -/
def part (g : Granting) (s : Service) (request : AsRequest) (now : Instant) : EncTicketPart :=
  s.ticketPart request.toRequestBody now g.candidate.cname g.validity g.caddr g.sessionKey
    g.outcome.preAuthenticated

/-- The calls that follow on the proof of identity. -/
def laterCalls (g : Granting) : List Call := [
  .lookup .server g.sname, .randomKey g.candidate.etype,
  .encrypt g.serverKey KeyUsage.ticket g.ticketText,
  .encrypt g.outcome.clientKey KeyUsage.asReply g.replyText]

/-- The decisions of `g` lead from `request` and the ledger `l` to `reply` and the ledger
    `l'`.  The proof of identity leaves the ledger `l₁` behind. -/
structure Explains (g : Granting) (s : Service) (now : Instant) (request : AsRequest)
    (l l₁ : Ledger) (reply : AsReply) (l' : Ledger) : Prop where
  reaches : s.Reaches request now g.candidate
  passes : (s.verifyPreAuth request g.candidate.client g.candidate.etype now).runOn
    (l.noting (.lookup .client g.candidate.cname)) = (.ok g.outcome, l₁)
  named : request.sname = some g.sname
  found : s.directory g.sname s.config.realm = .ok (some g.server)
  ticketOptions : request.options.intersects .tgsOnly = false
  validity : Validity.choose s.config request.toRequestBody now = .ok g.validity
  addresses : clientAddresses s.config request.toRequestBody = .ok g.caddr
  serverKey : g.server.keys.get? g.candidate.etype = some g.serverKey
  sessionKey : s.cipher.randomKey (l₁.calls.countP Call.isRandomKey) g.candidate.etype =
    .ok g.sessionKey
  ticketWritten : (g.part s request now).write = .ok g.ticketText
  ticketSealed : s.cipher.encrypt (l₁.calls.countP Call.isEncrypt) g.serverKey KeyUsage.ticket
    g.ticketText = .ok reply.ticket.encPart
  ticketRealm : reply.ticket.realm = s.config.realm
  ticketSname : reply.ticket.sname = g.sname
  crealm : reply.crealm = s.config.realm
  cname : reply.cname = g.candidate.cname
  replyPart : reply.part = EncAsRepPart.ofTicket request.toRequestBody
    ⟨reply.ticket, g.part s request now⟩ g.candidate.client
  replyWritten : reply.part.write = .ok g.replyText
  replySealed : s.cipher.encrypt (l₁.calls.countP Call.isEncrypt + 1) g.outcome.clientKey
    KeyUsage.asReply g.replyText = .ok reply.encPart
  padata : ∃ info, reply.padata = [⟨PaData.etypeInfo2, info⟩] ∧
    ({ etypes := [g.candidate.etype], salt := g.candidate.client.salt } :
      PreAuthHint).etypeInfo2 = .ok info
  cache_eq : l'.cache = l₁.cache
  calls_eq : l'.calls = l₁.calls ++ g.laterCalls

end Granting

/-- What is admitted has reached the proof and passed it, with one look-up before. -/
theorem admitRequest_eq_ok {s : Service} {request : AsRequest} {now : Instant} {a : Admitted}
    {l l' : Ledger} (h : (s.admitRequest request now).runOn l = (.ok a, l')) :
    s.Reaches request now a.toCandidate ∧
      (s.verifyPreAuth request a.client a.etype now).runOn
        (l.noting (.lookup .client a.cname)) = (.ok a.outcome, l') := by
  unfold admitRequest at h
  obtain ⟨c, l₁, hidentify, h⟩ := runOn_bind_eq_ok_iff.mp h
  have hreaches := identify_eq_ok hidentify
  rw [identify_of_reaches hreaches] at hidentify
  cases hidentify
  obtain ⟨outcome, l₂, hpasses, h⟩ := runOn_bind_eq_ok_iff.mp h
  cases h
  exact ⟨hreaches, hpasses⟩

/-- Every reply follows from a series of decisions. -/
theorem handle_eq_ok {s : Service} {clock : Instant} {request : AsRequest} {l l' : Ledger}
    {reply : AsReply} (h : (s.handle clock request).runOn l = (.ok reply, l')) :
    ∃ g l₁, Granting.Explains g s clock.wholeSecond request l l₁ reply l' := by
  unfold handle at h
  obtain ⟨⟨c, outcome⟩, l₁, hadmitted, h⟩ := runOn_bind_eq_ok_iff.mp h
  obtain ⟨hreaches, hpasses⟩ := admitRequest_eq_ok hadmitted
  unfold grant at h
  cases hsname : request.sname with
  | none => simp [hsname] at h
  | some sname =>
    simp only [hsname] at h
    obtain ⟨server, l₃, hserver, h⟩ := runOn_bind_eq_ok_iff.mp h
    obtain ⟨hfound, -, rfl⟩ := find_eq_ok hserver
    obtain ⟨issued, l₄, hissued, h⟩ := runOn_bind_eq_ok_iff.mp h
    obtain ⟨htgs, validity, caddr, serverKey, sessionKey, ticketText, hvalidity, hcaddr,
      hserverKey, hsessionKey, hpart, hwritten, hsealed, hrealm, hticketSname, rfl⟩ :=
      issueTicket_eq_ok hissued
    obtain ⟨replyText, info, hreplyWritten, hreplySealed, hinfo, hpadata, hcrealm, hcname,
      hticket, hreplyPart, rfl⟩ := buildReply_eq_ok h
    refine ⟨⟨c, outcome, sname, server, serverKey, sessionKey, validity, caddr, ticketText,
      replyText⟩, l₁, ?_⟩
    obtain ⟨ticket, part⟩ := issued
    simp only at hpart hticket hwritten hsealed hrealm hticketSname
    subst hpart hticket
    exact {
      reaches := hreaches
      passes := hpasses
      named := hsname
      found := hfound
      ticketOptions := htgs
      validity := hvalidity
      addresses := hcaddr
      serverKey := hserverKey
      sessionKey := by simpa [Call.isRandomKey] using hsessionKey
      ticketWritten := hwritten
      ticketSealed := by simpa [Call.isEncrypt] using hsealed
      ticketRealm := hrealm
      ticketSname := hticketSname
      crealm := hcrealm
      cname := hcname
      replyPart := hreplyPart
      replyWritten := hreplyWritten
      replySealed := by simpa [Call.isEncrypt] using hreplySealed
      padata := ⟨info, hpadata, hinfo⟩
      cache_eq := rfl
      calls_eq := by simp [Granting.laterCalls] }

end Service

end Kerberos
