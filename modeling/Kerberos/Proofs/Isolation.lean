import Kerberos.Proofs.Credential
import Kerberos.Proofs.LookupKey

/-! # Realms are kept apart

    A directory may hold entries of many realms, and a service asks it for names of its own
    realm only.  For a plain name that is enough: what the directory returns is an entry of
    that realm (`DirectoryEntry.BelongsTo`), so a principal of another realm neither gets a
    reply nor has a ticket sealed under its key.

    An enterprise name holds its realm itself, and nothing after the look-up compares the two.
    So an enterprise name gets the entry of the realm that it holds, and the credential still
    says that the client is of the realm of the service.
-/

namespace Kerberos

/-! ## Entries and the names they are found by -/

/-- How the realm of an entry follows from the name that it is found by, when names of `realm`
    are looked up. -/
structure DirectoryEntry.BelongsTo (e : DirectoryEntry) (n : PrincipalName) (realm : String) :
    Prop where
  /-- A plain name is one of the realm. -/
  plain : n.isEnterprise = false → sameIgnoringCase e.realm realm = true
  /-- An enterprise name is one of the realm that it holds. -/
  enterprise : ∀ user home, n = ⟨PrincipalName.enterpriseKind, [user ++ "@" ++ home]⟩ →
    '@' ∉ user.toList → '\\' ∉ home.toList → '/' ∉ home.toList →
    sameIgnoringCase e.realm home = true

/-- Entries under plain names belong to the realm of whatever name they are found by. -/
theorem PrincipalTable.Keyed.belongsTo {t : PrincipalTable} (h : t.Keyed) {n : PrincipalName}
    {realm : String} {e : DirectoryEntry} (hfound : t.find? n realm = some e)
    (he : e.principal.isEnterprise = false) : e.BelongsTo n realm where
  plain := by
    intro hn
    exact sameIgnoringCase_of_lookupKey_eq he hn (h n realm e hfound).symm
  enterprise := by
    intro user home hn huser hbackslash hslash
    have hkey := h n realm e hfound
    rw [hn] at hkey
    exact sameIgnoringCase_of_lookupKey_enterprise_eq huser hbackslash hslash he hkey

namespace Service

/-! ## The two entries behind a reply -/

/-- `client` is the entry of the client: it was found by the name in the request, and the
    reply is sealed under its key. -/
structure RepliesTo (s : Service) (request : AsRequest) (reply : AsReply)
    (cname : PrincipalName) (client : DirectoryEntry) : Prop where
  named : request.cname = some cname
  found : s.directory cname s.config.realm = .ok (some client)
  replySealed : ∃ etype key earlier text, s.ClientKey request client etype key ∧
    s.cipher.encrypt earlier key KeyUsage.asReply text = .ok reply.encPart

/-- `server` is the entry of the service: it was found by the name in the request, and the
    ticket is sealed under its key. -/
structure TicketsFor (s : Service) (request : AsRequest) (reply : AsReply)
    (sname : PrincipalName) (server : DirectoryEntry) : Prop where
  named : request.sname = some sname
  found : s.directory sname s.config.realm = .ok (some server)
  ticketSealed : ∃ etype key earlier text, ∃ part : EncTicketPart,
    server.keys.get? etype = some key ∧ part.crealm = s.config.realm ∧
    part.cname = reply.cname ∧ part.write = .ok text ∧
    s.cipher.encrypt earlier key KeyUsage.ticket text = .ok reply.ticket.encPart

theorem Granting.Explains.repliesTo {g : Granting} {s : Service} {now : Instant}
    {request : AsRequest} {l l₁ l' : Ledger} {reply : AsReply}
    (h : g.Explains s now request l l₁ reply l') :
    s.RepliesTo request reply g.candidate.cname g.candidate.client where
  named := h.reaches.named
  found := h.reaches.found
  replySealed := ⟨_, _, _, _, clientKey_of_verifyPreAuth h.passes, h.replySealed⟩

theorem Granting.Explains.ticketsFor {g : Granting} {s : Service} {now : Instant}
    {request : AsRequest} {l l₁ l' : Ledger} {reply : AsReply}
    (h : g.Explains s now request l l₁ reply l') :
    s.TicketsFor request reply g.sname g.server where
  named := h.named
  found := h.found
  ticketSealed :=
    ⟨_, _, _, _, _, h.serverKey, rfl, h.cname.symm, h.ticketWritten, h.ticketSealed⟩

/-- A credential says of its client and of its service that they are of the realm, and so they
    are, unless one of the names is an enterprise name: that one is of the realm it holds. -/
theorem reply_of_realm {s : Service} {entries : List DirectoryEntry}
    (hdirectory : s.directory = (PrincipalTable.ofEntries entries).directory) {clock : Instant}
    {request : AsRequest} {l l' : Ledger} {reply : AsReply}
    (hrun : (s.handle clock request).runOn l = (.ok reply, l')) :
    reply.crealm = s.config.realm ∧ reply.ticket.realm = s.config.realm ∧
    ∃ cname client sname server,
      s.RepliesTo request reply cname client ∧ client ∈ entries ∧
      (client.principal.isEnterprise = false → client.BelongsTo cname s.config.realm) ∧
      s.TicketsFor request reply sname server ∧ server ∈ entries ∧
      (server.principal.isEnterprise = false → server.BelongsTo sname s.config.realm) := by
  obtain ⟨g, l₁, hg⟩ := handle_eq_ok hrun
  -- What the directory of the service returns was found in the table.
  have hlookup : ∀ n e, s.directory n s.config.realm = .ok (some e) →
      (PrincipalTable.ofEntries entries).find? n s.config.realm = some e := by
    intro n e hfound
    rw [hdirectory] at hfound
    exact Except.ok.inj hfound
  have hclient := hlookup _ _ hg.reaches.found
  have hserver := hlookup _ _ hg.found
  have hkeyed := PrincipalTable.keyed_ofEntries entries
  exact ⟨hg.crealm, hg.ticketRealm, g.candidate.cname, g.candidate.client, g.sname, g.server,
    hg.repliesTo, PrincipalTable.mem_of_find?_ofEntries hclient, hkeyed.belongsTo hclient,
    hg.ticketsFor, PrincipalTable.mem_of_find?_ofEntries hserver, hkeyed.belongsTo hserver⟩

/-- The user and the ticket service of the small realm are both of the realm. -/
theorem reply_of_realm_at_noon :
    ∃ reply l',
      (Sample.service.handle Sample.noon Sample.request).runOn (Ledger.start {}) =
        (.ok reply, l') ∧
      ∃ cname client sname server,
        Sample.service.RepliesTo Sample.request reply cname client ∧
        Sample.service.TicketsFor Sample.request reply sname server ∧
        sameIgnoringCase client.realm "EXAMPLE.COM" = true ∧
        sameIgnoringCase server.realm "EXAMPLE.COM" = true := by
  obtain ⟨reply, l', hrun⟩ := Exchange.exists_of_isOk
    (x := Sample.service.handle Sample.noon Sample.request) (l := Ledger.start {})
    (by decide +kernel)
  have hplain : ∀ e ∈ Sample.entries, e.principal.isEnterprise = false := by decide
  have hdirectory : Sample.service.directory =
      (PrincipalTable.ofEntries Sample.entries).directory := rfl
  obtain ⟨-, -, cname, client, sname, server, hreplies, hclient, hhome, htickets, hserver,
    hhome'⟩ := reply_of_realm hdirectory hrun
  have hcname : cname.isEnterprise = false := by
    cases hreplies.named
    rfl
  have hsname : sname.isEnterprise = false := by
    cases htickets.named
    rfl
  exact ⟨reply, l', hrun, cname, client, sname, server, hreplies, htickets,
    (hhome (hplain client hclient)).plain hcname, (hhome' (hplain server hserver)).plain hsname⟩

/-- A user of another realm asks under its enterprise name, and is taken for one of this realm. -/
example :
    let stranger : DirectoryEntry := { Sample.user with realm := "OTHER.COM" }
    let table := PrincipalTable.ofEntries [stranger, Sample.ticketService]
    let service : Service := { Sample.service with directory := table.directory }
    let request : AsRequest :=
      { Sample.request with cname := some ⟨PrincipalName.enterpriseKind, ["pw13@OTHER.COM"]⟩ }
    ((service.handle Sample.noon request).runOn (Ledger.start {})).1.toOption.map (·.crealm) =
      some "EXAMPLE.COM" := by decide +kernel

end Service

end Kerberos
