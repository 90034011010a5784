import Kerberos.Proofs.Credential

/-! # One encryption type for a whole exchange

    An exchange settles on an encryption type before anything else, and hands it on to every
    stage on its way: the client's key, the service's key, the session key, the hint in the
    reply.  Provided that keys lie where they belong (`KeyRing.Placed`), that the cipher draws
    what it is asked for and labels what it encrypts, all of them end up with that type.

    The verifier of one-time passwords is not told of it.  What it derives is used as it is,
    so the reply is of the negotiated type only if the verifier happens to choose the same.
-/

namespace Kerberos

open Asn1

/-! ## Keys -/

/-- Every key lies in the place of its own encryption type. -/
def KeyRing.Placed (r : KeyRing) : Prop := ∀ etype key, r.get? etype = some key → key.etype = etype

theorem KeyRing.placed_empty : ({} : KeyRing).Placed := by
  intro etype key hkey
  cases etype <;> cases hkey

/-- Keys that are inserted one by one lie in their places. -/
theorem KeyRing.Placed.insert {r : KeyRing} (h : r.Placed) (key : EncryptionKey) :
    (r.insert key).Placed := by
  intro etype key' hkey'
  rw [get?_insert] at hkey'
  by_cases hetype : etype = key.etype
  · rw [if_pos hetype] at hkey'
    cases hkey'
    exact hetype.symm
  · rw [if_neg hetype] at hkey'
    exact h etype key' hkey'

/-- The cipher draws keys of the encryption type that it is asked for. -/
def Cipher.DrawsAsAsked (c : Cipher) : Prop :=
  ∀ drawn etype key, c.randomKey drawn etype = .ok key → key.etype = etype

theorem Cipher.envelope_drawsAsAsked : Cipher.envelope.DrawsAsAsked := by
  intro drawn etype key hkey
  cases hkey
  rfl

/-! ## Negotiation -/

theorem EncryptionType.eq_number_of_ofNumber? {n : UInt64} {etype : EncryptionType}
    (h : ofNumber? n = some etype) : n = etype.number := by
  unfold ofNumber? at h
  by_cases h18 : n = 18
  · rw [if_pos h18] at h
    cases h
    exact h18
  · rw [if_neg h18] at h
    by_cases h17 : n = 17
    · rw [if_pos h17] at h
      cases h
      exact h17
    · rw [if_neg h17] at h
      cases h

/-- What is negotiated is on the client's list, and the realm supports it. -/
theorem negotiateEtype_eq_ok {c : RealmConfig} {requested : List UInt64} {etype : EncryptionType}
    (h : negotiateEtype c requested = .ok etype) :
    etype.number ∈ requested ∧ c.supports etype = true := by
  unfold negotiateEtype at h
  cases hfirst : (requested.filterMap EncryptionType.ofNumber?).find? c.supports with
  | none =>
    rw [hfirst] at h
    cases h
  | some found =>
    rw [hfirst] at h
    cases h
    obtain ⟨n, hn, hnumber⟩ := List.mem_filterMap.mp (List.mem_of_find?_eq_some hfirst)
    rw [EncryptionType.eq_number_of_ofNumber? hnumber] at hn
    exact ⟨hn, List.find?_some hfirst⟩

/-! ## Hints -/

namespace Wire

/-- One entry of a hint: the number of the encryption type, the salt, and parameters. -/
def etypeEntryReader : Reader (Checked UInt64) := Reader.sequence do
  let etype ← Fields.field 0 buffer
  let _ ← Fields.trailing 1 stringReader
  let _ ← Fields.trailing 2 buffer
  return uint63 "etype" etype

/-- The numbers of the encryption types that a hint lists. -/
def etypeInfoReader : Reader (List (Checked UInt64)) := Reader.sequenceOf etypeEntryReader

/-- The octets of one entry of a hint, if the salt can be written. -/
def etypeEntryOctets (salt : Option String) (etype : EncryptionType) : Octets :=
  sequenceOf [explicit 0 (integer (Integer.ofInt64 etype.number.toInt64)),
    explicit? 1 (salt.map fun s => generalString (asciiOctets s))]

theorem etypeEntryReader_reads {salt : Option String} (hascii : ∀ s, salt = some s → IsAscii s)
    (etype : EncryptionType) :
    etypeEntryReader.Reads [] (etypeEntryOctets salt etype) (.ok etype.number) := by
  refine Reader.Reads.sequence ?_ []
  apply field_reads (buffer_field rfl 0 _)
  apply trailing_reads (fun s hs => stringReader_reads (by simp) (hascii s hs))
  -- No parameters are ever written.
  apply (Fields.Reads.trailing_nil buffer 2).finish
  rw [uint63_etype]

theorem etypeInfo_of_write {hint : PreAuthHint} {w : Octets} (h : hint.etypeInfo2 = .ok w) :
    (∀ s, hint.salt = some s → IsAscii s) ∧
      w = sequenceOf (hint.etypes.map (etypeEntryOctets hint.salt)) := by
  obtain ⟨_, hsalt, hw⟩ := except_bind_eq_ok_iff.mp h
  obtain ⟨hascii, rfl⟩ := mapM_string_eq_ok_iff.mp hsalt
  cases hw
  exact ⟨hascii, rfl⟩

end Wire

/-- A client reads from a hint the encryption types that the hint is for. -/
theorem PreAuthHint.reads_etypes {hint : PreAuthHint} {w : Octets}
    (h : hint.etypeInfo2 = .ok w) (hsight : w.length < sightLimit) :
    Wire.etypeInfoReader.run w = some (hint.etypes.map fun etype => .ok etype.number) := by
  obtain ⟨hascii, rfl⟩ := Wire.etypeInfo_of_write h
  have hentries : Wire.etypeInfoReader.Reads []
      (sequenceOf (hint.etypes.map (Wire.etypeEntryOctets hint.salt)))
      (hint.etypes.map fun etype => .ok etype.number) :=
    Reader.Reads.sequenceOf
      (fun etype _ => ⟨Wire.etypeEntryReader_reads hascii etype, element_ne_nil _ _⟩) []
  exact hentries.run hsight

/-! ## Replies -/

namespace Service

/-- Session key, ticket and hint are of the type that was negotiated: one that the client has
    listed and that the realm supports.  What is sealed for the client is of the type of the
    client's key, and that is the negotiated one too, unless a one-time password is verified
    to a key of another type. -/
theorem reply_etypes {s : Service}
    (hplaced : ∀ n realm e, s.directory n realm = .ok (some e) → e.keys.Placed)
    (hlabels : s.cipher.Labels) (hdraws : s.cipher.DrawsAsAsked) {clock : Instant}
    {request : AsRequest} {l l' : Ledger} {reply : AsReply}
    (hrun : (s.handle clock request).runOn l = (.ok reply, l')) :
    ∃ etype client clientKey info,
      negotiateEtype s.config request.etypes = .ok etype ∧ etype.number ∈ request.etypes ∧
      s.config.supports etype = true ∧
      reply.part.key.etype = etype ∧ reply.ticket.encPart.etype = etype.number ∧
      reply.padata = [⟨PaData.etypeInfo2, info⟩] ∧
      (info.length < sightLimit → Wire.etypeInfoReader.run info = some [.ok etype.number]) ∧
      s.directory reply.cname s.config.realm = .ok (some client) ∧
      s.ClientKey request client etype clientKey ∧
      reply.encPart.etype = clientKey.etype.number ∧
      ((∀ key, s.ShowsPassword request client key → key.etype = etype) →
        reply.encPart.etype = etype.number) := by
  obtain ⟨g, l₁, hg⟩ := handle_eq_ok hrun
  obtain ⟨hlisted, hsupported⟩ := negotiateEtype_eq_ok hg.reaches.negotiated
  obtain ⟨info, hpadata, hinfo⟩ := hg.padata
  have hsession : reply.part.key.etype = g.candidate.etype := by
    rw [hg.replyPart]
    exact hdraws _ _ _ hg.sessionKey
  have hticket : reply.ticket.encPart.etype = g.candidate.etype.number := by
    have hserver : g.serverKey.etype = g.candidate.etype := hplaced _ _ _ hg.found _ _ hg.serverKey
    rw [hlabels _ _ _ _ _ hg.ticketSealed, hserver]
  -- The reply has the type of the client's key, wherever that key comes from.
  have hreply := hlabels _ _ _ _ _ hg.replySealed
  have hclientKey := clientKey_of_verifyPreAuth hg.passes
  have hfound : s.directory reply.cname s.config.realm = .ok (some g.candidate.client) := by
    rw [hg.cname]
    exact hg.reaches.found
  refine ⟨g.candidate.etype, g.candidate.client, g.outcome.clientKey, info, hg.reaches.negotiated,
    hlisted, hsupported, hsession, hticket, hpadata, PreAuthHint.reads_etypes hinfo, hfound,
    hclientKey, hreply, ?_⟩
  intro hpasswords
  rw [hreply]
  -- A long-term key was chosen by its type; a password's key was not.
  cases hclientKey with
  | password hshows => rw [hpasswords _ hshows]
  | longTerm _ hkey => rw [hplaced _ _ _ hg.reaches.found _ _ hkey]

/-- The user of the small realm lists two types, of which the second is implemented, and all
    parts of the reply are of that one. -/
theorem reply_etypes_at_noon :
    ∃ reply l' info,
      (Sample.service.handle Sample.noon Sample.request).runOn (Ledger.start {}) =
        (.ok reply, l') ∧
      reply.part.key.etype = .aes256 ∧ reply.ticket.encPart.etype = 18 ∧
      reply.padata = [⟨PaData.etypeInfo2, info⟩] ∧ reply.encPart.etype = 18 := by
  obtain ⟨reply, l', hrun⟩ := Exchange.exists_of_isOk
    (x := Sample.service.handle Sample.noon Sample.request) (l := Ledger.start {})
    (by decide +kernel)
  have hplaced : ∀ n realm e, Sample.service.directory n realm = .ok (some e) →
      e.keys.Placed := by
    intro n realm e hfound
    have hmem := PrincipalTable.mem_of_find?_ofEntries (Except.ok.inj hfound)
    have hentry : e = Sample.user ∨ e = Sample.ticketService := by
      simpa [Sample.entries] using hmem
    rcases hentry with rfl | rfl
    · exact KeyRing.placed_empty.insert _
    · exact KeyRing.placed_empty.insert _
  have hotp : Sample.service.otp = none := rfl
  obtain ⟨etype, client, clientKey, info, hnegotiated, -, -, hsession, hticket, hpadata, -, -, -,
    -, hreply⟩ := reply_etypes hplaced Cipher.envelope_labels Cipher.envelope_drawsAsAsked hrun
  have hetype : etype = .aes256 := by
    cases hnegotiated
    rfl
  subst hetype
  refine ⟨reply, l', info, hrun, hsession, hticket, hpadata, hreply ?_⟩
  rintro key ⟨_, _, verifier, _, _, hverifier, _⟩
  rw [hotp] at hverifier
  cases hverifier

/-- The verifier answers with a key of another type than the one negotiated. -/
example :
    let user : DirectoryEntry := { Sample.user with otpMethod := some .securId }
    let table := PrincipalTable.ofEntries [user, Sample.ticketService]
    let service : Service :=
      { Sample.service with
        directory := table.directory, otp := some fun _ _ _ => some ⟨.aes128, ⟨[9]⟩⟩ }
    ((service.handle Sample.noon Sample.request).runOn (Ledger.start {})).1.toOption.map
      (fun reply => (reply.ticket.encPart.etype, reply.encPart.etype)) = some (18, 17) := by
  decide +kernel

end Service

end Kerberos
