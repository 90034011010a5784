import Kerberos.Proofs.AnswerReaders
import Kerberos.Proofs.Credential
import Kerberos.Proofs.FrontDoor

/-! # Names that come back

    An answer repeats the names of its request: in the clear in a reply and in its ticket, in
    both sealed parts, and in an error message.  A request may carry a name of any type, as a
    number; answers write the type as the octet that it is.  So a name comes back if its type
    is below 128, and if it is not then the message cannot be read (`readBack`).

    ## Contents

    * `name_reads_back`, `numberedName_reads_back`: names by themselves.
    * `Service.names_come_back`: the names of a request in every message that answers it.
-/

namespace Kerberos

open Asn1

namespace Wire

/-! ## Names by themselves -/

theorem name_reads_back {n : PrincipalName} (hascii : n.IsAscii)
    (hsight : (nameOctets n).length < sightLimit) :
    ∃ octets, name n = .ok octets ∧ nameReader.run octets = some (readBack n) :=
  ⟨nameOctets n, name_eq_ok_iff.mpr ⟨hascii, rfl⟩, (nameReader_reads_back hascii).run hsight⟩

example : (name ⟨200, ["pw13"]⟩).toOption.bind nameReader.run =
    some (.error (.invalidInteger "name-type")) := by decide +kernel

/-- The octets of a name whose type is written as a number. -/
def numberedNameOctets (n : PrincipalName) : Octets :=
  sequenceOf [explicit 0 (integer (Integer.ofWord n.kind.toUInt32)),
    explicit 1 (sequenceOf (n.components.map fun s => generalString (asciiOctets s)))]

theorem numberedName_eq_ok {n : PrincipalName} (hascii : n.IsAscii) :
    numberedName n = .ok (numberedNameOctets n) := by
  have hstrings : n.components.mapM (string "principal name") =
      .ok (n.components.map fun s => generalString (asciiOctets s)) :=
    (except_mapM_list_eq_ok_iff fun _ _ => string_eq_ok_iff).mpr ⟨hascii, rfl⟩
  unfold numberedName
  rw [hstrings]
  rfl

theorem uint8_ofWord (field : String) (n : UInt8) :
    uint8 field (Integer.ofWord n.toUInt32) = .ok n := by
  have hlt : n.toNat < 256 := n.toNat_lt
  have hword : n.toUInt32.toNat = n.toNat := UInt8.toNat_toUInt32 n
  refine (bounded_ofWord field (by omega)).trans ?_
  rw [hword, UInt8.ofNat_toNat]

/-- A name of any type is read, if the type is written as a number. -/
theorem nameReader_reads_numbered {tags : List UInt8} {n : PrincipalName} (hascii : n.IsAscii) :
    nameReader.Reads tags (wrap tags (numberedNameOctets n)) (.ok n) := by
  refine Reader.Reads.sequence ?_ tags
  refine field_reads (buffer_field rfl 0 _) (field_reads (componentsReader_reads hascii) ?_)
  refine .pure ?_ []
  rw [uint8_ofWord]
  rfl

theorem numberedName_reads_back {n : PrincipalName} (hascii : n.IsAscii)
    (hsight : (numberedNameOctets n).length < sightLimit) :
    ∃ octets, numberedName n = .ok octets ∧ nameReader.run octets = some (.ok n) :=
  ⟨numberedNameOctets n, numberedName_eq_ok hascii,
    (nameReader_reads_numbered hascii).run hsight⟩

end Wire

/-! ## The names of a request -/

namespace Service

theorem Granting.Explains.reads_reply {g : Granting} {s : Service} {now : Instant}
    {request : AsRequest} {l l₁ l' : Ledger} {reply : AsReply}
    (h : g.Explains s now request l l₁ reply l') (hlabels : s.cipher.Labels) {octets : Octets}
    (hwritten : reply.write = .ok octets) (hsight : octets.length < sightLimit) :
    Wire.replyReader.run octets = some (do
      let cname ← Wire.readBack g.candidate.cname
      let sname ← Wire.readBack g.sname
      return ⟨s.config.realm, cname, { reply.ticket with sname }, reply.encPart⟩) := by
  have hticket := hlabels _ _ _ _ _ h.ticketSealed
  have hreply := hlabels _ _ _ _ _ h.replySealed
  rw [Wire.reply_read_back hwritten hsight, Wire.replyReadBack, Wire.dataReadBack_of_etype hticket,
    Wire.dataReadBack_of_etype hreply, h.cname, h.ticketSname, h.crealm]
  rfl

/-- An error message names the client and the service of the request, with the code of the
    refusal and the time at the door. -/
theorem reads_refusal {s : Service} {clock : Instant} {request : AsRequest} {refusal : Refusal}
    {octets : Octets} (hwritten : s.writeRefusal clock.wholeSecond (some request) refusal = .ok octets)
    (hsight : octets.length < sightLimit) :
    ∃ text data, Wire.errorReader.run octets = some (do
      let cname ← request.cname.mapM Wire.readBack
      let sname ← Wire.readBack (request.sname.getD (.krbtgt s.config.realm))
      return ⟨refusal.code, clock.wholeSecond, request.cname.map fun _ => s.config.realm, cname,
        s.config.realm, sname, text, data⟩) := by
  obtain ⟨error, herror, hwrite⟩ := except_bind_eq_ok_iff.mp hwritten
  obtain ⟨data, rfl⟩ := Refusal.eq_of_krbError (Wire.liftM_eq_ok_iff.mp herror)
  refine ⟨(some refusal.eText).filter fun s => IsAscii s, data, ?_⟩
  -- The time is a whole second already, so nothing of it is lost on the way.
  rw [Wire.error_read_back hwrite hsight, Wire.errorReadBack, Instant.wholeSecond_wholeSecond]
  rfl

/-- Every name is written, and it comes back if its type is below 128, while a client can have
    names of all types read.  A reply repeats the names of the request, in the clear and in
    both sealed parts, and an error message repeats them too: they come back if they do by
    themselves. -/
theorem names_come_back (s : Service) (hcipher : s.cipher.Faithful) (hlabels : s.cipher.Labels) :
    (∀ n : PrincipalName, n.IsAscii →
      ((Wire.nameOctets n).length < sightLimit →
        ∃ octets, Wire.name n = .ok octets ∧
          Wire.nameReader.run octets =
            some (if n.kind < 128 then .ok n else .error (.invalidInteger "name-type"))) ∧
      ((Wire.numberedNameOctets n).length < sightLimit →
        ∃ octets, Wire.numberedName n = .ok octets ∧ Wire.nameReader.run octets = some (.ok n))) ∧
    ∀ {clock : Readings} {message : Octets} {request : AsRequest} {l l' : Ledger}
      {octets : Octets}, AsRequest.read message = .ok request →
      (s.answer clock message).run l = (.ok octets, l') → octets.length < sightLimit →
      (∃ cname sname reply, request.cname = some cname ∧ request.sname = some sname ∧
        ((s.handle clock.handled request).runOn l).1 = .ok reply ∧
        Wire.replyReader.run octets = some (do
          let cname ← Wire.readBack cname
          let sname ← Wire.readBack sname
          return ⟨s.config.realm, cname, { reply.ticket with sname }, reply.encPart⟩) ∧
        (cname.kind < 128 → sname.kind < 128 → (∀ call ∈ l'.calls, call.InSight) →
          ∃ t r, s.Opens request reply t r ∧ t.cname = cname ∧ r.sname = sname)) ∨
      (∃ refusal text data,
        ((s.handle clock.handled request).runOn l).1 = .error (.refused refusal) ∧
        Wire.errorReader.run octets = some (do
          let cname ← request.cname.mapM Wire.readBack
          let sname ← Wire.readBack (request.sname.getD (.krbtgt s.config.realm))
          return ⟨refusal.code, clock.received.wholeSecond,
            request.cname.map fun _ => s.config.realm, cname, s.config.realm, sname, text,
            data⟩)) := by
  refine ⟨?_, ?_⟩
  · intro n hascii
    exact ⟨Wire.name_reads_back hascii, Wire.numberedName_reads_back hascii⟩
  · intro clock message request l l' octets hread hanswer hsight
    rw [answer_of_readable s clock hread, Prod.mk.injEq] at hanswer
    obtain ⟨hresponse, rfl⟩ := hanswer
    rcases hrun : (s.handle clock.handled request).runOn l with ⟨failure | reply, l'⟩
    · -- Only a refusal is answered: an exchange that was abandoned has no octets.
      rw [hrun] at hresponse
      cases failure with
      | abandoned => cases hresponse
      | refused refusal =>
        obtain ⟨text, data, hreads⟩ := reads_refusal hresponse hsight
        exact .inr ⟨refusal, text, data, rfl, hreads⟩
    · rw [hrun] at hresponse
      obtain ⟨g, l₁, hg⟩ := handle_eq_ok hrun
      have hwritten : reply.write = .ok octets := mapError_eq_ok_iff.mp hresponse
      refine .inl ⟨g.candidate.cname, g.sname, reply, hg.reaches.named, hg.named, rfl,
        hg.reads_reply hlabels hwritten hsight, ?_⟩
      intro hcname hsname hcalls
      -- The name of the service is the same in the ticket and in the part for the client.
      refine ⟨_, _, hg.opens hcipher hcname hsname hcalls, rfl, ?_⟩
      show reply.part.sname = g.sname
      rw [hg.replyPart]
      exact hg.ticketSname

/-- In the small realm the user finds both names in the answer, and so do the two that open
    the sealed parts. -/
theorem names_come_back_at_noon :
    ∃ octets l' reply t r,
      (Sample.service.answer Sample.noon Sample.message).run (Ledger.start {}) =
        (.ok octets, l') ∧
      Wire.replyReader.run octets = some (.ok ⟨"EXAMPLE.COM", .principal "PW13",
        { reply.ticket with sname := .krbtgt "EXAMPLE.COM" }, reply.encPart⟩) ∧
      Sample.service.Opens Sample.request reply t r ∧ t.cname = .principal "PW13" ∧
      r.sname = .krbtgt "EXAMPLE.COM" := by
  have hread : AsRequest.read Sample.message = .ok Sample.request := by decide +kernel
  have hgranted : ((Sample.service.handle Sample.noon Sample.request).runOn
      (Ledger.start {})).1.isOk = true := by decide +kernel
  have hsight : ((Sample.service.answer Sample.noon Sample.message).run
      (Ledger.start {})).1.toOption.any (·.length < sightLimit) = true := by decide +kernel
  have hcalls : ∀ call ∈ ((Sample.service.answer Sample.noon Sample.message).run
      (Ledger.start {})).2.calls, call.InSight := by decide +kernel
  rcases hanswer : (Sample.service.answer Sample.noon Sample.message).run (Ledger.start {}) with
    ⟨failure | octets, l'⟩
  · rw [hanswer] at hsight
    cases hsight
  · rw [hanswer] at hsight hcalls
    have hshort : octets.length < sightLimit := of_decide_eq_true hsight
    have hback := (names_come_back Sample.service Cipher.envelope_faithful
      Cipher.envelope_labels).2 hread hanswer hshort
    rcases hback with ⟨cname, sname, reply, hcname, hsname, -, hreads, hopens⟩ |
      ⟨refusal, -, -, hrefused, -⟩
    · cases hcname
      cases hsname
      obtain ⟨t, r, hopens, ht, hr⟩ := hopens (by decide) (by decide) hcalls
      exact ⟨octets, l', reply, t, r, rfl, hreads, hopens, ht, hr⟩
    · rw [hrefused] at hgranted
      cases hgranted

end Service

end Kerberos
