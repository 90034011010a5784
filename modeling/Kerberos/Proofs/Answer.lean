import Kerberos.Proofs.Abandonment
import Kerberos.Proofs.AnswerReaders
import Kerberos.Proofs.Envelope
import Kerberos.Proofs.FrontDoor
import Kerberos.Proofs.Issue

/-! # Every message is answered

    Whatever octets come in, octets go out, and a client reads them as a reply or as an error
    message.  The names and times that a client chooses can be written because they could be
    read, and the rest of an answer is the realm's own: its name, its salts, its clock and its
    accounts.  `Service.Presentable` says what is asked of these.  An error message tells why
    there is no reply (`Service.Reports`): the octets hold no request, or the request was
    refused.
-/

namespace Kerberos

open Asn1

/-! ## Writing answers -/

theorem exists_mapM_eq_ok {ε α β : Type} {f : α → Except ε β} {o : Option α}
    (h : ∀ a, o = some a → ∃ b, f a = .ok b) : ∃ b, o.mapM f = .ok b := by
  cases o with
  | none => exact ⟨none, rfl⟩
  | some a =>
    obtain ⟨b, hb⟩ := h a rfl
    rw [Option.mapM_some, hb]
    exact ⟨some b, rfl⟩

theorem exists_string_eq_ok {field s : String} (h : IsAscii s) :
    ∃ w, Wire.string field s = .ok w := ⟨_, Wire.string_eq_ok_iff.mpr ⟨h, rfl⟩⟩

theorem exists_name_eq_ok {n : PrincipalName} (h : n.IsAscii) : ∃ w, Wire.name n = .ok w :=
  ⟨_, Wire.name_eq_ok_iff.mpr ⟨h, rfl⟩⟩

theorem PreAuthHint.exists_etypeInfo2 {hint : PreAuthHint}
    (hsalt : ∀ salt, hint.salt = some salt → IsAscii salt) : ∃ w, hint.etypeInfo2 = .ok w := by
  obtain ⟨salt, h⟩ := exists_mapM_eq_ok fun salt h => exists_string_eq_ok (hsalt salt h)
  unfold etypeInfo2
  rw [h]
  exact ⟨_, rfl⟩

theorem KrbError.Writable.exists_write {e : KrbError} (h : e.Writable) :
    ∃ octets, e.write = .ok octets := by
  obtain ⟨crealm, hcrealm⟩ := exists_mapM_eq_ok (f := Wire.realm) (o := e.crealm)
    fun s hs => exists_string_eq_ok (h.crealm s hs)
  obtain ⟨cname, hcname⟩ := exists_mapM_eq_ok (f := Wire.name) (o := e.cname)
    fun n hn => exists_name_eq_ok (h.cname n hn)
  obtain ⟨realm, hrealm⟩ : ∃ w, Wire.realm e.realm = .ok w := exists_string_eq_ok h.realm
  obtain ⟨sname, hsname⟩ := exists_name_eq_ok h.sname
  unfold KrbError.write
  rw [Wire.time_of_expressible h.time, hcrealm, hcname, hrealm, hsname]
  exact ⟨_, rfl⟩

theorem KrbError.writable_unreadable {realm : String} {now : Instant} (hrealm : IsAscii realm)
    (hnow : now.Expressible) : (KrbError.unreadable realm now).Writable where
  time := hnow
  crealm := fun _ hs => nomatch hs
  cname := fun _ hn => nomatch hn
  realm := hrealm
  sname := PrincipalName.isAscii_krbtgt hrealm

/-- A refusal can be reported, if its hint can be written. -/
theorem Refusal.exists_krbError {r : Refusal} {request : Option AsRequest} {realm : String}
    {now : Instant} (hrealm : IsAscii realm) (hnow : now.Expressible)
    (hrequest : ∀ q, request = some q → q.toRequestBody.Writable)
    (hhint : ∀ hint, r = .preAuthRequired hint → ∀ salt, hint.salt = some salt → IsAscii salt) :
    ∃ error, r.krbError request realm now = .ok error ∧ error.Writable := by
  have hwritable : ∀ data, KrbError.Writable {
      code := r.code, time := now, crealm := (request.bind (·.cname)).map fun _ => realm
      cname := request.bind (·.cname), realm
      sname := (request.bind (·.sname)).getD (.krbtgt realm), text := some r.eText, data } := by
    intro data
    constructor
    · exact hnow
    · intro s hs
      obtain ⟨-, -, rfl⟩ := Option.map_eq_some_iff.mp hs
      exact hrealm
    · intro n hn
      obtain ⟨q, hq, hn⟩ := Option.bind_eq_some_iff.mp hn
      exact (hrequest q hq).cname n hn
    · exact hrealm
    · show ((request.bind (·.sname)).getD (.krbtgt realm)).IsAscii
      cases hsname : request.bind (·.sname) with
      | none => exact PrincipalName.isAscii_krbtgt hrealm
      | some n =>
        obtain ⟨q, hq, hn⟩ := Option.bind_eq_some_iff.mp hsname
        exact (hrequest q hq).sname n hn
  unfold krbError
  split
  · next hint =>
    -- The hint goes into the error data, and its salt is the one string in there.
    obtain ⟨info, hinfo⟩ := PreAuthHint.exists_etypeInfo2 (hhint hint rfl)
    unfold PreAuthHint.methodData
    rw [hinfo]
    exact ⟨_, rfl, hwritable _⟩
  · exact ⟨_, rfl, hwritable none⟩

namespace Service

open Exchange

/-! ## Hints -/

/-- A hint tells of a salt that the directory knows. -/
theorem handle_hint {s : Service} {clock : Instant} {request : AsRequest} {l : Ledger}
    {hint : PreAuthHint}
    (h : ((s.handle clock request).runOn l).1 = .error (.refused (.preAuthRequired hint))) :
    ∃ n realm e, s.directory n realm = .ok (some e) ∧ hint.salt = e.salt := by
  unfold handle at h
  rcases error_of_runOn_bind h with h | ⟨admitted, l', -, h⟩
  · unfold admitRequest at h
    rcases error_of_runOn_bind h with h | ⟨c, l', hidentify, h⟩
    · cases (s.identify_proofless _ _).refusal _ _ h
    · -- Only the proof stage gives hints, and by then the account has been found.
      have hfound := (identify_eq_ok hidentify).found
      rcases error_of_runOn_bind h with h | ⟨outcome, l'', -, h⟩
      · by_cases hshown : ∃ key stamp,
            s.ShowsTimestamp request clock.wholeSecond c.client c.etype key stamp
        · obtain ⟨key, stamp, hshows⟩ := hshown
          cases hverdict :
              (l'.cache.check (stampRecord c.client stamp) clock.wholeSecond).1 with
          | fresh =>
            rw [hshows.passes hverdict] at h
            cases h
          | replay =>
            rw [hshows.isReplay hverdict] at h
            cases h
        · have hsparing := verifyPreAuth_of_not_shown
            fun key stamp hshows => hshown ⟨key, stamp, hshows⟩
          have hhint := (hsparing.refusal _ _ h).2 hint rfl
          refine ⟨_, _, c.client, hfound, ?_⟩
          rw [hhint]
      · cases h
  · cases (s.grant_proofless _ _ _).refusal _ _ h

/-! ## Answers -/

/-- What a service has to tell can be written: its realm and its salts are ASCII, and its
    accounts know no time before year 0. -/
structure Presentable (s : Service) : Prop where
  realm : IsAscii s.config.realm
  salt : ∀ n realm e, s.directory n realm = .ok (some e) →
    ∀ salt, e.salt = some salt → IsAscii salt
  timed : ∀ n realm e, s.directory n realm = .ok (some e) → e.Timed

/-- Why a message gets no reply, as the error message that says so: its octets hold no request,
    or those of another kind of message, or the exchange has ended in a refusal. -/
inductive Reports (s : Service) (clock : Readings) (l : Ledger) (message : Octets) :
    KrbError → Prop where
  | unreadable {cause : WireError} (hread : AsRequest.read message = .error cause)
      (hcause : ∀ found expected, cause ≠ .wrongMessageType found expected) :
      Reports s clock l message (.unreadable s.config.realm clock.received.wholeSecond)
  | otherType {found : Octets} {expected : UInt8} {error : KrbError}
      (hread : AsRequest.read message = .error (.wrongMessageType found expected))
      (herror : (Refusal.badMessageType (.wrongMessageType found expected)).krbError none
        s.config.realm clock.received.wholeSecond = .ok error) :
      Reports s clock l message error
  | refused {request : AsRequest} {refusal : Refusal} {error : KrbError}
      (hread : AsRequest.read message = .ok request)
      (hrefused : ((s.handle clock.handled request).runOn l).1 = .error (.refused refusal))
      (herror : refusal.krbError (some request) s.config.realm clock.received.wholeSecond =
        .ok error) :
      Reports s clock l message error

theorem Presentable.exists_writeRefusal {s : Service} (h : s.Presentable) {now : Instant}
    (hnow : now.Expressible) (request : Option AsRequest) (refusal : Refusal)
    (hrequest : ∀ q, request = some q → q.toRequestBody.Writable)
    (hhint : ∀ hint, refusal = .preAuthRequired hint →
      ∀ salt, hint.salt = some salt → IsAscii salt) :
    ∃ octets error, s.writeRefusal now request refusal = .ok octets ∧
      refusal.krbError request s.config.realm now = .ok error ∧ error.write = .ok octets := by
  obtain ⟨error, herror, hwritable⟩ :=
    Refusal.exists_krbError h.realm hnow hrequest hhint
  obtain ⟨octets, hoctets⟩ := hwritable.exists_write
  refine ⟨octets, error, ?_, herror, hoctets⟩
  unfold writeRefusal
  rw [herror]
  exact hoctets

/-- What cannot be read is answered without a look at what it says. -/
theorem Presentable.exists_rejection {s : Service} (h : s.Presentable) {clock : Readings}
    (hclock : clock.received.Expressible) {message : Octets} {cause : WireError}
    (hread : AsRequest.read message = .error cause) (l : Ledger) :
    ∃ octets error, ((s.answer clock message).run l).1 = .ok octets ∧
      s.Reports clock l message error ∧ error.write = .ok octets := by
  have hnow := hclock.wholeSecond
  rw [answer_of_unreadable s clock hread]
  by_cases hcause : ∃ found expected, cause = .wrongMessageType found expected
  · obtain ⟨found, expected, rfl⟩ := hcause
    obtain ⟨octets, error, hoctets, herror, hwrite⟩ :=
      h.exists_writeRefusal hnow none (.badMessageType (.wrongMessageType found expected))
        (fun _ hq => nomatch hq) (fun _ hhint => nomatch hhint)
    exact ⟨octets, error, hoctets, .otherType hread herror, hwrite⟩
  · have hother : ∀ found expected, cause ≠ .wrongMessageType found expected :=
      fun found expected heq => hcause ⟨found, expected, heq⟩
    obtain ⟨octets, hwrite⟩ := (KrbError.writable_unreadable h.realm hnow).exists_write
    refine ⟨octets, _, ?_, .unreadable hread hother, hwrite⟩
    rw [rejection_of_other hother]
    exact hwrite

/-- A refusal can be reported: the salt in its hint is one of the directory's. -/
theorem Presentable.exists_refusal {s : Service} (h : s.Presentable) {clock : Readings}
    (hclock : clock.received.Expressible) {message : Octets} {request : AsRequest}
    (hread : AsRequest.read message = .ok request) {l : Ledger} {refusal : Refusal}
    (hrefused : ((s.handle clock.handled request).runOn l).1 = .error (.refused refusal)) :
    ∃ octets error, ((s.answer clock message).run l).1 = .ok octets ∧
      s.Reports clock l message error ∧ error.write = .ok octets := by
  have hrequest : ∀ q, some request = some q → q.toRequestBody.Writable := by
    rintro q ⟨⟩
    exact AsRequest.read_writable hread
  have hhint : ∀ hint, refusal = .preAuthRequired hint →
      ∀ salt, hint.salt = some salt → IsAscii salt := by
    rintro hint rfl salt hsalt
    obtain ⟨n, realm, e, hfound, heq⟩ := handle_hint hrefused
    exact h.salt n realm e hfound salt (heq ▸ hsalt)
  obtain ⟨octets, error, hoctets, herror, hwrite⟩ :=
    h.exists_writeRefusal hclock.wholeSecond (some request) refusal hrequest hhint
  refine ⟨octets, error, ?_, .refused hread hrefused herror, hwrite⟩
  rw [answer_of_readable s clock hread, hrefused]
  exact hoctets

/-- A reply names the client and the service of the request, so it can be written. -/
theorem Presentable.exists_reply {s : Service} (h : s.Presentable) {clock : Instant}
    {request : AsRequest} (hrequest : request.toRequestBody.Writable) {l l' : Ledger}
    {reply : AsReply} (hreply : (s.handle clock request).runOn l = (.ok reply, l')) :
    ∃ octets, reply.write = .ok octets := by
  obtain ⟨g, l₁, hg⟩ := handle_eq_ok hreply
  obtain ⟨crealm, hcrealm⟩ : ∃ w, Wire.realm reply.crealm = .ok w := by
    rw [hg.crealm]
    exact exists_string_eq_ok h.realm
  obtain ⟨cname, hcname⟩ : ∃ w, Wire.name reply.cname = .ok w := by
    rw [hg.cname]
    exact exists_name_eq_ok (hrequest.cname _ hg.reaches.named)
  obtain ⟨realm, hrealm⟩ : ∃ w, Wire.realm reply.ticket.realm = .ok w := by
    rw [hg.ticketRealm]
    exact exists_string_eq_ok h.realm
  obtain ⟨sname, hsname⟩ : ∃ w, Wire.name reply.ticket.sname = .ok w := by
    rw [hg.ticketSname]
    exact exists_name_eq_ok (hrequest.sname _ hg.named)
  unfold AsReply.write Ticket.write
  rw [hcrealm, hcname, hrealm, hsname]
  exact ⟨_, rfl⟩

/-- Whatever octets arrive, and whatever directory, cipher and verifier make of them, the
    answer is octets.  They are a reply, and read as that reply, or they are an error message
    that tells why there is none, and read as that error. -/
theorem answer_reply_or_error {s : Service} (h : s.Presentable) (clock : Readings)
    (hreceived : clock.received.Expressible) (hhandled : clock.handled.Expressible)
    (message : Octets) (l : Ledger) :
    ∃ octets, ((s.answer clock message).run l).1 = .ok octets ∧
      ((∃ request reply, AsRequest.read message = .ok request ∧
          ((s.handle clock.handled request).runOn l).1 = .ok reply ∧
          reply.write = .ok octets ∧ (octets.length < sightLimit →
            Wire.replyReader.run octets = some (Wire.replyReadBack reply))) ∨
        ∃ error, s.Reports clock l message error ∧
          error.write = .ok octets ∧ (octets.length < sightLimit →
            Wire.errorReader.run octets = some (Wire.errorReadBack error))) := by
  cases hread : AsRequest.read message with
  | error cause =>
    -- There is no exchange, so the clock is read at the door only.
    obtain ⟨octets, error, hoctets, hreports, hwrite⟩ := h.exists_rejection hreceived hread l
    exact ⟨octets, hoctets, .inr ⟨error, hreports, hwrite, Wire.error_read_back hwrite⟩⟩
  | ok request =>
    have hrequest := AsRequest.read_writable hread
    have hcompletes := s.handle_completes hhandled hrequest h.timed l
    rcases hrun : (s.handle clock.handled request).runOn l with ⟨failure | reply, l'⟩
    · cases failure with
      | abandoned =>
        -- Only a time before year 0 stops an exchange, and none can come in or is on record.
        exact absurd (congrArg Prod.fst hrun) hcompletes
      | refused refusal =>
        obtain ⟨octets, error, hoctets, hreports, hwrite⟩ :=
          h.exists_refusal hreceived hread (congrArg Prod.fst hrun)
        exact ⟨octets, hoctets, .inr ⟨error, hreports, hwrite, Wire.error_read_back hwrite⟩⟩
    · -- The names that a reply repeats could be read, so they can be written.
      obtain ⟨octets, hwrite⟩ := h.exists_reply hrequest hrun
      refine ⟨octets, ?_, .inl ⟨request, reply, rfl, congrArg Prod.fst hrun, hwrite,
        Wire.reply_read_back hwrite⟩⟩
      rw [answer_of_readable s clock hread, hrun]
      show reply.write.mapError Failure.refused = .ok octets
      rw [hwrite]
      rfl

theorem presentable_sample : Sample.service.Presentable := by
  have hentries : ∀ n realm e, Sample.service.directory n realm = .ok (some e) →
      e = Sample.user ∨ e = Sample.ticketService := by
    intro n realm e hfound
    have hmem := PrincipalTable.mem_of_find?_ofEntries (Except.ok.inj hfound)
    simpa [Sample.entries] using hmem
  constructor
  · decide
  · intro n realm e hfound salt hsalt
    rcases hentries n realm e hfound with rfl | rfl
    · cases hsalt
      decide
    · cases hsalt
  · intro n realm e hfound
    rcases hentries n realm e hfound with rfl | rfl
    all_goals
      constructor
      · intro t ht
        cases ht
      · intro t ht
        cases ht

/-- When the clock moves on behind the door, the user's octets are answered with a reply, and no
    octets at all with an error message of noon. -/
theorem answer_reply_or_error_at_noon :
    (∃ octets reply,
      ((Sample.service.answer ⟨Sample.noon, Sample.pastNoon⟩ Sample.message).run
        (Ledger.start {})).1 = .ok octets ∧
      Wire.replyReader.run octets = some (Wire.replyReadBack reply)) ∧
    ∃ octets,
      ((Sample.service.answer ⟨Sample.noon, Sample.pastNoon⟩ []).run (Ledger.start {})).1 =
        .ok octets ∧
      Wire.errorReader.run octets = some (.ok (.unreadable "EXAMPLE.COM" Sample.noon)) := by
  have hnoon : Sample.noon.Expressible := by
    rw [Instant.expressible_iff]
    decide
  have hpast : Sample.pastNoon.Expressible := by
    rw [Instant.expressible_iff]
    decide
  have hanswers := fun message => answer_reply_or_error presentable_sample
    ⟨Sample.noon, Sample.pastNoon⟩ hnoon hpast message (Ledger.start {})
  constructor
  · have hread : AsRequest.read Sample.message = .ok Sample.request := by decide +kernel
    have hgranted : ((Sample.service.handle Sample.pastNoon Sample.request).runOn
        (Ledger.start {})).1.isOk = true := by decide +kernel
    have hsight : ((Sample.service.answer ⟨Sample.noon, Sample.pastNoon⟩ Sample.message).run
        (Ledger.start {})).1.toOption.all (·.length < sightLimit) = true := by decide +kernel
    obtain ⟨octets, hoctets, ⟨request, reply, -, -, -, hreply⟩ | ⟨error, hreports, -⟩⟩ :=
      hanswers Sample.message
    · rw [hoctets] at hsight
      exact ⟨octets, reply, hoctets, hreply (of_decide_eq_true hsight)⟩
    · -- The request is read and granted, so there is nothing to report.
      exfalso
      cases hreports with
      | unreadable hunread => exact nomatch hunread.symm.trans hread
      | otherType hunread => exact nomatch hunread.symm.trans hread
      | refused hread' hrefused =>
        cases hread'.symm.trans hread
        rw [hrefused] at hgranted
        cases hgranted
  · have hread : AsRequest.read [] = .error .malformed := by decide +kernel
    have hsight : ((Sample.service.answer ⟨Sample.noon, Sample.pastNoon⟩ []).run
        (Ledger.start {})).1.toOption.all (·.length < sightLimit) = true := by decide +kernel
    obtain ⟨octets, hoctets, ⟨request, reply, hunread, -⟩ | ⟨error, hreports, -, herror⟩⟩ :=
      hanswers []
    · exact nomatch hunread.symm.trans hread
    · rw [hoctets] at hsight
      refine ⟨octets, hoctets, ?_⟩
      rw [herror (of_decide_eq_true hsight)]
      cases hreports with
      | unreadable => decide +kernel
      | otherType hother => exact nomatch hother.symm.trans hread
      | refused hreadable => exact nomatch hreadable.symm.trans hread

end Service

end Kerberos
