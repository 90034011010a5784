import Kerberos.Proofs.Assurance
import Kerberos.Proofs.Credential
import Kerberos.Proofs.Options
import Kerberos.Proofs.Validity

/-! # What the flags of a ticket say

    Every flag of a ticket stands for one decision of the exchange that issued it, and the
    decisions are told by the request, the realm, the clock and the proof of identity
    (`Service.Flagged`).  A flag that was not asked for is set for renewals only, by those who
    settle for them, and no flag is set that the realm does not allow.

    Of the options, only the ones in `KdcOptions.considered` have a part in this.
-/

namespace Kerberos

namespace Sample

def tomorrow : Instant := ⟨1792065600000000000, by decide, by decide⟩

/-- The user asks for a renewable ticket from tomorrow on. -/
def laterRequest : AsRequest :=
  { request with options := .postdated ||| .renewable, start := some tomorrow }

end Sample

namespace Service

/-! ## What each flag says -/

/-- What the flags of `part` say about the exchange that issued it, when `c` was known about the
    request and the replay cache was `cache`. -/
structure Flagged (s : Service) (cache : ReplayCache) (now : Instant) (request : AsRequest)
    (c : Candidate) (part : EncTicketPart) : Prop where
  initial : part.flags.contains .initial
  /-- A proof of identity was verified. -/
  preAuthent : part.flags.contains .preAuthent ↔
    ∃ key, s.Proves cache request now c.client c.etype key
  forwardable : part.flags.contains .forwardable ↔ request.options.contains .forwardable
  forwardableAllowed : part.flags.contains .forwardable → s.config.forwardableAllowed
  proxiable : part.flags.contains .proxiable ↔ request.options.contains .proxiable
  proxiableAllowed : part.flags.contains .proxiable → s.config.proxiableAllowed
  mayPostdate : part.flags.contains .mayPostdate ↔ request.options.contains .allowPostdate
  mayPostdateAllowed : part.flags.contains .mayPostdate → s.config.postdatedAllowed
  /-- A ticket that starts late is flagged as postdated and, until then, as invalid. -/
  postdated : part.flags.contains .postdated ↔ request.StartsLate s.config now
  invalid : part.flags.contains .invalid ↔ request.StartsLate s.config now
  /-- It starts when it was wanted, and its client has asked for such a ticket. -/
  late : request.StartsLate s.config now →
    request.options.contains .postdated ∧ s.config.postdatedAllowed ∧ part.startTime = request.start
  /-- Any other ticket starts at once. -/
  prompt : ¬ request.StartsLate s.config now → part.startTime = some now
  renewable : part.flags.contains .renewable ↔ part.renewTill.isSome
  renewTill : part.renewTill.isSome ↔ s.config.renewableAllowed ∧
    (request.options.contains .renewable ∨ request.SettlesForRenewals part.endTime)
  others : TicketFlags.issuable.contains part.flags

theorem Granting.Explains.flagged {g : Granting} {s : Service} {now : Instant}
    {request : AsRequest} {l l₁ l' : Ledger} {reply : AsReply}
    (h : g.Explains s now request l l₁ reply l') :
    s.Flagged l.cache now request g.candidate (g.part s request now) := by
  have hchosen := Validity.choose_eq_ok h.validity
  have hshown : Grants.ShownBy _ (g.part s request now).flags := Grants.shownBy_flags _
  have hproved := preAuthenticated_iff_proves h.passes
  have hpermitted := h.reaches.permitted
  have hpostdated : g.validity.postdated = true ↔ request.StartsLate s.config now :=
    hchosen.postdated_iff
  exact {
    initial := hshown.initial
    preAuthent := by rw [hshown.preAuthent]; exact hproved
    forwardable := by rw [hshown.forwardable]
    forwardableAllowed := by rw [hshown.forwardable]; exact hpermitted.forwardable
    proxiable := by rw [hshown.proxiable]
    proxiableAllowed := by rw [hshown.proxiable]; exact hpermitted.proxiable
    mayPostdate := by rw [hshown.mayPostdate]
    mayPostdateAllowed := by
      rw [hshown.mayPostdate]
      intro hasked
      exact hpermitted.postdating (KdcOptions.intersects_of_contains hasked rfl)
    postdated := by rw [hshown.postdated]; exact hpostdated
    invalid := by rw [hshown.invalid]; exact hpostdated
    late := by
      intro hlate
      obtain ⟨-, hasked, hstart⟩ := hchosen.of_late hlate
      have hallowed := hpermitted.postdating (KdcOptions.intersects_of_contains hasked rfl)
      exact ⟨hasked, hallowed, hstart.symm⟩
    prompt := by
      intro hearly
      exact congrArg some (hchosen.of_not_late hearly).2
    renewable := by rw [hshown.renewable]; exact Iff.rfl
    renewTill := hchosen.renewable_iff
    others := hshown.others }

/-! ## Replies -/

/-- `part` is what the ticket of the reply carries, and the client is told the same.  It was
    encrypted for the service as the last thing but one. -/
structure Carries (s : Service) (reply : AsReply) (l' : Ledger) (part : EncTicketPart) :
    Prop where
  sealing : ∃ earlier serverKey ticketText clientKey replyText,
    l'.calls = earlier ++ [.encrypt serverKey KeyUsage.ticket ticketText,
      .encrypt clientKey KeyUsage.asReply replyText] ∧
    part.write = .ok ticketText ∧
    ∃ n, s.cipher.encrypt n serverKey KeyUsage.ticket ticketText = .ok reply.ticket.encPart
  told : Credential part reply.part

theorem Granting.Explains.carries {g : Granting} {s : Service} {now : Instant}
    {request : AsRequest} {l l₁ l' : Ledger} {reply : AsReply}
    (h : g.Explains s now request l l₁ reply l') :
    s.Carries reply l' (g.part s request now) := by
  have hcalls : l'.calls =
      (l₁.calls ++ [.lookup .server g.sname, .randomKey g.candidate.etype]) ++
        [.encrypt g.serverKey KeyUsage.ticket g.ticketText,
          .encrypt g.outcome.clientKey KeyUsage.asReply g.replyText] := by
    rw [h.calls_eq, List.append_assoc]
    rfl
  have htold : Credential (g.part s request now) reply.part := by
    rw [h.replyPart]
    exact s.credential_ofTicket _ _ _ _ _ _ _ _ _
  exact ⟨⟨_, _, _, _, _, hcalls, h.ticketWritten, _, h.ticketSealed⟩, htold⟩

/-- The flags of a ticket say what was asked for, proved and allowed, and no more.  What comes
    of a request does not depend on the options that are not considered. -/
theorem reply_flags (s : Service) (clock : Instant) (request : AsRequest) :
    (∀ l l' reply, (s.handle clock request).runOn l = (.ok reply, l') →
      ∃ c part, s.Reaches request clock.wholeSecond c ∧ s.Carries reply l' part ∧
        s.Flagged l.cache clock.wholeSecond request c part) ∧
    ∀ options : KdcOptions, options.Agree request.options →
      s.handle clock { request with options } = s.handle clock request := by
  constructor
  · intro l l' reply hrun
    obtain ⟨g, l₁, hg⟩ := handle_eq_ok hrun
    exact ⟨g.candidate, _, hg.reaches, hg.carries, hg.flagged⟩
  · intro options hagree
    exact s.handle_of_agree clock hagree

/-- The user gets its ticket for tomorrow, and would get the same one if it asked for the
    canonical form of its name. -/
theorem reply_flags_at_noon :
    ∃ reply l' part,
      (Sample.service.handle Sample.noon
        { Sample.laterRequest with options := .postdated ||| .renewable ||| .canonicalize }).runOn
          (Ledger.start {}) = (.ok reply, l') ∧
      Sample.service.Carries reply l' part ∧ part.flags.contains .postdated ∧
      part.flags.contains .invalid ∧ part.flags.contains .renewable ∧
      ¬ part.flags.contains .forwardable ∧ part.startTime = some Sample.tomorrow := by
  obtain ⟨reply, l', hrun⟩ := Exchange.exists_of_isOk
    (x := Sample.service.handle Sample.noon Sample.laterRequest) (l := Ledger.start {})
    (by decide +kernel)
  obtain ⟨hreplies, hinert⟩ := reply_flags Sample.service Sample.noon Sample.laterRequest
  obtain ⟨c, part, -, hcarries, hflagged⟩ := hreplies _ l' reply hrun
  have hagree : (KdcOptions.postdated ||| .renewable ||| .canonicalize).Agree
      Sample.laterRequest.options := rfl
  have hlate : Sample.laterRequest.StartsLate Sample.service.config Sample.noon.wholeSecond :=
    ⟨Sample.tomorrow, rfl, by decide⟩
  have hpostdated := hflagged.postdated.mpr hlate
  have hinvalid := hflagged.invalid.mpr hlate
  have hrenewable : part.flags.contains .renewable :=
    hflagged.renewable.mpr (hflagged.renewTill.mpr ⟨rfl, .inl rfl⟩)
  have hforwardable : ¬ part.flags.contains .forwardable := by
    rw [hflagged.forwardable]
    decide
  obtain ⟨-, -, hstart⟩ := hflagged.late hlate
  refine ⟨reply, l', part, ?_, hcarries, hpostdated, hinvalid, hrenewable, hforwardable, hstart⟩
  rw [hinert _ hagree]
  exact hrun

end Service

end Kerberos
