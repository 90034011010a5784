import Kerberos.Proofs.ErrorCode

/-! # Error messages tell nothing about accounts and keys

    What an error message says about the service comes down to the code and the text of the
    refusal.  The text of some refusals is the description of their code.  Where it says more,
    the refusal comes from checks that look at the request, the configuration and the clock
    alone, the terms of the realm (`RealmConfig.clientTerms`, `RealmConfig.ticketTerms`).  An
    exchange follows these terms in order (`Exchange.Follows`): if it ends with one of them
    not met, then it is the first that is not met, whatever else happens on the way.

    So two services of one configuration that refuse a request with the same code refuse it
    in the same words, unless the code is one of the three that are about the account or its
    proof.
-/

namespace Kerberos

open Asn1

/-! ## Refusals in the words of their code -/

namespace Refusal

/-- The codes of refusals that tell a client about its account or its proof: the account is
    revoked, the proof has failed, a proof is required. -/
def clientCodes : List UInt32 := [18, 24, 25]

/-- The text tells no more than the code, or the code is one of `clientCodes`. -/
def discreet : Refusal → Bool
  | badMessageType _ => true
  | unknownClient _ => true
  | unknownServer _ => true
  | nullKey _ => true
  | clientRevoked _ => true
  | preAuthRequired _ => true
  | preAuthFailed _ => true
  | badIntegrity _ => true
  | internal _ => true
  | _ => false

theorem eText_of_discreet {r r' : Refusal} (h : r.discreet = true) (hcode : r'.code = r.code)
    (hother : r.code ∉ clientCodes) : r'.eText = r.eText := by
  cases r with
  | clientRevoked _ => exact absurd (show 18 ∈ clientCodes by decide) hother
  | preAuthFailed _ => exact absurd (show 24 ∈ clientCodes by decide) hother
  | preAuthRequired _ => exact absurd (show 25 ∈ clientCodes by decide) hother
  | badMessageType _ | unknownClient _ | unknownServer _ | nullKey _ | badIntegrity _
  | internal _ => cases r' <;> first | rfl | cases hcode
  | _ => cases h

/-- A proof that cannot be opened is reported in the words of the code. -/
theorem discreet_of_code {r : Refusal} (h : r.code = 31) : r.discreet = true := by
  cases r <;> first | rfl | cases h

end Refusal

/-- The data with its value left out, if it is an encrypted timestamp. -/
def PaData.redacted (p : PaData) : PaData :=
  if p.kind = encTimestamp then { p with value := [] } else p

/-- The request without what stands in its proofs. -/
def AsRequest.redacted (r : AsRequest) : AsRequest :=
  { r with padata := r.padata.map PaData.redacted }

namespace Sample

/-- A timestamp encrypted under another key than the user's. -/
def forgedProof : Octets :=
  match Cipher.envelope.sealMessage 0 serviceKey KeyUsage.encTimestamp stamp.write with
  | .ok data => data.write
  | .error _ => []

/-- The request of the user with another proof. -/
def requestWith (proof : Octets) : AsRequest :=
  { request with padata := [⟨PaData.encTimestamp, proof⟩] }

def messageWith (proof : Octets) : Octets :=
  match (requestWith proof).write { etypes := [23, 18] } with
  | .ok octets => octets
  | .error _ => []

end Sample

/-! ## The terms of the realm -/

/-- The terms that a request has to meet ahead of its proof. -/
def RealmConfig.clientTerms (c : RealmConfig) (request : AsRequest) : Except Refusal Unit := do
  if request.pvno.toNat ≠ protocolVersion.toNat then throw (.badProtocolVersion request.pvno)
  let _ ← negotiateEtype c request.etypes
  if !sameIgnoringCase request.realm c.realm then throw (.wrongRealm request.realm)
  let _ ← admitOptions c request.options

/-- The terms that a ticket has to meet. -/
def RealmConfig.ticketTerms (c : RealmConfig) (request : RequestBody) (now : Instant) :
    Except Refusal Unit := do
  if request.options.intersects .tgsOnly then throw (.badOption (request.options &&& .tgsOnly))
  let _ ← Validity.choose c request now
  let _ ← clientAddresses c request

/-- The terms of the realm, in the order in which an exchange comes to them. -/
def RealmConfig.terms (c : RealmConfig) (request : AsRequest) (now : Instant) :
    Except Refusal Unit := do
  c.clientTerms request
  c.ticketTerms request.toRequestBody now

namespace Exchange

/-- The part refuses discreetly, or because of the terms; and it passes only if they are met. -/
structure Follows {α : Type} (terms : Except Refusal Unit) (x : Exchange α) : Prop where
  refused : ∀ l r, (x.runOn l).1 = .error (.refused r) → r.discreet = true ∨ terms = .error r
  met : ∀ l a, (x.runOn l).1 = .ok a → terms = .ok ()

namespace Follows
variable {α β : Type} {terms terms' : Except Refusal Unit}

theorem pure (a : α) : Follows (.ok ()) (Pure.pure a : Exchange α) :=
  ⟨fun _ _ h => (nomatch h), fun _ _ _ => rfl⟩

/-- Discreet refusals have nothing to do with the terms. -/
theorem refuse {r : Refusal} (h : r.discreet = true) :
    Follows terms (Exchange.refuse r : Exchange α) := by
  refine ⟨fun _ _ hr => ?_, fun _ _ hok => nomatch hok⟩
  cases hr
  exact .inl h

theorem enter (call : Call) : Follows (.ok ()) (Exchange.enter call) :=
  ⟨fun _ _ h => (nomatch h), fun _ _ _ => rfl⟩

theorem checkReplay (record : ReplayRecord) (now : Instant) :
    Follows (.ok ()) (Exchange.checkReplay record now) :=
  ⟨fun _ _ h => (nomatch h), fun _ _ _ => rfl⟩

/-- First the terms of the first part have to be met, then those of the second. -/
theorem bind {x : Exchange α} {f : α → Exchange β} (hx : Follows terms x)
    (hf : ∀ a, Follows terms' (f a)) : Follows (terms >>= fun _ => terms') (x >>= f) := by
  constructor
  · intro l r hr
    rcases error_of_runOn_bind hr with hfirst | ⟨a, l', hpassed, hsecond⟩
    · rcases hx.refused l r hfirst with hdiscreet | hterms
      · exact .inl hdiscreet
      · rw [hterms]
        exact .inr rfl
    · rw [hx.met l a (congrArg Prod.fst hpassed)]
      exact (hf a).refused l' r hsecond
  · intro l b hb
    rcases hrun : (x >>= f).runOn l with ⟨outcome, l''⟩
    rw [hrun] at hb
    obtain rfl : outcome = .ok b := hb
    obtain ⟨a, l', hfirst, hsecond⟩ := runOn_bind_eq_ok_iff.mp hrun
    rw [hx.met l a (congrArg Prod.fst hfirst)]
    exact (hf a).met l' b (congrArg Prod.fst hsecond)

/-- A part without terms of its own may come first. -/
theorem bind_of_free {x : Exchange α} {f : α → Exchange β} (hx : Follows (.ok ()) x)
    (hf : ∀ a, Follows terms (f a)) : Follows terms (x >>= f) := hx.bind hf

/-- A part without terms of its own may come last. -/
theorem then_free {x : Exchange α} {f : α → Exchange β} (hx : Follows terms x)
    (hf : ∀ a, Follows (.ok ()) (f a)) : Follows terms (x >>= f) := by
  have hboth := hx.bind hf
  cases terms <;> exact hboth

/-- A decision that looks at the request and the configuration is the next term. -/
theorem demand {decision : Except Refusal α} {f : α → Exchange β}
    (hf : ∀ a, Follows terms (f a)) :
    Follows (decision >>= fun _ => terms) ((MonadLiftT.monadLift decision : Exchange α) >>= f) := by
  cases decision with
  | ok a => exact (pure a).bind hf
  | error r =>
    refine ⟨fun l r' hr => ?_, fun l b hb => ?_⟩
    · rw [runOn_bind_of_error (runOn_liftM _ l)] at hr
      cases hr
      exact .inr rfl
    · rw [runOn_bind_of_error (runOn_liftM _ l)] at hb
      cases hb

/-- A decision that is refused discreetly is no term. -/
theorem liftM_of_discreet {decision : Except Refusal α}
    (h : ∀ r, decision = .error r → r.discreet = true) :
    Follows (.ok ()) (MonadLiftT.monadLift decision : Exchange α) := by
  cases decision with
  | ok a => exact pure a
  | error r => exact refuse (h r rfl)

/-- A check that looks at the request and the configuration is a term. -/
theorem check {c : Prop} [Decidable c] {r : Refusal} {rest : Exchange α}
    (h : Follows terms rest) :
    Follows (if c then (.error r >>= fun _ : Unit => terms) else terms)
      (if c then (Exchange.refuse r >>= fun _ : Unit => rest) else rest) := by
  split
  · refine ⟨fun l r' hr => ?_, fun l a ha => ?_⟩
    · rw [runOn_bind_of_error (runOn_refuse r l)] at hr
      cases hr
      exact .inr rfl
    · rw [runOn_bind_of_error (runOn_refuse r l)] at ha
      cases ha
  · exact h

/-- A check that refuses discreetly is no term. -/
theorem guard {c : Prop} [Decidable c] {r : Refusal} {rest : Exchange α}
    (hr : r.discreet = true) (h : Follows terms rest) :
    Follows terms (if c then (Exchange.refuse r >>= fun _ : Unit => rest) else rest) := by
  split
  · have hstopped : Follows (.ok () >>= fun _ => terms)
        (Exchange.refuse r >>= fun _ : Unit => rest) := (refuse hr).bind fun _ => h
    exact hstopped
  · exact h

theorem drawKey (c : Cipher) (etype : EncryptionType) :
    Follows (.ok ()) (Exchange.drawKey c etype) := by
  refine ⟨fun l r hr => ?_, fun _ _ _ => rfl⟩
  have hsparing : Sparing (fun r => r.discreet = true) (Exchange.drawKey c etype) :=
    .drawKey c etype fun _ => rfl
  exact .inl (hsparing.refusal l r hr)

theorem encrypt (c : Cipher) (key : EncryptionKey) (usage : Int32) (message : Written)
    (fault : CipherError → InternalFault) :
    Follows (.ok ()) (Exchange.encrypt c key usage message fault) := by
  refine ⟨fun l r hr => ?_, fun _ _ _ => rfl⟩
  have hsparing : Sparing (fun r => r.discreet = true)
      (Exchange.encrypt c key usage message fault) := .encrypt c key usage message fault fun _ => rfl
  exact .inl (hsparing.refusal l r hr)

end Follows
end Exchange

namespace Service

open Exchange

theorem find_follows (s : Service) (role : Role) (name : PrincipalName)
    {absent : Absence → Refusal} (habsent : ∀ why, (absent why).discreet = true) :
    Follows (.ok ()) (s.find role name absent) := by
  unfold find
  refine (Follows.enter _).bind fun _ => ?_
  split
  · exact .refuse (habsent _)
  · exact .refuse (habsent _)
  · exact .guard rfl (.pure _)

theorem admitClient_discreet {e : DirectoryEntry} {now : Instant} {r : Refusal}
    (h : admitClient e now = .error r) : r.discreet = true := by
  obtain ⟨why, rfl⟩ := admitClient_eq_error h
  rfl

theorem identify_follows (s : Service) (request : AsRequest) (now : Instant) :
    Follows (s.config.clientTerms request) (s.identify request now) := by
  unfold identify RealmConfig.clientTerms
  refine .check (.demand fun etype => .check ?_)
  split
  · refine (s.find_follows _ _ fun _ => rfl).bind_of_free fun client => ?_
    refine (Follows.liftM_of_discreet fun _ => admitClient_discreet).bind_of_free fun _ => ?_
    exact .demand fun _ => .pure _
  · exact .refuse rfl

theorem openTimestamp_discreet {s : Service} {key : EncryptionKey} {proof : Octets} {r : Refusal}
    (h : s.openTimestamp key proof = .error r) : r.discreet = true := by
  obtain ⟨why, rfl⟩ := openTimestamp_refusal h
  rfl

/-- The proof is no matter of the terms. -/
theorem verifyPreAuth_follows (s : Service) (request : AsRequest) (client : DirectoryEntry)
    (etype : EncryptionType) (now : Instant) :
    Follows (.ok ()) (s.verifyPreAuth request client etype now) := by
  unfold verifyPreAuth
  split
  · unfold verifyOtp
    refine .guard rfl ?_
    split
    · split
      · refine (Follows.enter _).bind_of_free fun _ => ?_
        split
        · exact .pure _
        · exact .refuse rfl
      · exact .refuse rfl
    · exact .refuse rfl
  · unfold verifyTimestamp
    split
    · split
      · exact .guard rfl (.pure _)
      · refine (Follows.liftM_of_discreet fun _ => openTimestamp_discreet).bind_of_free
          fun stamp => .guard rfl ?_
        refine (Follows.checkReplay _ _).bind_of_free fun verdict => ?_
        split
        · exact .pure _
        · exact .refuse rfl
    · exact .refuse rfl

theorem issueTicket_follows (s : Service) (request : RequestBody) (now : Instant)
    (etype : EncryptionType) (cname sname : PrincipalName) (server : DirectoryEntry)
    (preAuthenticated : Bool) :
    Follows (s.config.ticketTerms request now)
      (s.issueTicket request now etype cname sname server preAuthenticated) := by
  unfold issueTicket RealmConfig.ticketTerms
  refine .check (.demand fun validity => .demand fun caddr => ?_)
  split
  · refine (Follows.drawKey _ _).bind_of_free fun key => ?_
    exact (Follows.encrypt _ _ _ _ _).bind_of_free fun _ => .pure _
  · exact .refuse rfl

theorem buildReply_follows (cipher : Cipher) (request : RequestBody) (issued : IssuedTicket)
    (crealm : String) (cname : PrincipalName) (client : DirectoryEntry)
    (clientKey : EncryptionKey) (etype : EncryptionType) :
    Follows (.ok ()) (buildReply cipher request issued crealm cname client clientKey etype) := by
  unfold buildReply
  refine (Follows.encrypt _ _ _ _ _).bind_of_free fun encPart => ?_
  split
  · exact .pure _
  · exact .refuse rfl

theorem grant_follows (s : Service) (request : AsRequest) (now : Instant) (a : Admitted) :
    Follows (s.config.ticketTerms request.toRequestBody now) (s.grant request now a) := by
  unfold grant
  split
  · refine (s.find_follows _ _ fun _ => rfl).bind_of_free fun server => ?_
    exact (s.issueTicket_follows _ _ _ _ _ _ _).then_free fun _ => buildReply_follows ..
  · exact .refuse rfl

theorem admitRequest_follows (s : Service) (request : AsRequest) (now : Instant) :
    Follows (s.config.clientTerms request) (s.admitRequest request now) := by
  unfold admitRequest
  refine (s.identify_follows request now).then_free fun candidate => ?_
  exact (s.verifyPreAuth_follows _ _ _ _).then_free fun _ => .pure _

theorem handle_follows (s : Service) (clock : Instant) (request : AsRequest) :
    Follows (s.config.terms request clock.wholeSecond) (s.handle clock request) := by
  unfold handle RealmConfig.terms
  exact (s.admitRequest_follows request _).bind fun admitted => s.grant_follows request _ admitted

/-- Two services of one configuration that refuse a request with the same code refuse it in
    the same words, if the code is not about the account or its proof. -/
theorem eText_eq_of_code {s s' : Service} (hconfig : s'.config = s.config) {clock : Instant}
    {request : AsRequest} {l l' : Ledger} {r r' : Refusal}
    (hr : ((s.handle clock request).runOn l).1 = .error (.refused r))
    (hr' : ((s'.handle clock request).runOn l').1 = .error (.refused r'))
    (hcode : r'.code = r.code) (hother : r.code ∉ Refusal.clientCodes) :
    r'.eText = r.eText := by
  have hfollows := (s.handle_follows clock request).refused l r hr
  have hfollows' := (s'.handle_follows clock request).refused l' r' hr'
  rw [hconfig] at hfollows'
  rcases hfollows with hdiscreet | hterms
  · exact Refusal.eText_of_discreet hdiscreet hcode hother
  · rcases hfollows' with hdiscreet' | hterms'
    · exact (Refusal.eText_of_discreet hdiscreet' hcode.symm (hcode ▸ hother)).symm
    · -- Neither service has met the terms, and both report the first that is not met.
      rw [hterms] at hterms'
      cases hterms'
      rfl

end Service

/-! ## Answers -/

/-- Only the refusal that asks for a proof brings data along. -/
theorem Refusal.krbError_of_code_ne {r : Refusal} (h : r.code ≠ 25) (request : Option AsRequest)
    (realm : String) (now : Instant) :
    r.krbError request realm now = .ok {
      code := r.code, time := now
      crealm := (request.bind (·.cname)).map fun _ => realm, cname := request.bind (·.cname)
      realm, sname := (request.bind (·.sname)).getD (.krbtgt realm), text := some r.eText
      data := none } := by
  unfold krbError
  split
  · exact absurd rfl h
  · rfl

namespace Service

open Exchange

/-- What a refusal is answered with depends on its code and text and on the names in the
    request. -/
theorem writeRefusal_congr {s s' : Service} (hconfig : s'.config = s.config) (now : Instant)
    {request request' : AsRequest} (hcname : request'.cname = request.cname)
    (hsname : request'.sname = request.sname) {r r' : Refusal} (hcode : r'.code = r.code)
    (htext : r'.eText = r.eText) (hdata : r.code ≠ 25) :
    s'.writeRefusal now (some request') r' = s.writeRefusal now (some request) r := by
  unfold writeRefusal
  rw [Refusal.krbError_of_code_ne hdata, Refusal.krbError_of_code_ne (hcode ▸ hdata)]
  simp only [Option.bind_some, hcname, hsname, hconfig, hcode, htext]

/-- The octets answer the message in ledger `l`, and they are an error message with `code`. -/
def AnswersError (s : Service) (clock : Readings) (l : Ledger) (message octets : Octets)
    (code : UInt32) : Prop :=
  ((s.answer clock message).run l).1 = .ok octets ∧
    ∃ error : KrbError, error.write = .ok octets ∧ error.code = code

/-- A request that is answered with an error message was refused, with the code that the message
    shows. -/
theorem AnswersError.refused {s : Service} {clock : Readings} {l : Ledger}
    {message octets : Octets} {code : UInt32} (h : s.AnswersError clock l message octets code)
    {request : AsRequest} (hread : AsRequest.read message = .ok request) :
    ∃ r, ((s.handle clock.handled request).runOn l).1 = .error (.refused r) ∧
      s.writeRefusal clock.received.wholeSecond (some request) r = .ok octets ∧ r.code = code := by
  obtain ⟨hanswer, error, herror, hcode⟩ := h
  have hoctets := (Wire.error_of_write herror).2
  rw [answer_of_readable s clock hread] at hanswer
  rcases hrun : ((s.handle clock.handled request).runOn l).1 with failure | reply
  · rw [hrun] at hanswer
    cases failure with
    | abandoned => cases hanswer
    | refused r =>
      refine ⟨r, rfl, hanswer, ?_⟩
      obtain ⟨error', herror', hwrite⟩ := except_bind_eq_ok_iff.mp hanswer
      have hoctets' := (Wire.error_of_write hwrite).2
      obtain ⟨data, rfl⟩ := Refusal.eq_of_krbError (Wire.liftM_eq_ok_iff.mp herror')
      rw [← hcode]
      exact Wire.errorOctets_code (hoctets'.symm.trans hoctets)
  · -- A reply is no error message.
    rw [hrun] at hanswer
    have hreply := (Wire.reply_of_write (mapError_eq_ok_iff.mp hanswer)).2
    exact absurd (hoctets.symm.trans hreply) (Wire.errorOctets_ne_replyOctets error reply)

/-- A request that is refused is answered with an error message, if that can be written. -/
theorem exists_answersError {s : Service} (clock : Readings) {l : Ledger} {message : Octets}
    {request : AsRequest} {r : Refusal} (hread : AsRequest.read message = .ok request)
    (hr : ((s.handle clock.handled request).runOn l).1 = .error (.refused r))
    (hwritten : (s.writeRefusal clock.received.wholeSecond (some request) r).isOk = true) :
    ∃ octets, s.AnswersError clock l message octets r.code := by
  cases hoctets : s.writeRefusal clock.received.wholeSecond (some request) r with
  | error failure =>
    rw [hoctets] at hwritten
    cases hwritten
  | ok octets =>
    obtain ⟨error, herror, hwrite⟩ := except_bind_eq_ok_iff.mp hoctets
    obtain ⟨data, rfl⟩ := Refusal.eq_of_krbError (Wire.liftM_eq_ok_iff.mp herror)
    refine ⟨octets, ?_, _, hwrite, rfl⟩
    rw [answer_of_readable s clock hread, hr]
    exact hoctets

/-- Two services of one configuration may have any directories, ciphers, verifiers and ledgers.
    If under one clock both answer the same octets with error messages of the same code, and it is
    none of those about the account or its proof, then the messages are the same octet for
    octet.  If they answer requests that differ only in what stands in the proofs, and both
    report a proof that cannot be opened, then the messages are the same too. -/
theorem error_answers_alike {s s' : Service} (hconfig : s'.config = s.config) {clock : Readings}
    {l l' : Ledger} {octets octets' : Octets} :
    (∀ message code, s.AnswersError clock l message octets code →
      s'.AnswersError clock l' message octets' code → code ∉ Refusal.clientCodes →
      octets' = octets) ∧
    (∀ message message' request request', AsRequest.read message = .ok request →
      AsRequest.read message' = .ok request' → request'.redacted = request.redacted →
      s.AnswersError clock l message octets 31 → s'.AnswersError clock l' message' octets' 31 →
      octets' = octets) := by
  constructor
  · intro message code herror herror' hother
    cases hread : AsRequest.read message with
    | error cause =>
      -- What cannot be read is answered without a look at anything but the configuration.
      have hanswer := herror.1
      have hanswer' := herror'.1
      have hrejection : s'.rejection clock.received.wholeSecond cause =
          s.rejection clock.received.wholeSecond cause := by
        unfold rejection writeRefusal
        rw [hconfig]
      rw [answer_of_unreadable s clock hread] at hanswer
      rw [answer_of_unreadable s' clock hread, hrejection] at hanswer'
      exact Except.ok.inj (hanswer'.symm.trans hanswer)
    | ok request =>
      obtain ⟨r, hr, hwritten, rfl⟩ := herror.refused hread
      obtain ⟨r', hr', hwritten', hcode⟩ := herror'.refused hread
      have htext := eText_eq_of_code hconfig hr hr' hcode hother
      have hdata : r.code ≠ 25 := fun h => hother (h ▸ by decide)
      rw [writeRefusal_congr hconfig _ rfl rfl hcode htext hdata] at hwritten'
      exact Except.ok.inj (hwritten'.symm.trans hwritten)
  · intro message message' request request' hread hread' hsame herror herror'
    obtain ⟨r, -, hwritten, hcode⟩ := herror.refused hread
    obtain ⟨r', -, hwritten', hcode'⟩ := herror'.refused hread'
    have hcodes : r'.code = r.code := hcode'.trans hcode.symm
    have htext := Refusal.eText_of_discreet (Refusal.discreet_of_code hcode) hcodes
      (by rw [hcode]; decide)
    have hcname : request'.cname = request.cname := congrArg (fun q => q.cname) hsame
    have hsname : request'.sname = request.sname := congrArg (fun q => q.sname) hsame
    have hdata : r.code ≠ 25 := by rw [hcode]; decide
    rw [writeRefusal_congr hconfig _ hcname hsname hcodes htext hdata] at hwritten'
    exact Except.ok.inj (hwritten'.symm.trans hwritten)

/-- A directory that knows nobody and one that has failed make for the same error message, and
    so do a proof that is no encrypted data and one under another key. -/
theorem error_answers_alike_at_noon :
    let empty : Service := { Sample.service with directory := fun _ _ => .ok none }
    let broken : Service := { Sample.service with directory := fun _ _ => .error (.backend "") }
    (∃ octets, empty.AnswersError Sample.noon (Ledger.start {}) Sample.message octets 6 ∧
      broken.AnswersError Sample.noon (Ledger.start {}) Sample.message octets 6) ∧
    ∃ octets,
      Sample.service.AnswersError Sample.noon (Ledger.start {}) (Sample.messageWith []) octets 31 ∧
      Sample.service.AnswersError Sample.noon (Ledger.start {})
        (Sample.messageWith Sample.forgedProof) octets 31 := by
  intro empty broken
  constructor
  · have hread : AsRequest.read Sample.message = .ok Sample.request := by decide +kernel
    have hempty : ((empty.handle Sample.noon Sample.request).runOn (Ledger.start {})).1 =
        .error (.refused (.unknownClient (.notFound (.principal "PW13")))) := by decide +kernel
    have hbroken : ((broken.handle Sample.noon Sample.request).runOn (Ledger.start {})).1 =
        .error (.refused (.unknownClient
          (.lookupFailed (.principal "PW13") (.backend "")))) := by decide +kernel
    obtain ⟨octets, hoctets⟩ := exists_answersError Sample.noon hread hempty (by decide +kernel)
    obtain ⟨octets', hoctets'⟩ := exists_answersError Sample.noon hread hbroken (by decide +kernel)
    have hconfig : broken.config = empty.config := rfl
    cases (error_answers_alike hconfig).1 _ _ hoctets hoctets' (by decide)
    exact ⟨octets, hoctets, hoctets'⟩
  · have hread : AsRequest.read (Sample.messageWith []) = .ok (Sample.requestWith []) := by
      decide +kernel
    have hread' : AsRequest.read (Sample.messageWith Sample.forgedProof) =
        .ok (Sample.requestWith Sample.forgedProof) := by decide +kernel
    have hclosed : ((Sample.service.handle Sample.noon (Sample.requestWith [])).runOn
        (Ledger.start {})).1 = .error (.refused (.badIntegrity (.malformed .malformed))) := by
      decide +kernel
    have hforged : ((Sample.service.handle Sample.noon
        (Sample.requestWith Sample.forgedProof)).runOn (Ledger.start {})).1 =
          .error (.refused (.badIntegrity (.undecryptable (.integrity .integrityCheck)))) := by
      decide +kernel
    obtain ⟨octets, hoctets⟩ := exists_answersError Sample.noon hread hclosed (by decide +kernel)
    obtain ⟨octets', hoctets'⟩ := exists_answersError Sample.noon hread' hforged (by decide +kernel)
    have hsame : (Sample.requestWith Sample.forgedProof).redacted =
        (Sample.requestWith []).redacted := by decide +kernel
    cases (error_answers_alike rfl).2 _ _ _ _ hread hread' hsame hoctets hoctets'
    exact ⟨octets, hoctets, hoctets'⟩

end Service

end Kerberos
