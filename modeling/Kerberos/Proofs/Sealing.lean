import Kerberos.Proofs.Ciphertexts
import Kerberos.Proofs.Concealment
import Kerberos.Proofs.Grant

/-! # What an exchange draws and seals

    An exchange draws one session key at most, and encrypts twice at most: the ticket under
    the key of the service, then the reply under the key of the client.  `Service.Sealing`
    lists how far it may come and says in each case what was drawn and what was encrypted
    under which key.  Both plaintexts hold the key that was drawn in the same exchange, and
    the session keys of a run come from different calls to the cipher.

    Which calls were made, and with what result, follows the exchange part by part
    (`Exchange.Traces`).
-/

namespace Kerberos

/-! ## Calls to the cipher -/

/-- The call asks the cipher for something that takes randomness. -/
def Call.isCipher (call : Call) : Bool := call.isRandomKey || call.isEncrypt

/-- Calls that have to do with the client alone are of another sort. -/
theorem Call.ConcernsClient.not_cipher {call : Call} (h : call.ConcernsClient) :
    call.isCipher = false := by
  cases call with
  | lookup _ _ | verifyOtp _ _ => rfl
  | randomKey _ | encrypt _ _ _ => exact absurd h id

namespace Ledger

/-- The calls that asked the cipher for something that takes randomness. -/
def cipherCalls (l : Ledger) : List Call := l.calls.filter Call.isCipher

/-- How many session keys have been drawn. -/
def drawn (l : Ledger) : Nat := l.calls.countP Call.isRandomKey

/-- How many plaintexts have been encrypted. -/
def encrypted (l : Ledger) : Nat := l.calls.countP Call.isEncrypt

/-- Nothing is lost on counts that are about such calls. -/
theorem countP_calls (l : Ledger) {sort : Call → Bool}
    (h : ∀ call, sort call = true → call.isCipher = true) :
    l.calls.countP sort = l.cipherCalls.countP sort := by
  unfold cipherCalls
  rw [List.countP_filter]
  apply List.countP_congr
  intro call _
  simpa using h call

theorem drawn_eq (l : Ledger) : l.drawn = l.cipherCalls.countP Call.isRandomKey :=
  l.countP_calls fun call h => by simp [Call.isCipher, h]

theorem encrypted_eq (l : Ledger) : l.encrypted = l.cipherCalls.countP Call.isEncrypt :=
  l.countP_calls fun call h => by simp [Call.isCipher, h]

theorem cipherCalls_noting (l : Ledger) {call : Call} (h : call.isCipher = true) :
    (l.noting call).cipherCalls = l.cipherCalls ++ [call] := by
  simp [cipherCalls, h]

theorem drawn_of_eq {l l' : Ledger} (h : l'.cipherCalls = l.cipherCalls) :
    l'.drawn = l.drawn := by
  rw [drawn_eq, drawn_eq, h]

/-- The counts go on with the calls that are added. -/
theorem drawn_of_append {l l' : Ledger} {made : List Call}
    (h : l'.cipherCalls = l.cipherCalls ++ made) :
    l'.drawn = l.drawn + made.countP Call.isRandomKey := by
  rw [drawn_eq, drawn_eq, h, List.countP_append]

theorem encrypted_of_append {l l' : Ledger} {made : List Call}
    (h : l'.cipherCalls = l.cipherCalls ++ made) :
    l'.encrypted = l.encrypted + made.countP Call.isEncrypt := by
  rw [encrypted_eq, encrypted_eq, h, List.countP_append]

end Ledger

namespace Exchange

variable {α β : Type}

/-! ## Calls and results together -/

/-- From the ledger `l`, the calls that the part makes to the cipher and the result that it
    comes to satisfy `post`. -/
def Traces (x : Exchange α) (l : Ledger)
    (post : Except (Failure Refusal) α → List Call → Prop) : Prop :=
  ∃ made, (x.runOn l).2.cipherCalls = l.cipherCalls ++ made ∧ post (x.runOn l).1 made

namespace Traces

variable {l : Ledger} {post : Except (Failure Refusal) α → List Call → Prop}

theorem of_cipherCalls_eq {x : Exchange α} (hcalls : (x.runOn l).2.cipherCalls = l.cipherCalls)
    (h : post (x.runOn l).1 []) : x.Traces l post := by
  refine ⟨[], ?_, h⟩
  rw [hcalls, List.append_nil]

theorem pure {a : α} (h : post (.ok a) []) : Traces (Pure.pure a) l post :=
  of_cipherCalls_eq rfl h

theorem refuse {r : Refusal} (h : post (.error (.refused r)) []) :
    Traces (Exchange.refuse r) l post :=
  of_cipherCalls_eq rfl h

theorem mono {x : Exchange α} {post' : Except (Failure Refusal) α → List Call → Prop}
    (hx : x.Traces l post) (h : ∀ result made, post result made → post' result made) :
    x.Traces l post' := by
  obtain ⟨made, hmade, hpost⟩ := hx
  exact ⟨made, hmade, h _ made hpost⟩

/-- A part that makes other calls only. -/
theorem of_makes {x : Exchange α} (hx : x.Makes fun call => call.isCipher = false)
    (h : ∀ result l', x.runOn l = (result, l') → post result []) : x.Traces l post := by
  refine of_cipherCalls_eq ?_ (h _ _ rfl)
  obtain ⟨made, hmade, hother⟩ := hx l
  have hnone : made.filter Call.isCipher = [] := by
    rw [List.filter_eq_nil_iff]
    intro call hcall
    simp [hother call hcall]
  unfold Ledger.cipherCalls
  rw [hmade, List.filter_append, hnone, List.append_nil]

/-- The second part goes on from a ledger that holds the calls of the first. -/
theorem bind {x : Exchange α} {f : α → Exchange β}
    {post : Except (Failure Refusal) β → List Call → Prop}
    (h : x.Traces l fun result made =>
      match result with
      | .error failure => post (.error failure) made
      | .ok a => ∀ l', l'.cipherCalls = l.cipherCalls ++ made →
          (f a).Traces l' fun result later => post result (made ++ later)) :
    (x >>= f).Traces l post := by
  obtain ⟨made, hmade, h⟩ := h
  rcases hrun : x.runOn l with ⟨failure | a, l'⟩
  · rw [hrun] at hmade h
    refine ⟨made, ?_, ?_⟩
    · rw [runOn_bind_of_error hrun]
      exact hmade
    · rw [runOn_bind_of_error hrun]
      exact h
  · rw [hrun] at hmade h
    obtain ⟨later, hlater, hpost⟩ := h l' hmade
    refine ⟨made ++ later, ?_, ?_⟩
    · rw [runOn_bind_of_ok hrun, hlater, hmade, List.append_assoc]
    · rw [runOn_bind_of_ok hrun]
      exact hpost

theorem guard {c : Prop} [Decidable c] {r : Refusal} {rest : Exchange α}
    (hr : post (.error (.refused r)) []) (h : rest.Traces l post) :
    Traces (if c then (Exchange.refuse r >>= fun _ : Unit => rest) else rest) l post := by
  by_cases hc : c
  · simp only [hc, ↓reduceIte]
    exact bind (refuse hr)
  · simp only [hc, ↓reduceIte]
    exact h

theorem liftM {decision : Except Refusal α} (herror : ∀ failure, post (.error failure) [])
    (hok : ∀ a, decision = .ok a → post (.ok a) []) :
    Traces (MonadLiftT.monadLift decision : Exchange α) l post := by
  cases decision with
  | error r => exact refuse (herror _)
  | ok a => exact pure (hok a rfl)

/-- Drawing a key is one call, whatever comes of it. -/
theorem drawKey {c : Cipher} {etype : EncryptionType}
    {post : Except (Failure Refusal) EncryptionKey → List Call → Prop}
    (herror : ∀ failure, post (.error failure) [.randomKey etype])
    (hok : ∀ key, c.randomKey l.drawn etype = .ok key → post (.ok key) [.randomKey etype]) :
    Traces (Exchange.drawKey c etype) l post := by
  refine ⟨[.randomKey etype], ?_, ?_⟩
  · rw [runOn_drawKey]
    exact l.cipherCalls_noting rfl
  · unfold Ledger.drawn at hok
    rw [runOn_drawKey]
    cases hkey : c.randomKey (l.calls.countP Call.isRandomKey) etype with
    | error cause => exact herror _
    | ok key => exact hok key hkey

/-- Encrypting is one call, or none if the plaintext cannot be written. -/
theorem encrypt {c : Cipher} {key : EncryptionKey} {usage : Int32} {message : Written}
    {fault : CipherError → InternalFault}
    {post : Except (Failure Refusal) EncryptedData → List Call → Prop}
    (hunwritten : ∀ failure, post (.error failure) [])
    (herror : ∀ text failure, message = .ok text →
      post (.error failure) [.encrypt key usage text])
    (hok : ∀ text data, message = .ok text →
      c.encrypt l.encrypted key usage text = .ok data →
      post (.ok data) [.encrypt key usage text]) :
    Traces (Exchange.encrypt c key usage message fault) l post := by
  cases message with
  | error failure =>
    refine of_cipherCalls_eq ?_ ?_
    · rw [runOn_encrypt_of_unwritten]
    · rw [runOn_encrypt_of_unwritten]
      exact hunwritten _
  | ok text =>
    refine ⟨[.encrypt key usage text], ?_, ?_⟩
    · rw [runOn_encrypt_of_written]
      exact l.cipherCalls_noting rfl
    · unfold Ledger.encrypted at hok
      rw [runOn_encrypt_of_written]
      cases hdata : c.encrypt (l.calls.countP Call.isEncrypt) key usage text with
      | error cause => exact herror text _ rfl
      | ok data => exact hok text data rfl hdata

end Traces
end Exchange

namespace Sample

/-- A realm that asks for no proof, with a user whose salt cannot be written. -/
def unsalted : Service :=
  { config := { timestampRequired := false }
    directory := (PrincipalTable.ofEntries [{ user with salt := some "é" }, ticketService]).directory
    cipher := .envelope, otp := none }

/-- The user asks for a ticket at noon. -/
def asking : Event := ⟨noon, .request unproven⟩

end Sample

namespace Service

open Exchange

/-! ## How far an exchange comes -/

/-- An exchange that starts from `l` admits the client, and `a` is what it knows by then: the
    negotiated encryption type, the client, and the key that comes of its proof. -/
structure Admits (s : Service) (l : Ledger) (now : Instant) (request : AsRequest)
    (a : Admitted) : Prop where
  reaches : s.Reaches request now a.toCandidate
  passes : ∃ l', (s.verifyPreAuth request a.client a.etype now).runOn
    (l.noting (.lookup .client a.cname)) = (.ok a.outcome, l')

/-- The ticket that is sealed for the client: its plaintext `part` is written as `text` and
    sealed under `key`. -/
structure SealsTicket (s : Service) (l : Ledger) (now : Instant) (request : AsRequest)
    (a : Admitted) (part : EncTicketPart) (key : EncryptionKey) (text : Octets) : Prop
    extends s.Admits l now request a where
  /-- The key is the one that the service has for the negotiated encryption type. -/
  serverKey : ∃ sname server, request.sname = some sname ∧
    s.directory sname s.config.realm = .ok (some server) ∧ server.keys.get? a.etype = some key
  /-- The session key in the ticket is the one that the exchange has drawn. -/
  sessionKey : s.cipher.randomKey l.drawn a.etype = .ok part.key
  part_eq : ∃ validity caddr,
    Validity.choose s.config request.toRequestBody now = .ok validity ∧
    clientAddresses s.config request.toRequestBody = .ok caddr ∧
    part = s.ticketPart request.toRequestBody now a.cname validity caddr part.key
      a.outcome.preAuthenticated
  written : part.write = .ok text

/-- The ticket has been sealed, and is part of what was issued. -/
structure Issues (s : Service) (l : Ledger) (now : Instant) (request : AsRequest)
    (a : Admitted) (issued : IssuedTicket) (key : EncryptionKey) (text : Octets) : Prop
    extends s.SealsTicket l now request a issued.part key text where
  realm : issued.ticket.realm = s.config.realm
  sname : request.sname = some issued.ticket.sname
  encPart : s.cipher.encrypt l.encrypted key KeyUsage.ticket text = .ok issued.ticket.encPart

/-- The part `part` of a reply, written as `text`, tells the client of the issued ticket. -/
structure SealsReply (s : Service) (l : Ledger) (request : AsRequest) (a : Admitted)
    (issued : IssuedTicket) (part : EncAsRepPart) (text : Octets) : Prop where
  part_eq : part = EncAsRepPart.ofTicket request.toRequestBody issued a.client
  /-- The session key in the reply is the one that the exchange has drawn. -/
  sessionKey : s.cipher.randomKey l.drawn a.etype = .ok part.key
  written : part.write = .ok text

/-- The calls that an exchange makes to the cipher when it starts from `l`, and what it comes
    to.  Only an exchange that has made all three ends in a reply. -/
inductive Sealing (s : Service) (l : Ledger) (now : Instant) (request : AsRequest) :
    List Call → Except (Failure Refusal) AsReply → Prop where
  | nothing (failure : Failure Refusal) : Sealing s l now request [] (.error failure)
  | drawn {etype : EncryptionType} (failure : Failure Refusal)
      (negotiated : negotiateEtype s.config request.etypes = .ok etype) :
      Sealing s l now request [.randomKey etype] (.error failure)
  | ticket {a : Admitted} {part : EncTicketPart} {key : EncryptionKey} {text : Octets}
      (failure : Failure Refusal) (hticket : s.SealsTicket l now request a part key text) :
      Sealing s l now request
        [.randomKey a.etype, .encrypt key KeyUsage.ticket text] (.error failure)
  | both {a : Admitted} {issued : IssuedTicket} {key : EncryptionKey} {text : Octets}
      {part : EncAsRepPart} {replyText : Octets} {outcome : Except (Failure Refusal) AsReply}
      (hissued : s.Issues l now request a issued key text)
      (hreply : s.SealsReply l request a issued part replyText)
      (houtcome : ∀ reply, outcome = .ok reply →
        reply.ticket = issued.ticket ∧ reply.part = part ∧
          s.cipher.encrypt (l.encrypted + 1) a.outcome.clientKey KeyUsage.asReply replyText =
            .ok reply.encPart) :
      Sealing s l now request
        [.randomKey a.etype, .encrypt key KeyUsage.ticket text,
          .encrypt a.outcome.clientKey KeyUsage.asReply replyText] outcome

variable {s : Service} {l l₁ : Ledger} {now : Instant} {request : AsRequest} {a : Admitted}

theorem issueTicket_traces {sname : PrincipalName} {server : DirectoryEntry}
    (hadmits : s.Admits l now request a) (hnamed : request.sname = some sname)
    (hfound : s.directory sname s.config.realm = .ok (some server))
    (hbefore : l₁.cipherCalls = l.cipherCalls) :
    (s.issueTicket request.toRequestBody now a.etype a.cname sname server
      a.outcome.preAuthenticated).Traces l₁ fun result made =>
        match result with
        | .error failure => s.Sealing l now request made (.error failure)
        | .ok issued => ∃ key text, s.Issues l now request a issued key text ∧
            made = [.randomKey a.etype, .encrypt key KeyUsage.ticket text] := by
  unfold issueTicket
  refine .guard (.nothing _) ?_
  refine .bind (.liftM (fun _ => .nothing _) fun validity hvalidity l₂ hl₂ => ?_)
  refine .bind (.liftM (fun _ => .nothing _) fun caddr hcaddr l₃ hl₃ => ?_)
  -- The decisions about the ticket have been made without the cipher.
  have hbefore₃ : l₃.cipherCalls = l.cipherCalls := by
    rw [hl₃, hl₂, hbefore, List.append_nil, List.append_nil]
  cases hserverKey : server.keys.get? a.etype with
  | none => exact .refuse (.nothing _)
  | some serverKey =>
    refine .bind (.drawKey (fun _ => .drawn _ hadmits.reaches.negotiated) fun key hkey l₄ hl₄ => ?_)
    let part := s.ticketPart request.toRequestBody now a.cname validity caddr key
      a.outcome.preAuthenticated
    have hseals : ∀ text, part.write = .ok text →
        s.SealsTicket l now request a part serverKey text := fun text hwritten =>
      { toAdmits := hadmits
        serverKey := ⟨sname, server, hnamed, hfound, hserverKey⟩
        sessionKey := by
          rw [Ledger.drawn_of_eq hbefore₃] at hkey
          exact hkey
        part_eq := ⟨validity, caddr, hvalidity, hcaddr, rfl⟩
        written := hwritten }
    -- A ticket that cannot be written leaves nothing behind but the key drawn for it.
    refine .bind (.encrypt (fun _ => .drawn _ hadmits.reaches.negotiated) ?_ ?_)
    · intro text failure hwritten
      exact .ticket _ (hseals text hwritten)
    · intro text data hwritten hdata l₅ hl₅
      refine .pure ⟨serverKey, text, ?_, rfl⟩
      -- Drawing the key has not changed how many plaintexts were encrypted.
      rw [hbefore₃] at hl₄
      rw [Ledger.encrypted_of_append hl₄] at hdata
      exact {
        toSealsTicket := hseals text hwritten
        realm := rfl
        sname := hnamed
        encPart := hdata }

theorem buildReply_traces {issued : IssuedTicket} {key : EncryptionKey} {text : Octets}
    {first : List Call} (hissued : s.Issues l now request a issued key text)
    (hfirst : first = [.randomKey a.etype, .encrypt key KeyUsage.ticket text])
    (hbefore : l₁.cipherCalls = l.cipherCalls ++ first) :
    (buildReply s.cipher request.toRequestBody issued s.config.realm a.cname a.client
      a.outcome.clientKey a.etype).Traces l₁ fun outcome made =>
        s.Sealing l now request (first ++ made) outcome := by
  have hencrypted : l₁.encrypted = l.encrypted + 1 := by
    rw [Ledger.encrypted_of_append hbefore, hfirst]
    rfl
  subst hfirst
  let part := EncAsRepPart.ofTicket request.toRequestBody issued a.client
  have hseals : ∀ replyText, part.write = .ok replyText →
      s.SealsReply l request a issued part replyText := by
    intro replyText hwritten
    exact ⟨rfl, hissued.sessionKey, hwritten⟩
  unfold buildReply
  refine .bind (.encrypt (fun _ => .ticket _ hissued.toSealsTicket) ?_ ?_)
  · intro replyText failure hwritten
    refine .both hissued (hseals replyText hwritten) ?_
    intro reply hreply
    cases hreply
  · intro replyText data hwritten hdata l₂ hl₂
    rw [hencrypted] at hdata
    cases hinfo : ({ etypes := [a.etype], salt := a.client.salt } : PreAuthHint).etypeInfo2 with
    | error cause =>
      -- Both ciphertexts are there, and no reply is made of them.
      refine .refuse (.both hissued (hseals replyText hwritten) ?_)
      intro reply hreply
      cases hreply
    | ok info =>
      refine .pure (.both hissued (hseals replyText hwritten) ?_)
      intro reply hreply
      cases hreply
      exact ⟨rfl, rfl, hdata⟩

theorem grant_traces (hadmits : s.Admits l now request a)
    (hbefore : l₁.cipherCalls = l.cipherCalls) :
    (s.grant request now a).Traces l₁ fun outcome made =>
      s.Sealing l now request made outcome := by
  unfold grant
  cases hnamed : request.sname with
  | none => exact .refuse (.nothing _)
  | some sname =>
    refine .bind (.of_makes (s.find_makes _ rfl) fun found l' hfind => ?_)
    cases found with
    | error failure => exact .nothing failure
    | ok server =>
      intro l₂ hl₂
      rw [List.append_nil, hbefore] at hl₂
      have hissue := issueTicket_traces hadmits hnamed (find_eq_ok hfind).1 hl₂
      refine .bind (hissue.mono fun result made hresult => ?_)
      cases result with
      | error failure => exact hresult
      | ok issued =>
        obtain ⟨key, text, hissued, hfirst⟩ := hresult
        intro l₃ hl₃
        rw [hl₂] at hl₃
        exact buildReply_traces hissued hfirst hl₃

/-- Up to the proof nothing is drawn and nothing is encrypted. -/
theorem handle_traces (s : Service) (clock : Instant) (request : AsRequest) (l : Ledger) :
    (s.handle clock request).Traces l fun outcome made =>
      s.Sealing l clock.wholeSecond request made outcome := by
  unfold handle
  have hmakes := (s.admitRequest_makes request clock.wholeSecond).mono fun _ h => h.not_cipher
  refine .bind (.of_makes hmakes fun admitted l' hadmitted => ?_)
  cases admitted with
  | error failure => exact .nothing failure
  | ok a =>
    obtain ⟨hreaches, hpasses⟩ := admitRequest_eq_ok hadmitted
    intro l₁ hl₁
    rw [List.append_nil] at hl₁
    exact grant_traces ⟨hreaches, l', hpasses⟩ hl₁

/-! ## Session keys of a run -/

theorem drawn_le_receive (s : Service) (l : Ledger) (e : Event) :
    l.drawn ≤ (s.receive l e).drawn := by
  rw [s.receive_eq]
  cases e.arrival.request? with
  | none => exact Nat.le_refl _
  | some request =>
    obtain ⟨made, hmade, -⟩ := s.handle_traces e.clock request l
    rw [Ledger.drawn_of_append hmade]
    exact Nat.le_add_right _ _

theorem drawn_le_foldl (s : Service) (l : Ledger) (later : List Event) :
    l.drawn ≤ (later.foldl s.receive l).drawn := by
  induction later generalizing l with
  | nil => exact Nat.le_refl _
  | cons e later ih => exact Nat.le_trans (s.drawn_le_receive l e) (ih _)

/-! ## Whole runs -/

/-- What arrives with `e` when the ledger is `l` has a ticket sealed with the plaintext `part`. -/
def SealsWith (s : Service) (l : Ledger) (e : Event) (part : EncTicketPart) : Prop :=
  ∃ request a key text later, e.arrival.request? = some request ∧
    s.SealsTicket l e.now request a part key text ∧
    (s.receive l e).cipherCalls = l.cipherCalls ++
      .randomKey a.etype :: .encrypt key KeyUsage.ticket text :: later

theorem SealsWith.drawn_lt {l : Ledger} {e : Event} {part : EncTicketPart}
    (h : s.SealsWith l e part) : l.drawn < (s.receive l e).drawn := by
  obtain ⟨_, _, _, _, later, -, -, hcalls⟩ := h
  rw [Ledger.drawn_of_append hcalls, List.countP_cons_of_pos rfl]
  omega

/-- An exchange that encrypts at all seals a ticket. -/
theorem Sealing.exists_sealsWith {l : Ledger} {e : Event} {request : AsRequest}
    {made : List Call} {outcome : Except (Failure Refusal) AsReply}
    (h : s.Sealing l e.now request made outcome) (hrequest : e.arrival.request? = some request)
    (hmade : (s.receive l e).cipherCalls = l.cipherCalls ++ made) (hmany : 2 ≤ made.length) :
    ∃ part, s.SealsWith l e part := by
  cases h with
  | nothing _ | drawn _ _ => simp at hmany
  | ticket _ hticket => exact ⟨_, request, _, _, _, _, hrequest, hticket, hmade⟩
  | both hissued _ _ => exact ⟨_, request, _, _, _, _, hrequest, hissued.toSealsTicket, hmade⟩

/-- In every run, what an exchange asks of its cipher is in order (`Sealing`).  If it fails,
    then it fails in the same way in the same run of a service with other ciphertexts.  And if
    it seals a ticket, the session key in there is from another call to the cipher than that
    of any ticket that is sealed later. -/
theorem sealing_in_order (s : Service) (earlier : List Event) (e : Event)
    (request : AsRequest) (hrequest : e.arrival.request? = some request) :
    ∃ made outcome,
      (s.ledgerAfter (earlier ++ [e])).cipherCalls =
        (s.ledgerAfter earlier).cipherCalls ++ made ∧
      s.outcome? (s.ledgerAfter earlier) e = some outcome ∧
      s.Sealing (s.ledgerAfter earlier) e.now request made outcome ∧
      (∀ failure, outcome = .error failure → ∀ c, s.cipher.Resembles c →
        (s.withCipher c).outcome? ((s.withCipher c).ledgerAfter earlier) e =
          some (.error failure)) ∧
      ∀ part, s.SealsWith (s.ledgerAfter earlier) e part →
        ∀ between e' part', s.SealsWith (s.ledgerAfter (earlier ++ e :: between)) e' part' →
          ∃ first second etype etype', first < second ∧
            first = (s.ledgerAfter earlier).drawn ∧
            second = (s.ledgerAfter (earlier ++ e :: between)).drawn ∧
            s.cipher.randomKey first etype = .ok part.key ∧
            s.cipher.randomKey second etype' = .ok part'.key := by
  have hreceive : s.receive (s.ledgerAfter earlier) e =
      ((s.handle e.clock request).runOn (s.ledgerAfter earlier)).2 := by
    rw [receive_eq, hrequest]
  obtain ⟨made, hmade, hsealing⟩ := s.handle_traces e.clock request (s.ledgerAfter earlier)
  refine ⟨made, _, ?_, ?_, hsealing, ?_, ?_⟩
  · rw [ledgerAfter_concat, hreceive]
    exact hmade
  · unfold outcome?
    rw [hrequest]
    rfl
  · intro failure hfailed c hc
    rw [ledgerAfter_withCipher hc]
    unfold outcome?
    rw [hrequest]
    exact congrArg some ((handle_alike hc e.clock request).error hfailed)
  · intro part hpart between e' part' hpart'
    have hlater := s.drawn_le_foldl (s.receive (s.ledgerAfter earlier) e) between
    rw [← List.foldl_cons, ← ledgerAfter_append] at hlater
    have hdrawn := hpart.drawn_lt
    obtain ⟨_, a, _, _, _, -, hticket, -⟩ := hpart
    obtain ⟨_, a', _, _, _, -, hticket', -⟩ := hpart'
    exact ⟨_, _, a.etype, a'.etype, Nat.lt_of_lt_of_le hdrawn hlater, rfl, rfl,
      hticket.sessionKey, hticket'.sessionKey⟩

/-- The user asks twice, and no reply can be put together for it.  Both times its ticket has
    been sealed by then, with two session keys, and the failure would be the same if all
    ciphertexts were empty. -/
theorem sealing_in_order_of_unsalted :
    ∃ failure part part',
      Sample.unsalted.SealsWith (Sample.unsalted.ledgerAfter []) Sample.asking part ∧
      Sample.unsalted.SealsWith (Sample.unsalted.ledgerAfter [Sample.asking]) Sample.asking part' ∧
      (Sample.unsalted.withCipher .hollow).outcome?
        ((Sample.unsalted.withCipher .hollow).ledgerAfter []) Sample.asking =
          some (.error failure) ∧
      (∃ etype, Cipher.envelope.randomKey 0 etype = .ok part.key) ∧
      ∃ etype, Cipher.envelope.randomKey 1 etype = .ok part'.key := by
  obtain ⟨made, outcome, hmade, houtcome, hsealing, hfails, hkeys⟩ :=
    sealing_in_order Sample.unsalted [] Sample.asking Sample.unproven rfl
  obtain ⟨made', _, hmade', -, hsealing', -, -⟩ :=
    sealing_in_order Sample.unsalted [Sample.asking] Sample.asking Sample.unproven rfl
  -- Each exchange adds three calls.
  have hlengths : made.length = 3 ∧ made'.length = 3 := by
    have hcount : (Sample.unsalted.ledgerAfter []).cipherCalls.length = 0 := rfl
    have hcount' : (Sample.unsalted.ledgerAfter ([] ++ [Sample.asking])).cipherCalls.length = 3 := by
      decide +kernel
    have hcount'' : (Sample.unsalted.ledgerAfter ([Sample.asking] ++
        [Sample.asking])).cipherCalls.length = 6 := by decide +kernel
    rw [hmade, List.length_append] at hcount'
    rw [hmade', List.length_append, ← List.nil_append [Sample.asking], hmade,
      List.length_append] at hcount''
    omega
  have hfailed : (Sample.unsalted.outcome? (Sample.unsalted.ledgerAfter []) Sample.asking).map
      Except.isOk = some false := by decide +kernel
  rw [houtcome] at hfailed
  cases outcome with
  | ok reply => simp [Except.isOk, Except.toBool] at hfailed
  | error failure =>
    rw [ledgerAfter_concat] at hmade hmade'
    obtain ⟨part, hpart⟩ := hsealing.exists_sealsWith rfl hmade (by omega)
    obtain ⟨part', hpart'⟩ := hsealing'.exists_sealsWith rfl hmade' (by omega)
    obtain ⟨first, second, etype, etype', -, rfl, rfl, hkey, hkey'⟩ :=
      hkeys part hpart [] Sample.asking part' hpart'
    exact ⟨failure, part, part', hpart, hpart', hfails failure rfl _ Cipher.envelope_resembles_hollow,
      ⟨etype, hkey⟩, ⟨etype', hkey'⟩⟩

end Service

end Kerberos
