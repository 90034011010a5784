import Kerberos.Proofs.Envelope
import Kerberos.Proofs.Run

/-! # A failure holds nothing of a ciphertext

    An exchange that fails behind its first sealing has a ciphertext at hand and drops it.  To
    say so, two ciphers are compared that differ in nothing but their ciphertexts
    (`Cipher.Resembles`): a service leaves the same ledgers behind with either, and fails
    alike.  `Exchange.Alike` is what the parts of the two exchanges have in common.
-/

namespace Kerberos

/-! ## Ciphers -/

/-- The ciphers give the same keys, open the same messages and fail alike.  What they make of
    a plaintext may differ. -/
structure Cipher.Resembles (c c' : Cipher) : Prop where
  randomKey : c'.randomKey = c.randomKey
  decrypt : c'.decrypt = c.decrypt
  encrypt : ∀ earlier key usage text,
    (c'.encrypt earlier key usage text).map (fun _ => ()) =
      (c.encrypt earlier key usage text).map fun _ => ()

/-- A cipher whose ciphertexts are empty. -/
def Cipher.hollow : Cipher :=
  { Cipher.envelope with
    encrypt := fun _ key _ _ => .ok { etype := key.etype.number, kvno := none, cipher := [] } }

theorem Cipher.envelope_resembles_hollow : Cipher.envelope.Resembles .hollow :=
  ⟨rfl, rfl, fun _ _ _ _ => rfl⟩

namespace Exchange

variable {α β γ δ : Type}

/-- The parts leave the same ledger behind and fail alike, and if they do not fail, their
    results have the same `look`. -/
def Alike (look : α → γ) (x x' : Exchange α) : Prop :=
  ∀ l, (x'.runOn l).1.map look = (x.runOn l).1.map look ∧ (x'.runOn l).2 = (x.runOn l).2

namespace Alike

variable {look : α → γ} {look' : β → δ} {x x' : Exchange α}

theorem refl (x : Exchange α) : Alike look x x := fun _ => ⟨rfl, rfl⟩

theorem error (h : Alike look x x') {l : Ledger} {failure : Failure Refusal}
    (hx : (x.runOn l).1 = .error failure) : (x'.runOn l).1 = .error failure := by
  have hlook := (h l).1
  rw [hx] at hlook
  cases hx' : (x'.runOn l).1 with
  | error failure' =>
    rw [hx'] at hlook
    cases hlook
    rfl
  | ok a =>
    rw [hx'] at hlook
    cases hlook

theorem bind {f f' : α → Exchange β} (hx : Alike look x x')
    (hf : ∀ a a', look a' = look a → Alike look' (f a) (f' a')) :
    Alike look' (x >>= f) (x' >>= f') := by
  intro l
  obtain ⟨hlook, hledger⟩ := hx l
  rcases hrun : x.runOn l with ⟨failure | a, l₁⟩ <;>
    rcases hrun' : x'.runOn l with ⟨failure' | a', l₁'⟩ <;>
    simp only [hrun, hrun', Except.map, Except.error.injEq, Except.ok.injEq, reduceCtorEq]
      at hlook hledger
  -- Either both first parts have failed, or the second parts go on from the same ledger.
  · rw [runOn_bind_of_error hrun, runOn_bind_of_error hrun', hlook, hledger]
    exact ⟨rfl, rfl⟩
  · rw [runOn_bind_of_ok hrun, runOn_bind_of_ok hrun', hledger]
    exact hf a a' hlook l₁

/-- A first part that is the same in both has one result. -/
theorem bind_same {f f' : α → Exchange β} (hf : ∀ a, Alike look' (f a) (f' a)) :
    Alike look' (x >>= f) (x >>= f') := by
  have hsame : Alike id x x := refl x
  apply hsame.bind
  intro a a' ha
  rw [show a' = a from ha]
  exact hf a

theorem guard {c : Prop} [Decidable c] {r : Refusal} (h : Alike look x x') :
    Alike look (if c then (Exchange.refuse r >>= fun _ : Unit => x) else x)
      (if c then (Exchange.refuse r >>= fun _ : Unit => x') else x') := by
  by_cases hc : c
  · simp only [hc, ↓reduceIte]
    exact fun l => ⟨rfl, rfl⟩
  · simp only [hc, ↓reduceIte]
    exact h

theorem encrypt {c c' : Cipher} (h : c.Resembles c') (key : EncryptionKey) (usage : Int32)
    (message : Written) (fault : CipherError → InternalFault) :
    Alike (fun _ => ()) (Exchange.encrypt c key usage message fault)
      (Exchange.encrypt c' key usage message fault) := by
  intro l
  cases message with
  | error failure =>
    rw [runOn_encrypt_of_unwritten, runOn_encrypt_of_unwritten]
    exact ⟨rfl, rfl⟩
  | ok text =>
    have hlook := h.encrypt (l.calls.countP Call.isEncrypt) key usage text
    rw [runOn_encrypt_of_written, runOn_encrypt_of_written]
    refine ⟨?_, rfl⟩
    cases hc : c.encrypt (l.calls.countP Call.isEncrypt) key usage text <;>
      cases hc' : c'.encrypt (l.calls.countP Call.isEncrypt) key usage text <;>
      rw [hc, hc'] at hlook <;> cases hlook <;> rfl

end Alike
end Exchange

namespace Service

open Exchange

/-- The service with another cipher. -/
def withCipher (s : Service) (c : Cipher) : Service := { s with cipher := c }

variable {s : Service} {c : Cipher}

/-- Admission opens messages, and seals none. -/
theorem admitRequest_withCipher (h : s.cipher.Resembles c) (request : AsRequest)
    (now : Instant) : (s.withCipher c).admitRequest request now = s.admitRequest request now := by
  have hopen : ∀ key proof,
      (s.withCipher c).openTimestamp key proof = s.openTimestamp key proof := by
    intro key proof
    unfold openTimestamp Cipher.openMessage
    rw [show (s.withCipher c).cipher.decrypt = s.cipher.decrypt from h.decrypt]
  unfold admitRequest verifyPreAuth verifyTimestamp
  simp only [hopen]
  rfl

theorem issueTicket_alike (h : s.cipher.Resembles c) (request : RequestBody) (now : Instant)
    (etype : EncryptionType) (cname sname : PrincipalName) (server : DirectoryEntry)
    (preAuthenticated : Bool) :
    Alike (fun issued => (issued.part, issued.ticket.realm, issued.ticket.sname))
      (s.issueTicket request now etype cname sname server preAuthenticated)
      ((s.withCipher c).issueTicket request now etype cname sname server preAuthenticated) := by
  have hdraw : Exchange.drawKey (s.withCipher c).cipher etype =
      Exchange.drawKey s.cipher etype := by
    unfold Exchange.drawKey
    rw [show (s.withCipher c).cipher.randomKey = s.cipher.randomKey from h.randomKey]
  unfold issueTicket
  rw [hdraw]
  refine .guard (.bind_same fun validity => .bind_same fun caddr => ?_)
  cases server.keys.get? etype with
  | none => exact .refl _
  | some serverKey =>
    apply Alike.bind_same
    intro key
    -- From here on the tickets differ, but only in what is sealed.
    exact .bind (.encrypt h _ _ _ _) fun _ _ _ _ => ⟨rfl, rfl⟩

theorem buildReply_alike (h : s.cipher.Resembles c) (request : RequestBody)
    {issued issued' : IssuedTicket} (hpart : issued'.part = issued.part)
    (hrealm : issued'.ticket.realm = issued.ticket.realm)
    (hsname : issued'.ticket.sname = issued.ticket.sname) (crealm : String)
    (cname : PrincipalName) (client : DirectoryEntry) (clientKey : EncryptionKey)
    (etype : EncryptionType) :
    Alike (fun _ => ())
      (buildReply s.cipher request issued crealm cname client clientKey etype)
      (buildReply c request issued' crealm cname client clientKey etype) := by
  have hofTicket : EncAsRepPart.ofTicket request issued' client =
      EncAsRepPart.ofTicket request issued client := by
    unfold EncAsRepPart.ofTicket
    rw [hpart, hrealm, hsname]
  unfold buildReply
  rw [hofTicket]
  refine .bind (.encrypt h _ _ _ _) fun _ _ _ => ?_
  cases ({ etypes := [etype], salt := client.salt } : PreAuthHint).etypeInfo2 with
  | error cause => exact fun _ => ⟨rfl, rfl⟩
  | ok info => exact fun _ => ⟨rfl, rfl⟩

/-- What the ciphertexts are has no influence on the ledger and on failures. -/
theorem handle_alike (h : s.cipher.Resembles c) (clock : Instant) (request : AsRequest) :
    Alike (fun _ => ()) (s.handle clock request) ((s.withCipher c).handle clock request) := by
  unfold handle
  rw [admitRequest_withCipher h]
  apply Alike.bind_same
  intro a
  unfold grant
  cases request.sname with
  | none => exact .refl _
  | some sname =>
    apply Alike.bind_same
    intro server
    apply (issueTicket_alike h _ _ _ _ _ _ _).bind
    intro issued issued' hissued
    simp only [Prod.mk.injEq] at hissued
    obtain ⟨hpart, hrealm, hsname⟩ := hissued
    exact buildReply_alike h _ hpart hrealm hsname _ _ _ _ _

theorem receive_withCipher (h : s.cipher.Resembles c) (l : Ledger) (e : Event) :
    (s.withCipher c).receive l e = s.receive l e := by
  rw [receive_eq, receive_eq]
  cases e.arrival.request? with
  | none => rfl
  | some request => exact (handle_alike h e.clock request l).2

theorem ledgerAfter_withCipher (h : s.cipher.Resembles c) (history : List Event) :
    (s.withCipher c).ledgerAfter history = s.ledgerAfter history := by
  have hreceive : (s.withCipher c).receive = s.receive := by
    funext l e
    exact receive_withCipher h l e
  unfold ledgerAfter
  rw [hreceive]
  rfl

end Service

end Kerberos
