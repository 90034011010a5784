import Kerberos.Proofs.Admission

/-! # Which calls an exchange makes

    Calls to the collaborators are entered in the ledger and never taken back, so a part of
    an exchange adds some calls at the end and no more.  `Exchange.Makes` says of which sort
    they are, and it composes.  Ahead of the proof the directory is asked for the client; the
    proof may take one call to the verifier of one-time passwords; everything else happens
    behind the proof.
-/

namespace Kerberos

namespace Exchange

variable {α β : Type} {made : Call → Prop}

/-- All calls that the part adds to the ledger are `made`. -/
def Makes (made : Call → Prop) (x : Exchange α) : Prop :=
  ∀ l, ∃ calls, (x.runOn l).2.calls = l.calls ++ calls ∧ ∀ call ∈ calls, made call

namespace Makes

theorem of_calls_eq {x : Exchange α} (h : ∀ l, (x.runOn l).2.calls = l.calls) : x.Makes made := by
  intro l
  refine ⟨[], ?_, fun call hcall => nomatch hcall⟩
  rw [h l, List.append_nil]

theorem pure (a : α) : Makes made (Pure.pure a) := of_calls_eq fun _ => rfl

theorem refuse (r : Refusal) : Makes made (Exchange.refuse r : Exchange α) :=
  of_calls_eq fun _ => rfl

theorem checkReplay (record : ReplayRecord) (now : Instant) :
    Makes made (Exchange.checkReplay record now) :=
  of_calls_eq fun _ => rfl

theorem liftM (decision : Except Refusal α) :
    Makes made (MonadLiftT.monadLift decision : Exchange α) :=
  of_calls_eq fun l => by rw [runOn_liftM]

theorem of_noting {x : Exchange α} {call : Call} (hcall : made call)
    (h : ∀ l, (x.runOn l).2 = l.noting call) : x.Makes made := by
  intro l
  refine ⟨[call], ?_, ?_⟩
  · rw [h l]
    rfl
  · intro other hother
    rw [List.mem_singleton.mp hother]
    exact hcall

theorem enter {call : Call} (h : made call) : Makes made (Exchange.enter call) :=
  of_noting h fun _ => rfl

theorem mono {other : Call → Prop} {x : Exchange α} (hx : x.Makes made)
    (h : ∀ call, made call → other call) : x.Makes other := by
  intro l
  obtain ⟨calls, hcalls, hmade⟩ := hx l
  exact ⟨calls, hcalls, fun call hcall => h call (hmade call hcall)⟩

theorem bind {x : Exchange α} {f : α → Exchange β} (hx : x.Makes made)
    (hf : ∀ a, (f a).Makes made) : (x >>= f).Makes made := by
  intro l
  obtain ⟨first, hfirst, hmade⟩ := hx l
  rcases hrun : x.runOn l with ⟨e | a, l'⟩
  · rw [hrun] at hfirst
    rw [runOn_bind_of_error hrun]
    exact ⟨first, hfirst, hmade⟩
  · rw [hrun] at hfirst
    obtain ⟨second, hsecond, hmade'⟩ := hf a l'
    rw [runOn_bind_of_ok hrun]
    refine ⟨first ++ second, ?_, ?_⟩
    · rw [hsecond, hfirst, List.append_assoc]
    · exact List.forall_mem_append.mpr ⟨hmade, hmade'⟩

theorem guard {c : Prop} [Decidable c] {r : Refusal} {rest : Exchange α}
    (h : rest.Makes made) :
    Makes made (if c then (Exchange.refuse r >>= fun _ : Unit => rest) else rest) := by
  split
  · exact (refuse r).bind fun _ => h
  · exact h

theorem drawKey (c : Cipher) {etype : EncryptionType} (h : made (.randomKey etype)) :
    Makes made (Exchange.drawKey c etype) :=
  of_noting h fun l => by rw [runOn_drawKey]

/-- Encrypting takes one call, or none if there is nothing to be encrypted. -/
theorem encrypt (c : Cipher) {key : EncryptionKey} {usage : Int32} (message : Written)
    (fault : CipherError → InternalFault)
    (h : ∀ plaintext, made (.encrypt key usage plaintext)) :
    Makes made (Exchange.encrypt c key usage message fault) := by
  cases message with
  | ok plaintext => exact of_noting (h plaintext) fun l => by rw [runOn_encrypt_of_written]
  | error failure => exact of_calls_eq fun l => by rw [runOn_encrypt_of_unwritten]

end Makes

end Exchange

namespace Service

open Exchange

/-! ## Stages -/

theorem find_makes (s : Service) {role : Role} {name : PrincipalName}
    (absent : Absence → Refusal) {made : Call → Prop} (h : made (.lookup role name)) :
    Makes made (s.find role name absent) := by
  unfold find
  refine (Makes.enter h).bind fun _ => ?_
  split
  · exact .refuse _
  · exact .refuse _
  · exact .guard (.pure _)

/-- Ahead of the proof there is no call but the look-up of the client. -/
theorem identify_makes (s : Service) (request : AsRequest) (now : Instant) :
    Makes (fun call => ∃ name, call = .lookup .client name) (s.identify request now) := by
  unfold identify
  refine .guard ((Makes.liftM _).bind fun etype => .guard ?_)
  split
  · refine (s.find_makes _ ⟨_, rfl⟩).bind fun client => ?_
    exact (Makes.liftM _).bind fun _ => (Makes.liftM _).bind fun _ => .pure _
  · exact .refuse _

/-- An encrypted timestamp is verified without a call that would be entered. -/
theorem verifyTimestamp_makes (s : Service) (request : AsRequest) (client : DirectoryEntry)
    (etype : EncryptionType) (now : Instant) :
    Makes (fun _ => False) (s.verifyTimestamp request client etype now) := by
  unfold verifyTimestamp
  split
  · split
    · exact .guard (.pure _)
    · refine (Makes.liftM _).bind fun stamp => .guard ?_
      refine (Makes.checkReplay _ _).bind fun verdict => ?_
      split
      · exact .pure _
      · exact .refuse _
  · exact .refuse _

/-- A one-time password is handed to the verifier once, if there is one in the request. -/
theorem verifyOtp_calls (s : Service) (request : AsRequest) (client : DirectoryEntry)
    (method : OtpMethod) (l : Ledger) :
    ((s.verifyOtp request client method).runOn l).2 = l ∨
      ∃ proof, request.proof? = some proof ∧
        ((s.verifyOtp request client method).runOn l).2 = l.noting (.verifyOtp method proof) := by
  unfold verifyOtp
  cases hempty : request.padata.isEmpty with
  | true => exact .inl rfl
  | false =>
    cases hproof : request.proof? with
    | none => exact .inl rfl
    | some proof =>
      cases hverifier : s.otp with
      | none => exact .inl rfl
      | some verifier =>
        refine .inr ⟨proof, rfl, ?_⟩
        simp only [Bool.false_eq_true, ↓reduceIte]
        rw [runOn_bind_of_ok (runOn_enter _ _)]
        cases verifier client method proof <;> rfl

/-- The stage makes no call, unless the client uses one-time passwords and has sent one. -/
theorem verifyPreAuth_calls (s : Service) (request : AsRequest) (client : DirectoryEntry)
    (etype : EncryptionType) (now : Instant) (l : Ledger) :
    ((s.verifyPreAuth request client etype now).runOn l).2.calls = l.calls ∨
      ∃ method proof, client.otpMethod = some method ∧ request.proof? = some proof ∧
        ((s.verifyPreAuth request client etype now).runOn l).2.calls =
          l.calls ++ [.verifyOtp method proof] := by
  cases hmethod : client.otpMethod with
  | none =>
    simp only [verifyPreAuth, PreAuthMethod.ofEntry, hmethod]
    obtain ⟨calls, hcalls, hnone⟩ := s.verifyTimestamp_makes request client etype now l
    have hempty : calls = [] := List.eq_nil_iff_forall_not_mem.mpr hnone
    rw [hempty, List.append_nil] at hcalls
    exact .inl hcalls
  | some method =>
    simp only [verifyPreAuth, PreAuthMethod.ofEntry, hmethod]
    rcases s.verifyOtp_calls request client method l with hnone | ⟨proof, hproof, hone⟩
    · exact .inl (congrArg Ledger.calls hnone)
    · exact .inr ⟨method, proof, rfl, hproof, congrArg Ledger.calls hone⟩

theorem issueTicket_makes (s : Service) (request : RequestBody) (now : Instant)
    (etype : EncryptionType) (cname sname : PrincipalName) (server : DirectoryEntry)
    (preAuthenticated : Bool) :
    Makes (fun call => call.isOtp = false)
      (s.issueTicket request now etype cname sname server preAuthenticated) := by
  unfold issueTicket
  refine .guard ((Makes.liftM _).bind fun validity => (Makes.liftM _).bind fun caddr => ?_)
  split
  · refine (Makes.drawKey _ (by rfl)).bind fun key => ?_
    exact (Makes.encrypt _ _ _ fun _ => by rfl).bind fun _ => .pure _
  · exact .refuse _

theorem buildReply_makes (cipher : Cipher) (request : RequestBody) (issued : IssuedTicket)
    (crealm : String) (cname : PrincipalName) (client : DirectoryEntry)
    (clientKey : EncryptionKey) (etype : EncryptionType) :
    Makes (fun call => call.isOtp = false)
      (buildReply cipher request issued crealm cname client clientKey etype) := by
  unfold buildReply
  refine (Makes.encrypt _ _ _ fun _ => by rfl).bind fun encPart => ?_
  split
  · exact .pure _
  · exact .refuse _

/-- Behind the proof no one-time password is verified. -/
theorem grant_makes (s : Service) (request : AsRequest) (now : Instant) (a : Admitted) :
    Makes (fun call => call.isOtp = false) (s.grant request now a) := by
  unfold grant
  split
  · refine (s.find_makes _ (by rfl)).bind fun server => ?_
    refine (s.issueTicket_makes _ _ _ _ _ _ _).bind fun issued => ?_
    exact buildReply_makes _ _ _ _ _ _ _ _
  · exact .refuse _

end Service

end Kerberos
