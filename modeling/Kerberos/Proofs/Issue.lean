import Kerberos.Proofs.Admission

/-! # Behind the proof

    Once the proof is dealt with, an exchange neither consults the replay cache again nor
    refuses anything because of a proof.
-/

namespace Kerberos

open Exchange

theorem Validity.chooseStart_refusal {c : RealmConfig} {request : RequestBody} {now : Instant}
    {r : Refusal} (h : chooseStart c request now = .error r) : r = .cannotPostdate := by
  unfold chooseStart at h
  split at h
  · split at h
    · split at h <;> cases h
      rfl
    · cases h
  · cases h

theorem Validity.choose_refusal {c : RealmConfig} {request : RequestBody} {now : Instant}
    {r : Refusal} (h : choose c request now = .error r) : r.concernsProof = false := by
  unfold choose at h
  cases hstart : chooseStart c request now with
  | error r' =>
    rw [hstart] at h
    cases h
    rw [chooseStart_refusal hstart]
    rfl
  | ok start =>
    simp only [hstart, bind, Except.bind, throw, throwThe, MonadExceptOf.throw] at h
    split at h
    · cases h; rfl
    split at h
    · cases h; rfl
    split at h
    · cases h
    · split at h <;> cases h
      rfl

theorem clientAddresses_refusal {c : RealmConfig} {request : RequestBody} {r : Refusal}
    (h : clientAddresses c request = .error r) : r.concernsProof = false := by
  unfold clientAddresses at h
  split at h
  · cases h
  · split at h <;> cases h
    rfl

namespace Service

theorem issueTicket_proofless (s : Service) (request : RequestBody) (now : Instant)
    (etype : EncryptionType) (cname sname : PrincipalName) (server : DirectoryEntry)
    (preAuthenticated : Bool) :
    Proofless (s.issueTicket request now etype cname sname server preAuthenticated) := by
  unfold issueTicket
  refine .guard rfl (.bind (.liftM fun _ => Validity.choose_refusal) fun validity => ?_)
  refine .bind (.liftM fun _ => clientAddresses_refusal) fun caddr => ?_
  split
  · refine .bind (.drawKey _ _ fun _ => rfl) fun key => ?_
    exact .bind (.encrypt _ _ _ _ _ fun _ => rfl) fun _ => .pure _
  · exact .refuse rfl

theorem buildReply_proofless (cipher : Cipher) (request : RequestBody) (issued : IssuedTicket)
    (crealm : String) (cname : PrincipalName) (client : DirectoryEntry)
    (clientKey : EncryptionKey) (etype : EncryptionType) :
    Proofless (buildReply cipher request issued crealm cname client clientKey etype) := by
  unfold buildReply
  refine .bind (.encrypt _ _ _ _ _ fun _ => rfl) fun encPart => ?_
  split
  · exact .pure _
  · exact .refuse rfl

theorem grant_proofless (s : Service) (request : AsRequest) (now : Instant) (a : Admitted) :
    Proofless (s.grant request now a) := by
  unfold grant
  split
  · refine .bind (s.find_proofless .server _ fun _ => rfl) fun server => ?_
    refine .bind (s.issueTicket_proofless _ _ _ _ _ _ _) fun issued => ?_
    exact buildReply_proofless _ _ _ _ _ _ _ _
  · exact .refuse rfl

end Service

end Kerberos
