import Mathlib.Data.List.Basic
import Kerberos.Proofs.Abandonment
import Kerberos.Proofs.Calls
import Kerberos.Proofs.Envelope
import Kerberos.Proofs.Options

/-! # A client that has not proved who it is learns nothing about services

    What a request says about the client is looked at first; what it asks for is looked at
    behind the proof.  So two requests that say the same about the client
    (`AsRequest.SameClient`) go through the stages up to the proof as one and the same
    computation.  If that ends in a refusal, the requests are refused alike and leave the
    same ledger behind, whatever service they name and whatever times they want.
-/

namespace Kerberos

/-! ## Options of the ticket-granting exchange -/

namespace KdcOptions

/-- The options with all bits of `others` cleared. -/
def without (options others : KdcOptions) : KdcOptions := ⟨options.bits &&& ~~~others.bits⟩

theorem without_and (options others mask : KdcOptions) (h : mask.without others = mask) :
    options.without others &&& mask = options &&& mask := by
  have hswap : options.without others &&& mask = options &&& mask.without others := by
    apply ext
    show options.bits &&& ~~~others.bits &&& mask.bits =
      options.bits &&& (mask.bits &&& ~~~others.bits)
    rw [UInt32.and_assoc, UInt32.and_comm mask.bits]
  rw [hswap, h]

theorem contains_without (options others wanted : KdcOptions)
    (h : wanted.without others = wanted) :
    (options.without others).contains wanted = options.contains wanted := by
  unfold contains
  rw [without_and options others wanted h]

theorem intersects_without (options others mask : KdcOptions) (h : mask.without others = mask) :
    (options.without others).intersects mask = options.intersects mask := by
  unfold intersects
  rw [without_and options others mask h]

end KdcOptions

/-- Ahead of the proof nothing asks for the options of the ticket-granting exchange. -/
theorem admitOptions_without (c : RealmConfig) (options : KdcOptions) :
    admitOptions c (options.without .tgsOnly) = admitOptions c options := by
  unfold admitOptions
  rw [KdcOptions.contains_without options .tgsOnly .forwardable rfl,
    KdcOptions.contains_without options .tgsOnly .proxiable rfl,
    KdcOptions.intersects_without options .tgsOnly (.allowPostdate ||| .postdated) rfl,
    KdcOptions.contains_without options .tgsOnly .renewable rfl]

namespace Sample

/-- The user asks for a ticket without a proof. -/
def unproven : AsRequest := { request with padata := [] }

/-- The user asks for a service that does not exist, and for a renewal at that. -/
def unprovenElsewhere : AsRequest :=
  { unproven with
    sname := some (.principal "nobody"), start := some .infinity, nonce := 0, addresses := none
    options := request.options ||| .renew }

end Sample

/-! ## Requests of one client -/

/-- The requests say the same about the client.  They may name different services, want
    different times, and differ in nonce, addresses and the options of the ticket-granting
    exchange. -/
structure AsRequest.SameClient (r r' : AsRequest) : Prop where
  pvno : r'.pvno = r.pvno
  padata : r'.padata = r.padata
  cname : r'.cname = r.cname
  realm : r'.realm = r.realm
  etypes : r'.etypes = r.etypes
  options : r'.options.without .tgsOnly = r.options.without .tgsOnly

/-- The call has to do with the client alone. -/
def Call.ConcernsClient : Call → Prop
  | lookup role _ => role = .client
  | verifyOtp _ _ => True
  | randomKey _ => False
  | encrypt _ _ _ => False

namespace Service

open Exchange

variable {s : Service} {now : Instant} {request request' : AsRequest}

theorem identify_of_sameClient (h : request.SameClient request') :
    s.identify request' now = s.identify request now := by
  have hoptions : admitOptions s.config request'.options =
      admitOptions s.config request.options := by
    rw [← admitOptions_without, h.options, admitOptions_without]
  unfold identify
  rw [h.pvno, h.etypes, h.realm, h.cname, hoptions]

theorem verifyPreAuth_of_sameClient (h : request.SameClient request') (client : DirectoryEntry)
    (etype : EncryptionType) :
    s.verifyPreAuth request' client etype now = s.verifyPreAuth request client etype now := by
  have hproof : request'.proof? = request.proof? := by
    unfold AsRequest.proof?
    rw [h.padata]
  unfold verifyPreAuth verifyOtp verifyTimestamp
  rw [h.padata, hproof]

/-- Up to the proof the requests are one and the same computation. -/
theorem admitRequest_of_sameClient (h : request.SameClient request') :
    s.admitRequest request' now = s.admitRequest request now := by
  unfold admitRequest
  simp only [identify_of_sameClient h, verifyPreAuth_of_sameClient h]

/-- Up to the proof all calls have to do with the client. -/
theorem admitRequest_makes (s : Service) (request : AsRequest) (now : Instant) :
    Makes Call.ConcernsClient (s.admitRequest request now) := by
  unfold admitRequest
  refine Makes.bind ?_ fun c => Makes.bind ?_ fun _ => .pure _
  · refine (s.identify_makes request now).mono ?_
    rintro _ ⟨name, rfl⟩
    rfl
  · intro l
    rcases s.verifyPreAuth_calls request c.client c.etype now l with hnone | ⟨_, _, -, -, hone⟩
    · exact ⟨[], by rw [hnone, List.append_nil], fun call hcall => nomatch hcall⟩
    · refine ⟨_, hone, ?_⟩
      intro call hcall
      rw [List.mem_singleton.mp hcall]
      trivial

/-- A request that fails at its proof or earlier is refused, and every request that says the
    same about the client is refused for the same reason and leaves the same ledger behind.
    No service has been looked up by then, and nothing has been drawn or encrypted. -/
theorem refused_alike_up_to_proof {clock : Instant} {l l' : Ledger} {failure : Failure Refusal}
    (h : request.SameClient request')
    (hstopped : (s.admitRequest request clock.wholeSecond).runOn l = (.error failure, l')) :
    (∃ refusal, failure = .refused refusal) ∧
      (s.handle clock request).runOn l = (.error failure, l') ∧
      (s.handle clock request').runOn l = (.error failure, l') ∧
      ∃ calls, l'.calls = l.calls ++ calls ∧ ∀ call ∈ calls, call.ConcernsClient := by
  have hrefused : ∃ refusal, failure = .refused refusal := by
    cases failure with
    | refused refusal => exact ⟨refusal, rfl⟩
    | abandoned =>
      have hcompletes := s.admitRequest_completes request clock.wholeSecond l
      rw [hstopped] at hcompletes
      exact absurd rfl hcompletes
  have hcalls := s.admitRequest_makes request clock.wholeSecond l
  rw [hstopped] at hcalls
  refine ⟨hrefused, ?_, ?_, hcalls⟩
  · unfold handle
    rw [runOn_bind_of_error hstopped]
  · unfold handle
    rw [admitRequest_of_sameClient h, runOn_bind_of_error hstopped]

/-- The user sends no proof and is asked for one.  So is the same user when it asks for a
    service that does not exist, with an option of the ticket-granting exchange. -/
theorem refused_alike_up_to_proof_at_noon :
    Sample.unproven.SameClient Sample.unprovenElsewhere ∧
      ∃ l', (Sample.service.handle Sample.noon Sample.unproven).runOn (Ledger.start {}) =
          (.error (.refused (Sample.service.proofWanted Sample.user)), l') ∧
        (Sample.service.handle Sample.noon Sample.unprovenElsewhere).runOn (Ledger.start {}) =
          (.error (.refused (Sample.service.proofWanted Sample.user)), l') := by
  have hsame : Sample.unproven.SameClient Sample.unprovenElsewhere :=
    ⟨rfl, rfl, rfl, rfl, rfl, by decide⟩
  have hfailed : ((Sample.service.admitRequest Sample.unproven Sample.noon.wholeSecond).runOn
      (Ledger.start {})).1 = .error (.refused (Sample.service.proofWanted Sample.user)) := by
    decide +kernel
  rcases hrun : (Sample.service.admitRequest Sample.unproven Sample.noon.wholeSecond).runOn
    (Ledger.start {}) with ⟨outcome, l'⟩
  rw [hrun] at hfailed
  obtain rfl : outcome = _ := hfailed
  obtain ⟨-, hrefused, hrefused', -⟩ := refused_alike_up_to_proof hsame hrun
  exact ⟨hsame, l', hrefused, hrefused'⟩

end Service

end Kerberos
