import Kerberos.Proofs.Writing
import Kerberos.Proofs.Grant
import Kerberos.Proofs.Received
import Kerberos.Proofs.Validity

/-! # No exchange is abandoned

    An exchange is abandoned when a time before year 0 is about to be written.  The times of
    a ticket come from the clock, from the request, or from sums of them with configured
    spans, and those of a reply also from the directory.  Where none of these lies before
    year 0, every exchange comes to a reply or to a refusal.
-/

namespace Kerberos

/-! ## Computations that are not abandoned -/

section failures
variable {ε α β : Type}

/-- The outcome is a value or a refusal. -/
def NotAbandoned (x : Except (Failure ε) α) : Prop := x ≠ .error .abandoned

theorem NotAbandoned.ok (a : α) : NotAbandoned (.ok a : Except (Failure ε) α) :=
  fun h => nomatch h

theorem NotAbandoned.lift (x : Except ε α) :
    NotAbandoned (MonadLiftT.monadLift x : Except (Failure ε) α) := by
  cases x with
  | ok a => exact NotAbandoned.ok a
  | error e => exact fun h => nomatch h

theorem NotAbandoned.bind {x : Except (Failure ε) α} {f : α → Except (Failure ε) β}
    (hx : NotAbandoned x) (hf : ∀ a, NotAbandoned (f a)) : NotAbandoned (x >>= f) := by
  cases x with
  | ok a => exact hf a
  | error e => exact fun h => hx (by cases h; rfl)

theorem NotAbandoned.mapM_option {f : α → Except (Failure ε) β} {o : Option α}
    (h : ∀ a, o = some a → NotAbandoned (f a)) : NotAbandoned (o.mapM f) := by
  cases o with
  | none => exact NotAbandoned.ok none
  | some a => exact (h a rfl).bind fun b => NotAbandoned.ok (some b)

theorem NotAbandoned.mapM_list {f : α → Except (Failure ε) β} {as : List α}
    (h : ∀ a ∈ as, NotAbandoned (f a)) : NotAbandoned (as.mapM f) := by
  induction as with
  | nil => exact NotAbandoned.ok []
  | cons a as ih =>
    rw [List.mapM_cons]
    refine (h a List.mem_cons_self).bind fun b => ?_
    exact (ih fun a ha => h a (List.mem_cons_of_mem _ ha)).bind fun bs => NotAbandoned.ok (b :: bs)

end failures

theorem notAbandoned_time {t : Instant} (h : t.Expressible) : NotAbandoned (Wire.time t) := by
  rw [Wire.time_of_expressible h]
  exact NotAbandoned.ok _

/-! ## The sealed parts -/

theorem EncTicketPart.Timed.write {p : EncTicketPart} (h : p.Timed) : NotAbandoned p.write := by
  unfold EncTicketPart.write
  refine (NotAbandoned.lift _).bind fun _ => (NotAbandoned.lift _).bind fun _ => ?_
  refine (notAbandoned_time h.authTime).bind fun _ => ?_
  refine (NotAbandoned.mapM_option fun t ht => notAbandoned_time (h.startTime t ht)).bind fun _ => ?_
  refine (notAbandoned_time h.endTime).bind fun _ => ?_
  refine (NotAbandoned.mapM_option fun t ht => notAbandoned_time (h.renewTill t ht)).bind fun _ => ?_
  exact NotAbandoned.ok _

/-- What the directory says about the times of an account can be written. -/
structure DirectoryEntry.Timed (e : DirectoryEntry) : Prop where
  expiration : ∀ t, e.expiration = some t → t.Expressible
  lastSuccessfulAuth : ∀ t, e.lastSuccessfulAuth = some t → t.Expressible

theorem notAbandoned_replyPart {request : RequestBody} {issued : IssuedTicket}
    {client : DirectoryEntry} (hpart : issued.part.Timed) (hclient : client.Timed) :
    NotAbandoned (EncAsRepPart.ofTicket request issued client).write := by
  have hlast : ∀ r ∈ (EncAsRepPart.ofTicket request issued client).lastReq,
      NotAbandoned (Wire.lastRequest r) := by
    intro r hr
    obtain ⟨t, ht, rfl⟩ := List.mem_map.mp hr
    have htime := hclient.lastSuccessfulAuth t (Option.mem_toList.mp ht)
    exact (notAbandoned_time htime).bind fun _ => NotAbandoned.ok _
  have hrenewTill : ∀ t, (EncAsRepPart.ofTicket request issued client).renewTill = some t →
      t.Expressible := by
    intro t ht
    simp only [EncAsRepPart.ofTicket] at ht
    split at ht
    · exact hpart.renewTill t ht
    · cases ht
  unfold EncAsRepPart.write
  refine (NotAbandoned.mapM_list hlast).bind fun _ => ?_
  refine (NotAbandoned.mapM_option fun t ht => notAbandoned_time (hclient.expiration t ht)).bind
    fun _ => ?_
  refine (notAbandoned_time hpart.authTime).bind fun _ => ?_
  refine (NotAbandoned.mapM_option fun t ht => notAbandoned_time (hpart.startTime t ht)).bind
    fun _ => ?_
  refine (notAbandoned_time hpart.endTime).bind fun _ => ?_
  refine (NotAbandoned.mapM_option fun t ht => notAbandoned_time (hrenewTill t ht)).bind fun _ => ?_
  refine (NotAbandoned.lift _).bind fun _ => (NotAbandoned.lift _).bind fun _ => ?_
  exact NotAbandoned.ok _

/-! ## Validity periods -/

theorem Instant.expressible_infinity : infinity.Expressible := by
  rw [expressible_iff]
  decide

theorem Instant.Expressible.min {s t : Instant} (hs : s.Expressible) (ht : t.Expressible) :
    (min s t).Expressible := by
  show (if s ≤ t then s else t).Expressible
  split
  · exact hs
  · exact ht

/-- A later instant is no less expressible. -/
theorem Instant.Expressible.addCapped {t : Instant} (ht : t.Expressible) {d : Duration}
    (hd : 0 ≤ d.nanos) : (t.addCapped d).Expressible := by
  have hinfinity : infinity.nanos = 253402300799000000000 := rfl
  rw [expressible_iff] at ht ⊢
  rw [nanos_addCapped t hd]
  omega

/-- All times of the period can be written. -/
structure Validity.Timed (v : Validity) : Prop where
  startTime : v.startTime.Expressible
  endTime : v.endTime.Expressible
  renewTill : ∀ t, v.renewTill = some t → t.Expressible

theorem Validity.wantedRenewal_expressible {c : RealmConfig} {request : RequestBody}
    {endTime wanted : Instant} (hrequest : request.Writable)
    (h : wantedRenewal c request endTime = some wanted) : wanted.Expressible := by
  -- The wanted end comes from the request, or stands for an end that is left open.
  by_cases hsettles : request.SettlesForRenewals endTime ∧ c.renewableAllowed = true
  · rw [wantedRenewal_of_settles hsettles.1 hsettles.2] at h
    exact hrequest.till wanted h
  · rw [wantedRenewal_of_not_settles hsettles] at h
    unfold wantedRenewal.asked at h
    split at h
    · cases h
      cases hrtime : request.rtime with
      | none => exact Instant.expressible_infinity
      | some rtime => exact hrequest.rtime rtime hrtime
    · cases h

/-- A period starts now or when the request wants it to. -/
theorem Validity.Chosen.start_expressible {c : RealmConfig} {request : RequestBody}
    {now : Instant} {v : Validity} (hnow : now.Expressible) (hrequest : request.Writable)
    (h : v.Chosen c request now) : v.startTime.Expressible := by
  by_cases hlate : request.StartsLate c now
  · exact hrequest.start v.startTime (h.of_late hlate).2.2
  · rw [(h.of_not_late hlate).2]
    exact hnow

theorem Validity.choose_timed {c : RealmConfig} {request : RequestBody} {now : Instant}
    {v : Validity} (hnow : now.Expressible) (hrequest : request.Writable)
    (h : choose c request now = .ok v) : v.Timed := by
  have hchosen := choose_eq_ok h
  have hstart := hchosen.start_expressible hnow hrequest
  constructor
  · exact hstart
  · -- A ticket that is granted does not end before it starts.
    exact hstart.of_le hchosen.ordered
  · intro t ht
    rw [hchosen.renewTill] at ht
    obtain ⟨wanted, hwanted, rfl⟩ := Option.map_eq_some_iff.mp ht
    exact (wantedRenewal_expressible hrequest hwanted).min
      (hstart.addCapped (Duration.ofConfigured_nonneg _))

/-! ## Exchanges -/

namespace Exchange

variable {α β : Type}

/-- The part comes to an end, in a value or a refusal. -/
def Completes (x : Exchange α) : Prop := ∀ l, NotAbandoned (x.runOn l).1

theorem Completes.pure (a : α) : Completes (Pure.pure a) := fun _ => NotAbandoned.ok a

theorem Completes.refuse (r : Refusal) : Completes (Exchange.refuse r : Exchange α) :=
  fun _ h => nomatch h

theorem Completes.enter (call : Call) : Completes (Exchange.enter call) :=
  fun _ => NotAbandoned.ok ()

theorem Completes.checkReplay (record : ReplayRecord) (now : Instant) :
    Completes (Exchange.checkReplay record now) := fun _ => NotAbandoned.ok _

theorem Completes.liftM (decision : Except Refusal α) :
    Completes (MonadLiftT.monadLift decision : Exchange α) := by
  cases decision with
  | ok a => exact pure a
  | error r => exact refuse r

/-- The second part need only come to an end for what the first part can come to. -/
theorem Completes.bind {x : Exchange α} {f : α → Exchange β} (hx : x.Completes)
    (hf : ∀ a l l', x.runOn l = (.ok a, l') → (f a).Completes) : (x >>= f).Completes := by
  intro l
  have hfirst := hx l
  rcases hrun : x.runOn l with ⟨e | a, l'⟩
  · rw [runOn_bind_of_error hrun]
    rw [hrun] at hfirst
    intro h
    cases h
    exact hfirst rfl
  · rw [runOn_bind_of_ok hrun]
    exact hf a l l' hrun l'

theorem Completes.guard {c : Prop} [Decidable c] {r : Refusal} {rest : Exchange α}
    (h : rest.Completes) :
    Completes (if c then (Exchange.refuse r >>= fun _ : Unit => rest) else rest) := by
  split
  · exact (refuse r).bind fun _ _ _ _ => h
  · exact h

theorem Completes.drawKey (c : Cipher) (etype : EncryptionType) :
    Completes (Exchange.drawKey c etype) := by
  intro l
  rw [runOn_drawKey]
  cases c.randomKey (l.calls.countP Call.isRandomKey) etype <;> exact fun h => nomatch h

theorem Completes.encrypt (c : Cipher) (key : EncryptionKey) (usage : Int32) {message : Written}
    (fault : CipherError → InternalFault) (h : NotAbandoned message) :
    Completes (Exchange.encrypt c key usage message fault) := by
  intro l
  cases message with
  | ok plaintext =>
    rw [runOn_encrypt_of_written]
    cases c.encrypt (l.calls.countP Call.isEncrypt) key usage plaintext <;> exact fun h => nomatch h
  | error failure =>
    rw [runOn_encrypt_of_unwritten]
    cases failure with
    | refused cause => exact fun h => nomatch h
    | abandoned => exact absurd rfl h

end Exchange

namespace Service

open Exchange

theorem find_completes (s : Service) (role : Role) (name : PrincipalName)
    (absent : Absence → Refusal) : Completes (s.find role name absent) := by
  unfold find
  refine (Completes.enter _).bind fun _ _ _ _ => ?_
  split
  · exact .refuse _
  · exact .refuse _
  · exact .guard (.pure _)

theorem identify_completes (s : Service) (request : AsRequest) (now : Instant) :
    Completes (s.identify request now) := by
  unfold identify
  refine .guard ((Completes.liftM _).bind fun etype _ _ _ => .guard ?_)
  split
  · refine (s.find_completes _ _ _).bind fun client _ _ _ => ?_
    refine (Completes.liftM _).bind fun _ _ _ _ => ?_
    exact (Completes.liftM _).bind fun _ _ _ _ => .pure _
  · exact .refuse _

theorem verifyPreAuth_completes (s : Service) (request : AsRequest) (client : DirectoryEntry)
    (etype : EncryptionType) (now : Instant) :
    Completes (s.verifyPreAuth request client etype now) := by
  unfold verifyPreAuth
  split
  · unfold verifyOtp
    refine .guard ?_
    split
    · split
      · refine (Completes.enter _).bind fun _ _ _ _ => ?_
        split
        · exact .pure _
        · exact .refuse _
      · exact .refuse _
    · exact .refuse _
  · unfold verifyTimestamp
    split
    · split
      · exact .guard (.pure _)
      · refine (Completes.liftM _).bind fun stamp _ _ _ => .guard ?_
        refine (Completes.checkReplay _ _).bind fun verdict _ _ _ => ?_
        split
        · exact .pure _
        · exact .refuse _
    · exact .refuse _

theorem admitRequest_completes (s : Service) (request : AsRequest) (now : Instant) :
    Completes (s.admitRequest request now) := by
  unfold admitRequest
  refine (s.identify_completes _ _).bind fun c _ _ _ => ?_
  exact (s.verifyPreAuth_completes _ _ _ _).bind fun _ _ _ _ => .pure _

/-- The times of a ticket come from the clock and the request. -/
theorem ticketPart_timed {s : Service} {request : RequestBody} {now : Instant}
    {cname : PrincipalName} {validity : Validity} {caddr : Option (List HostAddress)}
    {sessionKey : EncryptionKey} {preAuthenticated : Bool} (hnow : now.Expressible)
    (hvalidity : validity.Timed) :
    (s.ticketPart request now cname validity caddr sessionKey preAuthenticated).Timed where
  authTime := hnow
  startTime := by
    intro t ht
    cases ht
    exact hvalidity.startTime
  endTime := hvalidity.endTime
  renewTill := hvalidity.renewTill

theorem issueTicket_completes (s : Service) {request : RequestBody} {now : Instant}
    (etype : EncryptionType) (cname sname : PrincipalName) (server : DirectoryEntry)
    (preAuthenticated : Bool) (hnow : now.Expressible) (hrequest : request.Writable) :
    Completes (s.issueTicket request now etype cname sname server preAuthenticated) := by
  unfold issueTicket
  refine .guard ((Completes.liftM _).bind fun validity l l' hvalidity => ?_)
  rw [runOn_liftM, Prod.mk.injEq, mapError_eq_ok_iff] at hvalidity
  have htimed := Validity.choose_timed hnow hrequest hvalidity.1
  refine (Completes.liftM _).bind fun caddr _ _ _ => ?_
  split
  · refine (Completes.drawKey _ _).bind fun key _ _ _ => ?_
    refine (Completes.encrypt _ _ _ _ ?_).bind fun _ _ _ _ => .pure _
    exact (ticketPart_timed hnow htimed).write
  · exact .refuse _

theorem grant_completes (s : Service) {request : AsRequest} {now : Instant} {a : Admitted}
    (hnow : now.Expressible) (hrequest : request.toRequestBody.Writable) (hclient : a.client.Timed) :
    Completes (s.grant request now a) := by
  unfold grant
  split
  · refine (s.find_completes _ _ _).bind fun server _ _ _ => ?_
    refine (s.issueTicket_completes _ _ _ _ _ hnow hrequest).bind fun issued l l' hissued => ?_
    obtain ⟨-, validity, caddr, serverKey, sessionKey, plaintext, hvalidity, -, -, -, hpart, -⟩ :=
      issueTicket_eq_ok hissued
    have htimed : issued.part.Timed := by
      rw [hpart]
      exact ticketPart_timed hnow (Validity.choose_timed hnow hrequest hvalidity)
    unfold buildReply
    refine (Completes.encrypt _ _ _ _ (notAbandoned_replyPart htimed hclient)).bind
      fun _ _ _ _ => ?_
    split
    · exact .pure _
    · exact .refuse _
  · exact .refuse _

/-- An exchange comes to a reply or a refusal, if the clock, the request and the directory
    know no time before year 0. -/
theorem handle_completes (s : Service) {clock : Instant} {request : AsRequest}
    (hclock : clock.Expressible) (hrequest : request.toRequestBody.Writable)
    (hdirectory : ∀ n realm e, s.directory n realm = .ok (some e) → e.Timed) :
    Completes (s.handle clock request) := by
  unfold handle
  refine (s.admitRequest_completes request _).bind fun admitted l l' hadmitted => ?_
  unfold admitRequest at hadmitted
  obtain ⟨c, l₁, hidentify, hadmitted⟩ := runOn_bind_eq_ok_iff.mp hadmitted
  obtain ⟨outcome, l₂, -, hadmitted⟩ := runOn_bind_eq_ok_iff.mp hadmitted
  cases hadmitted
  have hclient := hdirectory _ _ _ (identify_eq_ok hidentify).found
  exact s.grant_completes hclock.wholeSecond hrequest hclient

end Service

end Kerberos
