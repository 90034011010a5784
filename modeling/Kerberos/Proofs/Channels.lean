import Mathlib.Data.List.Forall2
import Kerberos.Proofs.Numerals
import Kerberos.Proofs.Replay

/-! # Two channels, one service

    Requests come by themselves or in the messages of a proxy, in any mix.  A service answers
    a series of deliveries with the same octets, and keeps the same ledger at every step, as
    if all had come by themselves (`transcript_agrees`).  Both channels share the replay
    cache, so a proof that has been used on one of them is a replay on the other.
-/

namespace Kerberos

/-! ## Deliveries -/

/-- The way that a request takes to the service. -/
inductive Channel where
  | direct
  /-- In a message of a proxy, behind the length that the proxy states. -/
  | proxy (stated : UInt32) (targetDomain : Option String) (dclocatorHint : Option Octets)

/-- Octets that come to the service, and what the clock shows on their way through it. -/
structure Delivery where
  clock : Readings
  message : Octets
  channel : Channel

/-- What a delivery comes back with. -/
inductive Returned where
  | direct (answer : Written)
  | proxy (answer : Except (Failure WireError) ProxyMessage)

namespace Returned

/-- The answer without the length that stands in front of it in a message of a proxy. -/
def opened : Returned → Written
  | direct answer => answer
  | proxy answer => answer.map fun m => m.kerbMessage.drop 4

/-- A length of four octets can say how long the answer is. -/
def Small (r : Returned) : Prop := ∀ octets, r.opened = .ok octets → octets.length < 4294967296

instance (r : Returned) : Decidable r.Small :=
  decidable_of_iff (∀ octets ∈ r.opened.toOption, octets.length < 4294967296) (by
    unfold Small
    cases r.opened <;> simp [Except.toOption])

/-- The answer came back on the channel of the request.  A message of a proxy states the
    length of what follows, and repeats the other fields of the message that it answers. -/
def Fits (r : Returned) : Channel → Prop
  | .direct => ∃ answer, r = direct answer
  | .proxy _ targetDomain dclocatorHint => ∃ answer, r = proxy answer ∧ ∀ m, answer = .ok m →
      4 ≤ m.kerbMessage.length ∧
      bigEndian (m.kerbMessage.take 4) = (m.kerbMessage.drop 4).length ∧
      m.targetDomain = targetDomain ∧ m.dclocatorHint = dclocatorHint

end Returned

namespace Delivery

/-- The same octets under the same clock, without a proxy. -/
def directly (d : Delivery) : Delivery := { d with channel := .direct }

/-- What the delivery is to the service. -/
def event (d : Delivery) : Event where
  clock := d.clock.handled
  arrival :=
    match d.channel with
    | .direct => .message d.clock.received d.message
    | .proxy stated targetDomain dclocatorHint =>
      .proxied d.clock.received
        { kerbMessage := octetsOfWord stated ++ d.message, targetDomain, dclocatorHint }

end Delivery

namespace Service

/-- What comes back for a delivery, and the ledger afterwards. -/
def deliver (s : Service) (l : Ledger) (d : Delivery) : Returned × Ledger :=
  match d.event.arrival with
  | .proxied _ m => ((s.answerProxy d.clock m).run l).map .proxy id
  | _ => ((s.answer d.clock d.message).run l).map .direct id

/-- What comes back for a series of deliveries, with the ledger after each of them. -/
def transcript (s : Service) : Ledger → List Delivery → List (Returned × Ledger)
  | _, [] => []
  | l, d :: later => s.deliver l d :: s.transcript (s.deliver l d).2 later

/-! ## One delivery -/

variable {s : Service}

theorem deliver_directly (s : Service) (l : Ledger) (d : Delivery) :
    s.deliver l d.directly =
      (.direct ((s.answer d.clock d.message).run l).1, ((s.answer d.clock d.message).run l).2) :=
  rfl

theorem deliver_ledger (s : Service) (l : Ledger) (d : Delivery) :
    (s.deliver l d).2 = s.receive l d.event := by
  obtain ⟨clock, message, channel⟩ := d
  cases channel <;> rfl

/-- A message of a proxy that is long enough is answered like the octets in it. -/
theorem answerProxy_of_answer {clock : Readings} {m : ProxyMessage} {l l' : Ledger}
    {answer : Written} (hlong : 4 ≤ m.kerbMessage.length)
    (hanswer : (s.answer clock (m.kerbMessage.drop 4)).run l = (answer, l'))
    (hsmall : ∀ reply, answer = .ok reply → reply.length < 4294967296) :
    (s.answerProxy clock m).run l =
      (answer.map fun reply =>
        { m with kerbMessage := octetsOfWord (UInt32.ofNat reply.length) ++ reply }, l') := by
  have hlong : ¬ m.kerbMessage.length < 4 := by omega
  unfold answerProxy
  simp only [hlong, ↓reduceIte, StateT.run_bind, hanswer]
  cases answer with
  | error failure => rfl
  | ok reply =>
    have hsmall : ¬ 4294967296 ≤ reply.length := Nat.not_le.mpr (hsmall reply rfl)
    simp only [bind, hsmall, ↓reduceIte]
    rfl

/-- On both channels the same comes back, if its length can be told. -/
theorem deliver_agrees {l : Ledger} {d : Delivery} (hsmall : (s.deliver l d.directly).1.Small) :
    (s.deliver l d).1.opened = (s.deliver l d.directly).1.opened ∧
      (s.deliver l d).2 = (s.deliver l d.directly).2 ∧ (s.deliver l d).1.Fits d.channel := by
  obtain ⟨clock, message, channel⟩ := d
  cases channel with
  | direct => exact ⟨rfl, rfl, _, rfl⟩
  | proxy stated targetDomain dclocatorHint =>
    rw [deliver_directly] at hsmall ⊢
    simp only at hsmall ⊢
    rcases hanswer : (s.answer clock message).run l with ⟨answer, l'⟩
    rw [hanswer] at hsmall
    -- Whatever length the proxy states, the four octets of it are dropped.
    let m : ProxyMessage := ⟨octetsOfWord stated ++ message, targetDomain, dclocatorHint⟩
    have hstated := length_octetsOfWord stated
    have hlong : 4 ≤ m.kerbMessage.length := by simp [m, hstated]
    have hmessage : m.kerbMessage.drop 4 = message := List.drop_left' hstated
    rw [← hmessage] at hanswer
    have hproxied := answerProxy_of_answer hlong hanswer hsmall
    have hdeliver : s.deliver l ⟨clock, message, .proxy stated targetDomain dclocatorHint⟩ =
        ((s.answerProxy clock m).run l).map Returned.proxy id := rfl
    rw [hdeliver, hproxied]
    refine ⟨?_, rfl, _, rfl, ?_⟩
    · cases answer with
      | error failure => rfl
      | ok reply => exact congrArg Except.ok (List.drop_left' (length_octetsOfWord _))
    · intro m' hm'
      cases answer with
      | error failure => cases hm'
      | ok reply =>
        cases hm'
        have hlength := length_octetsOfWord (UInt32.ofNat reply.length)
        refine ⟨by simp [hlength], ?_, rfl, rfl⟩
        simp only [List.take_left' hlength, List.drop_left' hlength]
        rw [bigEndian_octetsOfWord]
        exact UInt32.toNat_ofNat_of_lt' (hsmall reply rfl)

/-! ## Series of deliveries -/

/-- On whichever channels the deliveries come, the answers and the ledgers are those of the
    same deliveries without a proxy. -/
theorem transcript_agrees {l : Ledger} {ds : List Delivery}
    (hsmall : ∀ step ∈ s.transcript l (ds.map Delivery.directly), step.1.Small) :
    (s.transcript l ds).map (Prod.map Returned.opened id) =
        (s.transcript l (ds.map Delivery.directly)).map (Prod.map Returned.opened id) ∧
      List.Forall₂ (fun d step => step.1.Fits d.channel) ds (s.transcript l ds) := by
  induction ds generalizing l with
  | nil => exact ⟨rfl, .nil⟩
  | cons d later ih =>
    rw [List.map_cons, transcript] at hsmall
    -- The next delivery finds the same ledger, so the rest of the series agrees as well.
    obtain ⟨hopened, hledger, hfits⟩ := deliver_agrees (hsmall _ List.mem_cons_self)
    have hrest := fun step hstep => hsmall step (List.mem_cons_of_mem _ hstep)
    rw [← hledger] at hrest
    obtain ⟨hsame, hallfit⟩ := ih hrest
    rw [List.map_cons, transcript, transcript, List.map_cons, List.map_cons, ← hledger, hsame]
    refine ⟨?_, .cons hfits hallfit⟩
    simp only [Prod.map, hopened, hledger]

/-! ## Proofs across channels -/

/-- What the service sees of a delivery is the request in its octets. -/
theorem request?_event (d : Delivery) :
    d.event.arrival.request? = (AsRequest.read d.message).toOption := by
  obtain ⟨clock, message, channel⟩ := d
  cases channel with
  | direct => rfl
  | proxy stated _ _ =>
    have hstated := length_octetsOfWord stated
    simp [Delivery.event, Arrival.request?, hstated, List.drop_left' hstated]

/-- The octets hold `request`, which shows a timestamp that the replay cache knows as
    `record`. -/
def Brings (s : Service) (d : Delivery) (request : AsRequest) (record : ReplayRecord) : Prop :=
  AsRequest.read d.message = .ok request ∧
    ∃ c key stamp, s.Reaches request d.clock.handled.wholeSecond c ∧
      s.ShowsTimestamp request d.clock.handled.wholeSecond c.client c.etype key stamp ∧
      stampRecord c.client stamp = record

theorem Accepted.append {history : List Event} {record : ReplayRecord} {t : Instant}
    (h : s.Accepted history record t) (later : List Event) :
    s.Accepted (history ++ later) record t := by
  obtain ⟨earlier, e, others, request, rfl, haccepted⟩ := h
  exact ⟨earlier, e, others ++ later, request, by simp, haccepted⟩

/-- A proof that is shown has been accepted, now or before. -/
theorem Brings.accepted {before : List Event} {d : Delivery} {request : AsRequest}
    {record : ReplayRecord} (h : s.Brings d request record)
    (hlatest : ∀ e ∈ before, e.clock ≤ d.clock.handled) :
    ∃ t, s.Accepted (before ++ [d.event]) record t := by
  obtain ⟨hread, c, key, stamp, hreaches, hshows, rfl⟩ := h
  cases hverdict : ((s.ledgerAfter before).cache.check (stampRecord c.client stamp)
    d.clock.handled.wholeSecond).1 with
  | fresh =>
    have hrequest : d.event.arrival.request? = some request := by
      rw [request?_event, hread]
      rfl
    exact ⟨_, accepted_concat_iff.mpr (.inr ⟨request, hrequest, rfl, c, key, stamp, hreaches,
      hshows, rfl, hverdict⟩)⟩
  | replay =>
    obtain ⟨t, haccepted⟩ := (check_eq_replay_iff_accepted hlatest hshows).mp hverdict
    exact ⟨t, haccepted.append _⟩

/-- A proof that has been accepted is answered as a replay. -/
theorem Brings.answer_eq {history : List Event} {d : Delivery} {request : AsRequest}
    {record : ReplayRecord} (h : s.Brings d request record)
    (hlatest : ∀ e ∈ history, e.clock ≤ d.clock.handled)
    (haccepted : ∃ t, s.Accepted history record t) :
    ((s.answer d.clock d.message).run (s.ledgerAfter history)).1 =
      s.writeRefusal d.clock.received.wholeSecond (some request) (.preAuthFailed .replayed) := by
  obtain ⟨hread, c, key, stamp, hreaches, hshows, rfl⟩ := h
  have hreplay := (check_eq_replay_iff_accepted hlatest hshows).mpr haccepted
  rw [answer_of_readable s d.clock hread,
    (handle_replayed_iff hreaches hshows (s.ledgerAfter history)).mpr hreplay]
  rfl

/-- Requests are answered alike on both channels, with the same ledger after every one of them,
    and a message of a proxy that is too short for a length is refused without any effect.  So
    a proof that was shown on one channel is a replay on the other, under a clock that does not
    go back. -/
theorem channels_agree (s : Service) (l : Ledger) (ds : List Delivery)
    (hsmall : ∀ step ∈ s.transcript l (ds.map Delivery.directly), step.1.Small) :
    (s.transcript l ds).map (Prod.map Returned.opened id) =
        (s.transcript l (ds.map Delivery.directly)).map (Prod.map Returned.opened id) ∧
      List.Forall₂ (fun d step => step.1.Fits d.channel) ds (s.transcript l ds) ∧
      (∀ clock m, m.kerbMessage.length < 4 →
        (s.answerProxy clock m).run l = (.error (.refused .malformed), l)) ∧
      ∀ (before between : List Event) (first second : Delivery) request request' record,
        (before ++ first.event :: between ++ [second.event]).Pairwise
          (fun e e' => e.clock ≤ e'.clock) →
        s.Brings first request record → s.Brings second request' record →
        (∀ octets, s.writeRefusal second.clock.received.wholeSecond (some request')
          (.preAuthFailed .replayed) = .ok octets → octets.length < 4294967296) →
        (s.deliver (between.foldl s.receive (s.deliver (s.ledgerAfter before) first).2)
          second).1.opened =
            s.writeRefusal second.clock.received.wholeSecond (some request')
              (.preAuthFailed .replayed) := by
  obtain ⟨hsame, hfits⟩ := transcript_agrees hsmall
  refine ⟨hsame, hfits, fun clock m hshort => s.answerProxy_of_short clock hshort l, ?_⟩
  intro before between first second request request' record hordered hfirst hsecond hrefusal
  obtain ⟨hordered, -, hlast⟩ := List.pairwise_append.mp hordered
  have hlatest : ∀ e ∈ before, e.clock ≤ first.clock.handled := by
    intro e he
    exact (List.pairwise_append.mp hordered).2.2 e he first.event List.mem_cons_self
  have hlatest' : ∀ e ∈ before ++ first.event :: between, e.clock ≤ second.clock.handled := by
    intro e he
    exact hlast e he second.event List.mem_cons_self
  -- Whatever happens in between, an acceptance stays part of the history.
  obtain ⟨t, haccepted⟩ := hfirst.accepted hlatest
  have haccepted' := haccepted.append between
  rw [List.append_assoc, List.singleton_append] at haccepted'
  have hanswer := hsecond.answer_eq hlatest' ⟨t, haccepted'⟩
  -- The second delivery meets the ledger of all that has happened, whichever way it comes.
  rw [deliver_ledger, ← List.foldl_cons, ← ledgerAfter_append]
  have hdirect : (s.deliver (s.ledgerAfter (before ++ first.event :: between))
      second.directly).1.opened =
        s.writeRefusal second.clock.received.wholeSecond (some request')
          (.preAuthFailed .replayed) := by
    rw [deliver_directly]
    exact hanswer
  have hsmall' : (s.deliver (s.ledgerAfter (before ++ first.event :: between))
      second.directly).1.Small := by
    intro octets hoctets
    exact hrefusal octets (hdirect ▸ hoctets)
  rw [(deliver_agrees hsmall').1]
  exact hdirect

/-- The user's request shows a timestamp, if it passes the checks ahead of it in time. -/
theorem brings_of_timely {clock : Readings} (channel : Channel)
    (hidentify : ((Sample.service.identify Sample.request clock.handled.wholeSecond).runOn
      (Ledger.start {})).1 = .ok ⟨.aes256, .principal "PW13", Sample.user⟩)
    (htimely : (clock.handled.wholeSecond - Sample.stamp.timestamp).abs ≤
      Sample.service.config.skew) :
    Sample.service.Brings ⟨clock, Sample.message, channel⟩ Sample.request
      (stampRecord Sample.user Sample.stamp) := by
  obtain ⟨l, hidentify⟩ := Exchange.exists_of_fst_eq hidentify
  obtain ⟨data, plaintext, hopens⟩ := openTimestamp_eq_ok_iff.mp
    (show Sample.service.openTimestamp Sample.userKey Sample.proof = .ok Sample.stamp by
      decide +kernel)
  have hread : AsRequest.read Sample.message = .ok Sample.request := by decide +kernel
  exact ⟨hread, _, _, _, identify_eq_ok hidentify, {
    method := rfl
    longTerm := by decide +kernel
    opens := ⟨Sample.proof, data, plaintext, by decide +kernel, hopens⟩
    timely := htimely }, rfl⟩

/-- The user's request comes by itself at noon, and a proxy brings the same octets again, when
    the clock is about to move on.  The answers are those to two requests without a proxy, and
    the second is a replay, reported at noon. -/
theorem channels_agree_at_noon :
    let first : Delivery := ⟨Sample.noon, Sample.message, .direct⟩
    let second : Delivery := ⟨⟨Sample.noon, Sample.pastNoon⟩, Sample.message,
      .proxy (.ofNat Sample.message.length) (some "EXAMPLE.COM") none⟩
    let l := Sample.service.ledgerAfter []
    (Sample.service.transcript l [first, second]).map (Prod.map Returned.opened id) =
        (Sample.service.transcript l [first, second.directly]).map (Prod.map Returned.opened id) ∧
      (Sample.service.answerProxy Sample.noon ⟨[0, 0, 0], none, none⟩).run l =
        (.error (.refused .malformed), l) ∧
      (Sample.service.deliver (Sample.service.deliver l first).2 second).1.opened =
        Sample.service.writeRefusal Sample.noon.wholeSecond (some Sample.request)
          (.preAuthFailed .replayed) := by
  intro first second l
  have hsmall : ∀ step ∈ Sample.service.transcript l ([first, second].map Delivery.directly),
      step.1.Small := by decide +kernel
  have hrefusal : ∀ octets ∈ (Sample.service.writeRefusal Sample.noon.wholeSecond
      (some Sample.request) (.preAuthFailed .replayed)).toOption, octets.length < 4294967296 := by
    decide +kernel
  obtain ⟨hsame, -, hshort, hreplayed⟩ := channels_agree Sample.service l [first, second] hsmall
  have hordered : [first.event, second.event].Pairwise fun e e' => e.clock ≤ e'.clock := by
    decide
  have hfirst : Sample.service.Brings first Sample.request _ :=
    brings_of_timely _ (by decide +kernel) (by decide +kernel)
  have hsecond : Sample.service.Brings second Sample.request _ :=
    brings_of_timely _ (by decide +kernel) (by decide +kernel)
  refine ⟨hsame, hshort _ _ (by decide), ?_⟩
  have hanswer := hreplayed [] [] first second Sample.request Sample.request _ hordered
    hfirst hsecond fun octets hoctets => hrefusal octets (by rw [hoctets]; rfl)
  rw [List.foldl_nil] at hanswer
  exact hanswer

end Service

end Kerberos
