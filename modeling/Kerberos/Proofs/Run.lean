import Kerberos.Proofs.FrontDoor
import Kerberos.Proofs.Issue
import Kerberos.Proofs.PreAuth

/-! # Runs of a service

    A service starts with an empty ledger and is given one thing after the other: requests,
    octets that may hold one, and messages of proxies.  Whatever comes, at most one request
    is handled at a time, and what becomes of the replay cache is told by that request alone
    (`admitRequest_of_shown`, `admitRequest_cache_of_not_shown`).
-/

namespace Kerberos

/-- What a service is given.  At its doors the clock stands at `received`. -/
inductive Arrival where
  | request (request : AsRequest)
  | message (received : Instant) (octets : Octets)
  | proxied (received : Instant) (message : ProxyMessage)

/-- Something has arrived, and it is handled while the clock stands at `clock`. -/
structure Event where
  clock : Instant
  arrival : Arrival

/-- The time that an exchange reckons with. -/
def Event.now (e : Event) : Instant := e.clock.wholeSecond

/-- The request in what arrives, if there is one. -/
def Arrival.request? : Arrival → Option AsRequest
  | request r => some r
  | message _ octets => (AsRequest.read octets).toOption
  | proxied _ m =>
    if m.kerbMessage.length < 4 then none else (AsRequest.read (m.kerbMessage.drop 4)).toOption

namespace Service

open Exchange

/-- The ledger after an event. -/
def receive (s : Service) (l : Ledger) (e : Event) : Ledger :=
  match e.arrival with
  | .request request => ((s.handle e.clock request).runOn l).2
  | .message received octets => ((s.answer ⟨received, e.clock⟩ octets).run l).2
  | .proxied received m => ((s.answerProxy ⟨received, e.clock⟩ m).run l).2

/-- What the request in an event comes to, if there is one. -/
def outcome? (s : Service) (l : Ledger) (e : Event) :
    Option (Except (Failure Refusal) AsReply) :=
  e.arrival.request?.map fun request => ((s.handle e.clock request).runOn l).1

/-- The ledger after a series of events. -/
def ledgerAfter (s : Service) (history : List Event) : Ledger :=
  history.foldl s.receive (Ledger.start s.config)

theorem ledgerAfter_append (s : Service) (history later : List Event) :
    s.ledgerAfter (history ++ later) = later.foldl s.receive (s.ledgerAfter history) :=
  List.foldl_append

theorem ledgerAfter_concat (s : Service) (history : List Event) (e : Event) :
    s.ledgerAfter (history ++ [e]) = s.receive (s.ledgerAfter history) e := by
  simp [ledgerAfter]

/-- The time at the door shows in the answer, but not in the ledger. -/
theorem answer_ledger (s : Service) (clock : Readings) (message : Octets) (l : Ledger) :
    ((s.answer clock message).run l).2 =
      match (AsRequest.read message).toOption with
      | none => l
      | some request => ((s.handle clock.handled request).runOn l).2 := by
  cases hread : AsRequest.read message with
  | error cause => rw [answer_of_unreadable s clock hread]; rfl
  | ok request => rw [answer_of_readable s clock hread]; rfl

/-- Only the request in what arrives has an effect. -/
theorem receive_eq (s : Service) (l : Ledger) (e : Event) :
    s.receive l e =
      match e.arrival.request? with
      | none => l
      | some request => ((s.handle e.clock request).runOn l).2 := by
  obtain ⟨clock, arrival⟩ := e
  cases arrival with
  | request r => rfl
  | message received octets => exact s.answer_ledger ⟨received, clock⟩ octets l
  | proxied received m =>
    -- A message too short for its own length is turned away at the door.
    simp only [receive, Arrival.request?]
    by_cases hshort : m.kerbMessage.length < 4
    · rw [s.answerProxy_of_short _ hshort]
      simp [hshort]
    · rw [s.answerProxy_ledger _ hshort, answer_ledger]
      simp [hshort]

/-! ## What a request does to the replay cache -/

theorem handle_cache (s : Service) (clock : Instant) (request : AsRequest) (l : Ledger) :
    ((s.handle clock request).runOn l).2.cache =
      ((s.admitRequest request clock.wholeSecond).runOn l).2.cache := by
  unfold handle
  rcases hadmitted : (s.admitRequest request clock.wholeSecond).runOn l with ⟨e | admitted, l'⟩
  · rw [runOn_bind_of_error hadmitted]
  · -- Behind the proof the cache is not consulted again.
    rw [runOn_bind_of_ok hadmitted, (s.grant_proofless _ _ _).cache_eq]

/-- A request that shows a timestamp passes the stage if and only if the timestamp is new to
    the replay cache, where it is entered. -/
theorem admitRequest_of_shown {s : Service} {request : AsRequest} {now : Instant} {c : Candidate}
    {key : EncryptionKey} {stamp : PaEncTimestamp} (hreaches : s.Reaches request now c)
    (hshows : s.ShowsTimestamp request now c.client c.etype key stamp) (l : Ledger) :
    (s.admitRequest request now).runOn l =
      (match (l.cache.check (stampRecord c.client stamp) now).1 with
        | .fresh => .ok ⟨c, { clientKey := key, preAuthenticated := true }⟩
        | .replay => .error (.refused (.preAuthFailed .replayed)),
      { l.noting (.lookup .client c.cname) with
        cache := (l.cache.check (stampRecord c.client stamp) now).2 }) := by
  have hverify := verifyPreAuth_of_showsTimestamp hshows (l.noting (.lookup .client c.cname))
  simp only [Ledger.noting_cache] at hverify
  unfold admitRequest
  rw [runOn_bind_of_ok (identify_of_reaches hreaches l)]
  cases hverdict : (l.cache.check (stampRecord c.client stamp) now).1 with
  | fresh =>
    simp only [hverdict] at hverify
    rw [runOn_bind_of_ok hverify]
    rfl
  | replay =>
    simp only [hverdict] at hverify
    rw [runOn_bind_of_error hverify]

/-- A request that shows no timestamp leaves the replay cache alone. -/
theorem admitRequest_cache_of_not_shown {s : Service} {request : AsRequest} {now : Instant}
    (h : ∀ c key stamp, s.Reaches request now c →
      ¬ s.ShowsTimestamp request now c.client c.etype key stamp) (l : Ledger) :
    ((s.admitRequest request now).runOn l).2.cache = l.cache := by
  have hspared := (s.identify_proofless request now).cache_eq l
  unfold admitRequest
  rcases hidentify : (s.identify request now).runOn l with ⟨e | c, l'⟩
  · rw [runOn_bind_of_error hidentify]
    rw [hidentify] at hspared
    exact hspared
  · have hreaches := identify_eq_ok hidentify
    have hstage := verifyPreAuth_of_not_shown fun key stamp => h c key stamp hreaches
    rw [runOn_bind_of_ok hidentify, (hstage.bind fun _ => .pure _).cache_eq]
    rw [hidentify] at hspared
    exact hspared

/-- A request that shows a timestamp is refused as a replay if and only if it is stopped
    there: what comes later refuses nothing because of a proof. -/
theorem handle_replayed_iff {s : Service} {clock : Instant} {request : AsRequest}
    {c : Candidate} {key : EncryptionKey} {stamp : PaEncTimestamp}
    (hreaches : s.Reaches request clock.wholeSecond c)
    (hshows : s.ShowsTimestamp request clock.wholeSecond c.client c.etype key stamp)
    (l : Ledger) :
    ((s.handle clock request).runOn l).1 = .error (.refused (.preAuthFailed .replayed)) ↔
      (l.cache.check (stampRecord c.client stamp) clock.wholeSecond).1 = .replay := by
  have hadmitted := admitRequest_of_shown hreaches hshows l
  unfold handle
  cases hverdict : (l.cache.check (stampRecord c.client stamp) clock.wholeSecond).1 with
  | replay =>
    simp only [hverdict] at hadmitted
    rw [runOn_bind_of_error hadmitted]
    simp
  | fresh =>
    simp only [hverdict] at hadmitted
    rw [runOn_bind_of_ok hadmitted]
    constructor
    · -- A refusal from behind the proof is about something else.
      intro hreplayed
      have hproofless := (s.grant_proofless _ _ _).refusal _ _ hreplayed
      cases hproofless
    · intro hreplay
      cases hreplay

end Service

end Kerberos
