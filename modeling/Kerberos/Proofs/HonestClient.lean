import Kerberos.Proofs.Envelope
import Kerberos.Proofs.ErrorCode
import Kerberos.Proofs.PreAuth
import Kerberos.Proofs.ReplayLog
import Kerberos.Proofs.TicketRoundTrip
import Kerberos.Proofs.UnboundedValidity

/-! # Honest clients are let in

    An honest client writes its timestamp, seals it under its long-term key, and puts what it
    has sealed on the wire (`Service.Presents`).  With a cipher that opens what it seals, the
    service gets the same timestamp back (`Service.Presents.opensTo`), so all that is left to
    decide is whether the clock of the client is off by the skew at most, and whether the
    timestamp is new (`Service.Judges`).  A client whose timestamp is not let in is told so, and
    never that its timestamp could not be opened or is missing.
-/

namespace Kerberos

open Asn1

/-! ## Timestamps on the wire -/

/-- Nothing of the timestamp is lost on the wire: it is a whole second from year 0 on, and its
    microseconds are no more than there are. -/
structure PaEncTimestamp.Exact (p : PaEncTimestamp) : Prop where
  wholeSecond : p.timestamp.wholeSecond = p.timestamp
  expressible : p.timestamp.Expressible
  usec : ∀ usec, p.usec = some usec → usec ≤ maxUsec

/-- What is left of a timestamp on the wire. -/
def PaEncTimestamp.rounded (p : PaEncTimestamp) : PaEncTimestamp where
  timestamp := p.timestamp.wholeSecond
  usec := p.usec.map fun usec => min usec maxUsec

theorem PaEncTimestamp.min_maxUsec_of_le {usec : UInt32} (h : usec ≤ maxUsec) :
    min usec maxUsec = usec :=
  if_pos h

theorem PaEncTimestamp.not_maxUsec_lt_min (usec : UInt32) : ¬ maxUsec < min usec maxUsec := by
  by_cases h : usec ≤ maxUsec
  · rw [min_maxUsec_of_le h]
    exact UInt32.not_lt.mpr h
  · rw [show min usec maxUsec = maxUsec from if_neg h]
    exact UInt32.lt_irrefl maxUsec

theorem PaEncTimestamp.Exact.rounded_eq {p : PaEncTimestamp} (h : p.Exact) : p.rounded = p := by
  obtain ⟨timestamp, usec⟩ := p
  obtain ⟨hwhole, -, husec⟩ := h
  unfold rounded
  simp only at hwhole husec ⊢
  rw [hwhole]
  cases usec with
  | none => rfl
  | some usec => rw [Option.map_some, min_maxUsec_of_le (husec usec rfl)]

namespace Wire

/-- The octets of a timestamp from year 0 on. -/
def stampOctets (p : PaEncTimestamp) : Octets :=
  sequenceOf [explicit 0 (timeOctets p.timestamp),
    explicit? 1 (p.usec.map fun usec =>
      integer (Integer.ofWord (min usec PaEncTimestamp.maxUsec)))]

theorem stamp_of_expressible {p : PaEncTimestamp} (h : p.timestamp.Expressible) :
    p.write = .ok (stampOctets p) := by
  unfold PaEncTimestamp.write
  rw [time_of_expressible h]
  rfl

/-- A timestamp takes a few octets, whatever its date. -/
theorem length_stampOctets_lt (p : PaEncTimestamp) : (stampOctets p).length < sightLimit := by
  have htime : (explicit 0 (timeOctets p.timestamp)).length ≤ 21 :=
    length_element_le (length_timeOctets_le p.timestamp) (by decide)
  have husec : (explicit? 1 (p.usec.map fun usec =>
      integer (Integer.ofWord (min usec PaEncTimestamp.maxUsec)))).length ≤ 14 := by
    cases p.usec with
    | none => exact Nat.zero_le 14
    | some usec =>
      apply length_element_le _ (by decide)
      exact length_element_le (Integer.length_ofWord_le _) (by decide)
  have hstamp : (stampOctets p).length ≤ 38 := by
    apply length_element_le _ (by decide)
    rw [List.flatten_cons, List.flatten_cons, List.flatten_nil, List.append_nil,
      List.length_append]
    omega
  exact Nat.lt_of_le_of_lt hstamp (by decide)

theorem paEncTimestampReader_reads {p : PaEncTimestamp} (h : p.timestamp.Expressible) :
    paEncTimestampReader.Reads [] (stampOctets p) (.ok p.rounded) := by
  refine Reader.Reads.sequence ?_ []
  refine field_reads (timeReader_reads (by simp) h) ?_
  refine trailing_reads (fun usec _ => buffer_field rfl 1 _) ?_
  refine .pure ?_ []
  have husec : (p.usec.map fun usec =>
      Integer.ofWord (min usec PaEncTimestamp.maxUsec)).mapM (uint32 "pausec") =
        .ok p.rounded.usec := by
    unfold PaEncTimestamp.rounded
    cases p.usec with
    | none => rfl
    | some usec =>
      rw [Option.map_some, Option.mapM_some, uint32_ofWord]
      rfl
  -- What was cut to the greatest number on its way out is not too great on its way in.
  have hmost : p.rounded.usec.any (PaEncTimestamp.maxUsec < ·) = false := by
    unfold PaEncTimestamp.rounded
    cases p.usec with
    | none => rfl
    | some usec => exact decide_eq_false (PaEncTimestamp.not_maxUsec_lt_min usec)
  rw [husec, instant_civil]
  show (if p.rounded.usec.any (PaEncTimestamp.maxUsec < ·) then _ else _) = _
  rw [hmost]
  rfl

end Wire

/-- What is written of a timestamp from year 0 on is read as what is left of it. -/
theorem PaEncTimestamp.read_of_written {p : PaEncTimestamp} (h : p.timestamp.Expressible) :
    ∃ w, p.write = .ok w ∧ PaEncTimestamp.read w = .ok p.rounded := by
  have hrun := (Wire.paEncTimestampReader_reads h).run (Wire.length_stampOctets_lt p)
  refine ⟨Wire.stampOctets p, Wire.stamp_of_expressible h, ?_⟩
  unfold PaEncTimestamp.read Wire.read
  rw [hrun]

/-! ## What a client presents -/

namespace Service

/-- The first encrypted timestamp of the request is `plaintext`, sealed under `key` and written
    at a length that a reader can see past.  Before it stands anything of other kinds, and
    behind it anything at all. -/
def Presents (s : Service) (request : AsRequest) (key : EncryptionKey) (plaintext : Octets) :
    Prop :=
  ∃ sealed data before after,
    s.cipher.encrypt sealed key KeyUsage.encTimestamp plaintext = .ok data ∧
    data.write.length < sightLimit ∧
    request.padata = before ++ ⟨PaData.encTimestamp, data.write⟩ :: after ∧
    ∀ p ∈ before, p.kind ≠ PaData.encTimestamp

theorem proof?_of_padata {request : AsRequest} {before after : List PaData} {proof : Octets}
    (h : request.padata = before ++ ⟨PaData.encTimestamp, proof⟩ :: after)
    (hbefore : ∀ p ∈ before, p.kind ≠ PaData.encTimestamp) : request.proof? = some proof := by
  have hnone : (before.find? fun p => p.kind == PaData.encTimestamp) = none := by
    rw [List.find?_eq_none]
    intro p hp hkind
    exact hbefore p hp (beq_iff_eq.mp hkind)
  unfold AsRequest.proof?
  rw [h, List.find?_append, hnone, Option.none_or, List.find?_cons_of_pos (by simp)]
  rfl

/-- The service gets back what the client has sealed. -/
theorem Presents.opensTo {s : Service} {request : AsRequest} {key : EncryptionKey}
    {plaintext : Octets} (h : s.Presents request key plaintext) (hfaithful : s.cipher.Faithful)
    (hlabels : s.cipher.Labels) {stamp : PaEncTimestamp}
    (hread : PaEncTimestamp.read plaintext = .ok stamp) : s.OpensTo request key stamp := by
  obtain ⟨sealed, data, before, after, hencrypted, hsight, hpadata, hbefore⟩ := h
  have hetype := hlabels sealed key KeyUsage.encTimestamp plaintext data hencrypted
  have hdecrypted := hfaithful sealed key KeyUsage.encTimestamp plaintext data hencrypted
  exact ⟨data.write, data, plaintext, proof?_of_padata hpadata hbefore,
    EncryptedData.read_write hetype hsight, hdecrypted, hread⟩

end Service

/-! ## Clocks -/

/-- The clock of the client is ahead or behind by the skew at most. -/
structure RealmConfig.WithinSkew (c : RealmConfig) (now t : Instant) : Prop where
  behind : now.nanos - t.nanos ≤ Duration.unlimited c.skewSeconds
  ahead : t.nanos - now.nanos ≤ Duration.unlimited c.skewSeconds

/-- No two clocks are as far apart as a skew that is cut short. -/
theorem RealmConfig.withinSkew_iff {c : RealmConfig} {now t : Instant} :
    c.WithinSkew now t ↔ (now - t).abs ≤ c.skew := by
  have hnow := now.first_le
  have hnow' := now.le_last
  have ht := t.first_le
  have ht' := t.le_last
  have hcases := Duration.ofConfigured_cases c.skewSeconds
  simp only [Duration.maxSeconds, Duration.nanosPerSecond] at hcases
  -- A skew that is cut short is still longer than all the years, and both clocks lie in those.
  rw [Duration.le_iff]
  show _ ↔ ((now - t).nanos.natAbs : Int) ≤ (Duration.ofConfigured c.skewSeconds).nanos
  rw [Instant.nanos_sub]
  constructor
  · rintro ⟨hbehind, hahead⟩
    omega
  · intro hclose
    constructor
    · omega
    · omega

/-! ## Records -/

/-- The cache remembers the record, and the retention of the record has not ended. -/
def ReplayCache.HoldsLive (c : ReplayCache) (record : ReplayRecord) (now : Instant) : Prop :=
  ∃ t, (record, t) ∈ c.seen ∧ ∀ expiry, t.add? c.retention = some expiry → now ≤ expiry

theorem ReplayCache.Consistent.replay_iff_holdsLive {c : ReplayCache} (h : c.Consistent)
    {record : ReplayRecord} {now : Instant} :
    (c.check record now).1 = .replay ↔ c.HoldsLive record now := by
  rw [h.check_eq_replay_iff]
  exact exists_congr fun t => and_congr_right fun _ => ReplayCache.not_forgotten_iff

/-! ## Who is let in -/

namespace Service

/-- The client is let in if and only if its clock is off by the skew at most and the timestamp
    is not remembered.  Otherwise it is told which of the two is the matter. -/
structure Judges (s : Service) (request : AsRequest) (client : DirectoryEntry)
    (etype : EncryptionType) (key : EncryptionKey) (stamp : PaEncTimestamp) (now : Instant)
    (l : Ledger) : Prop where
  letsIn : ((s.verifyPreAuth request client etype now).runOn l).1 =
      .ok { clientKey := key, preAuthenticated := true } ↔
    s.config.WithinSkew now stamp.timestamp ∧ ¬ l.cache.HoldsLive (stampRecord client stamp) now
  outsideSkew : ¬ s.config.WithinSkew now stamp.timestamp →
    ((s.verifyPreAuth request client etype now).runOn l).1 =
      .error (.refused (.preAuthFailed .outsideSkew))
  replayed : s.config.WithinSkew now stamp.timestamp →
    l.cache.HoldsLive (stampRecord client stamp) now →
    ((s.verifyPreAuth request client etype now).runOn l).1 =
      .error (.refused (.preAuthFailed .replayed))

/-- A timestamp that opens is judged by its time and by the cache. -/
theorem OpensTo.judges {s : Service} {request : AsRequest} {client : DirectoryEntry}
    {etype : EncryptionType} {key : EncryptionKey} {stamp : PaEncTimestamp}
    (h : s.OpensTo request key stamp) (hmethod : client.otpMethod = none)
    (hkey : client.keys.get? etype = some key) (now : Instant) {l : Ledger}
    (hcache : l.cache.Consistent) : s.Judges request client etype key stamp now l := by
  have hlate : ¬ s.config.WithinSkew now stamp.timestamp →
      ((s.verifyPreAuth request client etype now).runOn l).1 =
        .error (.refused (.preAuthFailed .outsideSkew)) := by
    intro hskew
    rw [RealmConfig.withinSkew_iff, Duration.le_iff, Int.not_le, ← Duration.lt_iff] at hskew
    rw [verifyPreAuth_of_outsideSkew hmethod hkey h hskew]
  have hshows : s.config.WithinSkew now stamp.timestamp →
      s.ShowsTimestamp request now client etype key stamp :=
    fun hskew => ⟨hmethod, hkey, h, RealmConfig.withinSkew_iff.mp hskew⟩
  have hreplayed : s.config.WithinSkew now stamp.timestamp →
      l.cache.HoldsLive (stampRecord client stamp) now →
      ((s.verifyPreAuth request client etype now).runOn l).1 =
        .error (.refused (.preAuthFailed .replayed)) :=
    fun hskew hlive => (hshows hskew).isReplay (hcache.replay_iff_holdsLive.mpr hlive)
  refine ⟨⟨?_, ?_⟩, hlate, hreplayed⟩
  · intro hok
    have hskew : s.config.WithinSkew now stamp.timestamp := by
      by_contra hskew
      rw [hlate hskew] at hok
      cases hok
    have hnew : ¬ l.cache.HoldsLive (stampRecord client stamp) now := by
      intro hlive
      rw [hreplayed hskew hlive] at hok
      cases hok
    exact ⟨hskew, hnew⟩
  · -- Within the skew the verdict of the cache is all that counts.
    rintro ⟨hskew, hnew⟩
    cases hverdict : (l.cache.check (stampRecord client stamp) now).1 with
    | fresh => exact (hshows hskew).passes hverdict
    | replay => exact absurd (hcache.replay_iff_holdsLive.mp hverdict) hnew

/-- An honest client can write its timestamp, and whatever request it presents it in, whatever
    the time is and whatever the cache has been asked before, the client is let in if and only
    if its clock is off by the skew at most and the timestamp is not remembered. -/
theorem honest_client_judged {s : Service} (hfaithful : s.cipher.Faithful)
    (hlabels : s.cipher.Labels) {client : DirectoryEntry} (hmethod : client.otpMethod = none)
    {etype : EncryptionType} {key : EncryptionKey} (hkey : client.keys.get? etype = some key)
    {stamp : PaEncTimestamp} (hexact : stamp.Exact) :
    ∃ plaintext, stamp.write = .ok plaintext ∧
      ∀ request, s.Presents request key plaintext → ∀ now retention checks calls,
        s.Judges request client etype key stamp now
          ⟨(ReplayCache.empty retention).after checks, calls⟩ := by
  obtain ⟨plaintext, hwritten, hread⟩ := PaEncTimestamp.read_of_written hexact.expressible
  rw [hexact.rounded_eq] at hread
  refine ⟨plaintext, hwritten, ?_⟩
  intro request hpresents now retention checks calls
  have hopens := hpresents.opensTo hfaithful hlabels hread
  exact hopens.judges hmethod hkey now (ReplayCache.retains retention checks).consistent

end Service

namespace Sample

theorem service_presents {plaintext : Octets} (hwritten : stamp.write = .ok plaintext) :
    service.Presents request userKey plaintext := by
  have hproof : proof = EncryptedData.write
      ⟨userKey.etype.number, none,
        Cipher.envelopeHeader userKey KeyUsage.encTimestamp ++ plaintext⟩ := by
    unfold proof
    rw [hwritten]
    rfl
  have hsight : proof.length < sightLimit := by decide +kernel
  rw [hproof] at hsight
  have hpadata : request.padata = [⟨PaData.encTimestamp, proof⟩] := rfl
  rw [hproof] at hpadata
  exact ⟨0, _, [], [], rfl, hsight, hpadata, fun p hp => nomatch hp⟩

theorem stamp_exact : stamp.Exact where
  wholeSecond := by decide
  expressible := (Instant.expressible_iff Sample.noon).mpr (by decide)
  usec := by
    intro usec husec
    cases husec
    decide

end Sample

namespace Service

/-- The user is let in at noon, but not an hour later. -/
theorem honest_client_judged_at_noon :
    let oneHourLater : Instant := ⟨1791982800000000000, by decide, by decide⟩
    let verify (now : Instant) := ((Sample.service.verifyPreAuth Sample.request Sample.user .aes256
      now).runOn ⟨(ReplayCache.empty ⟨0⟩).after [], []⟩).1
    verify Sample.noon = .ok { clientKey := Sample.userKey, preAuthenticated := true } ∧
      verify oneHourLater = .error (.refused (.preAuthFailed .outsideSkew)) := by
  intro oneHourLater verify
  have hkey : Sample.user.keys.get? .aes256 = some Sample.userKey := by decide +kernel
  obtain ⟨plaintext, hwritten, hjudged⟩ := honest_client_judged (s := Sample.service)
    Cipher.envelope_faithful Cipher.envelope_labels rfl hkey Sample.stamp_exact
  have hjudges := hjudged Sample.request (Sample.service_presents hwritten)
  have hnoon : Sample.service.config.WithinSkew Sample.noon Sample.stamp.timestamp :=
    ⟨by decide, by decide⟩
  have hlate : ¬ Sample.service.config.WithinSkew oneHourLater Sample.stamp.timestamp :=
    fun h => absurd h.behind (by decide)
  constructor
  · apply (hjudges Sample.noon ⟨0⟩ [] []).letsIn.mpr
    exact ⟨hnoon, fun ⟨t, hmem, _⟩ => nomatch hmem⟩
  · exact (hjudges oneHourLater ⟨0⟩ [] []).outsideSkew hlate

end Service

end Kerberos
