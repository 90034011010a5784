import Kerberos.Proofs.Values
import Kerberos.Wire.Reply

/-! # The sealed parts are read back

    The plaintext of a ticket and the plaintext of a reply are written with different tags,
    and most of their times may be missing.  What was written is read, with its times cut to
    whole seconds, as long as it stays below `sightLimit`.
-/

namespace Kerberos

open Asn1

/-! ## The plaintext of a ticket -/

/-- The strings of the part are ASCII, and its times lie in year 0 or later. -/
structure EncTicketPart.Writable (p : EncTicketPart) : Prop extends p.Timed where
  crealm : IsAscii p.crealm
  cname : p.cname.IsAscii

/-- The part with its times to the second, as they are written. -/
def EncTicketPart.inWholeSeconds (p : EncTicketPart) : EncTicketPart :=
  { p with
    authTime := p.authTime.wholeSecond
    startTime := p.startTime.map Instant.wholeSecond
    endTime := p.endTime.wholeSecond
    renewTill := p.renewTill.map Instant.wholeSecond }

namespace Wire

/-- The octets of the part, if it can be written. -/
def ticketPartOctets (p : EncTicketPart) : Octets :=
  application 3 <| sequenceOf [
    explicit 0 (bitString p.flags.bits), explicit 1 (key p.key),
    explicit 2 (generalString (asciiOctets p.crealm)), explicit 3 (nameOctets p.cname),
    explicit 4 (transited p.transited), explicit 5 (timeOctets p.authTime),
    explicit? 6 (p.startTime.map timeOctets), explicit 7 (timeOctets p.endTime),
    explicit? 8 (p.renewTill.map timeOctets), explicit? 9 (p.caddr.map addresses)]

theorem liftM_eq_ok_iff {α : Type} {x : Checked α} {a : α} :
    (liftM x : Except (Failure WireError) α) = .ok a ↔ x = .ok a := by
  cases x with
  | ok b =>
    show Except.ok b = Except.ok a ↔ _
    rw [Except.ok.injEq, Except.ok.injEq]
  | error cause => exact ⟨fun h => (nomatch h), fun h => (nomatch h)⟩

theorem mapM_time_eq_ok_iff {o : Option Instant} {w : Option Octets} :
    o.mapM time = .ok w ↔ (∀ t, o = some t → t.Expressible) ∧ w = o.map timeOctets :=
  except_mapM_option_eq_ok_iff fun _ _ => time_eq_ok_iff

theorem ticketPart_of_write {p : EncTicketPart} {w : Octets} (h : p.write = .ok w) :
    p.Writable ∧ w = ticketPartOctets p := by
  simp only [EncTicketPart.write, except_bind_eq_ok_iff, liftM_eq_ok_iff, realm, string_eq_ok_iff,
    name_eq_ok_iff, time_eq_ok_iff, mapM_time_eq_ok_iff] at h
  obtain ⟨_, ⟨hcrealm, rfl⟩, _, ⟨hcname, rfl⟩, _, ⟨hauthTime, rfl⟩, _, ⟨hstartTime, rfl⟩,
    _, ⟨hendTime, rfl⟩, _, ⟨hrenewTill, rfl⟩, h⟩ := h
  cases h
  exact ⟨⟨⟨hauthTime, hstartTime, hendTime, hrenewTill⟩, hcrealm, hcname⟩, rfl⟩

theorem encTicketPartReader_reads {p : EncTicketPart} (h : p.Writable)
    (hkind : p.cname.kind < 128) :
    encTicketPartReader.Reads [] (ticketPartOctets p) (.ok p.inWholeSeconds) := by
  refine Reader.Reads.application (Reader.Reads.sequence ?_ []) (element_ne_nil _ _) (by decide)
  refine field_reads (buffer_field rfl 0 _) (field_reads (keyReader_reads p.key) ?_)
  refine field_reads (stringReader_reads (by simp) h.crealm) ?_
  refine field_reads (nameReader_reads h.cname hkind) ?_
  refine field_reads (transitedReader_reads p.transited) ?_
  refine field_reads (timeReader_reads (by simp) h.authTime) ?_
  refine optional_time_reads h.startTime (by decide) ?_
  refine field_reads (timeReader_reads (by simp) h.endTime) ?_
  -- The end of renewals is followed by addresses or by nothing at all.
  refine trailing_field_reads (fun t ht => timeReader_reads (by simp) (h.renewTill t ht))
    timeReader_skips (differs_last (by decide) _) ?_
  refine trailing_reads (fun as _ => addressesReader_reads as) ?_
  refine (Fields.Reads.trailing_nil skippedPairs 10).finish ?_
  simp only [instant_civil, mapM_instant, mapM_id_some_ok, word_bitString]
  rfl

end Wire

/-- What is written for a service is what the service reads. -/
theorem EncTicketPart.read_of_write {p : EncTicketPart} {w : Octets} (h : p.write = .ok w)
    (hkind : p.cname.kind < 128) (hw : w.length < sightLimit) :
    EncTicketPart.read w = .ok p.inWholeSeconds := by
  obtain ⟨hwritable, rfl⟩ := Wire.ticketPart_of_write h
  have hrun := (Wire.encTicketPartReader_reads hwritable hkind).run hw
  unfold EncTicketPart.read Wire.read
  rw [hrun]

/-! ## The plaintext of a reply -/

/-- The strings of the part are ASCII, and its times lie in year 0 or later. -/
structure EncAsRepPart.Writable (p : EncAsRepPart) : Prop where
  lastReq : ∀ r ∈ p.lastReq, r.time.Expressible
  keyExpiration : ∀ t, p.keyExpiration = some t → t.Expressible
  authTime : p.authTime.Expressible
  startTime : ∀ t, p.startTime = some t → t.Expressible
  endTime : p.endTime.Expressible
  renewTill : ∀ t, p.renewTill = some t → t.Expressible
  srealm : IsAscii p.srealm
  sname : p.sname.IsAscii

def LastRequest.inWholeSeconds (r : LastRequest) : LastRequest :=
  { r with time := r.time.wholeSecond }

/-- The part with its times to the second, as they are written. -/
def EncAsRepPart.inWholeSeconds (p : EncAsRepPart) : EncAsRepPart :=
  { p with
    lastReq := p.lastReq.map LastRequest.inWholeSeconds
    keyExpiration := p.keyExpiration.map Instant.wholeSecond
    authTime := p.authTime.wholeSecond
    startTime := p.startTime.map Instant.wholeSecond
    endTime := p.endTime.wholeSecond
    renewTill := p.renewTill.map Instant.wholeSecond }

namespace Wire

def lastRequestOctets (r : LastRequest) : Octets :=
  sequenceOf [explicit 0 (integer (Integer.ofInt32 r.kind)), explicit 1 (timeOctets r.time)]

/-- The octets of the part, if it can be written. -/
def replyPartOctets (p : EncAsRepPart) : Octets :=
  application 25 <| sequenceOf [
    explicit 0 (key p.key), explicit 1 (sequenceOf (p.lastReq.map lastRequestOctets)),
    explicit 2 (integer (Integer.ofWord p.nonce)),
    explicit? 3 (p.keyExpiration.map timeOctets), explicit 4 (bitString p.flags.bits),
    explicit 5 (timeOctets p.authTime), explicit? 6 (p.startTime.map timeOctets),
    explicit 7 (timeOctets p.endTime), explicit? 8 (p.renewTill.map timeOctets),
    explicit 9 (generalString (asciiOctets p.srealm)), explicit 10 (nameOctets p.sname),
    explicit? 11 (p.caddr.map addresses)]

theorem lastRequest_eq_ok_iff {r : LastRequest} {w : Octets} :
    lastRequest r = .ok w ↔ r.time.Expressible ∧ w = lastRequestOctets r := by
  unfold lastRequest
  rw [except_bind_eq_ok_iff]
  simp only [time_eq_ok_iff, pure, Except.pure, Except.ok.injEq]
  constructor
  · rintro ⟨_, ⟨htime, rfl⟩, rfl⟩
    exact ⟨htime, rfl⟩
  · rintro ⟨htime, rfl⟩
    exact ⟨_, ⟨htime, rfl⟩, rfl⟩

theorem replyPart_of_write {p : EncAsRepPart} {w : Octets} (h : p.write = .ok w) :
    p.Writable ∧ w = replyPartOctets p := by
  simp only [EncAsRepPart.write, except_bind_eq_ok_iff, liftM_eq_ok_iff, realm, string_eq_ok_iff,
    name_eq_ok_iff, time_eq_ok_iff, mapM_time_eq_ok_iff,
    except_mapM_list_eq_ok_iff fun _ _ => lastRequest_eq_ok_iff] at h
  obtain ⟨_, ⟨hlastReq, rfl⟩, _, ⟨hkeyExpiration, rfl⟩, _, ⟨hauthTime, rfl⟩,
    _, ⟨hstartTime, rfl⟩, _, ⟨hendTime, rfl⟩, _, ⟨hrenewTill, rfl⟩, _, ⟨hsrealm, rfl⟩,
    _, ⟨hsname, rfl⟩, h⟩ := h
  cases h
  exact ⟨⟨hlastReq, hkeyExpiration, hauthTime, hstartTime, hendTime, hrenewTill, hsrealm, hsname⟩,
    rfl⟩

theorem lastRequestReader_reads {r : LastRequest} (h : r.time.Expressible) :
    lastRequestReader.Reads [] (lastRequestOctets r) (.ok r.inWholeSeconds) := by
  refine Reader.Reads.sequence ?_ []
  refine field_reads (buffer_field rfl 0 _) (field_reads (timeReader_reads (by simp) h) ?_)
  refine .pure ?_ []
  rw [int32_ofInt32, instant_civil]
  rfl

theorem encAsRepPartReader_reads {p : EncAsRepPart} (h : p.Writable)
    (hkind : p.sname.kind < 128) :
    encAsRepPartReader.Reads [] (replyPartOctets p) (.ok p.inWholeSeconds) := by
  have hlastReq : (Reader.sequenceOf lastRequestReader).Reads [0xa0 + 1]
      (explicit 1 (sequenceOf (p.lastReq.map lastRequestOctets)))
      (p.lastReq.map fun r => .ok r.inWholeSeconds) :=
    Reader.Reads.sequenceOf
      (fun r hr => ⟨lastRequestReader_reads (h.lastReq r hr), element_ne_nil _ _⟩) [0xa0 + 1]
  refine Reader.Reads.application (Reader.Reads.sequence ?_ []) (element_ne_nil _ _) (by decide)
  refine field_reads (keyReader_reads p.key) (field_reads hlastReq ?_)
  refine field_reads (buffer_field rfl 2 _) (optional_time_reads h.keyExpiration (by decide) ?_)
  refine field_reads (buffer_field rfl 4 _) ?_
  refine field_reads (timeReader_reads (by simp) h.authTime) ?_
  refine optional_time_reads h.startTime (by decide) ?_
  refine field_reads (timeReader_reads (by simp) h.endTime) ?_
  refine optional_time_reads h.renewTill (by decide) ?_
  refine field_reads (stringReader_reads (by simp) h.srealm) ?_
  refine field_reads (nameReader_reads h.sname hkind) ?_
  refine trailing_reads (fun as _ => addressesReader_reads as) ?_
  refine (Fields.Reads.trailing_nil (Reader.sequenceOf paDataReader) 12).finish ?_
  have hchecks : (p.lastReq.map fun r => (.ok r.inWholeSeconds : Checked LastRequest)).mapM id =
      .ok (p.lastReq.map LastRequest.inWholeSeconds) := by
    rw [← mapM_id_ok, List.map_map]
    rfl
  rw [hchecks, nonce_ofWord]
  simp only [instant_civil, mapM_instant, mapM_id_some_ok, word_bitString]
  rfl

end Wire

/-- What is written for a client is what the client reads. -/
theorem EncAsRepPart.read_of_write {p : EncAsRepPart} {w : Octets} (h : p.write = .ok w)
    (hkind : p.sname.kind < 128) (hw : w.length < sightLimit) :
    EncAsRepPart.read w = .ok p.inWholeSeconds := by
  obtain ⟨hwritable, rfl⟩ := Wire.replyPart_of_write h
  have hrun := (Wire.encAsRepPartReader_reads hwritable hkind).run hw
  unfold EncAsRepPart.read Wire.read
  rw [hrun]

end Kerberos
