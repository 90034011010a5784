import Kerberos.Proofs.Writing
import Kerberos.Proofs.Yields
import Kerberos.Wire.Request

/-! # What a request can hold

    Requests are read leniently, but not so leniently that the service could not repeat what
    it has read: names are ASCII, and no time lies before year 0.  This is true of every
    request that is read, whoever sent the octets.
-/

namespace Kerberos

open Asn1

/-- The names and times of the request can be written. -/
structure RequestBody.Writable (b : RequestBody) : Prop where
  cname : ∀ n, b.cname = some n → n.IsAscii
  sname : ∀ n, b.sname = some n → n.IsAscii
  start : ∀ t, b.start = some t → t.Expressible
  till : ∀ t, b.till = some t → t.Expressible
  rtime : ∀ t, b.rtime = some t → t.Expressible

namespace Wire

/-! ## Strings, names and times -/

theorem isAscii_ofAscii {octets : Octets} (h : octets.all (· < 0x80) = true) :
    IsAscii (ofAscii octets) := by
  intro c hc
  unfold ofAscii at hc
  rw [String.toList_ofList, List.mem_map] at hc
  obtain ⟨octet, hoctet, rfl⟩ := hc
  have hlt : octet < 0x80 := by simpa using List.all_eq_true.mp h octet hoctet
  have hnat : octet.toNat < 128 := UInt8.lt_iff_toNat_lt.mp hlt
  have hvalid : octet.toNat.isValidChar := .inl (by omega)
  rw [Char.ofNat, dif_pos hvalid]
  exact hnat

theorem stringReader_yields : stringReader.Yields IsAscii :=
  .bind (.any _) fun _ _ => .bind (.require _) fun _ hascii => .pure (isAscii_ofAscii hascii)

theorem nameReader_yields :
    nameReader.Yields fun check => ∀ n, check = .ok n → n.IsAscii := by
  refine .sequence (.bind (.any _) fun kind _ => ?_)
  refine .bind (.field 1 (.sequenceOf stringReader_yields)) fun components hcomponents => ?_
  refine .pure fun n h => ?_
  obtain ⟨kind', -, h⟩ := except_bind_eq_ok_iff.mp h
  cases h
  exact hcomponents

theorem timeReader_yields : timeReader.Yields fun c => 0 ≤ c.year := by
  -- A year is read from digits, so it has no sign.
  refine .bind (.any _) fun contents _ => .look fun _ c h => ?_
  unfold civilTime? at h
  split at h
  · simp only at h
    split at h
    · cases h
      show (0 : Int) ≤ Nat.cast _
      omega
    · cases h
  · cases h

theorem instant_expressible {field : String} {c : CivilTime} {t : Instant} (hyear : 0 ≤ c.year)
    (h : instant field c = .ok t) : t.Expressible := by
  unfold instant at h
  split at h
  · next ht =>
    cases h
    exact Instant.expressible_of_ofCivil? hyear ht
  · cases h

theorem specifiedInstant_expressible {field : String} {c : CivilTime} {t : Instant}
    (hyear : 0 ≤ c.year) (h : specifiedInstant field c = .ok (some t)) : t.Expressible := by
  obtain ⟨t', ht', h⟩ := except_bind_eq_ok_iff.mp h
  simp only [pure, Except.pure, Except.ok.injEq] at h
  split at h
  · cases h
  · cases h
    exact instant_expressible hyear ht'

/-! ## Requests -/

/-- The values of a request body that are still to be checked will be writable. -/
structure ReceivedBody.Sound (b : ReceivedBody) : Prop where
  cname : ∀ check, b.cname = some check → ∀ n, check = .ok n → n.IsAscii
  sname : ∀ check, b.sname = some check → ∀ n, check = .ok n → n.IsAscii
  start : ∀ c, b.start = some c → 0 ≤ c.year
  till : 0 ≤ b.till.year
  rtime : ∀ c, b.rtime = some c → 0 ≤ c.year

theorem requestBodyReader_yields : requestBodyReader.Yields ReceivedBody.Sound := by
  refine .sequence (.bind (.any _) fun options _ => ?_)
  refine .bind (.optional 1 nameReader_yields) fun cname hcname => ?_
  refine .bind (.any _) fun realm _ => ?_
  refine .bind (.optional 3 nameReader_yields) fun sname hsname => ?_
  refine .bind (.optional 4 timeReader_yields) fun start hstart => ?_
  refine .bind (.field 5 timeReader_yields) fun till htill => ?_
  refine .bind (.optional 6 timeReader_yields) fun rtime hrtime => ?_
  refine .bind (.any _) fun nonce _ => .bind (.any _) fun etypes _ => ?_
  refine .bind (.any _) fun addresses _ => .bind (.any _) fun _ _ => .bind (.any _) fun _ _ => ?_
  exact .pure ⟨hcname, hsname, hstart, htill, hrtime⟩

theorem requestReader_yields : requestReader.Yields fun r => r.body.Sound := by
  refine .application (.sequence (.bind (.any _) fun pvno _ => ?_)) 10
  refine .bind (.any _) fun messageType _ => .bind (.any _) fun padata _ => ?_
  exact .bind (.field 4 requestBodyReader_yields) fun body hbody => .pure hbody

theorem mapM_option_eq_ok {α β : Type} {f : α → Checked β} {o : Option α} {b : β}
    (h : o.mapM f = .ok (some b)) : ∃ a, o = some a ∧ f a = .ok b := by
  cases o with
  | none => cases h
  | some a =>
    rw [Option.mapM_some] at h
    cases hf : f a with
    | error e =>
      rw [hf] at h
      cases h
    | ok b' =>
      rw [hf] at h
      cases h
      exact ⟨a, rfl, hf⟩

theorem ReceivedBody.Sound.check {b : ReceivedBody} (hsound : b.Sound) {body : RequestBody}
    (h : b.check = .ok body) : body.Writable := by
  simp only [ReceivedBody.check, except_bind_eq_ok_iff] at h
  obtain ⟨cname, hcname, sname, hsname, start, hstart, till, htill, rtime, hrtime, nonce, -,
    addresses, -, h⟩ := h
  cases h
  constructor
  · rintro n rfl
    obtain ⟨check, hcheck, hn⟩ := mapM_option_eq_ok hcname
    exact hsound.cname check hcheck n hn
  · rintro n rfl
    obtain ⟨check, hcheck, hn⟩ := mapM_option_eq_ok hsname
    exact hsound.sname check hcheck n hn
  · rintro t rfl
    obtain ⟨c, hc, ht⟩ := mapM_option_eq_ok hstart
    exact instant_expressible (hsound.start c hc) ht
  · rintro t rfl
    exact specifiedInstant_expressible hsound.till htill
  · -- The end of renewals may be missing or unspecified, and is absent in either case.
    intro t ht
    obtain rfl := Option.join_eq_some_iff.mp ht
    obtain ⟨c, hc, ht⟩ := mapM_option_eq_ok hrtime
    exact specifiedInstant_expressible (hsound.rtime c hc) ht

end Wire

/-- Every request that is read can be written, as far as names and times go. -/
theorem AsRequest.read_writable {message : Octets} {request : AsRequest}
    (h : AsRequest.read message = .ok request) : request.toRequestBody.Writable := by
  unfold AsRequest.read at h
  split at h
  · next received hreceived =>
    have hsound := Wire.requestReader_yields.run hreceived
    simp only [Wire.ReceivedRequest.check] at h
    split at h
    · cases h
    · simp only [except_bind_eq_ok_iff] at h
      obtain ⟨padata, -, pvno, -, body, hbody, h⟩ := h
      cases h
      exact hsound.check hbody
  · cases h

end Kerberos
