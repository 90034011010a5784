import Kerberos.Proofs.Envelope
import Kerberos.Proofs.SealedParts

/-! # Sealed parts are written and read back, or refused for a string

    Of all that a sealed part holds, only its strings can keep it from being written, as long
    as its times have a written form.  A part with ASCII strings is written, and what is
    written is read as the part with its times cut to whole seconds.  Any other part yields
    no octets: the realm is refused, or the name if the realm is fine.

    `SealedParts` says what the octets are if there are any.  Here it is said when there are.
    Octets from `sightLimit` on are more than an address space holds, and a reader that looks
    ten octets ahead would not see past their length.
-/

namespace Kerberos

open Asn1

namespace Sample

/-- A renewable ticket without a start, on an empty list of addresses, issued between two
    seconds. -/
def ticketPart : EncTicketPart :=
  { flags := .renewable, key := userKey, crealm := "EXAMPLE.COM", cname := ⟨1, ["pw13", ""]⟩
    transited := ⟨-1, [0, 200]⟩, authTime := ⟨1791979200500000000, by decide, by decide⟩
    startTime := none, endTime := noon, renewTill := some .infinity, caddr := some [] }

/-- A reply part with two last requests, of which one is between two seconds, and with a start
    but no end of renewals. -/
def replyPart : EncAsRepPart :=
  { key := serviceKey
    lastReq := [⟨0, ⟨1791979200999999999, by decide, by decide⟩⟩, ⟨-1, .epoch⟩]
    nonce := 0x87654321, keyExpiration := none, flags := .initial, authTime := noon
    startTime := some noon, endTime := noon, renewTill := none, srealm := "EXAMPLE.COM"
    sname := .krbtgt "EXAMPLE.COM", caddr := none }

end Sample

/-! ## Strings -/

instance (n : PrincipalName) : Decidable n.IsAscii :=
  List.decidableBAll (fun s : String => Kerberos.IsAscii s) n.components

/-- If `f` succeeds on what satisfies `P`, and always fails in the same way, then so it does
    on lists. -/
theorem except_mapM_list_eq_ite {ε α β : Type} {f : α → Except ε β} {P : α → Prop}
    [DecidablePred P] {g : α → β} {e : ε} (hf : ∀ a, f a = if P a then .ok (g a) else .error e)
    (as : List α) : as.mapM f = if ∀ a ∈ as, P a then .ok (as.map g) else .error e := by
  induction as with
  | nil =>
    rw [if_pos (List.forall_mem_nil P)]
    rfl
  | cons a as ih =>
    rw [List.mapM_cons, hf, ih]
    by_cases ha : P a
    · -- The first is fine, so it is up to the others.
      by_cases hrest : ∀ b ∈ as, P b
      · rw [if_pos ha, if_pos hrest, if_pos (List.forall_mem_cons.mpr ⟨ha, hrest⟩)]
        rfl
      · have hnot : ¬ ∀ b ∈ a :: as, P b := fun h => hrest (List.forall_mem_cons.mp h).2
        rw [if_pos ha, if_neg hrest, if_neg hnot]
        rfl
    · have hnot : ¬ ∀ b ∈ a :: as, P b := fun h => ha (List.forall_mem_cons.mp h).1
      rw [if_neg ha, if_neg hnot]
      rfl

namespace Wire

theorem string_eq_ite (field s : String) :
    string field s =
      if IsAscii s then .ok (generalString (asciiOctets s)) else .error (.invalidString field) := by
  by_cases h : IsAscii s
  · rw [if_pos h]
    exact string_eq_ok_iff.mpr ⟨h, rfl⟩
  · have hnone : asciiOctets? s = none := if_neg (by simpa [IsAscii] using h)
    rw [if_neg h, string, hnone]

theorem name_eq_ite (n : PrincipalName) :
    name n =
      if n.IsAscii then .ok (nameOctets n) else .error (.invalidString "principal name") := by
  have hcomponents := except_mapM_list_eq_ite (string_eq_ite "principal name") n.components
  unfold name
  rw [hcomponents]
  by_cases h : n.IsAscii
  · rw [if_pos h, if_pos (show ∀ s ∈ n.components, IsAscii s from h)]
    rfl
  · rw [if_neg h, if_neg (show ¬ ∀ s ∈ n.components, IsAscii s from h)]
    rfl

/-- The octets, unless the realm or the name is refused. -/
def asciiOnly (realm : String) (n : PrincipalName) (octets : Octets) : Written :=
  if IsAscii realm then
    if n.IsAscii then .ok octets else .error (.refused (.invalidString "principal name"))
  else .error (.refused (.invalidString "realm"))

theorem asciiOnly_of_ascii {realm : String} {n : PrincipalName} {octets : Octets}
    (h : IsAscii realm ∧ n.IsAscii) : asciiOnly realm n octets = .ok octets := by
  unfold asciiOnly
  rw [if_pos h.1, if_pos h.2]

theorem asciiOnly_of_not_ascii {realm : String} {n : PrincipalName} {octets : Octets}
    (h : ¬ (IsAscii realm ∧ n.IsAscii)) :
    asciiOnly realm n octets =
      .error (.refused (.invalidString (if IsAscii realm then "principal name" else "realm"))) := by
  unfold asciiOnly
  by_cases hrealm : IsAscii realm
  · have hname : ¬ n.IsAscii := fun hname => h ⟨hrealm, hname⟩
    rw [if_pos hrealm, if_pos hrealm, if_neg hname]
  · rw [if_neg hrealm, if_neg hrealm]

/-- Both sealed parts write a realm and a name, one right after the other. -/
theorem realm_then_name (s : String) (n : PrincipalName) (f : Octets → Octets → Octets) :
    (do
      let s ← realm s
      let n ← name n
      return f s n : Written) =
      asciiOnly s n (f (generalString (asciiOctets s)) (nameOctets n)) := by
  unfold realm asciiOnly
  rw [string_eq_ite, name_eq_ite]
  -- The realm comes first, so a name is refused only behind a realm that is not.
  by_cases hrealm : IsAscii s
  · rw [if_pos hrealm, if_pos hrealm]
    by_cases hname : n.IsAscii
    · rw [if_pos hname, if_pos hname]
      rfl
    · rw [if_neg hname, if_neg hname]
      rfl
  · rw [if_neg hrealm, if_neg hrealm]
    rfl

end Wire

/-! ## The plaintext of a ticket -/

/-- Of a part with times that can be written, the strings decide whether it is written. -/
theorem EncTicketPart.Timed.write_eq {p : EncTicketPart} (h : p.Timed) :
    p.write = Wire.asciiOnly p.crealm p.cname (Wire.ticketPartOctets p) := by
  have hstart := Wire.mapM_time_eq_ok_iff.mpr ⟨h.startTime, rfl⟩
  have hrenew := Wire.mapM_time_eq_ok_iff.mpr ⟨h.renewTill, rfl⟩
  unfold EncTicketPart.write
  -- With the times out of the way, only the realm and the name are left to fail.
  rw [Wire.time_of_expressible h.authTime, Wire.time_of_expressible h.endTime, hstart, hrenew]
  exact Wire.realm_then_name p.crealm p.cname _

/-- The plaintext of a ticket comes back to the second if its strings are ASCII, and otherwise
    is not written. -/
theorem EncTicketPart.comes_back_or_refused {p : EncTicketPart} (htimed : p.Timed)
    (hkind : p.cname.kind < 128) :
    (IsAscii p.crealm ∧ p.cname.IsAscii →
      ∃ w, p.write = .ok w ∧
        (w.length < sightLimit → EncTicketPart.read w = .ok p.inWholeSeconds)) ∧
    (¬ (IsAscii p.crealm ∧ p.cname.IsAscii) →
      p.write = .error (.refused (.invalidString
        (if IsAscii p.crealm then "principal name" else "realm")))) := by
  constructor
  · intro hascii
    have hwrite := htimed.write_eq.trans (Wire.asciiOnly_of_ascii hascii)
    exact ⟨_, hwrite, read_of_write hwrite hkind⟩
  · intro hrefused
    exact htimed.write_eq.trans (Wire.asciiOnly_of_not_ascii hrefused)

/-- The ticket of the small realm comes back without the half second, and is refused if a
    letter of its realm is none of ASCII. -/
theorem EncTicketPart.comes_back_or_refused_between_seconds :
    (∃ w, Sample.ticketPart.write = .ok w ∧
      EncTicketPart.read w = .ok { Sample.ticketPart with authTime := Sample.noon }) ∧
    EncTicketPart.write { Sample.ticketPart with crealm := "MÜNCHEN.DE" } =
      .error (.refused (.invalidString "realm")) := by
  have hauthTime : Sample.ticketPart.authTime.Expressible :=
    (Instant.expressible_iff _).mpr (by decide)
  have hnoon : Sample.noon.Expressible := (Instant.expressible_iff _).mpr (by decide)
  have htimed : ∀ crealm, EncTicketPart.Timed { Sample.ticketPart with crealm } := by
    intro crealm
    constructor
    · exact hauthTime
    · intro t ht
      cases ht
    · exact hnoon
    · intro t ht
      cases ht
      exact (Instant.expressible_iff _).mpr (by decide)
  obtain ⟨hback, -⟩ := comes_back_or_refused (htimed "EXAMPLE.COM") (by decide)
  obtain ⟨-, hrefused⟩ := comes_back_or_refused (htimed "MÜNCHEN.DE") (by decide)
  obtain ⟨w, hwrite, hread⟩ := hback ⟨by decide, by decide⟩
  have hlength : w.length < sightLimit := by
    rw [(Wire.ticketPart_of_write hwrite).2]
    decide +kernel
  exact ⟨⟨w, hwrite, hread hlength⟩, hrefused (by decide)⟩

/-! ## The plaintext of a reply -/

/-- All times of the part can be written. -/
structure EncAsRepPart.Timed (p : EncAsRepPart) : Prop where
  lastReq : ∀ r ∈ p.lastReq, r.time.Expressible
  keyExpiration : ∀ t, p.keyExpiration = some t → t.Expressible
  authTime : p.authTime.Expressible
  startTime : ∀ t, p.startTime = some t → t.Expressible
  endTime : p.endTime.Expressible
  renewTill : ∀ t, p.renewTill = some t → t.Expressible

theorem EncAsRepPart.Timed.write_eq {p : EncAsRepPart} (h : p.Timed) :
    p.write = Wire.asciiOnly p.srealm p.sname (Wire.replyPartOctets p) := by
  have hlast := (except_mapM_list_eq_ok_iff fun _ _ => Wire.lastRequest_eq_ok_iff).mpr
    ⟨h.lastReq, rfl⟩
  have hexpiration := Wire.mapM_time_eq_ok_iff.mpr ⟨h.keyExpiration, rfl⟩
  have hstart := Wire.mapM_time_eq_ok_iff.mpr ⟨h.startTime, rfl⟩
  have hrenew := Wire.mapM_time_eq_ok_iff.mpr ⟨h.renewTill, rfl⟩
  unfold EncAsRepPart.write
  rw [Wire.time_of_expressible h.authTime, Wire.time_of_expressible h.endTime, hlast,
    hexpiration, hstart, hrenew]
  exact Wire.realm_then_name p.srealm p.sname _

/-- The plaintext of a reply comes back to the second if its strings are ASCII, and otherwise
    is not written. -/
theorem EncAsRepPart.survives_or_refused {p : EncAsRepPart} (htimed : p.Timed)
    (hkind : p.sname.kind < 128) :
    (IsAscii p.srealm ∧ p.sname.IsAscii →
      ∃ w, p.write = .ok w ∧
        (w.length < sightLimit → EncAsRepPart.read w = .ok p.inWholeSeconds)) ∧
    (¬ (IsAscii p.srealm ∧ p.sname.IsAscii) →
      p.write = .error (.refused (.invalidString
        (if IsAscii p.srealm then "principal name" else "realm")))) := by
  constructor
  · intro hascii
    have hwrite := htimed.write_eq.trans (Wire.asciiOnly_of_ascii hascii)
    exact ⟨_, hwrite, read_of_write hwrite hkind⟩
  · intro hrefused
    exact htimed.write_eq.trans (Wire.asciiOnly_of_not_ascii hrefused)

/-- The reply part of the small realm comes back with its last requests in whole seconds, and
    is refused if a component of its name is not ASCII. -/
theorem EncAsRepPart.survives_or_refused_between_seconds :
    (∃ w, Sample.replyPart.write = .ok w ∧
      EncAsRepPart.read w =
        .ok { Sample.replyPart with lastReq := [⟨0, Sample.noon⟩, ⟨-1, .epoch⟩] }) ∧
    EncAsRepPart.write { Sample.replyPart with sname := .krbtgt "MÜNCHEN.DE" } =
      .error (.refused (.invalidString "principal name")) := by
  have hlastReq : ∀ r ∈ Sample.replyPart.lastReq, -62167219200000000000 ≤ r.time.nanos := by
    decide
  have hnoon : Sample.noon.Expressible := (Instant.expressible_iff _).mpr (by decide)
  have htimed : ∀ sname, EncAsRepPart.Timed { Sample.replyPart with sname } := by
    intro sname
    constructor
    · intro r hr
      exact (Instant.expressible_iff _).mpr (hlastReq r hr)
    · intro t ht
      cases ht
    · exact hnoon
    · intro t ht
      cases ht
      exact hnoon
    · exact hnoon
    · intro t ht
      cases ht
  obtain ⟨hback, -⟩ := survives_or_refused (htimed (.krbtgt "EXAMPLE.COM")) (by decide)
  obtain ⟨-, hrefused⟩ := survives_or_refused (htimed (.krbtgt "MÜNCHEN.DE")) (by decide)
  obtain ⟨w, hwrite, hread⟩ := hback ⟨by decide, by decide⟩
  have hlength : w.length < sightLimit := by
    rw [(Wire.replyPart_of_write hwrite).2]
    decide +kernel
  exact ⟨⟨w, hwrite, hread hlength⟩, hrefused (by decide)⟩

end Kerberos
