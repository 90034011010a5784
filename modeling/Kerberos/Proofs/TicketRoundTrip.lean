import Kerberos.Proofs.AnswerReaders
import Kerberos.Proofs.SealedRoundTrip

/-! # Tickets cross the wire unchanged, or not at all

    A ticket is written if its strings are ASCII.  What is then read is the ticket itself, with
    two exceptions: a name type from 128 on and an encryption type from 2 ^ 63 on are written as
    negative numbers, and a number below zero is refused (`Ticket.read_of_write`).  The version
    of the key may be there or not, and the ciphertext may be anything, as long as a reader can
    see past what is written: `sightLimit` octets are more than an address space holds.

    Encrypted data holds no strings, so it is always written, and what has been said of the
    encryption type holds of it by itself as well.
-/

namespace Kerberos

open Asn1

namespace Wire

/-! ## Values that come back -/

theorem readBack_eq_ok_iff {n n' : PrincipalName} :
    readBack n = .ok n' ↔ n.kind < 128 ∧ n = n' :=
  ite_ok_eq_ok_iff

theorem dataReadBack_eq_ok_iff {d d' : EncryptedData} :
    dataReadBack d = .ok d' ↔ d.etype.toNat < 2 ^ 63 ∧ d = d' :=
  ite_ok_eq_ok_iff

end Wire

/-! ## Encrypted data -/

theorem EncryptedData.read_write_back {d : EncryptedData} (h : d.write.length < sightLimit) :
    EncryptedData.read d.write = Wire.dataReadBack d := by
  have hreads : Wire.encryptedDataReader.Reads [] d.write (Wire.dataReadBack d) :=
    Wire.encryptedDataReader_reads_back d
  unfold EncryptedData.read Wire.read
  rw [hreads.run h]

/-- Encrypted data of a type that has a number is read as it was written. -/
theorem EncryptedData.read_write {d : EncryptedData} {e : EncryptionType}
    (hetype : d.etype = e.number) (h : d.write.length < sightLimit) :
    EncryptedData.read d.write = .ok d :=
  (read_write_back h).trans (Wire.dataReadBack_of_etype hetype)

/-! ## Tickets -/

/-- The strings of a ticket decide whether it is written.  The realm comes first. -/
theorem Ticket.write_eq_ite (t : Ticket) :
    t.write =
      if IsAscii t.realm ∧ t.sname.IsAscii then .ok (Wire.ticketOctets t)
      else .error (.invalidString (if IsAscii t.realm then "principal name" else "realm")) := by
  unfold Ticket.write Wire.realm
  rw [Wire.string_eq_ite, Wire.name_eq_ite]
  by_cases hrealm : IsAscii t.realm
  · by_cases hsname : t.sname.IsAscii
    · rw [if_pos hrealm, if_pos hsname, if_pos ⟨hrealm, hsname⟩]
      rfl
    · have hnot : ¬ (IsAscii t.realm ∧ t.sname.IsAscii) := fun h => hsname h.2
      rw [if_pos hrealm, if_neg hsname, if_neg hnot, if_pos hrealm]
      rfl
  · have hnot : ¬ (IsAscii t.realm ∧ t.sname.IsAscii) := fun h => hrealm h.1
    rw [if_neg hrealm, if_neg hnot, if_neg hrealm]
    rfl

/-- What is read of a ticket has passed two checks, of its name and of its sealed part. -/
theorem Ticket.read_of_write {t : Ticket} {w : Octets} (h : t.write = .ok w)
    (hw : w.length < sightLimit) :
    Ticket.read w = (do
      let sname ← Wire.readBack t.sname
      let encPart ← Wire.dataReadBack t.encPart
      return { t with sname, encPart }) := by
  obtain ⟨hrealm, hsname, rfl⟩ := Wire.ticket_of_write h
  have hreads : Wire.ticketReader.Reads [] (Wire.ticketOctets t) _ :=
    Wire.ticketReader_reads_back (by simp) hrealm hsname
  unfold Ticket.read Wire.read
  rw [hreads.run hw]

theorem Ticket.read_eq_ok_iff {t : Ticket} {w : Octets} (h : t.write = .ok w)
    (hw : w.length < sightLimit) :
    Ticket.read w = .ok t ↔ t.sname.kind < 128 ∧ t.encPart.etype.toNat < 2 ^ 63 := by
  rw [read_of_write h hw]
  simp only [except_bind_eq_ok_iff, Wire.readBack_eq_ok_iff, Wire.dataReadBack_eq_ok_iff]
  constructor
  · rintro ⟨_, ⟨hkind, -⟩, _, ⟨hetype, -⟩, -⟩
    exact ⟨hkind, hetype⟩
  · -- What passes a check is what was checked.
    rintro ⟨hkind, hetype⟩
    exact ⟨_, ⟨hkind, rfl⟩, _, ⟨hetype, rfl⟩, rfl⟩

/-- Encrypted data comes back unchanged if and only if its type has 63 bits.  A ticket with
    ASCII strings is written and comes back unchanged if and only if its name type has 7 bits,
    too.  A ticket with any other string is refused for that string. -/
theorem Ticket.unchanged_or_refused (d : EncryptedData) (t : Ticket) :
    (d.write.length < sightLimit →
      (EncryptedData.read d.write = .ok d ↔ d.etype.toNat < 2 ^ 63)) ∧
    (IsAscii t.realm ∧ t.sname.IsAscii →
      ∃ w, t.write = .ok w ∧ (w.length < sightLimit →
        (Ticket.read w = .ok t ↔ t.sname.kind < 128 ∧ t.encPart.etype.toNat < 2 ^ 63))) ∧
    (¬ (IsAscii t.realm ∧ t.sname.IsAscii) →
      t.write =
        .error (.invalidString (if IsAscii t.realm then "principal name" else "realm"))) := by
  refine ⟨?_, ?_, ?_⟩
  · intro hd
    rw [EncryptedData.read_write_back hd, Wire.dataReadBack_eq_ok_iff, and_iff_left rfl]
  · intro hascii
    have hwrite := t.write_eq_ite.trans (if_pos hascii)
    exact ⟨_, hwrite, read_eq_ok_iff hwrite⟩
  · intro hrefused
    exact t.write_eq_ite.trans (if_neg hrefused)

namespace Sample

/-- A ticket whose numbers are as great as they may be. -/
def greatestTicket : Ticket :=
  { realm := "EXAMPLE.COM", sname := ⟨127, ["krbtgt", ""]⟩
    encPart := ⟨0x7fffffffffffffff, some 0xffffffff, []⟩ }

end Sample

/-- The greatest numbers come back, by themselves and in a ticket, and one more does not.  A
    letter outside ASCII is refused in the realm and in the name. -/
theorem Ticket.unchanged_or_refused_of_greatest :
    EncryptedData.read Sample.greatestTicket.encPart.write = .ok Sample.greatestTicket.encPart ∧
    (∃ w, Sample.greatestTicket.write = .ok w ∧ Ticket.read w = .ok Sample.greatestTicket) ∧
    (∃ w, Ticket.write { Sample.greatestTicket with sname := ⟨128, []⟩ } = .ok w ∧
      Ticket.read w ≠ .ok { Sample.greatestTicket with sname := ⟨128, []⟩ }) ∧
    Ticket.write { Sample.greatestTicket with sname := .krbtgt "MÜNCHEN.DE" } =
      .error (.invalidString "principal name") := by
  obtain ⟨hdata, hticket, -⟩ :=
    unchanged_or_refused Sample.greatestTicket.encPart Sample.greatestTicket
  obtain ⟨-, hbeyond, -⟩ := unchanged_or_refused Sample.greatestTicket.encPart
    { Sample.greatestTicket with sname := ⟨128, []⟩ }
  obtain ⟨-, -, hrefused⟩ := unchanged_or_refused Sample.greatestTicket.encPart
    { Sample.greatestTicket with sname := .krbtgt "MÜNCHEN.DE" }
  obtain ⟨w, hwrite, hread⟩ := hticket (by decide)
  obtain ⟨w', hwrite', hread'⟩ := hbeyond (by decide)
  have hlength : w.length < sightLimit := by
    rw [(Wire.ticket_of_write hwrite).2.2]
    decide +kernel
  have hlength' : w'.length < sightLimit := by
    rw [(Wire.ticket_of_write hwrite').2.2]
    decide +kernel
  refine ⟨(hdata (by decide +kernel)).mpr (by decide), ⟨w, hwrite, ?_⟩, ⟨w', hwrite', ?_⟩,
    hrefused (by decide)⟩
  · exact (hread hlength).mpr (by decide)
  · intro hback
    exact absurd ((hread' hlength').mp hback) (by decide)

end Kerberos
