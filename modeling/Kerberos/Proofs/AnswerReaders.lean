import Kerberos.Proofs.SealedParts
import Kerberos.Wire.KrbError

/-! # What a client finds in an answer

    An answer is a reply or an error message, and a client can tell which from the first octet.
    A reply that could be written is read as the reply, before anything in it is opened, and an
    error message is read as the error, with its code, the time of the server, its names and
    its data.  What may be lost on the way is told by `replyReadBack` and `errorReadBack`: a
    name type from 128 on, an encryption type from 2 ^ 63 on, the part of a second, and a text
    that is not ASCII.

    ## Contents

    * `ticketReader_reads_back`: tickets, and encrypted data by itself.
    * `replyReader`, `reply_read_back`: replies.
    * `errorReader`, `error_read_back`: error messages.
-/

namespace Kerberos

open Asn1

namespace Wire

/-! ## Encrypted data and tickets -/

/-- What encrypted data comes to that is written and read: a type from 2 ^ 63 on does not come
    back. -/
def dataReadBack (d : EncryptedData) : Checked EncryptedData :=
  if d.etype.toNat < 2 ^ 63 then .ok d else .error (.invalidInteger "etype")

theorem dataReadBack_of_etype {d : EncryptedData} {e : EncryptionType}
    (hetype : d.etype = e.number) : dataReadBack d = .ok d := by
  have hsmall : d.etype.toNat < 2 ^ 63 := by
    rw [hetype]
    cases e <;> decide
  exact if_pos hsmall

theorem encryptedDataReader_reads_back {tags : List UInt8} (d : EncryptedData) :
    encryptedDataReader.Reads tags (wrap tags (encryptedData d)) (dataReadBack d) := by
  apply Reader.Reads.sequence
  apply field_reads (buffer_field rfl 0 _)
  -- The version of the key may be missing, and the ciphertext follows.
  apply optional_field_reads (fun kvno _ => buffer_field rfl 1 (Integer.ofWord kvno))
    (Reader.Skips.primitive _) (differs_explicit (by decide) _ _)
  apply field_reads (buffer_field rfl 2 d.cipher)
  apply Fields.Reads.pure
  have hkvno : (d.kvno.map Integer.ofWord).mapM (uint32 "kvno") = .ok d.kvno := by
    cases d.kvno with
    | none => rfl
    | some kvno =>
      rw [Option.map_some, Option.mapM_some, uint32_ofWord]
      rfl
  unfold dataReadBack
  rw [uint63_ofInt64, hkvno]
  split <;> rfl

/-- The octets of a ticket, if it can be written. -/
def ticketOctets (t : Ticket) : Octets :=
  application 1 <| sequenceOf [
    explicit 0 version, explicit 1 (generalString (asciiOctets t.realm)),
    explicit 2 (nameOctets t.sname), explicit 3 (encryptedData t.encPart)]

theorem ticket_of_write {t : Ticket} {w : Octets} (h : t.write = .ok w) :
    IsAscii t.realm ∧ t.sname.IsAscii ∧ w = ticketOctets t := by
  simp only [Ticket.write, except_bind_eq_ok_iff, realm, string_eq_ok_iff, name_eq_ok_iff] at h
  obtain ⟨_, ⟨hrealm, rfl⟩, _, ⟨hsname, rfl⟩, h⟩ := h
  cases h
  exact ⟨hrealm, hsname, rfl⟩

theorem ticketReader_reads_back {tags : List UInt8} (htags : tags.length ≤ 1) {t : Ticket}
    (hrealm : IsAscii t.realm) (hsname : t.sname.IsAscii) :
    ticketReader.Reads tags (wrap tags (ticketOctets t)) (do
      let sname ← readBack t.sname
      let encPart ← dataReadBack t.encPart
      return { t with sname, encPart }) := by
  apply Reader.Reads.application_of_tags htags _ (element_ne_nil _ _) (by decide)
  apply Reader.Reads.sequence
  apply field_reads (buffer_field rfl 0 _)
  apply field_reads (stringReader_reads (by simp) hrealm)
  apply field_reads (nameReader_reads_back hsname)
  apply field_reads (encryptedDataReader_reads_back t.encPart)
  apply Fields.Reads.pure
  rfl

end Wire

/-! ## Replies -/

/-- The strings of the reply are ASCII. -/
structure AsReply.Writable (r : AsReply) : Prop where
  crealm : IsAscii r.crealm
  cname : r.cname.IsAscii
  realm : IsAscii r.ticket.realm
  sname : r.ticket.sname.IsAscii

namespace Wire

/-- What a client finds in a reply before it opens anything. -/
structure ReceivedReply where
  crealm : String
  cname : PrincipalName
  ticket : Ticket
  encPart : EncryptedData

def replyReader : Reader (Checked ReceivedReply) := Reader.application 11 <| Reader.sequence do
  let _ ← Fields.field 0 buffer
  let _ ← Fields.field 1 buffer
  let _ ← Fields.optional 2 (Reader.sequenceOf paDataReader)
  let crealm ← Fields.field 3 stringReader
  let cname ← Fields.field 4 nameReader
  let ticket ← Fields.field 5 ticketReader
  let encPart ← Fields.field 6 encryptedDataReader
  return do
    let cname ← cname
    let ticket ← ticket
    let encPart ← encPart
    return { crealm, cname, ticket, encPart }

theorem paDataReader_reads (p : PaData) : paDataReader.Reads [] (paData p) (.ok p) := by
  refine Reader.Reads.sequence ?_ []
  apply field_reads (buffer_field rfl 1 _)
  apply field_reads (buffer_field rfl 2 _)
  apply Fields.Reads.pure
  rw [uint32_ofWord]
  rfl

/-- The octets of a reply, if it can be written. -/
def replyOctets (r : AsReply) : Octets :=
  let padata := if r.padata.isEmpty then none else some r.padata
  application 11 <| sequenceOf [
    explicit 0 version, explicit 1 (integer [AsReply.messageType]),
    explicit? 2 (padata.map fun ps => sequenceOf (ps.map paData)),
    explicit 3 (generalString (asciiOctets r.crealm)), explicit 4 (nameOctets r.cname),
    explicit 5 (ticketOctets r.ticket), explicit 6 (encryptedData r.encPart)]

theorem reply_of_write {r : AsReply} {w : Octets} (h : r.write = .ok w) :
    r.Writable ∧ w = replyOctets r := by
  simp only [AsReply.write, except_bind_eq_ok_iff, realm, string_eq_ok_iff, name_eq_ok_iff] at h
  obtain ⟨_, ⟨hcrealm, rfl⟩, _, ⟨hcname, rfl⟩, _, hticket, h⟩ := h
  obtain ⟨hrealm, hsname, rfl⟩ := ticket_of_write hticket
  cases h
  refine ⟨⟨hcrealm, hcname, hrealm, hsname⟩, ?_⟩
  unfold replyOctets
  cases r.padata <;> rfl

/-- What a reply comes to that is written and read. -/
def replyReadBack (r : AsReply) : Checked ReceivedReply := do
  let cname ← readBack r.cname
  let sname ← readBack r.ticket.sname
  let ticketPart ← dataReadBack r.ticket.encPart
  let encPart ← dataReadBack r.encPart
  return ⟨r.crealm, cname, { r.ticket with sname, encPart := ticketPart }, encPart⟩

theorem replyReader_reads_back {r : AsReply} (h : r.Writable) :
    replyReader.Reads [] (replyOctets r) (replyReadBack r) := by
  have hpadata : ∀ ps : List PaData, (Reader.sequenceOf paDataReader).Reads [0xa0 + 2]
      (explicit 2 (sequenceOf (ps.map paData))) (ps.map .ok) := by
    intro ps
    exact Reader.Reads.sequenceOf (fun p _ => ⟨paDataReader_reads p, element_ne_nil _ _⟩) _
  apply Reader.Reads.application _ (element_ne_nil _ _) (by decide)
  refine Reader.Reads.sequence ?_ []
  apply field_reads (buffer_field rfl 0 _)
  apply field_reads (buffer_field rfl 1 _)
  apply optional_field_reads (fun ps _ => hpadata ps) (Reader.Skips.sequenceOf _)
    (differs_explicit (by decide) _ _)
  apply field_reads (stringReader_reads (by simp) h.crealm)
  apply field_reads (nameReader_reads_back h.cname)
  apply field_reads (ticketReader_reads_back (by simp) h.realm h.sname)
  apply field_reads (encryptedDataReader_reads_back r.encPart)
  apply Fields.Reads.pure
  unfold replyReadBack
  -- The first of the values that does not come back decides.
  cases readBack r.cname with
  | error cause => rfl
  | ok cname =>
    cases readBack r.ticket.sname with
    | error cause => rfl
    | ok sname => cases dataReadBack r.ticket.encPart <;> rfl

/-- A reply that has been written is read as a reply. -/
theorem reply_read_back {r : AsReply} {w : Octets} (h : r.write = .ok w)
    (hsight : w.length < sightLimit) : replyReader.run w = some (replyReadBack r) := by
  obtain ⟨hwritable, rfl⟩ := reply_of_write h
  exact (replyReader_reads_back hwritable).run hsight

end Wire

/-! ## Error messages -/

/-- The names and times of the error message can be written. -/
structure KrbError.Writable (e : KrbError) : Prop where
  time : e.time.Expressible
  crealm : ∀ s, e.crealm = some s → IsAscii s
  cname : ∀ n, e.cname = some n → n.IsAscii
  realm : IsAscii e.realm
  sname : e.sname.IsAscii

namespace Wire

/-- Reads an error message, up to the part of a second. -/
def errorReader : Reader (Checked KrbError) := Reader.application 30 <| Reader.sequence do
  let _ ← Fields.field 0 buffer
  let _ ← Fields.field 1 buffer
  let _ ← Fields.optional 2 timeReader
  let _ ← Fields.optional 3 buffer
  let time ← Fields.field 4 timeReader
  let _ ← Fields.field 5 buffer
  let code ← Fields.field 6 buffer
  let crealm ← Fields.optional 7 stringReader
  let cname ← Fields.optional 8 nameReader
  let realm ← Fields.field 9 stringReader
  let sname ← Fields.field 10 nameReader
  let text ← Fields.trailing 11 stringReader
  let data ← Fields.trailing 12 buffer
  return do
    let time ← instant "stime" time
    let code ← uint32 "error-code" code
    let cname ← cname.mapM id
    let sname ← sname
    return { code, time, crealm, cname, realm, sname, text, data }

/-- What is left of a text on the wire. -/
def errorText (e : KrbError) : Option String := e.text.filter fun s => IsAscii s

theorem errorText_octets (e : KrbError) :
    (e.text.bind asciiOctets?).map generalString =
      (errorText e).map fun s => generalString (asciiOctets s) := by
  unfold errorText
  cases e.text with
  | none => rfl
  | some s =>
    by_cases hascii : IsAscii s
    · have hoctets : asciiOctets? s = some (asciiOctets s) :=
        asciiOctets?_eq_some_iff.mpr ⟨hascii, rfl⟩
      simp [hascii, hoctets]
    · -- A text that is not ASCII is left out.
      have hoctets : asciiOctets? s = none := by
        rw [Option.eq_none_iff_forall_ne_some]
        intro octets hsome
        exact hascii (asciiOctets?_eq_some_iff.mp hsome).1
      simp [hascii, hoctets]

theorem isAscii_of_errorText {e : KrbError} {s : String} (h : errorText e = some s) :
    IsAscii s := by
  have hascii := (Option.filter_eq_some_iff.mp h).2
  simpa using hascii

/-- The octets of an error message, if it can be written. -/
def errorOctets (e : KrbError) : Octets :=
  application 30 <| sequenceOf [
    explicit 0 version, explicit 1 (integer [KrbError.messageType]),
    explicit 4 (timeOctets e.time), explicit 5 (integer (Integer.ofWord e.usec)),
    explicit 6 (integer (Integer.ofWord e.code)),
    explicit? 7 (e.crealm.map fun s => generalString (asciiOctets s)),
    explicit? 8 (e.cname.map nameOctets), explicit 9 (generalString (asciiOctets e.realm)),
    explicit 10 (nameOctets e.sname),
    explicit? 11 ((errorText e).map fun s => generalString (asciiOctets s)),
    explicit? 12 (e.data.map octetString)]

theorem error_of_write {e : KrbError} {w : Octets} (h : e.write = .ok w) :
    e.Writable ∧ w = errorOctets e := by
  have hstring : realm = string "realm" := rfl
  simp only [KrbError.write, except_bind_eq_ok_iff, liftM_eq_ok_iff, hstring, string_eq_ok_iff,
    mapM_string_eq_ok_iff, name_eq_ok_iff, mapM_name_eq_ok_iff, time_eq_ok_iff,
    errorText_octets] at h
  obtain ⟨_, ⟨htime, rfl⟩, _, ⟨hcrealm, rfl⟩, _, ⟨hcname, rfl⟩, _, ⟨hrealm, rfl⟩,
    _, ⟨hsname, rfl⟩, h⟩ := h
  cases h
  exact ⟨⟨htime, hcrealm, hcname, hrealm, hsname⟩, rfl⟩

/-- What an error message comes to that is written and read. -/
def errorReadBack (e : KrbError) : Checked KrbError := do
  let cname ← e.cname.mapM readBack
  let sname ← readBack e.sname
  return { e with time := e.time.wholeSecond, cname, sname, text := errorText e }

theorem errorReader_reads_back {e : KrbError} (h : e.Writable) :
    errorReader.Reads [] (errorOctets e) (errorReadBack e) := by
  apply Reader.Reads.application _ (element_ne_nil _ _) (by decide)
  refine Reader.Reads.sequence ?_ []
  apply field_reads (buffer_field rfl 0 _)
  apply field_reads (buffer_field rfl 1 _)
  -- The time of the client is never told.
  apply missing_field_reads timeReader_skips (differs_explicit (by decide) _ _)
  apply missing_field_reads (Reader.Skips.primitive _) (differs_explicit (by decide) _ _)
  apply field_reads (timeReader_reads (by simp) h.time)
  apply field_reads (buffer_field rfl 5 _)
  apply field_reads (buffer_field rfl 6 _)
  -- The realm and the name of the client may be missing.
  apply optional_field_reads (fun s hs => stringReader_reads (by simp) (h.crealm s hs))
    stringReader_skips (differs_explicit? (by decide) _ (differs_explicit (by decide) _ _))
  apply optional_field_reads (fun n hn => nameReader_reads_back (h.cname n hn))
    (Reader.Skips.sequence _) (differs_explicit (by decide) _ _)
  apply field_reads (stringReader_reads (by simp) h.realm)
  apply field_reads (nameReader_reads_back h.sname)
  -- The text is followed by the data or by nothing at all.
  apply trailing_field_reads
    (fun t ht => stringReader_reads (by simp) (isAscii_of_errorText ht))
    stringReader_skips (differs_last (by decide) _)
  apply trailing_reads (fun data _ => buffer_field rfl 12 data)
  apply Fields.Reads.pure
  have hcname : (e.cname.map readBack).mapM id = e.cname.mapM readBack := by
    cases e.cname <;> rfl
  rw [instant_civil, uint32_ofWord, hcname, Option.map_id', Option.map_id', Option.map_id']
  rfl

/-- An error message that has been written is read as an error message. -/
theorem error_read_back {e : KrbError} {w : Octets} (h : e.write = .ok w)
    (hsight : w.length < sightLimit) : errorReader.run w = some (errorReadBack e) := by
  obtain ⟨hwritable, rfl⟩ := error_of_write h
  exact (errorReader_reads_back hwritable).run hsight

end Wire

end Kerberos
