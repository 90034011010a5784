import Kerberos.Proofs.ErrorCode
import Kerberos.Proofs.TicketRoundTrip

/-! # Octets tell what was written

    Every value is written with its length in front, so where it ends shows in its octets, even
    if others follow.  Two sequences of members that are written alike are therefore alike
    member by member, and from the members up to whole replies, what was written can be told
    from the octets.  That holds of name types and encryption types that no reader accepts, too.

    Lengths are told apart as long as a machine word can count them, and it can count all octets
    that fit in memory.  `Coincide` carries this bound from the whole down to its parts.

    ## Contents

    * `Coincide`: octets that are the same and can be counted, and their parts.
    * `Tells`: writers whose octets tell the value, for values with a property.
    * `AsReply.octets_tell_reply`: what the octets of a reply tell, and what they do not.
-/

namespace Kerberos

namespace Asn1

/-! ## Parts of the same octets -/

/-- The octets are the same, and there are no more of them than a machine word can count. -/
structure Coincide (w w' : Octets) : Prop where
  same : w = w'
  countable : w.length < 256 ^ 8

namespace Coincide

theorem element {tag : UInt8} {inner inner' : Octets}
    (h : Coincide (element tag inner) (element tag inner')) : Coincide inner inner' where
  same := element_inj h.same
  countable := by
    have hlength := length_element tag inner
    have hcountable := h.countable
    omega

theorem element_append {tag : UInt8} {inner inner' tail tail' : Octets}
    (h : Coincide (Asn1.element tag inner ++ tail) (Asn1.element tag inner' ++ tail')) :
    Coincide inner inner' ∧ Coincide tail tail' := by
  obtain ⟨hsame, hcountable⟩ := h
  -- Both values are part of the same octets, so both can be counted.
  have hcountable' := hcountable
  rw [hsame] at hcountable'
  rw [List.length_append, length_element] at hcountable hcountable'
  obtain ⟨hinner, htail⟩ := element_append_inj (by omega) (by omega) hsame
  exact ⟨⟨hinner, by omega⟩, ⟨htail, by omega⟩⟩

/-! ### Fields -/

variable {n : UInt8} {ws ws' : List Octets}

theorem field {value value' : Octets}
    (h : Coincide (explicit n value :: ws).flatten (explicit n value' :: ws').flatten) :
    Coincide value value' ∧ Coincide ws.flatten ws'.flatten := by
  rw [List.flatten_cons, List.flatten_cons] at h
  exact h.element_append

/-- What follows a field that may be missing shows whether it is missing. -/
theorem optionalField {o o' : Option Octets} (hws : Reader.Differs (0xa0 + n) ws.flatten)
    (hws' : Reader.Differs (0xa0 + n) ws'.flatten)
    (h : Coincide (explicit? n o :: ws).flatten (explicit? n o' :: ws').flatten) :
    Option.Rel Coincide o o' ∧ Coincide ws.flatten ws'.flatten := by
  have habsurd : ∀ {value : Octets} {more more' : List Octets},
      Reader.Differs (0xa0 + n) more.flatten →
      more.flatten ≠ (explicit n value :: more').flatten := by
    rintro value more more' ⟨other, second, rest, hmore, hother⟩ hsame
    rw [hmore] at hsame
    exact hother (List.cons.inj hsame).1
  cases o with
  | none =>
    cases o' with
    | none => exact ⟨.none, h⟩
    | some value' => exact absurd h.same (habsurd hws)
  | some value =>
    cases o' with
    | none => exact absurd h.same.symm (habsurd hws')
    | some value' =>
      obtain ⟨hvalue, hrest⟩ := h.field
      exact ⟨.some hvalue, hrest⟩

/-- At the end of a sequence, a missing field shows in that nothing is left. -/
theorem lastField {o o' : Option Octets}
    (h : Coincide [explicit? n o].flatten [explicit? n o'].flatten) :
    Option.Rel Coincide o o' := by
  cases o with
  | none =>
    cases o' with
    | none => exact .none
    | some value' => cases h.same
  | some value =>
    cases o' with
    | none => cases h.same
    | some value' => exact .some h.field.1

end Coincide

/-! ## Writers -/

section tells
variable {α : Type} {P : α → Prop}

/-- Values with the property `P` are told by their octets. -/
def Tells (P : α → Prop) (write : α → Octets) : Prop :=
  ∀ a b, P a → P b → Coincide (write a) (write b) → a = b

theorem Tells.element {inner : α → Octets} (h : Tells P inner) (tag : UInt8) :
    Tells P fun a => element tag (inner a) :=
  fun a b ha hb hsame => h a b ha hb hsame.element

/-- A list is told by its members, one right after the other. -/
theorem Tells.members {inner : α → Octets} (h : Tells P inner) (tag : UInt8) :
    Tells (fun as : List α => ∀ a ∈ as, P a) fun as =>
      (as.map fun a => Asn1.element tag (inner a)).flatten := by
  intro as
  induction as with
  | nil =>
    intro bs _ _ hsame
    cases bs with
    | nil => rfl
    | cons b bs => cases hsame.same
  | cons a as ih =>
    intro bs has hbs hsame
    cases bs with
    | nil => cases hsame.same
    | cons b bs =>
      obtain ⟨ha, has⟩ := List.forall_mem_cons.mp has
      obtain ⟨hb, hbs⟩ := List.forall_mem_cons.mp hbs
      simp only [List.map_cons, List.flatten_cons] at hsame
      obtain ⟨hfirst, hrest⟩ := hsame.element_append
      rw [h a b ha hb hfirst, ih bs has hbs hrest]

theorem Tells.option {write : α → Octets} (h : Tells P write) {o o' : Option α}
    (ho : ∀ a, o = some a → P a) (ho' : ∀ a, o' = some a → P a)
    (hsame : Option.Rel Coincide (o.map write) (o'.map write)) : o = o' := by
  cases o with
  | none =>
    cases o' with
    | none => rfl
    | some b => cases hsame
  | some a =>
    cases o' with
    | none => cases hsame
    | some b =>
      cases hsame with
      | some hsame => rw [h a b (ho a rfl) (ho' b rfl) hsame]

end tells

end Asn1

open Asn1

namespace Wire

/-! ## Values -/

theorem ofInt64_toInt64_inj {n m : UInt64}
    (h : Integer.ofInt64 n.toInt64 = Integer.ofInt64 m.toInt64) : n = m := by
  have hn := Integer.toInt64?_ofInt64 n.toInt64
  rw [h, Integer.toInt64?_ofInt64, Option.some.injEq] at hn
  -- A word and the number with the same bits are one register.
  have hbits : ∀ k : UInt64, k.toInt64.toUInt64 = k := fun _ => rfl
  rw [← hbits n, ← hn, hbits]

theorem asciiOctets_tells : Tells IsAscii asciiOctets := by
  intro s t hs ht hsame
  rw [← ofAscii_asciiOctets hs, hsame.same, ofAscii_asciiOctets ht]

theorem ofWord_tells : Tells (fun _ => True) Integer.ofWord :=
  fun _ _ _ _ hsame => ofWord_inj hsame.same

theorem nameOctets_tells : Tells PrincipalName.IsAscii nameOctets := by
  intro n n' hn hn' hsame
  obtain ⟨hkind, hsame⟩ := hsame.element.field
  obtain ⟨hcomponents, -⟩ := hsame.field
  have hkind : n.kind = n'.kind := (List.cons.inj hkind.element.same).1
  have hcomponents : n.components = n'.components :=
    asciiOctets_tells.members 0x1b _ _ hn hn' hcomponents.element
  cases n
  cases n'
  rw [PrincipalName.mk.injEq]
  exact ⟨hkind, hcomponents⟩

theorem paData_tells : Tells (fun _ => True) fun p : PaData =>
    [explicit 1 (integer (Integer.ofWord p.kind)), explicit 2 (octetString p.value)].flatten := by
  intro p p' _ _ hsame
  obtain ⟨hkind, hsame⟩ := hsame.field
  obtain ⟨hvalue, -⟩ := hsame.field
  cases p
  cases p'
  rw [PaData.mk.injEq]
  exact ⟨ofWord_inj hkind.element.same, hvalue.element.same⟩

theorem encryptedData_tells : Tells (fun _ => True) encryptedData := by
  intro d d' _ _ hsame
  obtain ⟨hetype, hsame⟩ := hsame.element.field
  -- The version of the key may be missing, and the ciphertext follows.
  obtain ⟨hkvno, hsame⟩ :=
    hsame.optionalField (differs_explicit (by decide) _ _) (differs_explicit (by decide) _ _)
  obtain ⟨hcipher, -⟩ := hsame.field
  have hetype : d.etype = d'.etype := ofInt64_toInt64_inj hetype.element.same
  have hkvno : d.kvno = d'.kvno :=
    (ofWord_tells.element 0x02).option (fun _ _ => trivial) (fun _ _ => trivial) hkvno
  cases d
  cases d'
  rw [EncryptedData.mk.injEq]
  exact ⟨hetype, hkvno, hcipher.element.same⟩

theorem ticketOctets_tells :
    Tells (fun t => IsAscii t.realm ∧ t.sname.IsAscii) ticketOctets := by
  intro t t' ht ht' hsame
  obtain ⟨-, hsame⟩ := hsame.element.element.field
  obtain ⟨hrealm, hsame⟩ := hsame.field
  obtain ⟨hsname, hsame⟩ := hsame.field
  obtain ⟨hencPart, -⟩ := hsame.field
  have hrealm : t.realm = t'.realm := asciiOctets_tells _ _ ht.1 ht'.1 hrealm.element
  have hsname : t.sname = t'.sname := nameOctets_tells _ _ ht.2 ht'.2 hsname
  have hencPart : t.encPart = t'.encPart := encryptedData_tells _ _ trivial trivial hencPart
  cases t
  cases t'
  rw [Ticket.mk.injEq]
  exact ⟨hrealm, hsname, hencPart⟩

end Wire

/-! ## Replies -/

/-- The replies agree in all that a client sees before it opens anything. -/
structure AsReply.SameOnWire (r r' : AsReply) : Prop where
  padata : r.padata = r'.padata
  crealm : r.crealm = r'.crealm
  cname : r.cname = r'.cname
  ticket : r.ticket = r'.ticket
  encPart : r.encPart = r'.encPart

/-- The plaintext is no part of what is written. -/
theorem AsReply.SameOnWire.write_eq {r r' : AsReply} (h : r.SameOnWire r') :
    r.write = r'.write := by
  unfold AsReply.write
  rw [h.padata, h.crealm, h.cname, h.ticket, h.encPart]

namespace Wire

/-- A reply is written if its strings can be. -/
theorem reply_of_writable {r : AsReply} (h : r.Writable) : r.write = .ok (replyOctets r) := by
  have hcrealm : realm r.crealm = .ok _ := string_eq_ok_iff.mpr ⟨h.crealm, rfl⟩
  have hcname : name r.cname = .ok _ := name_eq_ok_iff.mpr ⟨h.cname, rfl⟩
  have hticket := r.ticket.write_eq_ite.trans (if_pos ⟨h.realm, h.sname⟩)
  unfold AsReply.write replyOctets
  rw [hcrealm, hcname, hticket]
  cases r.padata <;> rfl

theorem replyOctets_sameOnWire {r r' : AsReply} (hr : r.Writable) (hr' : r'.Writable)
    (hsame : Coincide (replyOctets r) (replyOctets r')) : r.SameOnWire r' := by
  obtain ⟨-, hsame⟩ := hsame.element.element.field
  obtain ⟨-, hsame⟩ := hsame.field
  obtain ⟨hpadata, hsame⟩ :=
    hsame.optionalField (differs_explicit (by decide) _ _) (differs_explicit (by decide) _ _)
  obtain ⟨hcrealm, hsame⟩ := hsame.field
  obtain ⟨hcname, hsame⟩ := hsame.field
  obtain ⟨hticket, hsame⟩ := hsame.field
  obtain ⟨hencPart, -⟩ := hsame.field
  constructor
  · have hlist := (paData_tells.members 0x30).element 0x30
    have hoption := hlist.option (fun _ _ _ _ => trivial) (fun _ _ _ _ => trivial) hpadata
    -- Only an empty list is left out, so a list that is there is not empty.
    cases hps : r.padata with
    | nil => cases hps' : r'.padata with
      | nil => rfl
      | cons p' ps' => simp [hps, hps'] at hoption
    | cons p ps => cases hps' : r'.padata with
      | nil => simp [hps, hps'] at hoption
      | cons p' ps' => simpa [hps, hps'] using hoption
  · exact asciiOctets_tells _ _ hr.crealm hr'.crealm hcrealm.element
  · exact nameOctets_tells _ _ hr.cname hr'.cname hcname
  · exact ticketOctets_tells _ _ ⟨hr.realm, hr.sname⟩ ⟨hr'.realm, hr'.sname⟩ hticket
  · exact encryptedData_tells _ _ trivial trivial hencPart

end Wire

/-- Replies that agree on the wire are written alike, whatever their plaintexts are.  And if
    replies are written alike then they agree on the wire: in the pre-authentication data, in
    the realm and the name of the client, in the ticket, and in the sealed part. -/
theorem AsReply.octets_tell_reply (r r' : AsReply) :
    (r.SameOnWire r' → r.write = r'.write) ∧
    ∀ w, r.write = .ok w → r'.write = .ok w → w.length < 2 ^ 64 → r.SameOnWire r' := by
  refine ⟨AsReply.SameOnWire.write_eq, ?_⟩
  intro w hwrite hwrite' hcountable
  obtain ⟨hr, hw⟩ := Wire.reply_of_write hwrite
  obtain ⟨hr', hw'⟩ := Wire.reply_of_write hwrite'
  apply Wire.replyOctets_sameOnWire hr hr'
  constructor
  · rw [← hw, hw']
  · rw [← hw]
    omega

namespace Sample

/-- A reply with a name type and an encryption type that no reader accepts. -/
def strangeReply : AsReply :=
  { padata := [], crealm := "EXAMPLE.COM", cname := ⟨200, ["pw13", ""]⟩, ticket := greatestTicket
    encPart := ⟨0xffffffffffffffff, none, []⟩, part := replyPart }

end Sample

/-- Another plaintext makes no difference.  A version of the key that is zero, and so takes one
    octet, is no missing version, and an empty component of a name is not left out. -/
theorem AsReply.octets_tell_reply_of_strange :
    let r := Sample.strangeReply
    (∃ w, r.write = .ok w ∧
      AsReply.write { r with part := { r.part with nonce := 0 } } = .ok w) ∧
    AsReply.write { r with encPart := { r.encPart with kvno := some 0 } } ≠ r.write ∧
    AsReply.write { r with cname := ⟨200, ["pw13"]⟩ } ≠ r.write := by
  intro r
  have hwrite : r.write = .ok (Wire.replyOctets r) :=
    Wire.reply_of_writable ⟨by decide, by decide, by decide, by decide⟩
  have hcountable : (Wire.replyOctets r).length < 2 ^ 64 := by decide +kernel
  have htold : ∀ r', AsReply.write r' = r.write → r.SameOnWire r' := fun r' halike =>
    (octets_tell_reply r r').2 _ hwrite (halike.trans hwrite) hcountable
  refine ⟨⟨_, hwrite, ?_⟩, ?_, ?_⟩
  · have hsame : r.SameOnWire { r with part := { r.part with nonce := 0 } } :=
      ⟨rfl, rfl, rfl, rfl, rfl⟩
    rw [← (octets_tell_reply _ _).1 hsame, hwrite]
  · intro halike
    cases (htold _ halike).encPart
  · intro halike
    cases (htold _ halike).cname

end Kerberos
