import Kerberos.Proofs.Answer
import Kerberos.Proofs.Etypes
import Kerberos.Proofs.Unambiguous

/-! # A hint reaches the client whole

    A client that has proved nothing is told how to prove its key: the encryption types of the
    realm in their order, and the salt of its password.  The salt is repeated with each type,
    so a list of types that is not empty carries it, and a salt that is missing is not a salt
    without letters.  All this is wrapped twice, as one list inside another.
-/

namespace Kerberos

open Asn1

theorem EncryptionType.number_inj {e e' : EncryptionType} (h : e.number = e'.number) : e = e' := by
  have hofNumber := ofNumber?_number e
  rw [h, ofNumber?_number, Option.some.injEq] at hofNumber
  exact hofNumber.symm

namespace Wire

/-- An entry tells its salt, if there is one, and its encryption type. -/
theorem etypeEntry_tells :
    Tells (fun entry : Option String × EncryptionType => ∀ s, entry.1 = some s → IsAscii s)
      fun entry => [explicit 0 (integer (Integer.ofInt64 entry.2.number.toInt64)),
        explicit? 1 (entry.1.map fun s => generalString (asciiOctets s))].flatten := by
  intro entry entry' hascii hascii' hsame
  obtain ⟨hnumber, hsame⟩ := hsame.field
  have hsalt : entry.1 = entry'.1 :=
    (asciiOctets_tells.element 0x1b).option hascii hascii' hsame.lastField
  have hetype : entry.2 = entry'.2 :=
    EncryptionType.number_inj (ofInt64_toInt64_inj hnumber.element.same)
  exact Prod.ext hsalt hetype

end Wire

namespace PreAuthHint

variable {h h' : PreAuthHint}

/-- Each encryption type with the salt. -/
def entries (h : PreAuthHint) : List (Option String × EncryptionType) :=
  h.etypes.map fun etype => (h.salt, etype)

theorem etypes_eq_of_entries (hentries : h.entries = h'.entries) : h.etypes = h'.etypes := by
  have htypes : ∀ hint : PreAuthHint, hint.entries.map Prod.snd = hint.etypes := by
    intro hint
    unfold entries
    rw [List.map_map]
    exact List.map_id _
  rw [← htypes h, hentries, htypes]

/-- The first entry has the salt. -/
theorem eq_of_entries (hentries : h.entries = h'.entries) (hne : h.etypes ≠ []) : h = h' := by
  have hetypes := etypes_eq_of_entries hentries
  obtain ⟨etypes, salt⟩ := h
  obtain ⟨etypes', salt'⟩ := h'
  subst hetypes
  obtain ⟨etype, etypes, rfl⟩ := List.exists_cons_of_ne_nil hne
  have hsalt : salt = salt' := congrArg Prod.fst (List.cons.inj hentries).1
  rw [hsalt]

/-- The encryption types and the salt can be told from the list of entries. -/
theorem entries_eq_of_etypeInfo {w w' : Octets} (hw : h.etypeInfo2 = .ok w)
    (hw' : h'.etypeInfo2 = .ok w') (hsame : Coincide w w') : h.entries = h'.entries := by
  obtain ⟨hascii, rfl⟩ := Wire.etypeInfo_of_write hw
  obtain ⟨hascii', rfl⟩ := Wire.etypeInfo_of_write hw'
  -- The salt is the same in all entries, so all of them can be written if one can.
  have hall : ∀ hint : PreAuthHint, (∀ s, hint.salt = some s → IsAscii s) →
      ∀ entry ∈ hint.entries, ∀ s, entry.1 = some s → IsAscii s := by
    intro hint hascii entry hentry
    obtain ⟨_, _, rfl⟩ := List.mem_map.mp hentry
    exact hascii
  have hwritten : ∀ hint : PreAuthHint,
      hint.etypes.map (Wire.etypeEntryOctets hint.salt) =
        hint.entries.map fun entry => Wire.etypeEntryOctets entry.1 entry.2 := by
    intro hint
    unfold entries
    rw [List.map_map]
    rfl
  rw [hwritten h, hwritten h'] at hsame
  exact Wire.etypeEntry_tells.members 0x30 _ _ (hall h hascii) (hall h' hascii') hsame.element

/-! ## Lists of methods -/

theorem methodData_eq_ok_iff {w : Octets} :
    h.methodData = .ok w ↔ ∃ info, h.etypeInfo2 = .ok info ∧
      w = Kerberos.methodData [⟨PaData.etypeInfo2, info⟩, ⟨PaData.encTimestamp, []⟩] := by
  unfold methodData
  rw [except_bind_eq_ok_iff]
  simp only [pure, Except.pure, Except.ok.injEq, eq_comm]

/-- The list of entries is the value of the first method. -/
theorem coincide_of_methodData {info info' : Octets} {more more' : List PaData}
    {kind : UInt32}
    (hsame : Coincide (Kerberos.methodData (⟨kind, info⟩ :: more))
      (Kerberos.methodData (⟨kind, info'⟩ :: more'))) : Coincide info info' := by
  obtain ⟨hfirst, -⟩ := hsame.element.element_append
  obtain ⟨-, hvalue⟩ := hfirst.field
  exact hvalue.field.1.element

/-- Only a salt that is not ASCII keeps a hint from being written. -/
theorem methodData_eq_error_iff {cause : WireError} :
    h.methodData = .error cause ↔
      cause = .invalidString "salt" ∧ ∃ s, h.salt = some s ∧ ¬ IsAscii s := by
  have hrefused : ∀ s, h.salt = some s → ¬ IsAscii s →
      h.methodData = .error (.invalidString "salt") := by
    intro s hs hascii
    unfold methodData etypeInfo2
    rw [hs, Option.mapM_some, Wire.string_eq_ite, if_neg hascii]
    rfl
  constructor
  · intro herror
    by_cases hsalt : ∀ s, h.salt = some s → IsAscii s
    · obtain ⟨info, hinfo⟩ := exists_etypeInfo2 hsalt
      rw [methodData_eq_ok_iff.mpr ⟨info, hinfo, rfl⟩] at herror
      cases herror
    · push Not at hsalt
      obtain ⟨s, hs, hascii⟩ := hsalt
      rw [hrefused s hs hascii] at herror
      exact ⟨(Except.error.inj herror).symm, s, hs, hascii⟩
  · rintro ⟨rfl, s, hs, hascii⟩
    exact hrefused s hs hascii

/-- A hint is written unless its salt is not ASCII.  Two hints that are written alike have the
    same encryption types in the same order, and if there are any, the same salt. -/
theorem methodData_tells_hint (h h' : PreAuthHint) :
    (∀ cause, h.methodData = .error cause ↔
      cause = .invalidString "salt" ∧ ∃ s, h.salt = some s ∧ ¬ IsAscii s) ∧
    ∀ w, h.methodData = .ok w → h'.methodData = .ok w → w.length < 2 ^ 64 →
      h.etypes = h'.etypes ∧ (h.etypes ≠ [] → h = h') := by
  refine ⟨fun cause => methodData_eq_error_iff, ?_⟩
  intro w hwrite hwrite' hcountable
  -- From the list of methods to the list of entries within it, and from there to the hint.
  obtain ⟨info, hinfo, hw⟩ := methodData_eq_ok_iff.mp hwrite
  obtain ⟨info', hinfo', hw'⟩ := methodData_eq_ok_iff.mp hwrite'
  rw [hw] at hw' hcountable
  have hentries : h.entries = h'.entries :=
    entries_eq_of_etypeInfo hinfo hinfo' (coincide_of_methodData ⟨hw', by omega⟩)
  exact ⟨etypes_eq_of_entries hentries, eq_of_entries hentries⟩

/-- A salt without letters is told from a missing one, and a type that comes a second time is
    told from one that does not.  Without types, too, a salt with other letters is refused. -/
theorem methodData_tells_hint_of_empty_salt :
    let h : PreAuthHint := ⟨[.aes256, .aes128, .aes256], some ""⟩
    (∃ w, h.methodData = .ok w ∧ methodData { h with salt := none } ≠ .ok w ∧
      methodData { h with etypes := [.aes256, .aes128] } ≠ .ok w) ∧
    methodData ⟨[], some "MÜNCHEN.DE"⟩ = .error (.invalidString "salt") := by
  intro h
  have hsalt : ∀ s, h.salt = some s → IsAscii s := by
    intro s hs
    cases hs
    decide
  obtain ⟨info, hinfo⟩ := exists_etypeInfo2 hsalt
  have hwrite := methodData_eq_ok_iff.mpr ⟨info, hinfo, rfl⟩
  have hcountable : (Kerberos.methodData
      [⟨PaData.etypeInfo2, info⟩, ⟨PaData.encTimestamp, []⟩]).length < 2 ^ 64 := by
    rw [(Wire.etypeInfo_of_write hinfo).2]
    decide +kernel
  refine ⟨⟨_, hwrite, ?_, ?_⟩, ?_⟩
  · intro hwrite'
    obtain ⟨-, hsame⟩ := (methodData_tells_hint h _).2 _ hwrite hwrite' hcountable
    have hnone : h.salt = none := congrArg salt (hsame (List.cons_ne_nil _ _))
    cases hnone
  · intro hwrite'
    obtain ⟨hetypes, -⟩ := (methodData_tells_hint h _).2 _ hwrite hwrite' hcountable
    cases hetypes
  · exact ((methodData_tells_hint _ h).1 _).mpr ⟨rfl, "MÜNCHEN.DE", rfl, by decide⟩

end PreAuthHint

end Kerberos
