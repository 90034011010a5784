import Kerberos.Proofs.Calendar
import Kerberos.Proofs.Exchange
import Kerberos.Wire.Field

/-! # What can be written

    Two kinds of value may fail to be written: strings, if they hold a character outside
    ASCII, and times, if they lie before year 0.  Here is what the others come to.
-/

namespace Kerberos

/-! ## Strings -/

/-- All characters are ASCII. -/
def IsAscii (s : String) : Prop := ∀ c ∈ s.toList, c.toNat < 128

instance (s : String) : Decidable (IsAscii s) :=
  List.decidableBAll (fun c : Char => c.toNat < 128) s.toList

/-- All components are ASCII. -/
def PrincipalName.IsAscii (n : PrincipalName) : Prop := ∀ s ∈ n.components, Kerberos.IsAscii s

theorem PrincipalName.isAscii_krbtgt {realm : String} (h : Kerberos.IsAscii realm) :
    (krbtgt realm).IsAscii := by
  intro s hs
  rcases List.mem_cons.mp hs with rfl | hs
  · show Kerberos.IsAscii "krbtgt"
    decide
  · rw [List.mem_singleton.mp hs]
    exact h

namespace Wire

open Asn1

/-- The octets of an ASCII string. -/
def asciiOctets (s : String) : Octets := s.toList.map fun c => UInt8.ofNat c.toNat

theorem asciiOctets?_eq_some_iff {s : String} {octets : Octets} :
    asciiOctets? s = some octets ↔ IsAscii s ∧ octets = asciiOctets s := by
  have hall : s.toList.all (fun c => c.toNat < 128) = true ↔ IsAscii s := by
    simp [IsAscii]
  unfold asciiOctets?
  split
  · next h =>
    rw [Option.some.injEq]
    exact ⟨fun heq => ⟨hall.mp h, heq.symm⟩, fun heq => heq.2.symm⟩
  · next h =>
    constructor
    · intro heq
      cases heq
    · exact fun heq => absurd (hall.mpr heq.1) h

theorem string_eq_ok_iff {field s : String} {w : Octets} :
    string field s = .ok w ↔ IsAscii s ∧ w = generalString (asciiOctets s) := by
  unfold string
  cases hoctets : asciiOctets? s with
  | none =>
    -- Some character is not ASCII, so neither side holds.
    constructor
    · intro h
      cases h
    · rintro ⟨hascii, -⟩
      rw [asciiOctets?_eq_some_iff.mpr ⟨hascii, rfl⟩] at hoctets
      cases hoctets
  | some octets =>
    obtain ⟨hascii, rfl⟩ := asciiOctets?_eq_some_iff.mp hoctets
    show Except.ok _ = _ ↔ _
    rw [Except.ok.injEq]
    exact ⟨fun heq => ⟨hascii, heq.symm⟩, fun heq => heq.2.symm⟩

theorem mapM_string_eq_ok_iff {field : String} {o : Option String} {w : Option Octets} :
    o.mapM (string field) = .ok w ↔
      (∀ s, o = some s → IsAscii s) ∧ w = o.map fun s => generalString (asciiOctets s) :=
  except_mapM_option_eq_ok_iff fun _ _ => string_eq_ok_iff

/-- The octets of a name, if its components are ASCII. -/
def nameOctets (n : PrincipalName) : Octets :=
  sequenceOf [explicit 0 (integer [n.kind]),
    explicit 1 (sequenceOf (n.components.map fun s => generalString (asciiOctets s)))]

theorem name_eq_ok_iff {n : PrincipalName} {w : Octets} :
    name n = .ok w ↔ n.IsAscii ∧ w = nameOctets n := by
  unfold name
  rw [except_bind_eq_ok_iff]
  simp only [except_mapM_list_eq_ok_iff fun s w => string_eq_ok_iff, pure, Except.pure, Except.ok.injEq]
  constructor
  · rintro ⟨_, ⟨hascii, rfl⟩, rfl⟩
    exact ⟨hascii, rfl⟩
  · rintro ⟨hascii, rfl⟩
    exact ⟨_, ⟨hascii, rfl⟩, rfl⟩

theorem mapM_name_eq_ok_iff {o : Option PrincipalName} {w : Option Octets} :
    o.mapM name = .ok w ↔ (∀ n, o = some n → n.IsAscii) ∧ w = o.map nameOctets :=
  except_mapM_option_eq_ok_iff fun _ _ => name_eq_ok_iff

/-! ## Times -/

/-- The octets of a time from year 0 on. -/
def timeOctets (t : Instant) : Octets :=
  let c := t.civil
  generalizedTime (decimal 4 c.year.toNat ++ decimal 2 c.month ++ decimal 2 c.day
    ++ decimal 2 c.hour ++ decimal 2 c.minute ++ decimal 2 c.second ++ [0x5a])

theorem time_of_expressible {t : Instant} (h : t.Expressible) : time t = .ok (timeOctets t) := by
  unfold time
  exact if_neg (Int.not_lt.mpr h)

theorem time_eq_ok_iff {t : Instant} {w : Octets} :
    time t = .ok w ↔ t.Expressible ∧ w = timeOctets t := by
  by_cases h : t.Expressible
  · rw [time_of_expressible h, Except.ok.injEq]
    exact ⟨fun heq => ⟨h, heq.symm⟩, fun heq => heq.2.symm⟩
  · unfold time
    rw [if_pos (Int.not_le.mp h)]
    constructor
    · intro heq
      cases heq
    · exact fun heq => absurd heq.1 h

end Wire

/-- All times of the part can be written. -/
structure EncTicketPart.Timed (p : EncTicketPart) : Prop where
  authTime : p.authTime.Expressible
  startTime : ∀ t, p.startTime = some t → t.Expressible
  endTime : p.endTime.Expressible
  renewTill : ∀ t, p.renewTill = some t → t.Expressible

end Kerberos
