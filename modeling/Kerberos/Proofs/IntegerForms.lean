import Kerberos.Proofs.IntegerRange

/-! # The octets that write a number

    Sign octets in front do not change the number that octets write (`value_signExtended`),
    so every number has a form of each length from a shortest one on, and no others.  The
    writer drops sign octets as long as the octet behind has the same sign.  Where it stops,
    the number is out of the range of one octet less, so what is left is the shortest form.
-/

namespace Kerberos
namespace Asn1.Integer

/-! ## The value of octets -/

/-- Octets write the numbers of as many bits as they have, below zero if their sign is set. -/
theorem value_bounds (octets : Octets) :
    (signOctet octets = 0x00 ∧ value octets = bigEndian octets ∧
      2 * value octets < (256 ^ octets.length : Nat)) ∨
    (signOctet octets = 0xff ∧ value octets = bigEndian octets - (256 ^ octets.length : Nat) ∧
      value octets < 0 ∧ -(256 ^ octets.length : Nat) ≤ 2 * value octets) := by
  have hlt := bigEndian_lt octets
  have hsign := signOctet_iff octets
  have hvalue := value_eq octets
  rcases signOctet_eq octets with hclear | hset
  · rw [hclear, if_neg (by decide), sub_zero] at hvalue
    have hsmall : ¬ 256 ^ octets.length ≤ 2 * bigEndian octets := by
      rw [← hsign, hclear]
      decide
    exact .inl ⟨hclear, hvalue, by omega⟩
  · have hlarge := hsign.mp hset
    rw [if_pos hset] at hvalue
    have hcast : ((256 ^ octets.length : Nat) : Int) = 256 ^ octets.length := by
      push_cast
      rfl
    rw [← hcast] at hvalue
    exact .inr ⟨hset, hvalue, by omega, by omega⟩

theorem signOctet_eq_ite (octets : Octets) :
    signOctet octets = if value octets < 0 then 0xff else 0x00 := by
  rcases value_bounds octets with ⟨hsign, hvalue, -⟩ | ⟨hsign, -, hnegative, -⟩
  · rw [hsign, if_neg (by omega)]
  · rw [hsign, if_pos hnegative]

theorem signOctet_eq_of_value_eq {a b : Octets} (h : value a = value b) :
    signOctet a = signOctet b := by
  rw [signOctet_eq_ite, signOctet_eq_ite, h]

/-- Octets of one length write different numbers. -/
theorem eq_of_value_eq {a b : Octets} (hlength : a.length = b.length) (h : value a = value b) :
    a = b := by
  have hnumeral : bigEndian a = bigEndian b := by
    have ha := value_bounds a
    have hb := value_bounds b
    rw [hlength] at ha
    omega
  rw [← bigEndianOctets_bigEndian a, hlength, hnumeral, bigEndianOctets_bigEndian]

theorem value_congr {a b : Octets} (hsign : signOctet a = signOctet b)
    (hsignificant : significant a = significant b) : value a = value b := by
  rcases signOctet_eq a with hclear | hset
  · rw [value_of_clear hclear, value_of_clear (hsign.symm.trans hclear), hsignificant]
  · rw [value_of_set hset, value_of_set (hsign.symm.trans hset), hsignificant]

theorem value_shortest (octets : Octets) : value (shortest octets) = value octets := by
  obtain ⟨hsign, hsignificant⟩ := significant_shortest octets
  exact value_congr hsign hsignificant

theorem value_cons_signOctet (octets : Octets) :
    value (signOctet octets :: octets) = value octets :=
  value_congr (signOctet_cons_signOctet octets) (significant_cons_signOctet octets)

/-! ## Forms of a number -/

/-- Sign octets in front change neither the sign nor the number. -/
theorem value_signExtended (count : Nat) (octets : Octets) :
    signOctet (List.replicate count (signOctet octets) ++ octets) = signOctet octets ∧
      value (List.replicate count (signOctet octets) ++ octets) = value octets := by
  induction count with
  | zero => exact ⟨rfl, rfl⟩
  | succ count ih =>
    obtain ⟨hsign, hvalue⟩ := ih
    rw [List.replicate_succ, List.cons_append]
    generalize List.replicate count (signOctet octets) ++ octets = extended at hsign hvalue ⊢
    rw [← hsign, ← hvalue]
    exact ⟨signOctet_cons_signOctet extended, value_cons_signOctet extended⟩

/-- In front of the shortest form there are sign octets only. -/
theorem exists_eq_replicate_append_shortest (octets : Octets) :
    ∃ count, octets = List.replicate count (signOctet octets) ++ shortest octets := by
  fun_induction shortest octets with
  | case1 first second rest h ih =>
    have hfirst := (dropped_iff rest).mp h
    obtain ⟨count, hcount⟩ := ih
    refine ⟨count + 1, ?_⟩
    rw [hfirst, signOctet_cons_signOctet, List.replicate_succ, List.cons_append, ← hcount]
  | case2 => exact ⟨0, rfl⟩
  | case3 => exact ⟨0, rfl⟩

/-- The number lies in the range of so many octets. -/
def Fits (length : Nat) (n : Int) : Prop :=
  -(256 ^ length : Nat) ≤ 2 * n ∧ 2 * n < (256 ^ length : Nat)

theorem fits_value (octets : Octets) : Fits octets.length (value octets) := by
  have hlt := bigEndian_lt octets
  unfold Fits
  rcases value_bounds octets with ⟨-, hvalue, hhigh⟩ | ⟨-, -, hnegative, hlow⟩
  · exact ⟨by omega, hhigh⟩
  · exact ⟨hlow, by omega⟩

theorem Fits.mono {length length' : Nat} {n : Int} (h : Fits length n) (hle : length ≤ length') :
    Fits length' n := by
  have hpow : 256 ^ length ≤ 256 ^ length' := Nat.pow_le_pow_right (by decide) hle
  unfold Fits at *
  omega

/-- An octet that is not the sign of those behind it takes the number out of their range. -/
theorem not_fits_of_ne_signOctet {first : UInt8} {rest : Octets} (h : first ≠ signOctet rest) :
    ¬ Fits rest.length (value (first :: rest)) := by
  have hnumeral := bigEndian_cons first rest
  have hlt := bigEndian_lt rest
  have hfirst : first.toNat < 256 := first.toNat_lt
  have hvalue := value_bounds (first :: rest)
  have hrest := value_bounds rest
  rw [List.length_cons, pow_succ] at hvalue
  unfold Fits
  generalize 256 ^ rest.length = q at *
  generalize bigEndian (first :: rest) = numeral at *
  generalize value (first :: rest) = v at *
  rcases hrest with ⟨hclear, hlow, hhigh⟩ | ⟨hset, hlow, -, hhigh⟩
  · -- The octets behind have no sign, and take up the lower half of their range.
    have hpos : 1 ≤ first.toNat := by
      by_contra hzero
      apply h
      rw [hclear]
      apply UInt8.toNat_inj.mp
      simp
      omega
    have hmin : 1 * q ≤ first.toNat * q := Nat.mul_le_mul_right q hpos
    have hmax : first.toNat * q ≤ 255 * q := Nat.mul_le_mul_right q (by omega)
    omega
  · -- They have a sign, and take up the upper half.
    have hbelow : first.toNat ≤ 254 := by
      by_contra hones
      apply h
      rw [hset]
      apply UInt8.toNat_inj.mp
      simp
      omega
    have hmax : first.toNat * q ≤ 254 * q := Nat.mul_le_mul_right q hbelow
    omega

/-- No octets of the same value are fewer than the shortest, unless they are none. -/
theorem length_shortest_le_of_value_eq {octets other : Octets} (hother : other ≠ [])
    (h : value other = value octets) : (shortest octets).length ≤ other.length := by
  have hpos := List.length_pos_iff.mpr hother
  fun_induction shortest octets with
  | case1 first second rest hdropped ih =>
    have hfirst := (dropped_iff rest).mp hdropped
    rw [hfirst, value_cons_signOctet] at h
    exact ih h
  | case2 first second rest hkept =>
    by_contra hshorter
    rw [List.length_cons, List.length_cons] at hshorter
    have hfits := (fits_value other).mono (show other.length ≤ rest.length + 1 by omega)
    rw [h] at hfits
    have hne := mt (dropped_iff rest).mpr hkept
    exact not_fits_of_ne_signOctet hne hfits
  | case3 octets hsingle =>
    have hshort : octets.length ≤ 1 := by
      rcases octets with _ | ⟨first, _ | ⟨second, rest⟩⟩
      · simp
      · simp
      · exact absurd rfl (hsingle first second rest)
    omega

theorem shortest_ne_nil {octets : Octets} (h : octets ≠ []) : shortest octets ≠ [] := by
  fun_induction shortest octets with
  | case1 first second rest _ ih => exact ih (by simp)
  | case2 => simp
  | case3 => exact h

/-- Any two forms of a number are the same octets behind sign octets. -/
theorem shortest_eq_of_value_eq {a b : Octets} (ha : a ≠ []) (hb : b ≠ [])
    (h : value a = value b) : shortest a = shortest b := by
  have hvalue : value (shortest a) = value (shortest b) := by
    rw [value_shortest, value_shortest, h]
  have hab := length_shortest_le_of_value_eq (shortest_ne_nil hb)
    ((value_shortest b).trans h.symm)
  have hba := length_shortest_le_of_value_eq (shortest_ne_nil ha) ((value_shortest a).trans h)
  exact eq_of_value_eq (by omega) hvalue

/-! ## What is written -/

/-- The octet that extends a number to the left, however far. -/
def extension (n : Int64) : UInt8 := if n.toInt < 0 then 0xff else 0x00

theorem eightOctets_ne_nil (n : Nat) : bigEndianOctets 8 n ≠ [] := by
  apply List.ne_nil_of_length_pos
  rw [length_bigEndianOctets]
  decide

theorem ofInt64_ne_nil (n : Int64) : ofInt64 n ≠ [] :=
  shortest_ne_nil (eightOctets_ne_nil _)

/-- What is written is the number: it fits in eight octets, and is read from them. -/
theorem value_ofInt64 (n : Int64) : value (ofInt64 n) = n.toInt := by
  have hread := toInt64?_ofInt64 n
  have hlength : (ofInt64 n).length ≤ 8 := by
    have hle := length_shortest_le_of_value_eq (eightOctets_ne_nil n.toUInt64.toNat) rfl
    rw [length_bigEndianOctets] at hle
    exact hle
  have hfits := (fits_value (ofInt64 n)).mono hlength
  unfold Fits at hfits
  rw [toInt64?_eq_ite, if_pos (by omega), Option.some.injEq] at hread
  rw [← hread, Int64.toInt_ofInt_of_le (by omega) (by omega), hread]

theorem signOctet_ofInt64 (n : Int64) : signOctet (ofInt64 n) = extension n := by
  rw [signOctet_eq_ite, value_ofInt64, extension]

end Asn1.Integer

namespace Wire

open Asn1 Integer

/-- A 64-bit number is written in the shortest form that it has, all of its forms are this one
    behind sign octets, and it is read back from each of them. -/
theorem shortest_form_reads_back (n : Int64) :
    ofInt64 n ≠ [] ∧ value (ofInt64 n) = n.toInt ∧
    (∀ octets, octets ≠ [] → value octets = n.toInt → (ofInt64 n).length ≤ octets.length) ∧
    (∀ octets, octets ≠ [] ∧ value octets = n.toInt ↔
      ∃ count, octets = List.replicate count (extension n) ++ ofInt64 n) ∧
    ∀ count field, int64 field (List.replicate count (extension n) ++ ofInt64 n) = .ok n := by
  have hvalue := value_ofInt64 n
  have hsign := signOctet_ofInt64 n
  have hextended : ∀ count, value (List.replicate count (extension n) ++ ofInt64 n) = n.toInt := by
    intro count
    rw [← hsign, (value_signExtended count (ofInt64 n)).2, hvalue]
  have hshortest : ∀ octets, octets ≠ [] → value octets = n.toInt →
      shortest octets = ofInt64 n := by
    intro octets hne hoctets
    apply shortest_eq_of_value_eq hne (eightOctets_ne_nil _)
    rw [hoctets, ← hvalue]
    exact value_shortest _
  refine ⟨ofInt64_ne_nil n, hvalue, ?_, ?_, ?_⟩
  · intro octets hne hoctets
    rw [← hshortest octets hne hoctets]
    exact length_shortest_le_of_value_eq hne rfl
  · intro octets
    constructor
    · rintro ⟨hne, hoctets⟩
      obtain ⟨count, hcount⟩ := exists_eq_replicate_append_shortest octets
      have hsame := signOctet_eq_of_value_eq (hoctets.trans hvalue.symm)
      rw [hshortest octets hne hoctets, hsame, hsign] at hcount
      exact ⟨count, hcount⟩
    · rintro ⟨count, rfl⟩
      exact ⟨List.append_ne_nil_of_right_ne_nil _ (ofInt64_ne_nil n), hextended count⟩
  · intro count field
    have hlow := n.le_toInt
    have hhigh := n.toInt_lt
    have hexact : ¬ Overlong (value (List.replicate count (extension n) ++ ofInt64 n)) := by
      rw [hextended count]
      unfold Overlong
      omega
    rw [int64_eq_ok_iff hexact, hextended count]

/-- The number -129 takes two octets, and is read from them behind two sign octets. -/
theorem shortest_form_reads_back_of_two_octets :
    let extended : Octets := [0xff, 0xff, 0xff, 0x7f]
    ofInt64 (-129) = [0xff, 0x7f] ∧ value extended = (-129 : Int64).toInt ∧
      (ofInt64 (-129)).length ≤ extended.length ∧ int64 "etype" extended = .ok (-129) := by
  intro extended
  obtain ⟨-, -, hleast, hforms, hread⟩ := shortest_form_reads_back (-129)
  have hwritten : ofInt64 (-129) = [0xff, 0x7f] := by decide
  have hform := (hforms extended).mpr ⟨2, by decide⟩
  have hback := hread 2 "etype"
  rw [hwritten] at hback
  exact ⟨hwritten, hform.2, hleast extended hform.1 hform.2, hback⟩

end Wire
end Kerberos
