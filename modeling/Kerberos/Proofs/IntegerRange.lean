import Mathlib.Data.List.TakeWhile
import Mathlib.Tactic.Ring
import Kerberos.Proofs.Exchange
import Kerberos.Proofs.Numerals
import Kerberos.Wire.Request

/-! # Which INTEGERs are read as what they are

    The octets of an INTEGER write a number of any size (`Integer.value`).  Reading drops the
    octets that only repeat the sign, and takes what is left if that is eight octets at most.
    Eight octets and a sign hold 65 bits, one more than the register has.  So the numbers of
    65 bits (`Integer.Overlong`) pass, but lose their sign on the way: they are read as the
    number on the other side of zero, 2 ^ 64 off.  All other numbers are read as what they are
    if they have 64 bits, and refused if they have more.
-/

namespace Kerberos

theorem bigEndian_append (a b : Octets) :
    bigEndian (a ++ b) = bigEndian a * 256 ^ b.length + bigEndian b := by
  have hfold := foldl_bigEndian b (bigEndian a)
  rw [← hfold]
  simp [bigEndian, List.foldl_append]

theorem bigEndian_replicate_zero (count : Nat) : bigEndian (List.replicate count 0x00) = 0 := by
  induction count with
  | zero => simp [bigEndian]
  | succ count ih => simp [List.replicate_succ, bigEndian_cons, ih]

theorem bigEndian_replicate_ones (count : Nat) :
    bigEndian (List.replicate count 0xff) + 1 = 256 ^ count := by
  induction count with
  | zero => simp [bigEndian]
  | succ count ih =>
    have hfirst : (0xff : UInt8).toNat = 255 := by decide
    rw [List.replicate_succ, bigEndian_cons, List.length_replicate, hfirst, pow_succ]
    omega

namespace Asn1.Integer

/-! ## The sign and what is behind it -/

/-- The sign octet says whether the top bit of the numeral is set. -/
theorem signOctet_iff (octets : Octets) :
    signOctet octets = 0xff ↔ 256 ^ octets.length ≤ 2 * bigEndian octets := by
  cases octets with
  | nil => simp [signOctet, bigEndian]
  | cons first rest =>
    have hrest := bigEndian_lt rest
    have hsign : signOctet (first :: rest) = 0xff ↔ 128 ≤ first.toNat := by
      have hlt : first < 0x80 ↔ first.toNat < 128 := UInt8.lt_iff_toNat_lt
      by_cases hfirst : first < 0x80
      · have hnat := hlt.mp hfirst
        simp [signOctet, hfirst]
        omega
      · have hnat : ¬ first.toNat < 128 := fun h => hfirst (hlt.mpr h)
        simp [signOctet, hfirst]
        omega
    rw [hsign, bigEndian_cons, List.length_cons, pow_succ]
    generalize 256 ^ rest.length = p at *
    constructor
    · intro h
      have hmul : 128 * p ≤ first.toNat * p := Nat.mul_le_mul_right p h
      omega
    · intro h
      by_contra hsmall
      have hmul : first.toNat * p ≤ 127 * p := Nat.mul_le_mul_right p (by omega)
      omega

/-- A set sign stands for minus one digit in front of the numeral. -/
theorem value_eq (octets : Octets) :
    value octets = bigEndian octets - if signOctet octets = 0xff then 256 ^ octets.length else 0 := by
  have hpow : 2 ^ (8 * octets.length) = 256 ^ octets.length := by
    rw [pow_mul]
    norm_num
  have hlt := bigEndian_lt octets
  have hsign := signOctet_iff octets
  unfold value
  rw [BitVec.toInt_eq_toNat_cond, BitVec.toNat_ofNat, hpow, Nat.mod_eq_of_lt hlt]
  by_cases hset : signOctet octets = 0xff
  · have hle := hsign.mp hset
    rw [if_neg (by omega), if_pos hset]
    push_cast
    ring
  · have hnot : 2 * bigEndian octets < 256 ^ octets.length := by
      by_contra hle
      exact hset (hsign.mpr (by omega))
    rw [if_pos hnot, if_neg hset]
    simp

/-- In front of the significant octets there are sign octets only. -/
theorem exists_eq_replicate_append (octets : Octets) :
    ∃ count, octets = List.replicate count (signOctet octets) ++ significant octets := by
  refine ⟨(octets.takeWhile (· == signOctet octets)).length, ?_⟩
  have hsigns : octets.takeWhile (· == signOctet octets) =
      List.replicate (octets.takeWhile (· == signOctet octets)).length (signOctet octets) := by
    rw [List.eq_replicate_iff]
    constructor
    · simp
    · intro octet hoctet
      simpa using List.mem_takeWhile_imp hoctet
  unfold significant
  rw [← hsigns, List.takeWhile_append_dropWhile]

/-- The first significant octet differs from the sign. -/
theorem ne_signOctet_of_significant {octets rest : Octets} {first : UInt8}
    (h : significant octets = first :: rest) : first ≠ signOctet octets := by
  unfold significant at h
  have hne : octets.dropWhile (· == signOctet octets) ≠ [] := by simp [h]
  have hhead := List.head_dropWhile_not (· == signOctet octets) hne
  simpa [h] using hhead

/-- A number without a sign is what its significant octets write. -/
theorem value_of_clear {octets : Octets} (h : signOctet octets = 0x00) :
    value octets = bigEndian (significant octets) := by
  obtain ⟨count, hsplit⟩ := exists_eq_replicate_append octets
  have hnumeral : bigEndian octets = bigEndian (significant octets) := by
    rw [h] at hsplit
    conv_lhs => rw [hsplit]
    rw [bigEndian_append, bigEndian_replicate_zero]
    omega
  rw [value_eq, hnumeral, h]
  simp

/-- A number with a sign is as far below zero as its significant octets leave room. -/
theorem value_of_set {octets : Octets} (h : signOctet octets = 0xff) :
    value octets = bigEndian (significant octets) - 256 ^ (significant octets).length := by
  obtain ⟨count, hsplit⟩ := exists_eq_replicate_append octets
  rw [h] at hsplit
  have hones := bigEndian_replicate_ones count
  have hnumeral : bigEndian octets =
      bigEndian (List.replicate count 0xff) * 256 ^ (significant octets).length +
        bigEndian (significant octets) := by
    conv_lhs => rw [hsplit]
    rw [bigEndian_append]
  have hlength : 256 ^ octets.length =
      (bigEndian (List.replicate count 0xff) + 1) * 256 ^ (significant octets).length := by
    conv_lhs => rw [hsplit]
    rw [List.length_append, List.length_replicate, pow_add, hones]
  rw [value_eq, if_pos h, hnumeral]
  have hcast : (256 : Int) ^ octets.length = ((256 ^ octets.length : Nat) : Int) := by
    push_cast
    rfl
  rw [hcast, hlength]
  push_cast
  ring

/-- The significant octets of a number without a sign are as many as it needs. -/
theorem pow_le_value_of_clear {octets rest : Octets} {first : UInt8}
    (h : signOctet octets = 0x00) (hsignificant : significant octets = first :: rest) :
    256 ^ rest.length ≤ value octets := by
  have hfirst := ne_signOctet_of_significant hsignificant
  rw [h] at hfirst
  have hpos : 1 ≤ first.toNat := by
    by_contra hzero
    exact hfirst (UInt8.toNat_inj.mp (by simp; omega))
  have hmul : 1 * 256 ^ rest.length ≤ first.toNat * 256 ^ rest.length :=
    Nat.mul_le_mul_right _ hpos
  rw [value_of_clear h, hsignificant, bigEndian_cons]
  exact_mod_cast (by omega : 256 ^ rest.length ≤ first.toNat * 256 ^ rest.length + bigEndian rest)

theorem value_lt_neg_pow_of_set {octets rest : Octets} {first : UInt8}
    (h : signOctet octets = 0xff) (hsignificant : significant octets = first :: rest) :
    value octets < -256 ^ rest.length := by
  have hfirst := ne_signOctet_of_significant hsignificant
  rw [h] at hfirst
  have hlt : first.toNat ≤ 254 := by
    by_contra hbig
    have hbound := first.toNat_lt
    exact hfirst (UInt8.toNat_inj.mp (by simp; omega))
  have hmul : first.toNat * 256 ^ rest.length ≤ 254 * 256 ^ rest.length :=
    Nat.mul_le_mul_right _ hlt
  have hrest := bigEndian_lt rest
  have hnat : first.toNat * 256 ^ rest.length + bigEndian rest + 256 ^ rest.length <
      256 ^ rest.length * 256 := by
    omega
  rw [value_of_set h, hsignificant, bigEndian_cons, List.length_cons, pow_succ]
  have hint : ((first.toNat * 256 ^ rest.length + bigEndian rest + 256 ^ rest.length : Nat) : Int) <
      ((256 ^ rest.length * 256 : Nat) : Int) := by
    exact_mod_cast hnat
  push_cast at hint ⊢
  omega

/-! ## What passes -/

/-- Eight octets behind the sign are enough for a number of 65 bits. -/
theorem length_significant_le_iff (octets : Octets) :
    (significant octets).length ≤ 8 ↔ -2 ^ 64 ≤ value octets ∧ value octets < 2 ^ 64 := by
  have hlt := bigEndian_lt (significant octets)
  constructor
  · intro hlength
    have hpow : 256 ^ (significant octets).length ≤ 256 ^ 8 :=
      Nat.pow_le_pow_right (by decide) hlength
    by_cases hsign : signOctet octets = 0xff
    · rw [value_of_set hsign]
      have hcast : (256 : Int) ^ (significant octets).length =
          ((256 ^ (significant octets).length : Nat) : Int) := by
        push_cast
        rfl
      rw [hcast]
      omega
    · rw [value_of_clear ((signOctet_eq octets).resolve_right hsign)]
      omega
  · intro hrange
    by_contra hlong
    obtain ⟨first, rest, hsignificant⟩ : ∃ first rest, significant octets = first :: rest := by
      apply List.exists_cons_of_length_pos
      omega
    have hrest : 8 ≤ rest.length := by
      rw [hsignificant, List.length_cons] at hlong
      omega
    have hpow : 256 ^ 8 ≤ 256 ^ rest.length := Nat.pow_le_pow_right (by decide) hrest
    have hint : (256 : Int) ^ 8 ≤ 256 ^ rest.length := by exact_mod_cast hpow
    by_cases hsign : signOctet octets = 0xff
    · have hbelow := value_lt_neg_pow_of_set hsign hsignificant
      omega
    · have habove :=
        pow_le_value_of_clear ((signOctet_eq octets).resolve_right hsign) hsignificant
      omega

/-- What the register holds in the end is the number, up to multiples of 2 ^ 64. -/
theorem toNat_shiftIn_significant (octets : Octets) :
    ((shiftIn (if signOctet octets = 0xff then 0xffffffffffffffff else 0)
      (significant octets)).toNat : Int) = value octets % 2 ^ 64 := by
  rw [toNat_shiftIn]
  by_cases hsign : signOctet octets = 0xff
  · have hregister : (0xffffffffffffffff : UInt64).toNat = 2 ^ 64 - 1 := by decide
    rw [if_pos hsign, hregister, value_of_set hsign]
    push_cast
    have hshift : (18446744073709551615 : Int) * 256 ^ (significant octets).length +
        bigEndian (significant octets) =
        bigEndian (significant octets) - 256 ^ (significant octets).length +
          18446744073709551616 * 256 ^ (significant octets).length := by
      ring
    rw [hshift]
    exact Int.add_mul_emod_self_left _ _ _
  · rw [if_neg hsign, value_of_clear ((signOctet_eq octets).resolve_right hsign)]
    simp

/-- Numbers of up to 65 bits are read, and their last 64 bits are kept. -/
theorem toInt64?_eq_ite (octets : Octets) :
    toInt64? octets =
      if -2 ^ 64 ≤ value octets ∧ value octets < 2 ^ 64 then some (Int64.ofInt (value octets))
      else none := by
  have hlength := length_significant_le_iff octets
  unfold toInt64?
  by_cases hrange : -2 ^ 64 ≤ value octets ∧ value octets < 2 ^ 64
  · have hshort := hlength.mpr hrange
    rw [if_neg (by omega), if_pos hrange]
    have hregister := toNat_shiftIn_significant octets
    simp only [Option.some.injEq]
    generalize shiftIn _ (significant octets) = register at hregister
    apply Int64.toInt_inj.mp
    have hint : register.toInt64.toInt = (register.toNat : Int).bmod (2 ^ 64) :=
      BitVec.toInt_eq_toNat_bmod register.toBitVec
    have hsize : Int64.size = 2 ^ 64 := by decide
    rw [hint, hregister, Int64.toInt_ofInt, hsize]
    exact_mod_cast Int.emod_bmod (value octets) (2 ^ 64)
  · have hlong : 8 < (significant octets).length := by
      by_contra hshort
      exact hrange (hlength.mp (by omega))
    rw [if_pos hlong, if_neg hrange]

/-- The number takes 65 bits with its sign. -/
def Overlong (n : Int) : Prop := -2 ^ 64 ≤ n ∧ n < -2 ^ 63 ∨ 2 ^ 63 ≤ n ∧ n < 2 ^ 64

/-- Every number of 64 bits is the value of a register. -/
theorem exists_toInt_eq {v : Int} (hlow : -2 ^ 63 ≤ v) (hhigh : v < 2 ^ 63) :
    ∃ n : Int64, n.toInt = v :=
  ⟨Int64.ofInt v, Int64.toInt_ofInt_of_le hlow hhigh⟩

end Asn1.Integer

namespace Wire

open Asn1 Integer

/-! ## Fields -/

theorem int64_eq_ite (field : String) (contents : Octets) :
    int64 field contents =
      if -2 ^ 64 ≤ value contents ∧ value contents < 2 ^ 64 then .ok (Int64.ofInt (value contents))
      else .error (.invalidInteger field) := by
  unfold int64
  rw [toInt64?_eq_ite]
  by_cases hrange : -2 ^ 64 ≤ value contents ∧ value contents < 2 ^ 64
  · rw [if_pos hrange, if_pos hrange]
  · rw [if_neg hrange, if_neg hrange]

section exact
variable {contents : Octets} {field : String}

/-- A number that is not overlong is read as what it is. -/
theorem int64_eq_ok_iff (h : ¬ Overlong (value contents)) {n : Int64} :
    int64 field contents = .ok n ↔ n.toInt = value contents := by
  have hlow := n.le_toInt
  have hhigh := n.toInt_lt
  unfold Overlong at h
  rw [int64_eq_ite]
  constructor
  · intro hread
    by_cases hrange : -2 ^ 64 ≤ value contents ∧ value contents < 2 ^ 64
    · rw [if_pos hrange, Except.ok.injEq] at hread
      rw [← hread]
      exact Int64.toInt_ofInt_of_le (by omega) (by omega)
    · rw [if_neg hrange] at hread
      cases hread
  · intro hvalue
    rw [if_pos (by omega), ← hvalue, Int64.ofInt_toInt]

/-- The fields have a range of their own, and convert what lies in it. -/
theorem ranged_eq_ok_iff (h : ¬ Overlong (value contents)) {α : Type} {inRange : Int64 → Prop}
    [DecidablePred inRange] {convert : Int64 → α} {e : WireError} {a : α} :
    (int64 field contents >>= fun n => if inRange n then pure (convert n) else throw e) = .ok a ↔
      ∃ n : Int64, n.toInt = value contents ∧ inRange n ∧ convert n = a := by
  rw [except_bind_eq_ok_iff]
  simp only [int64_eq_ok_iff h]
  constructor
  · intro hread
    obtain ⟨n, hn, hchecked⟩ := hread
    by_cases hrange : inRange n
    · rw [if_pos hrange] at hchecked
      exact ⟨n, hn, hrange, Except.ok.inj hchecked⟩
    · rw [if_neg hrange] at hchecked
      cases hchecked
  · intro hread
    obtain ⟨n, hn, hrange, hconvert⟩ := hread
    refine ⟨n, hn, ?_⟩
    rw [if_pos hrange, hconvert]
    rfl

/-- A word is read as what it is, whatever its width: `ofNat` and `toNat` are one and the other
    way between words and the numbers below `bound`. -/
theorem bounded_eq_ok_iff (h : ¬ Overlong (value contents)) {α : Type} {bound : Int}
    (hbound : bound ≤ 2 ^ 63) {ofNat : Nat → α} {toNat : α → Nat}
    (hlt : ∀ a, (toNat a : Int) < bound) (hnumber : ∀ n : Nat, n < bound → toNat (ofNat n) = n)
    (hword : ∀ a, ofNat (toNat a) = a) {e : WireError} {a : α} :
    (int64 field contents >>= fun n =>
      if 0 ≤ n.toInt && n.toInt < bound then pure (ofNat n.toInt.toNat) else throw e) = .ok a ↔
        (toNat a : Int) = value contents := by
  rw [ranged_eq_ok_iff h]
  simp only [Bool.and_eq_true, decide_eq_true_eq]
  constructor
  · intro hread
    obtain ⟨m, hm, hrange, hconvert⟩ := hread
    rw [← hconvert, hnumber _ (by omega), ← hm]
    omega
  · intro hvalue
    -- The number of a word lies below the bound, so it has 64 bits to lie in.
    have hsmall := hlt a
    obtain ⟨m, hm⟩ := exists_toInt_eq (v := value contents) (by omega) (by omega)
    have hsame : m.toInt.toNat = toNat a := by omega
    refine ⟨m, hm, by omega, ?_⟩
    rw [hsame, hword]

theorem uint8_eq_ok_iff (h : ¬ Overlong (value contents)) {n : UInt8} :
    uint8 field contents = .ok n ↔ (n.toNat : Int) = value contents :=
  bounded_eq_ok_iff h (by decide) (fun n => by have := n.toNat_lt; omega)
    (fun m hm => UInt8.toNat_ofNat_of_lt' (show m < 256 by omega)) fun _ => UInt8.ofNat_toNat

theorem uint32_eq_ok_iff (h : ¬ Overlong (value contents)) {n : UInt32} :
    uint32 field contents = .ok n ↔ (n.toNat : Int) = value contents :=
  bounded_eq_ok_iff h (by decide) (fun n => by have := n.toNat_lt; omega)
    (fun m hm => UInt32.toNat_ofNat_of_lt' (show m < 4294967296 by omega)) fun _ => UInt32.ofNat_toNat

/-- The bits of a number that is not negative are the number. -/
theorem toNat_toUInt64 {m : Int64} (h : 0 ≤ m.toInt) : (m.toUInt64.toNat : Int) = m.toInt := by
  have hcond := BitVec.toInt_eq_toNat_cond m.toBitVec
  have hint : m.toInt = m.toBitVec.toInt := rfl
  have hnat : m.toUInt64.toNat = m.toBitVec.toNat := rfl
  have hlt := m.toBitVec.isLt
  rw [hint] at h ⊢
  rw [hnat, hcond]
  rw [hcond] at h
  split at h
  · rename_i hsmall
    rw [if_pos hsmall]
  · omega

theorem uint63_eq_ok_iff (h : ¬ Overlong (value contents)) {n : UInt64} :
    uint63 field contents = .ok n ↔ (n.toNat : Int) = value contents := by
  unfold uint63
  rw [ranged_eq_ok_iff h]
  constructor
  · intro hread
    obtain ⟨m, hm, hrange, hconvert⟩ := hread
    rw [← hconvert, ← hm]
    exact toNat_toUInt64 hrange
  · intro hvalue
    have hlt := n.toNat_lt
    have hshort : value contents < 2 ^ 63 := by
      unfold Overlong at h
      omega
    obtain ⟨m, hm⟩ := exists_toInt_eq (v := value contents) (by omega) hshort
    have hpos : 0 ≤ m.toInt := by omega
    have hbits := toNat_toUInt64 hpos
    refine ⟨m, hm, hpos, ?_⟩
    apply UInt64.toNat_inj.mp
    omega

/-- A nonce is the last 32 bits of a number that fits in 32 bits, with a sign or without. -/
theorem nonce_eq_ok_iff (h : ¬ Overlong (value contents)) {n : UInt32} :
    nonce contents = .ok n ↔
      -2 ^ 31 ≤ value contents ∧ value contents < 2 ^ 32 ∧
        (n.toNat : Int) = value contents % 2 ^ 32 := by
  have hbits : ∀ m : Int64, (m.toUInt64.toUInt32.toNat : Int) = m.toInt % 2 ^ 32 := by
    intro m
    have hcond := BitVec.toInt_eq_toNat_cond m.toBitVec
    have hint : m.toInt = m.toBitVec.toInt := rfl
    have hnat : m.toUInt64.toNat = m.toBitVec.toNat := rfl
    rw [UInt64.toNat_toUInt32, hnat, hint, hcond]
    split <;> omega
  unfold nonce
  rw [ranged_eq_ok_iff h]
  simp only [Bool.and_eq_true, decide_eq_true_eq]
  constructor
  · intro hread
    obtain ⟨m, hm, hrange, hconvert⟩ := hread
    have hm' := hbits m
    rw [← hconvert, ← hm]
    omega
  · intro hvalue
    obtain ⟨m, hm⟩ := exists_toInt_eq (v := value contents) (by omega) (by omega)
    have hm' := hbits m
    refine ⟨m, hm, by omega, ?_⟩
    apply UInt32.toNat_inj.mp
    rw [hm] at hm'
    omega

theorem mem_etypes_singleton_iff (h : ¬ Overlong (value contents)) {n : UInt64} :
    n ∈ etypes [contents] ↔ (n.toNat : Int) = value contents := by
  -- A number is listed if and only if it would pass as an encryption type by itself.
  have hpasses : uint63 "etype" contents = .ok n ↔ (n.toNat : Int) = value contents :=
    uint63_eq_ok_iff h
  rw [← hpasses]
  simp only [etypes, uint63, int64, List.mem_filterMap, List.mem_singleton, exists_eq_left]
  cases toInt64? contents with
  | none => simp [bind, Except.bind]
  | some m =>
    by_cases hrange : 0 ≤ m.toInt
    · simp [bind, Except.bind, hrange, pure, Except.pure]
    · simp [bind, Except.bind, hrange, throw, throwThe, MonadExceptOf.throw]

end exact

/-! ## Exactness -/

/-- Wherever an INTEGER with these contents may stand, it is read as the number that the
    contents write, or not at all. -/
structure ReadAsWritten (contents : Octets) : Prop where
  number : ∀ field n, int64 field contents = .ok n ↔
    -2 ^ 63 ≤ value contents ∧ value contents < 2 ^ 63 ∧ n.toInt = value contents
  refused : ∀ field, int64 field contents = .error (.invalidInteger field) ↔
    ¬ (-2 ^ 63 ≤ value contents ∧ value contents < 2 ^ 63)
  /-- Nonces have 32 bits, with a sign or without. -/
  nonce : ∀ n, Wire.nonce contents = .ok n ↔
    -2 ^ 31 ≤ value contents ∧ value contents < 2 ^ 32 ∧ (n.toNat : Int) = value contents % 2 ^ 32
  /-- Versions, kinds of pre-authentication data, versions of keys, microseconds. -/
  uint32 : ∀ field n, Wire.uint32 field contents = .ok n ↔ (n.toNat : Int) = value contents
  /-- Types of names. -/
  uint8 : ∀ field n, Wire.uint8 field contents = .ok n ↔ (n.toNat : Int) = value contents
  /-- Encryption types of keys and of what is encrypted. -/
  uint63 : ∀ field n, Wire.uint63 field contents = .ok n ↔ (n.toNat : Int) = value contents
  /-- Encryption types that a client lists. -/
  etypes : ∀ n, n ∈ Wire.etypes [contents] ↔ (n.toNat : Int) = value contents

/-- Every INTEGER is read as what it is or refused, unless it is overlong.  Overlong ones pass
    and lose their sign: what is read is 2 ^ 64 off. -/
theorem readAsWritten_unless_overlong (contents : Octets) :
    (ReadAsWritten contents ↔ ¬ Overlong (value contents)) ∧
      ∀ field, int64 field contents =
        if -2 ^ 64 ≤ value contents ∧ value contents < 2 ^ 64 then
          .ok (Int64.ofInt (value contents))
        else .error (.invalidInteger field) := by
  refine ⟨?_, fun field => int64_eq_ite field contents⟩
  constructor
  · intro hexact hoverlong
    have hread := int64_eq_ite "nonce" contents
    unfold Overlong at hoverlong
    rw [if_pos (by omega), hexact.number] at hread
    omega
  · intro h
    refine {
      number := ?_
      refused := ?_
      nonce := fun n => nonce_eq_ok_iff h
      uint32 := fun field n => uint32_eq_ok_iff h
      uint8 := fun field n => uint8_eq_ok_iff h
      uint63 := fun field n => uint63_eq_ok_iff h
      etypes := fun n => mem_etypes_singleton_iff h }
    · intro field n
      have hlow := n.le_toInt
      have hhigh := n.toInt_lt
      rw [int64_eq_ok_iff h]
      omega
    · intro field
      rw [int64_eq_ite]
      unfold Overlong at h
      by_cases hrange : -2 ^ 64 ≤ value contents ∧ value contents < 2 ^ 64
      · rw [if_pos hrange]
        constructor
        · intro hread
          cases hread
        · omega
      · rw [if_neg hrange]
        constructor
        · intro _
          omega
        · intro _
          rfl

/-- The number 18 - 2 ^ 64 is taken for an encryption type. -/
example : value [0xff, 0, 0, 0, 0, 0, 0, 0, 18] = 18 - 2 ^ 64 ∧
    etypes [[0xff, 0, 0, 0, 0, 0, 0, 0, 18]] = [18] := by decide

end Wire
end Kerberos
