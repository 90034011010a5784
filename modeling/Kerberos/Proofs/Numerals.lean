import Mathlib.Data.List.Induction
import Mathlib.Tactic.Ring
import Kerberos.Asn1.Integer
import Kerberos.Asn1.Length

/-! # Numerals are read back

    Lengths and INTEGERs are written with as few octets as possible, and read with many more
    forms in mind.  A length that fits in a machine word, every 64-bit INTEGER and every
    32-bit word is read back as what it was.
-/

namespace Kerberos

/-! ## Base 256 -/

theorem foldl_bigEndian (octets : Octets) (n : Nat) :
    octets.foldl (fun n octet => 256 * n + octet.toNat) n =
      n * 256 ^ octets.length + bigEndian octets := by
  induction octets generalizing n with
  | nil => simp [bigEndian]
  | cons octet octets ih =>
    rw [bigEndian, List.foldl_cons, List.foldl_cons, ih, ih (256 * 0 + octet.toNat),
      List.length_cons]
    ring

theorem bigEndian_cons (octet : UInt8) (octets : Octets) :
    bigEndian (octet :: octets) = octet.toNat * 256 ^ octets.length + bigEndian octets := by
  rw [bigEndian, List.foldl_cons, foldl_bigEndian, Nat.mul_zero, Nat.zero_add]

theorem bigEndian_concat (octets : Octets) (octet : UInt8) :
    bigEndian (octets ++ [octet]) = 256 * bigEndian octets + octet.toNat := by
  simp [bigEndian]

theorem bigEndian_lt (octets : Octets) : bigEndian octets < 256 ^ octets.length := by
  induction octets with
  | nil => decide
  | cons octet octets ih =>
    have hoctet : octet.toNat < 256 := octet.toNat_lt
    rw [bigEndian_cons, List.length_cons, pow_succ]
    have hmul : octet.toNat * 256 ^ octets.length ≤ 255 * 256 ^ octets.length :=
      Nat.mul_le_mul_right _ (by omega)
    omega

theorem bigEndian_bigEndianOctets (width n : Nat) :
    bigEndian (bigEndianOctets width n) = n % 256 ^ width := by
  induction width generalizing n with
  | zero => simp [bigEndianOctets, bigEndian, Nat.mod_one]
  | succ width ih =>
    have hlast : (UInt8.ofNat n).toNat = n % 256 := UInt8.toNat_ofNat'
    rw [bigEndianOctets, bigEndian_concat, ih, hlast, pow_succ, Nat.mul_comm (256 ^ width) 256,
      Nat.mod_mul]
    omega

theorem bigEndianOctets_bigEndian (octets : Octets) :
    bigEndianOctets octets.length (bigEndian octets) = octets := by
  induction octets using List.reverseRecOn with
  | nil => rfl
  | append_singleton octets octet ih =>
    have hlt : octet.toNat < 256 := octet.toNat_lt
    have hrest : (256 * bigEndian octets + octet.toNat) / 256 = bigEndian octets := by omega
    have hlast : UInt8.ofNat (256 * bigEndian octets + octet.toNat) = octet := by
      apply UInt8.toNat_inj.mp
      rw [UInt8.toNat_ofNat']
      omega
    rw [List.length_append, List.length_singleton, bigEndianOctets, bigEndian_concat, hrest, hlast,
      ih]

theorem bigEndian_octetsOfWord (word : UInt32) : bigEndian (octetsOfWord word) = word.toNat := by
  rw [octetsOfWord, bigEndian_bigEndianOctets]
  exact Nat.mod_eq_of_lt (show word.toNat < 256 ^ 4 from word.toNat_lt)

theorem wordOfOctets_octetsOfWord (word : UInt32) : wordOfOctets (octetsOfWord word) = word := by
  have hlength := length_octetsOfWord word
  unfold wordOfOctets
  rw [hlength, List.take_of_length_le (by omega)]
  simp only [Nat.sub_self, List.replicate_zero, List.append_nil, bigEndian_octetsOfWord]
  exact UInt32.ofNat_toNat

namespace Asn1

/-! ## Lengths -/

theorem bigEndian_digits (n : Nat) : bigEndian (digits n) = n := by
  induction n using digits.induct with
  | case1 => simp [digits, bigEndian]
  | case2 n hn ih =>
    have hlast : (UInt8.ofNat n).toNat = n % 256 := UInt8.toNat_ofNat'
    rw [digits, if_neg hn, bigEndian_concat, ih, hlast]
    omega

theorem length_digits_le {width n : Nat} (h : n < 256 ^ width) : (digits n).length ≤ width := by
  induction width generalizing n with
  | zero =>
    have hn : n = 0 := by simpa using h
    simp [hn, digits]
  | succ width ih =>
    by_cases hn : n = 0
    · simp [hn, digits]
    · rw [digits, if_neg hn, List.length_append, List.length_singleton]
      have hrest := @ih (n / 256) (by rw [pow_succ] at h; omega)
      omega

theorem length_lengthOctets_pos (n : Nat) : 0 < (lengthOctets n).length := by
  unfold lengthOctets
  split <;> simp

/-- A length takes one octet more than its digits at most. -/
theorem length_lengthOctets_le {width n : Nat} (h : n < 256 ^ width) (hwidth : 0 < width) :
    (lengthOctets n).length ≤ width + 1 := by
  unfold lengthOctets
  split
  · rw [List.length_singleton]
    omega
  · rw [List.length_cons]
    have hdigits := length_digits_le h
    omega

/-- A length that fits in eight digits is read back, and what is behind it is left. -/
theorem splitLength_lengthOctets {n : Nat} (h : n < 256 ^ 8) (tail : Octets) :
    splitLength (lengthOctets n ++ tail) = (some n, tail) := by
  unfold lengthOctets
  split
  · next hshort =>
    have hfirst : UInt8.ofNat n < 0x80 := by
      rw [UInt8.lt_iff_toNat_lt, UInt8.toNat_ofNat']
      show n % 256 < 128
      omega
    have hvalue : (UInt8.ofNat n).toNat = n := by
      rw [UInt8.toNat_ofNat']
      omega
    simp only [List.cons_append, List.nil_append, splitLength, hfirst, ↓reduceIte, hvalue]
  · next hlong =>
    have hcount := length_digits_le h
    generalize hlen : (digits n).length = count at hcount
    -- The first octet is the count with the top bit set, and there are eight counts at most.
    have hfirst : ¬ UInt8.ofNat (128 + count) < 0x80 ∧
        (UInt8.ofNat (128 + count) &&& 0x7f).toNat = count := by
      revert hcount
      generalize count = k
      revert k
      decide
    simp only [List.cons_append, splitLength, hfirst.1, hfirst.2, ↓reduceIte]
    rw [if_neg (by omega), if_neg (by rw [List.length_append]; omega)]
    rw [← hlen, List.take_left, List.drop_left, bigEndian_digits]

namespace Integer

/-! ## INTEGERs -/

theorem signOctet_eq (octets : Octets) : signOctet octets = 0x00 ∨ signOctet octets = 0xff := by
  unfold signOctet
  split
  · split
    · exact .inl rfl
    · exact .inr rfl
  · exact .inl rfl

/-- A sign octet in front has the sign that it stands for. -/
theorem signOctet_cons_signOctet (octets : Octets) :
    signOctet (signOctet octets :: octets) = signOctet octets := by
  rcases signOctet_eq octets with hsign | hsign
  · rw [hsign]
    rfl
  · rw [hsign]
    rfl

theorem significant_cons_signOctet (octets : Octets) :
    significant (signOctet octets :: octets) = significant octets := by
  unfold significant
  rw [signOctet_cons_signOctet, List.dropWhile_cons_of_pos (by simp)]

/-- An octet is dropped if and only if it is the sign of the octets behind it. -/
theorem dropped_iff {first second : UInt8} (rest : Octets) :
    (first = 0x00 ∧ second < 0x80) ∨ (first = 0xff ∧ 0x80 ≤ second) ↔
      first = signOctet (second :: rest) := by
  by_cases hsecond : second < 0x80
  · have hnot : ¬ 0x80 ≤ second := UInt8.not_le.mpr hsecond
    simp [signOctet, hsecond, hnot]
  · have hle : 0x80 ≤ second := UInt8.not_lt.mp hsecond
    simp [signOctet, hsecond, hle]

/-- The sign octets that are dropped say nothing that the octets behind them do not say. -/
theorem significant_shortest (octets : Octets) :
    signOctet (shortest octets) = signOctet octets ∧
      significant (shortest octets) = significant octets := by
  fun_induction shortest octets with
  | case1 first second rest h ih =>
    have hfirst := (dropped_iff rest).mp h
    rw [hfirst, signOctet_cons_signOctet, significant_cons_signOctet]
    exact ih
  | case2 => exact ⟨rfl, rfl⟩
  | case3 => exact ⟨rfl, rfl⟩

theorem toInt64?_shortest (octets : Octets) : toInt64? (shortest octets) = toInt64? octets := by
  obtain ⟨hsign, hsignificant⟩ := significant_shortest octets
  rw [toInt64?, toInt64?, hsign, hsignificant]

/-- The register is a numeral with its last eight digits kept. -/
theorem toNat_shiftIn (register : UInt64) (octets : Octets) :
    (shiftIn register octets).toNat =
      (register.toNat * 256 ^ octets.length + bigEndian octets) % 256 ^ 8 := by
  induction octets generalizing register with
  | nil =>
    show register.toNat = _
    have hlt : register.toNat < 256 ^ 8 := register.toNat_lt
    rw [bigEndian, List.foldl_nil, List.length_nil, pow_zero, Nat.mul_one, Nat.add_zero,
      Nat.mod_eq_of_lt hlt]
  | cons octet octets ih =>
    have hoctet : octet.toNat < 2 ^ 8 := octet.toNat_lt
    have hshift : (register <<< 8).toNat = (register.toNat % 256 ^ 7) <<< 8 := by
      rw [UInt64.toNat_shiftLeft]
      show register.toNat <<< 8 % 2 ^ 64 = _
      rw [Nat.shiftLeft_eq, Nat.shiftLeft_eq]
      omega
    have hstep : (register <<< 8 ||| octet.toUInt64).toNat =
        (register.toNat * 256 + octet.toNat) % 256 ^ 8 := by
      rw [UInt64.toNat_or, hshift, UInt8.toNat_toUInt64, ← Nat.shiftLeft_add_eq_or_of_lt hoctet,
        Nat.shiftLeft_eq]
      omega
    -- The digit that is shifted out is a multiple of what the register keeps.
    show (shiftIn (register <<< 8 ||| octet.toUInt64) octets).toNat = _
    rw [ih, hstep, bigEndian_cons, List.length_cons, Nat.add_mod, Nat.mod_mul_mod,
      ← Nat.add_mod]
    congr 1
    ring

/-- Octets that a register is filled with already change nothing. -/
theorem shiftIn_dropWhile {register : UInt64} {sign : UInt8}
    (h : register <<< 8 ||| sign.toUInt64 = register) (octets : Octets) :
    shiftIn register (octets.dropWhile (· == sign)) = shiftIn register octets := by
  induction octets with
  | nil => rfl
  | cons octet octets ih =>
    by_cases heq : octet = sign
    · rw [List.dropWhile_cons_of_pos (by simpa using heq), ih, heq]
      show shiftIn register octets = shiftIn (register <<< 8 ||| sign.toUInt64) octets
      rw [h]
    · rw [List.dropWhile_cons_of_neg (by simpa using heq)]

/-- What stands to the left of the octets in a register of eight. -/
def filler (octets : Octets) : Nat :=
  if signOctet octets = 0xff then 256 ^ 8 - 256 ^ octets.length else 0

/-- Up to eight octets are a number, which their sign extends to the left. -/
theorem toInt64?_eq {octets : Octets} (h : octets.length ≤ 8) :
    toInt64? octets = some (Int64.ofNat (filler octets + bigEndian octets)) := by
  have hlength : (significant octets).length ≤ octets.length :=
    (List.dropWhile_sublist _).length_le
  have hpos : 256 ^ octets.length ≤ 256 ^ 8 := Nat.pow_le_pow_right (by decide) h
  have hlt := bigEndian_lt octets
  unfold toInt64?
  rw [if_neg (by omega)]
  show some (UInt64.toInt64 _) = some (UInt64.ofNat _).toInt64
  congr 2
  rw [← UInt64.toNat_inj, UInt64.toNat_ofNat']
  unfold significant filler
  rcases signOctet_eq octets with hsign | hsign
  · rw [hsign, if_neg (by decide), if_neg (by decide), shiftIn_dropWhile (by decide),
      toNat_shiftIn]
    simp
  · -- A negative number starts from a register that is filled with ones.
    rw [hsign, if_pos rfl, if_pos rfl, shiftIn_dropWhile (by decide), toNat_shiftIn]
    show ((256 ^ 8 - 1) * 256 ^ octets.length + bigEndian octets) % 256 ^ 8 =
      (256 ^ 8 - 256 ^ octets.length + bigEndian octets) % 256 ^ 8
    generalize 256 ^ octets.length = p at *
    omega

/-- Every 64-bit number is read back. -/
theorem toInt64?_ofInt64 (n : Int64) : toInt64? (ofInt64 n) = some n := by
  have hlength := length_bigEndianOctets 8 n.toUInt64.toNat
  rw [ofInt64, toInt64?_shortest, toInt64?_eq (by omega), bigEndian_bigEndianOctets, filler,
    hlength]
  rw [Nat.mod_eq_of_lt (show n.toUInt64.toNat < 256 ^ 8 from n.toUInt64.toNat_lt)]
  -- Eight octets leave no room for a filler, whatever the sign.
  have hsame : Int64.ofNat n.toUInt64.toNat = n := by
    show (UInt64.ofNat n.toUInt64.toNat).toInt64 = n
    rw [UInt64.ofNat_toNat]
    rfl
  split <;> simpa using hsame

/-- The four octets of a word are read as the word with the sign that its top bit gives it. -/
theorem toInt64?_octetsOfWord (n : UInt32) :
    ∃ m, toInt64? (octetsOfWord n) = some m ∧ -2147483648 ≤ m.toInt ∧ m.toInt < 2147483648 ∧
      m.toUInt64.toUInt32 = n := by
  have hlt : n.toNat < 2 ^ 32 := n.toNat_lt
  have hlength := length_octetsOfWord n
  have hvalue : bigEndian (octetsOfWord n) = n.toNat := by
    rw [octetsOfWord, bigEndian_bigEndianOctets]
    omega
  have hsign : signOctet (octetsOfWord n) = if n.toNat < 2147483648 then 0x00 else 0xff := by
    show (if UInt8.ofNat (n.toNat / 256 / 256 / 256) < 0x80 then (0x00 : UInt8) else 0xff) = _
    refine if_congr ?_ rfl rfl
    rw [UInt8.lt_iff_toNat_lt, UInt8.toNat_ofNat']
    show n.toNat / 256 / 256 / 256 % 256 < 128 ↔ _
    omega
  -- Below 2 ^ 31 the number is the word, and from there on it is 2 ^ 32 less.
  obtain ⟨m, hm, hword⟩ : ∃ m, Integer.filler (octetsOfWord n) + n.toNat = m ∧
      (n.toNat < 2147483648 ∧ m = n.toNat ∨
        2147483648 ≤ n.toNat ∧ m = 18446744069414584320 + n.toNat) := by
    refine ⟨_, rfl, ?_⟩
    rw [filler, hsign, hlength]
    split <;> simp <;> omega
  refine ⟨_, toInt64?_eq (by omega), ?_⟩
  rw [hvalue, hm]
  have hnat : (UInt64.ofNat m).toUInt32.toNat = n.toNat := by
    rw [UInt64.toNat_toUInt32, UInt64.toNat_ofNat']
    omega
  have hint : (Int64.ofNat m).toInt = (m : Int).bmod 18446744073709551616 := Int64.toInt_ofNat'
  refine ⟨?_, ?_, UInt32.toNat_inj.mp hnat⟩
  · rw [hint, Int.bmod]
    split <;> omega
  · rw [hint, Int.bmod]
    split <;> omega

end Integer
end Asn1
end Kerberos
