import Kerberos.Proofs.Writing
import Kerberos.Proofs.Reads
import Kerberos.Proofs.Received

/-! # Values are read back

    Numbers, strings, times, names, keys and addresses, each as it is written and as it is
    read.  Most come back as they were.  A time comes back as the second that it lies in, and
    a name only if its type is below 128: types are written as the octet they are, and an
    octet with the top bit set is a negative number.
-/

namespace Kerberos

open Asn1

namespace Wire

/-! ## Numbers -/

theorem int64_of_toInt64? {field : String} {contents : Octets} {n : Int64}
    (h : Integer.toInt64? contents = some n) : int64 field contents = .ok n := by
  unfold int64
  rw [h]

theorem uint8_singleton (field : String) {n : UInt8} (h : n < 128) : uint8 field [n] = .ok n := by
  have hlt : n.toNat < 128 := UInt8.lt_iff_toNat_lt.mp h
  have hsign : ¬ Integer.signOctet [n] = 0xff := by
    simp [Integer.signOctet, show n < 0x80 from h]
  have hvalue : Integer.toInt64? [n] = some (Int64.ofNat n.toNat) := by
    rw [Integer.toInt64?_eq (by simp), Integer.filler, if_neg hsign, Nat.zero_add, bigEndian_cons]
    simp [bigEndian]
  have hint : (Int64.ofNat n.toNat).toInt = n.toNat := Int64.toInt_ofNat_of_lt (by omega)
  simp only [uint8, int64_of_toInt64? hvalue, bind, Except.bind]
  rw [hint, if_pos (by simp; omega)]
  simp [pure, Except.pure]

/-- An octet from 128 on is a negative number when it stands alone. -/
theorem uint8_singleton_of_le (field : String) {n : UInt8} (h : 128 ≤ n) :
    uint8 field [n] = .error (.invalidInteger field) := by
  have hle : 128 ≤ n.toNat := UInt8.le_iff_toNat_le.mp h
  have hlt : n.toNat < 256 := n.toNat_lt
  have hsign : Integer.signOctet [n] = 0xff := by
    simp [Integer.signOctet, UInt8.not_lt.mpr (show 0x80 ≤ n from h)]
  have hvalue : Integer.toInt64? [n] = some (Int64.ofNat (256 ^ 8 - 256 ^ 1 + n.toNat)) := by
    rw [Integer.toInt64?_eq (by simp), Integer.filler, if_pos hsign, bigEndian_cons]
    simp [bigEndian]
  have hint : (Int64.ofNat (256 ^ 8 - 256 ^ 1 + n.toNat)).toInt = (n.toNat : Int) - 256 := by
    rw [Int64.toInt_ofNat']
    show ((256 ^ 8 - 256 ^ 1 + n.toNat : Nat) : Int).bmod 18446744073709551616 = _
    rw [Int.bmod]
    split <;> omega
  simp only [uint8, int64_of_toInt64? hvalue, bind, Except.bind]
  rw [hint, if_neg (by simp; omega)]
  rfl

theorem toInt_toInt64_nonneg_iff (n : UInt64) : 0 ≤ n.toInt64.toInt ↔ n.toNat < 2 ^ 63 := by
  have hint : n.toInt64.toInt = n.toBitVec.toInt := rfl
  have hnat : n.toNat = n.toBitVec.toNat := rfl
  have hlt := n.toBitVec.isLt
  rw [hint, hnat, BitVec.toInt_eq_toNat_cond]
  split <;> omega

/-- A number from 2 ^ 63 on is written as a negative one, so it is refused when it is read. -/
theorem uint63_ofInt64 (field : String) (n : UInt64) :
    uint63 field (Integer.ofInt64 n.toInt64) =
      if n.toNat < 2 ^ 63 then .ok n else .error (.invalidInteger field) := by
  simp only [uint63, int64_of_toInt64? (Integer.toInt64?_ofInt64 _), bind, Except.bind]
  by_cases h : n.toNat < 2 ^ 63
  · rw [if_pos ((toInt_toInt64_nonneg_iff n).mpr h), if_pos h]
    rfl
  · rw [if_neg fun hsign => h ((toInt_toInt64_nonneg_iff n).mp hsign), if_neg h]
    rfl

theorem uint63_etype (field : String) (e : EncryptionType) :
    uint63 field (Integer.ofInt64 e.number.toInt64) = .ok e.number := by
  rw [uint63_ofInt64, if_pos]
  cases e <;> decide

theorem int32_ofInt32 (field : String) (n : Int32) : int32 field (Integer.ofInt32 n) = .ok n := by
  have hle := n.le_toInt
  have hlt := n.toInt_lt
  simp only [int32, Integer.ofInt32, int64_of_toInt64? (Integer.toInt64?_ofInt64 _), bind,
    Except.bind]
  rw [Int32.toInt_toInt64, if_pos (by simp; omega), Int32.toInt32_toInt64]
  rfl

theorem toInt_ofNat_word (n : UInt32) : (Int64.ofNat n.toNat).toInt = n.toNat := by
  have hlt : n.toNat < 4294967296 := n.toNat_lt
  exact Int64.toInt_ofNat_of_lt (by omega)

/-- A word fits in 63 bits, so as an INTEGER it is not negative, and is read if it is below
    the bound of the field. -/
theorem bounded_ofWord {α : Type} {bound : Int} {ofNat : Nat → α} (field : String) {n : UInt32}
    (hn : (n.toNat : Int) < bound) {e : WireError} :
    (int64 field (Integer.ofWord n) >>= fun m =>
      if 0 ≤ m.toInt && m.toInt < bound then pure (ofNat m.toInt.toNat) else throw e) =
        .ok (ofNat n.toNat) := by
  have hint := toInt_ofNat_word n
  simp only [Integer.ofWord, int64_of_toInt64? (Integer.toInt64?_ofInt64 _), bind, Except.bind]
  rw [hint, if_pos (by simp; omega)]
  rfl

theorem uint32_ofWord (field : String) (n : UInt32) :
    uint32 field (Integer.ofWord n) = .ok n := by
  have hlt : n.toNat < 4294967296 := n.toNat_lt
  refine (bounded_ofWord field (by omega)).trans ?_
  rw [UInt32.ofNat_toNat]

theorem nonce_ofWord (n : UInt32) : nonce (Integer.ofWord n) = .ok n := by
  have hlt : n.toNat < 4294967296 := n.toNat_lt
  have hint := toInt_ofNat_word n
  simp only [nonce, Integer.ofWord, int64_of_toInt64? (Integer.toInt64?_ofInt64 _), bind,
    Except.bind]
  rw [hint, if_pos (by simp; omega)]
  show Except.ok (UInt64.ofNat n.toNat).toUInt32 = _
  simp

/-- Four octets are taken for the word that they write, whatever sign that gives the number. -/
theorem nonce_octetsOfWord (n : UInt32) : nonce (octetsOfWord n) = .ok n := by
  obtain ⟨m, hm, hle, hlt, hword⟩ := Integer.toInt64?_octetsOfWord n
  simp only [nonce, int64_of_toInt64? hm, bind, Except.bind]
  rw [if_pos (by simp; omega), hword]
  rfl

theorem word_bitString (w : UInt32) : word (0x00 :: octetsOfWord w) = w :=
  wordOfOctets_octetsOfWord w

/-! ## Strings -/

theorem ofAscii_asciiOctets {s : String} (h : IsAscii s) : ofAscii (asciiOctets s) = s := by
  have hmap : (asciiOctets s).map (fun octet => Char.ofNat octet.toNat) = s.toList := by
    unfold asciiOctets
    rw [List.map_map]
    refine (List.map_congr_left fun c hc => ?_).trans (List.map_id _)
    have hc := h c hc
    show Char.ofNat (UInt8.ofNat c.toNat).toNat = c
    rw [UInt8.toNat_ofNat', Nat.mod_eq_of_lt (by omega), Char.ofNat_toNat]
  unfold ofAscii
  rw [hmap, String.ofList_toList]

theorem all_asciiOctets {s : String} (h : IsAscii s) :
    (asciiOctets s).all (· < 0x80) = true := by
  rw [List.all_eq_true]
  intro octet hoctet
  obtain ⟨c, hc, rfl⟩ := List.mem_map.mp hoctet
  have hc := h c hc
  rw [decide_eq_true_iff, UInt8.lt_iff_toNat_lt, UInt8.toNat_ofNat']
  show c.toNat % 256 < 128
  omega

theorem buffer_reads {tags : List UInt8} (htags : tags.length ≤ 1) {tag : UInt8}
    (htag : bufferTags.contains tag = true) (inner : Octets) :
    buffer.Reads tags (wrap tags (element tag inner)) inner :=
  Reader.Reads.primitive htags htag inner

theorem stringReader_reads {tags : List UInt8} (htags : tags.length ≤ 1) {s : String}
    (h : IsAscii s) :
    stringReader.Reads tags (wrap tags (generalString (asciiOctets s))) s := by
  refine (buffer_reads htags rfl _).map_of_bind fun c => ?_
  rw [show Reader.require ((asciiOctets s).all (· < 0x80)) = pure () from
    if_pos (all_asciiOctets h)]
  show (some (ofAscii (asciiOctets s)), c) = _
  rw [ofAscii_asciiOctets h]

theorem stringReader_skips {tag : UInt8} {w : Octets} (h : Reader.Differs tag w) :
    stringReader.Skips tag w :=
  (Reader.Skips.primitive bufferTags h).bind _

/-! ## Times -/

theorem digit_low {a : Nat} (h : a < 10) : (UInt8.ofNat (48 + a) &&& 0x0f).toNat = a := by
  revert a
  decide

theorem twoDigits_ofNat {a b : Nat} (ha : a < 10) (hb : b < 10) :
    twoDigits (UInt8.ofNat (48 + a)) (UInt8.ofNat (48 + b)) = a * 10 + b := by
  rw [twoDigits, digit_low ha, digit_low hb]

/-- The digits of a civil time are read as the civil time. -/
theorem civilTime?_digits {c : CivilTime} (hyear : 0 ≤ c.year) (hlast : c.year < 10000)
    (hmonth : 1 ≤ c.month ∧ c.month ≤ 12) (hday : 1 ≤ c.day ∧ c.day ≤ 31) (hhour : c.hour < 24)
    (hminute : c.minute < 60) (hsecond : c.second < 60) :
    civilTime? (decimal 4 c.year.toNat ++ decimal 2 c.month ++ decimal 2 c.day
      ++ decimal 2 c.hour ++ decimal 2 c.minute ++ decimal 2 c.second ++ [0x5a]) = some c := by
  have htwo : ∀ n < 100, twoDigits (UInt8.ofNat (48 + n / 10 % 10)) (UInt8.ofNat (48 + n % 10)) =
      n := by
    intro n hn
    rw [twoDigits_ofNat (by omega) (by omega)]
    omega
  -- The year is read as two numbers of two digits.
  have hcentury : twoDigits (UInt8.ofNat (48 + c.year.toNat / 10 / 10 / 10 % 10))
      (UInt8.ofNat (48 + c.year.toNat / 10 / 10 % 10)) = c.year.toNat / 100 := by
    rw [twoDigits_ofNat (by omega) (by omega)]
    omega
  have hyears : twoDigits (UInt8.ofNat (48 + c.year.toNat / 10 % 10))
      (UInt8.ofNat (48 + c.year.toNat % 10)) = c.year.toNat % 100 := by
    rw [twoDigits_ofNat (by omega) (by omega)]
    omega
  simp only [decimal, List.nil_append, List.cons_append, civilTime?, hcentury, hyears,
    htwo c.month (by omega), htwo c.day (by omega), htwo c.hour (by omega),
    htwo c.minute (by omega), htwo c.second (by omega)]
  rw [if_pos (by simp; omega)]
  obtain ⟨year, month, day, hour, minute, second⟩ := c
  simp only [Option.some.injEq, CivilTime.mk.injEq, and_true]
  simp only at hyear hlast
  omega

theorem timeReader_reads {tags : List UInt8} (htags : tags.length ≤ 1) {t : Instant}
    (h : t.Expressible) : timeReader.Reads tags (wrap tags (timeOctets t)) t.civil := by
  obtain ⟨hmonth, hmonth', hday, hday'⟩ := Calendar.bounds_of_dateExists
    (CivilTime.dateExists_ofSeconds (t.nanos / 1000000000 + Instant.epochSeconds))
  obtain ⟨hhour, hminute, hsecond⟩ :=
    CivilTime.timeOfDay_ofSeconds (t.nanos / 1000000000 + Instant.epochSeconds)
  have hdigits := civilTime?_digits (c := t.civil) h t.civil_year_lt ⟨hmonth, hmonth'⟩
    ⟨hday, hday'⟩ hhour hminute hsecond
  have hstamp : stamp.Reads tags (wrap tags (timeOctets t)) _ :=
    Reader.Reads.primitive htags rfl _
  exact hstamp.map_of_bind fun c => congrArg (·, c) hdigits

theorem timeReader_skips {tag : UInt8} {w : Octets} (h : Reader.Differs tag w) :
    timeReader.Skips tag w :=
  (Reader.Skips.primitive stampTags h).bind _

theorem instant_civil (field : String) (t : Instant) :
    instant field t.civil = .ok t.wholeSecond := by
  unfold instant
  rw [t.ofCivil?_civil]

theorem mapM_instant (field : String) (o : Option Instant) :
    (o.map Instant.civil).mapM (instant field) = .ok (o.map Instant.wholeSecond) := by
  cases o with
  | none => rfl
  | some t =>
    rw [Option.map_some, Option.mapM_some, instant_civil]
    rfl

/-! ## Members in a row -/

/-- The contents of a field of primitive type. -/
theorem buffer_field {tag : UInt8} (htag : bufferTags.contains tag = true) (n : UInt8)
    (inner : Octets) : buffer.Reads [0xa0 + n] (explicit n (element tag inner)) inner :=
  buffer_reads (by simp) htag inner

section members
variable {α β γ : Type}

/-- The first of several members is the field `[n]`, and the others are read behind it. -/
theorem field_reads {r : Reader α} {n : UInt8} {value : Octets} {a : α} {g : α → Fields β}
    {ws : List Octets} {b : β} (hr : r.Reads [0xa0 + n] (explicit n value) a)
    (hg : (g a).Reads ws.flatten [] b) :
    (Fields.field n r >>= g).Reads (explicit n value :: ws).flatten [] b :=
  Fields.Reads.bind (Fields.Reads.field hr _) hg

/-- A field begins with its own tag and no other. -/
theorem differs_explicit {n m : UInt8} (hm : 0xa0 + m ≠ 0xa0 + n) (value : Octets)
    (ws : List Octets) : Reader.Differs (0xa0 + n) (explicit m value :: ws).flatten := by
  rw [List.flatten_cons]
  exact Reader.differs_element hm value ws.flatten

theorem differs_explicit? {n m : UInt8} (hm : 0xa0 + m ≠ 0xa0 + n) (o : Option Octets)
    {ws : List Octets} (hws : Reader.Differs (0xa0 + n) ws.flatten) :
    Reader.Differs (0xa0 + n) (explicit? m o :: ws).flatten := by
  cases o with
  | none => exact hws
  | some value => exact differs_explicit hm value ws

/-- A last field that may be missing is still no other field. -/
theorem differs_last {n m : UInt8} (hm : 0xa0 + m ≠ 0xa0 + n) (o : Option Octets)
    (hsome : [explicit? m o].flatten ≠ []) :
    Reader.Differs (0xa0 + n) [explicit? m o].flatten := by
  cases o with
  | none => exact absurd rfl hsome
  | some value => exact differs_explicit hm value []

/-- The first of several members may be missing, if what follows is something else. -/
theorem optional_field_reads {r : Reader α} {n : UInt8} {o : Option γ} {write : γ → Octets}
    {value : γ → α} {g : Option α → Fields β} {ws : List Octets} {b : β}
    (hr : ∀ c, o = some c → r.Reads [0xa0 + n] (explicit n (write c)) (value c))
    (hskip : ∀ {w}, Reader.Differs (0xa0 + n) w → r.Skips (0xa0 + n) w)
    (hdiffers : Reader.Differs (0xa0 + n) ws.flatten)
    (hg : (g (o.map value)).Reads ws.flatten [] b) :
    (Fields.optional n r >>= g).Reads (explicit? n (o.map write) :: ws).flatten [] b := by
  refine Fields.Reads.bind (Fields.Reads.optional hr ?_ ?_) hg
  · rw [List.append_nil]
    exact hskip hdiffers
  · obtain ⟨_, _, _, heq, -⟩ := hdiffers
    rw [heq]
    exact List.cons_ne_nil _ _

/-- A member that is not written is found to be missing. -/
theorem missing_field_reads {r : Reader α} {n : UInt8} {g : Option α → Fields β}
    {ws : List Octets} {b : β}
    (hskip : ∀ {w}, Reader.Differs (0xa0 + n) w → r.Skips (0xa0 + n) w)
    (hdiffers : Reader.Differs (0xa0 + n) ws.flatten) (hg : (g none).Reads ws.flatten [] b) :
    (Fields.optional n r >>= g).Reads ws.flatten [] b := by
  have hnone : ∀ c : Empty, (none : Option Empty) = some c →
      r.Reads [0xa0 + n] (explicit n c.elim) c.elim := fun c => c.elim
  exact optional_field_reads hnone hskip hdiffers hg

/-- The first of several members is a time that may be missing, if a later field follows. -/
theorem optional_time_reads {n m : UInt8} {o : Option Instant} {value : Octets}
    {g : Option CivilTime → Fields β} {ws : List Octets} {b : β}
    (ho : ∀ t, o = some t → t.Expressible) (hm : 0xa0 + m ≠ 0xa0 + n)
    (hg : (g (o.map Instant.civil)).Reads (explicit m value :: ws).flatten [] b) :
    (Fields.optional n timeReader >>= g).Reads
      (explicit? n (o.map timeOctets) :: explicit m value :: ws).flatten [] b :=
  optional_field_reads (fun t ht => timeReader_reads (by simp) (ho t ht)) timeReader_skips
    (differs_explicit hm value ws) hg

/-- The first of several members may be missing, and so may those behind it. -/
theorem trailing_field_reads {r : Reader α} {n : UInt8} {o : Option γ} {write : γ → Octets}
    {value : γ → α} {g : Option α → Fields β} {ws : List Octets} {b : β}
    (hr : ∀ c, o = some c → r.Reads [0xa0 + n] (explicit n (write c)) (value c))
    (hskip : ∀ {w}, Reader.Differs (0xa0 + n) w → r.Skips (0xa0 + n) w)
    (hdiffers : ws.flatten ≠ [] → Reader.Differs (0xa0 + n) ws.flatten)
    (hg : (g (o.map value)).Reads ws.flatten [] b) :
    (Fields.trailing n r >>= g).Reads (explicit? n (o.map write) :: ws).flatten [] b := by
  refine Fields.Reads.bind (Fields.Reads.trailing hr ?_) hg
  rw [List.append_nil]
  intro hmore
  exact hskip (hdiffers hmore)

/-- The last of several members may be missing. -/
theorem trailing_reads {r : Reader α} {n : UInt8} {o : Option γ} {write : γ → Octets}
    {value : γ → α} {g : Option α → Fields β} {b : β}
    (hr : ∀ c, o = some c → r.Reads [0xa0 + n] (explicit n (write c)) (value c))
    (hg : (g (o.map value)).Reads [] [] b) :
    (Fields.trailing n r >>= g).Reads [explicit? n (o.map write)].flatten [] b :=
  Fields.Reads.bind (Fields.Reads.trailing hr fun h => absurd rfl h) hg

end members

/-! ## Names -/

/-- What a name comes to that is written and read: a type from 128 on does not come back. -/
def readBack (n : PrincipalName) : Checked PrincipalName :=
  if n.kind < 128 then .ok n else .error (.invalidInteger "name-type")

theorem componentsReader_reads {n : PrincipalName} (hascii : n.IsAscii) :
    (Reader.sequenceOf stringReader).Reads [0xa0 + 1] (explicit 1
      (sequenceOf (n.components.map fun s => generalString (asciiOctets s)))) n.components := by
  have hstrings : ∀ s ∈ n.components,
      stringReader.Reads [] (generalString (asciiOctets s)) (id s) ∧
        generalString (asciiOctets s) ≠ [] := by
    intro s hs
    exact ⟨stringReader_reads (by simp) (hascii s hs), element_ne_nil _ _⟩
  have hall := Reader.Reads.sequenceOf hstrings [0xa0 + 1]
  rw [List.map_id] at hall
  exact hall

theorem nameReader_reads_back {tags : List UInt8} {n : PrincipalName} (hascii : n.IsAscii) :
    nameReader.Reads tags (wrap tags (nameOctets n)) (readBack n) := by
  refine Reader.Reads.sequence ?_ tags
  refine field_reads (buffer_field rfl 0 _) (field_reads (componentsReader_reads hascii) ?_)
  refine .pure ?_ []
  unfold readBack
  split
  · next hkind =>
    rw [uint8_singleton _ hkind]
    rfl
  · next hkind =>
    rw [uint8_singleton_of_le _ (UInt8.not_lt.mp hkind)]
    rfl

theorem nameReader_reads {tags : List UInt8} {n : PrincipalName} (hascii : n.IsAscii)
    (hkind : n.kind < 128) : nameReader.Reads tags (wrap tags (nameOctets n)) (.ok n) := by
  have hback : readBack n = .ok n := if_pos hkind
  rw [← hback]
  exact nameReader_reads_back hascii

/-! ## Keys and addresses -/

theorem keyReader_reads {tags : List UInt8} (k : EncryptionKey) :
    keyReader.Reads tags (wrap tags (key k)) (.ok k) := by
  refine Reader.Reads.sequence ?_ tags
  refine field_reads (buffer_field rfl 0 _) (field_reads (buffer_field rfl 1 _) ?_)
  refine .pure ?_ []
  rw [uint63_etype]
  simp only [bind, Except.bind, EncryptionType.ofNumber?_number]
  rfl

theorem addressReader_reads (a : HostAddress) :
    addressReader.Reads [] (address a) (.ok a) := by
  refine Reader.Reads.sequence ?_ []
  refine field_reads (buffer_field rfl 0 _) (field_reads (buffer_field rfl 1 _) ?_)
  refine .pure ?_ []
  rw [int32_ofInt32]
  rfl

theorem mapM_id_ok {α : Type} (as : List α) :
    (as.map fun a => (.ok a : Checked α)).mapM id = .ok as := by
  induction as with
  | nil => rfl
  | cons a as ih =>
    rw [List.map_cons, List.mapM_cons, ih]
    rfl

theorem mapM_id_some_ok {α : Type} (o : Option α) :
    (o.map fun a => (.ok a : Checked α)).mapM id = .ok o := by
  cases o <;> rfl

theorem addressesReader_reads {tags : List UInt8} (as : List HostAddress) :
    addressesReader.Reads tags (wrap tags (addresses as)) (.ok as) := by
  have hall : (Reader.sequenceOf addressReader).Reads tags (wrap tags (addresses as))
      (as.map fun a => (.ok a : Checked HostAddress)) :=
    Reader.Reads.sequenceOf (fun a _ => ⟨addressReader_reads a, element_ne_nil _ _⟩) tags
  refine hall.map_of_bind fun c => ?_
  rw [mapM_id_ok]
  rfl

theorem transitedReader_reads {tags : List UInt8} (t : TransitedEncoding) :
    transitedReader.Reads tags (wrap tags (transited t)) (.ok t) := by
  refine Reader.Reads.sequence ?_ tags
  refine field_reads (buffer_field rfl 0 _) (field_reads (buffer_field rfl 1 _) ?_)
  refine .pure ?_ []
  rw [int32_ofInt32]
  rfl

end Wire

end Kerberos
