import Kerberos.Octets

/-! # SHA-1

    A message is padded to blocks of sixteen words, and each block is folded into a chaining
    value of five words.  The fold can be stopped after the first blocks and taken up again
    (`finish`), so that a keyed hash has to process its key only once. -/

namespace Kerberos.Crypto.Sha1

/-- The chaining value. -/
structure Chain where
  a : UInt32
  b : UInt32
  c : UInt32
  d : UInt32
  e : UInt32
  deriving DecidableEq, Repr

def initial : Chain := ⟨0x67452301, 0xefcdab89, 0x98badcfe, 0x10325476, 0xc3d2e1f0⟩

def blockSize : Nat := 64

def rotateLeft (x count : UInt32) : UInt32 := (x <<< count) ||| (x >>> (32 - count))

/-! ## One block -/

/-- The words that groups of four octets write. -/
def words : Octets → List UInt32
  | a :: b :: c :: d :: rest =>
    ((a.toUInt32 <<< 24) ||| (b.toUInt32 <<< 16) ||| (c.toUInt32 <<< 8) ||| d.toUInt32) :: words rest
  | _ => []

/-- Adds `count` words to a schedule, each made of four earlier ones. -/
def extend : (count : Nat) → Array UInt32 → Array UInt32
  | 0, w => w
  | count + 1, w =>
    let earlier (n : Nat) := w.getD (w.size - n) 0
    extend count (w.push (rotateLeft (earlier 3 ^^^ earlier 8 ^^^ earlier 14 ^^^ earlier 16) 1))

/-- The round with index `t`, for the schedule word `w`. -/
def round (t : Nat) (w : UInt32) (s : Chain) : Chain :=
  let (f, k) : UInt32 × UInt32 :=
    if t < 20 then ((s.b &&& s.c) ||| (~~~s.b &&& s.d), 0x5a827999)
    else if t < 40 then (s.b ^^^ s.c ^^^ s.d, 0x6ed9eba1)
    else if t < 60 then ((s.b &&& s.c) ||| (s.b &&& s.d) ||| (s.c &&& s.d), 0x8f1bbcdc)
    else (s.b ^^^ s.c ^^^ s.d, 0xca62c1d6)
  ⟨rotateLeft s.a 5 + f + s.e + k + w, s.a, rotateLeft s.b 30, s.c, s.d⟩

/-- The last `left` of the eighty rounds. -/
def rounds (schedule : Array UInt32) : (left : Nat) → Chain → Chain
  | 0, s => s
  | left + 1, s => rounds schedule left (round (79 - left) (schedule.getD (79 - left) 0) s)

/-- Folds a block of sixteen words into the chaining value. -/
def compress (s : Chain) (block : List UInt32) : Chain :=
  let t := rounds (extend 64 block.toArray) 80 s
  ⟨s.a + t.a, s.b + t.b, s.c + t.c, s.d + t.d, s.e + t.e⟩

/-! ## Messages -/

/-- Folds `count` blocks, one after the other. -/
def compressAll : (count : Nat) → List UInt32 → Chain → Chain
  | 0, _, s => s
  | count + 1, block, s => compressAll count (block.drop 16) (compress s (block.take 16))

/-- What follows a message of `size` octets: a set bit, zeros, and the number of bits in eight octets. -/
def padding (size : Nat) : Octets :=
  0x80 :: List.replicate ((119 - size % 64) % 64) 0 ++ bigEndianOctets 8 (8 * size)

def Chain.octets (s : Chain) : Octets :=
  octetsOfWord s.a ++ octetsOfWord s.b ++ octetsOfWord s.c ++ octetsOfWord s.d ++ octetsOfWord s.e

/-- The digest of a message whose first `before` octets, a number of whole blocks, have led to `s`. -/
def finish (s : Chain) (before : Nat) (rest : Octets) : Octets :=
  let padded := rest ++ padding (before + rest.length)
  (compressAll (padded.length / blockSize) (words padded) s).octets

def hash (message : Octets) : Octets := finish initial 0 message

end Kerberos.Crypto.Sha1
