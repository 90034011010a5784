import Kerberos.Octets

/-! # AES

    The block cipher on sixteen octets, for keys of any multiple of four octets.  The state
    is a list of four columns of four octets, one after the other.  Substitution is computed
    from its definition, inversion in the field of 256 elements and an affine map, and
    tabulated once. -/

namespace Kerberos.Crypto.Aes

/-! ## The field of 256 elements -/

/-- Doubles an element of the field. -/
def double (x : UInt8) : UInt8 :=
  if x &&& 0x80 = 0 then x <<< 1 else (x <<< 1) ^^^ 0x1b

/-- The product of two elements, by the lowest `bits` bits of the second. -/
def mulBits : (bits : Nat) → UInt8 → UInt8 → UInt8
  | 0, _, _ => 0
  | bits + 1, x, y => (if y &&& 1 = 0 then 0 else x) ^^^ mulBits bits (double x) (y >>> 1)

def mul (x y : UInt8) : UInt8 := mulBits 8 x y

def power (x : UInt8) : Nat → UInt8
  | 0 => 1
  | n + 1 => mul x (power x n)

/-! ## Substitution -/

def rotate (x count : UInt8) : UInt8 := (x <<< count) ||| (x >>> (8 - count))

/-- The inverse in the field, which is the power 254, under an affine map. -/
def substitute (x : UInt8) : UInt8 :=
  let y := power x 254
  y ^^^ rotate y 1 ^^^ rotate y 2 ^^^ rotate y 3 ^^^ rotate y 4 ^^^ 0x63

def table : Array UInt8 := Array.ofFn fun i : Fin 256 => substitute (UInt8.ofNat i.val)

def inverseTable : Array UInt8 :=
  Array.ofFn fun i : Fin 256 => UInt8.ofNat ((table.toList.idxOf (UInt8.ofNat i.val)))

def lookUp (t : Array UInt8) (x : UInt8) : UInt8 := t.getD x.toNat 0

/-! ## Rounds -/

/-- The octets at the given positions. -/
def pick (positions : List Nat) (state : Octets) : Octets :=
  let octets := state.toArray
  positions.map fun i => octets.getD i 0

def shiftRows : Octets → Octets := pick [0, 5, 10, 15, 4, 9, 14, 3, 8, 13, 2, 7, 12, 1, 6, 11]

def unshiftRows : Octets → Octets := pick [0, 13, 10, 7, 4, 1, 14, 11, 8, 5, 2, 15, 12, 9, 6, 3]

/-- Multiplies each column by the circulant matrix with the first row `k₀ k₁ k₂ k₃`. -/
def mixColumns (k₀ k₁ k₂ k₃ : UInt8) : Octets → Octets
  | a :: b :: c :: d :: rest =>
    (mul a k₀ ^^^ mul b k₁ ^^^ mul c k₂ ^^^ mul d k₃) ::
    (mul a k₃ ^^^ mul b k₀ ^^^ mul c k₁ ^^^ mul d k₂) ::
    (mul a k₂ ^^^ mul b k₃ ^^^ mul c k₀ ^^^ mul d k₁) ::
    (mul a k₁ ^^^ mul b k₂ ^^^ mul c k₃ ^^^ mul d k₀) :: mixColumns k₀ k₁ k₂ k₃ rest
  | _ => []

/-! ## Round keys -/

/-- Adds `count` columns to the key columns, `width` of which are the key itself. -/
def expand (width : Nat) : (count : Nat) → (constant : UInt8) → Array Octets → Array Octets
  | 0, _, columns => columns
  | count + 1, constant, columns =>
    let last := columns.getD (columns.size - 1) []
    let before := columns.getD (columns.size - width) []
    let substituted (column : Octets) := column.map (lookUp table)
    if columns.size % width = 0 then
      let turned := substituted (last.tail ++ last.take 1)
      let mixed := xorOctets turned [constant, 0, 0, 0]
      expand width count (double constant) (columns.push (xorOctets before mixed))
    else if 6 < width ∧ columns.size % width = 4 then
      expand width count constant (columns.push (xorOctets before (substituted last)))
    else expand width count constant (columns.push (xorOctets before last))

/-- Groups of four octets. -/
def columns : Octets → List Octets
  | a :: b :: c :: d :: rest => [a, b, c, d] :: columns rest
  | _ => []

/-- Groups of four columns, joined. -/
def roundKeysOf : List Octets → List Octets
  | a :: b :: c :: d :: rest => (a ++ b ++ c ++ d) :: roundKeysOf rest
  | _ => []

/-- The round keys, six more than the key has columns, and one. -/
def roundKeys (key : Octets) : List Octets :=
  let width := key.length / 4
  roundKeysOf (expand width (4 * (width + 7) - width) 1 (columns key).toArray).toList

/-! ## Blocks -/

/-- The rounds after the first key has been added. -/
def encryptRounds : (keys : List Octets) → Octets → Octets
  | [], state => state
  | [last], state => xorOctets (shiftRows (state.map (lookUp table))) last
  | key :: keys, state =>
    encryptRounds keys (xorOctets (mixColumns 2 3 1 1 (shiftRows (state.map (lookUp table)))) key)

def encryptBlock (keys : List Octets) (block : Octets) : Octets :=
  match keys with
  | [] => block
  | first :: keys => encryptRounds keys (xorOctets block first)

/-- Undoes the rounds, with the round keys in reverse. -/
def decryptRounds : (keys : List Octets) → Octets → Octets
  | [], state => state
  | [first], state => xorOctets ((unshiftRows state).map (lookUp inverseTable)) first
  | key :: keys, state =>
    decryptRounds keys (mixColumns 14 11 13 9 (xorOctets ((unshiftRows state).map (lookUp inverseTable)) key))

def decryptBlock (keys : List Octets) (block : Octets) : Octets :=
  match keys.reverse with
  | [] => block
  | last :: keys => decryptRounds keys (xorOctets block last)

end Kerberos.Crypto.Aes
