import Kerberos.Crypto.Aes

/-! # Block chaining with ciphertext stealing

    Plaintexts of any length from one block on are encrypted without padding.  Blocks are
    chained, the last one is filled up with zeros, and then the last two blocks of the
    ciphertext change places and the new last one is cut to the length of the plaintext.  A
    single block is just encrypted. -/

namespace Kerberos.Crypto.Stealing

def blockSize : Nat := 16

def zeroBlock : Octets := List.replicate blockSize 0

/-- The number of octets in the last block, which is full if the length is a multiple of the block size. -/
def lastSize (length : Nat) : Nat := (length - 1) % blockSize + 1

/-- The ciphertext blocks of `count` blocks, chained from `previous`. -/
def chain (encrypt : Octets → Octets) : (count : Nat) → (previous : Octets) → Octets → List Octets
  | 0, _, _ => []
  | count + 1, previous, rest =>
    let block := encrypt (xorOctets previous (rest.take blockSize))
    block :: chain encrypt count block (rest.drop blockSize)

/-- Exchanges the last two blocks and cuts the one that is then last. -/
def steal (size : Nat) : List Octets → Octets
  | [a, b] => b ++ a.take size
  | block :: blocks => block ++ steal size blocks
  | [] => []

def encrypt (encryptBlock : Octets → Octets) (plaintext : Octets) : Octets :=
  let count := (plaintext.length + blockSize - 1) / blockSize
  let last := lastSize plaintext.length
  let filled := plaintext ++ List.replicate (blockSize - last) 0
  steal last (chain encryptBlock count zeroBlock filled)

/-- The plaintext of two blocks, of which the second was cut to `last` octets. -/
def unsteal (decryptBlock : Octets → Octets) (previous full cut : Octets) (last : Nat) : Octets :=
  let mixed := decryptBlock full
  let block := cut ++ mixed.drop last
  xorOctets previous (decryptBlock block) ++ (xorOctets mixed block).take last

/-- Decrypts `count` blocks in plain chaining and then the last two. -/
def unchain (decryptBlock : Octets → Octets) (last : Nat) : (count : Nat) → (previous : Octets) → Octets → Octets
  | 0, previous, rest => unsteal decryptBlock previous (rest.take blockSize) (rest.drop blockSize) last
  | count + 1, previous, rest =>
    let block := rest.take blockSize
    xorOctets previous (decryptBlock block) ++ unchain decryptBlock last count block (rest.drop blockSize)

def decrypt (decryptBlock : Octets → Octets) (ciphertext : Octets) : Octets :=
  if ciphertext.length ≤ blockSize then decryptBlock ciphertext
  else
    let count := (ciphertext.length + blockSize - 1) / blockSize
    unchain decryptBlock (lastSize ciphertext.length) (count - 2) zeroBlock ciphertext

end Kerberos.Crypto.Stealing
