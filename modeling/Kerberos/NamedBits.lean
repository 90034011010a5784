import Kerberos.Numeral

/-! # Words of named bits

    Options and flags are 32-bit words in which some bits have a name.  Bits without a name
    are kept and shown as one number. -/

namespace Kerberos

structure NamedBit where
  mask : UInt32
  name : String
  deriving DecidableEq, Repr

namespace NamedBit

/-- The bits that have a name. -/
def known (names : List NamedBit) (word : UInt32) : UInt32 :=
  word &&& names.foldl (fun mask bit => mask ||| bit.mask) 0

/-- The names of the set bits in the order of `names`, then the bits without a name as a number. -/
def describe (title : String) (names : List NamedBit) (word : UInt32) : String :=
  let set := (names.filter fun bit => word &&& bit.mask == bit.mask).map (·.name)
  let unknown := word &&& ~~~known names word
  let shown := if unknown == 0 && !set.isEmpty then set else set ++ [Numeral.hex unknown.toNat]
  title ++ "(" ++ " | ".intercalate shown ++ ")"

end NamedBit

end Kerberos
