import Kerberos.NamedBits

/-! # Options of a request

    The client asks for properties of its ticket by setting bits.  Unknown bits are kept. -/

namespace Kerberos

structure KdcOptions where
  bits : UInt32
  deriving DecidableEq, Repr

namespace KdcOptions

instance : OrOp KdcOptions := ⟨fun a b => ⟨a.bits ||| b.bits⟩⟩

instance : AndOp KdcOptions := ⟨fun a b => ⟨a.bits &&& b.bits⟩⟩

def empty : KdcOptions := ⟨0⟩

def forwardable : KdcOptions := ⟨0x40000000⟩

def forwarded : KdcOptions := ⟨0x20000000⟩

def proxiable : KdcOptions := ⟨0x10000000⟩

def proxy : KdcOptions := ⟨0x08000000⟩

def allowPostdate : KdcOptions := ⟨0x04000000⟩

def postdated : KdcOptions := ⟨0x02000000⟩

def renewable : KdcOptions := ⟨0x00800000⟩

def optHardwareAuth : KdcOptions := ⟨0x00100000⟩

def canonicalize : KdcOptions := ⟨0x00010000⟩

def disableTransitedCheck : KdcOptions := ⟨0x00000020⟩

def renewableOk : KdcOptions := ⟨0x00000010⟩

def encTktInSkey : KdcOptions := ⟨0x00000008⟩

def renew : KdcOptions := ⟨0x00000002⟩

def validate : KdcOptions := ⟨0x00000001⟩

/-- Options that only the ticket-granting exchange knows what to do with. -/
def tgsOnly : KdcOptions := renew ||| validate ||| proxy ||| forwarded ||| encTktInSkey

/-- All of the bits of `wanted` are set. -/
def contains (options wanted : KdcOptions) : Bool := options &&& wanted == wanted

/-- Some of the bits of `others` are set. -/
def intersects (options others : KdcOptions) : Bool := options &&& others != empty

def names : List NamedBit := [
  ⟨forwardable.bits, "FORWARDABLE"⟩, ⟨forwarded.bits, "FORWARDED"⟩, ⟨proxiable.bits, "PROXIABLE"⟩,
  ⟨proxy.bits, "PROXY"⟩, ⟨allowPostdate.bits, "ALLOW_POSTDATE"⟩, ⟨postdated.bits, "POSTDATED"⟩,
  ⟨renewable.bits, "RENEWABLE"⟩, ⟨optHardwareAuth.bits, "OPT_HARDWARE_AUTH"⟩,
  ⟨canonicalize.bits, "CANONICALIZE"⟩, ⟨disableTransitedCheck.bits, "DISABLE_TRANSITED_CHECK"⟩,
  ⟨renewableOk.bits, "RENEWABLE_OK"⟩, ⟨encTktInSkey.bits, "ENC_TKT_IN_SKEY"⟩,
  ⟨renew.bits, "RENEW"⟩, ⟨validate.bits, "VALIDATE"⟩]

def text (options : KdcOptions) : String := NamedBit.describe "KdcOptions" names options.bits

end KdcOptions

end Kerberos
