import Kerberos.NamedBits

/-! # Flags of a ticket

    `Grants` lists what has been decided about a ticket, one decision a field, and
    `Grants.flags` is the only place where flags are put together. -/

namespace Kerberos

structure TicketFlags where
  bits : UInt32
  deriving DecidableEq, Repr

namespace TicketFlags

instance : OrOp TicketFlags := ⟨fun a b => ⟨a.bits ||| b.bits⟩⟩

instance : AndOp TicketFlags := ⟨fun a b => ⟨a.bits &&& b.bits⟩⟩

def empty : TicketFlags := ⟨0⟩

def forwardable : TicketFlags := ⟨0x40000000⟩

def forwarded : TicketFlags := ⟨0x20000000⟩

def proxiable : TicketFlags := ⟨0x10000000⟩

def proxy : TicketFlags := ⟨0x08000000⟩

def mayPostdate : TicketFlags := ⟨0x04000000⟩

def postdated : TicketFlags := ⟨0x02000000⟩

def invalid : TicketFlags := ⟨0x01000000⟩

def renewable : TicketFlags := ⟨0x00800000⟩

def initial : TicketFlags := ⟨0x00400000⟩

def preAuthent : TicketFlags := ⟨0x00200000⟩

def hwAuthent : TicketFlags := ⟨0x00100000⟩

def transitedPolicyChecked : TicketFlags := ⟨0x00080000⟩

def okAsDelegate : TicketFlags := ⟨0x00040000⟩

/-- All of the bits of `wanted` are set. -/
def contains (flags wanted : TicketFlags) : Bool := flags &&& wanted == wanted

/-- The flags, if the condition holds. -/
def onlyIf (flags : TicketFlags) (condition : Bool) : TicketFlags := if condition then flags else empty

def names : List NamedBit := [
  ⟨forwardable.bits, "FORWARDABLE"⟩, ⟨forwarded.bits, "FORWARDED"⟩, ⟨proxiable.bits, "PROXIABLE"⟩,
  ⟨proxy.bits, "PROXY"⟩, ⟨mayPostdate.bits, "MAY_POSTDATE"⟩, ⟨postdated.bits, "POSTDATED"⟩,
  ⟨invalid.bits, "INVALID"⟩, ⟨renewable.bits, "RENEWABLE"⟩, ⟨initial.bits, "INITIAL"⟩,
  ⟨preAuthent.bits, "PRE_AUTHENT"⟩, ⟨hwAuthent.bits, "HW_AUTHENT"⟩,
  ⟨transitedPolicyChecked.bits, "TRANSITED_POLICY_CHECKED"⟩, ⟨okAsDelegate.bits, "OK_AS_DELEGATE"⟩]

def text (flags : TicketFlags) : String := NamedBit.describe "TicketFlags" names flags.bits

end TicketFlags

/-- The decisions about a ticket that show in its flags. -/
structure Grants where
  preAuthenticated : Bool := false
  forwardable : Bool := false
  proxiable : Bool := false
  mayPostdate : Bool := false
  postdated : Bool := false
  renewable : Bool := false
  deriving DecidableEq, Repr

/-- The flags of a ticket issued by the initial exchange.  A postdated ticket is invalid until it is
    validated. -/
def Grants.flags (g : Grants) : TicketFlags :=
  TicketFlags.initial
    ||| TicketFlags.preAuthent.onlyIf g.preAuthenticated
    ||| TicketFlags.forwardable.onlyIf g.forwardable
    ||| TicketFlags.proxiable.onlyIf g.proxiable
    ||| TicketFlags.mayPostdate.onlyIf g.mayPostdate
    ||| (TicketFlags.postdated ||| TicketFlags.invalid).onlyIf g.postdated
    ||| TicketFlags.renewable.onlyIf g.renewable

end Kerberos
