import Kerberos.Failure
import Kerberos.Numeral
import Kerberos.Octets

/-! # Encoding errors

    Why a message could not be read or written.  Fields are named as in the messages. -/

namespace Kerberos

inductive WireError where
  /-- The octets do not have the structure of the message. -/
  | malformed
  /-- The message says that it is of another type. -/
  | wrongMessageType (found : Octets) (expected : UInt8)
  /-- A number is out of range. -/
  | invalidInteger (field : String)
  /-- A time is none of the calendar, or later than year 9999. -/
  | invalidTime (field : String)
  /-- A string holds a character outside ASCII. -/
  | invalidString (field : String)
  /-- A key is for an encryption type that is not implemented. -/
  | unsupportedKeyType (etype : UInt64)
  /-- The length of a message does not fit in 32 bits. -/
  | tooLarge (size : Nat)
  deriving DecidableEq, Repr

namespace WireError

def message : WireError → String
  | malformed => "ASN1 DER encoding failed"
  | wrongMessageType found expected =>
    "got invalid Kerberos message type (" ++ Numeral.list (found.map UInt8.toNat) ++ "): expected ["
      ++ toString expected.toNat ++ "]"
  | invalidInteger field => field ++ " is not a valid INTEGER value"
  | invalidTime field => field ++ " is not a valid KerberosTime value"
  | invalidString field => field ++ " is not a valid KerberosString"
  | unsupportedKeyType etype => "unsupported encryption key type: " ++ toString etype.toNat
  | tooLarge size => "message is too large: " ++ toString size ++ " bytes"

end WireError

/-- A value whose range is still to be checked.  A message is read as a whole before any of its values
    is checked, so reading yields checks, and the message decides on their order. -/
abbrev Checked (α : Type) := Except WireError α

/-- The outcome of writing a message that holds times. -/
abbrev Written := Except (Failure WireError) Octets

end Kerberos
