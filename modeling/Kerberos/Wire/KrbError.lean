import Kerberos.Wire.Ticket

/-! # Errors on the wire -/

namespace Kerberos

open Asn1

namespace KrbError

/-- The message type. -/
def messageType : UInt8 := 30

/-- The microseconds of the server's clock. -/
def usec (e : KrbError) : UInt32 := UInt32.ofNat (e.time.subsecond / 1000)

/-- A text with a character outside ASCII is left out. -/
def write (e : KrbError) : Written := do
  let time ← Wire.time e.time
  let crealm ← e.crealm.mapM (m := Checked) Wire.realm
  let cname ← e.cname.mapM (m := Checked) Wire.name
  let realm ← Wire.realm e.realm
  let sname ← Wire.name e.sname
  let text := (e.text.bind Wire.asciiOctets?).map generalString
  return application 30 <| sequenceOf [
    explicit 0 Wire.version, explicit 1 (integer [messageType]), explicit 4 time,
    explicit 5 (integer (Integer.ofWord e.usec)), explicit 6 (integer (Integer.ofWord e.code)),
    explicit? 7 crealm, explicit? 8 cname, explicit 9 realm, explicit 10 sname, explicit? 11 text,
    explicit? 12 (e.data.map octetString)]

end KrbError

end Kerberos
