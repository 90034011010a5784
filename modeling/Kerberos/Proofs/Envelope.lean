import Kerberos.Exchange.FrontDoor
import Kerberos.Proofs.Directory
import Kerberos.Proofs.Exchange

/-! # Ciphers that open what they seal

    Some results are about every cipher, others about every cipher that recovers what it has
    encrypted (`Cipher.Faithful`).  `Cipher.envelope` is the plainest cipher with this law:
    it puts the key usage and the key in front of the plaintext and opens only what starts
    with them.  The realm in `Sample` uses it, so that whole exchanges can be evaluated.
-/

namespace Kerberos

namespace Cipher

/-- What is encrypted under a key for a usage is recovered under that key for that usage. -/
def Faithful (c : Cipher) : Prop :=
  ∀ sealed key usage plaintext data,
    c.encrypt sealed key usage plaintext = .ok data → c.decrypt key usage data = .ok plaintext

theorem Faithful.opens {c : Cipher} (hc : c.Faithful) {α : Type} {sealed : Nat}
    {key : EncryptionKey} {usage : Int32} {plaintext : Octets} {data : EncryptedData}
    {read : Octets → Checked α} {a : α} (hsealed : c.encrypt sealed key usage plaintext = .ok data)
    (hread : read plaintext = .ok a) : c.openMessage key usage data read = .ok a := by
  unfold openMessage
  rw [hc sealed key usage plaintext data hsealed]
  show (read plaintext).mapError _ = _
  rw [hread]
  rfl

/-- What is encrypted is labelled with the encryption type of the key. -/
def Labels (c : Cipher) : Prop :=
  ∀ sealed key usage plaintext data,
    c.encrypt sealed key usage plaintext = .ok data → data.etype = key.etype.number

/-- What stands in front of a plaintext. -/
def envelopeHeader (key : EncryptionKey) (usage : Int32) : Octets :=
  octetsOfWord usage.toUInt32 ++ key.value.octets

def envelope : Cipher where
  randomKey drawn etype :=
    .ok { etype, value := ⟨List.replicate etype.keySize (UInt8.ofNat (drawn + 1))⟩ }
  stringToKey etype password salt := .ok { etype, value := ⟨password ++ salt⟩ }
  encrypt _ key usage plaintext :=
    .ok { etype := key.etype.number, kvno := none, cipher := envelopeHeader key usage ++ plaintext }
  decrypt key usage data :=
    let header := envelopeHeader key usage
    if EncryptionType.ofNumber? data.etype ≠ some key.etype then
      .error (.etypeMismatch key.etype data.etype)
    else if data.cipher.take header.length = header then .ok (data.cipher.drop header.length)
    else .error (.integrity .integrityCheck)

theorem envelope_faithful : envelope.Faithful := by
  intro sealed key usage plaintext data h
  cases h
  simp [envelope, EncryptionType.ofNumber?_number]

theorem envelope_labels : envelope.Labels := by
  intro sealed key usage plaintext data h
  cases h
  rfl

end Cipher

/-- An exchange that is evaluated to a value leaves some ledger behind. -/
theorem Exchange.exists_of_fst_eq {α : Type} {x : Exchange α} {l : Ledger} {a : α}
    (h : (x.runOn l).1 = .ok a) : ∃ l', x.runOn l = (.ok a, l') := by
  refine ⟨(x.runOn l).2, ?_⟩
  rw [← h]

/-- An exchange that is evaluated and succeeds has a reply. -/
theorem Exchange.exists_of_isOk {α : Type} {x : Exchange α} {l : Ledger}
    (h : (x.runOn l).1.isOk = true) : ∃ a l', x.runOn l = (.ok a, l') := by
  cases hrun : (x.runOn l).1 with
  | error e =>
    rw [hrun] at h
    cases h
  | ok a => exact ⟨a, exists_of_fst_eq hrun⟩

/-! ## A small realm -/

namespace Sample

def userKey : EncryptionKey := ⟨.aes256, ⟨[1, 2, 3]⟩⟩

def serviceKey : EncryptionKey := ⟨.aes256, ⟨[4, 5]⟩⟩

def user : DirectoryEntry :=
  { principal := .principal "pw13", realm := "EXAMPLE.COM", keys := KeyRing.insert {} userKey
    salt := some "EXAMPLE.COMpw13" }

def ticketService : DirectoryEntry :=
  { principal := .krbtgt "EXAMPLE.COM", realm := "EXAMPLE.COM"
    keys := KeyRing.insert {} serviceKey }

def entries : List DirectoryEntry := [user, ticketService]

def table : PrincipalTable := .ofEntries entries

def service : Service :=
  { config := {}, directory := table.directory, cipher := .envelope, otp := none }

/-- Noon of 14 October 2026. -/
def noon : Instant := ⟨1791979200000000000, by decide, by decide⟩

/-- The next second. -/
def pastNoon : Instant := ⟨1791979201000000000, by decide, by decide⟩

def stamp : PaEncTimestamp := ⟨noon, some 5⟩

/-- A timestamp encrypted under the key of the user. -/
def proof : Octets :=
  match Cipher.envelope.sealMessage 0 userKey KeyUsage.encTimestamp stamp.write with
  | .ok data => data.write
  | .error _ => []

/-- The user asks for a ticket, with its name and the realm in another case. -/
def request : AsRequest :=
  { pvno := 5, padata := [⟨PaData.encTimestamp, proof⟩], options := .forwardable
    cname := some (.principal "PW13"), realm := "example.com", sname := some (.krbtgt "EXAMPLE.COM")
    start := none, till := none, rtime := none, nonce := 0x87654321, etypes := [23, 18]
    addresses := some [⟨2, [192, 168, 1, 10]⟩] }

/-- The request as the user's client writes it. -/
def message : Octets :=
  match request.write { etypes := [23, 18], nonceInFull := true } with
  | .ok octets => octets
  | .error _ => []

end Sample

end Kerberos
