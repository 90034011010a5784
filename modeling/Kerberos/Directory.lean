import Kerberos.Cipher

/-! # The directory of principals

    The service asks a `Directory` for clients and services.  A `PrincipalTable` is one that
    is kept in memory: entries under the lookup key of their name, where two names that
    differ in the case of letters have the same key and two names with different components
    do not, wherever their components hold slashes or at signs. -/

namespace Kerberos

/-! ## Entries -/

/-- The one-time-password methods that a client may have to use. -/
inductive OtpMethod where
  | enigma
  | digiPath
  | sKeyK0
  | sKey
  | securId
  | cryptoCard
  deriving DecidableEq, Repr

def OtpMethod.name : OtpMethod → String
  | enigma => "Enigma"
  | digiPath => "DigiPath"
  | sKeyK0 => "SKeyK0"
  | sKey => "SKey"
  | securId => "SecurId"
  | cryptoCard => "CryptoCard"

/-- The long-term keys of a principal, at most one in each place. -/
structure KeyRing where
  aes256 : Option EncryptionKey := none
  aes128 : Option EncryptionKey := none
  deriving DecidableEq, Repr

namespace KeyRing

def get? (r : KeyRing) : EncryptionType → Option EncryptionKey
  | .aes256 => r.aes256
  | .aes128 => r.aes128

/-- Puts a key in the place of its encryption type, instead of the one that was there. -/
def insert (r : KeyRing) (key : EncryptionKey) : KeyRing :=
  match key.etype with
  | .aes256 => { r with aes256 := some key }
  | .aes128 => { r with aes128 := some key }

theorem get?_insert (r : KeyRing) (key : EncryptionKey) (etype : EncryptionType) :
    (r.insert key).get? etype = if etype = key.etype then some key else r.get? etype := by
  cases h : key.etype <;> cases etype <;> simp [insert, get?, h]

def isEmpty (r : KeyRing) : Bool := r.aes256.isNone && r.aes128.isNone

/-- The keys in the order of the numbers of their places. -/
def toList (r : KeyRing) : List EncryptionKey := r.aes128.toList ++ r.aes256.toList

end KeyRing

/-- What the directory knows about a client or a service. -/
structure DirectoryEntry where
  principal : PrincipalName
  realm : String
  keys : KeyRing := {}
  disabled : Bool := false
  lockedOut : Bool := false
  /-- When the account expires, if ever. -/
  expiration : Option Instant := none
  /-- The method that stands in for the encrypted timestamp. -/
  otpMethod : Option OtpMethod := none
  /-- The salt of the password. -/
  salt : Option String := none
  lastSuccessfulAuth : Option Instant := none
  deriving DecidableEq, Repr

/-! ## Lookup keys -/

/-- Marks the characters that separate parts of a lookup key with a backslash, and the backslash itself. -/
def escapeComponent (keepAt : Bool) (component : String) : String :=
  String.ofList <| component.toList.flatMap fun c =>
    if c == '\\' || c == '/' || (c == '@' && !keepAt) then ['\\', c] else [c]

/-- The name and the realm in lower case.  The component of an enterprise name holds its realm already. -/
def lookupKey (n : PrincipalName) (realm : String) : String :=
  let components := n.components.map (escapeComponent n.isEnterprise)
  let name := "/".intercalate components
  lowercase (if n.isEnterprise then name else name ++ "@" ++ realm)

/-! ## Directories -/

inductive DirectoryError where
  | backend (detail : String)
  | invalidUserName (name : String)
  | keyDerivation (cause : CipherError)
  deriving DecidableEq, Repr

def DirectoryError.message : DirectoryError → String
  | backend detail => "directory backend failure: " ++ detail
  | invalidUserName name => "invalid domain user name: " ++ name
  | keyDerivation cause => "failed to derive the user key: " ++ cause.message

/-- Looks a name of a realm up. -/
abbrev Directory := PrincipalName → (realm : String) → Except DirectoryError (Option DirectoryEntry)

/-- Entries under their lookup keys. -/
structure PrincipalTable where
  entries : List (String × DirectoryEntry) := []
  deriving DecidableEq, Repr

namespace PrincipalTable

/-- Adds an entry, instead of the one with the same lookup key. -/
def insert (t : PrincipalTable) (e : DirectoryEntry) : PrincipalTable :=
  let key := lookupKey e.principal e.realm
  ⟨(key, e) :: t.entries.filter fun entry => entry.1 != key⟩

def find? (t : PrincipalTable) (n : PrincipalName) (realm : String) : Option DirectoryEntry :=
  t.entries.lookup (lookupKey n realm)

theorem lookup_filter_ne (key other : String) (entries : List (String × DirectoryEntry)) (h : key ≠ other) :
    (entries.filter fun entry => entry.1 != other).lookup key = entries.lookup key := by
  induction entries with
  | nil => rfl
  | cons entry entries ih =>
    rw [List.lookup_cons]
    by_cases same : entry.1 = other
    · have differs : (key == entry.1) = false := beq_false_of_ne (same ▸ h)
      rw [List.filter_cons_of_neg (by simp [same]), differs]
      exact ih
    · rw [List.filter_cons_of_pos (by simp [same]), List.lookup_cons, ih]

/-- An entry is found under every name with its lookup key, and hides no other. -/
theorem find?_insert (t : PrincipalTable) (e : DirectoryEntry) (n : PrincipalName) (realm : String) :
    (t.insert e).find? n realm =
      if lookupKey n realm = lookupKey e.principal e.realm then some e else t.find? n realm := by
  by_cases same : lookupKey n realm = lookupKey e.principal e.realm
  · simp [insert, find?, same]
  · have differs : (lookupKey n realm == lookupKey e.principal e.realm) = false := beq_false_of_ne same
    simp only [insert, find?, List.lookup_cons, differs]
    rw [lookup_filter_ne _ _ _ same, if_neg same]

def size (t : PrincipalTable) : Nat := t.entries.length

def directory (t : PrincipalTable) : Directory := fun n realm => .ok (t.find? n realm)

end PrincipalTable

/-! ## Users with passwords -/

structure DomainUser where
  /-- The name, possibly with an at sign and a domain behind it. -/
  username : String
  password : String
  salt : String
  deriving DecidableEq, Repr

namespace DomainUser

/-- The name up to the first at sign. -/
def localName (u : DomainUser) : String := String.ofList (u.username.toList.takeWhile (· != '@'))

/-- The entry of a user, with a key for each encryption type. -/
def entry (u : DomainUser) (realm : String) (c : Cipher) (etypes : List EncryptionType) :
    Except DirectoryError DirectoryEntry := do
  if u.localName.isEmpty then throw (.invalidUserName u.username)
  let password := u.password.toUTF8.toList
  let salt := u.salt.toUTF8.toList
  let keys ← etypes.foldlM (fun (keys : KeyRing) etype => do
    let key ← (c.stringToKey etype password salt).mapError .keyDerivation
    return keys.insert key) {}
  return { principal := .principal u.localName, realm, keys, salt := some u.salt }

end DomainUser

/-- The table of all users; a later user with the same name takes the place of an earlier one. -/
def PrincipalTable.ofUsers (realm : String) (users : List DomainUser) (c : Cipher) (etypes : List EncryptionType) :
    Except DirectoryError PrincipalTable :=
  users.foldlM (fun table user => do return table.insert (← user.entry realm c etypes)) {}

end Kerberos
