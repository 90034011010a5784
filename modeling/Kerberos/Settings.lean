import Kerberos.Realm

/-! # Settings

    A realm is configured by a table of named settings, or by a list that gives them without
    their names, in a fixed order.  A setting that is not given keeps its default, and names that
    are not known are passed over.  A setting of the wrong type, a number out of range, or a list
    with more members than there are settings, refuses the whole configuration. -/

namespace Kerberos

/-- A value in a configuration. -/
inductive Setting where
  | null
  | flag (on : Bool)
  /-- The number `mantissa / 10 ^ places`. -/
  | number (mantissa : Int) (places : Nat)
  | text (s : String)
  | list (members : List Setting)
  | table (entries : List (String × Setting))
  deriving Inhabited

namespace Setting

def flag? : Setting → Option Bool
  | flag on => some on
  | _ => none

def text? : Setting → Option String
  | text s => some s
  | _ => none

/-- An integer from 0 to 2^64 - 1, written without decimal places. -/
def unsigned? : Setting → Option UInt64
  | number n 0 => if 0 ≤ n && n < 18446744073709551616 then some (UInt64.ofNat n.toNat) else none
  | _ => none

def list? : Setting → Option (List Setting)
  | list members => some members
  | _ => none

end Setting

/-- The name of an encryption type in a configuration. -/
def EncryptionType.settingName : EncryptionType → String
  | aes256 => "Aes256CtsHmacSha196"
  | aes128 => "Aes128CtsHmacSha196"

def EncryptionType.ofSettingName? (s : String) : Option EncryptionType :=
  [aes256, aes128].find? fun e => e.settingName == s

/-- An encryption type is its name, or a table that has the name for its only entry and says
    nothing of it. -/
def EncryptionType.ofSetting? : Setting → Option EncryptionType
  | .text name => ofSettingName? name
  | .table [(name, .null)] => ofSettingName? name
  | _ => none

namespace RealmConfig

def etypes? (s : Setting) : Option (List EncryptionType) := do
  let members ← s.list?
  members.mapM EncryptionType.ofSetting?

/-- The names of the settings, in the order in which a list gives their values. -/
def settingNames : List String := [
  "realm", "encryption_types", "max_time_skew", "max_ticket_lifetime", "max_renewable_lifetime",
  "replay_cache_retention", "pa_enc_timestamp_required", "allow_forwardable", "allow_proxiable",
  "allow_postdated", "allow_renewable", "allow_empty_addresses"]

/-- The settings with their names.  A list may stop early, but not go on behind the last name. -/
def namedSettings? : Setting → Option (List (String × Setting))
  | .table entries => some entries
  | .list members =>
    if members.length ≤ settingNames.length then some (settingNames.zip members) else none
  | _ => none

/-- The configuration that a table or a list of settings stands for. -/
def ofSetting? (s : Setting) : Option RealmConfig := do
  let entries ← namedSettings? s
  let given {α : Type} (name : String) (standard : α) (read : Setting → Option α) : Option α :=
    match entries.lookup name with
    | some setting => read setting
    | none => some standard
  let standard : RealmConfig := {}
  let realm ← given "realm" standard.realm Setting.text?
  let etypes ← given "encryption_types" standard.etypes etypes?
  let skewSeconds ← given "max_time_skew" standard.skewSeconds Setting.unsigned?
  let lifetimeSeconds ← given "max_ticket_lifetime" standard.lifetimeSeconds Setting.unsigned?
  let renewalSeconds ← given "max_renewable_lifetime" standard.renewalSeconds Setting.unsigned?
  let retentionSeconds ← given "replay_cache_retention" standard.retentionSeconds Setting.unsigned?
  let timestampRequired ← given "pa_enc_timestamp_required" standard.timestampRequired Setting.flag?
  let forwardableAllowed ← given "allow_forwardable" standard.forwardableAllowed Setting.flag?
  let proxiableAllowed ← given "allow_proxiable" standard.proxiableAllowed Setting.flag?
  let postdatedAllowed ← given "allow_postdated" standard.postdatedAllowed Setting.flag?
  let renewableAllowed ← given "allow_renewable" standard.renewableAllowed Setting.flag?
  let addresslessAllowed ← given "allow_empty_addresses" standard.addresslessAllowed Setting.flag?
  some {
    realm, etypes, skewSeconds, lifetimeSeconds, renewalSeconds, retentionSeconds, timestampRequired
    forwardableAllowed, proxiableAllowed, postdatedAllowed, renewableAllowed, addresslessAllowed }

/-- The table that stands for the configuration, with every setting in it. -/
def toSetting (c : RealmConfig) : Setting :=
  let seconds (n : UInt64) : Setting := .number n.toNat 0
  .table (settingNames.zip [
    .text c.realm,
    .list (c.etypes.map fun e => .text e.settingName),
    seconds c.skewSeconds,
    seconds c.lifetimeSeconds,
    seconds c.renewalSeconds,
    seconds c.retentionSeconds,
    .flag c.timestampRequired,
    .flag c.forwardableAllowed,
    .flag c.proxiableAllowed,
    .flag c.postdatedAllowed,
    .flag c.renewableAllowed,
    .flag c.addresslessAllowed])

end RealmConfig

end Kerberos
