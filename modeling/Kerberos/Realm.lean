import Kerberos.Key
import Kerberos.Time.Duration

/-! # The realm

    What an administrator decides: the name of the realm, its encryption types, limits on
    time, and which properties of tickets are allowed. -/

namespace Kerberos

structure RealmConfig where
  realm : String := "EXAMPLE.COM"
  /-- The supported encryption types, as hints list them. -/
  etypes : List EncryptionType := [.aes256, .aes128]
  /-- How far the clocks of a client and of the service may be apart, in seconds. -/
  skewSeconds : UInt64 := 300
  /-- The longest life of a ticket, in seconds. -/
  lifetimeSeconds : UInt64 := 86400
  /-- The longest time from the start of a ticket to its last renewal, in seconds. -/
  renewalSeconds : UInt64 := 604800
  /-- How long a timestamp is remembered, in seconds. -/
  retentionSeconds : UInt64 := 600
  /-- Clients without a timestamp are turned away. -/
  timestampRequired : Bool := true
  forwardableAllowed : Bool := true
  proxiableAllowed : Bool := true
  postdatedAllowed : Bool := true
  renewableAllowed : Bool := true
  /-- Tickets may name no client address. -/
  addresslessAllowed : Bool := true
  deriving DecidableEq, Repr

namespace RealmConfig

def skew (c : RealmConfig) : Duration := Duration.ofConfigured c.skewSeconds

def lifetime (c : RealmConfig) : Duration := Duration.ofConfigured c.lifetimeSeconds

def renewal (c : RealmConfig) : Duration := Duration.ofConfigured c.renewalSeconds

/-- A timestamp is accepted within the skew on either side of the clock, so it is remembered for at least
    twice the skew. -/
def retention (c : RealmConfig) : Duration :=
  max (Duration.ofConfigured c.retentionSeconds) c.skew.doubled

def supports (c : RealmConfig) (e : EncryptionType) : Bool := c.etypes.contains e

end RealmConfig

end Kerberos
