import Kerberos.Realm
import Kerberos.Refusal

/-! # Validity periods

    When a ticket starts, when it ends, and until when it can be renewed.  Sums of times and
    configured spans never pass `Instant.infinity`, which also stands for an end that the
    request leaves open. -/

namespace Kerberos

structure Validity where
  startTime : Instant
  endTime : Instant
  /-- The end of renewals, for renewable tickets only. -/
  renewTill : Option Instant
  /-- The start lies in the future. -/
  postdated : Bool
  deriving DecidableEq, Repr

namespace Validity

def renewable (v : Validity) : Bool := v.renewTill.isSome

/-- The start of a ticket.  A wanted start later than the skew allows is granted only to requests for a
    postdated ticket; any other is taken to mean now. -/
def chooseStart (c : RealmConfig) (request : RequestBody) (now : Instant) : Except Refusal (Instant × Bool) :=
  match request.start with
  | some start =>
    if now.addCapped c.skew < start then
      if request.options.contains .postdated then .ok (start, true) else .error .cannotPostdate
    else .ok (now, false)
  | none => .ok (now, false)

/-- The end of a ticket: the wanted end or the end of the longest life, whichever comes first. -/
def chooseEnd (c : RealmConfig) (request : RequestBody) (start : Instant) : Instant :=
  min (request.till.getD Instant.infinity) (start.addCapped c.lifetime)

/-- The end of renewals that the client asks for, if it asks for a renewable ticket.  A client whose wanted
    end was cut short gets one in place of the longer life, if it said that this is fine with it and the
    realm allows it. -/
def wantedRenewal (c : RealmConfig) (request : RequestBody) (endTime : Instant) : Option Instant :=
  match request.till with
  | some till =>
    if request.options.contains .renewableOk && endTime < till && c.renewableAllowed then some till
    else asked
  | none => asked
where
  asked : Option Instant :=
    if request.options.contains .renewable then some (request.rtime.getD Instant.infinity) else none

/-- The validity period of a ticket issued at `now`. -/
def choose (c : RealmConfig) (request : RequestBody) (now : Instant) : Except Refusal Validity := do
  let (startTime, postdated) ← chooseStart c request now
  let endTime := chooseEnd c request startTime
  if endTime < startTime then throw (.neverValid (.endsBeforeStart endTime startTime))
  if endTime - startTime < c.skew then throw (.neverValid (.shorterThanSkew (endTime - startTime)))
  match wantedRenewal c request endTime with
  | none => return { startTime, endTime, renewTill := none, postdated }
  | some wanted =>
    if !c.renewableAllowed then throw (.policyViolation .renewable)
    return { startTime, endTime, renewTill := some (min wanted (startTime.addCapped c.renewal)), postdated }

end Validity

end Kerberos
