import Kerberos.Directory

/-! # The replay cache

    A timestamp that was accepted once must not be accepted again.  The cache remembers each
    accepted timestamp until it expires, and keeps the timestamps of one expiry time together
    so that a check touches only those that have expired.  A timestamp whose expiry time is
    past the last representable instant never expires. -/

namespace Kerberos

structure ReplayRecord where
  /-- The lookup key of the client. -/
  principal : String
  /-- The client's time. -/
  ctime : Instant
  cusec : UInt32
  deriving DecidableEq, Repr

def ReplayRecord.of (n : PrincipalName) (realm : String) (ctime : Instant) (cusec : UInt32) : ReplayRecord :=
  ⟨lookupKey n realm, ctime, cusec⟩

inductive Verdict where
  /-- The record was not in the cache; now it is. -/
  | fresh
  | replay
  deriving DecidableEq, Repr

/-- The records that expire at one time, in the order in which they came. -/
structure ExpiryBucket where
  expiry : Instant
  records : List ReplayRecord
  deriving DecidableEq, Repr

structure ReplayCache where
  retention : Duration
  /-- The remembered records, each with the time at which it was accepted. -/
  seen : List (ReplayRecord × Instant)
  /-- The records that expire, by ascending time. -/
  buckets : List ExpiryBucket
  deriving DecidableEq, Repr

/-- Adds a record to the bucket of its expiry time, in its place in the order. -/
def ExpiryBucket.add (expiry : Instant) (record : ReplayRecord) : List ExpiryBucket → List ExpiryBucket
  | [] => [⟨expiry, [record]⟩]
  | bucket :: buckets =>
    if expiry < bucket.expiry then ⟨expiry, [record]⟩ :: bucket :: buckets
    else if bucket.expiry < expiry then bucket :: add expiry record buckets
    else { bucket with records := bucket.records ++ [record] } :: buckets

namespace ReplayCache

def empty (retention : Duration) : ReplayCache := { retention, seen := [], buckets := [] }

def size (c : ReplayCache) : Nat := c.seen.length

def contains (c : ReplayCache) (record : ReplayRecord) : Bool := c.seen.any (·.1 == record)

/-- Forgets the records whose expiry time is before `now`. -/
def evict (c : ReplayCache) (now : Instant) : ReplayCache :=
  let expired := (c.buckets.takeWhile (·.expiry < now)).flatMap (·.records)
  { c with
    seen := c.seen.filter fun (record, _) => !expired.contains record
    buckets := c.buckets.dropWhile (·.expiry < now) }

/-- Remembers a record that came at `now`. -/
def remember (c : ReplayCache) (record : ReplayRecord) (now : Instant) : ReplayCache :=
  { c with
    seen := (record, now) :: c.seen
    buckets := match now.add? c.retention with
      | some expiry => ExpiryBucket.add expiry record c.buckets
      | none => c.buckets }

/-- Forgets what has expired, then looks the record up and remembers it if it is new. -/
def check (c : ReplayCache) (record : ReplayRecord) (now : Instant) : Verdict × ReplayCache :=
  let c := c.evict now
  if c.contains record then (.replay, c) else (.fresh, c.remember record now)

end ReplayCache

end Kerberos
