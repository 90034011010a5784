import Kerberos.ReplayCache

/-! # The replay log

    The plainest memory of accepted timestamps: one list, searched as a whole and purged as
    a whole.  Retention is easy to read off it, and the replay cache, which groups its
    records by expiry time, has to give the same answers. -/

namespace Kerberos

structure ReplayLog where
  retention : Duration
  /-- The remembered records with the times at which they were accepted, the oldest first. -/
  accepted : List (ReplayRecord × Instant)
  deriving DecidableEq, Repr

namespace ReplayLog

def empty (retention : Duration) : ReplayLog := { retention, accepted := [] }

def size (l : ReplayLog) : Nat := l.accepted.length

/-- Whether what was accepted at `t` is forgotten at `now`: its retention has ended by then.  A retention
    that ends past the last representable instant does not end. -/
def forgotten (retention : Duration) (t now : Instant) : Bool :=
  match t.add? retention with
  | some expiry => expiry < now
  | none => false

/-- Drops what is forgotten, then looks the record up and appends it if it is new. -/
def check (l : ReplayLog) (record : ReplayRecord) (now : Instant) : Verdict × ReplayLog :=
  let live := l.accepted.filter fun (_, t) => !forgotten l.retention t now
  if live.any (·.1 == record) then (.replay, { l with accepted := live })
  else (.fresh, { l with accepted := live ++ [(record, now)] })

end ReplayLog

end Kerberos
