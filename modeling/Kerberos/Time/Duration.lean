/-! # Durations

    A span of time is an exact number of nanoseconds.  Spans that come from configured
    seconds stay at or below `Duration.max`, the longest span a clock register holds;
    arithmetic that would pass it stops there. -/

namespace Kerberos

structure Duration where
  nanos : Int
  deriving DecidableEq, Repr

namespace Duration

instance : LE Duration := ⟨fun a b => a.nanos ≤ b.nanos⟩

instance : LT Duration := ⟨fun a b => a.nanos < b.nanos⟩

instance (a b : Duration) : Decidable (a ≤ b) := inferInstanceAs (Decidable (a.nanos ≤ b.nanos))

instance (a b : Duration) : Decidable (a < b) := inferInstanceAs (Decidable (a.nanos < b.nanos))

theorem le_iff (a b : Duration) : a ≤ b ↔ a.nanos ≤ b.nanos := Iff.rfl

theorem lt_iff (a b : Duration) : a < b ↔ a.nanos < b.nanos := Iff.rfl

instance : Max Duration := ⟨fun a b => if a ≤ b then b else a⟩

def nanosPerSecond : Int := 1000000000

/-- The greatest number of whole seconds in a span. -/
def maxSeconds : Int := 9223372036854775807

/-- The longest span: `maxSeconds` and one nanosecond less than a second. -/
def max : Duration := ⟨maxSeconds * nanosPerSecond + 999999999⟩

def ofSeconds (seconds : Int) : Duration := ⟨seconds * nanosPerSecond⟩

/-- The span of a configured number of seconds.  Numbers above `maxSeconds` mean `maxSeconds`. -/
def ofConfigured (seconds : UInt64) : Duration :=
  ofSeconds (min (seconds.toNat : Int) maxSeconds)

/-- Twice the span, or the longest one if that would be longer still. -/
def doubled (d : Duration) : Duration := ⟨min (2 * d.nanos) max.nanos⟩

/-- The length of the span, whichever way it points. -/
def abs (d : Duration) : Duration := ⟨d.nanos.natAbs⟩

/-- The text of a span: its parts that are not zero, from days down to nanoseconds. -/
def text (d : Duration) : String :=
  let nanos := d.nanos.natAbs
  let seconds := nanos / 1000000000
  let rest := nanos % 1000000000
  let parts := [
    (seconds / 86400, "d"), (seconds / 3600 % 24, "h"), (seconds / 60 % 60, "m"), (seconds % 60, "s"),
    (rest / 1000000, "ms"), (rest / 1000 % 1000, "µs"), (rest % 1000, "ns")]
  match parts.filter (fun part => part.1 != 0) with
  | [] => "0s"
  | shown =>
    let sign := if d.nanos < 0 then "-" else ""
    sign ++ String.join (shown.map fun part => toString part.1 ++ part.2)

end Duration

end Kerberos
