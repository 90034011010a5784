import Kerberos.Asn1.Length

/-! # Reading DER leniently

    A reader walks over the octets of a message with a cursor.  Explicit tags are not read
    when they are met: `[n]` only notes that a tag is expected, and the next primitive or
    constructed value first checks the tags noted so far.  Their lengths are ignored.

    A reader that fails leaves the cursor where the failure came up; nothing is rewound.
    An OPTIONAL field turns such a failure into an absent value and reading goes on from
    there, so the cursor after a failure is part of what a reader computes.

    ## Contents

    * `Reader`: functions on the cursor that may fail, with the failing cursor kept.
    * `peekTag`, `takeTags`: checking the expected tags, ahead of the value and in passing.
    * `primitive`: INTEGER, BIT STRING, OCTET STRING, GeneralString, KerberosTime.
    * `Fields`: the members of an open SEQUENCE, with the octets left in it. -/

namespace Kerberos.Asn1

/-! ## Cursor and readers -/

structure Cursor where
  /-- The octets not read yet. -/
  rest : Octets
  /-- The explicit tags that the next value has to be wrapped in, outermost first. -/
  expected : List UInt8
  /-- The number of octets of the whole message. -/
  size : Nat
  deriving DecidableEq, Repr

/-- At the start of a message. -/
def Cursor.start (message : Octets) : Cursor :=
  { rest := message, expected := [], size := message.length }

/-- A step over the message: a value or a failure, and the cursor after it in either case. -/
def Reader (α : Type) : Type := Cursor → Option α × Cursor

namespace Reader

instance : Monad Reader where
  pure a c := (some a, c)
  bind r f c :=
    match r c with
    | (some a, c) => f a c
    | (none, c) => (none, c)

/-- Fails where the cursor stands. -/
def fail {α : Type} : Reader α := fun c => (none, c)

def require (condition : Bool) : Reader Unit := if condition then pure () else fail

/-- A value computed without moving. -/
def look {α : Type} (f : Cursor → Option α) : Reader α := fun c => (f c, c)

/-- An OPTIONAL value: a failure inside leaves it absent and goes on from the cursor it left. -/
def optional {α : Type} (r : Reader α) : Reader (Option α) := fun c =>
  match r c with
  | (some a, c) => (some (some a), c)
  | (none, c) => (some none, c)

/-- Notes that the next value is wrapped in the explicit tag `[n]`. -/
def tagged {α : Type} (n : UInt8) (r : Reader α) : Reader α := fun c =>
  r { c with expected := c.expected ++ [0xa0 + n] }

/-- Reads a message with the cursor at its start.  Octets behind the value are ignored. -/
def run {α : Type} (r : Reader α) (message : Octets) : Option α := (r (Cursor.start message)).1

end Reader

/-! ## Octets and lengths -/

/-- The next octet. -/
def octet : Reader UInt8 := fun c =>
  match c.rest with
  | [] => (none, c)
  | first :: rest => (some first, { c with rest })

/-- The next `n` octets.  If there are fewer, the cursor moves to the end. -/
def octets (n : Nat) : Reader Octets := fun c =>
  if n ≤ c.rest.length then (some (c.rest.take n), { c with rest := c.rest.drop n })
  else (none, { c with rest := [] })

/-- The next length. -/
def length : Reader Nat := fun c =>
  let (n, rest) := splitLength c.rest
  (n, { c with rest })

/-! ## Expected tags -/

/-- How many octets a look ahead can see. -/
def horizon : Nat := 10

/-- The octets within the horizon, filled up with zeros behind the end of the message. -/
def ahead (rest : Octets) : Octets :=
  rest.take horizon ++ List.replicate (horizon - rest.length) 0

inductive Sighting where
  /-- The tag of the value behind all expected tags. -/
  | seen (tag : UInt8)
  /-- Another tag stands where an expected one should. -/
  | mismatch
  /-- The message or the horizon ends first. -/
  | outOfSight

/-- Steps over the expected tags in `window`, of which `visible` octets belong to the message.
    Each length is taken to be written in its shortest form. -/
def sight (window : Octets) (visible : Nat) : (expected : List UInt8) → (position : Nat) → Sighting
  | [], position =>
    if visible ≤ position then .outOfSight
    else match window[position]? with
      | some tag => .seen tag
      | none => .outOfSight
  | tag :: expected, position =>
    if visible < position + 2 then .outOfSight
    else if window[position]? ≠ some tag then .mismatch
    else match (splitLength (window.drop (position + 1))).1 with
      | some n => sight window visible expected (position + 1 + (lengthOctets n).length)
      | none => .outOfSight

/-- The tag of the next value, behind the expected tags.  Nothing is read, but a tag that does not
    match takes all expectations back. -/
def peekTag : Reader UInt8 := fun c =>
  if c.expected.isEmpty then (c.rest.head?, c)
  else
    match sight (ahead c.rest) (min horizon c.rest.length) c.expected 0 with
    | .seen tag => (some tag, c)
    | .mismatch => (none, { c with expected := [] })
    | .outOfSight => (none, c)

/-- Reads the tags in turn, each with a length that is ignored. -/
def takeTags : (tags : List UInt8) → Reader Unit
  | [] => fun c => (some (), { c with expected := [] })
  | tag :: tags => fun c =>
    match c.rest with
    | [] => (none, c)
    | first :: rest =>
      if first ≠ tag then (none, { c with expected := [] })
      else (do let _ ← length; takeTags tags) { c with rest }

/-- Reads the expected tags and takes the expectations back. -/
def expectedTags : Reader Unit := fun c => takeTags c.expected c

/-! ## Primitive values -/

/-- The contents of the next value, whatever its tag.  They can not be longer than the message. -/
def contents : Reader Octets := do
  expectedTags
  let _ ← octet
  let n ← length
  let size ← Reader.look fun c => some c.size
  Reader.require (n ≤ size)
  octets n

/-- Neither constructed nor universal. -/
def isForeignPrimitive (tag : UInt8) : Bool :=
  tag &&& 0x20 == 0 && tag &&& 0xc0 != 0

/-- A value whose tag is one of `tags`, or primitive and not universal. -/
def primitive (tags : List UInt8) : Reader Octets := do
  let tag ← peekTag
  Reader.require (tags.contains tag || isForeignPrimitive tag)
  contents

/-- The tags that any of the types INTEGER, BIT STRING, OCTET STRING or character string is read under. -/
def bufferTags : List UInt8 := [0x02, 0x03, 0x04, 0x0c, 0x12, 0x13, 0x16, 0x1b, 0x1e]

/-- The tags that a time is read under. -/
def stampTags : List UInt8 := [0x02, 0x03, 0x04, 0x06, 0x17, 0x18]

/-- The contents of an INTEGER, an OCTET STRING or a BIT STRING: any octets, even none. -/
def buffer : Reader Octets := primitive bufferTags

/-- The contents of a time. -/
def stamp : Reader Octets := primitive stampTags

/-! ## Constructed values -/

/-- Reads up to the contents of a constructed value and returns the length it claims. -/
def openSequence : Reader Nat := do
  expectedTags
  let tag ← octet
  let n ← length
  Reader.require (tag &&& 0x20 != 0)
  pure n

/-- Reading the members of an open SEQUENCE.  The state is the number of octets left in it. -/
abbrev Fields := StateT Nat Reader

namespace Fields

/-- One member, or `none` if no octets are left.  A member may not use more octets than are left. -/
def next {α : Type} (r : Reader α) : Fields (Option α) := fun left =>
  if left = 0 then pure (none, left)
  else do
    let before ← Reader.look fun c => some c.rest.length
    let a ← r
    let after ← Reader.look fun c => some c.rest.length
    Reader.require (before - after ≤ left)
    pure (some a, left - (before - after))

/-- A member that has to be there. -/
def member {α : Type} (r : Reader α) : Fields α := do
  match ← next r with
  | some a => pure a
  | none => (Reader.fail : Reader α)

/-- The field `[n]`. -/
def field {α : Type} (n : UInt8) (r : Reader α) : Fields α := member (r.tagged n)

/-- The OPTIONAL field `[n]`, with other fields behind it. -/
def optional {α : Type} (n : UInt8) (r : Reader α) : Fields (Option α) := member (r.tagged n).optional

/-- The OPTIONAL field `[n]` near the end of its SEQUENCE: it may also be missing because nothing is left. -/
def trailing {α : Type} (n : UInt8) (r : Reader α) : Fields (Option α) := do
  return (← next (r.tagged n).optional).join

/-- The members until nothing is left.  Each takes at least two octets, so `fuel` need not exceed the
    number of octets in the message. -/
def many {α : Type} (r : Reader α) : (fuel : Nat) → Fields (List α)
  | 0 => (Reader.fail : Reader (List α))
  | fuel + 1 => do
    match ← next r with
    | some a => return a :: (← many r fuel)
    | none => return []

end Fields

/-! ## Whole values -/

namespace Reader

/-- A SEQUENCE with the given members.  What is left behind the last one is not skipped. -/
def sequence {α : Type} (fields : Fields α) : Reader α := do
  let n ← openSequence
  let (a, _) ← fields.run n
  pure a

/-- A SEQUENCE OF. -/
def sequenceOf {α : Type} (r : Reader α) : Reader (List α) := do
  let n ← openSequence
  let ahead ← look fun c => some c.rest.length
  let (as, _) ← (Fields.many r (ahead + 1)).run n
  pure as

/-- The number of octets that a value tagged `[APPLICATION n]` claims, its tag and its length included. -/
def applicationLength (rest : Octets) : Option Nat :=
  if rest.length < 2 then none
  else (splitLength ((ahead rest).drop 1)).1.map fun n => 1 + n + (lengthOctets n).length

/-- The tag `[APPLICATION n]` around a value.  It is read like a SEQUENCE of one member. -/
def application {α : Type} (n : UInt8) (r : Reader α) : Reader α := do
  let left ← look fun c => applicationLength c.rest
  let wrapped : Fields α := do
    let tag ← Fields.member peekTag
    (require (tag &&& 0xc0 == 0x40 && tag &&& 0x1f == n) : Reader Unit)
    Fields.member (sequence (Fields.member r))
  let (a, _) ← wrapped.run left
  pure a

end Reader

end Kerberos.Asn1
