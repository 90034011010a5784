import Kerberos.Asn1.Reader
import Kerberos.Asn1.Writer
import Kerberos.Proofs.Numerals

/-! # What is written is read

    A reader looks ahead, notes tags before it takes them, and turns failures into absent
    values.  On octets that were written none of this shows.  `Reader.Reads r tags w a` says
    that `r` finds `a` in the octets `w` when it expects `tags`, and leaves whatever is
    behind them; `Fields.Reads f w more a` says the same of members at the front of what is
    left in a SEQUENCE.  Both are stated for messages below `sightLimit`, whose tags and
    lengths a look ahead can see past.

    ## Contents

    * `wrap`, `takeTags_wrap`, `peekTag_wrap`: values inside the tags that are expected.
    * `Reader.Reads.primitive`, `Reader.Skips.primitive`: values that are there, and others.
    * `Fields.Reads.bind`, `.field`, `.optional`, `.trailing`: members one after the other.
    * `Reader.Reads.sequence`, `.sequenceOf`, `.application`: whole values.
-/

namespace Kerberos.Asn1

/-- Tags and lengths of shorter messages stay within the horizon. -/
def sightLimit : Nat := 72057594037927936

theorem length_element (tag : UInt8) (contents : Octets) :
    (element tag contents).length =
      1 + (lengthOctets contents.length).length + contents.length := by
  simp only [element, List.cons_append, List.length_cons, List.length_append]
  omega

theorem element_ne_nil (tag : UInt8) (contents : Octets) : element tag contents ≠ [] :=
  List.cons_ne_nil _ _

theorem element_append (tag : UInt8) (contents tail : Octets) :
    element tag contents ++ tail =
      tag :: (lengthOctets contents.length ++ (contents ++ tail)) := by
  simp [element]

/-! ## Steps over the message -/

section steps
variable {α β : Type}

theorem Reader.bind_of_some {r : Reader α} {f : α → Reader β} {c c' : Cursor} {a : α}
    (h : r c = (some a, c')) : (r >>= f) c = f a c' := by
  simp only [Bind.bind]
  rw [h]

theorem Reader.bind_of_none {r : Reader α} {f : α → Reader β} {c c' : Cursor}
    (h : r c = (none, c')) : (r >>= f) c = (none, c') := by
  simp only [Bind.bind]
  rw [h]

theorem Fields.bind_of_some {f : Fields α} {g : α → Fields β} {left left' : Nat} {c c' : Cursor}
    {a : α} (h : f left c = (some (a, left'), c')) : (f >>= g) left c = g a left' c' := by
  show (f left >>= fun found => g found.1 found.2) c = _
  rw [Reader.bind_of_some h]

/-- A length that was written is read, if it fits in eight digits. -/
theorem length_of_lengthOctets {n : Nat} (h : n < sightLimit) (tail : Octets)
    (expected : List UInt8) (size : Nat) :
    length ⟨lengthOctets n ++ tail, expected, size⟩ = (some n, ⟨tail, expected, size⟩) := by
  have hn : n < 256 ^ 8 := by
    rw [sightLimit] at h
    omega
  simp only [length, splitLength_lengthOctets hn]

end steps

/-! ## Tags -/

/-- A value inside explicit tags, the outermost first. -/
def wrap : (tags : List UInt8) → (value : Octets) → Octets
  | [], value => value
  | tag :: tags, value => element tag (wrap tags value)

theorem length_le_length_wrap (tags : List UInt8) (value : Octets) :
    value.length ≤ (wrap tags value).length := by
  induction tags with
  | nil => exact Nat.le_refl _
  | cons tag tags ih =>
    rw [wrap, length_element]
    omega

/-- The tags around a value are taken, whatever lengths they have. -/
theorem takeTags_wrap (tags : List UInt8) (value tail : Octets) (expected : List UInt8)
    (size : Nat) (h : (wrap tags value).length < sightLimit) :
    takeTags tags ⟨wrap tags value ++ tail, expected, size⟩ = (some (), ⟨value ++ tail, [], size⟩) := by
  induction tags generalizing expected with
  | nil => rfl
  | cons tag tags ih =>
    have hinner : (wrap tags value).length < sightLimit := by
      rw [wrap, length_element] at h
      omega
    rw [wrap, element_append]
    show (if tag ≠ tag then _ else (length >>= fun _ => takeTags tags) ⟨_, _, _⟩) = _
    rw [if_neg (by simp), Reader.bind_of_some (length_of_lengthOctets hinner _ _ _)]
    exact ih expected hinner

theorem expectedTags_wrap (tags : List UInt8) (value tail : Octets) (size : Nat)
    (h : (wrap tags value).length < sightLimit) :
    expectedTags ⟨wrap tags value ++ tail, tags, size⟩ = (some (), ⟨value ++ tail, [], size⟩) :=
  takeTags_wrap tags value tail tags size h

/-- What lies within the horizon is seen as it is. -/
theorem ahead_append {front : Octets} (h : front.length ≤ horizon) (more : Octets) :
    ∃ rest, ahead (front ++ more) = front ++ rest := by
  refine ⟨more.take (horizon - front.length) ++
    List.replicate (horizon - (front ++ more).length) 0, ?_⟩
  rw [ahead, List.take_append, List.take_of_length_le h, List.append_assoc]

/-- Beneath one expected tag the tag of the value is seen. -/
theorem sight_element (outer tag : UInt8) (contents tail : Octets)
    (h : (element tag contents).length < sightLimit) :
    sight (ahead (element outer (element tag contents) ++ tail))
      (min horizon (element outer (element tag contents) ++ tail).length) [outer] 0 =
      .seen tag := by
  generalize hn : (element tag contents).length = n at h
  have hshort : n < 256 ^ 7 := by
    rw [sightLimit] at h
    omega
  have hlength : (lengthOctets n).length ≤ 8 := length_lengthOctets_le hshort (by decide)
  -- The tag in question is the last of what has to lie within the horizon.
  have hrest : element outer (element tag contents) ++ tail =
      (outer :: (lengthOctets n ++ [tag])) ++
        (lengthOctets contents.length ++ (contents ++ tail)) := by
    rw [element_append, hn, element_append]
    simp
  have hfront : (outer :: (lengthOctets n ++ [tag])).length ≤ horizon := by
    rw [List.length_cons, List.length_append, List.length_singleton, horizon]
    omega
  obtain ⟨pad, hpad⟩ := ahead_append hfront (lengthOctets contents.length ++ (contents ++ tail))
  have hvisible : (lengthOctets n).length + 2 ≤
      min horizon (element outer (element tag contents) ++ tail).length := by
    rw [hrest, List.length_append, List.length_cons, List.length_append, List.length_singleton,
      horizon]
    omega
  generalize min horizon (element outer (element tag contents) ++ tail).length = visible
    at hvisible
  rw [hrest, hpad]
  have hsplit : (splitLength ((outer :: (lengthOctets n ++ [tag]) ++ pad).drop (0 + 1))).1 =
      some n := by
    show (splitLength (lengthOctets n ++ [tag] ++ pad)).1 = some n
    rw [List.append_assoc, splitLength_lengthOctets (by omega)]
  have htag : (outer :: (lengthOctets n ++ [tag]) ++ pad)[0 + 1 + (lengthOctets n).length]? =
      some tag := by
    rw [Nat.add_comm (0 + 1), List.cons_append, List.append_assoc]
    simp
  -- One step over the outer tag, one onto the inner.
  rw [sight, if_neg (by omega), if_neg (by simp), hsplit]
  show sight _ visible [] (0 + 1 + (lengthOctets n).length) = _
  rw [sight, if_neg (by omega), htag]

/-- A look ahead steps over one tag and its length at most. -/
theorem peekTag_wrap {tags : List UInt8} (htags : tags.length ≤ 1) (tag : UInt8)
    (contents tail : Octets) (size : Nat)
    (h : (wrap tags (element tag contents)).length < sightLimit) :
    peekTag ⟨wrap tags (element tag contents) ++ tail, tags, size⟩ =
      (some tag, ⟨wrap tags (element tag contents) ++ tail, tags, size⟩) := by
  match tags, htags with
  | [], _ => rfl
  | [outer], _ =>
    have hinner : (element tag contents).length < sightLimit := by
      rw [wrap, wrap, length_element] at h
      omega
    simp only [peekTag, wrap, List.isEmpty_cons, Bool.false_eq_true, ↓reduceIte,
      sight_element outer tag contents tail hinner]

/-- Another tag takes the expectation back. -/
theorem peekTag_mismatch {tag other second : UInt8} (h : other ≠ tag) (rest : Octets)
    (size : Nat) :
    peekTag ⟨other :: second :: rest, [tag], size⟩ =
      (none, ⟨other :: second :: rest, [], size⟩) := by
  have hvisible : 2 ≤ min horizon (other :: second :: rest).length := by
    rw [List.length_cons, List.length_cons, horizon]
    omega
  have hfirst : (ahead (other :: second :: rest))[0]? = some other := rfl
  have hsight : sight (ahead (other :: second :: rest))
      (min horizon (other :: second :: rest).length) [tag] 0 = .mismatch := by
    rw [sight, if_neg (by omega), if_pos (by simpa [hfirst] using h)]
  simp only [peekTag, List.isEmpty_cons, Bool.false_eq_true, ↓reduceIte, hsight]

/-! ## Values -/

namespace Reader

variable {α β : Type}

/-- The reader finds `a` in the octets `w` when it expects `tags`, and leaves what is behind. -/
def Reads (r : Reader α) (tags : List UInt8) (w : Octets) (a : α) : Prop :=
  ∀ tail size, w.length ≤ size → size < sightLimit →
    r ⟨w ++ tail, tags, size⟩ = (some a, ⟨tail, [], size⟩)

/-- The reader finds that the octets are not for it, and takes its expectation back. -/
def Skips (r : Reader α) (tag : UInt8) (w : Octets) : Prop :=
  ∀ tail size, r ⟨w ++ tail, [tag], size⟩ = (none, ⟨w ++ tail, [], size⟩)

/-- Two octets, of which the first is not the tag.  This is how a field that is missing shows. -/
def Differs (tag : UInt8) (w : Octets) : Prop :=
  ∃ other second rest, w = other :: second :: rest ∧ other ≠ tag

theorem differs_element {tag other : UInt8} (h : other ≠ tag) (contents more : Octets) :
    Differs tag (element other contents ++ more) := by
  have hpos := length_lengthOctets_pos contents.length
  rw [element_append]
  cases hlength : lengthOctets contents.length with
  | nil =>
    rw [hlength] at hpos
    cases hpos
  | cons second rest => exact ⟨other, second, _, rfl, h⟩

/-- What the reader finds may be worked on. -/
theorem Reads.map_of_bind {r : Reader α} {f : α → Reader β} {tags : List UInt8} {w : Octets}
    {a : α} {b : β} (hr : r.Reads tags w a) (hf : ∀ c, f a c = (some b, c)) :
    (r >>= f).Reads tags w b := by
  intro tail size hfits hsize
  rw [bind_of_some (hr tail size hfits hsize), hf]

theorem Reads.run {r : Reader α} {w : Octets} {a : α} (hr : r.Reads [] w a)
    (h : w.length < sightLimit) : r.run w = some a := by
  have hrun := hr [] w.length (Nat.le_refl _) h
  rw [List.append_nil] at hrun
  show (r ⟨w, [], w.length⟩).1 = some a
  rw [hrun]

theorem Reads.contents (tags : List UInt8) (tag : UInt8) (inner : Octets) :
    contents.Reads tags (wrap tags (element tag inner)) inner := by
  intro tail size hfits hsize
  have hle := length_le_length_wrap tags (element tag inner)
  have hinner := length_element tag inner
  unfold Asn1.contents
  rw [bind_of_some (expectedTags_wrap tags _ tail size (by omega)), element_append]
  rw [bind_of_some (show octet ⟨tag :: _, [], size⟩ = (some tag, ⟨_, [], size⟩) from rfl)]
  rw [bind_of_some (length_of_lengthOctets (by omega) _ _ _)]
  rw [bind_of_some (show look (fun c => some c.size) ⟨_, [], size⟩ = (some size, ⟨_, [], size⟩)
    from rfl)]
  rw [show require (inner.length ≤ size) = pure () from if_pos (by simp; omega)]
  show octets inner.length ⟨inner ++ tail, [], size⟩ = _
  rw [octets, if_pos (by rw [List.length_append]; omega)]
  simp

/-- A primitive value with one of its tags is read. -/
theorem Reads.primitive {tags kinds : List UInt8} (htags : tags.length ≤ 1) {tag : UInt8}
    (hkind : kinds.contains tag = true) (inner : Octets) :
    (primitive kinds).Reads tags (wrap tags (element tag inner)) inner := by
  intro tail size hfits hsize
  unfold Asn1.primitive
  -- The look ahead finds the tag and leaves the expectation to `contents`.
  rw [bind_of_some (peekTag_wrap htags tag inner tail size (by omega))]
  rw [show require (kinds.contains tag || isForeignPrimitive tag) = pure () from
    if_pos (by rw [hkind, Bool.true_or])]
  exact Reads.contents tags tag inner tail size hfits hsize

theorem Skips.primitive (kinds : List UInt8) {tag : UInt8} {w : Octets} (h : Differs tag w) :
    (primitive kinds).Skips tag w := by
  obtain ⟨other, second, rest, rfl, hother⟩ := h
  intro tail size
  unfold Asn1.primitive
  exact bind_of_none (peekTag_mismatch hother (rest ++ tail) size)

theorem Skips.bind {r : Reader α} {tag : UInt8} {w : Octets} (hr : r.Skips tag w)
    (f : α → Reader β) : (r >>= f).Skips tag w :=
  fun tail size => bind_of_none (hr tail size)

theorem Skips.openSequence {tag : UInt8} {w : Octets} (h : Differs tag w) :
    openSequence.Skips tag w := by
  obtain ⟨other, second, rest, rfl, hother⟩ := h
  intro tail size
  unfold Asn1.openSequence
  refine bind_of_none ?_
  show (if other ≠ tag then _ else _) = _
  rw [if_pos hother]

/-- A constructed value is opened, and its members come next. -/
theorem openSequence_wrap (tags : List UInt8) {tag : UInt8} (htag : (tag &&& 0x20 != 0) = true)
    (body tail : Octets) {size : Nat} (hfits : (wrap tags (element tag body)).length ≤ size)
    (hsize : size < sightLimit) :
    openSequence ⟨wrap tags (element tag body) ++ tail, tags, size⟩ =
      (some body.length, ⟨body ++ tail, [], size⟩) := by
  have hle := length_le_length_wrap tags (element tag body)
  have hbody := length_element tag body
  unfold openSequence
  rw [bind_of_some (expectedTags_wrap tags _ tail size (by omega)), element_append]
  rw [bind_of_some (show octet ⟨tag :: _, [], size⟩ = (some tag, ⟨_, [], size⟩) from rfl)]
  rw [bind_of_some (length_of_lengthOctets (by omega) _ _ _)]
  rw [show require (tag &&& 0x20 != 0) = pure () from if_pos htag]
  rfl

end Reader

/-! ## Members of a SEQUENCE -/

namespace Fields

variable {α β : Type}

/-- The members at the front of what is left in a SEQUENCE are the octets `w`, with `more` behind
    them, and come to `a`. -/
def Reads (f : Fields α) (w more : Octets) (a : α) : Prop :=
  ∀ tail size, (w ++ more).length ≤ size → size < sightLimit →
    f (w ++ more).length ⟨w ++ (more ++ tail), [], size⟩ =
      (some (a, more.length), ⟨more ++ tail, [], size⟩)

theorem Reads.pure {a b : α} (h : a = b) (more : Octets) :
    (Pure.pure a : Fields α).Reads [] more b := by
  intro tail size _ _
  rw [h]
  rfl

theorem Reads.bind {f : Fields α} {g : α → Fields β} {w w' more : Octets} {a : α} {b : β}
    (hf : f.Reads w (w' ++ more) a) (hg : (g a).Reads w' more b) :
    (f >>= g).Reads (w ++ w') more b := by
  intro tail size hfits hsize
  rw [List.append_assoc] at hfits ⊢
  have hfirst := hf tail size hfits hsize
  rw [List.append_assoc] at hfirst
  rw [List.append_assoc, bind_of_some hfirst]
  exact hg tail size (by rw [List.length_append] at hfits; omega) hsize

/-- What the members come to may be worked on. -/
theorem Reads.finish {f : Fields α} {g : α → Fields β} {w more : Octets} {a : α} {b : β}
    (hf : f.Reads w more a) (hg : g a = Pure.pure b) : (f >>= g).Reads w more b := by
  intro tail size hfits hsize
  rw [bind_of_some (hf tail size hfits hsize), hg]
  rfl

/-- A member is read, and what it has used is no longer left. -/
theorem next_of_some {r : Reader α} {left : Nat} {c c' : Cursor} {a : α} (hleft : left ≠ 0)
    (hr : r c = (some a, c')) (hused : c.rest.length - c'.rest.length ≤ left) :
    next r left c = (some (some a, left - (c.rest.length - c'.rest.length)), c') := by
  unfold next
  rw [if_neg hleft]
  rw [Reader.bind_of_some (show Reader.look (fun c => some c.rest.length) c = (some _, c) from rfl)]
  rw [Reader.bind_of_some hr]
  rw [Reader.bind_of_some (show Reader.look (fun c => some c.rest.length) c' = (some _, c') from rfl)]
  rw [show Reader.require (c.rest.length - c'.rest.length ≤ left) = Pure.pure () from
    if_pos (by simpa using hused)]
  rfl

theorem member_of_some {r : Reader α} {left : Nat} {c c' : Cursor} {a : α} (hleft : left ≠ 0)
    (hr : r c = (some a, c')) (hused : c.rest.length - c'.rest.length ≤ left) :
    member r left c = (some (a, left - (c.rest.length - c'.rest.length)), c') := by
  unfold member
  rw [bind_of_some (next_of_some hleft hr hused)]
  rfl

theorem Reads.next {r : Reader α} {w : Octets} {a : α} (hr : r.Reads [] w a) (hw : w ≠ [])
    (more : Octets) : (next r).Reads w more (some a) := by
  intro tail size hfits hsize
  have hpos : 0 < w.length := List.length_pos_iff.mpr hw
  rw [List.length_append] at hfits
  have hrun := hr (more ++ tail) size (by omega) hsize
  rw [next_of_some (by rw [List.length_append]; omega) hrun
    (by simp only [List.length_append]; omega)]
  simp only [List.length_append, Prod.mk.injEq, Option.some.injEq, and_true, true_and]
  omega

theorem Reads.member {r : Reader α} {w : Octets} {a : α} (hr : r.Reads [] w a) (hw : w ≠ [])
    (more : Octets) : (member r).Reads w more a :=
  (Reads.next hr hw more).finish rfl

/-! ### Fields -/

theorem Reads.field {r : Reader α} {n : UInt8} {value : Octets} {a : α}
    (hr : r.Reads [0xa0 + n] (explicit n value) a) (more : Octets) :
    (field n r).Reads (explicit n value) more a :=
  Reads.member (fun tail size hfits hsize => hr tail size hfits hsize) (element_ne_nil _ value)
    more

/-- An OPTIONAL value that is there is read. -/
theorem optional_reads {r : Reader α} {n : UInt8} {value : Octets} {a : α}
    (hr : r.Reads [0xa0 + n] (explicit n value) a) :
    (r.tagged n).optional.Reads [] (explicit n value) (some a) := by
  intro tail size hfits hsize
  show Reader.optional r ⟨_, [0xa0 + n], size⟩ = _
  unfold Reader.optional
  rw [hr tail size hfits hsize]

/-- An OPTIONAL value that is missing is read as such, as long as something else follows. -/
theorem next_optional_of_skips {r : Reader α} {n : UInt8} {more : Octets}
    (hr : r.Skips (0xa0 + n) more) (hmore : more ≠ []) :
    (next (r.tagged n).optional).Reads [] more (some none) := by
  intro tail size hfits hsize
  have hpos : 0 < more.length := List.length_pos_iff.mpr hmore
  -- The failure inside is turned into an absent value, and no octet has been used.
  have hskips : (r.tagged n).optional ⟨more ++ tail, [], size⟩ =
      (some none, ⟨more ++ tail, [], size⟩) := by
    show Reader.optional r ⟨_, [0xa0 + n], size⟩ = _
    unfold Reader.optional
    rw [hr tail size]
  show next _ more.length ⟨more ++ tail, [], size⟩ = _
  rw [next_of_some (by omega) hskips (by simp)]
  simp

theorem Reads.optional {r : Reader α} {n : UInt8} {o : Option β} {write : β → Octets}
    {value : β → α} {more : Octets}
    (hr : ∀ b, o = some b → r.Reads [0xa0 + n] (explicit n (write b)) (value b))
    (hskip : r.Skips (0xa0 + n) more) (hmore : more ≠ []) :
    (optional n r).Reads (explicit? n (o.map write)) more (o.map value) := by
  cases o with
  | some b => exact Reads.member (optional_reads (hr b rfl)) (element_ne_nil _ (write b)) more
  | none => exact (next_optional_of_skips hskip hmore).finish rfl

theorem Reads.trailing {r : Reader α} {n : UInt8} {o : Option β} {write : β → Octets}
    {value : β → α} {more : Octets}
    (hr : ∀ b, o = some b → r.Reads [0xa0 + n] (explicit n (write b)) (value b))
    (hskip : more ≠ [] → r.Skips (0xa0 + n) more) :
    (trailing n r).Reads (explicit? n (o.map write)) more (o.map value) := by
  cases o with
  | some b =>
    exact (Reads.next (optional_reads (hr b rfl)) (element_ne_nil _ (write b)) more).finish rfl
  | none =>
    by_cases hmore : more = []
    · -- Nothing is left, so the field is not looked for.
      have hnext : (Fields.next (r.tagged n).optional).Reads [] [] none := fun _ _ _ _ => rfl
      rw [hmore]
      exact hnext.finish rfl
    · exact (next_optional_of_skips (hskip hmore) hmore).finish rfl

/-- The fields behind the last one that was written are missing. -/
theorem Reads.trailing_nil (r : Reader α) (n : UInt8) : (Fields.trailing n r).Reads [] [] none := by
  have hnext : (Fields.next (r.tagged n).optional).Reads [] [] none := fun _ _ _ _ => rfl
  exact hnext.finish rfl

/-! ### Lists -/

/-- Members of one kind are read until nothing is left. -/
theorem Reads.many {r : Reader α} {write : β → Octets} {value : β → α} {bs : List β}
    (hr : ∀ b ∈ bs, r.Reads [] (write b) (value b) ∧ write b ≠ []) {fuel : Nat}
    (hfuel : bs.length < fuel) :
    (many r fuel).Reads (bs.map write).flatten [] (bs.map value) := by
  induction bs generalizing fuel with
  | nil =>
    obtain ⟨fuel, rfl⟩ := Nat.exists_eq_succ_of_ne_zero (by omega : fuel ≠ 0)
    intro tail size _ _
    rfl
  | cons b bs ih =>
    obtain ⟨fuel, rfl⟩ := Nat.exists_eq_succ_of_ne_zero (by omega : fuel ≠ 0)
    obtain ⟨hfirst, hne⟩ := hr b List.mem_cons_self
    have hrest := ih (fun b' hb' => hr b' (List.mem_cons_of_mem _ hb'))
      (by simpa using hfuel : bs.length < fuel)
    show (Fields.next r >>= _ : Fields (List α)).Reads (write b ++ (bs.map write).flatten) [] _
    refine Reads.bind (Reads.next hfirst hne _) ?_
    exact hrest.finish rfl

end Fields

/-! ## Whole values -/

namespace Reader

variable {α β : Type}

theorem Reads.sequence_of_tag {f : Fields α} {body : Octets} {a : α} (hf : f.Reads body [] a)
    (tags : List UInt8) {tag : UInt8} (htag : (tag &&& 0x20 != 0) = true) :
    (sequence f).Reads tags (wrap tags (element tag body)) a := by
  intro tail size hfits hsize
  have hle := length_le_length_wrap tags (element tag body)
  have hbody := length_element tag body
  unfold Reader.sequence
  rw [bind_of_some (openSequence_wrap tags htag body tail hfits hsize)]
  have hrun := hf tail size (by simp; omega) hsize
  simp only [List.append_nil, List.nil_append] at hrun
  rw [bind_of_some (show (f.run body.length) ⟨body ++ tail, [], size⟩ = _ from hrun)]
  rfl

theorem Reads.sequence {f : Fields α} {body : Octets} {a : α} (hf : f.Reads body [] a)
    (tags : List UInt8) : (sequence f).Reads tags (wrap tags (element 0x30 body)) a :=
  Reads.sequence_of_tag hf tags (by decide)

theorem Skips.sequence (f : Fields α) {tag : UInt8} {w : Octets} (h : Differs tag w) :
    (sequence f).Skips tag w :=
  (Skips.openSequence h).bind _

theorem Skips.sequenceOf (r : Reader α) {tag : UInt8} {w : Octets} (h : Differs tag w) :
    (sequenceOf r).Skips tag w :=
  (Skips.openSequence h).bind _

theorem length_le_length_flatten {write : β → Octets} {bs : List β}
    (hne : ∀ b ∈ bs, write b ≠ []) : bs.length ≤ (bs.map write).flatten.length := by
  induction bs with
  | nil => exact Nat.le_refl _
  | cons b bs ih =>
    have hpos : 0 < (write b).length := List.length_pos_iff.mpr (hne b List.mem_cons_self)
    have hrest := ih fun b' hb' => hne b' (List.mem_cons_of_mem _ hb')
    rw [List.map_cons, List.flatten_cons, List.length_append, List.length_cons]
    omega

theorem Reads.sequenceOf {r : Reader α} {write : β → Octets} {value : β → α} {bs : List β}
    (hr : ∀ b ∈ bs, r.Reads [] (write b) (value b) ∧ write b ≠ []) (tags : List UInt8) :
    (sequenceOf r).Reads tags (wrap tags (Asn1.sequenceOf (bs.map write))) (bs.map value) := by
  intro tail size hfits hsize
  have hle := length_le_length_wrap tags (Asn1.sequenceOf (bs.map write))
  have hbody := length_element 0x30 (bs.map write).flatten
  rw [Asn1.sequenceOf] at hle hfits ⊢
  -- Each member takes octets, so the fuel is enough.
  have hfuel : bs.length < ((bs.map write).flatten ++ tail).length + 1 := by
    have hmembers := length_le_length_flatten fun b hb => (hr b hb).2
    rw [List.length_append]
    omega
  have hrun := Fields.Reads.many hr hfuel tail size (by simp only [List.append_nil]; omega) hsize
  simp only [List.append_nil, List.nil_append] at hrun
  unfold Reader.sequenceOf
  rw [bind_of_some (openSequence_wrap tags (by decide) _ tail hfits hsize)]
  rw [bind_of_some (show look (fun c => some c.rest.length) _ = (some _, _) from rfl)]
  rw [bind_of_some (show (Fields.many r _).run _ _ = _ from hrun)]
  rfl

/-- The whole value is seen ahead of its tag. -/
theorem applicationLength_element (tag : UInt8) (contents tail : Octets)
    (h : contents.length < sightLimit) :
    applicationLength (element tag contents ++ tail) = some (element tag contents).length := by
  have hn : contents.length < 256 ^ 7 := by
    rw [sightLimit] at h
    omega
  have hlength : (lengthOctets contents.length).length ≤ 8 :=
    length_lengthOctets_le hn (by decide)
  have hpos := length_lengthOctets_pos contents.length
  have helement := length_element tag contents
  have hfront : (tag :: lengthOctets contents.length).length ≤ horizon := by
    rw [List.length_cons, horizon]
    omega
  obtain ⟨pad, hpad⟩ := ahead_append hfront (contents ++ tail)
  have hahead : ahead (element tag contents ++ tail) =
      tag :: lengthOctets contents.length ++ pad := by
    rw [element_append, ← hpad]
    rfl
  have hsplit : (splitLength ((ahead (element tag contents ++ tail)).drop 1)).1 =
      some contents.length := by
    rw [hahead]
    show (splitLength (lengthOctets contents.length ++ pad)).1 = _
    rw [splitLength_lengthOctets (by omega)]
  rw [applicationLength, if_neg (by rw [List.length_append]; omega), hsplit]
  show some (1 + contents.length + _) = _
  rw [helement, Option.some.injEq]
  omega

/-- The tags of application class and their numbers. -/
theorem application_tag {n : UInt8} (hn : n < 31) :
    ((0x60 + n) &&& 0xc0 == 0x40 && (0x60 + n) &&& 0x1f == n) = true ∧
      ((0x60 + n) &&& 0x20 != 0) = true := by
  have htoNat : n.toNat < 31 := UInt8.lt_iff_toNat_lt.mp hn
  rw [← UInt8.ofNat_toNat (x := n)]
  generalize n.toNat = k at htoNat
  revert k
  decide

theorem Reads.application_of_tags {tags : List UInt8} (htags : tags.length ≤ 1) {r : Reader α}
    {value : Octets} {a : α} (hr : r.Reads [] value a) (hvalue : value ≠ []) {n : UInt8}
    (hn : n < 31) :
    (application n r).Reads tags (wrap tags (Asn1.application n value)) a := by
  intro tail size hfits hsize
  obtain ⟨htag, hconstructed⟩ := application_tag hn
  rw [Asn1.application] at hfits ⊢
  -- The length that is seen first is that of the outermost tag.
  have hlength : applicationLength (wrap tags (element (0x60 + n) value) ++ tail) =
      some (wrap tags (element (0x60 + n) value)).length := by
    match tags, htags with
    | [], _ =>
      have helement := length_element (0x60 + n) value
      simp only [wrap] at hfits ⊢
      exact applicationLength_element (0x60 + n) value tail (by omega)
    | [outer], _ =>
      have helement := length_element outer (element (0x60 + n) value)
      simp only [wrap] at hfits ⊢
      exact applicationLength_element outer _ tail (by omega)
  have hleft : (wrap tags (element (0x60 + n) value)).length ≠ 0 := by
    have hle := length_le_length_wrap tags (element (0x60 + n) value)
    have helement := length_element (0x60 + n) value
    omega
  have hbody := Reads.sequence_of_tag (Fields.Reads.member hr hvalue []) tags hconstructed
  -- The tag is looked at before the value is opened like a SEQUENCE of one member.
  have hpeek := peekTag_wrap htags (0x60 + n) value tail size (by omega)
  have htaken := Fields.member_of_some hleft hpeek (by simp)
  simp only [Nat.sub_self, Nat.sub_zero] at htaken
  have hvalueRead := hbody tail size hfits hsize
  have hmember := Fields.member_of_some hleft hvalueRead (by simp)
  simp only [List.length_append, Nat.add_sub_cancel, Nat.sub_self] at hmember
  unfold Reader.application
  rw [bind_of_some (show look (fun c => applicationLength c.rest) _ = (some _, _) from
    congrArg (·, _) hlength)]
  refine (bind_of_some (?_ : _ = (some (a, 0), Cursor.mk tail [] size))).trans rfl
  show Bind.bind (m := Fields) _ _ _ _ = _
  rw [Fields.bind_of_some htaken]
  rw [show require ((0x60 + n) &&& 0xc0 == 0x40 && (0x60 + n) &&& 0x1f == n) = pure () from
    if_pos htag]
  exact hmember

theorem Reads.application {r : Reader α} {value : Octets} {a : α} (hr : r.Reads [] value a)
    (hvalue : value ≠ []) {n : UInt8} (hn : n < 31) :
    (application n r).Reads [] (Asn1.application n value) a :=
  Reads.application_of_tags (by decide : ([] : List UInt8).length ≤ 1) hr hvalue hn

end Reader

end Kerberos.Asn1
