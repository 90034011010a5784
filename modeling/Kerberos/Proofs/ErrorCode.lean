import Kerberos.Proofs.Echo

/-! # An error message shows its code

    The octets of an error message determine the code in it, whatever else is in the message
    and however long it is, and no error message is a reply.  So it makes sense to speak of
    the code of octets that answer a request.
-/

namespace Kerberos

namespace Asn1

/-! ## Values that begin alike -/

theorem length_digits_mono {m n : Nat} (h : m ≤ n) : (digits m).length ≤ (digits n).length := by
  have hlt := bigEndian_lt (digits n)
  rw [bigEndian_digits] at hlt
  exact length_digits_le (Nat.lt_of_le_of_lt h hlt)

theorem length_lengthOctets_mono {m n : Nat} (h : m ≤ n) :
    (lengthOctets m).length ≤ (lengthOctets n).length := by
  have hdigits := length_digits_mono h
  unfold lengthOctets
  split
  · split
    · exact Nat.le_refl _
    · rw [List.length_singleton, List.length_cons]
      omega
  · rw [if_neg (by omega), List.length_cons, List.length_cons]
    omega

/-- Longer contents make a longer value, so the contents of a whole value are determined. -/
theorem element_inj {tag : UInt8} {contents contents' : Octets}
    (h : element tag contents = element tag contents') : contents = contents' := by
  have hlength := congrArg List.length h
  rw [length_element, length_element] at hlength
  have heq : contents.length = contents'.length := by
    rcases Nat.lt_trichotomy contents.length contents'.length with hlt | heq | hlt
    · have hmono := length_lengthOctets_mono (Nat.le_of_lt hlt)
      omega
    · exact heq
    · have hmono := length_lengthOctets_mono (Nat.le_of_lt hlt)
      omega
  unfold element at h
  rw [heq] at h
  exact List.append_cancel_left h

/-- A value whose length can be read is determined even if something is behind it. -/
theorem element_append_inj {tag : UInt8} {contents contents' tail tail' : Octets}
    (hshort : contents.length < 256 ^ 8) (hshort' : contents'.length < 256 ^ 8)
    (h : element tag contents ++ tail = element tag contents' ++ tail') :
    contents = contents' ∧ tail = tail' := by
  rw [element_append, element_append, List.cons.injEq] at h
  have hsplit := congrArg splitLength h.2
  rw [splitLength_lengthOctets hshort, splitLength_lengthOctets hshort', Prod.mk.injEq,
    Option.some.injEq] at hsplit
  exact List.append_inj hsplit.2 hsplit.1

/-- What fits in one digit takes two octets more. -/
theorem length_element_le {tag : UInt8} {contents : Octets} {n : Nat} (h : contents.length ≤ n)
    (hn : n < 256) : (element tag contents).length ≤ n + 3 := by
  have hlength : (lengthOctets contents.length).length ≤ 1 + 1 :=
    length_lengthOctets_le (Nat.lt_of_le_of_lt h hn) Nat.one_pos
  rw [length_element]
  omega

theorem Integer.length_shortest_le (octets : Octets) :
    (shortest octets).length ≤ octets.length := by
  fun_induction shortest octets with
  | case1 first second rest hfiller ih => exact Nat.le_succ_of_le ih
  | case2 first second rest hfiller => exact Nat.le_refl _
  | case3 octets hother => exact Nat.le_refl _

theorem Integer.length_ofWord_le (n : UInt32) : (ofWord n).length ≤ 8 :=
  length_shortest_le _

end Asn1

open Asn1

namespace Wire

theorem length_decimal (width n : Nat) : (decimal width n).length = width := by
  induction width generalizing n with
  | zero => rfl
  | succ width ih => rw [decimal, List.length_append, ih, List.length_singleton]

theorem length_timeOctets_le (t : Instant) : (timeOctets t).length ≤ 18 := by
  apply length_element_le
  · simp only [List.length_append, length_decimal, List.length_singleton]
    exact Nat.le_refl _
  · decide

theorem ofWord_inj {n m : UInt32} (h : Integer.ofWord n = Integer.ofWord m) : n = m := by
  have hn := uint32_ofWord "" n
  rw [h, uint32_ofWord] at hn
  exact (Except.ok.inj hn).symm

/-! ## Error messages -/

/-- Behind four fields of known length stands the code. -/
theorem errorOctets_code {e e' : KrbError} (h : errorOctets e = errorOctets e') :
    e.code = e'.code := by
  have hnumber : ∀ n : UInt32, (integer (Integer.ofWord n)).length < 256 ^ 8 := by
    intro n
    have hle : (integer (Integer.ofWord n)).length ≤ 11 :=
      length_element_le (Integer.length_ofWord_le n) (by decide)
    exact Nat.lt_of_le_of_lt hle (by decide)
  have htime : ∀ t : Instant, (timeOctets t).length < 256 ^ 8 := fun t =>
    Nat.lt_of_le_of_lt (length_timeOctets_le t) (by decide)
  have hfields := element_inj (element_inj h)
  simp only [List.flatten_cons] at hfields
  obtain ⟨-, hfields⟩ := element_append_inj (by decide) (by decide) hfields
  obtain ⟨-, hfields⟩ := element_append_inj (by decide) (by decide) hfields
  obtain ⟨-, hfields⟩ := element_append_inj (htime e.time) (htime e'.time) hfields
  obtain ⟨-, hfields⟩ := element_append_inj (hnumber e.usec) (hnumber e'.usec) hfields
  obtain ⟨hcode, -⟩ := element_append_inj (hnumber e.code) (hnumber e'.code) hfields
  exact ofWord_inj (element_inj hcode)

theorem errorOctets_ne_replyOctets (e : KrbError) (r : AsReply) :
    errorOctets e ≠ replyOctets r := by
  intro h
  cases (List.cons.inj h).1

end Wire

end Kerberos
