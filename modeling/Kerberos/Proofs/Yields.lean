import Kerberos.Asn1.Reader

/-! # What readers yield

    A message may come from anywhere, so little can be said about what is read from it.  What
    can be said holds whatever the octets are: a reader that checks its value yields only
    values that pass the check.  `Reader.Yields` says that of a reader, `Fields.Yields` of
    the members of a SEQUENCE, and both go through every way of combining readers.
-/

namespace Kerberos.Asn1

/-! ## Readers -/

namespace Reader

variable {α β : Type} {P : α → Prop} {Q : β → Prop}

/-- Whatever the reader reads, `P` is true of it. -/
def Yields (r : Reader α) (P : α → Prop) : Prop := ∀ c a c', r c = (some a, c') → P a

theorem Yields.of_forall {r : Reader α} (h : ∀ a, P a) : r.Yields P := fun _ a _ _ => h a

theorem Yields.any (r : Reader α) : r.Yields fun _ => True := Yields.of_forall fun _ => trivial

theorem Yields.pure {a : α} (h : P a) : (Pure.pure a : Reader α).Yields P := by
  intro c b c' hrun
  cases hrun
  exact h

theorem Yields.fail : (Reader.fail : Reader α).Yields P := by
  intro c a c' hrun
  cases hrun

theorem Yields.require (condition : Bool) :
    (Reader.require condition).Yields fun _ => condition = true := by
  cases condition with
  | true => exact Yields.of_forall fun _ => rfl
  | false => exact Yields.fail

theorem Yields.look {f : Cursor → Option α} (h : ∀ c a, f c = some a → P a) :
    (Reader.look f).Yields P := by
  intro c a c' hrun
  exact h c a (Prod.mk.inj hrun).1

theorem Yields.bind {r : Reader α} {f : α → Reader β} (hr : r.Yields P)
    (hf : ∀ a, P a → (f a).Yields Q) : (r >>= f).Yields Q := by
  intro c b c'' hrun
  simp only [Bind.bind] at hrun
  rcases hread : r c with ⟨_ | a, c'⟩
  · rw [hread] at hrun
    cases hrun
  · rw [hread] at hrun
    exact hf a (hr c a c' hread) c' b c'' hrun

theorem Yields.optional {r : Reader α} (hr : r.Yields P) :
    r.optional.Yields fun found => ∀ a, found = some a → P a := by
  intro c found c' hrun a hfound
  -- A failure inside yields an absent value, of which nothing has to be shown.
  simp only [Reader.optional] at hrun
  rcases hread : r c with ⟨_ | b, c''⟩
  · rw [hread] at hrun
    cases hrun
    cases hfound
  · rw [hread] at hrun
    cases hrun
    cases hfound
    exact hr c a c' hread

theorem Yields.tagged {r : Reader α} (hr : r.Yields P) (n : UInt8) : (r.tagged n).Yields P :=
  fun _ a c' hrun => hr _ a c' hrun

theorem Yields.run {r : Reader α} (hr : r.Yields P) {message : Octets} {a : α}
    (h : r.run message = some a) : P a :=
  hr (Cursor.start message) a _ (Prod.ext h rfl)

end Reader

/-! ## Members of a SEQUENCE -/

namespace Fields

variable {α β : Type} {P : α → Prop} {Q : β → Prop}

/-- Whatever the members are, `P` is true of what is made of them. -/
def Yields (f : Fields α) (P : α → Prop) : Prop :=
  ∀ left, Reader.Yields (f left) fun found => P found.1

theorem Yields.pure {a : α} (h : P a) : (Pure.pure a : Fields α).Yields P :=
  fun _ => Reader.Yields.pure h

theorem Yields.bind {f : Fields α} {g : α → Fields β} (hf : f.Yields P)
    (hg : ∀ a, P a → (g a).Yields Q) : (f >>= g).Yields Q :=
  fun left => Reader.Yields.bind (hf left) fun found hfound => hg found.1 hfound found.2

theorem Yields.fail : Yields (MonadLiftT.monadLift (Reader.fail : Reader α)) P := by
  intro left c found c' hrun
  have hfailed : (none, c) = (some found, c') := hrun
  cases hfailed

theorem Yields.next {r : Reader α} (hr : r.Yields P) :
    (next r).Yields fun found => ∀ a, found = some a → P a := by
  intro left
  unfold Fields.next
  split
  · exact Reader.Yields.pure fun a h => by cases h
  · refine .bind (.any _) fun before _ => .bind hr fun a ha => ?_
    refine .bind (.any _) fun after _ => .bind (.require _) fun _ _ => .pure fun b h => ?_
    cases h
    exact ha

theorem Yields.member {r : Reader α} (hr : r.Yields P) : (member r).Yields P := by
  refine .bind (.next hr) fun found hfound => ?_
  cases found with
  | some a => exact .pure (hfound a rfl)
  | none => exact .fail

theorem Yields.field {r : Reader α} (n : UInt8) (hr : r.Yields P) : (field n r).Yields P :=
  .member (hr.tagged n)

theorem Yields.optional {r : Reader α} (n : UInt8) (hr : r.Yields P) :
    (optional n r).Yields fun found => ∀ a, found = some a → P a :=
  .member (hr.tagged n).optional

theorem Yields.any (f : Fields α) : f.Yields fun _ => True :=
  fun _ => Reader.Yields.of_forall fun _ => trivial

theorem Yields.many {r : Reader α} (hr : r.Yields P) (fuel : Nat) :
    (many r fuel).Yields fun as => ∀ a ∈ as, P a := by
  induction fuel with
  | zero => exact .fail
  | succ fuel ih =>
    refine .bind (.next hr) fun found hfound => ?_
    cases found with
    | none => exact .pure fun a h => by cases h
    | some first =>
      refine .bind ih fun rest hrest => .pure fun a ha => ?_
      rcases List.mem_cons.mp ha with rfl | ha
      · exact hfound a rfl
      · exact hrest a ha

end Fields

/-! ## Whole values -/

namespace Reader

variable {α : Type} {P : α → Prop}

theorem Yields.sequence {f : Fields α} (hf : f.Yields P) : (sequence f).Yields P :=
  .bind (.any _) fun n _ => .bind (hf n) fun _ hfound => .pure hfound

theorem Yields.sequenceOf {r : Reader α} (hr : r.Yields P) :
    (sequenceOf r).Yields fun as => ∀ a ∈ as, P a :=
  .bind (.any _) fun n _ => .bind (.any _) fun ahead _ =>
    .bind (Fields.Yields.many hr (ahead + 1) n) fun _ hfound => .pure hfound

theorem Yields.application {r : Reader α} (hr : r.Yields P) (n : UInt8) :
    (application n r).Yields P := by
  refine .bind (.any _) fun left _ => .bind (P := fun found => P found.1) ?_ fun _ hfound =>
    .pure hfound
  refine Fields.Yields.bind (.any _) (fun tag _ => ?_) left
  refine .bind (.any _) fun _ _ => ?_
  exact .member (.sequence (.member hr))

end Reader

end Kerberos.Asn1
