import Kerberos.Proofs.Resolution

/-! # Enterprise names and plain names

    The enterprise name of a user holds the realm of the user behind an at sign, and the plain
    name has it beside it.  The lookup key is the same for both if the realm is free of slashes
    and backslashes (`lookupKey_enterprise_eq_iff`).  These are marked in the one key, where the
    realm is part of a component, and stand as they are in the other.

    So an entry under the plain name is found under the enterprise name in such realms only.
    In any other realm, `C=US/O=OSF` for one, the enterprise name passes it by, and the
    timestamps of the two names are told apart.
-/

namespace Kerberos

/-- A realm without the characters that are marked in components, at signs aside. -/
def UnmarkedRealm (home : String) : Prop := '\\' ∉ home.toList ∧ '/' ∉ home.toList

instance (home : String) : Decidable (UnmarkedRealm home) :=
  inferInstanceAs (Decidable (_ ∧ _))

/-! ## Marks -/

/-- Where there is no at sign, it makes no difference whether at signs are kept. -/
theorem escapeChars_keepAt {cs : List Char} (hat : '@' ∉ cs) :
    escapeChars true cs = escapeChars false cs := by
  induction cs with
  | nil => rfl
  | cons c cs ih =>
    rw [List.mem_cons, not_or] at hat
    have hplain : (c == '@') = false := beq_false_of_ne (Ne.symm hat.1)
    rw [escapeChars_cons, escapeChars_cons, ih hat.2, hplain]
    rfl

theorem length_le_escapeChars (keepAt : Bool) (cs : List Char) :
    cs.length ≤ (escapeChars keepAt cs).length := by
  induction cs with
  | nil => exact Nat.le_refl 0
  | cons c cs ih =>
    rw [escapeChars_cons, List.length_append, List.length_cons]
    split
    · rw [List.length_cons, List.length_singleton]
      omega
    · rw [List.length_singleton]
      omega

/-- Every mark makes the text longer. -/
theorem length_lt_escapeChars {c : Char} (hc : c = '\\' ∨ c = '/') {cs : List Char}
    (hmem : c ∈ cs) : cs.length < (escapeChars true cs).length := by
  obtain ⟨before, after, rfl⟩ := List.append_of_mem hmem
  have hbefore := length_le_escapeChars true before
  have hafter := length_le_escapeChars true after
  have hmarked : escapeChars true (c :: after) = '\\' :: c :: escapeChars true after := by
    rcases hc with rfl | rfl
    · rfl
    · rfl
  rw [escapeChars_append, hmarked, List.length_append, List.length_append, List.length_cons,
    List.length_cons, List.length_cons]
  omega

theorem escapeChars_eq_self_iff {cs : List Char} :
    escapeChars true cs = cs ↔ '\\' ∉ cs ∧ '/' ∉ cs := by
  constructor
  · -- A mark would make the text longer, and equal texts are equally long.
    intro hsame
    have hnone : ∀ c, c = '\\' ∨ c = '/' → c ∉ cs := by
      intro c hc hmem
      have hlonger := length_lt_escapeChars hc hmem
      rw [hsame] at hlonger
      omega
    exact ⟨hnone _ (.inl rfl), hnone _ (.inr rfl)⟩
  · exact fun h => escapeChars_of_unmarked h.1 h.2

/-! ## Keys -/

theorem toList_lookupKey_principal (user realm : String) :
    (lookupKey (.principal user) realm).toList =
      escapeChars false (lowercase user).toList ++ '@' :: (lowercase realm).toList := by
  have hplain : (PrincipalName.principal user).isEnterprise = false := rfl
  have hlowered : (PrincipalName.principal user).lowered = [(lowercase user).toList] := rfl
  rw [toList_lookupKey, hplain, if_neg Bool.false_ne_true, hlowered, List.map_singleton,
    List.intercalate_singleton]

/-- Both names of a user have one lookup key if and only if no character of the realm is
    marked. -/
theorem lookupKey_enterprise_eq_iff {user : String} (huser : '@' ∉ user.toList)
    (home realm : String) :
    lookupKey (.enterprise user home) realm = lookupKey (.principal user) home ↔
      UnmarkedRealm home := by
  have hat : '@' ∉ (lowercase user).toList := by
    rw [mem_lowercase_iff (.inr (.inr rfl))]
    exact huser
  -- Up to the at sign the two keys are the same, so what is compared is what stands behind it.
  rw [← String.toList_inj, toList_lookupKey_enterprise, toList_lookupKey_principal,
    escapeChars_keepAt hat, List.append_right_inj, List.cons.injEq,
    and_iff_right rfl, escapeChars_eq_self_iff, mem_lowercase_iff (.inl rfl),
    mem_lowercase_iff (.inr (.inl rfl))]
  rfl

/-! ## What the names stand for -/

/-- The names stand for the same entry in every table and share their timestamps. -/
structure StandAlike (n : PrincipalName) (realm : String) (n' : PrincipalName)
    (realm' : String) : Prop where
  key : lookupKey n realm = lookupKey n' realm'
  entry : ∀ t : PrincipalTable, t.directory n realm = t.directory n' realm'
  record : ∀ ctime cusec,
    ReplayRecord.of n realm ctime cusec = ReplayRecord.of n' realm' ctime cusec

/-- What is known under `n'` makes no difference to `n`: neither an entry that is put in a
    table nor a timestamp. -/
structure StandsApart (n : PrincipalName) (realm : String) (n' : PrincipalName)
    (realm' : String) : Prop where
  key : lookupKey n realm ≠ lookupKey n' realm'
  entry : ∀ (t : PrincipalTable) (e : DirectoryEntry), e.principal = n' → e.realm = realm' →
    (t.insert e).directory n' realm' = .ok (some e) ∧
      (t.insert e).directory n realm = t.directory n realm
  record : ∀ ctime cusec ctime' cusec',
    ReplayRecord.of n realm ctime cusec ≠ ReplayRecord.of n' realm' ctime' cusec'

theorem standAlike_of_lookupKey_eq {n n' : PrincipalName} {realm realm' : String}
    (h : lookupKey n realm = lookupKey n' realm') : StandAlike n realm n' realm' where
  key := h
  entry := by
    intro t
    unfold PrincipalTable.directory PrincipalTable.find?
    rw [h]
  record := by
    intro ctime cusec
    unfold ReplayRecord.of
    rw [h]

theorem standsApart_of_lookupKey_ne {n n' : PrincipalName} {realm realm' : String}
    (h : lookupKey n realm ≠ lookupKey n' realm') : StandsApart n realm n' realm' where
  key := h
  entry := by
    intro t e he hrealm
    unfold PrincipalTable.directory
    rw [PrincipalTable.find?_insert, PrincipalTable.find?_insert, he, hrealm, if_pos rfl, if_neg h]
    exact ⟨rfl, rfl⟩
  record := by
    intro ctime cusec ctime' cusec' hsame
    exact h (ReplayRecord.mk.inj hsame).1

/-- The enterprise name of a user stands for what the plain name stands for in realms without
    marked characters.  In any other realm the two have nothing to do with each other. -/
theorem enterprise_stands_alike_or_apart {user : String} (huser : '@' ∉ user.toList)
    (home realm : String) :
    (UnmarkedRealm home → StandAlike (.enterprise user home) realm (.principal user) home) ∧
      (¬ UnmarkedRealm home →
        StandsApart (.enterprise user home) realm (.principal user) home) := by
  have hkeys := lookupKey_enterprise_eq_iff huser home realm
  constructor
  · intro hhome
    exact standAlike_of_lookupKey_eq (hkeys.mpr hhome)
  · intro hhome
    exact standsApart_of_lookupKey_ne fun hkey => hhome (hkeys.mp hkey)

/-- The user of a realm with a slash in its name is not found by its enterprise name. -/
theorem enterprise_stands_apart_of_slash :
    let user : DirectoryEntry := { principal := .principal "pw13", realm := "C=US/O=OSF" }
    let table := ({} : PrincipalTable).insert user
    '@' ∉ "pw13".toList ∧
      table.directory (.principal "pw13") "C=US/O=OSF" = .ok (some user) ∧
      table.directory (.enterprise "pw13" "C=US/O=OSF") "C=US/O=OSF" = .ok none := by
  intro user table
  have huser : '@' ∉ "pw13".toList := by decide
  obtain ⟨-, hapart⟩ := enterprise_stands_alike_or_apart huser "C=US/O=OSF" "C=US/O=OSF"
  have hmarked : ¬ UnmarkedRealm "C=US/O=OSF" := by decide
  obtain ⟨hplain, henterprise⟩ := (hapart hmarked).entry {} user rfl rfl
  exact ⟨huser, hplain, henterprise⟩

/-- Where the realm has dots only, as a domain has, either name will do. -/
example :
    lookupKey (.enterprise "pw13" "EXAMPLE.COM") "" = lookupKey (.principal "PW13") "example.com" := by
  decide

end Kerberos
