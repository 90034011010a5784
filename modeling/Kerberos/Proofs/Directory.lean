import Kerberos.Directory

/-! # Tables of principals

    A table that is filled entry by entry holds every entry under the lookup key of the
    entry's own name.  So the lookup key of a name tells which entry the name stands for.
-/

namespace Kerberos

namespace PrincipalTable

/-- The table that the entries make up, where a later entry takes the place of an earlier one
    with the same lookup key. -/
def ofEntries (entries : List DirectoryEntry) : PrincipalTable := entries.foldl insert {}

/-- Every entry lies under the lookup key of its own name. -/
def Keyed (t : PrincipalTable) : Prop :=
  ∀ n realm e, t.find? n realm = some e → lookupKey n realm = lookupKey e.principal e.realm

theorem Keyed.insert {t : PrincipalTable} (h : t.Keyed) (e : DirectoryEntry) :
    (t.insert e).Keyed := by
  intro n realm found hfound
  rw [find?_insert] at hfound
  split at hfound
  · next hkey =>
    cases hfound
    exact hkey
  · exact h n realm found hfound

theorem Keyed.foldl_insert {t : PrincipalTable} (h : t.Keyed) (entries : List DirectoryEntry) :
    (entries.foldl PrincipalTable.insert t).Keyed := by
  induction entries generalizing t with
  | nil => exact h
  | cons e entries ih => exact ih (h.insert e)

theorem keyed_ofEntries (entries : List DirectoryEntry) : (ofEntries entries).Keyed := by
  have hempty : ({} : PrincipalTable).Keyed := by
    intro n realm e hfound
    cases hfound
  exact hempty.foldl_insert entries

/-- What is found is one of the entries that the table was filled with. -/
theorem mem_of_find?_foldl_insert {t : PrincipalTable} {entries : List DirectoryEntry}
    {n : PrincipalName} {realm : String} {e : DirectoryEntry}
    (h : (entries.foldl PrincipalTable.insert t).find? n realm = some e) :
    e ∈ entries ∨ t.find? n realm = some e := by
  induction entries generalizing t with
  | nil => exact .inr h
  | cons first entries ih =>
    rcases ih h with hmem | hfound
    · exact .inl (List.mem_cons_of_mem _ hmem)
    · rw [find?_insert] at hfound
      split at hfound
      · cases hfound
        exact .inl List.mem_cons_self
      · exact .inr hfound

theorem mem_of_find?_ofEntries {entries : List DirectoryEntry} {n : PrincipalName}
    {realm : String} {e : DirectoryEntry} (h : (ofEntries entries).find? n realm = some e) :
    e ∈ entries := by
  rcases mem_of_find?_foldl_insert h with hmem | hempty
  · exact hmem
  · cases hempty

/-- Entries that can be found and have the same lookup key are the same entry. -/
theorem Keyed.eq_of_lookupKey_eq {t : PrincipalTable} (h : t.Keyed) {n n' : PrincipalName}
    {realm realm' : String} {e e' : DirectoryEntry} (he : t.find? n realm = some e)
    (he' : t.find? n' realm' = some e')
    (hkey : lookupKey e.principal e.realm = lookupKey e'.principal e'.realm) : e = e' := by
  -- The names by which the entries were found lead to the same place of the table.
  have hsame : lookupKey n realm = lookupKey n' realm' := by
    rw [h n realm e he, h n' realm' e' he', hkey]
  unfold find? at he he'
  rw [hsame, he'] at he
  exact (Option.some.inj he).symm

end PrincipalTable

end Kerberos
