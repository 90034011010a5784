import Kerberos.Proofs.LookupKey
import Kerberos.ReplayCache
import Mathlib.Data.Finset.Card

/-! # Which entry a name stands for

    Two plain names have one lookup key if and only if they name the same principal
    (`SamePrincipal`): their components are the same one by one and their realms are the
    same, all without regard to case.  Where the slashes and at signs fall makes a
    difference, and the name type makes none.

    So a table that is filled entry by entry is told by its entries alone.  A plain name
    stands for the last entry of the same principal, and there are as many entries in the
    table as there are principals among those it was filled with.
-/

namespace Kerberos

/-! ## Names of one principal -/

/-- The components that a name is told by.  A name without components counts as one with an
    empty component. -/
def PrincipalName.parts (n : PrincipalName) : List String :=
  match n.components with
  | [] => [""]
  | first :: others => first :: others

/-- The names agree in realm and components, all without regard to case. -/
structure SamePrincipal (n : PrincipalName) (realm : String) (n' : PrincipalName)
    (realm' : String) : Prop where
  components : List.Forall₂ (fun s t => sameIgnoringCase s t = true) n.parts n'.parts
  realms : sameIgnoringCase realm realm' = true

theorem forall₂_sameIgnoringCase_iff {ss ts : List String} :
    List.Forall₂ (fun s t => sameIgnoringCase s t = true) ss ts ↔
      ss.map lowercase = ts.map lowercase := by
  rw [← List.forall₂_eq_eq_eq, List.forall₂_map_left_iff, List.forall₂_map_right_iff]
  simp only [sameIgnoringCase, beq_iff_eq]

theorem samePrincipal_iff {n n' : PrincipalName} {realm realm' : String} :
    SamePrincipal n realm n' realm' ↔
      n.parts.map lowercase = n'.parts.map lowercase ∧ lowercase realm = lowercase realm' := by
  constructor
  · intro h
    exact ⟨forall₂_sameIgnoringCase_iff.mp h.components, beq_iff_eq.mp h.realms⟩
  · intro h
    exact ⟨forall₂_sameIgnoringCase_iff.mpr h.1, beq_iff_eq.mpr h.2⟩

instance (n : PrincipalName) (realm : String) (n' : PrincipalName) (realm' : String) :
    Decidable (SamePrincipal n realm n' realm') :=
  decidable_of_iff _ samePrincipal_iff.symm

theorem SamePrincipal.refl (n : PrincipalName) (realm : String) :
    SamePrincipal n realm n realm :=
  samePrincipal_iff.mpr ⟨rfl, rfl⟩

theorem SamePrincipal.symm {n n' : PrincipalName} {realm realm' : String}
    (h : SamePrincipal n realm n' realm') : SamePrincipal n' realm' n realm := by
  rw [samePrincipal_iff] at h ⊢
  exact ⟨h.1.symm, h.2.symm⟩

theorem SamePrincipal.trans {n n' n'' : PrincipalName} {realm realm' realm'' : String}
    (h : SamePrincipal n realm n' realm') (h' : SamePrincipal n' realm' n'' realm'') :
    SamePrincipal n realm n'' realm'' := by
  rw [samePrincipal_iff] at h h' ⊢
  exact ⟨h.1.trans h'.1, h.2.trans h'.2⟩

/-! ## Names of one lookup key -/

/-- The parts of a name are what its lookup key is read as. -/
theorem PrincipalName.parts_lowered (n : PrincipalName) :
    n.parts.map (fun s => (lowercase s).toList) = n.lowered.headD [] :: n.lowered.tail := by
  unfold parts lowered
  cases n.components with
  | nil => decide
  | cons first others => rfl

theorem toList_lookupKey_parts {n : PrincipalName} (hn : n.isEnterprise = false)
    (realm : String) :
    (lookupKey n realm).toList =
      ['/'].intercalate ((n.parts.map fun s => (lowercase s).toList).map (escapeChars false)) ++
        '@' :: (lowercase realm).toList := by
  rw [toList_lookupKey, hn, if_neg Bool.false_ne_true]
  unfold PrincipalName.parts PrincipalName.lowered
  cases n.components with
  | nil =>
    -- Nothing joined together is the same as one empty component.
    have hempty : (lowercase "").toList = [] := by decide
    rw [List.map_singleton, hempty]
    rfl
  | cons first others => rfl

/-- Plain names have one lookup key if and only if they name the same principal. -/
theorem lookupKey_eq_iff {n n' : PrincipalName} (hn : n.isEnterprise = false)
    (hn' : n'.isEnterprise = false) {realm realm' : String} :
    lookupKey n realm = lookupKey n' realm' ↔ SamePrincipal n realm n' realm' := by
  have hchars : ∀ ss : List String,
      ss.map (fun s => (lowercase s).toList) = (ss.map lowercase).map String.toList := by
    intro ss
    rw [List.map_map]
    rfl
  rw [samePrincipal_iff]
  constructor
  · -- The key is taken apart, and the parts are those of either name.
    intro hkey
    have hparts := readKey_lookupKey hn realm
    rw [hkey, readKey_lookupKey hn' realm'] at hparts
    obtain ⟨hfirst, hothers, hrealm⟩ := KeyParts.mk.inj hparts
    have hcomponents : (n.parts.map lowercase).map String.toList =
        (n'.parts.map lowercase).map String.toList := by
      rw [← hchars, ← hchars, n.parts_lowered, n'.parts_lowered, hfirst, hothers]
    have hinjective : Function.Injective String.toList := fun _ _ h => String.toList_inj.mp h
    exact ⟨hinjective.list_map hcomponents, String.toList_inj.mp hrealm.symm⟩
  · -- Equal parts are strung together alike.
    intro hsame
    apply String.toList_inj.mp
    rw [toList_lookupKey_parts hn, toList_lookupKey_parts hn', hchars, hchars, hsame.1, hsame.2]

/-- The name type of a plain name is no part of its lookup key. -/
theorem lookupKey_of_kind {n : PrincipalName} (hn : n.isEnterprise = false) {kind : UInt8}
    (hkind : kind ≠ PrincipalName.enterpriseKind) (realm : String) :
    lookupKey ⟨kind, n.components⟩ realm = lookupKey n realm := by
  have hplain : PrincipalName.isEnterprise ⟨kind, n.components⟩ = false := beq_false_of_ne hkind
  exact (lookupKey_eq_iff hplain hn).mpr (samePrincipal_iff.mpr ⟨rfl, rfl⟩)

/-- The timestamps of plain names are told apart by principal, time and microseconds. -/
theorem replayRecord_eq_iff {n n' : PrincipalName} (hn : n.isEnterprise = false)
    (hn' : n'.isEnterprise = false) {realm realm' : String} {ctime ctime' : Instant}
    {cusec cusec' : UInt32} :
    ReplayRecord.of n realm ctime cusec = ReplayRecord.of n' realm' ctime' cusec' ↔
      SamePrincipal n realm n' realm' ∧ ctime = ctime' ∧ cusec = cusec' := by
  unfold ReplayRecord.of
  rw [ReplayRecord.mk.injEq, lookupKey_eq_iff hn hn']

/-! ## Entries -/

/-- The entry is one of the principal that `n` names. -/
def DirectoryEntry.Names (e : DirectoryEntry) (n : PrincipalName) (realm : String) : Prop :=
  SamePrincipal n realm e.principal e.realm

instance (e : DirectoryEntry) (n : PrincipalName) (realm : String) : Decidable (e.Names n realm) :=
  inferInstanceAs (Decidable (SamePrincipal n realm e.principal e.realm))

/-- Entries of one principal. -/
instance principalSetoid : Setoid DirectoryEntry where
  r e e' := SamePrincipal e.principal e.realm e'.principal e'.realm
  iseqv := ⟨fun e => .refl e.principal e.realm, SamePrincipal.symm, SamePrincipal.trans⟩

instance (e e' : DirectoryEntry) : Decidable (e ≈ e') :=
  inferInstanceAs (Decidable (SamePrincipal e.principal e.realm e'.principal e'.realm))

namespace PrincipalTable

/-! ## The last entry of a principal -/

theorem find?_ofEntries_concat (entries : List DirectoryEntry) (e : DirectoryEntry)
    (n : PrincipalName) (realm : String) :
    (ofEntries (entries ++ [e])).find? n realm =
      if lookupKey n realm = lookupKey e.principal e.realm then some e
      else (ofEntries entries).find? n realm := by
  unfold ofEntries
  rw [List.foldl_append, List.foldl_cons, List.foldl_nil, find?_insert]

/-- Of plain entries, a plain name stands for the last one that it names. -/
theorem find?_ofEntries {entries : List DirectoryEntry}
    (hentries : ∀ e ∈ entries, e.principal.isEnterprise = false) {n : PrincipalName}
    (hn : n.isEnterprise = false) (realm : String) :
    (ofEntries entries).find? n realm = entries.reverse.find? fun e => e.Names n realm := by
  -- From the right: what was added last is found first.
  induction entries using List.reverseRecOn with
  | nil => rfl
  | append_singleton entries e ih =>
    have he : e.principal.isEnterprise = false := hentries e (by simp)
    have hearlier : ∀ e' ∈ entries, e'.principal.isEnterprise = false :=
      fun e' h => hentries e' (List.mem_append_left _ h)
    rw [find?_ofEntries_concat, List.reverse_concat, List.find?_cons, ih hearlier]
    by_cases hnames : e.Names n realm
    · rw [if_pos ((lookupKey_eq_iff hn he).mpr hnames), decide_eq_true hnames]
    · rw [if_neg fun hkey => hnames ((lookupKey_eq_iff hn he).mp hkey), decide_eq_false hnames]

/-- What the entries know under a name: the last one of the principal, if there is any. -/
def LastNamed (entries : List DirectoryEntry) (n : PrincipalName) (realm : String) :
    Option DirectoryEntry → Prop
  | some e => ∃ earlier later, entries = earlier ++ e :: later ∧ e.Names n realm ∧
      ∀ e' ∈ later, ¬ e'.Names n realm
  | none => ∀ e ∈ entries, ¬ e.Names n realm

theorem lastNamed_iff {entries : List DirectoryEntry} {n : PrincipalName} {realm : String}
    {found : Option DirectoryEntry} :
    LastNamed entries n realm found ↔ entries.reverse.find? (fun e => e.Names n realm) = found := by
  cases found with
  | none =>
    rw [List.find?_eq_none]
    constructor
    · intro h e he
      simpa using h e (List.mem_reverse.mp he)
    · intro h e he
      simpa using h e (List.mem_reverse.mpr he)
  | some e =>
    rw [List.find?_eq_some_iff_append]
    constructor
    · intro ⟨earlier, later, hsplit, hnames, hlater⟩
      have hreverse : entries.reverse = later.reverse ++ e :: earlier.reverse := by
        simp [hsplit]
      have hnone : ∀ e' ∈ later.reverse, (!decide (e'.Names n realm)) = true := by
        intro e' he'
        simpa using hlater e' (List.mem_reverse.mp he')
      exact ⟨decide_eq_true hnames, later.reverse, earlier.reverse, hreverse, hnone⟩
    · intro ⟨hnames, after, before, hreverse, hafter⟩
      have hsplit : entries = before.reverse ++ e :: after.reverse := by
        rw [← List.reverse_reverse entries, hreverse]
        simp
      have hlater : ∀ e' ∈ after.reverse, ¬ e'.Names n realm := by
        intro e' he'
        simpa using hafter e' (List.mem_reverse.mp he')
      exact ⟨before.reverse, after.reverse, hsplit, of_decide_eq_true hnames, hlater⟩

/-! ## The number of entries -/

/-- The table holds some of the entries, each under its own lookup key and no two under one. -/
structure Holds (t : PrincipalTable) (entries : List DirectoryEntry) : Prop where
  distinct : (t.entries.map Prod.fst).Nodup
  keyed : ∀ held ∈ t.entries, held.1 = lookupKey held.2.principal held.2.realm
  among : ∀ held ∈ t.entries, held.2 ∈ entries

theorem Holds.insert {t : PrincipalTable} {entries : List DirectoryEntry} (h : t.Holds entries)
    (e : DirectoryEntry) : (t.insert e).Holds (entries ++ [e]) := by
  -- What the table held before is what it holds now, but for one entry at most.
  have hheld : ∀ held ∈ (t.insert e).entries,
      held = (lookupKey e.principal e.realm, e) ∨ held ∈ t.entries := by
    intro held hmem
    have hcases := List.mem_cons.mp hmem
    exact hcases.imp id fun hfiltered => (List.mem_filter.mp hfiltered).1
  constructor
  · have hfiltered : ((t.entries.filter fun held =>
        held.1 != lookupKey e.principal e.realm).map Prod.fst).Nodup :=
      h.distinct.sublist (List.filter_sublist.map Prod.fst)
    have hfresh : lookupKey e.principal e.realm ∉ (t.entries.filter fun held =>
        held.1 != lookupKey e.principal e.realm).map Prod.fst := by
      intro hmem
      obtain ⟨held, hheld, hkey⟩ := List.mem_map.mp hmem
      have hother := (List.mem_filter.mp hheld).2
      rw [hkey, bne_self_eq_false] at hother
      cases hother
    exact List.nodup_cons.mpr ⟨hfresh, hfiltered⟩
  · intro held hmem
    rcases hheld held hmem with rfl | hbefore
    · rfl
    · exact h.keyed held hbefore
  · intro held hmem
    rcases hheld held hmem with rfl | hbefore
    · exact List.mem_append_right _ List.mem_cons_self
    · exact List.mem_append_left _ (h.among held hbefore)

theorem holds_ofEntries (entries : List DirectoryEntry) :
    (ofEntries entries).Holds entries := by
  induction entries using List.reverseRecOn with
  | nil =>
    have hnone : ∀ held : String × DirectoryEntry, held ∉ (ofEntries []).entries :=
      fun held => List.not_mem_nil
    exact ⟨List.nodup_nil, fun held h => absurd h (hnone held), fun held h => absurd h (hnone held)⟩
  | append_singleton entries e ih =>
    unfold ofEntries at ih ⊢
    rw [List.foldl_append]
    exact ih.insert e

/-- An entry that is found is held. -/
theorem mem_of_find? {t : PrincipalTable} {n : PrincipalName} {realm : String}
    {e : DirectoryEntry} (h : t.find? n realm = some e) : e ∈ t.entries.map Prod.snd := by
  obtain ⟨before, after, hentries, -⟩ := List.lookup_eq_some_iff.mp h
  rw [hentries]
  simp

section plain
variable {entries : List DirectoryEntry}
  (hentries : ∀ e ∈ entries, e.principal.isEnterprise = false)
include hentries

/-- No principal of the entries is missing. -/
theorem exists_held {e : DirectoryEntry} (he : e ∈ entries) :
    ∃ found ∈ (ofEntries entries).entries.map Prod.snd, found ≈ e := by
  have hsome : (entries.reverse.find? fun other => other.Names e.principal e.realm).isSome :=
    List.find?_isSome.mpr ⟨e, List.mem_reverse.mpr he, decide_eq_true (Setoid.refl e)⟩
  obtain ⟨found, hfound⟩ := Option.isSome_iff_exists.mp hsome
  have hnames : found.Names e.principal e.realm := of_decide_eq_true (List.find?_some hfound :)
  rw [← find?_ofEntries hentries (hentries e he)] at hfound
  exact ⟨found, mem_of_find? hfound, hnames.symm⟩

/-- No principal of the entries is there twice. -/
theorem nodup_held :
    (((ofEntries entries).entries.map Prod.snd).map (Quotient.mk principalSetoid)).Nodup := by
  have hholds := holds_ofEntries entries
  rw [List.map_map]
  apply List.Nodup.map_on _ (hholds.distinct.of_map Prod.fst)
  intro held hheld held' hheld' hclass
  have hplain := hentries held.2 (hholds.among held hheld)
  have hplain' := hentries held'.2 (hholds.among held' hheld')
  -- Entries of one principal have one key, and that key is there once.
  apply List.inj_on_of_nodup_map hholds.distinct hheld hheld'
  rw [hholds.keyed held hheld, hholds.keyed held' hheld', lookupKey_eq_iff hplain hplain']
  exact Quotient.exact hclass

/-- A table that is filled with plain entries holds as many as there are principals. -/
theorem size_ofEntries :
    (ofEntries entries).size =
      (entries.map (Quotient.mk principalSetoid)).toFinset.card := by
  have hclasses : (((ofEntries entries).entries.map Prod.snd).map
      (Quotient.mk principalSetoid)).toFinset =
      (entries.map (Quotient.mk principalSetoid)).toFinset := by
    ext principal
    rw [List.mem_toFinset, List.mem_toFinset, List.mem_map, List.mem_map]
    constructor
    · intro ⟨e, he, hclass⟩
      obtain ⟨held, hheld, rfl⟩ := List.mem_map.mp he
      exact ⟨held.2, (holds_ofEntries entries).among held hheld, hclass⟩
    · intro ⟨e, he, hclass⟩
      obtain ⟨found, hfound, hsame⟩ := exists_held hentries he
      exact ⟨found, hfound, (Quotient.sound hsame).trans hclass⟩
  rw [← hclasses, List.toFinset_card_of_nodup (nodup_held hentries), List.length_map,
    List.length_map]
  rfl

end plain

/-! ## Exactness -/

/-- A table filled with plain entries is exact.  A plain name gets the last entry of its
    principal, whatever the name type.  There are as many entries as principals.  And nothing
    is shared between two principals: no entry, no lookup key, no record of a timestamp. -/
theorem resolution_exact {entries : List DirectoryEntry}
    (hentries : ∀ e ∈ entries, e.principal.isEnterprise = false) :
    (∀ n realm, n.isEnterprise = false →
      ∃ found, (ofEntries entries).directory n realm = .ok found ∧
        LastNamed entries n realm found ∧
        ∀ kind, kind ≠ PrincipalName.enterpriseKind →
          (ofEntries entries).directory ⟨kind, n.components⟩ realm = .ok found) ∧
    (ofEntries entries).size = (entries.map (Quotient.mk principalSetoid)).toFinset.card ∧
    ∀ n realm n' realm', n.isEnterprise = false → n'.isEnterprise = false →
      (lookupKey n realm = lookupKey n' realm' ↔ SamePrincipal n realm n' realm') ∧
      (∀ ctime cusec ctime' cusec',
        ReplayRecord.of n realm ctime cusec = ReplayRecord.of n' realm' ctime' cusec' ↔
          SamePrincipal n realm n' realm' ∧ ctime = ctime' ∧ cusec = cusec') ∧
      ∀ e, (ofEntries entries).directory n realm = .ok (some e) →
        (ofEntries entries).directory n' realm' = .ok (some e) →
        SamePrincipal n realm n' realm' := by
  constructor
  · intro n realm hn
    have hlast : LastNamed entries n realm ((ofEntries entries).find? n realm) :=
      lastNamed_iff.mpr (find?_ofEntries hentries hn realm).symm
    have hkinds : ∀ kind, kind ≠ PrincipalName.enterpriseKind →
        (ofEntries entries).directory ⟨kind, n.components⟩ realm =
          .ok ((ofEntries entries).find? n realm) := by
      intro kind hkind
      unfold directory find?
      rw [lookupKey_of_kind hn hkind]
    exact ⟨_, rfl, hlast, hkinds⟩
  constructor
  · exact size_ofEntries hentries
  · intro n realm n' realm' hn hn'
    have hkeys : lookupKey n realm = lookupKey n' realm' ↔ SamePrincipal n realm n' realm' :=
      lookupKey_eq_iff hn hn'
    have hkeyed := keyed_ofEntries entries
    constructor
    · exact hkeys
    constructor
    · intro ctime cusec ctime' cusec'
      exact replayRecord_eq_iff hn hn'
    · intro e hfound hfound'
      -- Either name leads to the key that the entry lies under.
      have hkey := hkeyed n realm e (Except.ok.inj hfound)
      have hkey' := hkeyed n' realm' e (Except.ok.inj hfound')
      exact hkeys.mp (hkey.trans hkey'.symm)

/-- A component with a slash in it is not two components, and a second name of the same
    principal takes the place of the first. -/
theorem resolution_exact_of_slashes :
    let one : DirectoryEntry := { principal := ⟨1, ["a/b"]⟩, realm := "R" }
    let two : DirectoryEntry := { principal := ⟨1, ["a", "b"]⟩, realm := "R" }
    let again : DirectoryEntry := { principal := ⟨2, ["A", "B"]⟩, realm := "r" }
    let table := ofEntries [one, two, again]
    table.directory ⟨0, ["A/b"]⟩ "R" = .ok (some one) ∧
    table.directory ⟨0, ["a", "B"]⟩ "R" = .ok (some again) ∧ table.size = 2 ∧
    lookupKey one.principal "R" ≠ lookupKey two.principal "R" := by
  intro one two again table
  have hentries : ∀ e ∈ [one, two, again], e.principal.isEnterprise = false := by decide
  obtain ⟨hnames, hsize, hapart⟩ := resolution_exact hentries
  obtain ⟨first, hfirst, hlast, -⟩ := hnames ⟨0, ["A/b"]⟩ "R" rfl
  obtain ⟨second, hsecond, hlast', -⟩ := hnames ⟨0, ["a", "B"]⟩ "R" rfl
  obtain ⟨hkeys, -⟩ := hapart one.principal "R" two.principal "R" rfl rfl
  have hone : first = some one := (lastNamed_iff.mp hlast).symm.trans (by decide)
  have hagain : second = some again := (lastNamed_iff.mp hlast').symm.trans (by decide)
  have htwo : table.size = 2 := hsize.trans (by decide)
  have hdiffer : ¬ SamePrincipal one.principal "R" two.principal "R" := by decide
  subst hone hagain
  exact ⟨hfirst, hsecond, htwo, fun hsame => hdiffer (hkeys.mp hsame)⟩

end PrincipalTable

end Kerberos
