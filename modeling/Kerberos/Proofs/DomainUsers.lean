import Kerberos.Crypto.AesCipher
import Kerberos.Proofs.Envelope
import Kerberos.Proofs.Resolution

/-! # Tables of users with passwords

    A table is filled with users one by one, and a user's entry with keys one by one.  Both
    loops stop at the first failure, so the first user at whom anything is wrong decides how
    the table fails (`DomainUser.Faulty`): the name is looked at first, then the keys in the
    order of the encryption types.

    If nothing is wrong, the table is that of the users' entries, each with the keys of the
    listed types and no others (`DomainUser.get?_keyRing`).  Users whose local names differ at
    most in the case of letters are one principal, whatever their domains are, and the last of
    them has the entry.
-/

namespace Kerberos

/-! ## Loops and lists -/

section loops
variable {ε δ α β γ : Type}

/-- A loop that adds results one by one may as well get all of them first. -/
theorem except_foldlM_eq_mapM (f : α → Except ε β) (add : γ → β → γ) (as : List α) (c : γ) :
    as.foldlM (fun c a => do return add c (← f a)) c =
      (as.mapM f).map fun bs => bs.foldl add c := by
  induction as generalizing c with
  | nil => rfl
  | cons a as ih =>
    rw [List.foldlM_cons, List.mapM_cons]
    cases f a with
    | error e => rfl
    | ok b =>
      show as.foldlM _ (add c b) = _
      rw [ih]
      cases as.mapM f <;> rfl

theorem except_exists_error_iff {x : Except ε α} : (∃ e, x = .error e) ↔ ¬ ∃ a, x = .ok a := by
  cases x <;> simp

theorem except_mapM_list_mapError (g : ε → δ) (f : α → Except ε β) (as : List α) :
    (as.mapM fun a => (f a).mapError g) = (as.mapM f).mapError g := by
  induction as with
  | nil => rfl
  | cons a as ih =>
    rw [List.mapM_cons, List.mapM_cons, ih]
    cases f a with
    | error e => rfl
    | ok b => cases as.mapM f <;> rfl

/-- Two functions that tell the members of a list apart alike have as many values on it. -/
theorem card_toFinset_map_congr [DecidableEq β] [DecidableEq γ] {f : α → β} {g : α → γ}
    {as : List α} (h : ∀ a ∈ as, ∀ a' ∈ as, f a = f a' ↔ g a = g a') :
    (as.map f).toFinset.card = (as.map g).toFinset.card := by
  induction as with
  | nil => rfl
  | cons a as ih =>
    have hrest := ih fun b hb b' hb' =>
      h b (List.mem_cons_of_mem _ hb) b' (List.mem_cons_of_mem _ hb')
    have hmem : f a ∈ (as.map f).toFinset ↔ g a ∈ (as.map g).toFinset := by
      rw [List.mem_toFinset, List.mem_toFinset, List.mem_map, List.mem_map]
      exact exists_congr fun b => and_congr_right fun hb =>
        h b (List.mem_cons_of_mem _ hb) a List.mem_cons_self
    rw [List.map_cons, List.map_cons, List.toFinset_cons, List.toFinset_cons,
      Finset.card_insert_eq_ite, Finset.card_insert_eq_ite, hrest]
    simp only [hmem]

end loops

/-- What is taken until the first `c` ends there, or at the end if there is none. -/
theorem takeWhile_bne_eq_iff {c : Char} {cs before : List Char} :
    cs.takeWhile (· != c) = before ↔
      c ∉ before ∧ (cs = before ∨ ∃ after, cs = before ++ c :: after) := by
  induction cs generalizing before with
  | nil => cases before <;> simp
  | cons d cs ih =>
    by_cases hd : d = c
    · subst hd
      rw [List.takeWhile_cons_of_neg (by simp)]
      cases before with
      | nil => simp
      | cons e before =>
        have hfirst : d ∉ e :: before → ∀ more, d :: cs ≠ e :: more := by
          rintro hnot more hsame
          obtain ⟨rfl, -⟩ := List.cons.inj hsame
          exact hnot List.mem_cons_self
        constructor
        · intro h
          cases h
        · rintro ⟨hnot, hsame | ⟨after, hsame⟩⟩
          · exact absurd hsame (hfirst hnot _)
          · exact absurd hsame (hfirst hnot _)
    · rw [List.takeWhile_cons_of_pos (by simpa using hd)]
      cases before with
      | nil => simp [hd]
      | cons e before =>
        simp only [List.cons.injEq, ih, List.mem_cons, not_or, List.cons_append, exists_and_left,
          ← and_or_left]
        constructor
        · rintro ⟨rfl, hnot, hcs⟩
          exact ⟨⟨Ne.symm hd, hnot⟩, rfl, hcs⟩
        · rintro ⟨⟨-, hnot⟩, rfl, hcs⟩
          exact ⟨rfl, hnot, hcs⟩

/-- The cipher derives keys of the encryption type that it is asked for. -/
def Cipher.DerivesAsAsked (c : Cipher) : Prop :=
  ∀ etype password salt key, c.stringToKey etype password salt = .ok key → key.etype = etype

theorem Crypto.aesCipher_derivesAsAsked (e : Entropy) : (aesCipher e).DerivesAsAsked := by
  intro etype password salt key hkey
  cases hkey
  rfl

namespace DomainUser

/-! ## Local names -/

/-- The local name is the user name, or what stands in it before the first at sign. -/
theorem localName_eq_iff {u : DomainUser} {name : String} :
    u.localName = name ↔ '@' ∉ name.toList ∧
      (u.username = name ∨ ∃ domain, u.username = name ++ "@" ++ domain) := by
  have hdomain : (∃ after, u.username.toList = name.toList ++ '@' :: after) ↔
      ∃ domain, u.username = name ++ "@" ++ domain := by
    constructor
    · rintro ⟨after, hafter⟩
      exact ⟨String.ofList after, String.toList_inj.mp (by simp [hafter])⟩
    · rintro ⟨domain, hdomain⟩
      exact ⟨domain.toList, by simp [hdomain]⟩
  rw [← String.toList_inj, localName, String.toList_ofList, takeWhile_bne_eq_iff,
    String.toList_inj, hdomain]

/-! ## Entries -/

/-- The key of the user for an encryption type. -/
def derive (u : DomainUser) (c : Cipher) (etype : EncryptionType) :
    Except CipherError EncryptionKey :=
  c.stringToKey etype u.password.toUTF8.toList u.salt.toUTF8.toList

/-- The user has a name, and a key for each encryption type. -/
structure Sound (u : DomainUser) (c : Cipher) (etypes : List EncryptionType) : Prop where
  named : u.localName ≠ ""
  derives : ∀ etype ∈ etypes, ∃ key, u.derive c etype = .ok key

/-- A user who is not sound has an empty name, or lacks a key. -/
theorem not_sound_iff {u : DomainUser} {c : Cipher} {etypes : List EncryptionType} :
    ¬ u.Sound c etypes ↔
      u.username = "" ∨ (∃ domain, u.username = "@" ++ domain) ∨
        ∃ etype ∈ etypes, ∃ cause, u.derive c etype = .error cause := by
  have hempty : u.localName = "" ↔ u.username = "" ∨ ∃ domain, u.username = "@" ++ domain := by
    rw [localName_eq_iff]
    simp
  simp only [except_exists_error_iff]
  rw [← or_assoc, ← hempty]
  constructor
  · intro hunsound
    by_contra hfine
    push Not at hfine
    exact hunsound ⟨hfine.1, hfine.2⟩
  · rintro (hname | ⟨etype, hetype, hnone⟩) hsound
    · exact hsound.named hname
    · exact hnone (hsound.derives etype hetype)

/-- What is the matter with a user: the name is empty, or else it is the first key that cannot
    be derived. -/
inductive Faulty (u : DomainUser) (c : Cipher) (etypes : List EncryptionType) :
    DirectoryError → Prop where
  | nameless (hname : u.localName = "") : Faulty u c etypes (.invalidUserName u.username)
  | underived {before : List EncryptionType} {etype : EncryptionType}
      {after : List EncryptionType} {cause : CipherError} (hname : u.localName ≠ "")
      (hetypes : etypes = before ++ etype :: after)
      (hbefore : ∀ earlier ∈ before, ∃ key, u.derive c earlier = .ok key)
      (hcause : u.derive c etype = .error cause) : Faulty u c etypes (.keyDerivation cause)

/-- The keys that can be derived, put in their places one after the other. -/
def keyRing (u : DomainUser) (c : Cipher) (etypes : List EncryptionType) : KeyRing :=
  (etypes.filterMap fun etype => (u.derive c etype).toOption).foldl KeyRing.insert {}

/-- The entry of the user, with the given keys. -/
def entryWith (u : DomainUser) (realm : String) (keys : KeyRing) : DirectoryEntry :=
  { principal := .principal u.localName, realm, keys, salt := some u.salt }

theorem entry_eq (u : DomainUser) (realm : String) (c : Cipher) (etypes : List EncryptionType) :
    u.entry realm c etypes =
      if u.localName = "" then .error (.invalidUserName u.username)
      else ((etypes.mapM (u.derive c)).mapError .keyDerivation).map fun keys =>
        u.entryWith realm (keys.foldl KeyRing.insert {}) := by
  have hkeys : etypes.foldlM (fun (keys : KeyRing) etype => do
      return keys.insert (← (u.derive c etype).mapError DirectoryError.keyDerivation)) {} =
      ((etypes.mapM (u.derive c)).mapError .keyDerivation).map fun keys =>
        keys.foldl KeyRing.insert {} := by
    rw [← except_mapM_list_mapError]
    exact except_foldlM_eq_mapM _ KeyRing.insert etypes {}
  unfold entry
  by_cases hname : u.localName = ""
  · rw [if_pos hname, if_pos (by simpa using hname)]
    rfl
  · rw [if_neg hname, if_neg (by simpa using hname)]
    -- What follows the loop cannot fail.
    refine (congrArg (· >>= fun keys => pure (u.entryWith realm keys)) hkeys).trans ?_
    cases etypes.mapM (u.derive c) <;> rfl

section entry
variable {u : DomainUser} {realm : String} {c : Cipher} {etypes : List EncryptionType}

theorem entry_eq_ok_iff {e : DirectoryEntry} :
    u.entry realm c etypes = .ok e ↔
      u.Sound c etypes ∧ e = u.entryWith realm (u.keyRing c etypes) := by
  rw [entry_eq, ite_error_eq_ok_iff, except_map_eq_ok_iff]
  simp only [mapError_eq_ok_iff, except_mapM_list_eq_ok_iff_filterMap]
  constructor
  · rintro ⟨hname, _, ⟨hderives, rfl⟩, rfl⟩
    exact ⟨⟨hname, hderives⟩, rfl⟩
  · rintro ⟨⟨hname, hderives⟩, rfl⟩
    exact ⟨hname, _, ⟨hderives, rfl⟩, rfl⟩

theorem entry_eq_error_iff {cause : DirectoryError} :
    u.entry realm c etypes = .error cause ↔ u.Faulty c etypes cause := by
  rw [entry_eq]
  constructor
  · intro h
    by_cases hname : u.localName = ""
    · rw [if_pos hname] at h
      cases h
      exact .nameless hname
    · rw [if_neg hname, except_map_eq_error_iff, mapError_eq_error_iff] at h
      obtain ⟨cause, hkeys, rfl⟩ := h
      obtain ⟨before, etype, after, hetypes, hbefore, hcause⟩ :=
        except_mapM_list_eq_error_iff.mp hkeys
      exact .underived hname hetypes hbefore hcause
  · intro h
    cases h with
    | nameless hname => rw [if_pos hname]
    | underived hname hetypes hbefore hcause =>
      rw [if_neg hname, except_map_eq_error_iff, mapError_eq_error_iff]
      exact ⟨_, except_mapM_list_eq_error_iff.mpr ⟨_, _, _, hetypes, hbefore, hcause⟩, rfl⟩

theorem get?_foldl_insert_derived (hasked : c.DerivesAsAsked) (r : KeyRing)
    (etype : EncryptionType) :
    ((etypes.filterMap fun etype => (u.derive c etype).toOption).foldl
      KeyRing.insert r).get? etype =
        if etype ∈ etypes then (u.derive c etype).toOption.or (r.get? etype)
        else r.get? etype := by
  -- The keys that are there at first vary, since each key may take the place of one of them.
  induction etypes generalizing r with
  | nil => rfl
  | cons first etypes ih =>
    cases hfirst : u.derive c first with
    | error cause =>
      rw [List.filterMap_cons_none (by rw [hfirst]; rfl), ih]
      by_cases hsame : etype = first
      · subst hsame
        simp [hfirst, Except.toOption]
      · simp [hsame]
    | ok key =>
      have htype : key.etype = first := hasked _ _ _ _ hfirst
      rw [List.filterMap_cons_some (by rw [hfirst]; rfl), List.foldl_cons, ih,
        KeyRing.get?_insert, htype]
      by_cases hsame : etype = first
      · subst hsame
        simp [hfirst, Except.toOption]
      · simp [hsame]

/-- The user has the keys of the listed types that can be derived. -/
theorem get?_keyRing (hasked : c.DerivesAsAsked) (etype : EncryptionType) :
    (u.keyRing c etypes).get? etype =
      if etype ∈ etypes then (u.derive c etype).toOption else none := by
  have hempty : ({} : KeyRing).get? etype = none := by cases etype <;> rfl
  unfold keyRing
  rw [get?_foldl_insert_derived hasked, hempty, Option.or_none]

theorem names_entryWith_iff {keys : KeyRing} {name realm' : String} :
    (u.entryWith realm keys).Names (.principal name) realm' ↔
      sameIgnoringCase name u.localName = true ∧ sameIgnoringCase realm' realm = true := by
  constructor
  · rintro ⟨hcomponents, hrealm⟩
    cases hcomponents with
    | cons hname => exact ⟨hname, hrealm⟩
  · rintro ⟨hname, hrealm⟩
    exact ⟨.cons hname .nil, hrealm⟩

end entry

/-- The entries of all users. -/
def entriesOf (users : List DomainUser) (realm : String) (c : Cipher)
    (etypes : List EncryptionType) : List DirectoryEntry :=
  users.map fun u => u.entryWith realm (u.keyRing c etypes)

/-- The last of the users who have the name, without regard to case. -/
structure LastOf (users : List DomainUser) (name : String) (last : DomainUser) : Prop where
  named : sameIgnoringCase name last.localName = true
  last : ∃ earlier later, users = earlier ++ last :: later ∧
    ∀ u ∈ later, ¬ sameIgnoringCase name u.localName = true

section lastOf
variable {users : List DomainUser} {name : String} {last : DomainUser}

theorem LastOf.mem (h : LastOf users name last) : last ∈ users := by
  obtain ⟨-, earlier, later, rfl, -⟩ := h
  exact List.mem_append_right _ List.mem_cons_self

/-- There is one last user with a name. -/
theorem LastOf.find?_reverse (h : LastOf users name last) :
    (users.reverse.find? fun u => sameIgnoringCase name u.localName) = some last := by
  obtain ⟨hnamed, earlier, later, rfl, hlater⟩ := h
  rw [List.find?_eq_some_iff_append]
  refine ⟨hnamed, later.reverse, earlier.reverse, by simp, ?_⟩
  intro u hu
  simpa using hlater u (List.mem_reverse.mp hu)

end lastOf

end DomainUser

namespace PrincipalTable

open DomainUser

section users
variable {realm : String} {users : List DomainUser} {c : Cipher} {etypes : List EncryptionType}

/-! ## Filling the table -/

theorem ofUsers_eq :
    ofUsers realm users c etypes =
      (users.mapM fun u : DomainUser => u.entry realm c etypes).map ofEntries :=
  except_foldlM_eq_mapM _ insert users {}

theorem ofUsers_eq_ok_iff {t : PrincipalTable} :
    ofUsers realm users c etypes = .ok t ↔
      (∀ u ∈ users, u.Sound c etypes) ∧ t = ofEntries (entriesOf users realm c etypes) := by
  rw [ofUsers_eq, except_map_eq_ok_iff]
  simp only [except_mapM_list_eq_ok_iff fun _ _ => entry_eq_ok_iff]
  constructor
  · rintro ⟨_, ⟨hsound, rfl⟩, rfl⟩
    exact ⟨hsound, rfl⟩
  · rintro ⟨hsound, rfl⟩
    exact ⟨_, ⟨hsound, rfl⟩, rfl⟩

theorem ofUsers_eq_error_iff {cause : DirectoryError} :
    ofUsers realm users c etypes = .error cause ↔
      ∃ before u after, users = before ++ u :: after ∧ (∀ v ∈ before, v.Sound c etypes) ∧
        u.Faulty c etypes cause := by
  rw [ofUsers_eq, except_map_eq_error_iff, except_mapM_list_eq_error_iff]
  simp only [entry_eq_ok_iff, entry_eq_error_iff, exists_and_left, exists_eq, and_true]

/-! ## What the table knows -/

theorem isEnterprise_entriesOf :
    ∀ e ∈ entriesOf users realm c etypes, e.principal.isEnterprise = false := by
  intro e he
  obtain ⟨u, -, rfl⟩ := List.mem_map.mp he
  rfl

/-- A name stands for the last user who has it, or nobody in the realm has it. -/
theorem find?_entriesOf (realm : String) (users : List DomainUser) (c : Cipher)
    (etypes : List EncryptionType) (name realm' : String) :
    (∃ last, LastOf users name last ∧
      (ofEntries (entriesOf users realm c etypes)).find? (.principal name) realm' =
        some (last.entryWith realm (last.keyRing c etypes))) ∨
    (ofEntries (entriesOf users realm c etypes)).find? (.principal name) realm' = none ∧
      ∀ u ∈ users, ¬ (sameIgnoringCase name u.localName = true ∧
        sameIgnoringCase realm' realm = true) := by
  have hlast : LastNamed (entriesOf users realm c etypes) (.principal name) realm'
      ((ofEntries (entriesOf users realm c etypes)).find? (.principal name) realm') :=
    lastNamed_iff.mpr (find?_ofEntries isEnterprise_entriesOf rfl realm').symm
  cases hfound : (ofEntries (entriesOf users realm c etypes)).find? (.principal name) realm' with
  | none =>
    rw [hfound] at hlast
    refine .inr ⟨rfl, ?_⟩
    intro u hu hnamed
    exact hlast _ (List.mem_map_of_mem hu) (names_entryWith_iff.mpr hnamed)
  | some e =>
    rw [hfound] at hlast
    -- The last entry with the name is that of the last user.
    obtain ⟨_, _, hsplit, hnames, hlater⟩ := hlast
    obtain ⟨earlier, _, rfl, rfl, hrest⟩ := List.map_eq_append_iff.mp hsplit
    obtain ⟨last, later, rfl, rfl, rfl⟩ := List.map_eq_cons_iff.mp hrest
    obtain ⟨hnamed, hrealm⟩ := names_entryWith_iff.mp hnames
    refine .inl ⟨last, ⟨hnamed, earlier, later, rfl, ?_⟩, rfl⟩
    intro u hu hname
    exact hlater _ (List.mem_map_of_mem hu) (names_entryWith_iff.mpr ⟨hname, hrealm⟩)

theorem size_entriesOf :
    (ofEntries (entriesOf users realm c etypes)).size =
      (users.map fun u => lowercase u.localName).toFinset.card := by
  rw [size_ofEntries isEnterprise_entriesOf, entriesOf, List.map_map]
  apply card_toFinset_map_congr
  -- Two entries are of one principal if one user's name stands for the other's entry.
  intro u _ v _
  have hrealm : sameIgnoringCase realm realm = true := beq_self_eq_true _
  rw [Function.comp_apply, Function.comp_apply, Quotient.eq]
  show (v.entryWith realm (v.keyRing c etypes)).Names (.principal u.localName) realm ↔ _
  rw [names_entryWith_iff, and_iff_left hrealm]
  exact beq_iff_eq

end users

/-- The table answers for the last user of each name, with the salt and the keys of that user
    and no other keys, and there are no entries besides. -/
structure KnowsUsers (t : PrincipalTable) (realm : String) (users : List DomainUser) (c : Cipher)
    (etypes : List EncryptionType) : Prop where
  found : ∀ u ∈ users, ∀ name realm', sameIgnoringCase name u.localName = true →
    sameIgnoringCase realm' realm = true →
    ∃ last e, LastOf users name last ∧ t.directory (.principal name) realm' = .ok (some e) ∧
      e.salt = some last.salt ∧
      (∀ etype ∈ etypes, ∃ key, last.derive c etype = .ok key ∧ e.keys.get? etype = some key) ∧
      ∀ etype, etype ∉ etypes → e.keys.get? etype = none
  unknown : ∀ name realm', (∀ u ∈ users, ¬ sameIgnoringCase name u.localName = true) →
    t.directory (.principal name) realm' = .ok none
  size : t.size = (users.map fun u => lowercase u.localName).toFinset.card

theorem knowsUsers_of_ofUsers {realm : String} {users : List DomainUser} {c : Cipher}
    {etypes : List EncryptionType} (hasked : c.DerivesAsAsked) {t : PrincipalTable}
    (h : ofUsers realm users c etypes = .ok t) : t.KnowsUsers realm users c etypes := by
  obtain ⟨hsound, rfl⟩ := ofUsers_eq_ok_iff.mp h
  constructor
  · intro u hu name realm' hname hrealm
    rcases find?_entriesOf realm users c etypes name realm' with ⟨last, hlast, hfound⟩ | ⟨-, hnone⟩
    · refine ⟨last, _, hlast, congrArg Except.ok hfound, rfl, ?_, ?_⟩
      · intro etype hetype
        obtain ⟨key, hkey⟩ := (hsound last hlast.mem).derives etype hetype
        refine ⟨key, hkey, ?_⟩
        show (last.keyRing c etypes).get? etype = _
        rw [get?_keyRing hasked, if_pos hetype, hkey]
        rfl
      · intro etype hetype
        show (last.keyRing c etypes).get? etype = _
        rw [get?_keyRing hasked, if_neg hetype]
    · exact absurd ⟨hname, hrealm⟩ (hnone u hu)
  · intro name realm' hnone
    rcases find?_entriesOf realm users c etypes name realm' with ⟨last, hlast, -⟩ | ⟨hfound, -⟩
    · exact absurd hlast.named (hnone last hlast.mem)
    · exact congrArg Except.ok hfound
  · exact size_entriesOf

/-- The table cannot be filled if and only if a name is empty or a key cannot be derived. -/
theorem exists_ofUsers_eq_error_iff {realm : String} {users : List DomainUser} {c : Cipher}
    {etypes : List EncryptionType} :
    (∃ cause, ofUsers realm users c etypes = .error cause) ↔
      ∃ u ∈ users, u.username = "" ∨ (∃ domain, u.username = "@" ++ domain) ∨
        ∃ etype ∈ etypes, ∃ cause, u.derive c etype = .error cause := by
  rw [except_exists_error_iff]
  simp only [ofUsers_eq_ok_iff, exists_and_left, exists_eq, and_true, not_forall, not_sound_iff,
    exists_prop]

/-- A table of users fails if and only if a name is empty or a key cannot be derived, and then
    the first user at whom anything is wrong says how.  Otherwise it answers for the last user
    of each name and for nobody else. -/
theorem ofUsers_exact {c : Cipher} (hasked : c.DerivesAsAsked) (realm : String)
    (users : List DomainUser) (etypes : List EncryptionType) :
    (∀ cause, ofUsers realm users c etypes = .error cause ↔
      ∃ before u after, users = before ++ u :: after ∧ (∀ v ∈ before, v.Sound c etypes) ∧
        u.Faulty c etypes cause) ∧
    ((∃ cause, ofUsers realm users c etypes = .error cause) ↔
      ∃ u ∈ users, u.username = "" ∨ (∃ domain, u.username = "@" ++ domain) ∨
        ∃ etype ∈ etypes, ∃ cause, u.derive c etype = .error cause) ∧
    ∀ t, ofUsers realm users c etypes = .ok t → t.KnowsUsers realm users c etypes :=
  ⟨fun _ => ofUsers_eq_error_iff, exists_ofUsers_eq_error_iff,
    fun _ => knowsUsers_of_ofUsers hasked⟩

end PrincipalTable

namespace Sample

/-- A cipher for the longer keys only. -/
def longKeyCipher : Cipher :=
  { Cipher.envelope with
    stringToKey := fun etype password salt =>
      if etype = .aes128 then .error (.unsupportedEncryptionType etype.number)
      else Cipher.envelope.stringToKey etype password salt }

theorem longKeyCipher_derivesAsAsked : longKeyCipher.DerivesAsAsked := by
  intro etype password salt key hkey
  obtain ⟨-, hkey⟩ := ite_error_eq_ok_iff.mp hkey
  cases hkey
  rfl

/-- Two users of two domains with one local name, and another user between them. -/
def domainUsers : List DomainUser :=
  [⟨"pw13@example.com", "first", "one"⟩, ⟨"admin", "second", "two"⟩,
    ⟨"PW13@example.net", "third", "three"⟩]

theorem domainUsers_sound : ∀ u ∈ domainUsers, u.Sound longKeyCipher [.aes256, .aes256] := by
  intro u hu
  constructor
  · revert u
    decide
  · intro etype hetype
    simp only [List.mem_cons, List.not_mem_nil, or_false, or_self] at hetype
    subst hetype
    exact ⟨_, rfl⟩

end Sample

/-- Of two namesakes the later one has the entry, with one key for a type that is listed twice.
    A key that cannot be derived is told before the missing name of a later user. -/
theorem PrincipalTable.ofUsers_exact_of_namesakes :
    (∃ t e key,
      ofUsers "EXAMPLE.COM" Sample.domainUsers Sample.longKeyCipher [.aes256, .aes256] = .ok t ∧
      t.size = 2 ∧ t.directory (.principal "pW13") "EXAMPLE.COM" = .ok (some e) ∧
      e.salt = some "three" ∧ e.keys.get? .aes256 = some key ∧ e.keys.get? .aes128 = none ∧
      DomainUser.derive ⟨"PW13@example.net", "third", "three"⟩ Sample.longKeyCipher .aes256 =
        .ok key ∧
      t.directory (.principal "pw13@example.com") "EXAMPLE.COM" = .ok none) ∧
    ofUsers "EXAMPLE.COM" (Sample.domainUsers ++ [⟨"@example.com", "", ""⟩])
      Sample.longKeyCipher [.aes256, .aes256] = .error (.invalidUserName "@example.com") ∧
    ofUsers "EXAMPLE.COM" (Sample.domainUsers ++ [⟨"@example.com", "", ""⟩])
      Sample.longKeyCipher [.aes256, .aes128] =
        .error (.keyDerivation (.unsupportedEncryptionType 17)) := by
  have hasked := Sample.longKeyCipher_derivesAsAsked
  refine ⟨?_, ?_, ?_⟩
  · obtain ⟨-, -, hknows⟩ :=
      ofUsers_exact hasked "EXAMPLE.COM" Sample.domainUsers [.aes256, .aes256]
    obtain ⟨t, ht⟩ : ∃ t, ofUsers "EXAMPLE.COM" Sample.domainUsers Sample.longKeyCipher
        [.aes256, .aes256] = .ok t := ⟨_, ofUsers_eq_ok_iff.mpr ⟨Sample.domainUsers_sound, rfl⟩⟩
    obtain ⟨hfound, hunknown, hsize⟩ := hknows t ht
    obtain ⟨last, e, hlast, he, hsalt, hkeys, hothers⟩ :=
      hfound ⟨"pw13@example.com", "first", "one"⟩ List.mem_cons_self "pW13" "EXAMPLE.COM"
        (by decide) (by decide)
    have hthird : last = ⟨"PW13@example.net", "third", "three"⟩ :=
      Option.some.inj (hlast.find?_reverse.symm.trans (by decide))
    subst hthird
    obtain ⟨key, hderived, hkey⟩ := hkeys .aes256 List.mem_cons_self
    have htwo : t.size = 2 := hsize.trans (by decide +kernel)
    have hstranger := hunknown "pw13@example.com" "EXAMPLE.COM" (by decide)
    exact ⟨t, e, key, ht, htwo, he, hsalt, hkey, hothers .aes128 (by decide), hderived,
      hstranger⟩
  · obtain ⟨herror, -⟩ := ofUsers_exact hasked "EXAMPLE.COM"
      (Sample.domainUsers ++ [⟨"@example.com", "", ""⟩]) [.aes256, .aes256]
    exact (herror _).mpr ⟨_, _, [], rfl, Sample.domainUsers_sound, .nameless (by decide)⟩
  · obtain ⟨herror, -⟩ := ofUsers_exact hasked "EXAMPLE.COM"
      (Sample.domainUsers ++ [⟨"@example.com", "", ""⟩]) [.aes256, .aes128]
    have hfirst : ∀ earlier ∈ [EncryptionType.aes256], ∃ key, DomainUser.derive
        ⟨"pw13@example.com", "first", "one"⟩ Sample.longKeyCipher earlier = .ok key := by
      intro earlier hearlier
      rw [List.mem_singleton.mp hearlier]
      exact ⟨_, rfl⟩
    exact (herror _).mpr ⟨[], _, _, rfl, List.forall_mem_nil _,
      .underived (by decide) (by rfl : _ = [.aes256] ++ .aes128 :: []) hfirst rfl⟩

end Kerberos
