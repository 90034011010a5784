import Kerberos.Proofs.Directory

/-! # Lookup keys can be taken apart

    A lookup key strings the components of a name together with slashes, and the realm behind
    an at sign.  Slashes and at signs inside a component are marked with a backslash, so the
    key still shows where each part ends: `readKey` gets the parts back (`readKey_lookupKey`).
    Two names with one lookup key are therefore names of one realm, and what a table returns
    for a name is an entry of the realm that was asked for.

    An enterprise name is the exception.  The realm behind its key is the one that its own
    component holds, and the realm that was asked for does not come in
    (`readKey_lookupKey_enterprise`).
-/

namespace Kerberos

/-! ## Lower case -/

/-- The characters that a lookup key is divided by. -/
def IsMark (c : Char) : Prop := c = '\\' ∨ c = '/' ∨ c = '@'

/-- Lower case neither makes a mark nor takes one away. -/
theorem toLower_eq_mark_iff {c mark : Char} (hmark : IsMark mark) :
    c.toLower = mark ↔ c = mark := by
  by_cases hupper : c.val ≥ 'A'.val ∧ c.val ≤ 'Z'.val
  · -- A capital letter is no mark, and neither is the small one.
    have hleast : 65 ≤ c.toNat := UInt32.le_iff_toNat_le.mp hupper.1
    have hlast : c.toNat ≤ 90 := UInt32.le_iff_toNat_le.mp hupper.2
    have hlower : c.toLower.toNat = c.toNat + 32 := by
      unfold Char.toLower
      rw [dif_pos hupper]
      show (c.val + 32).toNat = c.toNat + 32
      have hsum : (c.val + 32).toNat = (c.toNat + 32) % 4294967296 := UInt32.toNat_add _ _
      omega
    have hnumber : mark.toNat = 92 ∨ mark.toNat = 47 ∨ mark.toNat = 64 := by
      rcases hmark with rfl | rfl | rfl
      all_goals decide
    constructor
    · intro heq
      rw [heq] at hlower
      omega
    · intro heq
      rw [heq] at hleast hlast
      omega
  · have hsame : c.toLower = c := by
      unfold Char.toLower
      rw [dif_neg hupper]
    rw [hsame]

theorem toList_lowercase (s : String) : (lowercase s).toList = s.toList.map Char.toLower := by
  unfold lowercase
  rw [String.toList_ofList]

theorem toList_lowercase_append_at (s t : String) :
    (lowercase (s ++ "@" ++ t)).toList = (lowercase s).toList ++ '@' :: (lowercase t).toList := by
  have hat : "@".toList.map Char.toLower = ['@'] := by decide
  rw [toList_lowercase, String.toList_append, String.toList_append, List.map_append,
    List.map_append, hat, List.append_assoc, List.singleton_append, toList_lowercase,
    toList_lowercase]

/-- Lower case neither adds an occurrence of a mark to a string nor removes one. -/
theorem mem_lowercase_iff {mark : Char} (hmark : IsMark mark) (s : String) :
    mark ∈ (lowercase s).toList ↔ mark ∈ s.toList := by
  rw [toList_lowercase, List.mem_map]
  constructor
  · rintro ⟨c, hc, hlower⟩
    rw [(toLower_eq_mark_iff hmark).mp hlower] at hc
    exact hc
  · intro hmem
    exact ⟨mark, hmem, (toLower_eq_mark_iff hmark).mpr rfl⟩

/-! ## Marks inside components -/

/-- The characters of a component with a backslash in front of each mark. -/
def escapeChars (keepAt : Bool) (cs : List Char) : List Char :=
  cs.flatMap fun c =>
    if c == '\\' || c == '/' || (c == '@' && !keepAt) then ['\\', c] else [c]

theorem escapeChars_cons (keepAt : Bool) (c : Char) (cs : List Char) :
    escapeChars keepAt (c :: cs) =
      (if c == '\\' || c == '/' || (c == '@' && !keepAt) then ['\\', c] else [c]) ++
        escapeChars keepAt cs := rfl

theorem escapeChars_append (keepAt : Bool) (cs cs' : List Char) :
    escapeChars keepAt (cs ++ cs') = escapeChars keepAt cs ++ escapeChars keepAt cs' :=
  List.flatMap_append

theorem toList_escapeComponent (keepAt : Bool) (component : String) :
    (escapeComponent keepAt component).toList = escapeChars keepAt component.toList :=
  String.toList_ofList

/-- Where at signs are kept, other characters than slashes and backslashes stay as they are. -/
theorem escapeChars_of_unmarked {cs : List Char} (hbackslash : '\\' ∉ cs) (hslash : '/' ∉ cs) :
    escapeChars true cs = cs := by
  induction cs with
  | nil => rfl
  | cons c cs ih =>
    rw [List.mem_cons, not_or] at hbackslash hslash
    have hplain : (c == '\\' || c == '/' || (c == '@' && !true)) = false := by
      simp [Ne.symm hbackslash.1, Ne.symm hslash.1]
    rw [escapeChars_cons, hplain, ih hbackslash.2 hslash.2]
    rfl

/-- Characters may be marked first and then put in lower case, or the other way round. -/
theorem map_toLower_escapeChars (keepAt : Bool) (cs : List Char) :
    (escapeChars keepAt cs).map Char.toLower = escapeChars keepAt (cs.map Char.toLower) := by
  induction cs with
  | nil => rfl
  | cons c cs ih =>
    have hbackslash : c.toLower = '\\' ↔ c = '\\' := toLower_eq_mark_iff (.inl rfl)
    have hslash : c.toLower = '/' ↔ c = '/' := toLower_eq_mark_iff (.inr (.inl rfl))
    have hat : c.toLower = '@' ↔ c = '@' := toLower_eq_mark_iff (.inr (.inr rfl))
    have hsame : (c.toLower == '\\' || c.toLower == '/' || (c.toLower == '@' && !keepAt)) =
        (c == '\\' || c == '/' || (c == '@' && !keepAt)) := by
      rw [Bool.eq_iff_iff]
      simp only [Bool.or_eq_true, Bool.and_eq_true, beq_iff_eq, hbackslash, hslash, hat]
    rw [escapeChars_cons, List.map_append, ih, List.map_cons, escapeChars_cons, hsame]
    by_cases hmarked : (c == '\\' || c == '/' || (c == '@' && !keepAt)) = true
    · rw [if_pos hmarked, if_pos hmarked]
      rfl
    · rw [if_neg hmarked, if_neg hmarked]
      rfl

/-! ## The parts of a key -/

/-- A lookup key taken apart: the first component, the others, and the realm. -/
structure KeyParts where
  first : List Char
  others : List (List Char)
  realm : List Char
  deriving DecidableEq, Repr

/-- Adds characters in front of the first component. -/
def KeyParts.prepend (cs : List Char) (k : KeyParts) : KeyParts :=
  { k with first := cs ++ k.first }

theorem KeyParts.prepend_mk (cs first : List Char) (others : List (List Char))
    (realm : List Char) : prepend cs ⟨first, others, realm⟩ = ⟨cs ++ first, others, realm⟩ := rfl

/-- Takes a lookup key apart at the slashes and the at sign that are not marked. -/
def readKey : List Char → KeyParts
  | [] => ⟨[], [], []⟩
  | '\\' :: c :: rest => (readKey rest).prepend [c]
  | '/' :: rest => ⟨[], (readKey rest).first :: (readKey rest).others, (readKey rest).realm⟩
  | '@' :: rest => ⟨[], [], rest⟩
  | c :: rest => (readKey rest).prepend [c]

theorem readKey_slash (rest : List Char) :
    readKey ('/' :: rest) =
      ⟨[], (readKey rest).first :: (readKey rest).others, (readKey rest).realm⟩ := rfl

theorem readKey_at (rest : List Char) : readKey ('@' :: rest) = ⟨[], [], rest⟩ := rfl

theorem readKey_of_unmarked {c : Char} (hc : ¬ IsMark c) (rest : List Char) :
    readKey (c :: rest) = (readKey rest).prepend [c] := by
  have hbackslash : c ≠ '\\' := fun h => hc (.inl h)
  have hslash : c ≠ '/' := fun h => hc (.inr (.inl h))
  have hat : c ≠ '@' := fun h => hc (.inr (.inr h))
  rw [readKey]
  · exact fun _ _ h => absurd h hbackslash
  · exact hslash
  · exact hat

/-- The characters of a component are read as they are, if no at sign is left unmarked. -/
theorem readKey_escapeChars {keepAt : Bool} {cs : List Char}
    (hat : keepAt = true → '@' ∉ cs) (rest : List Char) :
    readKey (escapeChars keepAt cs ++ rest) = (readKey rest).prepend cs := by
  induction cs with
  | nil => rfl
  | cons c cs ih =>
    have hrest : readKey (escapeChars keepAt cs ++ rest) = (readKey rest).prepend cs := by
      apply ih
      intro hkeep hmem
      exact hat hkeep (List.mem_cons_of_mem _ hmem)
    rw [escapeChars_cons, List.append_assoc]
    by_cases hmarked : (c == '\\' || c == '/' || (c == '@' && !keepAt)) = true
    · rw [if_pos hmarked]
      show (readKey (escapeChars keepAt cs ++ rest)).prepend [c] = _
      rw [hrest]
      rfl
    · -- A mark that is not escaped could only be an at sign.
      have hnone : ¬ IsMark c := by
        intro hc
        rcases hc with rfl | rfl | rfl
        · exact hmarked rfl
        · exact hmarked rfl
        · cases keepAt with
          | false => exact hmarked rfl
          | true => exact hat rfl List.mem_cons_self
      rw [if_neg hmarked, List.singleton_append, readKey_of_unmarked hnone, hrest]
      rfl

/-- Components with slashes between them, and a realm behind, are read as they are.  A list of
    no components reads like one empty component. -/
theorem readKey_joined (components : List (List Char)) (realm : List Char) :
    readKey (['/'].intercalate (components.map (escapeChars false)) ++ '@' :: realm) =
      ⟨components.headD [], components.tail, realm⟩ := by
  have hplain : ∀ cs : List Char, false = true → '@' ∉ cs := fun cs h => nomatch h
  induction components with
  | nil => rfl
  | cons component components ih =>
    cases components with
    | nil =>
      rw [List.map_singleton, List.intercalate_singleton, readKey_escapeChars (hplain _),
        readKey_at, KeyParts.prepend_mk, List.append_nil]
      rfl
    | cons second components =>
      -- The slash behind the first component is where the second begins.
      rw [List.map_cons, List.map_cons, List.intercalate_cons_cons, ← List.map_cons,
        List.append_assoc, List.append_assoc, readKey_escapeChars (hplain _),
        List.singleton_append, readKey_slash, ih, KeyParts.prepend_mk, List.append_nil]
      rfl

/-! ## Names -/

/-- The components of a name in lower case. -/
def PrincipalName.lowered (n : PrincipalName) : List (List Char) :=
  n.components.map fun s => (lowercase s).toList

theorem map_intercalate {α β : Type} (f : α → β) (separator : List α) (parts : List (List α)) :
    (separator.intercalate parts).map f =
      (separator.map f).intercalate (parts.map (List.map f)) := by
  induction parts with
  | nil => rfl
  | cons part parts ih =>
    cases parts with
    | nil => rw [List.intercalate_singleton, List.map_singleton, List.intercalate_singleton]
    | cons second parts =>
      rw [List.intercalate_cons_cons, List.map_append, List.map_append, ih, List.map_cons,
        List.map_cons, List.map_cons, List.intercalate_cons_cons]

/-- The components of a name as they stand in a lookup key. -/
def PrincipalName.joined (n : PrincipalName) : String :=
  "/".intercalate (n.components.map (escapeComponent n.isEnterprise))

theorem lookupKey_eq (n : PrincipalName) (realm : String) :
    lookupKey n realm =
      lowercase (if n.isEnterprise then n.joined else n.joined ++ "@" ++ realm) := rfl

theorem toList_lowercase_joined (n : PrincipalName) :
    (lowercase n.joined).toList =
      ['/'].intercalate (n.lowered.map (escapeChars n.isEnterprise)) := by
  have hslash : "/".toList.map Char.toLower = ['/'] := by decide
  have hmap : n.components.map
      ((List.map Char.toLower ∘ String.toList) ∘ escapeComponent n.isEnterprise) =
      n.components.map (escapeChars n.isEnterprise ∘ fun s => (lowercase s).toList) := by
    apply List.map_congr_left
    intro s _
    rw [Function.comp_apply, Function.comp_apply, Function.comp_apply, toList_escapeComponent,
      map_toLower_escapeChars, toList_lowercase]
  rw [PrincipalName.joined, toList_lowercase, String.toList_intercalate, map_intercalate, hslash,
    List.map_map, List.map_map, hmap, PrincipalName.lowered, List.map_map]

theorem toList_lookupKey (n : PrincipalName) (realm : String) :
    (lookupKey n realm).toList =
      ['/'].intercalate (n.lowered.map (escapeChars n.isEnterprise)) ++
        if n.isEnterprise then [] else '@' :: (lowercase realm).toList := by
  rw [lookupKey_eq]
  by_cases henterprise : n.isEnterprise = true
  · rw [if_pos henterprise, if_pos henterprise, toList_lowercase_joined, List.append_nil]
  · rw [if_neg henterprise, if_neg henterprise, toList_lowercase_append_at,
      toList_lowercase_joined]

/-- The parts of a lookup key are those of the name and the realm, in lower case. -/
theorem readKey_lookupKey {n : PrincipalName} (hn : n.isEnterprise = false) (realm : String) :
    readKey (lookupKey n realm).toList =
      ⟨n.lowered.headD [], n.lowered.tail, (lowercase realm).toList⟩ := by
  rw [toList_lookupKey, hn, if_neg Bool.false_ne_true]
  exact readKey_joined n.lowered (lowercase realm).toList

/-- The enterprise name of a user of the realm `home`. -/
def PrincipalName.enterprise (user home : String) : PrincipalName :=
  ⟨enterpriseKind, [user ++ "@" ++ home]⟩

/-- In the key of an enterprise name, the realm is marked like the rest of its component. -/
theorem toList_lookupKey_enterprise (user home realm : String) :
    (lookupKey (.enterprise user home) realm).toList =
      escapeChars true (lowercase user).toList ++
        '@' :: escapeChars true (lowercase home).toList := by
  have hlowered : (PrincipalName.enterprise user home).lowered =
      [(lowercase user).toList ++ '@' :: (lowercase home).toList] := by
    rw [← toList_lowercase_append_at]
    rfl
  have henterprise : (PrincipalName.enterprise user home).isEnterprise = true := rfl
  have hkept : ∀ cs, escapeChars true ('@' :: cs) = '@' :: escapeChars true cs := fun _ => rfl
  rw [toList_lookupKey, henterprise, if_pos rfl, List.append_nil, hlowered, List.map_singleton,
    List.intercalate_singleton, escapeChars_append, hkept]

/-- The realm in the lookup key of an enterprise name is what stands behind the at sign. -/
theorem readKey_lookupKey_enterprise {user : String} (huser : '@' ∉ user.toList)
    (home realm : String) :
    readKey (lookupKey ⟨PrincipalName.enterpriseKind, [user ++ "@" ++ home]⟩ realm).toList =
      ⟨(lowercase user).toList, [], escapeChars true (lowercase home).toList⟩ := by
  have hat : '@' ∉ (lowercase user).toList := by
    rw [mem_lowercase_iff (.inr (.inr rfl))]
    exact huser
  show readKey (lookupKey (.enterprise user home) realm).toList = _
  rw [toList_lookupKey_enterprise, readKey_escapeChars fun _ => hat, readKey_at,
    KeyParts.prepend_mk, List.append_nil]

/-! ## Realms -/

theorem sameIgnoringCase_of_toList_eq {s t : String}
    (h : (lowercase s).toList = (lowercase t).toList) : sameIgnoringCase s t = true := by
  unfold sameIgnoringCase
  rw [beq_iff_eq]
  exact String.toList_inj.mp h

/-- Names with one lookup key are names of one realm, if neither holds its realm itself. -/
theorem sameIgnoringCase_of_lookupKey_eq {n n' : PrincipalName} (hn : n.isEnterprise = false)
    (hn' : n'.isEnterprise = false) {realm realm' : String}
    (h : lookupKey n realm = lookupKey n' realm') : sameIgnoringCase realm realm' = true := by
  have hparts := readKey_lookupKey hn realm
  rw [h, readKey_lookupKey hn' realm'] at hparts
  exact sameIgnoringCase_of_toList_eq (KeyParts.mk.inj hparts).2.2.symm

/-- An enterprise name has the lookup key of a name of the realm that it holds. -/
theorem sameIgnoringCase_of_lookupKey_enterprise_eq {user home realm realm' : String}
    (huser : '@' ∉ user.toList) (hbackslash : '\\' ∉ home.toList) (hslash : '/' ∉ home.toList)
    {n' : PrincipalName} (hn' : n'.isEnterprise = false)
    (h : lookupKey ⟨PrincipalName.enterpriseKind, [user ++ "@" ++ home]⟩ realm =
      lookupKey n' realm') : sameIgnoringCase realm' home = true := by
  have hhome : escapeChars true (lowercase home).toList = (lowercase home).toList := by
    apply escapeChars_of_unmarked
    · rw [mem_lowercase_iff (.inl rfl)]
      exact hbackslash
    · rw [mem_lowercase_iff (.inr (.inl rfl))]
      exact hslash
  have hparts := readKey_lookupKey_enterprise huser home realm
  rw [h, readKey_lookupKey hn' realm', hhome] at hparts
  exact sameIgnoringCase_of_toList_eq (KeyParts.mk.inj hparts).2.2

end Kerberos
