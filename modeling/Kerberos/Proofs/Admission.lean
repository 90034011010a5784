import Kerberos.Exchange.Service
import Kerberos.Proofs.Exchange
import Kerberos.Proofs.Instant

/-! # Reaching the pre-authentication stage

    The checks ahead of the proof depend on the request, the account and the configuration
    alone.  `Service.Reaches` lists what they ask for.  An exchange that meets all of it
    goes on with the proof; any other ends there, without a word about proofs and without a
    look at the replay cache.  The same is true of everything behind the proof.
-/

namespace Kerberos

/-! ## What is asked of the client and of the options -/

/-- The account may be used at `now`. -/
structure DirectoryEntry.Usable (e : DirectoryEntry) (now : Instant) : Prop where
  enabled : e.disabled = false
  unlocked : e.lockedOut = false
  unexpired : ∀ expiry, e.expiration = some expiry → now ≤ expiry

/-- The realm allows every category of options that is asked for. -/
structure RealmConfig.Permits (c : RealmConfig) (options : KdcOptions) : Prop where
  forwardable : options.contains .forwardable → c.forwardableAllowed
  proxiable : options.contains .proxiable → c.proxiableAllowed
  postdating : options.intersects (.allowPostdate ||| .postdated) → c.postdatedAllowed
  renewable : options.contains .renewable → c.renewableAllowed

theorem admitClient_eq_ok_iff (e : DirectoryEntry) (now : Instant) :
    admitClient e now = .ok () ↔ e.Usable now := by
  have hexpired : e.expiration.any (· < now) = false ↔
      ∀ expiry, e.expiration = some expiry → now ≤ expiry := by
    cases e.expiration <;> simp [Instant.not_lt]
  simp only [admitClient, throw, throwThe, MonadExceptOf.throw, bind, Except.bind,
    ite_error_eq_ok_iff, Bool.not_eq_true, hexpired]
  constructor
  · rintro ⟨henabled, hunlocked, hunexpired, -⟩
    exact ⟨henabled, hunlocked, hunexpired⟩
  · intro h
    exact ⟨h.enabled, h.unlocked, h.unexpired, rfl⟩

theorem admitOptions_eq_ok_iff (c : RealmConfig) (options : KdcOptions) :
    admitOptions c options = .ok () ↔ c.Permits options := by
  simp only [admitOptions, throw, throwThe, MonadExceptOf.throw, bind, Except.bind,
    ite_error_eq_ok_iff, Bool.and_eq_true, Bool.not_eq_true', not_and, Bool.not_eq_false]
  constructor
  · rintro ⟨hforwardable, hproxiable, hpostdating, hrenewable, -⟩
    exact ⟨hforwardable, hproxiable, hpostdating, hrenewable⟩
  · intro h
    exact ⟨h.forwardable, h.proxiable, h.postdating, h.renewable, rfl⟩

/-- Whatever is wrong with the account, it is reported as revoked. -/
theorem admitClient_eq_error {e : DirectoryEntry} {now : Instant} {r : Refusal}
    (h : admitClient e now = .error r) : ∃ why, r = .clientRevoked why := by
  simp only [admitClient, throw, throwThe, MonadExceptOf.throw, bind, Except.bind] at h
  split at h
  · cases h; exact ⟨_, rfl⟩
  split at h
  · cases h; exact ⟨_, rfl⟩
  split at h <;> cases h
  exact ⟨_, rfl⟩

theorem admitClient_refusal {e : DirectoryEntry} {now : Instant} {r : Refusal}
    (h : admitClient e now = .error r) : r.concernsProof = false := by
  obtain ⟨why, rfl⟩ := admitClient_eq_error h
  rfl

theorem admitOptions_refusal {c : RealmConfig} {options : KdcOptions} {r : Refusal}
    (h : admitOptions c options = .error r) : r.concernsProof = false := by
  simp only [admitOptions, throw, throwThe, MonadExceptOf.throw, bind, Except.bind] at h
  split at h
  · cases h; rfl
  split at h
  · cases h; rfl
  split at h
  · cases h; rfl
  split at h <;> cases h
  rfl

theorem negotiateEtype_refusal {c : RealmConfig} {requested : List UInt64} {r : Refusal}
    (h : negotiateEtype c requested = .error r) : r.concernsProof = false := by
  unfold negotiateEtype at h
  split at h <;> cases h
  rfl

/-! ## Looking a principal up -/

namespace Service

open Exchange

theorem find_of_found (s : Service) (role : Role) (name : PrincipalName)
    (absent : Absence → Refusal) {entry : DirectoryEntry}
    (hfound : s.directory name s.config.realm = .ok (some entry))
    (hkeyed : entry.keys.isEmpty = false) (l : Ledger) :
    (s.find role name absent).runOn l = (.ok entry, l.noting (.lookup role name)) := by
  unfold find
  rw [runOn_bind_of_ok (runOn_enter _ _), hfound]
  simp [hkeyed]

/-- A principal that is not found, or has no keys, ends the exchange. -/
theorem find_of_not_found (s : Service) (role : Role) (name : PrincipalName)
    (absent : Absence → Refusal)
    (h : ∀ entry, s.directory name s.config.realm = .ok (some entry) →
      entry.keys.isEmpty = true) (l : Ledger) :
    (∃ why, (s.find role name absent).runOn l =
      (.error (.refused (absent why)), l.noting (.lookup role name))) ∨
    ∃ why, (s.find role name absent).runOn l =
      (.error (.refused (.nullKey why)), l.noting (.lookup role name)) := by
  unfold find
  rw [runOn_bind_of_ok (runOn_enter _ _)]
  split
  · exact .inl ⟨_, rfl⟩
  · exact .inl ⟨_, rfl⟩
  · next entry hfound =>
    simp only [h entry hfound, ↓reduceIte]
    exact .inr ⟨_, runOn_bind_of_error (runOn_refuse _ _)⟩

theorem find_eq_ok {s : Service} {role : Role} {name : PrincipalName}
    {absent : Absence → Refusal} {l l' : Ledger} {entry : DirectoryEntry}
    (h : (s.find role name absent).runOn l = (.ok entry, l')) :
    s.directory name s.config.realm = .ok (some entry) ∧ entry.keys.isEmpty = false ∧
      l' = l.noting (.lookup role name) := by
  by_cases hfound : ∃ other, s.directory name s.config.realm = .ok (some other) ∧
      other.keys.isEmpty = false
  · obtain ⟨other, hother, hkeyed⟩ := hfound
    rw [find_of_found s role name absent hother hkeyed l] at h
    cases h
    exact ⟨hother, hkeyed, rfl⟩
  · have habsent : ∀ other, s.directory name s.config.realm = .ok (some other) →
        other.keys.isEmpty = true := by
      intro other hother
      cases hkeyed : other.keys.isEmpty with
      | true => rfl
      | false => exact absurd ⟨other, hother, hkeyed⟩ hfound
    rcases find_of_not_found s role name absent habsent l with ⟨why, hrun⟩ | ⟨why, hrun⟩
    all_goals
      rw [hrun] at h
      cases h

theorem find_proofless (s : Service) (role : Role) (name : PrincipalName)
    {absent : Absence → Refusal} (habsent : ∀ why, (absent why).concernsProof = false) :
    Proofless (s.find role name absent) := by
  unfold find
  refine .bind (.enter _) fun _ => ?_
  split
  · exact .refuse (habsent _)
  · exact .refuse (habsent _)
  · exact .guard rfl (.pure _)

/-! ## The checks ahead of the proof -/

/-- The exchange comes as far as the pre-authentication stage, and knows `c` by then. -/
structure Reaches (s : Service) (request : AsRequest) (now : Instant) (c : Candidate) :
    Prop where
  version : request.pvno = 5
  negotiated : negotiateEtype s.config request.etypes = .ok c.etype
  realm : sameIgnoringCase request.realm s.config.realm
  named : request.cname = some c.cname
  found : s.directory c.cname s.config.realm = .ok (some c.client)
  keyed : c.client.keys.isEmpty = false
  usable : c.client.Usable now
  permitted : s.config.Permits request.options

/-- There is one client and one encryption type that a request reaches the stage with. -/
theorem Reaches.unique {s : Service} {request : AsRequest} {now : Instant} {c c' : Candidate}
    (h : s.Reaches request now c) (h' : s.Reaches request now c') : c' = c := by
  obtain ⟨etype, cname, client⟩ := c
  obtain ⟨etype', cname', client'⟩ := c'
  have hcname : cname' = cname := Option.some.inj (h'.named.symm.trans h.named)
  subst hcname
  have hclient : client' = client := by simpa using h'.found.symm.trans h.found
  have hetype : etype' = etype := by simpa using h'.negotiated.symm.trans h.negotiated
  rw [hclient, hetype]

theorem version_eq_iff (request : AsRequest) :
    request.pvno.toNat = protocolVersion.toNat ↔ request.pvno = 5 := by
  rw [← UInt32.toNat_inj]
  rfl

/-- Nothing else happens ahead of the proof but the look-up of the client. -/
theorem identify_of_reaches {s : Service} {request : AsRequest} {now : Instant} {c : Candidate}
    (h : s.Reaches request now c) (l : Ledger) :
    (s.identify request now).runOn l = (.ok c, l.noting (.lookup .client c.cname)) := by
  unfold identify
  have hversion := (version_eq_iff request).mpr h.version
  have hclient := (admitClient_eq_ok_iff c.client now).mpr h.usable
  have hoptions := (admitOptions_eq_ok_iff s.config request.options).mpr h.permitted
  have hfind := find_of_found s .client c.cname .unknownClient h.found h.keyed l
  simp only [hversion, ne_eq, not_true_eq_false, ↓reduceIte, h.negotiated, h.realm,
    Bool.not_true, Bool.false_eq_true, h.named]
  rw [runOn_bind_of_ok (runOn_liftM _ _), runOn_bind_of_ok hfind]
  rw [hclient, runOn_bind_of_ok (runOn_liftM _ _)]
  rw [hoptions, runOn_bind_of_ok (runOn_liftM _ _)]
  rfl

theorem identify_eq_ok {s : Service} {request : AsRequest} {now : Instant} {c : Candidate}
    {l l' : Ledger} (h : (s.identify request now).runOn l = (.ok c, l')) :
    s.Reaches request now c := by
  unfold identify at h
  -- Each check in turn either fails, and there is no candidate, or leaves its fact behind.
  by_cases hversion : request.pvno.toNat = protocolVersion.toNat
  case neg =>
    simp only [ne_eq, hversion, not_false_eq_true, ↓reduceIte] at h
    simp [runOn_bind] at h
  simp only [ne_eq, hversion, not_true_eq_false, ↓reduceIte] at h
  obtain ⟨etype, l₁, hetype, h⟩ := runOn_bind_eq_ok_iff.mp h
  cases hrealm : sameIgnoringCase request.realm s.config.realm
  case false =>
    simp [hrealm, runOn_bind] at h
  simp only [hrealm, Bool.not_true, Bool.false_eq_true, ↓reduceIte] at h
  cases hcname : request.cname with
  | none => simp [hcname] at h
  | some cname =>
    simp only [hcname] at h
    obtain ⟨client, l₂, hfind, h⟩ := runOn_bind_eq_ok_iff.mp h
    obtain ⟨_, l₃, hclient, h⟩ := runOn_bind_eq_ok_iff.mp h
    obtain ⟨_, l₄, hoptions, h⟩ := runOn_bind_eq_ok_iff.mp h
    rw [runOn_liftM, Prod.mk.injEq, mapError_eq_ok_iff] at hetype hclient hoptions
    obtain ⟨hfound, hkeyed, -⟩ := find_eq_ok hfind
    cases h
    exact {
      version := (version_eq_iff request).mp hversion
      negotiated := hetype.1
      realm := hrealm
      named := hcname
      found := hfound
      keyed := hkeyed
      usable := (admitClient_eq_ok_iff _ _).mp hclient.1
      permitted := (admitOptions_eq_ok_iff _ _).mp hoptions.1 }

theorem identify_proofless (s : Service) (request : AsRequest) (now : Instant) :
    Proofless (s.identify request now) := by
  unfold identify
  refine .guard rfl (.bind (.liftM fun _ => negotiateEtype_refusal) fun etype => ?_)
  refine .guard rfl ?_
  split
  · refine .bind (find_proofless s .client _ fun _ => rfl) fun client => ?_
    refine .bind (.liftM fun _ => admitClient_refusal) fun _ => ?_
    exact .bind (.liftM fun _ => admitOptions_refusal) fun _ => .pure _
  · exact .refuse rfl

end Service

end Kerberos
