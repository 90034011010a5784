import Kerberos.Exchange.Ledger

/-! # Running parts of an exchange

    An exchange is a computation that starts from a ledger, may fail, and leaves a ledger
    behind in either case.  `Exchange.runOn` is that function.  Each primitive step has one
    equation for it, and the two `bind` lemmas take a run apart without opening the monad.

    Most parts of an exchange leave the replay cache alone, and can refuse the request for
    certain reasons only.  `Exchange.Sparing` says so, and it composes.
-/

namespace Kerberos

/-! ## Decisions -/

section decisions
variable {ε δ α β : Type}

theorem ite_error_eq_ok_iff {c : Prop} [Decidable c] {e : ε} {x : Except ε α} {a : α} :
    (if c then .error e else x) = .ok a ↔ ¬ c ∧ x = .ok a := by
  split <;> simp [*]

theorem ite_ok_eq_ok_iff {c : Prop} [Decidable c] {e : ε} {a b : α} :
    (if c then .ok a else .error e : Except ε α) = .ok b ↔ c ∧ a = b := by
  split <;> simp [*]

theorem except_bind_eq_ok_iff {x : Except ε α} {f : α → Except ε β} {b : β} :
    (x >>= f) = .ok b ↔ ∃ a, x = .ok a ∧ f a = .ok b := by
  cases x <;> simp [bind, Except.bind]

theorem except_bind_eq_error_iff {x : Except ε α} {f : α → Except ε β} {e : ε} :
    (x >>= f) = .error e ↔ x = .error e ∨ ∃ a, x = .ok a ∧ f a = .error e := by
  cases x <;> simp [bind, Except.bind]

theorem except_map_eq_ok_iff {x : Except ε α} {f : α → β} {b : β} :
    x.map f = .ok b ↔ ∃ a, x = .ok a ∧ f a = b := by
  cases x <;> simp [Except.map]

theorem except_map_eq_error_iff {x : Except ε α} {f : α → β} {e : ε} :
    x.map f = .error e ↔ x = .error e := by
  cases x <;> simp [Except.map]

/-- If `f` succeeds on what satisfies `P`, it succeeds on lists of it. -/
theorem except_mapM_list_eq_ok_iff {f : α → Except ε β} {P : α → Prop} {g : α → β}
    (hf : ∀ a b, f a = .ok b ↔ P a ∧ b = g a) {as : List α} {bs : List β} :
    as.mapM f = .ok bs ↔ (∀ a ∈ as, P a) ∧ bs = as.map g := by
  induction as generalizing bs with
  | nil => simp [pure, Except.pure, eq_comm]
  | cons a as ih =>
    rw [List.mapM_cons, except_bind_eq_ok_iff]
    simp only [except_bind_eq_ok_iff, hf, ih, pure, Except.pure, Except.ok.injEq, List.mem_cons,
      forall_eq_or_imp, List.map_cons]
    constructor
    · rintro ⟨_, ⟨hfirst, rfl⟩, _, ⟨hrest, rfl⟩, rfl⟩
      exact ⟨⟨hfirst, hrest⟩, rfl⟩
    · rintro ⟨⟨hfirst, hrest⟩, rfl⟩
      exact ⟨_, ⟨hfirst, rfl⟩, _, ⟨hrest, rfl⟩, rfl⟩

/-- If a list is worked off without a failure, no result is left out. -/
theorem except_mapM_list_eq_ok_iff_filterMap {f : α → Except ε β} {as : List α} {bs : List β} :
    as.mapM f = .ok bs ↔
      (∀ a ∈ as, ∃ b, f a = .ok b) ∧ bs = as.filterMap fun a => (f a).toOption := by
  induction as generalizing bs with
  | nil => simp [pure, Except.pure, eq_comm]
  | cons a as ih =>
    rw [List.mapM_cons, except_bind_eq_ok_iff]
    simp only [except_bind_eq_ok_iff, ih, pure, Except.pure, Except.ok.injEq]
    constructor
    · rintro ⟨b, hb, _, ⟨hall, rfl⟩, rfl⟩
      exact ⟨List.forall_mem_cons.mpr ⟨⟨b, hb⟩, hall⟩, by simp [hb, Except.toOption]⟩
    · rintro ⟨hall, rfl⟩
      obtain ⟨⟨b, hb⟩, hall⟩ := List.forall_mem_cons.mp hall
      exact ⟨b, hb, _, ⟨hall, rfl⟩, by simp [hb, Except.toOption]⟩

/-- A list fails as the first of its members that fails does. -/
theorem except_mapM_list_eq_error_iff {f : α → Except ε β} {as : List α} {e : ε} :
    as.mapM f = .error e ↔ ∃ before a after, as = before ++ a :: after ∧
      (∀ a' ∈ before, ∃ b, f a' = .ok b) ∧ f a = .error e := by
  induction as with
  | nil => simp [pure, Except.pure]
  | cons a as ih =>
    rw [List.mapM_cons, except_bind_eq_error_iff]
    simp only [except_bind_eq_error_iff, ih, pure, Except.pure, reduceCtorEq, and_false,
      exists_false, or_false]
    constructor
    · rintro (ha | ⟨b, hb, before, a', after, rfl, hbefore, ha'⟩)
      · exact ⟨[], a, as, rfl, by simp, ha⟩
      · exact ⟨a :: before, a', after, rfl, List.forall_mem_cons.mpr ⟨⟨b, hb⟩, hbefore⟩, ha'⟩
    · rintro ⟨before, a', after, has, hbefore, ha'⟩
      cases before with
      | nil =>
        obtain ⟨rfl, rfl⟩ := List.cons.inj has
        exact .inl ha'
      | cons first before =>
        obtain ⟨rfl, rfl⟩ := List.cons.inj has
        obtain ⟨⟨b, hb⟩, hbefore⟩ := List.forall_mem_cons.mp hbefore
        exact .inr ⟨b, hb, before, a', after, rfl, hbefore, ha'⟩

theorem except_mapM_option_eq_ok_iff {f : α → Except ε β} {P : α → Prop} {g : α → β}
    (hf : ∀ a b, f a = .ok b ↔ P a ∧ b = g a) {o : Option α} {o' : Option β} :
    o.mapM f = .ok o' ↔ (∀ a, o = some a → P a) ∧ o' = o.map g := by
  cases o with
  | none => simp [pure, Except.pure, eq_comm]
  | some a =>
    rw [Option.mapM_some, map_eq_pure_bind, except_bind_eq_ok_iff]
    simp only [hf, pure, Except.pure, Except.ok.injEq, Option.some.injEq, forall_eq',
      Option.map_some]
    constructor
    · rintro ⟨_, ⟨ha, rfl⟩, rfl⟩
      exact ⟨ha, rfl⟩
    · rintro ⟨ha, rfl⟩
      exact ⟨_, ⟨ha, rfl⟩, rfl⟩

@[simp] theorem mapError_ok (f : ε → δ) (a : α) : (Except.ok a).mapError f = .ok a := rfl

@[simp] theorem mapError_error (f : ε → δ) (e : ε) :
    (Except.error e : Except ε α).mapError f = .error (f e) := rfl

theorem mapError_eq_ok_iff {f : ε → δ} {x : Except ε α} {a : α} :
    x.mapError f = .ok a ↔ x = .ok a := by
  cases x <;> simp

theorem mapError_eq_error_iff {f : ε → δ} {x : Except ε α} {d : δ} :
    x.mapError f = .error d ↔ ∃ e, x = .error e ∧ f e = d := by
  cases x <;> simp

end decisions

/-! ## Ledgers -/

/-- The ledger with a call added at the end. -/
def Ledger.noting (l : Ledger) (call : Call) : Ledger := { l with calls := l.calls ++ [call] }

@[simp] theorem Ledger.noting_cache (l : Ledger) (call : Call) :
    (l.noting call).cache = l.cache := rfl

@[simp] theorem Ledger.noting_calls (l : Ledger) (call : Call) :
    (l.noting call).calls = l.calls ++ [call] := rfl

namespace Exchange

/-- What a part of an exchange comes to when it starts from the ledger `l`. -/
def runOn {α : Type} (x : Exchange α) (l : Ledger) : Except (Failure Refusal) α × Ledger :=
  (ExceptT.run x).run l

/-! ## Primitive steps -/

section steps
variable {α β : Type}

@[simp] theorem runOn_pure (a : α) (l : Ledger) : runOn (pure a) l = (.ok a, l) := rfl

@[simp] theorem runOn_refuse (r : Refusal) (l : Ledger) :
    runOn (refuse r : Exchange α) l = (.error (.refused r), l) := rfl

@[simp] theorem runOn_throw (e : Failure Refusal) (l : Ledger) :
    runOn (throw e : Exchange α) l = (.error e, l) := rfl

@[simp] theorem runOn_get (l : Ledger) : runOn (get : Exchange Ledger) l = (.ok l, l) := rfl

@[simp] theorem runOn_enter (call : Call) (l : Ledger) :
    runOn (enter call) l = (.ok (), l.noting call) := rfl

@[simp] theorem runOn_checkReplay (record : ReplayRecord) (now : Instant) (l : Ledger) :
    runOn (checkReplay record now) l =
      (.ok (l.cache.check record now).1, { l with cache := (l.cache.check record now).2 }) := rfl

/-- A decision that touches nothing, made within an exchange. -/
@[simp] theorem runOn_liftM (decision : Except Refusal α) (l : Ledger) :
    runOn (liftM decision : Exchange α) l = (decision.mapError .refused, l) := by
  cases decision <;> rfl

theorem runOn_bind (x : Exchange α) (f : α → Exchange β) (l : Ledger) :
    runOn (x >>= f) l =
      match runOn x l with
      | (.ok a, l') => runOn (f a) l'
      | (.error e, l') => (.error e, l') := by
  simp only [runOn, ExceptT.run, StateT.run]
  simp only [bind, ExceptT.bind, ExceptT.mk, StateT.bind, ExceptT.bindCont]
  cases x l with
  | mk result l' => cases result <;> rfl

theorem runOn_bind_of_ok {x : Exchange α} {f : α → Exchange β} {l l' : Ledger} {a : α}
    (h : runOn x l = (.ok a, l')) : runOn (x >>= f) l = runOn (f a) l' := by
  rw [runOn_bind, h]

theorem runOn_bind_of_error {x : Exchange α} {f : α → Exchange β} {l l' : Ledger}
    {e : Failure Refusal} (h : runOn x l = (.error e, l')) :
    runOn (x >>= f) l = (.error e, l') := by
  rw [runOn_bind, h]

theorem runOn_bind_eq_ok_iff {x : Exchange α} {f : α → Exchange β} {l l'' : Ledger} {b : β} :
    runOn (x >>= f) l = (.ok b, l'') ↔
      ∃ a l', runOn x l = (.ok a, l') ∧ runOn (f a) l' = (.ok b, l'') := by
  rw [runOn_bind]
  rcases runOn x l with ⟨e | a, l'⟩
  · simp
  · constructor
    · intro h
      exact ⟨a, l', rfl, h⟩
    · rintro ⟨_, _, heq, h⟩
      cases heq
      exact h

/-- What fails, fails in the first part or in the second. -/
theorem error_of_runOn_bind {x : Exchange α} {f : α → Exchange β} {l : Ledger}
    {e : Failure Refusal} (h : (runOn (x >>= f) l).1 = .error e) :
    (runOn x l).1 = .error e ∨
      ∃ a l', runOn x l = (.ok a, l') ∧ (runOn (f a) l').1 = .error e := by
  rcases hrun : runOn x l with ⟨e' | a, l'⟩
  · rw [runOn_bind_of_error hrun] at h
    cases h
    exact .inl rfl
  · rw [runOn_bind_of_ok hrun] at h
    exact .inr ⟨a, l', rfl, h⟩

end steps

/-! ## Calls to the cipher -/

theorem runOn_drawKey (c : Cipher) (etype : EncryptionType) (l : Ledger) :
    runOn (drawKey c etype) l =
      ((c.randomKey (l.calls.countP Call.isRandomKey) etype).mapError
        (fun cause => .refused (.internal (.sessionKey cause))), l.noting (.randomKey etype)) := by
  unfold drawKey
  rw [runOn_bind_of_ok (runOn_get l), runOn_bind_of_ok (runOn_enter _ _)]
  cases c.randomKey (l.calls.countP Call.isRandomKey) etype <;> rfl

theorem runOn_drawKey_eq_ok {c : Cipher} {etype : EncryptionType} {l l' : Ledger}
    {key : EncryptionKey} (h : runOn (drawKey c etype) l = (.ok key, l')) :
    c.randomKey (l.calls.countP Call.isRandomKey) etype = .ok key ∧
      l' = l.noting (.randomKey etype) := by
  rw [runOn_drawKey] at h
  cases hkey : c.randomKey (l.calls.countP Call.isRandomKey) etype with
  | error cause => simp [hkey] at h
  | ok drawn =>
    rw [hkey] at h
    cases h
    exact ⟨rfl, rfl⟩

/-- A message that could be written is encrypted, and the call is entered whatever comes of it. -/
theorem runOn_encrypt_of_written (c : Cipher) (key : EncryptionKey) (usage : Int32)
    (plaintext : Octets) (fault : CipherError → InternalFault) (l : Ledger) :
    runOn (encrypt c key usage (.ok plaintext) fault) l =
      ((c.encrypt (l.calls.countP Call.isEncrypt) key usage plaintext).mapError
        (fun cause => .refused (.internal (fault cause))),
        l.noting (.encrypt key usage plaintext)) := by
  unfold encrypt
  rw [runOn_bind_of_ok (runOn_get l), runOn_bind_of_ok (runOn_enter _ _)]
  simp only [Cipher.sealMessage]
  cases c.encrypt (l.calls.countP Call.isEncrypt) key usage plaintext <;> rfl

/-- A message that could not be written ends the exchange, and no call is made. -/
theorem runOn_encrypt_of_unwritten (c : Cipher) (key : EncryptionKey) (usage : Int32)
    (failure : Failure WireError) (fault : CipherError → InternalFault) (l : Ledger) :
    runOn (encrypt c key usage (.error failure) fault) l =
      (.error (failure.map fun cause => .internal (fault (.wire cause))), l) := by
  unfold encrypt
  rw [runOn_bind_of_ok (runOn_get l)]
  cases failure <;> rfl

theorem runOn_encrypt_eq_ok {c : Cipher} {key : EncryptionKey} {usage : Int32}
    {message : Written} {fault : CipherError → InternalFault} {l l' : Ledger}
    {data : EncryptedData} (h : runOn (encrypt c key usage message fault) l = (.ok data, l')) :
    ∃ plaintext, message = .ok plaintext ∧
      c.encrypt (l.calls.countP Call.isEncrypt) key usage plaintext = .ok data ∧
      l' = l.noting (.encrypt key usage plaintext) := by
  cases message with
  | error failure => simp [runOn_encrypt_of_unwritten] at h
  | ok plaintext =>
    rw [runOn_encrypt_of_written] at h
    cases hdata : c.encrypt (l.calls.countP Call.isEncrypt) key usage plaintext with
    | error cause => simp [hdata] at h
    | ok sealed =>
      rw [hdata] at h
      cases h
      exact ⟨plaintext, rfl, hdata, rfl⟩

end Exchange

/-! ## Parts that spare the replay cache -/

namespace Exchange

/-- The part does not touch the replay cache, and refuses only with what is `allowed`. -/
structure Sparing {α : Type} (allowed : Refusal → Prop) (x : Exchange α) : Prop where
  cache_eq : ∀ l, (runOn x l).2.cache = l.cache
  refusal : ∀ l r, (runOn x l).1 = .error (.refused r) → allowed r

namespace Sparing
variable {α β : Type} {allowed : Refusal → Prop}

theorem pure (a : α) : Sparing allowed (Pure.pure a : Exchange α) :=
  ⟨fun _ => rfl, fun _ _ h => by simp at h⟩

theorem refuse {r : Refusal} (h : allowed r) :
    Sparing allowed (Exchange.refuse r : Exchange α) := by
  refine ⟨fun _ => rfl, fun _ _ hr => ?_⟩
  cases hr
  exact h

theorem enter (call : Call) : Sparing allowed (Exchange.enter call) :=
  ⟨fun _ => rfl, fun _ _ h => by simp at h⟩

theorem bind {x : Exchange α} {f : α → Exchange β} (hx : Sparing allowed x)
    (hf : ∀ a, Sparing allowed (f a)) : Sparing allowed (x >>= f) := by
  refine ⟨fun l => ?_, fun l r hr => ?_⟩
  · have hcache := hx.cache_eq l
    rcases hrun : runOn x l with ⟨e | a, l'⟩
    · rw [runOn_bind_of_error hrun]
      rw [hrun] at hcache
      exact hcache
    · rw [runOn_bind_of_ok hrun, (hf a).cache_eq]
      rw [hrun] at hcache
      exact hcache
  · rcases hrun : runOn x l with ⟨e | a, l'⟩
    · rw [runOn_bind_of_error hrun] at hr
      cases hr
      exact hx.refusal l r (by rw [hrun])
    · rw [runOn_bind_of_ok hrun] at hr
      exact (hf a).refusal l' r hr

/-- Nothing that stands behind a refusal matters. -/
theorem refuse_bind {r : Refusal} (h : allowed r) (f : α → Exchange β) :
    Sparing allowed (Exchange.refuse r >>= f) := by
  refine ⟨fun l => ?_, fun l r' hr => ?_⟩
  · rw [runOn_bind_of_error (runOn_refuse r l)]
  · rw [runOn_bind_of_error (runOn_refuse r l)] at hr
    cases hr
    exact h

theorem liftM {decision : Except Refusal α} (h : ∀ r, decision = .error r → allowed r) :
    Sparing allowed (MonadLiftT.monadLift decision : Exchange α) := by
  cases decision with
  | ok a => exact pure a
  | error r => exact refuse (h r rfl)

/-- A check that ends the exchange when its condition holds. -/
theorem guard {c : Prop} [Decidable c] {r : Refusal} {rest : Exchange α} (hr : allowed r)
    (hrest : Sparing allowed rest) :
    Sparing allowed (if c then (Exchange.refuse r >>= fun _ : Unit => rest) else rest) := by
  split
  · exact refuse_bind hr _
  · exact hrest

theorem drawKey (c : Cipher) (etype : EncryptionType) (h : ∀ why, allowed (.internal why)) :
    Sparing allowed (Exchange.drawKey c etype) := by
  refine ⟨fun l => by rw [runOn_drawKey]; rfl, fun l r hr => ?_⟩
  rw [runOn_drawKey] at hr
  cases hkey : c.randomKey (l.calls.countP Call.isRandomKey) etype <;>
    simp only [hkey, mapError_ok, mapError_error] at hr <;> cases hr
  exact h _

theorem encrypt (c : Cipher) (key : EncryptionKey) (usage : Int32) (message : Written)
    (fault : CipherError → InternalFault) (h : ∀ why, allowed (.internal why)) :
    Sparing allowed (Exchange.encrypt c key usage message fault) := by
  cases message with
  | error failure =>
    refine ⟨fun l => by rw [runOn_encrypt_of_unwritten], fun l r hr => ?_⟩
    rw [runOn_encrypt_of_unwritten] at hr
    cases failure <;> cases hr
    exact h _
  | ok plaintext =>
    refine ⟨fun l => by rw [runOn_encrypt_of_written]; rfl, fun l r hr => ?_⟩
    rw [runOn_encrypt_of_written] at hr
    cases hdata : c.encrypt (l.calls.countP Call.isEncrypt) key usage plaintext <;>
      simp only [hdata, mapError_ok, mapError_error] at hr <;> cases hr
    exact h _

end Sparing
end Exchange

/-! ## Parts that have nothing to do with proofs of identity -/

/-- The refusal is about the proof that the client gave or has to give. -/
def Refusal.concernsProof : Refusal → Bool
  | preAuthRequired _ => true
  | preAuthFailed _ => true
  | badIntegrity _ => true
  | _ => false

/-- The part neither consults the replay cache nor refuses anything because of a proof. -/
abbrev Exchange.Proofless {α : Type} (x : Exchange α) : Prop :=
  x.Sparing fun r => r.concernsProof = false

end Kerberos
