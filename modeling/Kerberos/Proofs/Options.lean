import Kerberos.Exchange.Service

/-! # Options that nothing looks at

    A request carries 32 option bits, and the decisions of an exchange look at eleven of them
    (`KdcOptions.considered`).  Two words of options that agree there (`KdcOptions.Agree`) are
    the same to every decision, and so to the whole exchange: it is one and the same
    computation, whatever it comes to and whatever ledger it starts from.
-/

namespace Kerberos

namespace KdcOptions

theorem ext {a b : KdcOptions} (h : a.bits = b.bits) : a = b := by
  cases a
  cases b
  cases h
  rfl

theorem and_assoc (a b c : KdcOptions) : a &&& b &&& c = a &&& (b &&& c) :=
  ext (UInt32.and_assoc a.bits b.bits c.bits)

theorem and_comm (a b : KdcOptions) : a &&& b = b &&& a :=
  ext (UInt32.and_comm a.bits b.bits)

theorem and_empty (a : KdcOptions) : a &&& empty = empty :=
  ext UInt32.and_zero

theorem or_empty (a : KdcOptions) : a ||| empty = a :=
  ext UInt32.or_zero

theorem or_and_distrib (a b c : KdcOptions) : (a ||| b) &&& c = a &&& c ||| b &&& c := by
  apply ext
  apply UInt32.eq_of_toBitVec_eq
  exact BitVec.and_or_distrib_right

theorem or_and_self (a b : KdcOptions) : (a ||| b) &&& b = b := by
  apply ext
  apply UInt32.eq_of_toBitVec_eq
  show (a.bits.toBitVec ||| b.bits.toBitVec) &&& b.bits.toBitVec = b.bits.toBitVec
  ext i
  simpa using Or.inr

/-- An option that has been set is there. -/
theorem contains_or_self (options wanted : KdcOptions) :
    (options ||| wanted).contains wanted = true :=
  beq_iff_eq.mpr (or_and_self options wanted)

/-- An option that has been set makes no difference to who looks for others. -/
theorem contains_or_of_apart {added wanted : KdcOptions} (h : added &&& wanted = empty)
    (options : KdcOptions) : (options ||| added).contains wanted = options.contains wanted := by
  unfold contains
  rw [or_and_distrib, h, or_empty]

/-- Options that are all set meet any others that they share a bit with. -/
theorem intersects_of_contains {options wanted others : KdcOptions}
    (h : options.contains wanted = true) (hshared : wanted.intersects others = true) :
    options.intersects others = true := by
  have hwanted : options &&& wanted = wanted := beq_iff_eq.mp h
  unfold intersects at hshared ⊢
  rw [bne_iff_ne] at hshared ⊢
  intro hnone
  apply hshared
  calc wanted &&& others = wanted &&& options &&& others := by rw [and_comm wanted options, hwanted]
    _ = wanted &&& (options &&& others) := and_assoc wanted options others
    _ = empty := by rw [hnone, and_empty]

/-! ## Options that are looked at -/

/-- The options that some decision of the initial exchange looks at. -/
def considered : KdcOptions :=
  forwardable ||| proxiable ||| allowPostdate ||| postdated ||| renewable ||| renewableOk
    ||| tgsOnly

/-- The words have the same bits where a decision might look. -/
def Agree (a b : KdcOptions) : Prop := a &&& considered = b &&& considered

namespace Agree
variable {a b : KdcOptions}

/-- What is among the bits that are considered is seen alike. -/
theorem and_eq (h : a.Agree b) (mask : KdcOptions) (hmask : considered &&& mask = mask) :
    a &&& mask = b &&& mask := by
  calc a &&& mask = a &&& considered &&& mask := by rw [and_assoc, hmask]
    _ = b &&& considered &&& mask := by rw [show a &&& considered = b &&& considered from h]
    _ = b &&& mask := by rw [and_assoc, hmask]

theorem contains_eq (h : a.Agree b) (wanted : KdcOptions)
    (hwanted : considered &&& wanted = wanted) : a.contains wanted = b.contains wanted := by
  unfold contains
  rw [h.and_eq wanted hwanted]

theorem intersects_eq (h : a.Agree b) (others : KdcOptions)
    (hothers : considered &&& others = others) : a.intersects others = b.intersects others := by
  unfold intersects
  rw [h.and_eq others hothers]

end Agree

end KdcOptions

/-! ## Decisions -/

theorem admitOptions_of_agree (c : RealmConfig) {options options' : KdcOptions}
    (h : options.Agree options') : admitOptions c options = admitOptions c options' := by
  unfold admitOptions
  rw [h.contains_eq .forwardable rfl, h.contains_eq .proxiable rfl,
    h.intersects_eq (.allowPostdate ||| .postdated) rfl, h.contains_eq .renewable rfl]

section decisions
variable {request : RequestBody} {options : KdcOptions}

/-- The start of a ticket depends on one option only. -/
theorem Validity.chooseStart_congr (c : RealmConfig) (now : Instant)
    (h : options.contains .postdated = request.options.contains .postdated) :
    chooseStart c { request with options } now = chooseStart c request now := by
  unfold chooseStart
  simp only [h]

theorem Validity.asked_congr
    (h : options.contains .renewable = request.options.contains .renewable) :
    wantedRenewal.asked { request with options } = wantedRenewal.asked request := by
  unfold wantedRenewal.asked
  simp only [h]

theorem Validity.wantedRenewal_of_agree (c : RealmConfig) (endTime : Instant)
    (h : options.Agree request.options) :
    wantedRenewal c { request with options } endTime = wantedRenewal c request endTime := by
  unfold wantedRenewal
  simp only [asked_congr (h.contains_eq .renewable rfl), h.contains_eq .renewableOk rfl]

theorem Validity.choose_of_agree (c : RealmConfig) (now : Instant)
    (h : options.Agree request.options) :
    choose c { request with options } now = choose c request now := by
  unfold choose
  simp only [chooseStart_congr c now (h.contains_eq .postdated rfl),
    wantedRenewal_of_agree c _ h]
  rfl

theorem grantedFlags_of_agree {options' : KdcOptions} (h : options.Agree options')
    (validity : Validity) (preAuthenticated : Bool) :
    grantedFlags options validity preAuthenticated =
      grantedFlags options' validity preAuthenticated := by
  unfold grantedFlags
  rw [h.contains_eq .forwardable rfl, h.contains_eq .proxiable rfl,
    h.contains_eq .allowPostdate rfl]

end decisions

/-! ## The exchange -/

namespace Service
variable {request : AsRequest} {options : KdcOptions}

theorem identify_of_agree (s : Service) (now : Instant) (h : options.Agree request.options) :
    s.identify { request with options } now = s.identify request now := by
  unfold identify
  simp only [admitOptions_of_agree s.config h]

theorem issueTicket_of_agree (s : Service) {request : RequestBody} (now : Instant)
    (etype : EncryptionType) (cname sname : PrincipalName) (server : DirectoryEntry)
    (preAuthenticated : Bool) (h : options.Agree request.options) :
    s.issueTicket { request with options } now etype cname sname server preAuthenticated =
      s.issueTicket request now etype cname sname server preAuthenticated := by
  unfold issueTicket
  simp only [h.intersects_eq .tgsOnly rfl, h.and_eq .tgsOnly rfl,
    Validity.choose_of_agree s.config now h, grantedFlags_of_agree h]
  rfl

theorem grant_of_agree (s : Service) (now : Instant) (a : Admitted)
    (h : options.Agree request.options) :
    s.grant { request with options } now a = s.grant request now a := by
  have hissue : ∀ sname server,
      s.issueTicket { request.toRequestBody with options } now a.etype a.cname sname server
        a.outcome.preAuthenticated =
      s.issueTicket request.toRequestBody now a.etype a.cname sname server
        a.outcome.preAuthenticated := by
    intro sname server
    exact s.issueTicket_of_agree now a.etype a.cname sname server _ h
  unfold grant
  simp only [hissue]
  rfl

/-- Requests whose options agree where it matters are handled alike. -/
theorem handle_of_agree (s : Service) (clock : Instant) (h : options.Agree request.options) :
    s.handle clock { request with options } = s.handle clock request := by
  unfold handle admitRequest
  simp only [s.identify_of_agree _ h, s.grant_of_agree _ _ h]
  rfl

end Service

end Kerberos
