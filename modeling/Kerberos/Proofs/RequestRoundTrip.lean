import Kerberos.Proofs.Echo

/-! # Requests are read back

    A client may write one request in several ways: with or without the members that are
    empty, the nonce as a number or as its four octets, and any negative numbers among the
    encryption types (`RequestForm`).  Whichever way it is written, what is read is the
    request itself.

    The octets of a request are given in closed form first (`bodyOctets`, `requestOctets`),
    then what is found in them (`foundBody`), and the values that were found pass their
    checks.
-/

namespace Kerberos

open Asn1

/-- A request body that the wire has a form for: names and realm are ASCII, times are whole
    seconds from year 0 on, and an end that is wanted is not the one that stands for none. -/
structure RequestBody.Carriable (b : RequestBody) : Prop extends b.Writable where
  realm : IsAscii b.realm
  startSecond : ∀ t, b.start = some t → t.wholeSecond = t
  tillSecond : ∀ t, b.till = some t → t.wholeSecond = t ∧ t ≠ Instant.epoch
  rtimeSecond : ∀ t, b.rtime = some t → t.wholeSecond = t ∧ t ≠ Instant.epoch
  etypes : ∀ n ∈ b.etypes, n.toNat < 2 ^ 63

namespace RequestForm

/-- The form lists the given encryption types in their order, with negative numbers anywhere
    among them. -/
def Lists (form : RequestForm) (etypes : List UInt64) : Prop :=
  form.etypes.filter (fun n => 0 ≤ n.toInt) = etypes.map UInt64.toInt64

/-- The end of renewals that is written. -/
def rtime (form : RequestForm) (b : RequestBody) : Option Instant :=
  if form.rtimeAlways then some (b.rtime.getD Instant.epoch) else b.rtime

/-- The contents of the INTEGER that the nonce is written as. -/
def nonce (form : RequestForm) (b : RequestBody) : Octets :=
  if form.nonceInFull then octetsOfWord b.nonce else Integer.ofWord b.nonce

end RequestForm

namespace Wire

/-! ## Values that have more than one form -/

/-- Of the numbers that are written, those from 0 on are found. -/
theorem etypes_ofInt64 (numbers : List Int64) :
    etypes (numbers.map Integer.ofInt64) =
      (numbers.filter fun n => 0 ≤ n.toInt).map Int64.toUInt64 := by
  induction numbers with
  | nil => rfl
  | cons n numbers ih =>
    unfold etypes at ih ⊢
    rw [List.map_cons, List.filterMap_cons, Integer.toInt64?_ofInt64, ih, List.filter_cons]
    by_cases hsign : 0 ≤ n.toInt
    · simp [hsign]
    · simp [hsign]

theorem etypes_of_lists {form : RequestForm} {numbers : List UInt64} (h : form.Lists numbers) :
    etypes (form.etypes.map Integer.ofInt64) = numbers := by
  rw [etypes_ofInt64, h, List.map_map]
  exact List.map_id _

theorem nonce_of_form (form : RequestForm) (b : RequestBody) :
    nonce (form.nonce b) = .ok b.nonce := by
  unfold RequestForm.nonce
  split
  · exact nonce_octetsOfWord b.nonce
  · exact nonce_ofWord b.nonce

theorem specifiedInstant_civil (field : String) (t : Instant) :
    specifiedInstant field t.civil =
      .ok (if t.wholeSecond = Instant.epoch then none else some t.wholeSecond) := by
  unfold specifiedInstant
  rw [instant_civil]
  rfl

/-- A time that is not given is written as the one that stands for it. -/
theorem specifiedInstant_getD (field : String) {o : Option Instant}
    (h : ∀ t, o = some t → t.wholeSecond = t ∧ t ≠ Instant.epoch) :
    specifiedInstant field (o.getD Instant.epoch).civil = .ok o := by
  rw [specifiedInstant_civil]
  cases o with
  | none => rfl
  | some t =>
    obtain ⟨hsecond, hepoch⟩ := h t rfl
    rw [Option.getD_some, hsecond, if_neg hepoch]

theorem rtime_of_form (form : RequestForm) {b : RequestBody}
    (h : ∀ t, b.rtime = some t → t.wholeSecond = t ∧ t ≠ Instant.epoch) :
    ∃ found, ((form.rtime b).map Instant.civil).mapM (specifiedInstant "rtime") = .ok found ∧
      found.join = b.rtime := by
  unfold RequestForm.rtime
  cases form.rtimeAlways with
  | true =>
    refine ⟨some b.rtime, ?_, rfl⟩
    show (some (b.rtime.getD Instant.epoch).civil).mapM (specifiedInstant "rtime") = _
    rw [Option.mapM_some, specifiedInstant_getD "rtime" h]
    rfl
  | false =>
    cases hrtime : b.rtime with
    | none => exact ⟨none, rfl, rfl⟩
    | some t =>
      obtain ⟨hsecond, hepoch⟩ := h t hrtime
      refine ⟨some (some t), ?_, rfl⟩
      show (some t.civil).mapM (specifiedInstant "rtime") = _
      rw [Option.mapM_some, specifiedInstant_civil, hsecond, if_neg hepoch]
      rfl

/-! ## The body -/

/-- The octets of a request body. -/
def bodyOctets (form : RequestForm) (b : RequestBody) : Octets :=
  sequenceOf [
    explicit 0 (bitString b.options.bits), explicit? 1 (b.cname.map numberedNameOctets),
    explicit 2 (generalString (asciiOctets b.realm)),
    explicit? 3 (b.sname.map numberedNameOctets), explicit? 4 (b.start.map timeOctets),
    explicit 5 (timeOctets (b.till.getD Instant.epoch)),
    explicit? 6 ((form.rtime b).map timeOctets), explicit 7 (integer (form.nonce b)),
    explicit 8 (sequenceOf (form.etypes.map fun n => integer (Integer.ofInt64 n))),
    explicit? 9 (b.addresses.map addresses)]

theorem getD_expressible {o : Option Instant} (h : ∀ t, o = some t → t.Expressible) :
    (o.getD Instant.epoch).Expressible := by
  cases o with
  | none => exact (Instant.expressible_iff _).mpr (by decide)
  | some t => exact h t rfl

theorem rtime_expressible (form : RequestForm) {b : RequestBody}
    (h : ∀ t, b.rtime = some t → t.Expressible) :
    ∀ t, form.rtime b = some t → t.Expressible := by
  unfold RequestForm.rtime
  split
  · intro t ht
    cases ht
    exact getD_expressible h
  · exact h

theorem mapM_numberedName {o : Option PrincipalName} (h : ∀ n, o = some n → n.IsAscii) :
    o.mapM (m := Checked) numberedName = .ok (o.map numberedNameOctets) := by
  cases o with
  | none => rfl
  | some n =>
    rw [Option.mapM_some, numberedName_eq_ok (h n rfl)]
    rfl

theorem requestBody_eq_ok {form : RequestForm} {b : RequestBody} (h : b.Carriable) :
    requestBody form b = .ok (bodyOctets form b) := by
  have hrealm : realm b.realm = .ok (generalString (asciiOctets b.realm)) :=
    string_eq_ok_iff.mpr ⟨h.realm, rfl⟩
  have hstart : b.start.mapM time = .ok (b.start.map timeOctets) :=
    mapM_time_eq_ok_iff.mpr ⟨h.start, rfl⟩
  have htill := time_of_expressible (getD_expressible h.till)
  have hrtime : (form.rtime b).mapM time = .ok ((form.rtime b).map timeOctets) :=
    mapM_time_eq_ok_iff.mpr ⟨rtime_expressible form h.rtime, rfl⟩
  unfold RequestForm.rtime at hrtime
  unfold requestBody
  rw [mapM_numberedName h.cname, mapM_numberedName h.sname, hrealm, hstart, htill, hrtime]
  rfl

/-- What is found in the octets of a request body. -/
def foundBody (form : RequestForm) (b : RequestBody) : ReceivedBody :=
  { options := 0x00 :: octetsOfWord b.options.bits
    cname := b.cname.map .ok
    realm := b.realm
    sname := b.sname.map .ok
    start := b.start.map Instant.civil
    till := (b.till.getD Instant.epoch).civil
    rtime := (form.rtime b).map Instant.civil
    nonce := form.nonce b
    etypes := form.etypes.map Integer.ofInt64
    addresses := b.addresses.map .ok }

theorem requestBodyReader_reads (form : RequestForm) {b : RequestBody} (h : b.Carriable)
    (tags : List UInt8) :
    requestBodyReader.Reads tags (wrap tags (bodyOctets form b)) (foundBody form b) := by
  have hnumber : ∀ n ∈ form.etypes, buffer.Reads [] (integer (Integer.ofInt64 n))
      (Integer.ofInt64 n) ∧ integer (Integer.ofInt64 n) ≠ [] := by
    intro n _
    exact ⟨buffer_reads (by simp) rfl _, element_ne_nil _ _⟩
  have hetypes : (Reader.sequenceOf buffer).Reads [0xa0 + 8]
      (explicit 8 (sequenceOf (form.etypes.map fun n => integer (Integer.ofInt64 n))))
      (form.etypes.map Integer.ofInt64) := Reader.Reads.sequenceOf hnumber [0xa0 + 8]
  apply Reader.Reads.sequence
  apply field_reads (buffer_field rfl 0 _)
  -- Names and the wanted start may be missing, and a field that may not be follows each.
  apply optional_field_reads (fun n hn => nameReader_reads_numbered (h.cname n hn))
    (Reader.Skips.sequence _) (differs_explicit (by decide) _ _)
  apply field_reads (stringReader_reads (by simp) h.realm)
  apply optional_field_reads (fun n hn => nameReader_reads_numbered (h.sname n hn))
    (Reader.Skips.sequence _)
    (differs_explicit? (by decide) _ (differs_explicit (by decide) _ _))
  apply optional_time_reads h.start (by decide)
  apply field_reads (timeReader_reads (by simp) (getD_expressible h.till))
  apply optional_time_reads (rtime_expressible form h.rtime) (by decide)
  apply field_reads (buffer_field rfl 7 _)
  apply field_reads hetypes
  apply trailing_reads (fun as _ => addressesReader_reads as)
  -- Clients send neither authorization data nor further tickets.
  apply Fields.Reads.bind (w := []) (Fields.Reads.trailing_nil encryptedDataReader 10)
  apply (Fields.Reads.trailing_nil (Reader.sequenceOf ticketReader) 11).finish
  rfl

/-- What is found passes its checks, and is the body that was written. -/
theorem foundBody_check {form : RequestForm} {b : RequestBody} (h : b.Carriable)
    (hform : form.Lists b.etypes) : (foundBody form b).check = .ok b := by
  have hstart : (b.start.map Instant.civil).mapM (instant "from") = .ok b.start := by
    rw [mapM_instant]
    cases hstart : b.start with
    | none => rfl
    | some t => rw [Option.map_some, h.startSecond t hstart]
  have htill := specifiedInstant_getD "till" h.tillSecond
  obtain ⟨rtime, hrtime, hjoin⟩ := rtime_of_form form h.rtimeSecond
  simp only [ReceivedBody.check, foundBody, mapM_id_some_ok, hstart, htill, hrtime,
    nonce_of_form, word_bitString, etypes_of_lists hform, bind, Except.bind, hjoin]
  rfl

/-! ## The request -/

/-- The pre-authentication data that is written. -/
def paDataWritten (form : RequestForm) (r : AsRequest) : Option (List PaData) :=
  if r.padata.isEmpty && !form.padataAlways then none else some r.padata

theorem membersUnlessNone_paData (form : RequestForm) (r : AsRequest) :
    membersUnlessNone form.padataAlways (r.padata.map paData) =
      (paDataWritten form r).map fun ps => sequenceOf (ps.map paData) := by
  unfold membersUnlessNone paDataWritten
  rw [List.isEmpty_map]
  split <;> rfl

/-- The octets of a request. -/
def requestOctets (form : RequestForm) (r : AsRequest) : Octets :=
  application 10 <| sequenceOf [
    explicit 1 (integer (Integer.ofWord r.pvno)), explicit 2 (integer [requestType]),
    explicit? 3 ((paDataWritten form r).map fun ps => sequenceOf (ps.map paData)),
    explicit 4 (bodyOctets form r.toRequestBody)]

theorem request_eq_ok {form : RequestForm} {r : AsRequest} (h : r.Carriable) :
    r.write form = .ok (requestOctets form r) := by
  unfold AsRequest.write
  rw [requestBody_eq_ok h, membersUnlessNone_paData]
  rfl

theorem requestReader_reads (form : RequestForm) {r : AsRequest} (h : r.Carriable) :
    requestReader.Reads [] (requestOctets form r) {
      pvno := Integer.ofWord r.pvno
      messageType := [requestType]
      padata := r.padata.map .ok
      body := foundBody form r.toRequestBody } := by
  have hpadata : ∀ ps : List PaData, (Reader.sequenceOf paDataReader).Reads [0xa0 + 3]
      (explicit 3 (sequenceOf (ps.map paData))) (ps.map .ok) := by
    intro ps
    exact Reader.Reads.sequenceOf (fun p _ => ⟨paDataReader_reads p, element_ne_nil _ _⟩) _
  apply Reader.Reads.application _ (element_ne_nil _ _) (by decide)
  refine Reader.Reads.sequence ?_ []
  apply field_reads (buffer_field rfl 1 _)
  apply field_reads (buffer_field rfl 2 _)
  apply optional_field_reads (fun ps _ => hpadata ps) (Reader.Skips.sequenceOf _)
    (differs_explicit (by decide) _ _)
  apply field_reads (requestBodyReader_reads form h [0xa0 + 4])
  apply Fields.Reads.pure
  -- Data that is left out is found to be empty.
  unfold paDataWritten
  split
  · next hnone =>
    have hempty : r.padata = [] := by simp_all
    rw [hempty]
    rfl
  · rfl

end Wire

/-- A request that the wire has a form for is read back from every form that it has, whatever
    negative numbers stand among its encryption types. -/
theorem AsRequest.read_of_every_form {r : AsRequest} (h : r.Carriable) {form : RequestForm}
    (hform : form.Lists r.etypes) :
    ∃ message, r.write form = .ok message ∧
      (message.length < sightLimit → AsRequest.read message = .ok r) := by
  refine ⟨Wire.requestOctets form r, Wire.request_eq_ok h, ?_⟩
  intro hsight
  have hrun := (Wire.requestReader_reads form h).run hsight
  unfold AsRequest.read
  rw [hrun]
  show Wire.ReceivedRequest.check _ = _
  simp only [Wire.ReceivedRequest.check, ne_eq, not_true_eq_false, ↓reduceIte, Wire.mapM_id_ok,
    Wire.uint32_ofWord, Wire.foundBody_check h hform, bind, Except.bind]
  rfl

/-- The user asks for a ticket that ends at once, and its client puts two numbers below zero
    among the encryption types. -/
theorem AsRequest.read_of_every_form_at_noon :
    let request := { Sample.request with till := some Sample.noon }
    let form : RequestForm :=
      { etypes := [-128, 23, -9223372036854775808, 18], nonceInFull := true, rtimeAlways := true }
    ∃ message, request.write form = .ok message ∧ AsRequest.read message = .ok request := by
  intro request form
  have hname : ∀ n, request.cname = some n ∨ request.sname = some n → n.IsAscii := by
    intro n hn
    unfold PrincipalName.IsAscii
    rcases hn with hn | hn <;> cases hn <;> decide
  have htill : ∀ t, request.till = some t →
      t.Expressible ∧ t.wholeSecond = t ∧ t ≠ Instant.epoch := by
    intro t ht
    cases ht
    exact ⟨(Instant.expressible_iff _).mpr (by decide), by decide, by decide⟩
  have hetypes : request.etypes.all (fun n => n.toNat < 2 ^ 63) = true := by decide +kernel
  have hcarriable : request.Carriable := {
    cname := fun n hn => hname n (.inl hn)
    sname := fun n hn => hname n (.inr hn)
    start := fun t ht => nomatch ht
    till := fun t ht => (htill t ht).1
    rtime := fun t ht => nomatch ht
    realm := by decide
    startSecond := fun t ht => nomatch ht
    tillSecond := fun t ht => (htill t ht).2
    rtimeSecond := fun t ht => nomatch ht
    etypes := fun n hn => of_decide_eq_true (List.all_eq_true.mp hetypes n hn) }
  have hlists : form.Lists request.etypes := by
    show _ = _
    decide +kernel
  have hlength : (request.write form).toOption.any (·.length < sightLimit) = true := by
    decide +kernel
  obtain ⟨message, hmessage, hread⟩ := AsRequest.read_of_every_form hcarriable hlists
  rw [hmessage] at hlength
  exact ⟨message, hmessage, hread (of_decide_eq_true hlength)⟩

end Kerberos
