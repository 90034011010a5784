import Kerberos.Exchange.FrontDoor
import Kerberos.Proofs.Exchange

/-! # What comes through the front doors

    Octets that hold a request are handled like the request; any other octets are answered
    without an exchange.  A message of a proxy is handled like the octets in it.
-/

namespace Kerberos

/-- An error message says what was refused and when, and repeats the names of the request. -/
theorem Refusal.eq_of_krbError {r : Refusal} {request : Option AsRequest} {realm : String}
    {now : Instant} {error : KrbError} (h : r.krbError request realm now = .ok error) :
    ∃ data, error = {
      code := r.code, time := now
      crealm := (request.bind (·.cname)).map fun _ => realm, cname := request.bind (·.cname)
      realm, sname := (request.bind (·.sname)).getD (.krbtgt realm), text := some r.eText
      data } := by
  unfold krbError at h
  split at h
  · -- The hint is the only data, and its salt may have no form on the wire.
    obtain ⟨data, -, h⟩ := except_bind_eq_ok_iff.mp h
    exact ⟨data, (Except.ok.inj h).symm⟩
  · exact ⟨none, (Except.ok.inj h).symm⟩

namespace Service

open Exchange

/-- The answer to octets that hold no request. -/
def rejection (s : Service) (now : Instant) : WireError → Written
  | .wrongMessageType got expected =>
    s.writeRefusal now none (.badMessageType (.wrongMessageType got expected))
  | _ => (KrbError.unreadable s.config.realm now).write

theorem rejection_of_other {s : Service} {now : Instant} {cause : WireError}
    (h : ∀ found expected, cause ≠ .wrongMessageType found expected) :
    s.rejection now cause = (KrbError.unreadable s.config.realm now).write := by
  unfold rejection
  split
  · exact absurd rfl (h _ _)
  · rfl

/-- The octets that an exchange comes to. -/
def response (s : Service) (now : Instant) (request : AsRequest) :
    Except (Failure Refusal) AsReply → Written
  | .ok reply => reply.write.mapError .refused
  | .error (.refused refusal) => s.writeRefusal now (some request) refusal
  | .error .abandoned => .error .abandoned

theorem answer_of_unreadable (s : Service) (clock : Readings) {message : Octets}
    {cause : WireError} (h : AsRequest.read message = .error cause) (l : Ledger) :
    (s.answer clock message).run l = (s.rejection clock.received.wholeSecond cause, l) := by
  unfold answer
  rw [h]
  cases cause <;> rfl

theorem answer_of_readable (s : Service) (clock : Readings) {message : Octets}
    {request : AsRequest} (h : AsRequest.read message = .ok request) (l : Ledger) :
    (s.answer clock message).run l =
      (s.response clock.received.wholeSecond request ((s.handle clock.handled request).runOn l).1,
        ((s.handle clock.handled request).runOn l).2) := by
  unfold answer
  rw [h]
  simp only [runOn, StateT.run_bind]
  rcases (s.handle clock.handled request).run.run l with ⟨⟨_ | _⟩ | reply, l'⟩ <;> rfl

/-- A message of a proxy that is too short is refused outright. -/
theorem answerProxy_of_short (s : Service) (clock : Readings) {m : ProxyMessage}
    (h : m.kerbMessage.length < 4) (l : Ledger) :
    (s.answerProxy clock m).run l = (.error (.refused .malformed), l) := by
  unfold answerProxy
  simp only [h, ↓reduceIte]
  rfl

theorem answerProxy_ledger (s : Service) (clock : Readings) {m : ProxyMessage}
    (h : ¬ m.kerbMessage.length < 4) (l : Ledger) :
    ((s.answerProxy clock m).run l).2 =
      ((s.answer clock (m.kerbMessage.drop 4)).run l).2 := by
  unfold answerProxy
  simp only [h, ↓reduceIte, StateT.run_bind]
  rcases (s.answer clock (m.kerbMessage.drop 4)).run l with ⟨failure | octets, l'⟩
  · rfl
  · -- An answer that is too long for the proxy has been given nonetheless.
    by_cases hlong : 4294967296 ≤ octets.length
    · simp only [bind, hlong, ↓reduceIte]
      rfl
    · simp only [bind, hlong, ↓reduceIte]
      rfl

end Service

end Kerberos
