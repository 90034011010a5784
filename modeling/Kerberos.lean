import Kerberos.Crypto.AesCipher
import Kerberos.Exchange.FrontDoor
import Kerberos.Proofs.Abandonment
import Kerberos.Proofs.Admission
import Kerberos.Proofs.Answer
import Kerberos.Proofs.AnswerReaders
import Kerberos.Proofs.Assurance
import Kerberos.Proofs.Calendar
import Kerberos.Proofs.Calls
import Kerberos.Proofs.Channels
import Kerberos.Proofs.Ciphertexts
import Kerberos.Proofs.Concealment
import Kerberos.Proofs.Consumption
import Kerberos.Proofs.Credential
import Kerberos.Proofs.Directory
import Kerberos.Proofs.Disclosure
import Kerberos.Proofs.DomainUsers
import Kerberos.Proofs.Echo
import Kerberos.Proofs.EnterpriseName
import Kerberos.Proofs.Envelope
import Kerberos.Proofs.ErrorCode
import Kerberos.Proofs.Etypes
import Kerberos.Proofs.Exchange
import Kerberos.Proofs.Flags
import Kerberos.Proofs.FrontDoor
import Kerberos.Proofs.Grant
import Kerberos.Proofs.Hint
import Kerberos.Proofs.HonestClient
import Kerberos.Proofs.Instant
import Kerberos.Proofs.IntegerRange
import Kerberos.Proofs.Isolation
import Kerberos.Proofs.Issue
import Kerberos.Proofs.LookupKey
import Kerberos.Proofs.Numerals
import Kerberos.Proofs.Options
import Kerberos.Proofs.PreAuth
import Kerberos.Proofs.Reads
import Kerberos.Proofs.Received
import Kerberos.Proofs.Renewal
import Kerberos.Proofs.Replay
import Kerberos.Proofs.ReplayCache
import Kerberos.Proofs.ReplayLog
import Kerberos.Proofs.RequestRoundTrip
import Kerberos.Proofs.Resolution
import Kerberos.Proofs.Run
import Kerberos.Proofs.SealedParts
import Kerberos.Proofs.SealedRoundTrip
import Kerberos.Proofs.Sealing
import Kerberos.Proofs.TicketRoundTrip
import Kerberos.Proofs.Unambiguous
import Kerberos.Proofs.UnboundedValidity
import Kerberos.Proofs.Validity
import Kerberos.Proofs.Values
import Kerberos.Proofs.Writing
import Kerberos.Proofs.Yields
import Kerberos.ReplayLog
import Kerberos.Settings
import Kerberos.Proofs.ExpiryIndex
import Kerberos.Proofs.IntegerForms
