import CertEnroll.Authority
import CertEnroll.Config.Text
import CertEnroll.Proofs.Coherence
import CertEnroll.Proofs.EnrollmentId
import CertEnroll.Proofs.Sharing
import CertEnroll.Proofs.Recording
import CertEnroll.Proofs.Refusal
import CertEnroll.Proofs.Retry
import CertEnroll.Proofs.Leniency
import CertEnroll.Proofs.Chain
import CertEnroll.Proofs.Der.Elements
import CertEnroll.Proofs.Der.Sets
import CertEnroll.Proofs.Der.Readable
import CertEnroll.Proofs.Der.Structures
import CertEnroll.Proofs.Rsa.Signatures
import CertEnroll.Proofs.SignedAttributes
import CertEnroll.Proofs.Der.Origins
import CertEnroll.Proofs.WellSigned
import CertEnroll.Proofs.Rsa.Encryption
import CertEnroll.Proofs.Cipher.Chaining
import CertEnroll.Proofs.Cipher.Aes
import CertEnroll.Proofs.Cipher.Des
import CertEnroll.Proofs.Envelope
import CertEnroll.Proofs.Payloads
import CertEnroll.Proofs.RoundTrip
import CertEnroll.Proofs.Opening
import CertEnroll.Proofs.KeyUse
import CertEnroll.Proofs.Binding
import CertEnroll.Proofs.HonestExchange
import CertEnroll.Proofs.Answers
import CertEnroll.Proofs.SlidingWindow
import CertEnroll.Proofs.AttributeSets
import CertEnroll.Proofs.AttributeGrammar
import CertEnroll.Proofs.EnvelopeRoundTrip
import CertEnroll.Proofs.Cipher.Exactness
import CertEnroll.Proofs.StoreRoundTrip
import CertEnroll.Proofs.OperationRoundTrip
import CertEnroll.Proofs.Retrieval
import CertEnroll.Proofs.PublicKeys
import CertEnroll.Proofs.Issuance
import CertEnroll.Proofs.Passwords
import CertEnroll.Proofs.Calendar
import CertEnroll.Proofs.SigningTime
import CertEnroll.Proofs.Json.Grammar
import CertEnroll.Proofs.Json.Reading
import CertEnroll.Proofs.ConfigText
import CertEnroll.Proofs.TransactionIds
