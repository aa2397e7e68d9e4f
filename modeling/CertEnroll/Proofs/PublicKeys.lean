import CertEnroll.Digest.Identifier
import CertEnroll.Proofs.Der.Readable
import CertEnroll.Proofs.Rsa.Signatures

/-!
# Proofs.PublicKeys — public keys are read back from certificates

A certificate holds a public key as octets within octets.  Both layers are read back as they were written.
But keys that come from outside have a greatest size, and a certificate is outside also for the key that it
was made with: a larger key is written and not read again (`publicKey_ofKey`).
-/

namespace CertEnroll

open Der (Element Readable ofElement? readable_pair toElement)

/-! ### Numbers -/

theorem Der.toNat_naturalContent (n : Nat) : Bytes.toNat (Der.naturalContent n) = n := by
  unfold Der.naturalContent
  dsimp only
  split
  · rw [Bytes.toNat_zero_cons, Bytes.toNat_ofNatMin]
  · exact Bytes.toNat_ofNatMin n

@[simp] theorem Der.readable_natural (n : Der.Natural) : Readable n := by
  intro _
  obtain ⟨v⟩ := n
  simp [toElement, ofElement?, Der.toNat_naturalContent]

theorem Der.length_naturalContent_le (n : Nat) : (Der.naturalContent n).length ≤ Bytes.digitCount n + 1 := by
  unfold Der.naturalContent
  dsimp only
  split
  · rw [List.length_cons, Bytes.length_ofNatMin]
  · rw [Bytes.length_ofNatMin]
    omega

namespace Rsa

@[simp] theorem KeyNumbers.readable (k : KeyNumbers) : Readable k :=
  readable_pair (f := KeyNumbers.mk) rfl (fun _ => rfl) (Der.readable_natural _) (Der.readable_natural _)

/-- The numbers of a key are written in little more room than they take. -/
theorem KeyNumbers.length_content_le {k : KeyNumbers} {m n : Nat} (hm : Bytes.digitCount k.modulus.value ≤ m)
    (hn : Bytes.digitCount k.exponent.value ≤ n) (hroom : m + n + 14 ≤ Der.maxLength) :
    (toElement k).content.length ≤ m + n + 14 := by
  have hmodulus : (toElement k.modulus).encode.length ≤ m + 1 + 6 :=
    Element.length_encode_le ((Der.length_naturalContent_le _).trans (by omega)) (by omega)
  have hexponent : (toElement k.exponent).encode.length ≤ n + 1 + 6 :=
    Element.length_encode_le ((Der.length_naturalContent_le _).trans (by omega)) (by omega)
  show (Element.join [toElement k.modulus, toElement k.exponent]).length ≤ _
  simp only [Element.join_cons, Element.join_nil, List.length_append, List.length_nil]
  omega

/-! ### Checks -/

/-- The public half of a key that passes its checks passes its own. -/
theorem PrivateKey.check_publicKey {k : PrivateKey} (h : k.check = .ok ()) : k.publicKey.check = .ok () := by
  obtain ⟨u, hu, -⟩ := bind_eq_ok.mp h
  exact hu

/-- The modulus is not larger than that of a key that comes from outside. -/
def PublicKey.Admissible (k : PublicKey) : Prop := k.modulus < 2 ^ modulusBits

instance (k : PublicKey) : Decidable k.Admissible := Nat.decLt k.modulus (2 ^ modulusBits)

theorem PublicKey.digitCount_of_admissible {k : PublicKey} (h : k.Admissible) :
    Bytes.digitCount k.modulus ≤ 512 := by
  refine Bytes.digitCount_le_of_log2 ?_
  by_cases hzero : k.modulus = 0
  · exact .inl hzero
  · have hbits : k.modulus.log2 < modulusBits := (Nat.log2_lt hzero).mpr h
    exact .inr hbits

theorem PublicKey.exponent_of_check {k : PublicKey} (h : k.check = .ok ()) :
    k.exponent < 256 ^ 8 ∧ k.exponent < k.modulus := by
  simp only [PublicKey.check, bind_eq_ok, require_eq_ok, Bool.and_eq_true, decide_eq_true_eq] at h
  obtain ⟨_, hlimit, _, hmodulus, -⟩ := h
  exact ⟨hlimit, hmodulus.1⟩

/-- A key that passes its checks comes from its numbers if it is not too large. -/
theorem PublicKey.ofNumbers_of_check {k : PublicKey} (h : k.check = .ok ()) :
    (PublicKey.ofNumbers k.modulus k.exponent).toOption = if k.Admissible then some k else none := by
  have hne : k.modulus ≠ 0 := by
    have := (exponent_of_check h).2
    omega
  have hbits : k.modulus.log2 < modulusBits ↔ k.Admissible := Nat.log2_lt hne
  by_cases hsize : k.Admissible
  · rw [if_pos hsize]
    simp only [ofNumbers, require, hne, hbits.mpr hsize, decide_true, Bool.or_true, if_true]
    change (k.check >>= fun _ => pure k).toOption = some k
    rw [h]
    rfl
  · rw [if_neg hsize]
    simp only [ofNumbers, require, hne, mt hbits.mp hsize, decide_false, Bool.or_false]
    rfl

end Rsa

/-! ### Certificates -/

namespace X509

theorem KeyInfo.key?_ofKey {k : Rsa.PublicKey} (h : k.check = .ok ()) :
    (KeyInfo.ofKey k).key? = if k.Admissible then some k else none := by
  have hkey : (KeyInfo.ofKey k).key? =
      (Der.decode? k.encode : Option Rsa.KeyNumbers).bind fun numbers =>
        (Rsa.PublicKey.ofNumbers numbers.modulus.value numbers.exponent.value).toOption := by
    simp [KeyInfo.key?, KeyInfo.ofKey, AlgorithmId.plain, Der.BitString.ofBytes]
  have hread := Rsa.KeyNumbers.readable ⟨⟨k.modulus⟩, ⟨k.exponent⟩⟩
  have hnumbers := Rsa.PublicKey.ofNumbers_of_check h
  rw [hkey]
  by_cases hsize : k.Admissible
  · have hmodulus : Bytes.digitCount k.modulus ≤ 512 := Rsa.PublicKey.digitCount_of_admissible hsize
    have hexponent : Bytes.digitCount k.exponent ≤ 8 :=
      Bytes.digitCount_le_iff.mpr (Rsa.PublicKey.exponent_of_check h).1
    have hfits : (toElement (⟨⟨k.modulus⟩, ⟨k.exponent⟩⟩ : Rsa.KeyNumbers)).Fits :=
      (Rsa.KeyNumbers.length_content_le hmodulus hexponent (by decide)).trans (by decide)
    have hdecode : (Der.decode? k.encode : Option Rsa.KeyNumbers) = some ⟨⟨k.modulus⟩, ⟨k.exponent⟩⟩ :=
      hread.decode? hfits
    rw [hdecode]
    exact hnumbers
  · rw [if_neg hsize] at hnumbers ⊢
    refine Option.bind_eq_none_iff.mpr fun numbers hdecode => ?_
    obtain rfl := hread.eq_of_decode? hdecode
    exact hnumbers

/-- The key of a certificate is read back exactly if it is not too large. -/
theorem Certificate.publicKey_ofKey {c : Certificate} {k : Rsa.PublicKey} (hc : c.body.keyInfo = .ofKey k)
    (h : k.check = .ok ()) : c.publicKey = if k.Admissible then .ok k else .error .publicKey := by
  have hkey : c.publicKey = Result.ofOption .publicKey (KeyInfo.ofKey k).key? := by
    rw [← hc]
    exact if_pos (by rw [hc]; rfl)
  rw [hkey, KeyInfo.key?_ofKey h]
  by_cases hsize : k.Admissible
  · rw [if_pos hsize, if_pos hsize]
    rfl
  · rw [if_neg hsize, if_neg hsize]
    rfl

end X509

end CertEnroll
