import CertEnroll.Proofs.Der.Elements
import CertEnroll.Rsa.Signature
import Mathlib.Tactic.Ring

/-!
# Proofs.Rsa.Signatures — which signatures are accepted

`power` is the power modulo a number, so a signature is accepted exactly if its power to the public
exponent spells the padded digest (`IsSignature`).  The padding gives the digest and its algorithm back,
hence one signature is never over two digests.  What a checked private key signs is accepted.
-/

namespace CertEnroll.Rsa

open Der (Element OctetString sequence toElement)

/-! ### Powers -/

theorem foldl_binaryDigits (n w k : Nat) :
    ((List.range w).reverse.map n.testBit).foldl (fun acc d => 2 * acc + d.toNat) k =
      k * 2 ^ w + n % 2 ^ w := by
  induction w generalizing k with
  | zero => simp [Nat.mod_one]
  | succ w ih =>
    have hmod : n % 2 ^ (w + 1) = n % 2 ^ w + 2 ^ w * (n.testBit w).toNat := by
      rw [Nat.mod_pow_succ, Nat.toNat_testBit]
    rw [List.range_succ, List.reverse_append, List.reverse_singleton, List.singleton_append,
      List.map_cons, List.foldl_cons, ih, hmod, Nat.pow_succ]
    ring

theorem power_eq (base exponent modulus : Nat) :
    power base exponent modulus = base ^ exponent % modulus := by
  have hdigits : (binaryDigits exponent).foldl (fun acc d => 2 * acc + d.toNat) 0 = exponent := by
    rw [binaryDigits, foldl_binaryDigits, Nat.zero_mul, Nat.zero_add]
    exact Nat.mod_eq_of_lt Nat.lt_log2_self
  have hfold := foldl_powerStep base modulus (binaryDigits exponent) 0
  rw [hdigits] at hfold
  exact hfold

theorem power_lt {modulus : Nat} (h : 0 < modulus) (base exponent : Nat) :
    power base exponent modulus < modulus := by
  rw [power_eq]
  exact Nat.mod_lt _ h

/-! ### Padding -/

/-- The digest and its algorithm behind their padding, in a string of some size. -/
def paddedBlock (size : Nat) (info : Bytes) : Bytes :=
  0 :: 1 :: List.replicate (size - info.length - 3) 0xff ++ 0 :: info

theorem signedBlock?_eq_some {size : Nat} {info block : Bytes} :
    signedBlock? size info = some block ↔ info.length + 11 ≤ size ∧ block = paddedBlock size info := by
  unfold signedBlock? paddedBlock
  split
  case isTrue h =>
    constructor
    · intro h'
      cases h'
    · intro h'
      omega
  case isFalse h => simp [Nat.not_lt.mp h, eq_comm]

theorem length_paddedBlock {size : Nat} {info : Bytes} (h : info.length + 11 ≤ size) :
    (paddedBlock size info).length = size := by
  simp only [paddedBlock, List.length_append, List.length_cons, List.length_replicate]
  omega

/-- The padding ends at the first octet after the second that is zero. -/
theorem paddedBlock_inj {size : Nat} {a b : Bytes} (h : paddedBlock size a = paddedBlock size b) :
    a = b := by
  have hdrop (n : Nat) (r : Bytes) :
      (List.replicate n (0xff : UInt8) ++ 0 :: r).dropWhile (· = 0xff) = 0 :: r := by
    rw [List.dropWhile_append_of_pos (by simp)]
    rfl
  simp only [paddedBlock, List.cons_append, List.cons.injEq, true_and] at h
  have htail := congrArg (List.dropWhile (· = 0xff)) h
  rw [hdrop, hdrop, List.cons.injEq] at htail
  exact htail.2

/-! ### Digests and their algorithms -/

theorem length_encode_hash (d : Digest) (m : Bytes) :
    (toElement (⟨d.hash m⟩ : OctetString)).encode.length = 1 + (Der.lengthOctets d.size).length + d.size := by
  rw [Element.length_encode]
  simp [toElement]

theorem length_digestInfo_content (d : Digest) (m : Bytes) :
    (Element.join [toElement d.algorithmId, toElement (⟨d.hash m⟩ : OctetString)]).length =
      (toElement d.algorithmId).encode.length + (1 + (Der.lengthOctets d.size).length + d.size) := by
  simp only [Element.join_cons, Element.join_nil, List.append_nil, List.length_append, length_encode_hash]

/-- How long a digest with its algorithm is depends on the algorithm only. -/
theorem length_digestInfo (d : Digest) (m m' : Bytes) : (digestInfo d m).length = (digestInfo d m').length := by
  have hcontent : (Element.join [toElement d.algorithmId, toElement (⟨d.hash m⟩ : OctetString)]).length =
      (Element.join [toElement d.algorithmId, toElement (⟨d.hash m'⟩ : OctetString)]).length := by
    rw [length_digestInfo_content, length_digestInfo_content]
  exact Nat.le_antisymm (Element.length_encode_mono hcontent.le) (Element.length_encode_mono hcontent.ge)

theorem fits_digestInfo (d : Digest) (m : Bytes) :
    (sequence [toElement d.algorithmId, toElement (⟨d.hash m⟩ : OctetString)]).Fits := by
  have halgorithm : (toElement d.algorithmId).encode.length ≤ 15 := by
    cases d <;> decide
  have hsize : (Der.lengthOctets d.size).length + d.size ≤ 65 := by
    cases d <;> decide
  have hcontent := length_digestInfo_content d m
  change (Element.join _).length ≤ Der.maxLength
  exact Nat.le_trans (by omega : _ ≤ 81) (by decide)

theorem digestInfo_inj {d d' : Digest} {m m' : Bytes} (h : digestInfo d m = digestInfo d' m') :
    d = d' ∧ d.hash m = d'.hash m' := by
  have he := Element.encode_inj (fits_digestInfo d m) (fits_digestInfo d' m') h
  have hs := Element.elements?_ofElements (fits_digestInfo d m)
  change Element.elements? .sequence (sequence _) = _ at hs
  rw [he, Der.sequence, Element.elements?_ofElements (fits_digestInfo d' m')] at hs
  simp only [Option.some.injEq, List.cons.injEq, and_true] at hs
  obtain ⟨halgorithm, hoctets⟩ := hs
  refine ⟨?_, (congrArg Element.content hoctets).symm⟩
  have hname : ∀ d d' : Digest, toElement d'.algorithmId = toElement d.algorithmId → d = d' := by
    intro d d'
    cases d <;> cases d' <;> decide
  exact hname d d' halgorithm

/-! ### Signatures that are accepted -/

theorem lt_pow_size (k : PublicKey) : k.modulus < 256 ^ k.size := Bytes.lt_pow_digitCount k.modulus

/-- The signature has the size of the key and is a number below the modulus, and its power to the public
exponent is the number that the padded digest of the message spells. -/
structure IsSignature (d : Digest) (k : PublicKey) (m signature : Bytes) : Prop where
  size : signature.length = k.size
  reduced : Bytes.toNat signature < k.modulus
  room : (digestInfo d m).length + 11 ≤ k.size
  opens : Bytes.toNat signature ^ k.exponent % k.modulus =
    Bytes.toNat (paddedBlock k.size (digestInfo d m))

theorem verifies_iff (d : Digest) (k : PublicKey) (m signature : Bytes) :
    verifies d k m signature = true ↔ IsSignature d k m signature := by
  simp only [verifies, Bool.and_eq_true, decide_eq_true_eq, signedBlock?_eq_some, power_eq]
  constructor
  · rintro ⟨⟨hsize, hlt⟩, hroom, hblock⟩
    refine ⟨hsize, hlt, hroom, ?_⟩
    have hpower : Bytes.toNat signature ^ k.exponent % k.modulus < 256 ^ k.size :=
      Nat.lt_trans (Nat.mod_lt _ (by omega)) (lt_pow_size k)
    rw [← hblock, Bytes.toNat_ofNat_of_lt hpower]
  · rintro ⟨hsize, hlt, hroom, hopens⟩
    refine ⟨⟨hsize, hlt⟩, hroom, ?_⟩
    have hblock := Bytes.ofNat_toNat (paddedBlock k.size (digestInfo d m))
    rw [length_paddedBlock hroom] at hblock
    rw [hopens, hblock]

/-- A signature is over one digest, under one algorithm. -/
theorem IsSignature.unique {d d' : Digest} {k : PublicKey} {m m' signature : Bytes}
    (h : IsSignature d k m signature) (h' : IsSignature d' k m' signature) :
    d = d' ∧ d.hash m = d'.hash m' := by
  have hblock : paddedBlock k.size (digestInfo d m) = paddedBlock k.size (digestInfo d' m') :=
    Bytes.toNat_inj (by rw [length_paddedBlock h.room, length_paddedBlock h'.room])
      (h.opens.symm.trans h'.opens)
  exact digestInfo_inj (paddedBlock_inj hblock)

/-! ### Private keys -/

theorem require_eq_ok {c : Bool} {f : Fault} {u : Unit} : require c f = .ok u ↔ c = true := by
  cases c <;> simp [require]

theorem bind_eq_ok {α β : Type} {x : Except Fault α} {f : α → Except Fault β} {b : β} :
    (x >>= f) = .ok b ↔ ∃ a, x = .ok a ∧ f a = .ok b := by
  cases x <;> simp [bind, Except.bind]

/-- What the checks on a private key find. -/
structure PrivateKey.Checked (k : PrivateKey) : Prop where
  exponent_lt : k.publicKey.exponent < k.publicKey.modulus
  one_lt_prime1 : 1 < k.prime1
  one_lt_prime2 : 1 < k.prime2
  modulus_eq : k.prime1 * k.prime2 = k.publicKey.modulus
  inverse1 : k.secret * k.publicKey.exponent % (k.prime1 - 1) = 1
  inverse2 : k.secret * k.publicKey.exponent % (k.prime2 - 1) = 1

theorem PrivateKey.checked_of_check {k : PrivateKey} (h : k.check = .ok ()) : k.Checked := by
  simp only [PrivateKey.check, PublicKey.check, bind_eq_ok, require_eq_ok, Bool.and_eq_true,
    decide_eq_true_eq] at h
  obtain ⟨_, ⟨_, -, _, ⟨hexponent, -⟩, -⟩, _, ⟨hp, hq⟩, _, hmodulus, _, h1, h2⟩ := h
  exact ⟨hexponent, hp, hq, hmodulus, h1, h2⟩

theorem PrivateKey.power_lt {k : PrivateKey} (h : k.Checked) (n : Nat) :
    k.power n < k.publicKey.modulus := by
  have hp : 0 < k.prime1 := Nat.lt_trans Nat.zero_lt_one h.one_lt_prime1
  have hq : 0 < k.prime2 := Nat.lt_trans Nat.zero_lt_one h.one_lt_prime2
  unfold PrivateKey.power
  split
  case h_1 u _ =>
    set r1 := Rsa.power n (k.secret % (k.prime1 - 1)) k.prime1
    set r2 := Rsa.power n (k.secret % (k.prime2 - 1)) k.prime2 with hr2
    have hlow : r2 < k.prime2 := Rsa.power_lt hq _ _
    have hstep : (r1 + (k.prime1 - r2 % k.prime1)) * u % k.prime1 ≤ k.prime1 - 1 :=
      Nat.le_sub_one_of_lt (Nat.mod_lt _ hp)
    have hhigh := Nat.mul_le_mul_right k.prime2 hstep
    have htop : (k.prime1 - 1) * k.prime2 + k.prime2 = k.publicKey.modulus := by
      rw [← h.modulus_eq, ← Nat.succ_mul]
      congr 1
      omega
    change r2 + _ * k.prime2 < _
    omega
  case h_2 =>
    exact Rsa.power_lt (Nat.lt_of_le_of_lt (Nat.zero_le _) h.exponent_lt) _ _

theorem PrivateKey.apply?_eq_some {k : PrivateKey} {n r : Nat} :
    k.apply? n = some r ↔
      k.power n = r ∧ r ^ k.publicKey.exponent % k.publicKey.modulus = n := by
  unfold PrivateKey.apply?
  simp only [power_eq]
  split
  case isTrue h =>
    rw [Option.some.injEq]
    exact ⟨fun hr => ⟨hr, hr ▸ h⟩, fun hr => hr.1⟩
  case isFalse h =>
    constructor
    · intro h'
      cases h'
    · rintro ⟨rfl, hr⟩
      exact absurd hr h

/-- What a checked key signs is a signature under its public half. -/
theorem isSignature_of_sign {d : Digest} {k : PrivateKey} {m signature : Bytes} (hk : k.Checked)
    (h : sign d k m = .ok signature) : IsSignature d k.publicKey m signature := by
  unfold sign at h
  dsimp only at h
  split at h
  case h_1 => cases h
  case h_2 block hblock =>
    split at h
    case h_1 => cases h
    case h_2 r hr =>
      cases h
      obtain ⟨hroom, rfl⟩ := signedBlock?_eq_some.mp hblock
      obtain ⟨rfl, hopens⟩ := PrivateKey.apply?_eq_some.mp hr
      have hlt := PrivateKey.power_lt hk (Bytes.toNat (paddedBlock k.publicKey.size (digestInfo d m)))
      have hnumber := Bytes.toNat_ofNat_of_lt (Nat.lt_trans hlt (lt_pow_size k.publicKey))
      exact ⟨Bytes.length_ofNat _ _, by rw [hnumber]; exact hlt, hroom, by rw [hnumber]; exact hopens⟩

end CertEnroll.Rsa
