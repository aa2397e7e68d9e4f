import CertEnroll.Proofs.Result
import CertEnroll.Proofs.Rsa.Signatures
import CertEnroll.Rsa.Encryption
import Mathlib.FieldTheory.Finite.Basic
import Mathlib.NumberTheory.LucasPrimality

/-!
# Proofs.Rsa.Encryption — encrypted messages are decrypted

A private key has to undo its public exponent (`PrivateKey.Undoes`).  The checks on a key do not ensure
it, since they do not test for primes; but a key that passes them does if its two factors are different
primes.  What is encrypted for the public half of a key that undoes it is decrypted, and the key signs
whatever it has room for.
-/

namespace CertEnroll.Rsa

/-- The private key takes the power to the public exponent back. -/
def PrivateKey.Undoes (k : PrivateKey) : Prop :=
  ∀ n < k.publicKey.modulus,
    k.apply? (Rsa.power n k.publicKey.exponent k.publicKey.modulus) = some n

/-- A block of the size of a key spells a number below the modulus if it starts with zero. -/
theorem toNat_lt_modulus {k : PublicKey} {b : Bytes} (h : b.length + 1 = k.size) :
    Bytes.toNat (0 :: b) < k.modulus := by
  have hlt := Bytes.toNat_lt b
  have hle : 256 ^ b.length ≤ k.modulus :=
    Bytes.pow_le_of_lt_digitCount (show b.length + 1 ≤ Bytes.digitCount k.modulus from h.le)
  rw [Bytes.toNat_zero_cons]
  omega

/-! ### Signing -/

/-- The power to the public exponent, as a map of the numbers below the modulus to themselves. -/
def PublicKey.raise (k : PublicKey) (x : Fin k.modulus) : Fin k.modulus :=
  ⟨Rsa.power x k.exponent k.modulus, Rsa.power_lt (Nat.lt_of_le_of_lt (Nat.zero_le _) x.isLt) _ _⟩

/-- What can be undone is injective, and so every number is the power of one. -/
theorem PrivateKey.Undoes.surjective_raise {k : PrivateKey} (hk : k.Undoes) :
    Function.Surjective k.publicKey.raise := by
  refine Finite.surjective_of_injective ?_
  intro x y hxy
  have hx := hk x x.isLt
  have hpower : Rsa.power x k.publicKey.exponent k.publicKey.modulus =
      Rsa.power y k.publicKey.exponent k.publicKey.modulus := congrArg Fin.val hxy
  rw [hpower, hk y y.isLt] at hx
  exact Fin.ext (Option.some.inj hx).symm

theorem PrivateKey.Undoes.apply_eq_some {k : PrivateKey} (hk : k.Undoes) {n : Nat}
    (hn : n < k.publicKey.modulus) : k.apply? n = some (k.power n) := by
  obtain ⟨x, hx⟩ := hk.surjective_raise ⟨n, hn⟩
  have hback := hk x x.isLt
  have hpower : Rsa.power x k.publicKey.exponent k.publicKey.modulus = n := congrArg Fin.val hx
  rw [hpower] at hback
  rw [hback, (PrivateKey.apply?_eq_some.mp hback).1]

/-- The signature of a message under a key that undoes its public exponent. -/
def PrivateKey.signature (k : PrivateKey) (d : Digest) (m : Bytes) : Bytes :=
  Bytes.ofNat k.publicKey.size (k.power (Bytes.toNat (paddedBlock k.publicKey.size (digestInfo d m))))

theorem PrivateKey.Undoes.sign {k : PrivateKey} (hk : k.Undoes) {d : Digest} {m : Bytes}
    (hroom : (digestInfo d m).length + 11 ≤ k.publicKey.size) : sign d k m = .ok (k.signature d m) := by
  have hlt : Bytes.toNat (paddedBlock k.publicKey.size (digestInfo d m)) < k.publicKey.modulus := by
    have hlength := length_paddedBlock hroom
    exact toNat_lt_modulus hlength
  unfold Rsa.sign
  dsimp only
  rw [signedBlock?_eq_some.mpr ⟨hroom, rfl⟩]
  dsimp only
  rw [hk.apply_eq_some hlt]
  rfl

/-! ### Keys of primes -/

theorem euclid_fst (r s : Nat) (t u : Int) : (euclid r s t u).1 = Nat.gcd r s := by
  fun_induction euclid r s t u with
  | case1 r t u => simp
  | case2 r s t u h ih => rw [ih, Nat.gcd_comm s, ← Nat.gcd_rec, Nat.gcd_comm]

theorem exists_inverse? {n m : Nat} (h : Nat.gcd m n = 1) : ∃ u, inverse? n m = some u := by
  have hgcd : (euclid m (n % m) 0 1).1 = 1 := by
    rw [euclid_fst, Nat.gcd_comm, ← Nat.gcd_rec, h]
  unfold inverse?
  split
  case h_1 t _ => exact ⟨_, rfl⟩
  case h_2 hne => exact (hne (euclid m (n % m) 0 1).2 (Prod.ext hgcd rfl)).elim

theorem pow_pow_eq {p d e : Nat} [Fact p.Prime] (h : d * e % (p - 1) = 1) (x : ZMod p) :
    (x ^ e) ^ (d % (p - 1)) = x := by
  have hreduced : e * (d % (p - 1)) % (p - 1) = 1 := by
    rw [Nat.mul_mod, Nat.mod_mod, ← Nat.mul_mod, Nat.mul_comm, h]
  rw [← pow_mul]
  by_cases hx : x = 0
  · have hne : e * (d % (p - 1)) ≠ 0 := by
      intro h0
      rw [h0] at hreduced
      simp at hreduced
    rw [hx, zero_pow hne]
  · rw [pow_eq_pow_mod _ (ZMod.pow_card_sub_one_eq_one hx), hreduced, pow_one]

theorem power_power_eq {p d e modulus : Nat} (hp : p.Prime) (hdvd : p ∣ modulus)
    (h : d * e % (p - 1) = 1) (n : Nat) :
    Rsa.power (Rsa.power n e modulus) (d % (p - 1)) p = n % p := by
  have : Fact p.Prime := ⟨hp⟩
  have hcast : ((n ^ e % modulus : Nat) : ZMod p) = (n : ZMod p) ^ e := by
    rw [← Nat.cast_pow, ZMod.natCast_eq_natCast_iff]
    exact (Nat.mod_modEq _ _).of_dvd hdvd
  rw [Rsa.power_eq, Rsa.power_eq]
  refine (ZMod.natCast_eq_natCast_iff' _ _ _).mp ?_
  rw [Nat.cast_pow, hcast, pow_pow_eq h]

/-- The number joined from two remainders leaves them. -/
theorem PrivateKey.join_modEq {k : PrivateKey} {u : Nat} (hp : 1 < k.prime1)
    (hu : inverse? k.prime2 k.prime1 = some u) (r1 r2 : Nat) :
    k.join u r1 r2 ≡ r1 [MOD k.prime1] ∧ k.join u r1 r2 ≡ r2 [MOD k.prime2] := by
  have hinverse : ((k.prime2 * u : Nat) : ZMod k.prime1) = ((1 : Nat) : ZMod k.prime1) := by
    rw [ZMod.natCast_eq_natCast_iff', mul_inverse? hp hu, Nat.mod_eq_of_lt hp]
  refine ⟨?_, ?_⟩
  · rw [← ZMod.natCast_eq_natCast_iff]
    have hle : r2 % k.prime1 ≤ k.prime1 := Nat.le_of_lt (Nat.mod_lt _ (by omega))
    have hstep : ((((r1 + (k.prime1 - r2 % k.prime1)) * u % k.prime1 : Nat)) : ZMod k.prime1) =
        (r1 - r2) * u := by
      rw [ZMod.natCast_mod]
      push_cast
      rw [Nat.cast_sub hle, ZMod.natCast_mod, ZMod.natCast_self]
      ring
    push_cast at hinverse
    change ((r2 + (r1 + (k.prime1 - r2 % k.prime1)) * u % k.prime1 * k.prime2 : Nat) :
      ZMod k.prime1) = r1
    rw [Nat.cast_add, Nat.cast_mul, hstep]
    calc (r2 : ZMod k.prime1) + (r1 - r2) * u * k.prime2
        = r2 + (r1 - r2) * (k.prime2 * u) := by ring
      _ = r1 := by rw [hinverse]; ring
  · change r2 + _ * k.prime2 ≡ r2 [MOD k.prime2]
    exact Nat.add_mul_modulus_modEq_iff.mpr rfl

theorem PrivateKey.undoes_of_prime {k : PrivateKey} (h : k.Checked) (hp : k.prime1.Prime)
    (hq : k.prime2.Prime) (hne : k.prime1 ≠ k.prime2) : k.Undoes := by
  intro n hn
  have hcoprime : Nat.Coprime k.prime1 k.prime2 := (Nat.coprime_primes hp hq).mpr hne
  have hdvd1 : k.prime1 ∣ k.publicKey.modulus := ⟨k.prime2, h.modulus_eq.symm⟩
  have hdvd2 : k.prime2 ∣ k.publicKey.modulus := ⟨k.prime1, by rw [Nat.mul_comm, h.modulus_eq]⟩
  set c := Rsa.power n k.publicKey.exponent k.publicKey.modulus with hc
  have hpower : k.power c = n := by
    obtain ⟨u, hu⟩ := exists_inverse? hcoprime
    have hjoin : k.power c = k.join u (n % k.prime1) (n % k.prime2) := by
      unfold PrivateKey.power
      rw [hu]
      dsimp only
      rw [hc, power_power_eq hp hdvd1 h.inverse1, power_power_eq hq hdvd2 h.inverse2]
    have hlt := PrivateKey.power_lt h c
    obtain ⟨h1, h2⟩ := PrivateKey.join_modEq h.one_lt_prime1 hu (n % k.prime1) (n % k.prime2)
    rw [← hjoin] at h1 h2
    have hmod : k.power c ≡ n [MOD k.publicKey.modulus] := by
      rw [← h.modulus_eq]
      exact (Nat.modEq_and_modEq_iff_modEq_mul hcoprime).mp
        ⟨h1.trans (Nat.mod_modEq _ _), h2.trans (Nat.mod_modEq _ _)⟩
    exact hmod.eq_of_lt_of_lt hlt hn
  refine PrivateKey.apply?_eq_some.mpr ⟨hpower, ?_⟩
  rw [hc, Rsa.power_eq]

/-! ### A key of two primes -/

/-- Seven times a power of two and one more is prime if three generates what its powers reach. -/
theorem prime_of_power {s : Nat} (hone : Rsa.power 3 (7 * 2 ^ s) (7 * 2 ^ s + 1) = 1)
    (htwo : Rsa.power 3 (7 * 2 ^ s / 2) (7 * 2 ^ s + 1) ≠ 1)
    (hseven : Rsa.power 3 (7 * 2 ^ s / 7) (7 * 2 ^ s + 1) ≠ 1) : (7 * 2 ^ s + 1).Prime := by
  have hmod : 1 % (7 * 2 ^ s + 1) = 1 := Nat.mod_eq_of_lt (by have := Nat.two_pow_pos s; omega)
  have hcast (m : Nat) : ((3 : Nat) : ZMod (7 * 2 ^ s + 1)) ^ m = 1 ↔
      Rsa.power 3 m (7 * 2 ^ s + 1) = 1 := by
    have hiff := ZMod.natCast_eq_natCast_iff' (3 ^ m) 1 (7 * 2 ^ s + 1)
    rw [hmod, Nat.cast_pow, Nat.cast_one] at hiff
    rw [hiff, Rsa.power_eq]
  refine lucas_primality _ ((3 : Nat) : ZMod (7 * 2 ^ s + 1)) ((hcast _).mpr hone) fun q hq hdvd => ?_
  rw [Ne, hcast]
  rcases (Nat.Prime.dvd_mul hq).mp hdvd with h | h
  · rw [(Nat.prime_dvd_prime_iff_eq hq (by decide)).mp h]
    exact hseven
  · rw [(Nat.prime_dvd_prime_iff_eq hq Nat.prime_two).mp (hq.dvd_of_dvd_pow h)]
    exact htwo

/-- A key of two primes, just large enough to sign over the shortest digest. -/
def sampleKey : PrivateKey where
  publicKey := ⟨(7 * 2 ^ 180 + 1) * (7 * 2 ^ 190 + 1), 3⟩
  secret := 0x12aaaaaaaaaaaaaaaaaaaaaaaaaaaaaaaaaaaaaaaaaaaaaab
  prime1 := 7 * 2 ^ 180 + 1
  prime2 := 7 * 2 ^ 190 + 1

theorem check_sampleKey : sampleKey.check = .ok () := by decide +kernel

theorem prime_sampleKey_prime1 : sampleKey.prime1.Prime :=
  prime_of_power (by decide +kernel) (by decide +kernel) (by decide +kernel)

theorem prime_sampleKey_prime2 : sampleKey.prime2.Prime :=
  prime_of_power (by decide +kernel) (by decide +kernel) (by decide +kernel)

theorem undoes_sampleKey : sampleKey.Undoes :=
  PrivateKey.undoes_of_prime (PrivateKey.checked_of_check check_sampleKey) prime_sampleKey_prime1
    prime_sampleKey_prime2 (by decide)

/-! ### Filling -/

theorem replaceZeros_run {b filling : Bytes} {r r' : Random}
    (h : (replaceZeros b).run r = (filling, r')) : filling.length = b.length ∧ ∀ x ∈ filling, x ≠ 0 := by
  induction b generalizing filling r r' with
  | nil =>
    cases h
    simp
  | cons x b ih =>
    have hfirst : ∃ y r₁, y ≠ 0 ∧
        (replaceZeros b >>= fun l => (pure (y :: l) : StateM Random Bytes)).run r₁ = (filling, r') := by
      by_cases hx : x = 0
      · rw [replaceZeros, if_pos hx] at h
        exact ⟨_, _, Random.drawNonZero_ne_zero drawLimit r, h⟩
      · rw [replaceZeros, if_neg hx] at h
        exact ⟨x, r, hx, h⟩
    obtain ⟨y, r₁, hy, h⟩ := hfirst
    obtain ⟨hlength, hall⟩ := ih (rfl : (replaceZeros b).run r₁ = _)
    cases h
    refine ⟨by simpa using hlength, ?_⟩
    simpa using ⟨hy, hall⟩

theorem openBlock?_encryptedBlock {filling m : Bytes} (h : 8 ≤ filling.length) (hz : ∀ x ∈ filling, x ≠ 0) :
    openBlock? (encryptedBlock filling m) = some m := by
  have hdecide : ∀ x ∈ filling, decide (x ≠ 0) = true := by simpa using hz
  have htake : (filling ++ 0 :: m).takeWhile (· ≠ 0) = filling := by
    rw [List.takeWhile_append_of_pos hdecide]
    simp
  have hdrop : (filling ++ 0 :: m).dropWhile (· ≠ 0) = 0 :: m := by
    rw [List.dropWhile_append_of_pos hdecide]
    simp
  simp only [encryptedBlock, openBlock?, List.cons_append, htake, hdrop, h, if_true]

/-! ### Encryption -/

theorem encrypt_eq_ok {k : PublicKey} {m c : Bytes} {r r' : Random}
    (h : (encrypt k m).run.run r = (.ok c, r')) :
    ∃ filling, m.length + 11 ≤ k.size ∧ filling.length = k.size - m.length - 3 ∧
      (∀ x ∈ filling, x ≠ 0) ∧
      c = Bytes.ofNat k.size
        (Rsa.power (Bytes.toNat (encryptedBlock filling m)) k.exponent k.modulus) := by
  unfold encrypt at h
  split at h
  case isTrue => cases h
  case isFalse hsize =>
    obtain ⟨start, r₁, hstart, h⟩ := Drawing.bind_eq_ok.mp h
    obtain ⟨filling, r₂, hfilling, h⟩ := Drawing.bind_eq_ok.mp h
    obtain ⟨rfl, -⟩ := Drawing.pure_eq_ok.mp h
    obtain ⟨hlength, hall⟩ := replaceZeros_run (Drawing.draw_eq_ok.mp hfilling)
    have hstart := congrArg (fun x => x.1.length) (Drawing.draw_eq_ok.mp hstart)
    dsimp only at hstart
    rw [Random.length_draw] at hstart
    exact ⟨filling, by omega, by omega, hall, rfl⟩

theorem toNat_encryptedBlock_lt {k : PublicKey} {filling m : Bytes} (hm : m.length + 11 ≤ k.size)
    (hf : filling.length = k.size - m.length - 3) :
    Bytes.toNat (encryptedBlock filling m) < k.modulus := by
  refine toNat_lt_modulus (show (2 :: filling ++ 0 :: m).length + 1 = k.size from ?_)
  simp only [List.length_append, List.length_cons]
  omega

/-- What is encrypted for a key is decrypted by the private key that undoes it. -/
theorem decrypt?_of_encrypt {k : PrivateKey} {m c : Bytes} {r r' : Random} (hk : k.Undoes)
    (h : (encrypt k.publicKey m).run.run r = (.ok c, r')) : decrypt? k c = some m := by
  obtain ⟨filling, hm, hf, hz, rfl⟩ := encrypt_eq_ok h
  have hblock := toNat_encryptedBlock_lt hm hf
  have hpower := Rsa.power_lt (Nat.lt_of_le_of_lt (Nat.zero_le _) hblock)
    (Bytes.toNat (encryptedBlock filling m)) k.publicKey.exponent
  have hnumber := Bytes.toNat_ofNat_of_lt (Nat.lt_trans hpower (lt_pow_size k.publicKey))
  have hwidth : (encryptedBlock filling m).length = k.publicKey.size := by
    simp only [encryptedBlock, List.length_append, List.length_cons]
    omega
  have hback : Bytes.ofNat k.publicKey.size (Bytes.toNat (encryptedBlock filling m)) =
      encryptedBlock filling m := by
    rw [← hwidth]
    exact Bytes.ofNat_toNat _
  unfold decrypt?
  rw [hnumber]
  simp only [guard, hpower, if_true, Option.pure_def, Option.bind_eq_bind, Option.bind_some,
    hk _ hblock, hback]
  exact openBlock?_encryptedBlock (by omega) hz

end CertEnroll.Rsa
