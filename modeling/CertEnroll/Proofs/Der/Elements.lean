import CertEnroll.Der.Element
import CertEnroll.Proofs.Octets

/-!
# Proofs.Der.Elements — elements are read exactly from their octets

Each element has one encoding, and the readers accept nothing else: `read` takes an element off a string
exactly if the string starts with its octets, and `split?` takes a string apart into exactly the elements
that it joins.  Only elements whose content is not longer than `maxLength` are read.
-/

namespace CertEnroll.Der

/-! ### Tags -/

theorem Tag.octet_of_ofOctet? {b : UInt8} {t : Tag} (h : ofOctet? b = some t) : t.octet = b := by
  have hall : ∀ n : Fin 256, ∀ t, ofOctet? (UInt8.ofFin n) = some t → t.octet = UInt8.ofFin n := by
    have hdec : ∀ n : Fin 256, (ofOctet? (UInt8.ofFin n)).all (·.octet = UInt8.ofFin n) = true := by
      decide +kernel
    intro n t ht
    have := hdec n
    rw [ht] at this
    simpa using this
  exact hall b.toFin t h

/-! ### Lengths -/

theorem digitCount_of_le_maxLength {n : Nat} (h : n ≤ maxLength) : Bytes.digitCount n ≤ 4 :=
  Bytes.digitCount_le_iff.mpr (Nat.lt_of_le_of_lt h (by decide))

theorem length_lengthOctets_le {m n : Nat} (h : m ≤ n) :
    (lengthOctets m).length ≤ (lengthOctets n).length := by
  have hcount : Bytes.digitCount m ≤ Bytes.digitCount n :=
    Bytes.digitCount_le_iff.mpr (Nat.lt_of_le_of_lt h (Bytes.lt_pow_digitCount n))
  unfold lengthOctets
  split
  · split <;> simp
  · rw [if_neg (by omega)]
    simpa using hcount

theorem length_lengthOctets_le_five {n : Nat} (h : n < 256 ^ 4) : (lengthOctets n).length ≤ 5 := by
  have hcount := Bytes.digitCount_le_iff.mpr h
  unfold lengthOctets
  split
  · simp
  · rw [List.length_cons, Bytes.length_ofNatMin]
    omega

theorem length_lengthOctets_pos (n : Nat) : 0 < (lengthOctets n).length := by
  unfold lengthOctets
  split <;> simp

theorem readLength_lengthOctets {n : Nat} (h : n ≤ maxLength) (r : Bytes) :
    readLength (lengthOctets n ++ r) = some (n, r) := by
  unfold lengthOctets
  split
  case isTrue hn =>
    have hlt : UInt8.ofNat n < 128 := by
      rw [UInt8.lt_iff_toNat_lt, UInt8.toNat_ofNat']
      exact Nat.lt_of_le_of_lt (Nat.mod_le _ _) hn
    have hval : (UInt8.ofNat n).toNat = n := by
      rw [UInt8.toNat_ofNat']
      exact Nat.mod_eq_of_lt (by omega)
    simp [readLength, hlt, hval]
  case isFalse hn =>
    have hcount := digitCount_of_le_maxLength h
    have hval : (UInt8.ofNat (128 + Bytes.digitCount n)).toNat = 128 + Bytes.digitCount n := by
      rw [UInt8.toNat_ofNat']
      exact Nat.mod_eq_of_lt (by omega)
    have hlt : ¬ UInt8.ofNat (128 + Bytes.digitCount n) < 128 := by
      rw [UInt8.lt_iff_toNat_lt, hval]
      simp
    have htake : (Bytes.ofNatMin n ++ r).take (Bytes.digitCount n) = Bytes.ofNatMin n :=
      List.take_left' (Bytes.length_ofNatMin n)
    have hdrop : (Bytes.ofNatMin n ++ r).drop (Bytes.digitCount n) = r :=
      List.drop_left' (Bytes.length_ofNatMin n)
    have hoctets : lengthOctets n =
        UInt8.ofNat (128 + Bytes.digitCount n) :: Bytes.ofNatMin n := by simp [lengthOctets, hn]
    simp only [readLength, List.cons_append, hlt, if_false, hval, Nat.add_sub_cancel_left, htake, hdrop,
      Bytes.toNat_ofNatMin]
    exact if_pos ⟨by simpa using hcount, h, hoctets⟩

theorem readLength_eq_some {b r : Bytes} {n : Nat} :
    readLength b = some (n, r) ↔ b = lengthOctets n ++ r ∧ n ≤ maxLength := by
  constructor
  · intro h
    unfold readLength at h
    split at h
    · cases h
    case h_2 f rest =>
      by_cases hf : f < 128
      · rw [if_pos hf] at h
        cases h
        have hn : f.toNat < 128 := by simpa [UInt8.lt_iff_toNat_lt] using hf
        refine ⟨?_, Nat.le_trans (Nat.le_of_lt hn) (by decide)⟩
        simp [lengthOctets, hn]
      · rw [if_neg hf] at h
        dsimp only at h
        split at h
        case isFalse => cases h
        case isTrue hc =>
          obtain ⟨-, hle, hoctets⟩ := hc
          simp only [Option.some.injEq, Prod.mk.injEq] at h
          obtain ⟨rfl, rfl⟩ := h
          refine ⟨?_, hle⟩
          rw [hoctets, List.cons_append, List.take_append_drop]
  · rintro ⟨rfl, h⟩
    exact readLength_lengthOctets h r

/-! ### Single elements -/

namespace Element

theorem read_encode {e : Element} (h : e.Fits) (r : Bytes) : read (e.encode ++ r) = some (e, r) := by
  have hlength := readLength_lengthOctets h (e.content ++ r)
  simp [encode, header, read, Tag.ofOctet?_octet, hlength, List.append_assoc]

theorem read_eq_some {b r : Bytes} {e : Element} :
    read b = some (e, r) ↔ b = e.encode ++ r ∧ e.Fits := by
  constructor
  · intro h
    unfold read at h
    split at h
    · cases h
    case h_2 t rest =>
      simp only [Option.bind_eq_bind, Option.bind_eq_some_iff] at h
      obtain ⟨tag, htag, ⟨n, rest'⟩, hlength, h⟩ := h
      obtain ⟨rfl, hle⟩ := readLength_eq_some.mp hlength
      split at h
      case isFalse => cases h
      case isTrue hc =>
        cases h
        refine ⟨?_, ?_⟩
        · simp only [encode, header, Tag.octet_of_ofOctet? htag, hc, List.cons_append,
            List.append_assoc, List.take_append_drop]
        · rw [Fits, hc]
          exact hle
  · rintro ⟨rfl, h⟩
    exact read_encode h r

/-- Octets are an element exactly if they are its encoding. -/
theorem ofBytes?_eq_some {b : Bytes} {e : Element} :
    ofBytes? b = some e ↔ b = e.encode ∧ e.Fits := by
  have hread : ofBytes? b = some e ↔ read b = some (e, []) := by
    unfold ofBytes?
    split
    case h_1 e' h => simp [h]
    case h_2 h =>
      constructor
      · intro h'
        cases h'
      · intro h'
        exact absurd h' (h e)
  rw [hread, read_eq_some, List.append_nil]

theorem ofBytes?_encode {e : Element} (h : e.Fits) : ofBytes? e.encode = some e :=
  ofBytes?_eq_some.mpr ⟨rfl, h⟩

/-- Elements that fit are told apart by their octets. -/
theorem encode_inj {e f : Element} (he : e.Fits) (hf : f.Fits) (h : e.encode = f.encode) : e = f := by
  have hread := ofBytes?_encode he
  rw [h, ofBytes?_encode hf] at hread
  exact (Option.some.inj hread).symm

theorem length_encode (e : Element) :
    e.encode.length = 1 + (lengthOctets e.content.length).length + e.content.length := by
  simp only [encode, header, List.length_append, List.length_cons]
  omega

theorem length_encode_mono {e f : Element} (h : e.content.length ≤ f.content.length) :
    e.encode.length ≤ f.encode.length := by
  have hheader := length_lengthOctets_le h
  rw [length_encode, length_encode]
  omega

theorem length_encode_congr {e f : Element} (h : e.content.length = f.content.length) :
    e.encode.length = f.encode.length := by
  rw [length_encode, length_encode, h]

/-- How long an element is tells how long its content is. -/
theorem length_content_of_encode {e f : Element} (h : e.encode.length = f.encode.length) :
    e.content.length = f.content.length := by
  rw [length_encode, length_encode] at h
  rcases Nat.lt_trichotomy e.content.length f.content.length with hlt | heq | hgt
  · have := length_lengthOctets_le (Nat.le_of_lt hlt)
    omega
  · exact heq
  · have := length_lengthOctets_le (Nat.le_of_lt hgt)
    omega

/-- A header takes at most six octets. -/
theorem length_encode_le {e : Element} {n : Nat} (h : e.content.length ≤ n) (hn : n ≤ maxLength) :
    e.encode.length ≤ n + 6 := by
  have hlength : e.content.length < 256 ^ 4 := Nat.lt_of_le_of_lt (Nat.le_trans h hn) (by decide)
  have hheader := length_lengthOctets_le_five hlength
  rw [length_encode]
  omega

/-- A header takes six octets where the content is long. -/
theorem length_encode_of_long {e : Element} (hlong : 256 ^ 3 ≤ e.content.length)
    (h : e.content.length < 256 ^ 4) : e.encode.length = e.content.length + 6 := by
  have hupper := length_lengthOctets_le_five h
  have hlower := length_lengthOctets_le hlong
  have hleast : (lengthOctets (256 ^ 3)).length = 5 := by decide +kernel
  rw [length_encode]
  omega

/-- Some octets more in an element that fits make its header longer by four octets at most. -/
theorem length_encode_le_add {e f : Element} {k : Nat} (hf : f.Fits) (hk : k ≤ 64)
    (h : e.content.length ≤ f.content.length + k) : e.encode.length ≤ f.encode.length + (k + 4) := by
  have hlength : e.content.length < 256 ^ 4 := by
    have hroom : maxLength + 64 < 256 ^ 4 := by decide
    unfold Fits at hf
    omega
  have hheader := length_lengthOctets_le_five hlength
  have hlower := length_lengthOctets_pos f.content.length
  rw [length_encode, length_encode]
  omega

theorem length_content_lt_encode (e : Element) : e.content.length < e.encode.length := by
  rw [length_encode]
  omega

theorem encode_ne_nil (e : Element) : e.encode ≠ [] := by
  simp [encode, header]

/-! ### Elements in a row -/

@[simp] theorem join_nil : join [] = [] := rfl

@[simp] theorem join_cons (e : Element) (es : List Element) : join (e :: es) = e.encode ++ join es := rfl

theorem join_singleton (e : Element) : join [e] = e.encode := List.append_nil _

theorem length_join_append (es fs : List Element) :
    (join (es ++ fs)).length = (join es).length + (join fs).length := by
  rw [join, join, join, List.flatMap_append, List.length_append]

theorem length_encode_le_join {e : Element} {es : List Element} (h : e ∈ es) :
    e.encode.length ≤ (join es).length := by
  induction es with
  | nil => cases h
  | cons f es ih =>
    rw [join_cons, List.length_append]
    cases h with
    | head => omega
    | tail _ h => exact Nat.le_trans (ih h) (Nat.le_add_left _ _)

theorem length_content_lt_join {e : Element} {es : List Element} (h : e ∈ es) :
    e.content.length < (join es).length :=
  Nat.lt_of_lt_of_le e.length_content_lt_encode (length_encode_le_join h)

/-- The elements inside an element that fits fit themselves. -/
theorem fits_of_mem_join {e : Element} {es : List Element} (h : (join es).length ≤ maxLength)
    (he : e ∈ es) : e.Fits :=
  Nat.le_of_lt (Nat.lt_of_lt_of_le (length_content_lt_join he) h)

theorem length_le_join (es : List Element) : es.length ≤ (join es).length := by
  induction es with
  | nil => simp
  | cons e es ih =>
    have := e.length_content_lt_encode
    rw [join_cons, List.length_append, List.length_cons]
    omega

theorem readMany_join {es : List Element} (h : ∀ e ∈ es, e.Fits) {k : Nat} (hk : es.length ≤ k) :
    readMany k (join es) = some es := by
  induction es generalizing k with
  | nil => cases k <;> rfl
  | cons e es ih =>
    cases k with
    | zero => simp at hk
    | succ k =>
      have he : e.Fits := h e (by simp)
      have hes := ih (fun f hf => h f (by simp [hf])) (Nat.le_of_succ_le_succ hk)
      have hne : join (e :: es) ≠ [] := by simp [encode_ne_nil]
      rw [readMany.eq_def]
      split
      case h_1 _ hnil => exact absurd hnil hne
      case h_2 hz _ => simp at hz
      case h_3 _ _ j hj _ =>
        cases hj
        rw [join_cons, read_encode he]
        simp [hes]

theorem join_of_readMany {k : Nat} {b : Bytes} {es : List Element} (h : readMany k b = some es) :
    b = join es ∧ ∀ e ∈ es, e.Fits := by
  induction k generalizing b es with
  | zero =>
    cases b with
    | nil =>
      cases h
      simp
    | cons x b => cases h
  | succ k ih =>
    cases b with
    | nil =>
      cases h
      simp
    | cons x b =>
      simp only [readMany, Option.bind_eq_bind, Option.bind_eq_some_iff] at h
      obtain ⟨⟨e, r⟩, he, fs, hfs, h⟩ := h
      cases h
      obtain ⟨hb, hfits⟩ := read_eq_some.mp he
      obtain ⟨rfl, hall⟩ := ih hfs
      refine ⟨hb, ?_⟩
      simpa using ⟨hfits, hall⟩

/-- A string is taken apart into exactly the elements that it joins. -/
theorem split?_eq_some {b : Bytes} {es : List Element} :
    split? b = some es ↔ b = join es ∧ ∀ e ∈ es, e.Fits := by
  constructor
  · exact join_of_readMany
  · rintro ⟨rfl, h⟩
    exact readMany_join h (length_le_join es)

theorem split?_join {es : List Element} (h : (join es).length ≤ maxLength) :
    split? (join es) = some es :=
  split?_eq_some.mpr ⟨rfl, fun _ he => fits_of_mem_join h he⟩

@[simp] theorem content_ofElements (t : Tag) (es : List Element) : (ofElements t es).content = join es := rfl

@[simp] theorem tag_ofElements (t : Tag) (es : List Element) : (ofElements t es).tag = t := rfl

theorem elements?_ofElements {t : Tag} {es : List Element} (h : (ofElements t es).Fits) :
    elements? t (ofElements t es) = some es := by
  simp only [elements?, tag_ofElements, if_true, content_ofElements]
  exact split?_join h

theorem elements?_eq_some {t : Tag} {e : Element} {es : List Element} :
    elements? t e = some es ↔ e = ofElements t es ∧ ∀ f ∈ es, f.Fits := by
  unfold elements?
  split
  case isTrue ht =>
    rw [split?_eq_some]
    refine and_congr_left fun _ => ?_
    constructor
    · intro hc
      cases e
      cases ht
      cases hc
      rfl
    · rintro rfl
      rfl
  case isFalse ht =>
    constructor
    · intro h
      cases h
    · rintro ⟨rfl, -⟩
      exact absurd rfl ht

end Element

end CertEnroll.Der
