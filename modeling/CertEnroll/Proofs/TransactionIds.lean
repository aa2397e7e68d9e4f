import CertEnroll.Proofs.AttributeGrammar
import CertEnroll.Proofs.AttributeSets
import CertEnroll.TransactionId.Derive

/-!
# Proofs.TransactionIds — which texts are transaction ids, and when two ids are the same

An id is a non-empty text over the alphabet of printable strings that is short enough to be written.  The
ids of keys and the drawn ones are hexadecimal texts; the constructor that looks at a text accepts them as
they are, and so does a decoder of attributes.  A hexadecimal text determines its octets, so ids of keys are
as different as the digests are, and drawn ids as the octets drawn.
-/

namespace CertEnroll

open Der (SetOf)
open X509 (Attribute Attributes KeyInfo)

/-! ### Texts -/

/-- The characters of printable strings. -/
def Text.alphabet : List Char :=
  "ABCDEFGHIJKLMNOPQRSTUVWXYZabcdefghijklmnopqrstuvwxyz0123456789 '()+,-./:=?".toList

theorem Text.isPrintable_iff (c : Char) : isPrintable c = true ↔ c ∈ alphabet := by
  -- outside ASCII both sides are false, and the ASCII characters are looked at one by one
  have hascii : ∀ n : Fin 128, isPrintable (Char.ofNat n) = true ↔ Char.ofNat n ∈ alphabet := by
    decide +kernel
  have hlt : alphabet.all (fun c => c.toNat < 128) = true := by decide +kernel
  have hiff (h : c.toNat < 128) : isPrintable c = true ↔ c ∈ alphabet := by
    have hc := hascii ⟨c.toNat, h⟩
    rwa [Char.ofNat_toNat] at hc
  constructor
  · intro h
    exact (hiff (toNat_lt_of_isPrintable h)).mp h
  · intro h
    exact (hiff (of_decide_eq_true (List.all_eq_true.mp hlt c h))).mpr h

theorem Text.allPrintable_iff (s : String) : allPrintable s = true ↔ ∀ c ∈ s.toList, c ∈ alphabet := by
  rw [allPrintable, List.all_eq_true]
  exact forall₂_congr fun c _ => isPrintable_iff c

theorem Bytes.toHex_inj {a b : Bytes} : a.toHex = b.toHex ↔ a = b := by
  constructor
  · intro h
    have hread := ofHex?_toHex a
    rw [h, ofHex?_toHex] at hread
    exact (Option.some.inj hread).symm
  · rintro rfl
    rfl

namespace TransactionId

theorem exists_ofText?_iff (s : String) :
    (∃ i, ofText? s = some i) ↔
      s ≠ "" ∧ (∀ c ∈ s.toList, c ∈ Text.alphabet) ∧ s.length ≤ Der.maxLength := by
  simp only [ofText?_eq_some, ← Text.allPrintable_iff]
  constructor
  · rintro ⟨i, rfl⟩
    exact i.valid
  · intro h
    exact ⟨⟨s, h⟩, rfl⟩

theorem text_inj {i j : TransactionId} : i.text = j.text ↔ i = j := by
  rw [← ofText?_eq_some, ofText?_text, Option.some_inj, eq_comm]

/-! ### Ids made of octets -/

theorem ofKey_eq_ok {k : KeyInfo} {d : Digest} {i : TransactionId} :
    ofKey k d = .ok i ↔ i.text = (d.hash (Der.encode k)).toHex ∧ (Der.encode k).length ≤ Der.maxLength := by
  rw [ofKey, Der.write, Der.bounded_bind_eq_ok, Result.pure_eq_ok, ← text_inj, @eq_comm _ i.text]
  rfl

theorem exists_ofKey_iff (k : KeyInfo) (d : Digest) :
    (∃ i, ofKey k d = .ok i) ↔ (Der.encode k).length ≤ Der.maxLength := by
  simp only [ofKey_eq_ok]
  constructor
  · rintro ⟨i, -, h⟩
    exact h
  · intro h
    exact ⟨ofBytes _ (length_hash_bounds d (Der.encode k)), rfl, h⟩

/-- The document of a key is longer than the key. -/
theorem length_key_lt_encode (k : KeyInfo) : k.key.bytes.length < (Der.encode k).length := by
  have hstring : (Der.toElement k.key).content.length = k.key.bytes.length + 1 := List.length_cons
  have hkey : (Der.toElement k.key).content.length < (Der.toElement k).content.length :=
    Der.Element.length_content_lt_join (by simp)
  have hdocument : (Der.toElement k).content.length < (Der.encode k).length :=
    Der.Element.length_content_lt_encode _
  omega

/-- Two ids that are made of octets are equal exactly if the octets are. -/
theorem eq_iff_of_toHex {a b : Bytes} {i j : TransactionId} (hi : i.text = a.toHex) (hj : j.text = b.toHex) :
    i = j ↔ a = b := by
  rw [← text_inj, hi, hj, Bytes.toHex_inj]

theorem text_draw (r : Random) : (draw.run r).1.text = ((Random.draw randomSize).run r).1.toHex := rfl

theorem draw_eq_iff (r r' : Random) :
    (draw.run r).1 = (draw.run r').1 ↔
      ∀ j < randomSize, r.source (r.drawn + j) = r'.source (r'.drawn + j) := by
  have hbytes (r : Random) : ((Random.draw randomSize).run r).1 =
      (List.range randomSize).map fun j => r.source (r.drawn + j) := rfl
  rw [eq_iff_of_toHex (text_draw r) (text_draw r'), hbytes, hbytes, List.map_inj_left]
  simp only [List.mem_range]

end TransactionId

/-! ### Ids in attributes -/

namespace MessageAttributes

open SignedAttributes

/-- A decoder of attributes takes an id. -/
structure TakesId (i : TransactionId) : Prop where
  /-- What a requester says of a message under the id is decoded as it was said, if it can be written. -/
  asked (type : MessageType) (nonce : Nonce) (echoed : Option Nonce) (own : List Attribute)
    (hown : encode { request i type nonce with recipientNonce := echoed } = .ok own)
    (hfits : ∀ a ∈ own, (Der.toElement a).Fits) :
    ∃ as, SetOf.ofList? own = some as ∧ decode as = .ok { request i type nonce with recipientNonce := echoed }
  /-- Whatever is decoded from a set that holds the id has this id. -/
  ok (as : Attributes) (m : MessageAttributes) (h : Holds as AttributeId.transactionId (text i.text))
    (hm : decode as = .ok m) : m.transactionId = i
  /-- Where such a set is not decoded, it is for another attribute. -/
  error (as : Attributes) (err : Error) (h : Holds as AttributeId.transactionId (text i.text))
    (herr : decode as = .error err) :
    ∃ o ≠ AttributeId.transactionId, err = .missingAttribute o ∨ err = .invalidAttribute o

theorem eq_of_text {i j : TransactionId} (h : text i.text = text j.text) : i = j := by
  have hread := printable?_id i
  rw [h, printable?_id j] at hread
  exact (Option.some.inj hread).symm

/-- A rule that is broken in a set that holds an id is not the one for the id. -/
theorem id_ne_of_breaks {as : Attributes} {i : TransactionId} {r : Rule} {err : Error}
    (h : Holds as AttributeId.transactionId (text i.text)) (hr : r ∈ grammar) (hbreaks : r.Breaks as err) :
    r.id ≠ AttributeId.transactionId := by
  rcases List.mem_cons.mp hr with rfl | hr
  · exact absurd (.inr ⟨_, h, i.text, rfl, i.valid⟩) hbreaks.not_met
  · have hids : AttributeId.transactionId ∉ ids.tail := by decide
    intro hid
    exact hids (hid ▸ List.mem_map_of_mem (f := Rule.id) hr)

theorem takesId (i : TransactionId) : TakesId i where
  asked type nonce echoed own hown hfits := by
    have hl : own.Perm (own ++ []) := .of_eq (List.append_nil own).symm
    obtain ⟨as, has⟩ := (exists_ofList?_iff_fits hown (by simp) List.nodup_nil hl).mpr hfits
    exact ⟨as, has, decode_of_perm hown ((SetOf.perm_of_ofList? has).trans hl) (by simp)⟩
  ok as m h hm := by
    obtain ⟨e, he, htext⟩ := (decode_eq_ok_iff.mp hm).transactionId
    rw [← h.unique he] at htext
    exact (eq_of_text htext).symm
  error as err h herr := by
    obtain ⟨r, hr, hbreaks⟩ := ((decode_obeys as).error_iff.mp herr).exists_breaks
    have hid := id_ne_of_breaks h hr hbreaks
    cases hbreaks with
    | missing => exact ⟨r.id, hid, .inl rfl⟩
    | invalid => exact ⟨r.id, hid, .inr rfl⟩

end MessageAttributes

/-! ### What ids are, and when they are equal -/

namespace TransactionId

/-- The texts that make ids are the non-empty ones over the alphabet that are not too long, and they are
kept as they are.  A key has an id if its document is not too long.  The hexadecimal texts of digests and of
drawn octets make ids, and any id is taken by a decoder of attributes.  Two drawn ids are equal exactly if
the octets are, and two ids of keys if the digests are, whichever algorithms made them. -/
theorem valid_and_told_apart :
    (∀ s, (∃ i, ofText? s = some i) ↔
      s ≠ "" ∧ (∀ c ∈ s.toList, c ∈ Text.alphabet) ∧ s.length ≤ Der.maxLength) ∧
      (∀ s i, ofText? s = some i ↔ i.text = s) ∧
      (∀ k d, (∃ i, ofKey k d = .ok i) ↔ (Der.encode k).length ≤ Der.maxLength) ∧
      (∀ k d i, ofKey k d = .ok i → ofText? (d.hash (Der.encode k)).toHex = some i) ∧
      (∀ r, ofText? ((Random.draw 16).run r).1.toHex = some (draw.run r).1) ∧
      (∀ i, MessageAttributes.TakesId i) ∧
      (∀ r r' : Random, (draw.run r).1 = (draw.run r').1 ↔
        ∀ j < 16, r.source (r.drawn + j) = r'.source (r'.drawn + j)) ∧
      ∀ k k' d d' i i', ofKey k d = .ok i → ofKey k' d' = .ok i' →
        (i = i' ↔ d.hash (Der.encode k) = d'.hash (Der.encode k')) := by
  refine ⟨exists_ofText?_iff, fun _ _ => ofText?_eq_some, exists_ofKey_iff, ?_, ?_, MessageAttributes.takesId,
    draw_eq_iff, ?_⟩
  · intro k d i hi
    exact ofText?_eq_some.mpr (ofKey_eq_ok.mp hi).1
  · intro r
    exact ofText?_eq_some.mpr (text_draw r)
  · intro k k' d d' i i' hi hi'
    exact eq_iff_of_toHex (ofKey_eq_ok.mp hi).1 (ofKey_eq_ok.mp hi').1

/-- A key of one octet. -/
def shortKey : KeyInfo where
  algorithm := ⟨rsaEncryption, none⟩
  key := .ofBytes [1]

/-- A key has two ids by two digests, which are of different lengths. -/
theorem valid_and_told_apart_shortKey : ∃ i i', ofKey shortKey .md5 = .ok i ∧
    ofText? (Digest.md5.hash (Der.encode shortKey)).toHex = some i ∧ ofKey shortKey .sha256 = .ok i' ∧ i ≠ i' := by
  obtain ⟨-, -, hexists, hvalid, -, -, -, htold⟩ := valid_and_told_apart
  have hshort : (Der.encode shortKey).length ≤ Der.maxLength := by decide
  obtain ⟨i, hi⟩ := (hexists shortKey .md5).mpr hshort
  obtain ⟨i', hi'⟩ := (hexists shortKey .sha256).mpr hshort
  refine ⟨i, i', hi, hvalid _ _ i hi, hi', fun hsame => ?_⟩
  have hlength := congrArg List.length ((htold _ _ _ _ i i' hi hi').mp hsame)
  rw [Digest.length_hash, Digest.length_hash] at hlength
  revert hlength
  decide

/-- A text of one letter, one character longer than ids may be. -/
def longText : String := String.ofList (List.replicate (Der.maxLength + 1) 'a')

/-- A key in the longest bit string. -/
def longKey : KeyInfo where
  algorithm := ⟨rsaEncryption, none⟩
  key := ⟨0, List.replicate Der.maxLength 0, by decide, fun _ => rfl⟩

/-- A text over the alphabet that is too long makes no id, and a key whose document is too long has none.
No decoder of attributes takes the id of a requester whose nonces are too long: nothing can be written. -/
theorem long_values_refused :
    (longText ≠ "" ∧ (∀ c ∈ longText.toList, c ∈ Text.alphabet) ∧ ofText? longText = none) ∧
      (¬ ∃ i, ofKey longKey .sha256 = .ok i) ∧
      ¬ ∃ own, (MessageAttributes.request MessageAttributes.sampleRejection.transactionId .getCrl
        MessageAttributes.longNonce).encode = .ok own := by
  have hlength : longText.length = Der.maxLength + 1 := by
    rw [longText, String.length_ofList, List.length_replicate]
  refine ⟨⟨?_, ?_, ?_⟩, ?_, MessageAttributes.not_exists_encode_of_longNonce rfl⟩
  · intro hempty
    rw [hempty, String.length_empty] at hlength
    omega
  · intro c hc
    rw [longText, String.toList_ofList] at hc
    rw [List.eq_of_mem_replicate hc]
    decide
  · rw [← Option.not_isSome_iff_eq_none, Option.isSome_iff_exists, exists_ofText?_iff, hlength]
    exact fun h => Nat.not_succ_le_self _ h.2.2
  · have hkey : longKey.key.bytes.length = Der.maxLength := List.length_replicate
    have hdocument := length_key_lt_encode longKey
    rw [exists_ofKey_iff]
    omega

end TransactionId

end CertEnroll
