import CertEnroll.MessageAttributes
import CertEnroll.Proofs.Der.Structures

/-!
# Proofs.SignedAttributes — attributes are found in a set, and read as they were written

An attribute is found if it stands in the set alone under its identifier and has one value.  Where a set
is built from attributes of different types, each of them is found again; so the protocol's attributes of
a message are decoded to the message's, except those of a failure without a reason.
-/

namespace CertEnroll

open Der (Element OctetString Oid Readable SetOf ofElement? toElement)
open X509 (Attribute Attributes)

/-! ### Single attributes -/

theorem X509.Attribute.repeats_eq (a : Attribute) : Der.Member.repeats a = false := rfl

theorem X509.Attribute.eq_single_iff {a : Attribute} {o : Oid} {e : Element} :
    a = .single o e ↔ a.type = o ∧ a.values.toList = [e] := by
  constructor
  · rintro rfl
    exact ⟨rfl, rfl⟩
  · rintro ⟨rfl, h⟩
    obtain ⟨type, values⟩ := a
    have hvalues : values = .singleton e := SetOf.ext h
    rw [hvalues]
    rfl

namespace SignedAttributes

variable {α : Type} {read : Element → Option α} {as : Attributes} {o : Oid}

/-- The set has exactly one attribute of the given type, and this attribute has exactly one value. -/
def Holds (as : Attributes) (o : Oid) (e : Element) : Prop :=
  as.toList.filter (fun a => a.type = o) = [.single o e]

/-- The set has no attribute of the given type. -/
def Lacks (as : Attributes) (o : Oid) : Prop :=
  ∀ a ∈ as.toList, a.type ≠ o

theorem find_eq_some {e : Element} : find as o = .ok (some e) ↔ Holds as o e := by
  unfold find Holds
  split
  case h_1 h => simp [h]
  case h_2 a h =>
    have ha : a.type = o := by
      have hmem : a ∈ as.toList.filter (fun a => a.type = o) := by simp [h]
      simpa using (List.mem_filter.mp hmem).2
    rw [h, List.cons.injEq, Attribute.eq_single_iff]
    split
    case h_1 v hv => simp [hv, ha]
    case h_2 hv =>
      constructor
      · intro h'
        cases h'
      · rintro ⟨⟨-, h'⟩, -⟩
        exact absurd h' (hv e)
  case h_3 h =>
    constructor
    · intro h'
      cases h'
    · intro h'
      exact absurd h' (h _)

theorem lacks_iff : Lacks as o ↔ as.toList.filter (fun a => a.type = o) = [] := by
  simp [Lacks, List.filter_eq_nil_iff]

theorem find_eq_none : find as o = .ok none ↔ Lacks as o := by
  rw [lacks_iff]
  unfold find
  split
  case h_1 h => simp [h]
  case h_2 a h =>
    rw [h]
    split <;> simp
  case h_3 hnil _ =>
    constructor
    · intro h'
      cases h'
    · intro h'
      exact absurd h' hnil

theorem findAs_eq_some {a : α} :
    findAs read as o = .ok (some a) ↔ ∃ e, Holds as o e ∧ read e = some a := by
  unfold findAs
  rw [Result.bind_eq_ok]
  constructor
  · rintro ⟨found, hfound, h⟩
    cases found with
    | none => cases h
    | some e =>
      obtain ⟨a', ha', h⟩ := Result.bind_eq_ok.mp h
      cases h
      exact ⟨e, find_eq_some.mp hfound, Result.ofOption_eq_ok.mp ha'⟩
  · rintro ⟨e, he, ha⟩
    exact ⟨some e, find_eq_some.mpr he, Result.bind_eq_ok.mpr ⟨a, Result.ofOption_eq_ok.mpr ha, rfl⟩⟩

theorem findAs_eq_none : findAs read as o = .ok none ↔ Lacks as o := by
  unfold findAs
  rw [Result.bind_eq_ok, ← find_eq_none]
  constructor
  · rintro ⟨found, hfound, h⟩
    cases found with
    | none => exact hfound
    | some e =>
      obtain ⟨a', -, h⟩ := Result.bind_eq_ok.mp h
      cases h
  · intro h
    exact ⟨none, h, rfl⟩

theorem require_eq_ok {found : Result (Option α)} {a : α} :
    require o found = .ok a ↔ found = .ok (some a) := by
  unfold require
  rw [Result.bind_eq_ok]
  constructor
  · rintro ⟨a', ha', h⟩
    rw [ha', Result.ofOption_eq_ok.mp h]
  · intro h
    exact ⟨some a, h, rfl⟩

theorem octets?_eq_some {e : Element} {b : Bytes} : octets? e = some b ↔ e = ⟨.octetString, b⟩ := by
  obtain ⟨tag, content⟩ := e
  unfold octets?
  split <;> simp_all

theorem messageDigest_eq_ok {b : Bytes} :
    messageDigest as = .ok b ↔ Holds as AttributeId.messageDigest ⟨.octetString, b⟩ := by
  rw [messageDigest, require_eq_ok, findAs_eq_some]
  simp [octets?_eq_some]

/-- Attributes of one type, all with one value, are one attribute: no attribute is repeated. -/
theorem holds_or_lacks_iff {e : Element} :
    Lacks as o ∨ Holds as o e ↔ ∀ a ∈ as.toList, a.type = o → a = .single o e := by
  constructor
  · rintro (h | h) a ha ho
    · exact absurd ho (h a ha)
    · have hmem : a ∈ as.toList.filter (fun a => a.type = o) := by simp [ha, ho]
      rw [h] at hmem
      exact List.mem_singleton.mp hmem
  · intro h
    by_cases hex : ∃ a ∈ as.toList, a.type = o
    · obtain ⟨a, ha, ho⟩ := hex
      right
      have hall : ∀ b ∈ as.toList.filter (fun a => a.type = o), b = .single o e := by
        intro b hb
        obtain ⟨hb, hbo⟩ := List.mem_filter.mp hb
        exact h b hb (by simpa using hbo)
      have hnodup : (as.toList.filter (fun a => a.type = o)).Nodup :=
        (SetOf.nodup_toList Attribute.repeats_eq as).filter _
      have hmem : a ∈ as.toList.filter (fun a => a.type = o) := by simp [ha, ho]
      -- a list without repetitions whose members all equal one value
      have hrepeat := List.eq_replicate_of_mem hall
      have hshort := List.nodup_replicate.mp (hrepeat ▸ hnodup)
      have hlong := List.length_pos_of_mem hmem
      have hone : (as.toList.filter (fun a => a.type = o)).length = 1 := by omega
      rw [hone] at hrepeat
      exact hrepeat
    · left
      intro a ha ho
      exact hex ⟨a, ha, ho⟩

/-! ### Attributes of different types -/

variable {l : List Attribute}

theorem filter_type_of_not_mem (h : o ∉ l.map Attribute.type) :
    l.filter (fun a => a.type = o) = [] := by
  rw [List.filter_eq_nil_iff]
  intro a ha
  have hne : a.type ≠ o := fun hao => h (List.mem_map.mpr ⟨a, ha, hao⟩)
  simpa using hne

theorem filter_type_of_nodup (hl : (l.map Attribute.type).Nodup) {a : Attribute} (ha : a ∈ l) :
    l.filter (fun b => b.type = a.type) = [a] := by
  induction l with
  | nil => cases ha
  | cons b l ih =>
    rw [List.map_cons, List.nodup_cons] at hl
    obtain ⟨hb, hl⟩ := hl
    cases ha with
    | head => simp [filter_type_of_not_mem hb]
    | tail _ ha =>
      have hne : b.type ≠ a.type := fun h => hb (List.mem_map.mpr ⟨a, ha, h.symm⟩)
      simp [hne, ih hl ha]

/-- An attribute that a set is built from is found if no other has its type. -/
theorem holds_of_ofList? (h : SetOf.ofList? l = some as) (hl : (l.map Attribute.type).Nodup) {e : Element}
    (he : .single o e ∈ l) : Holds as o e := by
  have hp := (SetOf.perm_of_ofList? h).filter (fun a => decide (a.type = o))
  have hf : l.filter (fun a => a.type = o) = [.single o e] := filter_type_of_nodup hl he
  rw [hf] at hp
  exact List.perm_singleton.mp hp

/-! ### Fields -/

/-- The attributes of some fields, those that have a value. -/
def ofFields (fields : List (Oid × Option Element)) : List Attribute :=
  fields.filterMap fun f => f.2.map (Attribute.single f.1)

variable {fields : List (Oid × Option Element)}

theorem types_ofFields (fields : List (Oid × Option Element)) :
    ((ofFields fields).map Attribute.type).Sublist (fields.map Prod.fst) := by
  induction fields with
  | nil => exact .refl _
  | cons f fields ih =>
    obtain ⟨o, _ | e⟩ := f
    · exact ih.cons _
    · exact ih.cons_cons _

/-- Where no two fields have one type, the attributes of a type are those of its field. -/
theorem filter_ofFields (hn : (fields.map Prod.fst).Nodup) {x : Option Element}
    (hx : (o, x) ∈ fields) :
    (ofFields fields).filter (fun a => a.type = o) = (x.map (Attribute.single o)).toList := by
  induction fields with
  | nil => cases hx
  | cons f fields ih =>
    rw [List.map_cons, List.nodup_cons] at hn
    obtain ⟨hf, hn⟩ := hn
    cases hx with
    | head =>
      have hrest := filter_type_of_not_mem fun h => hf ((types_ofFields fields).subset h)
      cases x with
      | none => exact hrest
      | some e => simpa [ofFields, Attribute.single] using hrest
    | tail _ hx =>
      have hne : f.1 ≠ o := fun h => hf (List.mem_map.mpr ⟨_, hx, h.symm⟩)
      obtain ⟨o', _ | e⟩ := f
      · exact ih hn hx
      · simpa [ofFields, Attribute.single, hne] using ih hn hx

/-- Among the attributes of some fields and others of other types, the value of a field is found, or that
it has none. -/
theorem find_of_perm {x : Option Element} (h : as.toList.Perm (ofFields fields ++ l))
    (hn : (fields.map Prod.fst).Nodup) (ho : ∀ a ∈ l, a.type ≠ o) (hx : (o, x) ∈ fields) :
    find as o = .ok x := by
  have hother : o ∉ l.map Attribute.type := by
    intro hmem
    obtain ⟨a, ha, hao⟩ := List.mem_map.mp hmem
    exact ho a ha hao
  have hp := h.filter (fun a => decide (a.type = o))
  rw [List.filter_append, filter_ofFields hn hx, filter_type_of_not_mem hother,
    List.append_nil] at hp
  cases x with
  | none => exact find_eq_none.mpr (lacks_iff.mpr (List.perm_nil.mp hp))
  | some e => exact find_eq_some.mpr (List.perm_singleton.mp hp)

/-- A value that is found is read as it was written. -/
theorem findAs_of_find {β : Type} {read : Element → Option β} {x : Option β} (v : β → Element)
    (h : find as o = .ok (x.map v)) (hread : ∀ b ∈ x, read (v b) = some b) :
    findAs read as o = .ok x := by
  cases x with
  | none => exact findAs_eq_none.mpr (find_eq_none.mp h)
  | some b => exact findAs_eq_some.mpr ⟨v b, find_eq_some.mp h, hread b rfl⟩

end SignedAttributes

/-! ### Values of attributes -/

theorem Bytes.ascii?_ofAscii {s : String} (h : ∀ c ∈ s.toList, c.toNat < 128) :
    (Bytes.ofAscii s).ascii? = some s := by
  have hbyte (c : Char) (hc : c ∈ s.toList) : (UInt8.ofNat c.toNat).toNat = c.toNat := by
    have := h c hc
    rw [UInt8.toNat_ofNat']
    exact Nat.mod_eq_of_lt (by omega)
  have hall : (Bytes.ofAscii s).all (· < 128) = true := by
    simp only [Bytes.ofAscii, List.all_eq_true, List.mem_map, decide_eq_true_eq]
    rintro b ⟨c, hc, rfl⟩
    rw [UInt8.lt_iff_toNat_lt, hbyte c hc]
    exact h c hc
  have hchars : (Bytes.ofAscii s).map (fun b => Char.ofNat b.toNat) = s.toList := by
    rw [Bytes.ofAscii, List.map_map]
    conv_rhs => rw [← List.map_id s.toList]
    refine List.map_congr_left fun c hc => ?_
    simp only [Function.comp_apply, hbyte c hc, Char.ofNat_toNat, id]
  rw [Bytes.ascii?, if_pos hall, hchars, String.ofList_toList]

theorem Text.toNat_lt_of_isPrintable {c : Char} (h : isPrintable c = true) : c.toNat < 128 := by
  have hle {a b : Char} (h : a ≤ b) : a.toNat ≤ b.toNat := h
  simp only [isPrintable, isDigit, Bool.or_eq_true, Bool.and_eq_true, decide_eq_true_eq] at h
  rcases h with ((⟨-, h⟩ | ⟨-, h⟩) | ⟨-, h⟩) | h
  · exact Nat.lt_of_le_of_lt (hle h) (by decide)
  · exact Nat.lt_of_le_of_lt (hle h) (by decide)
  · exact Nat.lt_of_le_of_lt (hle h) (by decide)
  · have hmarks : printableMarks.all (fun c => decide (c.toNat < 128)) = true := by decide
    exact of_decide_eq_true (List.all_eq_true.mp hmarks c (List.contains_iff_mem.mp h))

namespace MessageAttributes

open SignedAttributes

/-- A printable string. -/
def text (s : String) : Element := ⟨.printableString, Bytes.ofAscii s⟩

theorem printable?_id (i : TransactionId) :
    (printable? (text i.text)).bind TransactionId.ofText? = some i := by
  have hascii : ∀ c ∈ i.text.toList, c.toNat < 128 := fun c hc =>
    Text.toNat_lt_of_isPrintable (List.all_eq_true.mp i.valid.2.1 c hc)
  simp [printable?, text, Bytes.ascii?_ofAscii hascii, TransactionId.ofText?_text]

theorem code?_messageType (t : MessageType) :
    code? MessageType.parse (text (Numeral.ofNat t.code)) = some t := by
  cases t <;> decide +kernel

theorem code?_pkiStatus (s : PkiStatus) :
    code? PkiStatus.parse (text (Numeral.ofNat s.code)) = some s := by
  cases s <;> decide +kernel

theorem code?_failInfo (f : FailInfo) :
    code? FailInfo.parse (text (Numeral.ofNat f.code)) = some f := by
  cases f <;> decide +kernel

/-! ### The protocol's attributes -/

/-- The protocol's attributes of a message, in the order in which they are written. -/
def fields (m : MessageAttributes) : List (Oid × Option Element) :=
  [(AttributeId.transactionId, some (text m.transactionId.text)),
    (AttributeId.messageType, some (text (Numeral.ofNat m.messageType.code))),
    (AttributeId.senderNonce, some ⟨.octetString, m.senderNonce.bytes⟩),
    (AttributeId.recipientNonce, m.recipientNonce.map fun n => ⟨.octetString, n.bytes⟩),
    (AttributeId.pkiStatus, m.pkiStatus.map fun s => text (Numeral.ofNat s.code)),
    (AttributeId.failInfo, m.failInfo.map fun f => text (Numeral.ofNat f.code))]

/-- No nonce is too long to be written. -/
structure NoncesFit (m : MessageAttributes) : Prop where
  sender : m.senderNonce.bytes.length ≤ Der.maxLength
  recipient : ∀ n ∈ m.recipientNonce, n.bytes.length ≤ Der.maxLength

theorem ofText_of_length {o : Oid} {s : String} (h : s.length ≤ Der.maxLength) :
    ofText o s = .ok (.single o (text s)) := by
  have hoctets : (Bytes.ofAscii s).length ≤ Der.maxLength := by
    rw [Bytes.ofAscii, List.length_map, String.length_toList]
    exact h
  exact Der.bounded_bind_eq_ok.mpr ⟨rfl, hoctets⟩

theorem ofOctets_eq_ok {o : Oid} {b : Bytes} {a : Attribute} :
    ofOctets o b = .ok a ↔ a = .single o ⟨.octetString, b⟩ ∧ b.length ≤ Der.maxLength := by
  simp only [ofOctets, Der.OctetString.ofBytes, bind_assoc, pure_bind, Der.bounded_bind_eq_ok,
    Result.pure_eq_ok, @eq_comm _ a]
  rfl

theorem mapM_ofText {α : Type} {o : Oid} {f : α → String} (h : ∀ a, (f a).length ≤ Der.maxLength)
    (x : Option α) : x.mapM (fun a => ofText o (f a)) = .ok (x.map fun a => .single o (text (f a))) := by
  cases x with
  | none => rfl
  | some a => exact Result.map_eq_ok.mpr ⟨_, ofText_of_length (h a), rfl⟩

theorem mapM_ofOctets_eq_ok {o : Oid} {x : Option Nonce} {y : Option Attribute} :
    x.mapM (fun n => ofOctets o n.bytes) = .ok y ↔
      y = x.map (fun n => .single o ⟨.octetString, n.bytes⟩) ∧ ∀ n ∈ x, n.bytes.length ≤ Der.maxLength := by
  cases x with
  | none => exact ⟨fun h => ⟨by cases h; rfl, by simp⟩, fun h => h.1 ▸ rfl⟩
  | some n =>
    refine Result.map_eq_ok.trans ?_
    simp only [ofOctets_eq_ok, Option.map_some, Option.mem_def, Option.some.injEq, forall_eq']
    constructor
    · rintro ⟨_, ⟨rfl, h⟩, rfl⟩
      exact ⟨rfl, h⟩
    · rintro ⟨rfl, h⟩
      exact ⟨_, ⟨rfl, h⟩, rfl⟩

theorem length_messageType_le (t : MessageType) : (Numeral.ofNat t.code).length ≤ Der.maxLength := by
  cases t <;> decide +kernel

theorem length_pkiStatus_le (s : PkiStatus) : (Numeral.ofNat s.code).length ≤ Der.maxLength := by
  cases s <;> decide +kernel

theorem length_failInfo_le (f : FailInfo) : (Numeral.ofNat f.code).length ≤ Der.maxLength := by
  cases f <;> decide +kernel

theorem ofFields_fields (m : MessageAttributes) : ofFields m.fields =
    [.single AttributeId.transactionId (text m.transactionId.text),
      .single AttributeId.messageType (text (Numeral.ofNat m.messageType.code)),
      .single AttributeId.senderNonce ⟨.octetString, m.senderNonce.bytes⟩] ++
    (m.recipientNonce.map fun n =>
      Attribute.single AttributeId.recipientNonce ⟨.octetString, n.bytes⟩).toList ++
    (m.pkiStatus.map fun s => Attribute.single AttributeId.pkiStatus (text (Numeral.ofNat s.code))).toList ++
    (m.failInfo.map fun f => Attribute.single AttributeId.failInfo (text (Numeral.ofNat f.code))).toList := by
  obtain ⟨id, type, sender, recipient, status, reason⟩ := m
  cases recipient <;> cases status <;> cases reason <;> rfl

/-- The attributes of a message can be written exactly if its nonces are not too long. -/
theorem encode_eq_ok {m : MessageAttributes} {own : List Attribute} :
    m.encode = .ok own ↔ own = ofFields m.fields ∧ m.NoncesFit := by
  simp only [encode, ofText_of_length m.transactionId.valid.2.2, ofText_of_length (length_messageType_le _),
    mapM_ofText length_pkiStatus_le, mapM_ofText length_failInfo_le, Result.bind_eq_ok, ofOctets_eq_ok,
    mapM_ofOctets_eq_ok, Result.pure_eq_ok, Except.ok.injEq, exists_eq_left', ofFields_fields]
  constructor
  · rintro ⟨_, ⟨rfl, hsender⟩, _, ⟨rfl, hrecipient⟩, rfl⟩
    exact ⟨rfl, hsender, hrecipient⟩
  · rintro ⟨rfl, hsender, hrecipient⟩
    exact ⟨_, ⟨rfl, hsender⟩, _, ⟨rfl, hrecipient⟩, rfl⟩

/-- The identifiers of the protocol's attributes. -/
def ids : List Oid :=
  [AttributeId.transactionId, AttributeId.messageType, AttributeId.senderNonce,
    AttributeId.recipientNonce, AttributeId.pkiStatus, AttributeId.failInfo]

/-- The identifiers of what stands beside the protocol's attributes. -/
def otherIds : List Oid :=
  [AttributeId.contentType, AttributeId.messageDigest, AttributeId.signingTime]

theorem ids_nodup : (ids ++ otherIds).Nodup := by decide

variable {m : MessageAttributes} {own others : List Attribute} {as : Attributes}

theorem types_encode (h : m.encode = .ok own) : (own.map Attribute.type).Sublist ids := by
  obtain ⟨rfl, -⟩ := encode_eq_ok.mp h
  exact types_ofFields m.fields

theorem types_nodup (h : m.encode = .ok own) (ho : others.map Attribute.type = otherIds) :
    ((own ++ others).map Attribute.type).Nodup := by
  rw [List.map_append, ho]
  exact ids_nodup.sublist ((types_encode h).append (List.Sublist.refl _))

/-- The attributes of a message are decoded to the message's, unless it is a failure without a reason,
whatever attributes of other types stand among them. -/
theorem decode_of_perm (hown : m.encode = .ok own) (h : as.toList.Perm (own ++ others))
    (ho : ∀ a ∈ others, a.type ∉ ids) :
    decode as = if m.pkiStatus = some .failure ∧ m.failInfo = none
      then .error (.missingAttribute AttributeId.failInfo) else .ok m := by
  obtain ⟨rfl, -⟩ := encode_eq_ok.mp hown
  have hids : (m.fields.map Prod.fst).Nodup := (List.nodup_append.mp ids_nodup).1
  have hfound {o : Oid} {x : Option Element} (hx : (o, x) ∈ m.fields) : find as o = .ok x :=
    find_of_perm h hids (fun a ha hao => ho a ha (hao ▸ List.mem_map_of_mem (f := Prod.fst) hx)) hx
  have hid : require AttributeId.transactionId
      (findAs (fun e => (printable? e).bind TransactionId.ofText?) as AttributeId.transactionId) =
      .ok m.transactionId :=
    require_eq_ok.mpr (findAs_of_find (fun i : TransactionId => text i.text)
      (hfound (by simp [fields])) (fun i _ => printable?_id i))
  have htype : require AttributeId.messageType
      (findAs (code? MessageType.parse) as AttributeId.messageType) = .ok m.messageType :=
    require_eq_ok.mpr (findAs_of_find (fun t : MessageType => text (Numeral.ofNat t.code))
      (hfound (by simp [fields])) (fun t _ => code?_messageType t))
  have hsender : require AttributeId.senderNonce (nonce? as AttributeId.senderNonce) =
      .ok m.senderNonce :=
    require_eq_ok.mpr (findAs_of_find (fun n : Nonce => ⟨.octetString, n.bytes⟩)
      (hfound (by simp [fields])) (fun _ _ => rfl))
  have hrecipient : nonce? as AttributeId.recipientNonce = .ok m.recipientNonce :=
    findAs_of_find (fun n : Nonce => ⟨.octetString, n.bytes⟩) (hfound (by simp [fields]))
      (fun _ _ => rfl)
  have hstatus : findAs (code? PkiStatus.parse) as AttributeId.pkiStatus = .ok m.pkiStatus :=
    findAs_of_find (fun s : PkiStatus => text (Numeral.ofNat s.code)) (hfound (by simp [fields]))
      (fun s _ => code?_pkiStatus s)
  have hreason : findAs (code? FailInfo.parse) as AttributeId.failInfo = .ok m.failInfo :=
    findAs_of_find (fun f : FailInfo => text (Numeral.ofNat f.code)) (hfound (by simp [fields]))
      (fun f _ => code?_failInfo f)
  unfold decode
  rw [hid, htype, hsender, hrecipient, hstatus, hreason]
  rfl

end MessageAttributes

end CertEnroll
