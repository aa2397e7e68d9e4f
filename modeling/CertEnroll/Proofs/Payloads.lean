import CertEnroll.Operation
import CertEnroll.Proofs.Der.Origins
import CertEnroll.Proofs.Envelope
import CertEnroll.Proofs.Result

/-!
# Proofs.Payloads — what requests and answers carry is read back

The operation of a request comes back as it was.  The lists of a store come back in the order of the sets
that are written of them.
-/

namespace CertEnroll

open Cms (CertificateChoice ContentInfo RevocationChoice SignedContent SignedData)
open Der (Element Fields Member Readable SetOf ofElement? precedes toElement)
open X509 (IssuerAndSerial)

/-! ### Operations -/

/-- What is asked for can be read back. -/
def Operation.Legible : Operation → Prop
  | pkcsReq r => Readable r
  | getCertInitial i => Readable i
  | getCert i => Readable i
  | getCrl i => Readable i

/-- Octets encode an operation. -/
def Operation.ReadFrom (b : Bytes) : Operation → Prop
  | pkcsReq r => Der.read b = .ok r
  | getCertInitial i => Der.read b = .ok i
  | getCert i => Der.read b = .ok i
  | getCrl i => Der.read b = .ok i

theorem Operation.read_eq_ok {type : MessageType} {b : Bytes} {op : Operation} :
    Operation.read type b = .ok op ↔ op.messageType = type ∧ op.ReadFrom b := by
  constructor
  · intro h
    cases type with
    | certRep => cases h
    | pkcsReq | getCertInitial | getCert | getCrl =>
      obtain ⟨_, hread, rfl⟩ := Result.map_eq_ok.mp h
      exact ⟨rfl, hread⟩
  · rintro ⟨rfl, h⟩
    cases op with
    | pkcsReq _ | getCertInitial _ | getCert _ | getCrl _ => exact Result.map_eq_ok.mpr ⟨_, h, rfl⟩

theorem Operation.read_of_write {op : Operation} {b : Bytes} (hop : op.Legible) (h : op.write = .ok b) :
    Operation.read op.messageType b = .ok op := by
  refine read_eq_ok.mpr ⟨rfl, ?_⟩
  cases op with
  | pkcsReq _ | getCertInitial _ | getCert _ | getCrl _ => exact hop.read h

theorem X509.SerialNumber.content_ne_nil {e : Element} {n : SerialNumber} (h : ofElement? e = some n) :
    n.content ≠ [] := by
  change (if e.tag = .integer ∧ isCanonical e.content = true ∧ e.content.length ≤ maxRead then
    some (⟨e.content⟩ : SerialNumber) else none) = some n at h
  split at h
  case isTrue hread =>
    cases h
    intro hempty
    change e.content = [] at hempty
    rw [hempty] at hread
    exact Bool.false_ne_true hread.2.1
  case isFalse => cases h

/-- The serial number of a certificate that is asked for has octets. -/
theorem Operation.serial_of_read {type : MessageType} {b : Bytes} {id : IssuerAndSerial}
    (h : Operation.read type b = .ok (.getCert id)) : id.serial.content ≠ [] := by
  have hread : (Der.read b : Result IssuerAndSerial) = .ok id := (read_eq_ok.mp h).2
  obtain ⟨-, e, -, -, he⟩ := Der.read_eq_ok.mp hread
  obtain ⟨es, -, -, he⟩ := Fields.exists_of_ofSequence? he
  obtain ⟨_, _, issuer, -, -, he⟩ := Fields.exists_of_run_value he
  obtain ⟨_, _, serial, -, hserial, he⟩ := Fields.exists_of_run_value he
  cases he
  exact X509.SerialNumber.content_ne_nil hserial

/-! ### Lists that are written as sets -/

section Lists

variable {α β : Type} [Member β] {f : α → β} {g : β → Option α} {o : Option (SetOf β)}

/-- A list holds the values of another, in the order of the set that is written of them. -/
def SetOrdered (f : α → β) (l l' : List α) : Prop :=
  l'.Perm l ∧ (l'.map f).Pairwise precedes

theorem CertStore.setOf_eq_ok {l : List β} (h : setOf l = .ok o) :
    ((o.map SetOf.toList).getD []).Perm l ∧ ((o.map SetOf.toList).getD []).Pairwise precedes := by
  cases l with
  | nil =>
    cases h
    exact ⟨List.Perm.refl _, .nil⟩
  | cons x l =>
    obtain ⟨s, hs, h⟩ := Result.bind_eq_ok.mp h
    cases h
    exact ⟨SetOf.perm_of_ofList? (Result.ofOption_eq_ok.mp hs), s.ascending⟩

/-- The set of a list of images holds images, from which the list is found again. -/
theorem CertStore.setOrdered_of_setOf (hg : ∀ a, g (f a) = some a) {l : List α}
    (h : setOf (l.map f) = .ok o) : SetOrdered f l (((o.map SetOf.toList).getD []).filterMap g) := by
  obtain ⟨hperm, hascending⟩ := setOf_eq_ok h
  generalize (o.map SetOf.toList).getD [] = members at hperm hascending ⊢
  have himages : (members.filterMap g).map f = members := by
    rw [List.map_filterMap]
    refine (List.filterMap_congr fun x hx => ?_).trans List.filterMap_some
    obtain ⟨a, -, rfl⟩ := List.mem_map.mp (hperm.subset hx)
    rw [hg a]
    rfl
  refine ⟨?_, himages.symm ▸ hascending⟩
  have hfound := hperm.filterMap g
  rwa [List.filterMap_map, show g ∘ f = some from funext hg, List.filterMap_some] at hfound

theorem CertStore.readable_of_setOf {l : List β} (hl : ∀ x ∈ l, Readable x) (h : setOf l = .ok o) :
    ∀ s ∈ o, Readable s := by
  obtain ⟨hperm, -⟩ := setOf_eq_ok h
  intro s hs
  cases hs
  exact Der.readable_setOf fun x hx => hl x (hperm.subset hx)

end Lists

/-! ### Stores -/

namespace CertStore

/-- What a store holds can be read back. -/
structure Legible (s : CertStore) : Prop where
  certificates : ∀ c ∈ s.certificates, Readable c
  revocations : ∀ l ∈ s.revocations, Readable l

/-- The store is the other one, with its lists in the order of their sets. -/
structure Arranges (s' s : CertStore) : Prop where
  certificates : SetOrdered CertificateChoice.certificate s.certificates s'.certificates
  revocations : SetOrdered RevocationChoice.list s.revocations s'.revocations

variable {s : CertStore} {d : SignedData} {b : Bytes}

theorem toSignedData_eq_ok (h : s.toSignedData = .ok d) : ∃ certificates revocations,
    setOf (s.certificates.map CertificateChoice.certificate) = .ok certificates ∧
    setOf (s.revocations.map RevocationChoice.list) = .ok revocations ∧
    d = ⟨.v1, .empty, ⟨Cms.dataType, none⟩, certificates, revocations, .empty⟩ := by
  obtain ⟨certificates, hc, h⟩ := Result.bind_eq_ok.mp h
  obtain ⟨revocations, hr, h⟩ := Result.bind_eq_ok.mp h
  exact ⟨certificates, revocations, hc, hr, (Result.pure_eq_ok.mp h).symm⟩

theorem arranges_ofSignedData (h : s.toSignedData = .ok d) : (ofSignedData d).Arranges s := by
  obtain ⟨certificates, revocations, hc, hr, rfl⟩ := toSignedData_eq_ok h
  exact ⟨setOrdered_of_setOf (g := certificate?) (fun _ => rfl) hc,
    setOrdered_of_setOf (g := revocation?) (fun _ => rfl) hr⟩

theorem Legible.readable (hs : s.Legible) (h : s.toSignedData = .ok d) : Readable d := by
  obtain ⟨certificates, revocations, hc, hr, rfl⟩ := toSignedData_eq_ok h
  refine SignedData.readable (Der.readable_setOf ?_) (SignedContent.readable Cms.readable_dataType)
    (readable_of_setOf ?_ hc) (readable_of_setOf ?_ hr) (Der.readable_setOf ?_)
  · intro a ha
    cases ha
  · intro x hx
    obtain ⟨c, hc, rfl⟩ := List.mem_map.mp hx
    exact CertificateChoice.readable_certificate (hs.certificates c hc)
  · intro x hx
    obtain ⟨l, hl, rfl⟩ := List.mem_map.mp hx
    exact RevocationChoice.readable_list (hs.revocations l hl)
  · intro i hi
    cases hi

theorem read_eq_ok : CertStore.read b = .ok s ↔ ∃ (info : ContentInfo) (d : SignedData),
    Der.read b = .ok info ∧ info.contentType = Cms.signedDataType ∧ ofElement? info.content = some d ∧
      s = ofSignedData d := by
  simp only [CertStore.read, Result.bind_eq_ok, Result.unless_eq_ok, Result.ofDecoded,
    Result.ofOption_eq_ok, Result.pure_eq_ok]
  constructor
  · rintro ⟨info, hinfo, htype, d, hd, rfl⟩
    exact ⟨info, d, hinfo, htype, hd, rfl⟩
  · rintro ⟨info, d, hinfo, htype, hd, rfl⟩
    exact ⟨info, hinfo, htype, d, hd, rfl⟩

/-- The document of a store is read as the store with its lists arranged. -/
theorem read_of_write (hs : s.Legible) (h : s.write = .ok b) :
    ∃ s', CertStore.read b = .ok s' ∧ s'.Arranges s := by
  obtain ⟨d, hd, hb⟩ := Result.bind_eq_ok.mp h
  obtain ⟨hread, hdata⟩ := ContentInfo.read_of_write Cms.readable_signedDataType (hs.readable hd) hb
  exact ⟨ofSignedData d, read_eq_ok.mpr ⟨_, d, hread, rfl, hdata, rfl⟩, arranges_ofSignedData hd⟩

end CertStore

end CertEnroll
