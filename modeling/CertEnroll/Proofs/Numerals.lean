import CertEnroll.Code.Numeral
import CertEnroll.Proofs.Result
import Mathlib.Data.List.Basic
import Mathlib.Data.List.Induction

/-!
# Proofs.Numerals — which texts spell a code

A text spells a number if it is a non-empty row of digits with this value, which has no bound; zeros may
stand before the others.  The number is read into one octet, digit by digit, and what is read is the value
if it fits, else nothing: a value that does not fit is never taken for another.  So a code set is parsed
from exactly the texts that spell the number of a member.  Among the texts without a zero in front, each
number has one, and this is the one that is written.
-/

namespace CertEnroll

/-! ### Rows of digits -/

namespace Text

variable {s t : List Char}

theorem decimal_concat (s : List Char) (c : Char) :
    decimal (s ++ [c]) = 10 * decimal s + (c.toNat - 48) := by
  simp [decimal]

theorem toNat_of_isDigit {c : Char} (h : isDigit c = true) : 48 ≤ c.toNat ∧ c.toNat ≤ 57 := by
  simp only [isDigit, Bool.and_eq_true, decide_eq_true_eq] at h
  exact h

theorem eq_of_isDigit {c d : Char} (hc : isDigit c = true) (hd : isDigit d = true)
    (h : c.toNat - 48 = d.toNat - 48) : c = d := by
  have := toNat_of_isDigit hc
  have := toNat_of_isDigit hd
  exact Char.toNat_inj.mp (by omega)

theorem decimal_pos (hs : ∀ c ∈ s, isDigit c = true) (hne : s ≠ []) (hzero : s.head? ≠ some '0') :
    0 < decimal s := by
  induction s using List.reverseRecOn with
  | nil => exact absurd rfl hne
  | append_singleton s c ih =>
    rw [decimal_concat]
    by_cases hnil : s = []
    · subst hnil
      have hc := toNat_of_isDigit (hs c (by simp))
      have h48 : c.toNat ≠ 48 := fun h => hzero (congrArg some (Char.toNat_inj.mp h))
      omega
    · rw [List.head?_append_of_ne_nil _ hnil] at hzero
      have := ih (fun d hd => hs d (by simp [hd])) hnil hzero
      omega

/-- No zero stands before other digits. -/
def IsPlain (s : List Char) : Prop := s.head? = some '0' → s.length = 1

theorem IsPlain.head?_init {c : Char} (h : IsPlain (s ++ [c])) (hne : s ≠ []) : s.head? ≠ some '0' := by
  intro hzero
  have hlength := h (by rw [List.head?_append_of_ne_nil _ hne, hzero])
  rw [List.length_append, List.length_singleton] at hlength
  exact hne (List.eq_nil_of_length_eq_zero (by omega))

/-- Two rows of digits with no zero in front spell different numbers. -/
theorem eq_of_decimal_eq (hs : ∀ c ∈ s, isDigit c = true) (ht : ∀ c ∈ t, isDigit c = true)
    (hs' : IsPlain s) (ht' : IsPlain t) (hsne : s ≠ []) (htne : t ≠ [])
    (h : decimal s = decimal t) : s = t := by
  induction s using List.reverseRecOn generalizing t with
  | nil => exact absurd rfl hsne
  | append_singleton s c ih =>
    obtain ⟨t, d, rfl⟩ := (List.eq_nil_or_concat' t).resolve_left htne
    have hc := toNat_of_isDigit (hs c (by simp))
    have hd := toNat_of_isDigit (ht d (by simp))
    rw [decimal_concat, decimal_concat] at h
    have hlast : c = d := eq_of_isDigit (hs c (by simp)) (ht d (by simp)) (by omega)
    have hinit : decimal s = decimal t := by omega
    have hsd : ∀ c ∈ s, isDigit c = true := fun x hx => hs x (by simp [hx])
    have htd : ∀ c ∈ t, isDigit c = true := fun x hx => ht x (by simp [hx])
    rw [hlast]
    congr 1
    -- the digits before the last are none on both sides, or have no zero in front on both
    by_cases hsnil : s = []
    · by_contra hne
      have htnil : t ≠ [] := fun h' => hne (hsnil.trans h'.symm)
      have hpos := decimal_pos htd htnil (ht'.head?_init htnil)
      rw [← hinit, hsnil] at hpos
      exact Nat.lt_irrefl 0 hpos
    · have hhead := hs'.head?_init hsnil
      have hpos := decimal_pos hsd hsnil hhead
      have htnil : t ≠ [] := by
        rintro rfl
        rw [hinit] at hpos
        exact Nat.lt_irrefl 0 hpos
      have hhead' := ht'.head?_init htnil
      exact ih hsd htd (fun h' => absurd h' hhead) (fun h' => absurd h' hhead') hsnil htnil hinit

end Text

/-! ### Codes -/

namespace Numeral

variable {α : Type} {s t : String} {n : Nat}

/-- The text is a non-empty row of digits, and the number is its value. -/
def Spells (s : String) (n : Nat) : Prop :=
  s ≠ "" ∧ (∀ c ∈ s.toList, Text.isDigit c = true) ∧ Text.decimal s.toList = n

theorem spells_iff :
    Spells s n ↔ (s ≠ "" ∧ s.toList.all Text.isDigit = true) ∧ Text.decimal s.toList = n := by
  rw [Spells, List.all_eq_true, and_assoc]

/-- Digits are ASCII. -/
theorem Spells.toNat_lt (hs : Spells s n) : ∀ c ∈ s.toList, c.toNat < 128 := by
  intro c hc
  have := Text.toNat_of_isDigit (hs.2.1 c hc)
  omega

theorem Spells.eq (hs : Spells s n) (ht : Spells t n) (hs' : Text.IsPlain s.toList)
    (ht' : Text.IsPlain t.toList) : s = t := by
  have hlist := Text.eq_of_decimal_eq hs.2.1 ht.2.1 hs' ht' (by simpa using hs.1) (by simpa using ht.1)
    (hs.2.2.trans ht.2.2.symm)
  exact String.toList_inj.mp hlist

theorem toList_ofNat (n : Nat) : (ofNat n).toList = Nat.toDigits 10 n := by
  rw [ofNat, Nat.toString_eq_ofList_toDigits, String.toList_ofList]

theorem spells_ofNat (n : Nat) : Spells (ofNat n) n := by
  have hdigits : ∀ c ∈ Nat.toDigits 10 n, Text.isDigit c = true := by
    intro c hc
    have hdigit := Nat.isDigit_of_mem_toDigits (by decide) (by decide) hc
    simpa [Char.isDigit, Text.isDigit, Char.le_def] using hdigit
  have hvalue : Text.decimal (Nat.toDigits 10 n) = n := by
    have hfold := Nat.ofDigitChars_ten_toDigits (n := n)
    rwa [Nat.ofDigitChars_eq_foldl] at hfold
  have hne : ofNat n ≠ "" := by
    intro h
    have hnil := toList_ofNat n
    rw [h] at hnil
    exact Nat.toDigits_ne_nil hnil.symm
  rw [← toList_ofNat] at hdigits hvalue
  exact ⟨hne, hdigits, hvalue⟩

theorem head?_toDigits (hn : 0 < n) : (Nat.toDigits 10 n).head? ≠ some '0' := by
  induction n using Nat.strongRecOn with
  | ind n ih =>
    by_cases hlt : n < 10
    · have hdigit : ∀ k : Fin 10, 0 < k.val → [k.val.digitChar].head? ≠ some '0' := by decide
      rw [Nat.toDigits_of_lt_base hlt]
      exact hdigit ⟨n, hlt⟩ hn
    · rw [Nat.toDigits_of_base_le (by decide) (by omega),
        List.head?_append_of_ne_nil _ Nat.toDigits_ne_nil]
      exact ih (n / 10) (by omega) (by omega)

theorem isPlain_ofNat (n : Nat) : Text.IsPlain (ofNat n).toList := by
  rw [toList_ofNat]
  intro hzero
  rcases Nat.eq_zero_or_pos n with rfl | hn
  · rfl
  · exact absurd hzero (head?_toDigits hn)

/-- Of the texts that spell a number, the one that is written is the one without zeros in front. -/
theorem Spells.eq_ofNat_iff (hs : Spells s n) : s = ofNat n ↔ Text.IsPlain s.toList := by
  constructor
  · rintro rfl
    exact isPlain_ofNat n
  · intro hplain
    exact hs.eq (spells_ofNat n) hplain (isPlain_ofNat n)

/-! ### Numbers of one octet -/

variable {a b : UInt8}

theorem octet?_eq_some : octet? n = some a ↔ a.toNat = n := by
  have hlt : a.toNat < limit := a.toNat_lt
  unfold octet?
  split
  case isTrue h =>
    rw [Option.some.injEq, ← UInt8.toNat_inj, UInt8.toNat_ofNat_of_lt' h, eq_comm]
  case isFalse h =>
    constructor
    · intro h'
      cases h'
    · rintro rfl
      exact absurd hlt h

theorem append?_eq_some {c : Char} :
    append? a c = some b ↔ b.toNat = 10 * a.toNat + (c.toNat - 48) := by
  unfold append?
  simp only [Option.bind_eq_bind, Option.bind_eq_some_iff, octet?_eq_some]
  constructor
  · rintro ⟨tens, htens, hb⟩
    omega
  · intro hb
    -- the tens fit because the whole does
    have hlt : a.toNat * 10 < limit := by
      have : b.toNat < limit := b.toNat_lt
      omega
    have htens : (UInt8.ofNat (a.toNat * 10)).toNat = a.toNat * 10 := UInt8.toNat_ofNat_of_lt' hlt
    exact ⟨_, htens, by omega⟩

/-- Digits that follow do not make a number smaller, so one that does not fit never fits again. -/
theorem le_foldl (s : List Char) (n : Nat) : n ≤ s.foldl (fun n c => 10 * n + (c.toNat - 48)) n := by
  induction s generalizing n with
  | nil => exact Nat.le_refl n
  | cons c s ih =>
    have hstep : n ≤ 10 * n + (c.toNat - 48) := by omega
    exact Nat.le_trans hstep (ih _)

theorem foldlM_append?_eq_some (s : List Char) (a b : UInt8) :
    s.foldlM append? a = some b ↔ b.toNat = s.foldl (fun n c => 10 * n + (c.toNat - 48)) a.toNat := by
  induction s generalizing a with
  | nil =>
    rw [List.foldlM_nil, List.foldl_nil, UInt8.toNat_inj, eq_comm (a := b)]
    exact Option.some_inj
  | cons c s ih =>
    rw [List.foldlM_cons, List.foldl_cons, Option.bind_eq_bind, Option.bind_eq_some_iff]
    simp only [append?_eq_some, ih]
    constructor
    · rintro ⟨d, hd, hb⟩
      rw [hb, hd]
    · intro hb
      have hle := le_foldl s (10 * a.toNat + (c.toNat - 48))
      have hlt : 10 * a.toNat + (c.toNat - 48) < limit := by
        have : b.toNat < limit := b.toNat_lt
        omega
      have hd := UInt8.toNat_ofNat_of_lt' hlt
      exact ⟨_, hd, by rw [hd, hb]⟩

/-- A row of digits is read if its value fits in an octet, and as no other number. -/
theorem value?_eq_some (s : List Char) : value? s = some a ↔ a.toNat = Text.decimal s :=
  foldlM_append?_eq_some s 0 a

theorem value?_eq_none (s : List Char) : value? s = none ↔ limit ≤ Text.decimal s := by
  rw [Option.eq_none_iff_forall_ne_some]
  simp only [ne_eq, value?_eq_some]
  constructor
  · intro h
    by_contra hlt
    exact h _ (UInt8.toNat_ofNat_of_lt' (Nat.lt_of_not_le hlt))
  · intro hle a ha
    have : a.toNat < limit := a.toNat_lt
    omega

/-! ### Which texts are read -/

variable {set : CodeSet} {ofCode? : Nat → Option α} {code : α → Nat}

theorem parse_of_lt (hs : Spells s n) (hn : n < limit) :
    parse set ofCode? s = ofCode set ofCode? n := by
  obtain ⟨hnumeral, rfl⟩ := spells_iff.mp hs
  have hvalue := UInt8.toNat_ofNat_of_lt' hn
  rw [parse, if_pos hnumeral, (value?_eq_some s.toList).mpr hvalue]
  exact congrArg (ofCode set ofCode?) hvalue

theorem parse_of_le (hs : Spells s n) (hn : limit ≤ n) :
    parse set ofCode? s = .error (.invalidCode set s) := by
  obtain ⟨hnumeral, rfl⟩ := spells_iff.mp hs
  rw [parse, if_pos hnumeral, (value?_eq_none s.toList).mpr hn]
  rfl

theorem parse_of_not_spells (h : ∀ n, ¬ Spells s n) :
    parse set ofCode? s = .error (.invalidCode set s) := by
  rw [parse, if_neg fun hnumeral => h _ (spells_iff.mpr ⟨hnumeral, rfl⟩)]

theorem parse_of_code (hcode : ∀ n a, ofCode? n = some a ↔ n = code a) {a : α}
    (hs : Spells s (code a)) (hlimit : code a < limit) : parse set ofCode? s = .ok a := by
  rw [parse_of_lt hs hlimit, ofCode, Result.ofOption_eq_ok, hcode]

/-- The texts that spell no code, and the error for each.  A sign, a blank or a digit of another script is
foreign; a large number is no code whatever its remainder modulo the limit.  The error gives the text as it
stands, but a number of one octet without zeros in front. -/
inductive Refused (set : CodeSet) (code : α → Nat) : String → Error → Prop
  | empty : Refused set code "" (.invalidCode set "")
  | foreign {s : String} {c : Char} (hc : c ∈ s.toList) (h : Text.isDigit c = false) :
      Refused set code s (.invalidCode set s)
  | large {s : String} {n : Nat} (hs : Spells s n) (hn : limit ≤ n) : Refused set code s (.invalidCode set s)
  | unknown {s : String} {n : Nat} (hs : Spells s n) (hn : n < limit) (h : ∀ a, code a ≠ n) :
      Refused set code s (.invalidCode set (ofNat n))

theorem refused_of_not_spells (h : ∀ n, ¬ Spells s n) : Refused set code s (.invalidCode set s) := by
  by_cases hempty : s = ""
  · subst hempty
    exact .empty
  · have hforeign : ¬ ∀ c ∈ s.toList, Text.isDigit c = true := fun hall => h _ ⟨hempty, hall, rfl⟩
    simp only [not_forall, Bool.not_eq_true] at hforeign
    obtain ⟨c, hc, hdigit⟩ := hforeign
    exact .foreign hc hdigit

/-- A text is either a member's or refused. -/
theorem spells_or_refused (set : CodeSet) (code : α → Nat) (s : String) :
    (∃ a, Spells s (code a)) ∨ ∃ text, Refused set code s (.invalidCode set text) := by
  by_cases hs : ∃ n, Spells s n
  · obtain ⟨n, hs⟩ := hs
    by_cases hn : n < limit
    · by_cases ha : ∃ a, code a = n
      · obtain ⟨a, rfl⟩ := ha
        exact .inl ⟨a, hs⟩
      · exact .inr ⟨_, .unknown hs hn (not_exists.mp ha)⟩
    · exact .inr ⟨_, .large hs (Nat.le_of_not_lt hn)⟩
  · exact .inr ⟨_, refused_of_not_spells (not_exists.mp hs)⟩

theorem parse_of_refused (hcode : ∀ n a, ofCode? n = some a ↔ n = code a) {e : Error}
    (h : Refused set code s e) : parse set ofCode? s = .error e := by
  cases h with
  | empty => exact parse_of_not_spells fun n hs => hs.1 rfl
  | foreign hc h =>
    refine parse_of_not_spells fun n hs => ?_
    rw [hs.2.1 _ hc] at h
    cases h
  | large hs hn => exact parse_of_le hs hn
  | unknown hs hn h =>
    rw [parse_of_lt hs hn, ofCode, Result.ofOption_eq_error]
    refine ⟨Option.eq_none_iff_forall_ne_some.mpr fun a ha => ?_, rfl⟩
    exact h a ((hcode _ a).mp ha).symm

/-- A code set is read from numerals: each member from the texts that spell its number, and every other
text is refused as no code of the set. -/
structure ReadsNumerals (set : CodeSet) (code : α → Nat) (parse : String → Result α) : Prop where
  ok_iff (s : String) (a : α) : parse s = .ok a ↔ Spells s (code a)
  error_iff (s : String) (e : Error) : parse s = .error e ↔ Refused set code s e
  invalid_iff (s : String) :
    (∃ text, parse s = .error (.invalidCode set text)) ↔ ∀ a, ¬ Spells s (code a)

theorem readsNumerals_parse (hcode : ∀ n a, ofCode? n = some a ↔ n = code a)
    (hlimit : ∀ a, code a < limit) : ReadsNumerals set code (parse set ofCode?) := by
  have hok (s : String) (a : α) (hs : Spells s (code a)) : parse set ofCode? s = .ok a :=
    parse_of_code hcode hs (hlimit a)
  refine ⟨fun s a => ⟨fun h => ?_, hok s a⟩, fun s e => ⟨fun h => ?_, parse_of_refused hcode⟩, fun s => ?_⟩
  · rcases spells_or_refused set code s with ⟨b, hb⟩ | ⟨text, hrefused⟩
    · have hab := hok s b hb
      rw [h] at hab
      cases hab
      exact hb
    · rw [parse_of_refused hcode hrefused] at h
      cases h
  · rcases spells_or_refused set code s with ⟨a, ha⟩ | ⟨text, hrefused⟩
    · rw [hok s a ha] at h
      cases h
    · have herror := parse_of_refused hcode hrefused
      rw [h] at herror
      cases herror
      exact hrefused
  · constructor
    · rintro ⟨text, htext⟩ a ha
      rw [hok s a ha] at htext
      cases htext
    · intro h
      obtain ⟨text, hrefused⟩ := (spells_or_refused set code s).resolve_left (not_exists.mpr h)
      exact ⟨text, parse_of_refused hcode hrefused⟩

end Numeral

theorem MessageType.ofCode?_eq_some (n : Nat) (t : MessageType) : ofCode? n = some t ↔ n = t.code := by
  constructor
  · intro h
    unfold ofCode? at h
    split at h <;> cases h <;> rfl
  · rintro rfl
    exact ofCode?_code t

theorem PkiStatus.ofCode?_eq_some (n : Nat) (s : PkiStatus) : ofCode? n = some s ↔ n = s.code := by
  constructor
  · intro h
    unfold ofCode? at h
    split at h <;> cases h <;> rfl
  · rintro rfl
    exact ofCode?_code s

theorem FailInfo.ofCode?_eq_some (n : Nat) (f : FailInfo) : ofCode? n = some f ↔ n = f.code := by
  constructor
  · intro h
    unfold ofCode? at h
    split at h <;> cases h <;> rfl
  · rintro rfl
    exact ofCode?_code f

theorem MessageType.readsNumerals : Numeral.ReadsNumerals .messageType code parse :=
  Numeral.readsNumerals_parse ofCode?_eq_some fun t => by cases t <;> decide

theorem PkiStatus.readsNumerals : Numeral.ReadsNumerals .pkiStatus code parse :=
  Numeral.readsNumerals_parse ofCode?_eq_some fun s => by cases s <;> decide

theorem FailInfo.readsNumerals : Numeral.ReadsNumerals .failInfo code parse :=
  Numeral.readsNumerals_parse ofCode?_eq_some fun f => by cases f <;> decide

theorem MessageType.parse_eq_ok (s : String) (t : MessageType) :
    parse s = .ok t ↔ Numeral.Spells s t.code := readsNumerals.ok_iff s t

theorem PkiStatus.parse_eq_ok (s : String) (t : PkiStatus) :
    parse s = .ok t ↔ Numeral.Spells s t.code := readsNumerals.ok_iff s t

theorem FailInfo.parse_eq_ok (s : String) (f : FailInfo) :
    parse s = .ok f ↔ Numeral.Spells s f.code := readsNumerals.ok_iff s f

/-- Message types, statuses and failure reasons are read from the numerals of their numbers, and from no
other texts. -/
theorem Numeral.codes_read_from_numerals :
    ReadsNumerals .messageType MessageType.code MessageType.parse ∧
      ReadsNumerals .pkiStatus PkiStatus.code PkiStatus.parse ∧
      ReadsNumerals .failInfo FailInfo.code FailInfo.parse :=
  ⟨MessageType.readsNumerals, PkiStatus.readsNumerals, FailInfo.readsNumerals⟩

example : MessageType.parse "275" = .error (.invalidCode .messageType "275") := by decide +kernel

end CertEnroll
