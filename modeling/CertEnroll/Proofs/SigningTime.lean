import CertEnroll.Proofs.Calendar
import CertEnroll.Proofs.Der.StableValues
import CertEnroll.Proofs.SignedAttributes

/-!
# Proofs.SigningTime — the time of signing comes back in whole seconds

A time is written digit by digit, with two digits of the year before 2050 and with four from then on.
Both forms are read back, and the date gives back the second.  An instant without a date has no form.
-/

namespace CertEnroll

open Calendar (DateTime Instant isValid_iff monthLength_le startOf2050)
open Der (Element Time ofElement? toElement)
open X509 (Attribute Attributes)

/-! ### Digits -/

namespace Der.Time

theorem pairs?_twoDigits {n : Nat} (hn : n < 100) (r : Bytes) :
    pairs? (twoDigits n ++ r) = (pairs? r).map (n :: ·) := by
  have htens : (UInt8.ofNat (48 + n / 10 % 10)).toNat = 48 + n / 10 % 10 := by
    rw [UInt8.toNat_ofNat']
    exact Nat.mod_eq_of_lt (by omega)
  have hones : (UInt8.ofNat (48 + n % 10)).toNat = 48 + n % 10 := by
    rw [UInt8.toNat_ofNat']
    exact Nat.mod_eq_of_lt (by omega)
  have hsum : 10 * (48 + n / 10 % 10 - 48) + (48 + n % 10 - 48) = n := by omega
  simp only [twoDigits, List.cons_append, List.nil_append, pairs?, UInt8.le_iff_toNat_le, htens, hones, hsum]
  refine if_pos ⟨?_, ?_, ?_, ?_⟩ <;> simp only [UInt8.reduceToNat] <;> omega

theorem pairs?_flatMap {l : List Nat} (h : ∀ n ∈ l, n < 100) : pairs? (l.flatMap twoDigits) = some l := by
  induction l with
  | nil => rfl
  | cons n l ih =>
    obtain ⟨hn, hl⟩ := List.forall_mem_cons.mp h
    rw [List.flatMap_cons, pairs?_twoDigits hn, ih hl]
    rfl

theorem markedPairs?_flatMap {l : List Nat} (h : ∀ n ∈ l, n < 100) :
    markedPairs? (l.flatMap twoDigits ++ [90]) = some l := by
  rw [markedPairs?, if_pos (by simp), List.dropLast_concat, pairs?_flatMap h]

/-- The parts of a date after the year have at most two digits each. -/
theorem tail_lt (t : DateTime) : ∀ n ∈ [t.month, t.day, t.hour, t.minute, t.second], n < 100 := by
  obtain ⟨-, hmonth, hday, hhour, hminute, hsecond⟩ := isValid_iff.mp t.valid
  have hlength := monthLength_le t.year t.month
  simp only [List.forall_mem_cons, List.not_mem_nil, false_imp_iff, implies_true, and_true]
  omega

theorem ofParts?_self (t : DateTime) : DateTime.ofParts? t.year t.month t.day t.hour t.minute t.second = some t :=
  dif_pos t.valid

theorem ofShort?_digits {t : DateTime} (h : t.year ≤ lastShortYear) :
    ofShort? (twoDigits (t.year % 100) ++ tailDigits t) = some (short t h) := by
  obtain ⟨⟨hfirst, -⟩, -⟩ := isValid_iff.mp t.valid
  have hyear : fullYear (t.year % 100) = t.year := by
    unfold fullYear
    unfold lastShortYear at h
    unfold Calendar.firstYear at hfirst
    split <;> omega
  have hdigits : markedPairs? (twoDigits (t.year % 100) ++ tailDigits t) =
      some [t.year % 100, t.month, t.day, t.hour, t.minute, t.second] :=
    markedPairs?_flatMap (List.forall_mem_cons.mpr ⟨Nat.mod_lt _ (by decide), tail_lt t⟩)
  simp only [ofShort?, hdigits, Option.bind_eq_bind, Option.bind_some, hyear, ofParts?_self]
  exact dif_pos h

theorem ofLong?_digits (t : DateTime) :
    ofLong? (twoDigits (t.year / 100) ++ twoDigits (t.year % 100) ++ tailDigits t) = some (long t) := by
  obtain ⟨⟨-, hlast⟩, -⟩ := isValid_iff.mp t.valid
  have hcentury : t.year / 100 < 100 := by
    unfold Calendar.lastYear at hlast
    omega
  have hyear : 100 * (t.year / 100) + t.year % 100 = t.year := Nat.div_add_mod _ _
  have hdigits : markedPairs? (twoDigits (t.year / 100) ++ twoDigits (t.year % 100) ++ tailDigits t) =
      some [t.year / 100, t.year % 100, t.month, t.day, t.hour, t.minute, t.second] :=
    markedPairs?_flatMap (List.forall_mem_cons.mpr
      ⟨hcentury, List.forall_mem_cons.mpr ⟨Nat.mod_lt _ (by decide), tail_lt t⟩⟩)
  simp only [ofLong?, hdigits, Option.bind_eq_bind, Option.bind_some, hyear, ofParts?_self]
  rfl

/-- Every time is read back. -/
theorem ofElement?_toElement (t : Time) : ofElement? (toElement t) = some t := by
  cases t with
  | short t h => exact ofShort?_digits h
  | long t => exact ofLong?_digits t

/-- The form of an instant with a date: its date is that of its second. -/
theorem exists_ofInstant? {i : Instant} (h : i.Dated) : ∃ t : Time, ofInstant? i = some t ∧
    t.dateTime.toSeconds = i.seconds.toNat ∧
    (toElement t).tag = if i.seconds < startOf2050 then .utcTime else .generalizedTime := by
  obtain ⟨date, hdate, hseconds⟩ := Instant.exists_dateTime? h
  have hnonneg := h.nonneg
  have hyear := date.year_lt_iff
  rw [hseconds] at hyear
  refine ⟨ofDateTime date, by rw [ofInstant?, hdate]; rfl, ?_⟩
  by_cases hshort : date.year ≤ lastShortYear
  · have hbefore : i.seconds < startOf2050 := by
      have := hyear.mp (Nat.lt_succ_of_le hshort)
      omega
    rw [ofDateTime, dif_pos hshort, if_pos hbefore]
    exact ⟨hseconds, rfl⟩
  · have hafter : ¬ i.seconds < startOf2050 := by
      have := mt hyear.mpr (fun hlt => hshort (Nat.le_of_lt_succ hlt))
      omega
    rw [ofDateTime, dif_neg hshort, if_neg hafter]
    exact ⟨hseconds, rfl⟩

theorem ofInstant?_eq_none {i : Instant} (h : ¬ i.Dated) : ofInstant? i = none := by
  rw [ofInstant?, Instant.dateTime?_eq_none h]
  rfl

end Der.Time

/-! ### The attribute -/

namespace SignedAttributes

variable {as : Attributes} {t : Time} {e : Element}

/-- The only attribute of its type, if it is there and has one value, is found. -/
theorem holds_of_only {o : Der.Oid} (hmem : .single o e ∈ as.toList)
    (honly : ∀ a ∈ as.toList, a.type = o → a = .single o e) : Holds as o e := by
  rcases holds_or_lacks_iff.mpr honly with hlacks | hholds
  · exact absurd rfl (hlacks _ hmem)
  · exact hholds

theorem signingTime_of_holds (h : Holds as AttributeId.signingTime (toElement t)) :
    signingTime as = .ok (some t.dateTime.toSeconds) := by
  have hfound : findAs (ofElement? : Element → Option Time) as AttributeId.signingTime = .ok (some t) :=
    findAs_eq_some.mpr ⟨_, h, t.ofElement?_toElement⟩
  rw [signingTime, hfound]
  rfl

/-- An instant with a date has an attribute for the time of signing.  It holds two digits of the year
exactly if the year is before 2050, and its set gives back the second of the instant if it is the only one
of its type.  No other instant has an attribute. -/
theorem signing_time_round_trips (now : Instant) :
    (now.Dated → ∃ e, ofSigningTime now = .ok (.single AttributeId.signingTime e) ∧
      e.tag = (if now.seconds < startOf2050 then .utcTime else .generalizedTime) ∧
      ∀ as : Attributes, .single AttributeId.signingTime e ∈ as.toList →
        (∀ a ∈ as.toList, a.type = AttributeId.signingTime → a = .single AttributeId.signingTime e) →
        signingTime as = .ok (some now.seconds.toNat)) ∧
    (¬ now.Dated → ofSigningTime now = .error .asn1) := by
  refine ⟨fun h => ?_, fun h => ?_⟩
  · obtain ⟨t, ht, hseconds, htag⟩ := Time.exists_ofInstant? h
    refine ⟨toElement t, by rw [ofSigningTime, ht]; rfl, htag, fun as hmem honly => ?_⟩
    rw [← hseconds]
    exact signingTime_of_holds (holds_of_only hmem honly)
  · rw [ofSigningTime, Time.ofInstant?_eq_none h]
    rfl

/-- The last instant before 2050, the last one with a date, and those next to the two ends. -/
theorem signing_time_round_trips_at_ends :
    (∃ e, ofSigningTime ⟨2524607999, 999999999⟩ = .ok (.single AttributeId.signingTime e) ∧ e.tag = .utcTime ∧
      signingTime (.singleton (.single AttributeId.signingTime e)) = .ok (some 2524607999)) ∧
    (∃ e, ofSigningTime ⟨253402300799, 0⟩ = .ok (.single AttributeId.signingTime e) ∧ e.tag = .generalizedTime ∧
      signingTime (.singleton (.single AttributeId.signingTime e)) = .ok (some 253402300799)) ∧
    ofSigningTime ⟨253402300799, 1⟩ = .error .asn1 ∧ ofSigningTime ⟨-1, 999999999⟩ = .error .asn1 := by
  have honly (e : Element) : ∀ a ∈ (Der.SetOf.singleton (Attribute.single AttributeId.signingTime e)).toList,
      a.type = AttributeId.signingTime → a = .single AttributeId.signingTime e :=
    fun a ha _ => List.mem_singleton.mp ha
  obtain ⟨e, he, htag, hback⟩ := (signing_time_round_trips ⟨2524607999, 999999999⟩).1
    ⟨by decide, .inl (by decide)⟩
  obtain ⟨f, hf, htag', hback'⟩ := (signing_time_round_trips ⟨253402300799, 0⟩).1
    ⟨by decide, .inr ⟨by decide, rfl⟩⟩
  refine ⟨⟨e, he, htag, hback _ (List.mem_singleton_self _) (honly e)⟩,
    ⟨f, hf, htag', hback' _ (List.mem_singleton_self _) (honly f)⟩, ?_, ?_⟩
  · refine (signing_time_round_trips ⟨253402300799, 1⟩).2 fun h => ?_
    rcases h.le_last with hlt | ⟨-, hnanos⟩
    · exact absurd hlt (by decide)
    · exact absurd hnanos (by decide)
  · exact (signing_time_round_trips ⟨-1, 999999999⟩).2 fun h => absurd h.nonneg (by decide)

end SignedAttributes

end CertEnroll
