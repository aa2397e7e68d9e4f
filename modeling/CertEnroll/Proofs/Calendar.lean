import CertEnroll.Calendar
import Mathlib.Tactic.Common

/-!
# Proofs.Calendar — dates and seconds determine each other

A day is located by its distance from the first day, first among the years and then among the months.
Years repeat every four centuries, which gives the length of the whole calendar; the months of a year add
up to the year.
-/

namespace CertEnroll.Calendar

/-! ### Consecutive periods -/

section Periods

variable {length : Nat → Nat} {start d i j k r : Nat}

theorem total_add (length : Nat → Nat) (start j k : Nat) :
    total length start (j + k) = total length start j + total length (start + j) k := by
  induction j generalizing start with
  | zero => simp [total]
  | succ j ih =>
    have hstart : start + 1 + j = start + (j + 1) := by omega
    rw [Nat.succ_add, total, ih, hstart, total, Nat.add_assoc]

/-- A day of one of the periods comes before the end of the first `k` exactly if its period is one of them. -/
theorem lt_total_iff (hr : r < length (start + i)) : total length start i + r < total length start k ↔ i < k := by
  constructor
  · intro h
    by_contra hle
    obtain ⟨m, rfl⟩ := Nat.exists_eq_add_of_le (Nat.le_of_not_lt hle)
    rw [total_add] at h
    omega
  · intro h
    obtain ⟨m, rfl⟩ := Nat.exists_eq_add_of_lt h
    rw [Nat.add_assoc, total_add, Nat.add_comm m 1, total_add]
    simp only [total]
    omega

theorem locate_total (hi : i < k) (hr : r < length (start + i)) :
    locate length k start (total length start i + r) = (start + i, r) := by
  induction k generalizing start i with
  | zero => omega
  | succ k ih =>
    cases i with
    | zero =>
      simp only [total, Nat.zero_add, Nat.add_zero] at hr ⊢
      rw [locate, if_pos hr]
    | succ i =>
      have hstart : start + 1 + i = start + (i + 1) := by omega
      have hrest : total length start (i + 1) + r - length start = total length (start + 1) i + r := by
        rw [total]
        omega
      rw [locate, if_neg (by rw [total]; omega), hrest, ih (by omega) (hstart.symm ▸ hr), hstart]

/-- Every day before the end of the last period falls into one of the periods. -/
theorem exists_period (h : d < total length start k) :
    ∃ i r, i < k ∧ r < length (start + i) ∧ d = total length start i + r := by
  induction k generalizing start d with
  | zero => cases h
  | succ k ih =>
    by_cases hd : d < length start
    · exact ⟨0, d, by omega, hd, by simp [total]⟩
    · have hrest : d - length start < total length (start + 1) k := by
        rw [total] at h
        omega
      obtain ⟨i, r, hi, hr, hd'⟩ := ih hrest
      have hstart : start + 1 + i = start + (i + 1) := by omega
      refine ⟨i + 1, r, by omega, hstart ▸ hr, ?_⟩
      rw [total]
      omega

end Periods

/-! ### Years and months -/

/-- Four centuries later the leap years are the same. -/
theorem yearLength_add_cycle (y : Nat) : yearLength (y + 400) = yearLength y := by
  have h4 : (y + 400) % 4 = y % 4 := by omega
  have h100 : (y + 400) % 100 = y % 100 := by omega
  have h400 : (y + 400) % 400 = y % 400 := by omega
  simp [yearLength, isLeap, h4, h100, h400]

theorem total_yearLength_add_cycle (y k : Nat) : total yearLength (y + 400) k = total yearLength y k := by
  induction k generalizing y with
  | zero => rfl
  | succ k ih =>
    have hnext : y + 400 + 1 = y + 1 + 400 := by omega
    rw [total, total, yearLength_add_cycle, hnext, ih]

/-- Four centuries have 146097 days. -/
theorem total_cycles (n : Nat) : total yearLength 2000 (400 * n) = 146097 * n := by
  induction n with
  | zero => rfl
  | succ n ih =>
    have hcycle : total yearLength 2000 400 = 146097 := by decide +kernel
    rw [Nat.mul_succ, Nat.add_comm, total_add, total_yearLength_add_cycle 2000, ih, hcycle]
    omega

/-- The days of the calendar. -/
theorem total_years : total yearLength firstYear (lastYear - firstYear + 1) = 2932897 := by
  have hyears : lastYear - firstYear + 1 = 30 + 400 * 20 := by decide
  have hbefore : total yearLength firstYear 30 = 10957 := by
    show total yearLength 1970 30 = 10957
    decide +kernel
  have hstart : firstYear + 30 = 2000 := by decide
  rw [hyears, total_add, hbefore, hstart, total_cycles]

theorem total_monthLength (y : Nat) : total (monthLength y) 1 12 = yearLength y := by
  simp only [total, monthLength, yearLength]
  cases isLeap y <;> rfl

theorem monthLength_le (y m : Nat) : monthLength y m ≤ 31 := by
  unfold monthLength
  split
  · split <;> omega
  · split <;> omega

/-! ### Dates -/

/-- The second with which the year 2050 starts. -/
def startOf2050 : Nat := 2524608000

theorem isValid_iff {year month day hour minute second : Nat} :
    isValid year month day hour minute second = true ↔
      (firstYear ≤ year ∧ year ≤ lastYear) ∧ (1 ≤ month ∧ month ≤ 12) ∧ (1 ≤ day ∧ day ≤ monthLength year month) ∧
        hour ≤ 23 ∧ minute ≤ 59 ∧ second ≤ 59 := by
  simp only [isValid, Bool.and_eq_true, decide_eq_true_eq, and_assoc]

namespace DateTime

/-- The days from the start of the year to the date. -/
def dayOfYear (t : DateTime) : Nat :=
  total (monthLength t.year) 1 (t.month - 1) + (t.day - 1)

theorem dayOfYear_lt (t : DateTime) : t.dayOfYear < yearLength t.year := by
  obtain ⟨-, hmonth, hday, -⟩ := isValid_iff.mp t.valid
  have hstart : 1 + (t.month - 1) = t.month := by omega
  rw [← total_monthLength, dayOfYear]
  refine (lt_total_iff ?_).mpr (by omega)
  rw [hstart]
  omega

theorem toSeconds_div (t : DateTime) : t.toSeconds / 86400 = t.days := by
  obtain ⟨-, -, -, hhour, hminute, hsecond⟩ := isValid_iff.mp t.valid
  unfold toSeconds
  omega

theorem toSeconds_mod (t : DateTime) : t.toSeconds % 86400 = t.hour * 3600 + t.minute * 60 + t.second := by
  obtain ⟨-, -, -, hhour, hminute, hsecond⟩ := isValid_iff.mp t.valid
  unfold toSeconds
  omega

theorem days_eq (t : DateTime) : t.days = total yearLength firstYear (t.year - firstYear) + t.dayOfYear :=
  Nat.add_assoc _ _ _

theorem locate_year (t : DateTime) :
    locate yearLength (lastYear - firstYear + 1) firstYear t.days = (t.year, t.dayOfYear) := by
  obtain ⟨hyear, -⟩ := isValid_iff.mp t.valid
  have hfirst : firstYear + (t.year - firstYear) = t.year := by omega
  have hday : t.dayOfYear < yearLength (firstYear + (t.year - firstYear)) := by
    rw [hfirst]
    exact t.dayOfYear_lt
  rw [days_eq, locate_total (by omega) hday, hfirst]

theorem locate_month (t : DateTime) : locate (monthLength t.year) 12 1 t.dayOfYear = (t.month, t.day - 1) := by
  obtain ⟨-, hmonth, hday, -⟩ := isValid_iff.mp t.valid
  have hstart : 1 + (t.month - 1) = t.month := by omega
  have hdate : t.day - 1 < monthLength t.year (1 + (t.month - 1)) := by
    rw [hstart]
    omega
  rw [dayOfYear, locate_total (by omega) hdate, hstart]

theorem ofSeconds?_of_locate {s year rest month day : Nat}
    (hyear : locate yearLength (lastYear - firstYear + 1) firstYear (s / 86400) = (year, rest))
    (hmonth : locate (monthLength year) 12 1 rest = (month, day)) :
    ofSeconds? s = ofParts? year month (day + 1) (s % 86400 / 3600) (s % 86400 / 60 % 60) (s % 86400 % 60) := by
  unfold ofSeconds?
  rw [hyear]
  dsimp only
  rw [hmonth]

/-- A date is found again from its distance to the first one. -/
theorem ofSeconds?_toSeconds (t : DateTime) : ofSeconds? t.toSeconds = some t := by
  obtain ⟨-, -, hday, hhour, hminute, hsecond⟩ := isValid_iff.mp t.valid
  have hlocated : locate yearLength (lastYear - firstYear + 1) firstYear (t.toSeconds / 86400) =
      (t.year, t.dayOfYear) := by
    rw [toSeconds_div]
    exact t.locate_year
  have hdate : t.day - 1 + 1 = t.day := by omega
  have hhours : t.toSeconds % 86400 / 3600 = t.hour := by
    rw [toSeconds_mod]
    omega
  have hminutes : t.toSeconds % 86400 / 60 % 60 = t.minute := by
    rw [toSeconds_mod]
    omega
  have hseconds : t.toSeconds % 86400 % 60 = t.second := by
    rw [toSeconds_mod]
    omega
  rw [ofSeconds?_of_locate hlocated t.locate_month, hdate, hhours, hminutes, hseconds]
  exact dif_pos t.valid

/-- Every second up to the last is the second of a date. -/
theorem exists_toSeconds {s : Nat} (h : s ≤ lastSecond) : ∃ t : DateTime, t.toSeconds = s := by
  have hdays : s / 86400 < total yearLength firstYear (lastYear - firstYear + 1) := by
    rw [total_years]
    unfold lastSecond at h
    omega
  obtain ⟨i, rest, hi, hrest, hyear⟩ := exists_period hdays
  rw [← total_monthLength] at hrest
  obtain ⟨j, r, hj, hr, hmonth⟩ := exists_period hrest
  have hvalid : isValid (firstYear + i) (1 + j) (r + 1) (s % 86400 / 3600) (s / 60 % 60) (s % 60) = true := by
    have hlast : firstYear + (lastYear - firstYear) = lastYear := by decide
    refine isValid_iff.mpr ⟨?_, ?_, ?_, ?_, ?_, ?_⟩ <;> omega
  refine ⟨⟨_, _, _, _, _, _, hvalid⟩, ?_⟩
  have hfirst : firstYear + i - firstYear = i := by omega
  have hstart : 1 + j - 1 = j := by omega
  simp only [toSeconds, days, hfirst, hstart]
  omega

theorem year_lt_iff (t : DateTime) : t.year < 2050 ↔ t.toSeconds < startOf2050 := by
  obtain ⟨hyear, -⟩ := isValid_iff.mp t.valid
  have hfirst : firstYear + (t.year - firstYear) = t.year := by omega
  have hlength : total yearLength firstYear 80 = 29220 := by
    show total yearLength 1970 80 = 29220
    decide +kernel
  have hbefore := lt_total_iff (k := 80) (hfirst.symm ▸ t.dayOfYear_lt)
  have hday := t.toSeconds_div
  rw [← days_eq, hlength] at hbefore
  unfold firstYear at hbefore hyear
  unfold startOf2050
  omega

example : toSeconds ⟨2050, 1, 1, 0, 0, 0, by decide⟩ = startOf2050 := by decide

end DateTime

/-! ### Instants -/

/-- The instant has a date: it is neither before the first second nor after the start of the last one. -/
structure Instant.Dated (i : Instant) : Prop where
  nonneg : 0 ≤ i.seconds
  le_last : i.seconds < lastSecond ∨ (i.seconds = lastSecond ∧ i.nanos = 0)

/-- An instant has the date of its second, if any. -/
theorem Instant.exists_dateTime? {i : Instant} (h : i.Dated) :
    ∃ t, i.dateTime? = some t ∧ t.toSeconds = i.seconds.toNat := by
  obtain ⟨hnonneg, hlast⟩ := h
  obtain ⟨t, ht⟩ := DateTime.exists_toSeconds (s := i.seconds.toNat) (by omega)
  refine ⟨t, ?_, ht⟩
  rw [dateTime?, if_neg (by omega), ← ht]
  exact t.ofSeconds?_toSeconds

theorem Instant.dateTime?_eq_none {i : Instant} (h : ¬ i.Dated) : i.dateTime? = none := by
  refine if_pos ?_
  by_contra hguard
  exact h ⟨by omega, by omega⟩

end CertEnroll.Calendar
