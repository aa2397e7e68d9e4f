import CertEnroll.Proofs.Json.Grammar
import Mathlib.Data.List.TakeWhile

/-!
# Proofs.Json.Reading — the reader accepts the texts that spell a value, and no others

Each part of the reader takes a spelling off the front of a text and leaves the rest.  A number is the one
value that the rest could carry on, so the rest has to end it.
-/

namespace CertEnroll.Json

open Text (IsPlain decimal hexValue? isDigit)

variable {s r rest : List Char}

/-! ### Blanks -/

theorem skipBlanks_append {b : List Char} (hb : Blanks b) (s : List Char) : skipBlanks (b ++ s) = skipBlanks s :=
  List.dropWhile_append_of_pos hb

theorem skipBlanks_cons {c : Char} (hc : isBlank c = false) (s : List Char) : skipBlanks (c :: s) = c :: s :=
  List.dropWhile_cons_of_neg (by simp [hc])

theorem skipBlanks_blanks {b : List Char} (hb : Blanks b) : skipBlanks b = [] := by
  have h := skipBlanks_append hb []
  rwa [List.append_nil] at h

/-- Blanks come first, and what is left does not start with one. -/
theorem exists_blanks (s : List Char) : ∃ b, Blanks b ∧ s = b ++ skipBlanks s := by
  refine ⟨s.takeWhile isBlank, fun c hc => ?_, List.takeWhile_append_dropWhile.symm⟩
  exact List.mem_takeWhile_imp hc

theorem after?_append (w s : List Char) : after? w (w ++ s) = some s := by
  induction w with
  | nil => rfl
  | cons c w ih =>
    rw [List.cons_append, after?, if_pos rfl]
    exact ih

theorem after?_eq_some {w : List Char} : after? w s = some r ↔ s = w ++ r := by
  constructor
  · intro h
    induction w generalizing s with
    | nil =>
      cases h
      rfl
    | cons c w ih =>
      cases s with
      | nil => cases h
      | cons d s =>
        unfold after? at h
        split at h
        case isTrue hcd => rw [hcd, ih h, List.cons_append]
        case isFalse => cases h
  · rintro rfl
    exact after?_append w r

/-! ### Numbers -/

/-- The text does not start with a digit. -/
def NoDigit (s : List Char) : Prop := ∀ c ∈ s.head?, isDigit c = false

/-- The text does not start with a character that could carry a number on. -/
structure EndsNumber (s : List Char) : Prop where
  noDigit : NoDigit s
  noPoint : s.head? ≠ some '.'
  noExponent : s.head? ≠ some 'e' ∧ s.head? ≠ some 'E'

theorem noDigit_dropWhile (s : List Char) : NoDigit (s.dropWhile isDigit) := by
  intro c hc
  have hhead := List.head?_dropWhile_not isDigit s
  rw [hc] at hhead
  simpa using hhead

theorem takeWhile_digits {d : List Char} (hd : ∀ c ∈ d, isDigit c = true) (hs : NoDigit s) :
    (d ++ s).takeWhile isDigit = d ∧ (d ++ s).dropWhile isDigit = s := by
  have hnone : s.takeWhile isDigit = [] ∧ s.dropWhile isDigit = s := by
    cases s with
    | nil => exact ⟨rfl, rfl⟩
    | cons c s =>
      have hc : isDigit c = false := hs c rfl
      exact ⟨List.takeWhile_cons_of_neg (by simp [hc]), List.dropWhile_cons_of_neg (by simp [hc])⟩
  refine ⟨?_, ?_⟩
  · rw [List.takeWhile_append_of_pos hd, hnone.1, List.append_nil]
  · rw [List.dropWhile_append_of_pos hd, hnone.2]

theorem skipDigits?_eq_some : skipDigits? s = some r ↔ ∃ d, s = d ++ r ∧ Digits d ∧ NoDigit r := by
  unfold skipDigits?
  constructor
  · intro h
    split at h
    case isTrue => cases h
    case isFalse hne =>
      cases h
      exact ⟨s.takeWhile isDigit, List.takeWhile_append_dropWhile.symm,
        ⟨fun c hc => List.mem_takeWhile_imp hc, by simpa using hne⟩, noDigit_dropWhile s⟩
  · rintro ⟨d, rfl, hd, hr⟩
    obtain ⟨htake, hdrop⟩ := takeWhile_digits hd.digit hr
    rw [htake, hdrop, if_neg (by simpa using hd.ne_nil)]

theorem skipFraction?_fraction {f : List Char} (hf : Fraction f) (hs : NoDigit s) (hpoint : s.head? ≠ some '.') :
    skipFraction? (f ++ s) = some (decide (f ≠ []), s) := by
  cases hf with
  | none =>
    rw [List.nil_append]
    unfold skipFraction?
    split
    case h_1 => exact absurd rfl hpoint
    case h_2 => rfl
  | @digits d hd =>
    show (skipDigits? (d ++ s)).map _ = _
    rw [skipDigits?_eq_some.mpr ⟨d, rfl, hd, hs⟩]
    rfl

theorem fraction_of_skipFraction? {flag : Bool} (h : skipFraction? s = some (flag, r)) :
    ∃ f, s = f ++ r ∧ Fraction f ∧ flag = decide (f ≠ []) := by
  unfold skipFraction? at h
  split at h
  case h_1 s =>
    obtain ⟨r', hr', h⟩ := Option.map_eq_some_iff.mp h
    cases h
    obtain ⟨d, rfl, hd, -⟩ := skipDigits?_eq_some.mp hr'
    exact ⟨'.' :: d, rfl, .digits hd, rfl⟩
  case h_2 =>
    cases h
    exact ⟨[], rfl, .none, rfl⟩

theorem skipExponent?_exponent {e : List Char} (he : Exponent e) (hs : NoDigit s)
    (hmark : s.head? ≠ some 'e' ∧ s.head? ≠ some 'E') : skipExponent? (e ++ s) = some (decide (e ≠ []), s) := by
  cases he with
  | none =>
    cases s with
    | nil => rfl
    | cons c s =>
      refine if_neg ?_
      rintro (rfl | rfl)
      · exact hmark.1 rfl
      · exact hmark.2 rfl
  | @digits c sign d hc hsign hd =>
    have hdigits := skipDigits?_eq_some.mpr ⟨d, rfl, hd, hs⟩
    rw [List.cons_append, List.append_assoc]
    unfold skipExponent?
    dsimp only
    rw [if_pos hc]
    cases hsign with
    | plus | minus =>
      show (skipDigits? (d ++ s)).map _ = _
      rw [hdigits]
      rfl
    | none =>
      rw [List.nil_append]
      -- the first digit is not taken for a sign
      split
      case h_1 hhead | h_2 hhead =>
        obtain ⟨x, d', rfl⟩ := List.exists_cons_of_ne_nil hd.ne_nil
        obtain ⟨rfl, -⟩ := List.cons.inj hhead
        exact absurd (hd.digit _ (List.mem_cons_self ..)) (by decide)
      case h_3 =>
        rw [hdigits]
        rfl

theorem exponent_of_skipExponent? {flag : Bool} (h : skipExponent? s = some (flag, r)) :
    ∃ e, s = e ++ r ∧ Exponent e ∧ flag = decide (e ≠ []) := by
  unfold skipExponent? at h
  split at h
  case h_2 =>
    cases h
    exact ⟨[], rfl, .none, rfl⟩
  case h_1 c s =>
    split at h
    case isFalse =>
      cases h
      exact ⟨[], rfl, .none, rfl⟩
    case isTrue hc =>
      have hsign {sign s' : List Char} (hs : s = sign ++ s') (hsign : ExponentSign sign)
          (h : (skipDigits? s').map (fun r => (true, r)) = some (flag, r)) :
          ∃ e, c :: s = e ++ r ∧ Exponent e ∧ flag = decide (e ≠ []) := by
        obtain ⟨r', hr', h⟩ := Option.map_eq_some_iff.mp h
        cases h
        obtain ⟨d, rfl, hd, -⟩ := skipDigits?_eq_some.mp hr'
        exact ⟨c :: (sign ++ d), by rw [hs, List.cons_append, List.append_assoc], .digits hc hsign hd, rfl⟩
      dsimp only at h
      split at h
      · exact hsign rfl .plus h
      · exact hsign rfl .minus h
      · exact hsign rfl .none h

/-- A whole part, fraction and exponent are taken off a text that ends the number. -/
theorem readUnsigned?_parts {i f e : List Char} (hi : Whole i) (hf : Fraction f) (he : Exponent e)
    (hs : EndsNumber s) : readUnsigned? (i ++ (f ++ (e ++ s))) =
      some (if f = [] ∧ e = [] then some (decimal i) else none, s) := by
  have hdigit : NoDigit (f ++ (e ++ s)) := by
    intro c hc
    cases hf with
    | digits _ =>
      cases hc
      decide
    | none =>
      cases he with
      | none => exact hs.noDigit c hc
      | digits hmark _ _ =>
        cases hc
        rcases hmark with rfl | rfl <;> decide
  have hdigit' : NoDigit (e ++ s) := by
    intro c hc
    cases he with
    | none => exact hs.noDigit c hc
    | digits hmark _ _ =>
      cases hc
      rcases hmark with rfl | rfl <;> decide
  have hpoint : (e ++ s).head? ≠ some '.' := by
    cases he with
    | none => exact hs.noPoint
    | digits hmark _ _ => rcases hmark with rfl | rfl <;> simp
  obtain ⟨htake, hdrop⟩ := takeWhile_digits hi.digit hdigit
  have hwhole : ¬ (i.isEmpty = true ∨ (i.head? = some '0' ∧ 1 < i.length)) := by
    rintro (hnil | ⟨hzero, hlength⟩)
    · exact hi.ne_nil (by simpa using hnil)
    · have := hi.plain hzero
      omega
  simp only [readUnsigned?, htake, hdrop, if_neg hwhole, skipFraction?_fraction hf hdigit' hpoint,
    skipExponent?_exponent he hs.noDigit hs.noExponent, Option.bind_eq_bind, Option.bind_some]
  by_cases hf' : f = [] <;> by_cases he' : e = [] <;> simp [hf', he']

theorem parts_of_readUnsigned? {n : Option Nat} (h : readUnsigned? s = some (n, r)) :
    ∃ i f e, s = i ++ (f ++ (e ++ r)) ∧ Whole i ∧ Fraction f ∧ Exponent e ∧
      n = if f = [] ∧ e = [] then some (decimal i) else none := by
  unfold readUnsigned? at h
  dsimp only at h
  split at h
  case isTrue => cases h
  case isFalse hwhole =>
    obtain ⟨⟨fraction, r₁⟩, hfraction, h⟩ := Option.bind_eq_some_iff.mp h
    obtain ⟨⟨exponent, r₂⟩, hexponent, h⟩ := Option.bind_eq_some_iff.mp h
    cases h
    obtain ⟨f, hr₁, hf, rfl⟩ := fraction_of_skipFraction? hfraction
    obtain ⟨e, rfl, he, rfl⟩ := exponent_of_skipExponent? hexponent
    rw [not_or, not_and] at hwhole
    have hdigits : Digits (s.takeWhile isDigit) :=
      ⟨fun c hc => List.mem_takeWhile_imp hc, by simpa using hwhole.1⟩
    have hplain : IsPlain (s.takeWhile isDigit) := by
      intro hzero
      have hlength := hwhole.2 hzero
      have hpos := List.length_pos_of_ne_nil hdigits.ne_nil
      omega
    refine ⟨s.takeWhile isDigit, f, e, ?_, ⟨hdigits, hplain⟩, hf, he, ?_⟩
    · rw [← hr₁, List.takeWhile_append_dropWhile]
    · by_cases hf' : f = [] <;> by_cases he' : e = [] <;> simp [hf', he']

theorem readNumber?_number {n : Option Nat} {t : List Char} (h : SpellsNumber n t) (hs : EndsNumber s) :
    readNumber? (t ++ s) = some (n, s) := by
  cases h with
  | @parts sign i f e hsign hi hf he =>
    have hread := readUnsigned?_parts hi hf he hs
    rw [List.append_assoc, List.append_assoc, List.append_assoc]
    cases hsign with
    | none =>
      rw [List.nil_append]
      unfold readNumber?
      split
      case h_1 r hhead =>
        obtain ⟨x, i', rfl⟩ := List.exists_cons_of_ne_nil hi.ne_nil
        obtain ⟨rfl, -⟩ := List.cons.inj hhead
        exact absurd (hi.digit _ (List.mem_cons_self ..)) (by decide)
      case h_2 =>
        rw [hread]
        simp
    | minus =>
      show (readUnsigned? (i ++ (f ++ (e ++ s)))).map _ = _
      rw [hread]
      simp

theorem number_of_readNumber? {n : Option Nat} (h : readNumber? s = some (n, r)) :
    ∃ t, s = t ++ r ∧ SpellsNumber n t := by
  unfold readNumber? at h
  split at h
  case h_1 s =>
    obtain ⟨⟨n', r'⟩, hread, h⟩ := Option.map_eq_some_iff.mp h
    cases h
    obtain ⟨i, f, e, rfl, hi, hf, he, -⟩ := parts_of_readUnsigned? hread
    refine ⟨['-'] ++ (i ++ (f ++ e)), by simp, ?_⟩
    have hnumber := SpellsNumber.parts .minus hi hf he
    rwa [if_neg (by simp)] at hnumber
  case h_2 =>
    obtain ⟨i, f, e, rfl, hi, hf, he, rfl⟩ := parts_of_readUnsigned? h
    refine ⟨[] ++ (i ++ (f ++ e)), by simp, ?_⟩
    have hnumber := SpellsNumber.parts .none hi hf he
    simpa using hnumber

/-! ### Strings -/

theorem readHex4?_eq_some {n : Nat} : readHex4? s = some (n, r) ↔ ∃ a b c d w x y z,
    s = a :: b :: c :: d :: r ∧ hexValue? a = some w ∧ hexValue? b = some x ∧ hexValue? c = some y ∧
      hexValue? d = some z ∧ n = 16 * (16 * (16 * w + x) + y) + z := by
  constructor
  · intro h
    unfold readHex4? at h
    split at h
    case h_1 a b c d r =>
      obtain ⟨digits, hdigits, h⟩ := Option.bind_eq_some_iff.mp h
      cases h
      simp only [List.mapM_cons, List.mapM_nil, Option.bind_eq_bind, Option.pure_def,
        Option.bind_eq_some_iff, Option.some.injEq] at hdigits
      obtain ⟨w, hw, _, ⟨x, hx, _, ⟨y, hy, _, ⟨z, hz, _, rfl, rfl⟩, rfl⟩, rfl⟩, rfl⟩ := hdigits
      exact ⟨a, b, c, d, w, x, y, z, rfl, hw, hx, hy, hz, by simp⟩
    case h_2 => cases h
  · rintro ⟨a, b, c, d, w, x, y, z, rfl, hw, hx, hy, hz, rfl⟩
    simp [readHex4?, hw, hx, hy, hz]

theorem readEscape?_short {e c : Char} (h : (e, c) ∈ shortEscapes) (s : List Char) :
    readEscape? (e :: s) = some (.char c, s) := by
  simp only [shortEscapes, List.mem_cons, Prod.mk.injEq, List.not_mem_nil, or_false] at h
  rcases h with ⟨rfl, rfl⟩ | ⟨rfl, rfl⟩ | ⟨rfl, rfl⟩ | ⟨rfl, rfl⟩ | ⟨rfl, rfl⟩ | ⟨rfl, rfl⟩ | ⟨rfl, rfl⟩ |
    ⟨rfl, rfl⟩ <;> rfl

theorem piece_of_readEscape? {p : Piece} (h : readEscape? s = some (p, r)) :
    ∃ t, s = t ++ r ∧ SpellsPiece p ('\\' :: t) := by
  have hshort {e c : Char} {r' : List Char} (he : (e, c) ∈ shortEscapes)
      (h : some (Piece.char c, r') = some (p, r)) : ∃ t, e :: r' = t ++ r ∧ SpellsPiece p ('\\' :: t) := by
    cases h
    exact ⟨[e], rfl, .short he⟩
  unfold readEscape? at h
  split at h
  case h_9 r' =>
    obtain ⟨⟨n, r''⟩, hhex, h⟩ := Option.map_eq_some_iff.mp h
    cases h
    obtain ⟨a, b, c, d, w, x, y, z, rfl, hw, hx, hy, hz, rfl⟩ := readHex4?_eq_some.mp hhex
    exact ⟨['u', a, b, c, d], rfl, .unicode hw hx hy hz⟩
  case h_10 => cases h
  all_goals exact hshort (by decide) h

/-- A piece is taken off the front of a string. -/
theorem readPieces?_piece {p : Piece} {t : List Char} (h : SpellsPiece p t) (fuel : Nat) (s : List Char) :
    readPieces? (fuel + 1) (t ++ s) = (readPieces? fuel s).bind fun x => some (p :: x.1, x.2) := by
  have hescape {e : List Char} (he : readEscape? (e ++ s) = some (p, s)) :
      readPieces? (fuel + 1) ('\\' :: (e ++ s)) = (readPieces? fuel s).bind fun x => some (p :: x.1, x.2) := by
    show (readEscape? (e ++ s)).bind _ = _
    rw [he]
    rfl
  cases h with
  | @plain c hcontrol hquote hback =>
    show readPieces? (fuel + 1) (c :: s) = _
    rw [readPieces?.eq_def]
    dsimp only
    split
    case h_1 h => cases h
    case h_2 h => exact absurd (List.cons.inj h).1 hquote
    case h_3 h => exact absurd (List.cons.inj h).1 hback
    case h_4 h =>
      obtain ⟨rfl, rfl⟩ := List.cons.inj h
      rw [if_neg (by omega)]
      rfl
  | @short e c he => exact hescape (e := [e]) (readEscape?_short he s)
  | @unicode a b c d w x y z ha hb hc hd =>
    refine hescape (e := ['u', a, b, c, d]) ?_
    show (readHex4? (a :: b :: c :: d :: s)).map _ = _
    rw [readHex4?_eq_some.mpr ⟨a, b, c, d, w, x, y, z, rfl, ha, hb, hc, hd, rfl⟩]
    rfl

theorem length_pos_of_spellsPiece {p : Piece} {t : List Char} (h : SpellsPiece p t) : 0 < t.length := by
  cases h <;> exact Nat.succ_pos _

theorem readPieces?_pieces {ps : List Piece} {t : List Char} (h : SpellsPieces ps t) {fuel : Nat}
    (hfuel : t.length < fuel) (s : List Char) : readPieces? fuel (t ++ '"' :: s) = some (ps, s) := by
  induction h generalizing fuel with
  | nil =>
    obtain ⟨fuel, rfl⟩ := Nat.exists_eq_succ_of_ne_zero (Nat.ne_zero_of_lt hfuel)
    rfl
  | @cons p ps t u hp _ ih =>
    obtain ⟨fuel, rfl⟩ := Nat.exists_eq_succ_of_ne_zero (Nat.ne_zero_of_lt hfuel)
    have hlength := length_pos_of_spellsPiece hp
    rw [List.length_append] at hfuel
    rw [List.append_assoc, readPieces?_piece hp, ih (by omega)]
    rfl

theorem pieces_of_readPieces? {ps : List Piece} {fuel : Nat} (h : readPieces? fuel s = some (ps, r)) :
    ∃ t, s = t ++ '"' :: r ∧ SpellsPieces ps t := by
  induction fuel generalizing s ps with
  | zero => cases h
  | succ fuel ih =>
    unfold readPieces? at h
    split at h
    case h_1 => cases h
    case h_2 =>
      cases h
      exact ⟨[], rfl, .nil⟩
    case h_3 s =>
      obtain ⟨⟨p, s'⟩, hescape, h⟩ := Option.bind_eq_some_iff.mp h
      obtain ⟨⟨ps', r'⟩, hrest, h⟩ := Option.bind_eq_some_iff.mp h
      cases h
      obtain ⟨e, rfl, he⟩ := piece_of_readEscape? hescape
      obtain ⟨t, rfl, ht⟩ := ih hrest
      exact ⟨('\\' :: e) ++ t, by simp, .cons he ht⟩
    case h_4 c s hquote hback =>
      split at h
      case isTrue => cases h
      case isFalse hcontrol =>
        obtain ⟨⟨ps', r'⟩, hrest, h⟩ := Option.bind_eq_some_iff.mp h
        cases h
        obtain ⟨t, rfl, ht⟩ := ih hrest
        have hplain : SpellsPiece (.char c) [c] := .plain (by omega) hquote hback
        exact ⟨[c] ++ t, rfl, .cons hplain ht⟩

/-- A string is taken off the front of a text after its opening quote. -/
theorem readString?_string {x : Option String} {t : List Char} (h : SpellsString x t) (s : List Char) :
    ∃ u, t ++ s = '"' :: u ∧ readString? u = some (x, s) := by
  cases h with
  | @pieces ps t hps =>
    refine ⟨t ++ '"' :: s, by simp, ?_⟩
    have hfuel : t.length < (t ++ '"' :: s).length + 1 := by
      rw [List.length_append]
      omega
    have hread := readPieces?_pieces hps hfuel s
    simp only [readString?, hread, Option.bind_eq_bind, Option.bind_some]
    rfl

theorem string_of_readString? {x : Option String} (h : readString? s = some (x, r)) :
    ∃ t, '"' :: s = t ++ r ∧ SpellsString x t := by
  obtain ⟨⟨ps, r'⟩, hpieces, h⟩ := Option.bind_eq_some_iff.mp h
  cases h
  obtain ⟨t, rfl, ht⟩ := pieces_of_readPieces? hpieces
  exact ⟨'"' :: (t ++ ['"']), by simp, .pieces ht⟩

/-! ### Values, items and fields -/

section Blanks

theorem skipBlanks_skipBlanks (s : List Char) : skipBlanks (skipBlanks s) = skipBlanks s := by
  obtain ⟨b, hb, hs⟩ := exists_blanks s
  conv_rhs => rw [hs, skipBlanks_append hb]

theorem readValue?_skipBlanks (fuel : Nat) (s : List Char) : readValue? fuel (skipBlanks s) = readValue? fuel s := by
  cases fuel with
  | zero => rfl
  | succ fuel =>
    unfold readValue?
    rw [skipBlanks_skipBlanks]

theorem readValue?_append {b : List Char} (hb : Blanks b) (fuel : Nat) (s : List Char) :
    readValue? fuel (b ++ s) = readValue? fuel s := by
  rw [← readValue?_skipBlanks, skipBlanks_append hb, readValue?_skipBlanks]

theorem readItems?_skipBlanks (fuel : Nat) (s : List Char) : readItems? fuel (skipBlanks s) = readItems? fuel s := by
  cases fuel with
  | zero => rfl
  | succ fuel =>
    unfold readItems?
    rw [readValue?_skipBlanks]

theorem readFields?_skipBlanks (fuel : Nat) (s : List Char) :
    readFields? fuel (skipBlanks s) = readFields? fuel s := by
  cases fuel with
  | zero => rfl
  | succ fuel =>
    unfold readFields?
    rw [skipBlanks_skipBlanks]

end Blanks

section Steps

variable {fuel : Nat} {b : List Char}

theorem readValue?_string {x : Option String} {t : List Char} (h : SpellsString x t) :
    readValue? (fuel + 1) (t ++ s) = some (.string x, s) := by
  obtain ⟨u, hu, hread⟩ := readString?_string h s
  rw [hu]
  show (readString? u).map _ = _
  rw [hread]
  rfl

theorem readValue?_number {n : Option Nat} {t : List Char} (h : SpellsNumber n t) (hs : EndsNumber s) :
    readValue? (fuel + 1) (t ++ s) = some (.number n, s) := by
  have hread := readNumber?_number h hs
  have hhead : ∃ c u, t ++ s = c :: u ∧ (isDigit c = true ∨ c = '-') := by
    cases h with
    | parts hsign hi _ _ =>
      cases hsign with
      | minus => exact ⟨_, _, rfl, .inr rfl⟩
      | none =>
        obtain ⟨c, i, rfl⟩ := List.exists_cons_of_ne_nil hi.ne_nil
        exact ⟨c, _, rfl, .inl (hi.digit c (List.mem_cons_self ..))⟩
  obtain ⟨c, u, hu, hc⟩ := hhead
  have hblank : isBlank c = false := by
    rcases hc with hc | rfl
    · by_contra hblank
      simp only [isBlank, Bool.not_eq_false, Bool.or_eq_true, decide_eq_true_eq] at hblank
      rcases hblank with ((rfl | rfl) | rfl) | rfl <;> exact absurd hc (by decide)
    · rfl
  rw [readValue?.eq_def]
  dsimp only
  rw [hu, skipBlanks_cons hblank]
  -- a number starts like no other value
  split
  case h_7 => rw [← hu, hread]; rfl
  all_goals
    rename_i hcons
    obtain ⟨rfl, -⟩ := List.cons.inj hcons
    exact absurd hc (by decide)

/-- No item starts with the closing bracket. -/
theorem readItems?_bracket (s : List Char) : readItems? fuel (']' :: s) = none := by
  cases fuel with
  | zero => rfl
  | succ fuel =>
    have hvalue : readValue? fuel (']' :: s) = none := by cases fuel <;> rfl
    rw [readItems?, hvalue]
    rfl

/-- No field starts with the closing brace. -/
theorem readFields?_brace (s : List Char) : readFields? fuel ('\x7d' :: s) = none := by
  cases fuel <;> rfl

theorem readValue?_openBracket (s : List Char) :
    readValue? (fuel + 1) ('[' :: s) =
      match skipBlanks s with
      | ']' :: r => some (.array [], r)
      | r => (readItems? fuel r).map fun x => (.array x.1, x.2) := by
  rw [readValue?.eq_def]
  rfl

theorem readValue?_openBrace (s : List Char) :
    readValue? (fuel + 1) ('\x7b' :: s) =
      match skipBlanks s with
      | '\x7d' :: r => some (.object [], r)
      | r => (readFields? fuel r).map fun x => (.object x.1, x.2) := by
  rw [readValue?.eq_def]
  rfl

theorem readItems?_succ (s : List Char) :
    readItems? (fuel + 1) s =
      (readValue? fuel s).bind fun x =>
        match skipBlanks x.2 with
        | ',' :: r => (readItems? fuel r).bind fun y => some (x.1 :: y.1, y.2)
        | ']' :: r => some ([x.1], r)
        | _ => none := by
  rw [readItems?.eq_def]
  rfl

theorem readValue?_emptyArray (hb : Blanks b) :
    readValue? (fuel + 1) ('[' :: (b ++ [']']) ++ s) = some (.array [], s) := by
  rw [List.cons_append, List.append_assoc, readValue?_openBracket, skipBlanks_append hb]
  rfl

theorem readValue?_emptyObject (hb : Blanks b) :
    readValue? (fuel + 1) ('\x7b' :: (b ++ ['\x7d']) ++ s) = some (.object [], s) := by
  rw [List.cons_append, List.append_assoc, readValue?_openBrace, skipBlanks_append hb]
  rfl

theorem readValue?_array {l : List Json} {t : List Char} (h : readItems? fuel (t ++ ']' :: s) = some (l, s)) :
    readValue? (fuel + 1) ('[' :: (t ++ [']']) ++ s) = some (.array l, s) := by
  rw [List.cons_append, List.append_assoc, List.singleton_append, readValue?_openBracket]
  split
  case h_1 hclose =>
    rw [← readItems?_skipBlanks, hclose, readItems?_bracket] at h
    cases h
  case h_2 =>
    rw [readItems?_skipBlanks, h]
    rfl

theorem readValue?_object {l : List (Option String × Json)} {t : List Char}
    (h : readFields? fuel (t ++ '\x7d' :: s) = some (l, s)) :
    readValue? (fuel + 1) ('\x7b' :: (t ++ ['\x7d']) ++ s) = some (.object l, s) := by
  rw [List.cons_append, List.append_assoc, List.singleton_append, readValue?_openBrace]
  split
  case h_1 hclose =>
    rw [← readFields?_skipBlanks, hclose, readFields?_brace] at h
    cases h
  case h_2 =>
    rw [readFields?_skipBlanks, h]
    rfl

variable {v : Json} {t b' u : List Char}

theorem readItems?_last (hb : Blanks b) (hb' : Blanks b')
    (h : readValue? fuel (t ++ (b' ++ ']' :: s)) = some (v, b' ++ ']' :: s)) :
    readItems? (fuel + 1) (b ++ (t ++ b') ++ ']' :: s) = some ([v], s) := by
  rw [List.append_assoc, List.append_assoc, readItems?_succ, readValue?_append hb, h, Option.bind_some]
  dsimp only
  rw [skipBlanks_append hb']
  rfl

theorem readItems?_next {l : List Json} (hb : Blanks b) (hb' : Blanks b')
    (h : readValue? fuel (t ++ (b' ++ ',' :: (u ++ ']' :: s))) = some (v, b' ++ ',' :: (u ++ ']' :: s)))
    (hu : readItems? fuel (u ++ ']' :: s) = some (l, s)) :
    readItems? (fuel + 1) (b ++ (t ++ (b' ++ ',' :: u)) ++ ']' :: s) = some (v :: l, s) := by
  rw [List.append_assoc, List.append_assoc, List.append_assoc, List.cons_append, readItems?_succ,
    readValue?_append hb, h, Option.bind_some]
  dsimp only
  rw [skipBlanks_append hb']
  show (readItems? fuel (u ++ ']' :: s)).bind _ = _
  rw [hu]
  rfl

section Fields

variable {name : Option String} {a n a' : List Char}

/-- After its name and the colon a field goes on with its value. -/
theorem readFields?_named (ha : Blanks a) (hn : SpellsString name n) (ha' : Blanks a') (s : List Char) :
    readFields? (fuel + 1) (a ++ (n ++ (a' ++ ':' :: s))) =
      (readValue? fuel s).bind fun x =>
        match skipBlanks x.2 with
        | ',' :: r => (readFields? fuel r).bind fun y => some ((name, x.1) :: y.1, y.2)
        | '\x7d' :: r => some ([(name, x.1)], r)
        | _ => none := by
  obtain ⟨u, hu, hread⟩ := readString?_string hn (a' ++ ':' :: s)
  have hquote : after? ['"'] (skipBlanks (a ++ (n ++ (a' ++ ':' :: s)))) = some u := by
    rw [skipBlanks_append ha, hu]
    rfl
  have hcolon : after? [':'] (skipBlanks (a' ++ ':' :: s)) = some s := by
    rw [skipBlanks_append ha']
    rfl
  rw [readFields?.eq_def]
  simp only [hquote, hread, hcolon, Option.bind_eq_bind, Option.bind_some]
  rfl

theorem readFields?_last (ha : Blanks a) (hn : SpellsString name n) (ha' : Blanks a') (hb : Blanks b)
    (hb' : Blanks b') (h : readValue? fuel (t ++ (b' ++ '\x7d' :: s)) = some (v, b' ++ '\x7d' :: s)) :
    readFields? (fuel + 1) (a ++ (n ++ (a' ++ ':' :: (b ++ (t ++ b')))) ++ '\x7d' :: s) =
      some ([(name, v)], s) := by
  simp only [List.append_assoc, List.cons_append]
  rw [readFields?_named ha hn ha', readValue?_append hb, h, Option.bind_some]
  dsimp only
  rw [skipBlanks_append hb']
  rfl

theorem readFields?_next {l : List (Option String × Json)} (ha : Blanks a) (hn : SpellsString name n)
    (ha' : Blanks a') (hb : Blanks b) (hb' : Blanks b')
    (h : readValue? fuel (t ++ (b' ++ ',' :: (u ++ '\x7d' :: s))) = some (v, b' ++ ',' :: (u ++ '\x7d' :: s)))
    (hu : readFields? fuel (u ++ '\x7d' :: s) = some (l, s)) :
    readFields? (fuel + 1) (a ++ (n ++ (a' ++ ':' :: (b ++ (t ++ (b' ++ ',' :: u))))) ++ '\x7d' :: s) =
      some ((name, v) :: l, s) := by
  simp only [List.append_assoc, List.cons_append]
  rw [readFields?_named ha hn ha', readValue?_append hb, h, Option.bind_some]
  dsimp only
  rw [skipBlanks_append hb']
  show (readFields? fuel (u ++ '\x7d' :: s)).bind _ = _
  rw [hu]
  rfl

end Fields

end Steps

/-! ### What is spelled is read -/

/-- The text can follow a part: after a number it does not carry the number on. -/
def Part.MayPrecede (rest : List Char) : Part → Prop
  | value (.number _) => EndsNumber rest
  | _ => True

/-- The steps that it takes to read a part. -/
def Part.steps (t : List Char) : Part → Nat
  | value _ => 2 * t.length + 1
  | items _ => 2 * t.length + 2
  | fields _ => 2 * t.length + 2

/-- The part is read from a text in front of another; items and fields are read with what closes them. -/
def Part.Read (fuel : Nat) (t rest : List Char) : Part → Prop
  | value v => readValue? fuel (t ++ rest) = some (v, rest)
  | items l => readItems? fuel (t ++ ']' :: rest) = some (l, rest)
  | fields l => readFields? fuel (t ++ '\x7d' :: rest) = some (l, rest)

theorem Part.mayPrecede_of_ends (h : EndsNumber rest) (p : Part) : p.MayPrecede rest := by
  unfold MayPrecede
  split
  · exact h
  · trivial

/-- Neither blanks nor marks between values carry a number on. -/
theorem endsNumber_blanks {b : List Char} {c : Char} (hb : Blanks b) (hc : c = ',' ∨ c = ']' ∨ c = '\x7d')
    (s : List Char) : EndsNumber (b ++ c :: s) := by
  have hhead : ∃ d u, b ++ c :: s = d :: u ∧ (isBlank d = true ∨ d = ',' ∨ d = ']' ∨ d = '\x7d') := by
    cases b with
    | nil => exact ⟨c, s, rfl, .inr hc⟩
    | cons d b => exact ⟨d, _, rfl, .inl (hb d (List.mem_cons_self ..))⟩
  obtain ⟨d, u, hu, hd⟩ := hhead
  rw [hu]
  have hchar : d ∈ [' ', '\n', '\t', '\r', ',', ']', '\x7d'] := by
    simp only [isBlank, Bool.or_eq_true, decide_eq_true_eq] at hd
    simp only [List.mem_cons, List.not_mem_nil, or_false]
    tauto
  have hall : ∀ d ∈ [' ', '\n', '\t', '\r', ',', ']', '\x7d'],
      isDigit d = false ∧ d ≠ '.' ∧ d ≠ 'e' ∧ d ≠ 'E' := by simp [isDigit]
  obtain ⟨hdigit, hpoint, hlower, hupper⟩ := hall d hchar
  refine ⟨fun x hx => ?_, by simpa using hpoint, by simpa using hlower, by simpa using hupper⟩
  cases hx
  exact hdigit

/-- Every part is read from the texts that spell it. -/
theorem Spells.read {p : Part} {t : List Char} (h : Spells p t) {fuel : Nat} (hfuel : p.steps t ≤ fuel)
    (hrest : p.MayPrecede rest) : p.Read fuel t rest := by
  induction h generalizing fuel rest with
  | null | true | false =>
    obtain ⟨fuel, rfl⟩ := Nat.exists_eq_succ_of_ne_zero (Nat.ne_zero_of_lt hfuel)
    rfl
  | number h =>
    obtain ⟨fuel, rfl⟩ := Nat.exists_eq_succ_of_ne_zero (Nat.ne_zero_of_lt hfuel)
    exact readValue?_number h hrest
  | string h =>
    obtain ⟨fuel, rfl⟩ := Nat.exists_eq_succ_of_ne_zero (Nat.ne_zero_of_lt hfuel)
    exact readValue?_string h
  | emptyArray hb =>
    obtain ⟨fuel, rfl⟩ := Nat.exists_eq_succ_of_ne_zero (Nat.ne_zero_of_lt hfuel)
    exact readValue?_emptyArray hb
  | emptyObject hb =>
    obtain ⟨fuel, rfl⟩ := Nat.exists_eq_succ_of_ne_zero (Nat.ne_zero_of_lt hfuel)
    exact readValue?_emptyObject hb
  | array _ ih =>
    obtain ⟨fuel, rfl⟩ := Nat.exists_eq_succ_of_ne_zero (Nat.ne_zero_of_lt hfuel)
    simp only [Part.steps, List.length_cons, List.length_append, List.length_nil] at hfuel ih
    exact readValue?_array (ih (by omega) trivial)
  | object _ ih =>
    obtain ⟨fuel, rfl⟩ := Nat.exists_eq_succ_of_ne_zero (Nat.ne_zero_of_lt hfuel)
    simp only [Part.steps, List.length_cons, List.length_append, List.length_nil] at hfuel ih
    exact readValue?_object (ih (by omega) trivial)
  | item hb _ hb' ih =>
    obtain ⟨fuel, rfl⟩ := Nat.exists_eq_succ_of_ne_zero (Nat.ne_zero_of_lt hfuel)
    simp only [Part.steps, List.length_append] at hfuel ih
    exact readItems?_last hb hb' (ih (by omega) (Part.mayPrecede_of_ends (endsNumber_blanks hb' (by simp) _) _))
  | items hb _ hb' _ ih ihu =>
    obtain ⟨fuel, rfl⟩ := Nat.exists_eq_succ_of_ne_zero (Nat.ne_zero_of_lt hfuel)
    simp only [Part.steps, List.length_append, List.length_cons] at hfuel ih ihu
    exact readItems?_next hb hb' (ih (by omega) (Part.mayPrecede_of_ends (endsNumber_blanks hb' (by simp) _) _))
      (ihu (by omega) trivial)
  | field ha hn ha' hb _ hb' ih =>
    obtain ⟨fuel, rfl⟩ := Nat.exists_eq_succ_of_ne_zero (Nat.ne_zero_of_lt hfuel)
    simp only [Part.steps, List.length_append, List.length_cons] at hfuel ih
    exact readFields?_last ha hn ha' hb hb'
      (ih (by omega) (Part.mayPrecede_of_ends (endsNumber_blanks hb' (by simp) _) _))
  | fields ha hn ha' hb _ hb' _ ih ihu =>
    obtain ⟨fuel, rfl⟩ := Nat.exists_eq_succ_of_ne_zero (Nat.ne_zero_of_lt hfuel)
    simp only [Part.steps, List.length_append, List.length_cons] at hfuel ih ihu
    exact readFields?_next ha hn ha' hb hb'
      (ih (by omega) (Part.mayPrecede_of_ends (endsNumber_blanks hb' (by simp) _) _)) (ihu (by omega) trivial)

/-! ### What is read is spelled -/

/-- What is taken off the front of a text within some steps is spelled there. -/
structure Sound (fuel : Nat) : Prop where
  value : ∀ {s r : List Char} {v : Json}, readValue? fuel s = some (v, r) →
    ∃ b t, s = b ++ (t ++ r) ∧ Blanks b ∧ Spells (.value v) t
  items : ∀ {s r : List Char} {l : List Json}, readItems? fuel s = some (l, r) →
    ∃ t, s = t ++ ']' :: r ∧ Spells (.items l) t
  fields : ∀ {s r : List Char} {l : List (Option String × Json)}, readFields? fuel s = some (l, r) →
    ∃ t, s = t ++ '\x7d' :: r ∧ Spells (.fields l) t

section Sound

variable {fuel : Nat} {v : Json} {b : List Char}

theorem Sound.value_succ (h : Sound fuel) (hv : readValue? (fuel + 1) s = some (v, r)) :
    ∃ b t, s = b ++ (t ++ r) ∧ Blanks b ∧ Spells (.value v) t := by
  obtain ⟨b, hb, hs⟩ := exists_blanks s
  suffices ht : ∃ t, skipBlanks s = t ++ r ∧ Spells (.value v) t by
    obtain ⟨t, hskip, ht⟩ := ht
    exact ⟨b, t, by rw [← hskip]; exact hs, hb, ht⟩
  rw [readValue?.eq_def] at hv
  dsimp only at hv
  split at hv
  case h_1 u hskip =>
    obtain ⟨⟨x, r'⟩, hstring, hv⟩ := Option.map_eq_some_iff.mp hv
    cases hv
    obtain ⟨t, ht, hspells⟩ := string_of_readString? hstring
    exact ⟨t, hskip.trans ht, .string hspells⟩
  case h_2 u hskip =>
    obtain ⟨b', hb', hu⟩ := exists_blanks u
    split at hv
    case h_1 r' hclose =>
      cases hv
      rw [hclose] at hu
      exact ⟨'[' :: (b' ++ [']']), by rw [hskip, hu]; simp, .emptyArray hb'⟩
    case h_2 =>
      obtain ⟨⟨l, r'⟩, hitems, hv⟩ := Option.map_eq_some_iff.mp hv
      cases hv
      rw [readItems?_skipBlanks] at hitems
      obtain ⟨t, ht, hspells⟩ := h.items hitems
      exact ⟨'[' :: (t ++ [']']), by rw [hskip, ht]; simp, .array hspells⟩
  case h_3 u hskip =>
    obtain ⟨b', hb', hu⟩ := exists_blanks u
    split at hv
    case h_1 r' hclose =>
      cases hv
      rw [hclose] at hu
      exact ⟨'\x7b' :: (b' ++ ['\x7d']), by rw [hskip, hu]; simp, .emptyObject hb'⟩
    case h_2 =>
      obtain ⟨⟨l, r'⟩, hfields, hv⟩ := Option.map_eq_some_iff.mp hv
      cases hv
      rw [readFields?_skipBlanks] at hfields
      obtain ⟨t, ht, hspells⟩ := h.fields hfields
      exact ⟨'\x7b' :: (t ++ ['\x7d']), by rw [hskip, ht]; simp, .object hspells⟩
  case h_4 u hskip =>
    obtain ⟨r', hrest, hv⟩ := Option.map_eq_some_iff.mp hv
    cases hv
    exact ⟨['n', 'u', 'l', 'l'], by rw [hskip, after?_eq_some.mp hrest]; rfl, .null⟩
  case h_5 u hskip =>
    obtain ⟨r', hrest, hv⟩ := Option.map_eq_some_iff.mp hv
    cases hv
    exact ⟨['t', 'r', 'u', 'e'], by rw [hskip, after?_eq_some.mp hrest]; rfl, .true⟩
  case h_6 u hskip =>
    obtain ⟨r', hrest, hv⟩ := Option.map_eq_some_iff.mp hv
    cases hv
    exact ⟨['f', 'a', 'l', 's', 'e'], by rw [hskip, after?_eq_some.mp hrest]; rfl, .false⟩
  case h_7 =>
    obtain ⟨⟨n, r'⟩, hnumber, hv⟩ := Option.map_eq_some_iff.mp hv
    cases hv
    obtain ⟨t, ht, hspells⟩ := number_of_readNumber? hnumber
    exact ⟨t, ht, .number hspells⟩

theorem Sound.items_succ {l : List Json} (h : Sound fuel) (hl : readItems? (fuel + 1) s = some (l, r)) :
    ∃ t, s = t ++ ']' :: r ∧ Spells (.items l) t := by
  rw [readItems?.eq_def] at hl
  obtain ⟨⟨v, u⟩, hvalue, hnext⟩ := Option.bind_eq_some_iff.mp hl
  obtain ⟨b, t, rfl, hb, ht⟩ := h.value hvalue
  obtain ⟨b', hb', hu⟩ := exists_blanks u
  dsimp only at hnext
  split at hnext
  case h_1 u' hcomma =>
    obtain ⟨⟨l', r'⟩, hitems, hend⟩ := Option.bind_eq_some_iff.mp hnext
    cases hend
    obtain ⟨w, rfl, hw⟩ := h.items hitems
    rw [hcomma] at hu
    exact ⟨b ++ (t ++ (b' ++ ',' :: w)), by rw [hu]; simp, .items hb ht hb' hw⟩
  case h_2 u' hclose =>
    cases hnext
    rw [hclose] at hu
    exact ⟨b ++ (t ++ b'), by rw [hu]; simp, .item hb ht hb'⟩
  case h_3 => cases hnext

theorem Sound.fields_succ {l : List (Option String × Json)} (h : Sound fuel)
    (hl : readFields? (fuel + 1) s = some (l, r)) : ∃ t, s = t ++ '\x7d' :: r ∧ Spells (.fields l) t := by
  rw [readFields?.eq_def] at hl
  obtain ⟨a, ha, hs⟩ := exists_blanks s
  obtain ⟨u, hquote, hafter⟩ := Option.bind_eq_some_iff.mp hl
  obtain ⟨⟨name, u₁⟩, hname, hafter⟩ := Option.bind_eq_some_iff.mp hafter
  obtain ⟨u₂, hcolon, hafter⟩ := Option.bind_eq_some_iff.mp hafter
  obtain ⟨⟨v, u₃⟩, hvalue, hnext⟩ := Option.bind_eq_some_iff.mp hafter
  obtain ⟨n, hn, hspells⟩ := string_of_readString? hname
  obtain ⟨a', ha', hu₁⟩ := exists_blanks u₁
  obtain ⟨b, t, rfl, hb, ht⟩ := h.value hvalue
  obtain ⟨b', hb', hu₃⟩ := exists_blanks u₃
  rw [after?_eq_some.mp hquote, List.singleton_append, hn] at hs
  rw [after?_eq_some.mp hcolon, List.singleton_append] at hu₁
  dsimp only at hnext
  split at hnext
  case h_1 u' hcomma =>
    obtain ⟨⟨l', r'⟩, hfields, hend⟩ := Option.bind_eq_some_iff.mp hnext
    cases hend
    obtain ⟨w, rfl, hw⟩ := h.fields hfields
    rw [hcomma] at hu₃
    refine ⟨a ++ (n ++ (a' ++ ':' :: (b ++ (t ++ (b' ++ ',' :: w))))), ?_, .fields ha hspells ha' hb ht hb' hw⟩
    rw [hs, hu₁, hu₃]
    simp
  case h_2 u' hclose =>
    cases hnext
    rw [hclose] at hu₃
    refine ⟨a ++ (n ++ (a' ++ ':' :: (b ++ (t ++ b')))), ?_, .field ha hspells ha' hb ht hb'⟩
    rw [hs, hu₁, hu₃]
    simp
  case h_3 => cases hnext

theorem sound (fuel : Nat) : Sound fuel := by
  induction fuel with
  | zero =>
    constructor <;> intro s r x h <;> cases h
  | succ fuel ih =>
    constructor
    · exact ih.value_succ
    · exact ih.items_succ
    · exact ih.fields_succ

end Sound

/-! ### Texts -/

theorem endsNumber_of_blanks {b : List Char} (hb : Blanks b) : EndsNumber b := by
  cases b with
  | nil => exact ⟨fun c hc => (by cases hc), by simp, by simp⟩
  | cons c b =>
    have hc := hb c (List.mem_cons_self ..)
    simp only [isBlank, Bool.or_eq_true, decide_eq_true_eq] at hc
    refine ⟨fun d hd => ?_, ?_, ?_⟩
    · cases hd
      rcases hc with ((rfl | rfl) | rfl) | rfl <;> rfl
    · rcases hc with ((rfl | rfl) | rfl) | rfl <;> simp
    · rcases hc with ((rfl | rfl) | rfl) | rfl <;> simp

theorem isEmpty_skipBlanks : (skipBlanks s).isEmpty = true ↔ Blanks s := by
  rw [List.isEmpty_iff]
  constructor
  · intro h
    obtain ⟨b, hb, hs⟩ := exists_blanks s
    rw [h, List.append_nil] at hs
    exact hs ▸ hb
  · exact skipBlanks_blanks

/-- A value is read from a text that spells it in front of another that can follow. -/
theorem readValue?_padded {v : Json} {b t : List Char} {fuel : Nat} (hb : Blanks b) (ht : Spells (.value v) t)
    (hfuel : 2 * t.length < fuel) (hrest : (Part.value v).MayPrecede rest) :
    readValue? fuel (b ++ (t ++ rest)) = some (v, rest) := by
  rw [readValue?_append hb]
  exact ht.read hfuel hrest

/-- A text is read as a value exactly if it spells the value, with nothing but blanks around it. -/
theorem read?_eq_some {s : String} {v : Json} : read? s = some v ↔ IsText v s.toList := by
  constructor
  · intro h
    obtain ⟨⟨v', r⟩, hvalue, h⟩ := Option.bind_eq_some_iff.mp h
    dsimp only at h
    split at h
    case isFalse => cases h
    case isTrue hempty =>
      cases h
      obtain ⟨b, t, hs, hb, ht⟩ := (sound _).value hvalue
      rw [hs]
      exact .padded hb ht (isEmpty_skipBlanks.mp hempty)
  · intro h
    generalize hs : s.toList = l at h
    cases h with
    | @padded b t b' hb ht hb' =>
      have hlength : s.length = b.length + (t.length + b'.length) := by
        rw [← String.length_toList, hs, List.length_append, List.length_append]
      have hfuel : 2 * t.length < 2 * s.length + 2 := by omega
      have hread := readValue?_padded hb ht hfuel (Part.mayPrecede_of_ends (endsNumber_of_blanks hb') _)
      simp only [read?, hs, hread, Option.bind_eq_bind, Option.bind_some]
      exact if_pos (isEmpty_skipBlanks.mpr hb')

/-- Nothing but blanks may follow an object. -/
theorem read?_append_object {s u : String} {l : List (Option String × Json)} (h : IsText (.object l) s.toList)
    (hu : ¬ Blanks u.toList) : read? (s ++ u) = none := by
  generalize hs : s.toList = w at h
  cases h with
  | @padded b t b' hb ht hb' =>
    have htext : (s ++ u).toList = b ++ (t ++ (b' ++ u.toList)) := by
      rw [String.toList_append, hs]
      simp
    have hlength : (s ++ u).length = b.length + (t.length + (b'.length + u.toList.length)) := by
      rw [← String.length_toList, htext, List.length_append, List.length_append, List.length_append]
    have hfuel : 2 * t.length < 2 * (s ++ u).length + 2 := by omega
    have hrest : (Part.value (.object l)).MayPrecede (b' ++ u.toList) := trivial
    have hread := readValue?_padded hb ht hfuel hrest
    simp only [read?, htext, hread, Option.bind_eq_bind, Option.bind_some, skipBlanks_append hb']
    exact if_neg (mt isEmpty_skipBlanks.mp hu)

end CertEnroll.Json
