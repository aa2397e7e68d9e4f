import CertEnroll.Json
import CertEnroll.Proofs.Numerals

/-!
# Proofs.Json.Grammar — which texts spell a JSON value

The grammar says of a text which value it spells, without regard to how texts are read.  Blanks may stand
around each value and each mark.  What is kept of numbers and strings is what `Json` keeps: a number that
is more than its whole part and a string with half a surrogate pair are spelled, but have no content.
-/

namespace CertEnroll.Json

open Text (IsPlain decimal hexValue? isDigit)

/-! ### Blanks -/

/-- The text is made of blanks. -/
def Blanks (b : List Char) : Prop := ∀ c ∈ b, isBlank c = true

/-! ### Numbers -/

/-- The text is a row of digits. -/
structure Digits (d : List Char) : Prop where
  digit : ∀ c ∈ d, isDigit c = true
  ne_nil : d ≠ []

/-- The text is the whole part of a number: a row of digits with no zero before others. -/
structure Whole (i : List Char) : Prop extends Digits i where
  plain : IsPlain i

/-- The text is the fraction of a number, or none. -/
inductive Fraction : List Char → Prop
  | none : Fraction []
  | digits {d : List Char} (h : Digits d) : Fraction ('.' :: d)

/-- The text is the sign of an exponent, or none. -/
inductive ExponentSign : List Char → Prop
  | none : ExponentSign []
  | plus : ExponentSign ['+']
  | minus : ExponentSign ['-']

/-- The text is the exponent of a number, or none. -/
inductive Exponent : List Char → Prop
  | none : Exponent []
  | digits {e : Char} {sign d : List Char} (he : e = 'e' ∨ e = 'E') (hsign : ExponentSign sign) (h : Digits d) :
    Exponent (e :: (sign ++ d))

/-- The text is the sign of a number, or none. -/
inductive Sign : List Char → Prop
  | none : Sign []
  | minus : Sign ['-']

/-- The text spells a number, which is kept if it is the whole part alone. -/
inductive SpellsNumber : Option Nat → List Char → Prop
  | parts {sign i f e : List Char} (hsign : Sign sign) (hi : Whole i) (hf : Fraction f) (he : Exponent e) :
    SpellsNumber (if sign = [] ∧ f = [] ∧ e = [] then some (decimal i) else none) (sign ++ (i ++ (f ++ e)))

/-! ### Strings -/

/-- The escapes of one letter and the characters that they stand for. -/
def shortEscapes : List (Char × Char) :=
  [('"', '"'), ('\\', '\\'), ('/', '/'), ('b', '\x08'), ('f', '\x0c'), ('n', '\n'), ('r', '\r'), ('t', '\t')]

/-- The text spells one piece of a string: a character that stands for itself, or an escape. -/
inductive SpellsPiece : Piece → List Char → Prop
  | plain {c : Char} (hcontrol : 32 ≤ c.toNat) (hquote : c ≠ '"') (hescape : c ≠ '\\') : SpellsPiece (.char c) [c]
  | short {e c : Char} (h : (e, c) ∈ shortEscapes) : SpellsPiece (.char c) ['\\', e]
  | unicode {a b c d : Char} {w x y z : Nat} (ha : hexValue? a = some w) (hb : hexValue? b = some x)
    (hc : hexValue? c = some y) (hd : hexValue? d = some z) :
    SpellsPiece (.ofNat (16 * (16 * (16 * w + x) + y) + z)) ['\\', 'u', a, b, c, d]

/-- The text spells pieces in a row. -/
inductive SpellsPieces : List Piece → List Char → Prop
  | nil : SpellsPieces [] []
  | cons {p : Piece} {ps : List Piece} {t u : List Char} (hp : SpellsPiece p t) (hps : SpellsPieces ps u) :
    SpellsPieces (p :: ps) (t ++ u)

/-- The text spells a string between quotes; halves of surrogate pairs are joined. -/
inductive SpellsString : Option String → List Char → Prop
  | pieces {ps : List Piece} {t : List Char} (h : SpellsPieces ps t) :
    SpellsString ((joinPieces? ps).map String.ofList) ('"' :: (t ++ ['"']))

/-! ### Values -/

/-- What a text can spell: a value, the items of an array or the fields of an object. -/
inductive Part
  | value (v : Json)
  | items (l : List Json)
  | fields (l : List (Option String × Json))

/-- The text spells a value, or the items or fields between the brackets or braces of one. -/
inductive Spells : Part → List Char → Prop
  | null : Spells (.value .null) ['n', 'u', 'l', 'l']
  | true : Spells (.value (.bool true)) ['t', 'r', 'u', 'e']
  | false : Spells (.value (.bool false)) ['f', 'a', 'l', 's', 'e']
  | number {n : Option Nat} {t : List Char} (h : SpellsNumber n t) : Spells (.value (.number n)) t
  | string {x : Option String} {t : List Char} (h : SpellsString x t) : Spells (.value (.string x)) t
  | emptyArray {b : List Char} (hb : Blanks b) : Spells (.value (.array [])) ('[' :: (b ++ [']']))
  | array {l : List Json} {t : List Char} (h : Spells (.items l) t) :
    Spells (.value (.array l)) ('[' :: (t ++ [']']))
  | emptyObject {b : List Char} (hb : Blanks b) : Spells (.value (.object [])) ('\x7b' :: (b ++ ['\x7d']))
  | object {l : List (Option String × Json)} {t : List Char} (h : Spells (.fields l) t) :
    Spells (.value (.object l)) ('\x7b' :: (t ++ ['\x7d']))
  | item {v : Json} {b t b' : List Char} (hb : Blanks b) (ht : Spells (.value v) t) (hb' : Blanks b') :
    Spells (.items [v]) (b ++ (t ++ b'))
  | items {v : Json} {l : List Json} {b t b' u : List Char} (hb : Blanks b) (ht : Spells (.value v) t)
    (hb' : Blanks b') (hu : Spells (.items l) u) : Spells (.items (v :: l)) (b ++ (t ++ (b' ++ ',' :: u)))
  | field {name : Option String} {v : Json} {a n a' b t b' : List Char} (ha : Blanks a)
    (hn : SpellsString name n) (ha' : Blanks a') (hb : Blanks b) (ht : Spells (.value v) t) (hb' : Blanks b') :
    Spells (.fields [(name, v)]) (a ++ (n ++ (a' ++ ':' :: (b ++ (t ++ b')))))
  | fields {name : Option String} {v : Json} {l : List (Option String × Json)} {a n a' b t b' u : List Char}
    (ha : Blanks a) (hn : SpellsString name n) (ha' : Blanks a') (hb : Blanks b) (ht : Spells (.value v) t)
    (hb' : Blanks b') (hu : Spells (.fields l) u) :
    Spells (.fields ((name, v) :: l)) (a ++ (n ++ (a' ++ ':' :: (b ++ (t ++ (b' ++ ',' :: u))))))

/-- The text spells a value with nothing but blanks around it. -/
inductive IsText : Json → List Char → Prop
  | padded {v : Json} {b t b' : List Char} (hb : Blanks b) (ht : Spells (.value v) t) (hb' : Blanks b') :
    IsText v (b ++ (t ++ b'))

end CertEnroll.Json
