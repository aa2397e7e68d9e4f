import CertEnroll.Text.Digits

/-!
# Json — a reader of JSON texts

`Json.read?` reads a text that holds one value and nothing else but blanks.  Two things are kept of a
value only as far as they can matter.  A number is kept if it is written without sign, fraction and
exponent.  A string is kept if all its escapes stand for characters: a lone half of a surrogate pair
does not, and the string that holds it can be passed over but not used.
-/

namespace CertEnroll

/-- A JSON value. -/
inductive Json
  | null
  | bool (b : Bool)
  | number (natural : Option Nat)
  | string (text : Option String)
  | array (items : List Json)
  | object (fields : List (Option String × Json))

namespace Json

/-! ### Blanks -/

/-- Whether a character may stand between the parts of a text. -/
def isBlank (c : Char) : Bool :=
  c = ' ' || c = '\n' || c = '\t' || c = '\r'

/-- A text without the blanks at its front. -/
def skipBlanks (s : List Char) : List Char :=
  s.dropWhile isBlank

/-- What follows an expected beginning. -/
def after? : List Char → List Char → Option (List Char)
  | [], s => some s
  | c :: w, d :: s => if c = d then after? w s else none
  | _ :: _, [] => none

/-! ### Numbers -/

/-- What follows a non-empty row of digits. -/
def skipDigits? (s : List Char) : Option (List Char) :=
  if (s.takeWhile Text.isDigit).isEmpty then none else some (s.dropWhile Text.isDigit)

/-- What follows an optional exponent, and whether there is one. -/
def skipExponent? : List Char → Option (Bool × List Char)
  | c :: s =>
    if c = 'e' ∨ c = 'E' then
      let s := match s with
        | '+' :: r => r
        | '-' :: r => r
        | r => r
      (skipDigits? s).map fun r => (true, r)
    else some (false, c :: s)
  | [] => some (false, [])

/-- What follows an optional fraction, and whether there is one. -/
def skipFraction? : List Char → Option (Bool × List Char)
  | '.' :: s => (skipDigits? s).map fun r => (true, r)
  | s => some (false, s)

/-- A number without its sign. -/
def readUnsigned? (s : List Char) : Option (Option Nat × List Char) := do
  let digits := s.takeWhile Text.isDigit
  if digits.isEmpty ∨ (digits.head? = some '0' ∧ 1 < digits.length) then none
  else
    let (fraction, r) ← skipFraction? (s.dropWhile Text.isDigit)
    let (exponent, r) ← skipExponent? r
    return (if fraction || exponent then none else some (Text.decimal digits), r)

/-- A number. -/
def readNumber? : List Char → Option (Option Nat × List Char)
  | '-' :: s => (readUnsigned? s).map fun r => (none, r.2)
  | s => readUnsigned? s

/-! ### Strings -/

/-- The number of four hexadecimal digits. -/
def readHex4? : List Char → Option (Nat × List Char)
  | a :: b :: c :: d :: r => do
    let digits ← [a, b, c, d].mapM Text.hexValue?
    return (digits.foldl (fun n k => 16 * n + k) 0, r)
  | _ => none

/-- A piece of a string: a character, or one half of a surrogate pair. -/
inductive Piece
  | char (c : Char)
  | high (n : Nat)
  | low (n : Nat)

/-- The piece of a number of sixteen bits. -/
def Piece.ofNat (n : Nat) : Piece :=
  if 0xd800 ≤ n ∧ n < 0xdc00 then high (n - 0xd800)
  else if 0xdc00 ≤ n ∧ n < 0xe000 then low (n - 0xdc00)
  else char (Char.ofNat n)

/-- The piece of an escape, after the backslash. -/
def readEscape? : List Char → Option (Piece × List Char)
  | '"' :: r => some (.char '"', r)
  | '\\' :: r => some (.char '\\', r)
  | '/' :: r => some (.char '/', r)
  | 'b' :: r => some (.char '\x08', r)
  | 'f' :: r => some (.char '\x0c', r)
  | 'n' :: r => some (.char '\n', r)
  | 'r' :: r => some (.char '\r', r)
  | 't' :: r => some (.char '\t', r)
  | 'u' :: r => (readHex4? r).map fun (n, r) => (.ofNat n, r)
  | _ => none

/-- The pieces of a string after its opening quote, at most `fuel` of them. -/
def readPieces? : Nat → List Char → Option (List Piece × List Char)
  | 0, _ => none
  | fuel + 1, s =>
    match s with
    | [] => none
    | '"' :: r => some ([], r)
    | '\\' :: r => do
      let (p, r) ← readEscape? r
      let (ps, r) ← readPieces? fuel r
      return (p :: ps, r)
    | c :: r =>
      if c.toNat < 32 then none
      else do
        let (ps, r) ← readPieces? fuel r
        return (.char c :: ps, r)

/-- The characters of some pieces, unless half a pair stands alone. -/
def joinPieces? : List Piece → Option (List Char)
  | [] => some []
  | .char c :: r => (joinPieces? r).map (c :: ·)
  | .high h :: .low l :: r => (joinPieces? r).map (Char.ofNat (0x10000 + 0x400 * h + l) :: ·)
  | _ => none

/-- A string after its opening quote. -/
def readString? (s : List Char) : Option (Option String × List Char) := do
  let (ps, r) ← readPieces? (s.length + 1) s
  return ((joinPieces? ps).map String.ofList, r)

/-! ### Values -/

mutual

/-- A value at the front of a text. -/
def readValue? : Nat → List Char → Option (Json × List Char)
  | 0, _ => none
  | fuel + 1, s =>
    match skipBlanks s with
    | '"' :: r => (readString? r).map fun (t, r) => (.string t, r)
    | '[' :: r =>
      match skipBlanks r with
      | ']' :: r => some (.array [], r)
      | r => (readItems? fuel r).map fun (l, r) => (.array l, r)
    | '\x7b' :: r =>
      match skipBlanks r with
      | '\x7d' :: r => some (.object [], r)
      | r => (readFields? fuel r).map fun (l, r) => (.object l, r)
    | 'n' :: r => (after? ['u', 'l', 'l'] r).map fun r => (.null, r)
    | 't' :: r => (after? ['r', 'u', 'e'] r).map fun r => (.bool true, r)
    | 'f' :: r => (after? ['a', 'l', 's', 'e'] r).map fun r => (.bool false, r)
    | r => (readNumber? r).map fun (n, r) => (.number n, r)

/-- The items of an array, the first of which is there, with the closing bracket. -/
def readItems? : Nat → List Char → Option (List Json × List Char)
  | 0, _ => none
  | fuel + 1, s => do
    let (v, r) ← readValue? fuel s
    match skipBlanks r with
    | ',' :: r =>
      let (l, r) ← readItems? fuel r
      return (v :: l, r)
    | ']' :: r => return ([v], r)
    | _ => none

/-- The fields of an object, the first of which is there, with the closing brace. -/
def readFields? : Nat → List Char → Option (List (Option String × Json) × List Char)
  | 0, _ => none
  | fuel + 1, s => do
    let r ← after? ['"'] (skipBlanks s)
    let (name, r) ← readString? r
    let r ← after? [':'] (skipBlanks r)
    let (v, r) ← readValue? fuel r
    match skipBlanks r with
    | ',' :: r =>
      let (l, r) ← readFields? fuel r
      return ((name, v) :: l, r)
    | '\x7d' :: r => return ([(name, v)], r)
    | _ => none

end

/-- The value of a text. -/
def read? (s : String) : Option Json := do
  let (v, r) ← readValue? (2 * s.length + 2) s.toList
  if (skipBlanks r).isEmpty then some v else none

/-! ### Names -/

/-- The name that a value stands for: a string, or an object with that one field, which is null. -/
def name? : Json → Option String
  | .string t => t
  | .object [(t, .null)] => t
  | _ => none

/-- A name as a JSON text.  Names are made of letters, digits and underscores. -/
def ofName (s : String) : String :=
  "\"" ++ s ++ "\""

end Json

end CertEnroll
