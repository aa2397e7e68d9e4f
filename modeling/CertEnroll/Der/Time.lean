import CertEnroll.Calendar
import CertEnroll.Der.Value

/-!
# Der.Time — times as digits

A time is written with two or with four digits for the year.  The short form stands for the years 1970
to 2049; it is the one used for them, and the long form for all later years.
-/

namespace CertEnroll.Der

open Calendar (DateTime Instant)

/-- The last year of the short form. -/
def lastShortYear : Nat := 2049

/-- A time in one of the two forms. -/
inductive Time
  /-- A time with two digits for the year. -/
  | short (time : DateTime) (year_le : time.year ≤ lastShortYear)
  /-- A time with four digits for the year. -/
  | long (time : DateTime)
  deriving DecidableEq

namespace Time

/-- The date and time of either form. -/
def dateTime : Time → DateTime
  | short t _ => t
  | long t => t

/-- The short form up to its last year, then the long form. -/
def ofDateTime (t : DateTime) : Time :=
  if h : t.year ≤ lastShortYear then short t h else long t

/-- The time of an instant. -/
def ofInstant? (i : Instant) : Option Time :=
  i.dateTime?.map ofDateTime

/-! ### Digits -/

/-- The two decimal digits of a number below a hundred. -/
def twoDigits (n : Nat) : Bytes :=
  [UInt8.ofNat (48 + n / 10 % 10), UInt8.ofNat (48 + n % 10)]

/-- The numbers that pairs of digits spell. -/
def pairs? : Bytes → Option (List Nat)
  | [] => some []
  | [_] => none
  | a :: b :: r =>
    if 48 ≤ a ∧ a ≤ 57 ∧ 48 ≤ b ∧ b ≤ 57 then
      (pairs? r).map ((10 * (a.toNat - 48) + (b.toNat - 48)) :: ·)
    else none

/-- The digits after the year, and the mark of universal time. -/
def tailDigits (t : DateTime) : Bytes :=
  [t.month, t.day, t.hour, t.minute, t.second].flatMap twoDigits ++ [90]

/-- The pairs of digits before the mark of universal time. -/
def markedPairs? (b : Bytes) : Option (List Nat) :=
  if b.getLast? = some 90 then pairs? b.dropLast else none

/-- The year that two digits stand for. -/
def fullYear (n : Nat) : Nat :=
  if 50 ≤ n then 1900 + n else 2000 + n

/-- The short form that octets spell. -/
def ofShort? (b : Bytes) : Option Time := do
  match ← markedPairs? b with
  | [y, mo, d, h, mi, s] =>
    let t ← DateTime.ofParts? (fullYear y) mo d h mi s
    if le : t.year ≤ lastShortYear then some (short t le) else none
  | _ => none

/-- The long form that octets spell. -/
def ofLong? (b : Bytes) : Option Time := do
  match ← markedPairs? b with
  | [c, y, mo, d, h, mi, s] =>
    let t ← DateTime.ofParts? (100 * c + y) mo d h mi s
    return long t
  | _ => none

instance : Der Time where
  toElement
    | short t _ => ⟨.utcTime, twoDigits (t.year % 100) ++ tailDigits t⟩
    | long t => ⟨.generalizedTime, twoDigits (t.year / 100) ++ twoDigits (t.year % 100) ++ tailDigits t⟩
  ofElement? e :=
    match e.tag with
    | .utcTime => ofShort? e.content
    | .generalizedTime => ofLong? e.content
    | _ => none

/-- Whether a tag belongs to a time. -/
def hasTag (t : Tag) : Bool :=
  t = .utcTime || t = .generalizedTime

end Time

end CertEnroll.Der
