import CertEnroll.Text.Digits

/-!
# Text.Printable — the alphabet of printable strings

Letters, digits, the blank and eleven marks.  All of them are ASCII, so such a text and its octets
determine each other.
-/

namespace CertEnroll.Text

/-- The marks of the alphabet, with the blank. -/
def printableMarks : List Char :=
  [' ', '\'', '(', ')', '+', ',', '-', '.', '/', ':', '=', '?']

/-- Whether a character belongs to the alphabet. -/
def isPrintable (c : Char) : Bool :=
  ('A' ≤ c && c ≤ 'Z') || ('a' ≤ c && c ≤ 'z') || isDigit c || printableMarks.contains c

/-- Whether a text stays within the alphabet. -/
def allPrintable (s : String) : Bool :=
  s.toList.all isPrintable

end CertEnroll.Text
