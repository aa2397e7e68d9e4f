import CertEnroll.Text.Unseen

/-!
# Text.Quoted — text shown between double quotes

Quotes, backslashes and the common control characters are written with a backslash; other control
characters and characters that cannot be seen are written as their number in braces.
-/

namespace CertEnroll.Text

/-- Whether a character is written as its number. -/
def isHidden (c : Char) : Bool :=
  c.toNat < 32 || c.toNat = 127 || 127 < c.toNat && isUnseen c

/-- The form of one character between quotes. -/
def quotedChar (c : Char) : List Char :=
  if c = '"' then ['\\', '"']
  else if c = '\\' then ['\\', '\\']
  else if c = '\t' then ['\\', 't']
  else if c = '\n' then ['\\', 'n']
  else if c = '\r' then ['\\', 'r']
  else if c = '\x00' then ['\\', '0']
  else if isHidden c then
    ['\\', 'u', '\x7b'] ++ Nat.toDigits 16 c.toNat ++ ['\x7d']
  else [c]

/-- A text between double quotes. -/
def quoted (s : String) : String :=
  String.ofList ('"' :: s.toList.flatMap quotedChar ++ ['"'])

end CertEnroll.Text
