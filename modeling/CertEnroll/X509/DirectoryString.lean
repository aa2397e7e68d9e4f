import CertEnroll.Der.Value
import CertEnroll.Text.Printable

/-!
# X509.DirectoryString — texts that are written in the simplest form that holds them

A text over the alphabet of printable strings is written as a printable string, any other text in
UTF-8.  Both forms are read, and ASCII texts of a third form as well.
-/

namespace CertEnroll.X509

open Der (Element)

/-- The form of a text. -/
def directoryString (s : String) : Element :=
  if Text.allPrintable s then ⟨.printableString, Bytes.ofAscii s⟩ else ⟨.utf8String, Bytes.ofUtf8 s⟩

/-- The text of a form. -/
def directoryText? (e : Element) : Option String :=
  match e.tag with
  | .printableString => e.content.ascii?.filter Text.allPrintable
  | .teletexString => e.content.ascii?
  | .utf8String => e.content.utf8?
  | _ => none

end CertEnroll.X509
