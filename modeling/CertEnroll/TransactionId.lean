import CertEnroll.Der.Element
import CertEnroll.Text.Printable

/-!
# TransactionId — the names of enrollment transactions

A transaction id is a non-empty text over the alphabet of printable strings, short enough to be written as
one.
-/

namespace CertEnroll

/-- Whether a text names a transaction.  Each of its characters is written as one octet. -/
def Text.IsName (s : String) : Prop :=
  s ≠ "" ∧ allPrintable s = true ∧ s.length ≤ Der.maxLength

instance (s : String) : Decidable (Text.IsName s) := inferInstanceAs (Decidable (_ ∧ _))

/-- The name of a transaction. -/
structure TransactionId where
  /-- The text. -/
  text : String
  /-- The text is not empty, stays within the alphabet and is not too long. -/
  valid : Text.IsName text
  deriving DecidableEq

namespace TransactionId

/-- The transaction id with a given text. -/
def ofText? (s : String) : Option TransactionId :=
  if h : Text.IsName s then some ⟨s, h⟩ else none

theorem ofText?_text (i : TransactionId) : ofText? i.text = some i := by
  simp [ofText?, i.valid]

/-- A text that makes an id is kept as it is. -/
theorem ofText?_eq_some {s : String} {i : TransactionId} : ofText? s = some i ↔ i.text = s := by
  constructor
  · intro h
    unfold ofText? at h
    split at h
    case isTrue => exact congrArg text (Option.some.inj h).symm
    case isFalse => cases h
  · rintro rfl
    exact ofText?_text i

end TransactionId

end CertEnroll
