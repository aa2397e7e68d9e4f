import CertEnroll.Config
import CertEnroll.Json.Names

/-!
# Config.Text — the choices for a transaction as a JSON text

The text is an object with up to four known fields in any order, each at most once; other fields are
passed over, and a missing field means the usual choice.  An array of up to four values gives the
fields by their place.
-/

namespace CertEnroll.Config

/-- The size of a nonce that a JSON value gives; it fits sixty-four bits. -/
def nonceSize? : Json → Option Nat
  | .number (some n) => if n < 0x10000000000000000 then some n else none
  | _ => none

/-- A truth value. -/
def flag? : Json → Option Bool
  | .bool b => some b
  | _ => none

/-- The known fields, in their order. -/
inductive Field
  | digest
  | cipher
  | nonceSize
  | verifies
  deriving DecidableEq, Repr

/-- Every known field. -/
def Field.all : List Field := [digest, cipher, nonceSize, verifies]

/-- The name of a field. -/
def Field.name : Field → String
  | digest => "digest"
  | cipher => "cipher"
  | nonceSize => "nonce_len"
  | verifies => "verify_signatures"

/-- The field with a given name. -/
def Field.ofName? (s : String) : Option Field :=
  all.find? fun f => f.name = s

/-- The choices with one field set. -/
def set? (c : Config) (f : Field) (v : Json) : Option Config :=
  match f with
  | .digest => (Digest.ofJson? v).map fun d => { c with digest := d }
  | .cipher => (Cipher.ofJson? v).map fun k => { c with cipher := k }
  | .nonceSize => (nonceSize? v).map fun n => { c with nonceSize := n }
  | .verifies => (flag? v).map fun b => { c with verifies := b }

/-- The choices after the fields of an object; `seen` are the known fields before them. -/
def setFields? : List Field → Config → List (Option String × Json) → Option Config
  | _, c, [] => some c
  | seen, c, (name, v) :: r => do
    match Field.ofName? (← name) with
    | none => setFields? seen c r
    | some f =>
      if f ∈ seen then none
      else
        let c ← c.set? f v
        setFields? (f :: seen) c r

/-- The choices after values by their place. -/
def setInOrder? : Config → List Field → List Json → Option Config
  | c, _, [] => some c
  | _, [], _ :: _ => none
  | c, f :: fs, v :: vs => do
    let c ← c.set? f v
    setInOrder? c fs vs

/-- The choices that a JSON value gives. -/
def ofJson? : Json → Option Config
  | .object fields => setFields? [] standard fields
  | .array items => setInOrder? standard Field.all items
  | _ => none

/-- The choices that a text gives. -/
def ofText? (s : String) : Option Config := do
  let v ← Json.read? s
  ofJson? v

/-- The text of the value of a field. -/
def valueText (c : Config) : Field → String
  | .digest => Json.ofName c.digest.jsonName
  | .cipher => Json.ofName c.cipher.jsonName
  | .nonceSize => toString c.nonceSize
  | .verifies => if c.verifies then "true" else "false"

/-- The text of the choices, with every field. -/
def text (c : Config) : String :=
  "\x7b" ++ String.intercalate "," (Field.all.map fun f => Json.ofName f.name ++ ":" ++ c.valueText f) ++
    "\x7d"

end CertEnroll.Config
