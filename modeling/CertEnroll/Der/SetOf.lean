import CertEnroll.Der.Value

/-!
# Der.SetOf — sets of values, kept in the order in which they are written

The members of a set are compared by their octets: first the tag and the length, then a weight that
the type of the members fixes, then the content.  Most types have no weight, which leaves the plain
order of octets; members that are alternatives of a choice are ordered by the number of octets above
127 first.  A set holds no member twice, unless the type of the members lets some of them be repeated.
A member that is longer than the greatest length cannot be compared, so it stands alone in its set.
`ofList?` builds a set from members in any order.
-/

namespace CertEnroll.Der

/-- Values that may be members of a set. -/
class Member (α : Type) extends Der α where
  /-- What is compared before the content of members of the same tag and length. -/
  weight : Element → Nat := fun _ => 0
  /-- Whether a member may be repeated. -/
  repeats : α → Bool := fun _ => false

/-- The number of octets above 127. -/
def highOctets (e : Element) : Nat :=
  e.encode.countP (128 ≤ ·)

/-- The place of a value in the order of members. -/
def orderKey {α : Type} [Member α] (a : α) : List Nat :=
  let e := toElement a
  e.header.map UInt8.toNat ++ Member.weight α e :: e.content.map UInt8.toNat

/-- Whether a value may stand before another in a set: neither is too long to be compared, and it comes
first in the order, or both are the same and may be repeated. -/
def precedes {α : Type} [Member α] (a b : α) : Prop :=
  ((toElement a).Fits ∧ (toElement b).Fits) ∧
    (orderKey a < orderKey b ∨ (Member.repeats a = true ∧ orderKey a = orderKey b))

instance {α : Type} [Member α] (a b : α) : Decidable (precedes a b) :=
  inferInstanceAs (Decidable (_ ∧ _))

/-- A set of values. -/
structure SetOf (α : Type) [Member α] where
  /-- The members. -/
  toList : List α
  /-- The members are in ascending order. -/
  ascending : toList.Pairwise precedes

namespace SetOf

variable {α : Type} [Member α]

instance [DecidableEq α] : DecidableEq (SetOf α) := fun s t =>
  decidable_of_iff (s.toList = t.toList) ⟨fun h => by cases s; cases t; cases h; rfl, fun h => h ▸ rfl⟩

/-- The empty set. -/
def empty : SetOf α := ⟨[], .nil⟩

/-- The set with one member. -/
def singleton (a : α) : SetOf α := ⟨[a], by simp⟩

/-- Puts a value with its key into a list in ascending order of the keys, before those of the same key. -/
def insert (x : List Nat × α) : List (List Nat × α) → List (List Nat × α)
  | [] => [x]
  | y :: l => if y.1 < x.1 then y :: insert x l else x :: y :: l

/-- The values in ascending order of their keys; those of the same key stay in their order. -/
def sorted (l : List α) : List α :=
  ((l.map fun a => (orderKey a, a)).foldr insert []).map (·.2)

/-- The set of some values, which have to be different unless they may be repeated. -/
def ofList? (l : List α) : Option (SetOf α) :=
  let s := sorted l
  if h : s.Pairwise precedes then some ⟨s, h⟩ else none

/-- The number of members. -/
def size (s : SetOf α) : Nat := s.toList.length

/-- A set under the tag of sets. -/
instance : Der (SetOf α) where
  toElement s := .ofElements .set (s.toList.map toElement)
  ofElement? e := do
    let es ← e.elements? .set
    let l ← es.mapM (ofElement? : Element → Option α)
    ofList? l

end SetOf

instance : Member Element where
  toElement := toElement
  ofElement? := ofElement?

end CertEnroll.Der
