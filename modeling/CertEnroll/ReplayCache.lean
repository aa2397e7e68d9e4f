import CertEnroll.Error
import CertEnroll.Nonce

/-!
# ReplayCache — the nonces of the last answers

The cache remembers the last nonces that were recorded, at most `capacity` of them.  A nonce that is
remembered is not recorded again, so its place in the order does not change.
-/

namespace CertEnroll

/-- The nonces recorded last, oldest first. -/
structure ReplayCache where
  capacity : Nat
  nonces : List Nonce
  deriving DecidableEq

namespace ReplayCache

/-- The capacity of a cache where no other is chosen. -/
def standardCapacity : Nat := 20

/-- An empty cache; it has room for one nonce at least. -/
def ofCapacity (n : Nat) : ReplayCache := ⟨max n 1, []⟩

/-- An empty cache of the usual capacity. -/
def empty : ReplayCache := ofCapacity standardCapacity

/-- The number of nonces remembered. -/
def size (c : ReplayCache) : Nat := c.nonces.length

/-- Whether no nonce is remembered. -/
def isEmpty (c : ReplayCache) : Bool := c.nonces.isEmpty

/-- Whether a nonce is remembered. -/
def contains (c : ReplayCache) (n : Nonce) : Bool := c.nonces.contains n

/-- Records a nonce that is not remembered; a full cache forgets the oldest. -/
def record (c : ReplayCache) (n : Nonce) : ReplayCache :=
  { c with nonces := (if c.nonces.length = c.capacity then c.nonces.drop 1 else c.nonces) ++ [n] }

/-- Records a nonce unless it is remembered. -/
def offer (c : ReplayCache) (n : Nonce) : ReplayCache :=
  if c.contains n then c else c.record n

/-- Whether a nonce is new; it is remembered afterwards. -/
def checkAndInsert (n : Nonce) : StateM ReplayCache Bool := fun c =>
  (!c.contains n, c.offer n)

/-- Fails on a nonce that is remembered, and records it otherwise. -/
def accept (n : Nonce) : ExceptT Error (StateM ReplayCache) Unit := do
  unless ← (checkAndInsert n : StateM ReplayCache Bool) do
    throw .replay

end ReplayCache

end CertEnroll
