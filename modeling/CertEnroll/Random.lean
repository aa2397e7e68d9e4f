import CertEnroll.Bytes

/-!
# Random — an endless stream of random bytes and the place reached in it

Whatever needs randomness draws the next bytes of one stream; no byte is skipped or drawn twice.
A stream is any function from positions to bytes, so statements about all streams quantify over all
of them.  `splitMix` is the stream that a seed determines.
-/

namespace CertEnroll

/-- A stream of bytes and the number of them drawn so far. -/
structure Random where
  /-- The byte at each position of the stream. -/
  source : Nat → UInt8
  /-- The number of bytes drawn so far. -/
  drawn : Nat

namespace Random

/-- The next `n` bytes and the stream after them. -/
def draw (n : Nat) : StateM Random Bytes := fun r =>
  ((List.range n).map fun i => r.source (r.drawn + i), { r with drawn := r.drawn + n })

/-- The next byte and the stream after it. -/
def drawByte : StateM Random UInt8 := fun r =>
  (r.source r.drawn, { r with drawn := r.drawn + 1 })

/-- The next non-zero byte; after `limit` zero bytes in a row it is `1`. -/
def drawNonZero : Nat → StateM Random UInt8
  | 0 => pure 1
  | limit + 1 => do
    let b ← drawByte
    if b = 0 then drawNonZero limit else pure b

/-! ### Seeded streams -/

/-- The finalizer of the SplitMix64 generator. -/
def splitMixWord (z : UInt64) : UInt64 :=
  let z := (z ^^^ (z >>> 30)) * 0xbf58476d1ce4e5b9
  let z := (z ^^^ (z >>> 27)) * 0x94d049bb133111eb
  z ^^^ (z >>> 31)

/-- The stream of the SplitMix64 outputs of a seed, each written little-endian. -/
def splitMixByte (seed : UInt64) (i : Nat) : UInt8 :=
  let word := splitMixWord (seed + UInt64.ofNat (i / 8 + 1) * 0x9e3779b97f4a7c15)
  (word >>> UInt64.ofNat (8 * (i % 8))).toUInt8

/-- The stream that starts with given bytes and goes on with the SplitMix64 outputs of a seed. -/
def splitMix (head : Array UInt8) (seed : UInt64) : Random where
  source i := if i < head.size then head.getD i 0 else splitMixByte seed (i - head.size)
  drawn := 0

/-! ### What a draw does to the stream -/

@[simp] theorem length_draw (n : Nat) (r : Random) : ((draw n).run r).1.length = n := by
  simp [draw, StateT.run]

theorem drawNonZero_ne_zero (limit : Nat) (r : Random) : ((drawNonZero limit).run r).1 ≠ 0 := by
  induction limit generalizing r with
  | zero => exact (by decide : (1 : UInt8) ≠ 0)
  | succ limit ih =>
    change ((if r.source r.drawn = 0 then drawNonZero limit else pure (r.source r.drawn))
      { r with drawn := r.drawn + 1 }).1 ≠ 0
    split
    · exact ih _
    · assumption

end Random

end CertEnroll
