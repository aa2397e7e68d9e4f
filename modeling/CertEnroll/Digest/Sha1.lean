import CertEnroll.Digest.Padding

/-!
# Digest.Sha1 — the SHA-1 message digest

Five words are mixed with a schedule of eighty words that extends each block of sixteen.
-/

namespace CertEnroll.Digest.Sha1

/-- The five chaining words. -/
structure State where
  a : UInt32
  b : UInt32
  c : UInt32
  d : UInt32
  e : UInt32

/-- The chaining words before the first block. -/
def State.start : State := ⟨0x67452301, 0xefcdab89, 0x98badcfe, 0x10325476, 0xc3d2e1f0⟩

/-- A word turned left. -/
def rotl (x n : UInt32) : UInt32 :=
  (x <<< n) ||| (x >>> (32 - n))

/-- The sixteen words of a block, extended to eighty. -/
def schedule (block : Bytes) : Array UInt32 :=
  let start := ((block.chunks 4 16).map fun w => UInt32.ofNat w.toNat).toArray
  (List.range' 16 64).foldl (fun w i =>
    w.push (rotl (w.getD (i - 3) 0 ^^^ w.getD (i - 8) 0 ^^^ w.getD (i - 14) 0 ^^^ w.getD (i - 16) 0) 1))
    start

/-- The mixing function and the constant of step `i`. -/
def mix (s : State) (i : Nat) : UInt32 × UInt32 :=
  match i / 20 with
  | 0 => ((s.b &&& s.c) ||| (~~~s.b &&& s.d), 0x5a827999)
  | 1 => (s.b ^^^ s.c ^^^ s.d, 0x6ed9eba1)
  | 2 => ((s.b &&& s.c) ||| (s.b &&& s.d) ||| (s.c &&& s.d), 0x8f1bbcdc)
  | _ => (s.b ^^^ s.c ^^^ s.d, 0xca62c1d6)

/-- Step `i` on a schedule. -/
def step (w : Array UInt32) (s : State) (i : Nat) : State :=
  let (f, k) := mix s i
  ⟨rotl s.a 5 + f + s.e + k + w.getD i 0, s.a, rotl s.b 30, s.c, s.d⟩

/-- The chaining words after one more block. -/
def compress (s : State) (block : Bytes) : State :=
  let t := (List.range 80).foldl (step (schedule block)) s
  ⟨s.a + t.a, s.b + t.b, s.c + t.c, s.d + t.d, s.e + t.e⟩

/-- The SHA-1 digest of a message, twenty bytes. -/
def hash (m : Bytes) : Bytes :=
  let s := (blocksBE 64 8 m).foldl compress State.start
  [s.a, s.b, s.c, s.d, s.e].flatMap fun w => Bytes.ofNat 4 w.toNat

end CertEnroll.Digest.Sha1
