/-!
# The random sequence

`Random` is the state of a generator of words with 256 bits of state: each word is a scrambled
part of the state, which then moves on by shifts, rotations and sums without carry
(`Random.next`). A seed of two words fixes the whole sequence (`Random.ofSeed`). A word is turned
into a number of at most `n` by its low bits alone, and drawn again while these exceed `n`
(`Random.mask` gives how many bits are looked at), so that every number is equally likely.
-/

namespace ScriptAgent.Script

/-- The state of the generator. -/
structure Random where
  a : UInt64
  b : UInt64
  c : UInt64
  d : UInt64
deriving DecidableEq, Inhabited

namespace Random

/-- The bits of a word moved to the left, around its end; `0 < n < 64`. -/
def rotate (x : UInt64) (n : UInt64) : UInt64 := (x <<< n) ||| (x >>> (64 - n))

/-- The next word and the state after it. -/
def next (r : Random) : UInt64 × Random :=
  let c := r.c ^^^ r.a
  let d := r.d ^^^ r.b
  (rotate (r.b * 5) 7 * 9, ⟨r.a ^^^ d, r.b ^^^ c, c ^^^ (r.b <<< 17), rotate d 45⟩)

/-- The state after `n` words. -/
def skip (r : Random) : Nat → Random
  | 0 => r
  | n + 1 => r.next.2.skip n

/-- The state that a seed gives; the first words, in which the seed still shows, are passed
over. -/
def ofSeed (high low : UInt64) : Random := (Random.mk high 0xff low 0).skip 16

/-- The word as a float from zero up to one. -/
def unit (x : UInt64) : Float := Float.scaleB (Float.ofNat (x >>> 11).toNat) (-53)

/-- The least number of the form `2 ^ k - 1` that is no less than `n`. -/
def mask (n : UInt64) : UInt64 := UInt64.ofNat ((1 <<< (if n = 0 then 0 else n.toNat.log2 + 1)) - 1)

end Random

end ScriptAgent.Script
