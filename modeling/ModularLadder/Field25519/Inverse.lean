import ModularLadder.Field25519.Element

/-!
# Inversion modulo `2^255 - 19`

The inverse of a nonzero element is its power with exponent `p - 2`.  A fixed
chain of squarings and products reaches it.  Most links of the chain have an
exponent `2^n - 1`, a run of `n` set bits; two runs join into a longer one by
squaring the first past the second.  The power of zero is zero.
-/

namespace ModularLadder.Field25519.Element

/-- The powers of an element on the way to its inverse. -/
structure InversionChain where
  /-- The exponent is 9. -/
  nine : Element
  /-- The exponent is 11. -/
  eleven : Element
  /-- The exponent is `2^5 - 1`. -/
  run5 : Element
  /-- The exponent is `2^10 - 1`. -/
  run10 : Element
  /-- The exponent is `2^20 - 1`. -/
  run20 : Element
  /-- The exponent is `2^40 - 1`. -/
  run40 : Element
  /-- The exponent is `2^50 - 1`. -/
  run50 : Element
  /-- The exponent is `2^100 - 1`. -/
  run100 : Element
  /-- The exponent is `2^200 - 1`. -/
  run200 : Element
  /-- The exponent is `2^250 - 1`. -/
  run250 : Element

/-- The chain of powers of an element. -/
def inversionChain (x : Element) : InversionChain :=
  let two := x.square
  let eight := two.squareTimes 2
  let nine := eight.mul x
  let eleven := nine.mul two
  let run5 := eleven.square.mul nine
  let run10 := (run5.squareTimes 5).mul run5
  let run20 := (run10.squareTimes 10).mul run10
  let run40 := (run20.squareTimes 20).mul run20
  let run50 := (run40.squareTimes 10).mul run10
  let run100 := (run50.squareTimes 50).mul run50
  let run200 := (run100.squareTimes 100).mul run100
  let run250 := (run200.squareTimes 50).mul run50
  { nine, eleven, run5, run10, run20, run40, run50, run100, run200, run250 }

/--
The power with exponent `p - 2`, which is `2^255 - 2^5 + 11`.
-/
def inverse (x : Element) : Element :=
  let chain := x.inversionChain
  (chain.run250.squareTimes 5).mul chain.eleven

end ModularLadder.Field25519.Element
