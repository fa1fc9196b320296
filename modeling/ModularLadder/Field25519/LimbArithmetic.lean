import ModularLadder.Field25519.Limbs

/-!
# Carries, differences and products on ten limbs

These functions add, subtract, multiply, shift and mask limbs, and do nothing
else with them.  They are written for every kind of limbs with these
operations: for the 64-bit limbs in which products are accumulated and the
32-bit limbs of elements, but equally for natural numbers, which never
overflow.

What leaves the highest limb has the weight `2^255`, which is 19 modulo
`2^255 - 19`.
-/

namespace ModularLadder.Field25519.TenLimbs

variable
  {α : Type}
  [∀ number, OfNat α number]
  [Add α]
  [Sub α]
  [Mul α]
  [AndOp α]
  [ShiftRight α]

/-- The 26 lowest bits of a limb. -/
def low26 (limb : α) : α :=
  limb &&& 0x3ffffff

/-- The 25 lowest bits of a limb. -/
def low25 (limb : α) : α :=
  limb &&& 0x1ffffff

/--
Moves the excess of each limb into the next one, from the lowest limb up.  The
highest limb takes what comes and keeps its own excess.
-/
def sweep (z : TenLimbs α) : TenLimbs α :=
  let z1 := z.l1 + (z.l0 >>> 26)
  let z2 := z.l2 + (z1 >>> 25)
  let z3 := z.l3 + (z2 >>> 26)
  let z4 := z.l4 + (z3 >>> 25)
  let z5 := z.l5 + (z4 >>> 26)
  let z6 := z.l6 + (z5 >>> 25)
  let z7 := z.l7 + (z6 >>> 26)
  let z8 := z.l8 + (z7 >>> 25)
  let z9 := z.l9 + (z8 >>> 26)
  { l0 := low26 z.l0
    l1 := low25 z1
    l2 := low26 z2
    l3 := low25 z3
    l4 := low26 z4
    l5 := low25 z5
    l6 := low26 z6
    l7 := low25 z7
    l8 := low26 z8
    l9 := z9 }

/--
Moves the excess of the highest limb to the lowest one, where `2^255` counts
as 19.
-/
def fold (z : TenLimbs α) : TenLimbs α :=
  let excess := z.l9 >>> 25
  { z with
    l0 := z.l0 + 19 * excess
    l9 := low25 z.l9 }

/-- Moves the excess of the lowest limb into the second one. -/
def settle (z : TenLimbs α) : TenLimbs α :=
  { z with
    l0 := low26 z.l0
    l1 := z.l1 + (z.l0 >>> 26) }

/--
Moves the carries twice around, for limbs below `2^63`.  After two rounds at
most 19 has been added to the lowest limb, whose excess cannot travel beyond
the second one.
-/
def carryAround (z : TenLimbs α) : TenLimbs α :=
  z.sweep.fold.sweep.fold.settle

/-- Four times the modulus, limb by limb above every loose element. -/
def fourPrimes : TenLimbs α :=
  { l0 := 0xfffffb4
    l1 := 0x7fffffc
    l2 := 0xffffffc
    l3 := 0x7fffffc
    l4 := 0xffffffc
    l5 := 0x7fffffc
    l6 := 0xffffffc
    l7 := 0x7fffffc
    l8 := 0xffffffc
    l9 := 0x7fffffc }

/-- The sum limb by limb. -/
def sum (x y : TenLimbs α) : TenLimbs α :=
  x.zipWith (· + ·) y

/--
The limbs of a difference to which four times the modulus has been added, so
that no limb falls below zero.
-/
def raisedDifference (x y : TenLimbs α) : TenLimbs α :=
  (x.zipWith (· + ·) fourPrimes).zipWith (· - ·) y

/--
The limbs of a product.  Two odd limbs meet half a bit below the weight of
their place, hence the factor two.  A product past the highest place wraps
around with the factor 19.
-/
def product (a b : TenLimbs α) : TenLimbs α :=
  let d1 := 2 * a.l1
  let d3 := 2 * a.l3
  let d5 := 2 * a.l5
  let d7 := 2 * a.l7
  let d9 := 2 * a.l9
  let w1 := 19 * b.l1
  let w2 := 19 * b.l2
  let w3 := 19 * b.l3
  let w4 := 19 * b.l4
  let w5 := 19 * b.l5
  let w6 := 19 * b.l6
  let w7 := 19 * b.l7
  let w8 := 19 * b.l8
  let w9 := 19 * b.l9
  { l0 :=
      a.l0 * b.l0 + d1 * w9 + a.l2 * w8 + d3 * w7 + a.l4 * w6 +
        d5 * w5 + a.l6 * w4 + d7 * w3 + a.l8 * w2 + d9 * w1
    l1 :=
      a.l0 * b.l1 + a.l1 * b.l0 + a.l2 * w9 + a.l3 * w8 + a.l4 * w7 +
        a.l5 * w6 + a.l6 * w5 + a.l7 * w4 + a.l8 * w3 + a.l9 * w2
    l2 :=
      a.l0 * b.l2 + d1 * b.l1 + a.l2 * b.l0 + d3 * w9 + a.l4 * w8 +
        d5 * w7 + a.l6 * w6 + d7 * w5 + a.l8 * w4 + d9 * w3
    l3 :=
      a.l0 * b.l3 + a.l1 * b.l2 + a.l2 * b.l1 + a.l3 * b.l0 + a.l4 * w9 +
        a.l5 * w8 + a.l6 * w7 + a.l7 * w6 + a.l8 * w5 + a.l9 * w4
    l4 :=
      a.l0 * b.l4 + d1 * b.l3 + a.l2 * b.l2 + d3 * b.l1 + a.l4 * b.l0 +
        d5 * w9 + a.l6 * w8 + d7 * w7 + a.l8 * w6 + d9 * w5
    l5 :=
      a.l0 * b.l5 + a.l1 * b.l4 + a.l2 * b.l3 + a.l3 * b.l2 + a.l4 * b.l1 +
        a.l5 * b.l0 + a.l6 * w9 + a.l7 * w8 + a.l8 * w7 + a.l9 * w6
    l6 :=
      a.l0 * b.l6 + d1 * b.l5 + a.l2 * b.l4 + d3 * b.l3 + a.l4 * b.l2 +
        d5 * b.l1 + a.l6 * b.l0 + d7 * w9 + a.l8 * w8 + d9 * w7
    l7 :=
      a.l0 * b.l7 + a.l1 * b.l6 + a.l2 * b.l5 + a.l3 * b.l4 + a.l4 * b.l3 +
        a.l5 * b.l2 + a.l6 * b.l1 + a.l7 * b.l0 + a.l8 * w9 + a.l9 * w8
    l8 :=
      a.l0 * b.l8 + d1 * b.l7 + a.l2 * b.l6 + d3 * b.l5 + a.l4 * b.l4 +
        d5 * b.l3 + a.l6 * b.l2 + d7 * b.l1 + a.l8 * b.l0 + d9 * w9
    l9 :=
      a.l0 * b.l9 + a.l1 * b.l8 + a.l2 * b.l7 + a.l3 * b.l6 + a.l4 * b.l5 +
        a.l5 * b.l4 + a.l6 * b.l3 + a.l7 * b.l2 + a.l8 * b.l1 +
        a.l9 * b.l0 }

/--
One if reduced limbs stand for at least `2^255 - 19` and zero otherwise: the
carry past bit 255 of their sum with 19.
-/
def excess (h : TenLimbs α) : α :=
  let carry := (h.l0 + 19) >>> 26
  let carry := (h.l1 + carry) >>> 25
  let carry := (h.l2 + carry) >>> 26
  let carry := (h.l3 + carry) >>> 25
  let carry := (h.l4 + carry) >>> 26
  let carry := (h.l5 + carry) >>> 25
  let carry := (h.l6 + carry) >>> 26
  let carry := (h.l7 + carry) >>> 25
  let carry := (h.l8 + carry) >>> 26
  (h.l9 + carry) >>> 25

/--
Adds a small number to reduced limbs, moves the carries up and drops what
passes bit 255.
-/
def addAndWrap (h : TenLimbs α) (addend : α) : TenLimbs α :=
  let h0 := h.l0 + addend
  let h1 := h.l1 + (h0 >>> 26)
  let h2 := h.l2 + (h1 >>> 25)
  let h3 := h.l3 + (h2 >>> 26)
  let h4 := h.l4 + (h3 >>> 25)
  let h5 := h.l5 + (h4 >>> 26)
  let h6 := h.l6 + (h5 >>> 25)
  let h7 := h.l7 + (h6 >>> 26)
  let h8 := h.l8 + (h7 >>> 25)
  let h9 := h.l9 + (h8 >>> 26)
  { l0 := low26 h0
    l1 := low25 h1
    l2 := low26 h2
    l3 := low25 h3
    l4 := low26 h4
    l5 := low25 h5
    l6 := low26 h6
    l7 := low25 h7
    l8 := low26 h8
    l9 := low25 h9 }

/-- Subtracts `2^255 - 19` from reduced limbs that stand for at least that. -/
def subtractPrime (h : TenLimbs α) : TenLimbs α :=
  h.addAndWrap (19 * h.excess)

end ModularLadder.Field25519.TenLimbs
