import Mathlib
import ModularLadder.Proofs.Montgomery.Context

/-!
# The quotient by the radix

Modulo `N` every total has one quotient by the radix `R`, and one list of words
of the context's width stands for it below `N`.  Reduction answers with these
words for every total below `N * R`, by passes over two words each and, if the
width is odd, a last one over a single word.

Products and squares need no factors below the modulus: it is enough that the
exact product is below `N * R`.  The words of the quotient do not show how the
product has been computed, so that a square and the product of a number by
itself have the same answer.
-/

namespace ModularLadder.Montgomery

namespace Reducer

section

variable
  {reducer : Reducer}
  (sound : reducer.Sound)
  {total : Nat}
  {result other : Words}

include sound

/-- A total has one quotient only. -/
theorem Sound.reduces_unique
    (first : reducer.Reduces total result)
    (second : reducer.Reduces total other) :
    result = other := by
  apply Words.eq_of_value_eq
  · exact first.width.trans second.width.symm
  · exact first.value_eq sound second.below second.congruent

theorem Sound.eq_iff_reduces
    (reduces : reducer.Reduces total result) :
    result = other ↔ reducer.Reduces total other := by
  constructor
  · rintro rfl
    exact reduces
  · intro second
    exact sound.reduces_unique reduces second

end

end Reducer

namespace Context

/-- Numbers of the context's width whose product is below `N * R`. -/
structure Factors (context : Context) (left right : Words) : Prop where
  leftWidth : left.length = context.width
  rightWidth : right.length = context.width
  room :
    Words.value left * Words.value right <
      Words.value context.modulus * 2 ^ (64 * context.width)

/--
Each way to divide by `R` modulo `N` answers with the words of the quotient,
and with no others, whatever the temporaries have held.
-/
structure DividesByRadix (context : Context) : Prop where
  /-- A number of double width in the accumulator, below a clear word. -/
  reduce_eq_iff (total difference quotient : Words) :
    total.length = 2 * context.width →
      difference.length = context.width →
        Words.value total <
            Words.value context.modulus * 2 ^ (64 * context.width) →
          ((context.reduce.run
                { accumulator := total ++ [0], difference := difference }).1 =
              quotient ↔
            context.Reduces (Words.value total) quotient)
  multiply_eq_iff (left right quotient : Words) (scratch : Scratch) :
    context.Factors left right →
      scratch.Fits context.width →
        (((context.multiply left right).run scratch).1 = quotient ↔
          context.Reduces (Words.value left * Words.value right) quotient)
  square_eq_iff (number quotient : Words) (scratch : Scratch) :
    context.Factors number number →
      scratch.Fits context.width →
        (((context.square number).run scratch).1 = quotient ↔
          context.Reduces (Words.value number * Words.value number) quotient)
  /-- Equal factors may be squared or multiplied, each on any temporaries. -/
  square_eq_multiply (number : Words) (first second : Scratch) :
    context.Factors number number →
      first.Fits context.width →
        second.Fits context.width →
          ((context.square number).run first).1 =
            ((context.multiply number number).run second).1

section

variable
  {context : Context}
  (sound : context.Sound)
  {scratch : Scratch}
  (fits : scratch.Fits context.width)

include sound fits

theorem Sound.multiply_reduces
    {left right : Words}
    (factors : context.Factors left right) :
    context.Reduces (Words.value left * Words.value right)
      ((context.multiply left right).run scratch).1 :=
  (sound.reducer.multiply_exact scratch fits left right factors.leftWidth
    factors.rightWidth factors.room).1

theorem Sound.square_reduces
    {number : Words}
    (factors : context.Factors number number) :
    context.Reduces (Words.value number * Words.value number)
      ((context.square number).run scratch).1 :=
  (sound.reducer.square_exact scratch fits number factors.leftWidth
    factors.room).1

end

/-- Every context that has been made divides by its radix. -/
theorem dividesByRadix_of_ofBytes
    {modulus : Bytes}
    {context : Context}
    (made : ofBytes modulus = .ok context) :
    context.DividesByRadix := by
  have sound := (sound_of_ofBytes made).1
  constructor
  case reduce_eq_iff =>
    intro total difference quotient length differenceLength room
    have fits :
        ({ accumulator := total ++ [0], difference := difference } :
          Scratch).Fits context.width :=
      ⟨by simp [length], differenceLength⟩
    exact
      sound.reducer.eq_iff_reduces
        (sound.reducer.reduce_extended _ fits total length room).1
  case multiply_eq_iff =>
    intro left right quotient scratch factors fits
    exact sound.reducer.eq_iff_reduces (sound.multiply_reduces fits factors)
  case square_eq_iff =>
    intro number quotient scratch factors fits
    exact sound.reducer.eq_iff_reduces (sound.square_reduces fits factors)
  case square_eq_multiply =>
    intro number first second factors firstFits secondFits
    exact
      sound.reducer.reduces_unique
        (sound.square_reduces firstFits factors)
        (sound.multiply_reduces secondFits factors)

/--
Modulo `2 ^ 128 + 1`, in three words, a factor above the modulus is multiplied
by one below it.
-/
theorem dividesByRadix_of_ofBytes_threeWords :
    let ones : Word := 0xFFFFFFFFFFFFFFFF
    let modulus : Bytes := [1, 0, 0, 0, 0, 0, 0, 0, 0, 0, 0, 0, 0, 0, 0, 0, 1]
    let context := ofModulus (modulusOfBytes modulus) modulus.length
    ofBytes modulus = .ok context ∧
      context.DividesByRadix ∧
      context.Reduces
        (Words.value [ones, ones, ones] * Words.value [ones, ones, 0])
        [ones - 1, 1, 0] := by
  intro ones modulus context
  have made : ofBytes modulus = .ok context := by
    rw [ofBytes_eq, if_neg (by decide), if_neg (by decide)]
  have divides := dividesByRadix_of_ofBytes made
  have factors : context.Factors [ones, ones, ones] [ones, ones, 0] :=
    ⟨by decide +kernel, by decide +kernel, by decide +kernel⟩
  refine ⟨made, divides, ?_⟩
  rw [← divides.multiply_eq_iff _ _ _ _ factors (Scratch.fits_ofWidth _)]
  decide +kernel

end Context

end ModularLadder.Montgomery
