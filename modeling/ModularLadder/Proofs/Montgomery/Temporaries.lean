import Mathlib
import ModularLadder.Proofs.Montgomery.Registers

/-!
# What temporaries have held does not show

Temporaries are handed on from one operation to the next.  An operation may
rely on the length of the accumulator, which all operations keep, but never on
its content: a product clears its part of the accumulator and the word above
it, a small number clears all of it, and sums and differences do not read it.
Nothing is assumed of the operands, not even that they are below the modulus.
-/

namespace ModularLadder.Montgomery

/--
From all states with a property the computation has the same answer, and it
leaves states with another property behind.
-/
structure Determined
    {σ α : Type}
    (before after : σ → Prop)
    (computation : StateM σ α) :
    Prop where
  same (first second : σ) :
    before first →
      before second →
        (StateT.run computation first).1 = (StateT.run computation second).1
  leaves (state : σ) :
    before state → after (StateT.run computation state).2

namespace Determined

variable
  {σ α β : Type}
  {before middle after : σ → Prop}

theorem pure
    (answer : α) :
    Determined before before (Pure.pure answer) where
  same _ _ _ _ := rfl
  leaves _ holds := holds

theorem bind
    {computation : StateM σ α}
    {next : α → StateM σ β}
    (first : Determined before middle computation)
    (rest : ∀ answer, Determined middle after (next answer)) :
    Determined before after (computation >>= next) := by
  constructor
  case same =>
    intro left right leftHolds rightHolds
    have answer := first.same left right leftHolds rightHolds
    have continued :=
      (rest (StateT.run computation left).1).same _ _
        (first.leaves left leftHolds) (first.leaves right rightHolds)
    exact continued.trans
      (congrArg
        (fun value =>
          (StateT.run (next value) (StateT.run computation right).2).1)
        answer)
  case leaves =>
    intro state holds
    exact (rest _).leaves _ (first.leaves state holds)

theorem modify_bind
    {change : σ → σ}
    {next : PUnit → StateM σ β}
    (changed : ∀ state, before state → middle (change state))
    (rest : Determined middle after (next ⟨⟩)) :
    Determined before after (modify change >>= next) where
  same first second firstHolds secondHolds :=
    rest.same _ _ (changed first firstHolds) (changed second secondHolds)
  leaves state holds := rest.leaves _ (changed state holds)

theorem foldlM
    {step : β → α → StateM σ β}
    (determined :
      ∀ value element, Determined before before (step value element))
    (elements : List α)
    (start : β) :
    Determined before before (elements.foldlM step start) := by
  induction elements generalizing start with
  | nil => exact pure start
  | cons element elements ih =>
    rw [List.foldlM_cons]
    exact (determined start element).bind ih

end Determined

/-- The accumulator has the length that numbers of a width need. -/
def Scratch.Roomy (scratch : Scratch) (width : Nat) : Prop :=
  scratch.accumulator.length = 2 * width + 1

theorem Scratch.Fits.roomy
    {scratch : Scratch}
    {width : Nat}
    (fits : scratch.Fits width) :
    scratch.Roomy width :=
  fits.accumulator

/-- The computation does not show what roomy temporaries have held. -/
abbrev ScratchM.Oblivious
    {α : Type}
    (width : Nat)
    (computation : ScratchM α) :
    Prop :=
  Determined (Scratch.Roomy · width) (Scratch.Roomy · width) computation

/-- Nothing but the length remains of storage that is cleared. -/
theorem clear_eq_zeros
    (storage : Words) :
    Words.clear storage = Words.zeros storage.length :=
  List.map_const' ..

namespace Reducer

variable (reducer : Reducer)

/-- Reduction reads nothing but the accumulator. -/
theorem reduce_determined
    (accumulator : Words)
    (length : accumulator.length = 2 * reducer.width + 1) :
    Determined (fun scratch => scratch.accumulator = accumulator)
      (Scratch.Roomy · reducer.width) reducer.reduce := by
  constructor
  case same =>
    rintro ⟨_, _⟩ ⟨_, _⟩ rfl rfl
    rfl
  case leaves =>
    rintro ⟨_, _⟩ rfl
    exact (reducer.length_clearLow _ _).trans length

/--
Whatever is put into the accumulator, and reduced, has to depend on the length
of the former content only.
-/
theorem modify_reduce_oblivious
    {change : Scratch → Scratch}
    (accumulator : Words)
    (length : accumulator.length = 2 * reducer.width + 1)
    (changed :
      ∀ scratch : Scratch,
        scratch.Roomy reducer.width →
          (change scratch).accumulator = accumulator) :
    ScratchM.Oblivious reducer.width
      (modify change >>= fun _ => reducer.reduce) :=
  Determined.modify_bind changed (reducer.reduce_determined accumulator length)

theorem multiply_oblivious
    (left right : Words) :
    ScratchM.Oblivious reducer.width (reducer.multiply left right) := by
  let storage := Words.zeros (2 * reducer.width)
  let total := (Words.productRows method left right storage).words
  have length : total.length = 2 * reducer.width := by
    simp [total, storage]
  refine reducer.modify_reduce_oblivious (total ++ [0]) ?_ ?_
  · rw [List.length_append, length, List.length_singleton]
  · intro scratch roomy
    show Words.product _ _ _ _ ++ [0] = total ++ [0]
    rw [Words.product, clear_eq_zeros, List.length_take,
      Nat.min_eq_left (by rw [roomy]; omega)]

theorem square_oblivious
    (number : Words) :
    ScratchM.Oblivious reducer.width (reducer.square number) := by
  let total := Words.square method (Words.zeros (2 * reducer.width)) number
  have length : total.length = 2 * reducer.width := by
    simp [total]
  refine reducer.modify_reduce_oblivious (total ++ [0]) ?_ ?_
  · rw [List.length_append, length, List.length_singleton]
  · intro scratch roomy
    show Words.square _ _ _ ++ [0] = total ++ [0]
    rw [Words.square, Words.squareStages, clear_eq_zeros, List.length_take,
      Nat.min_eq_left (by rw [roomy]; omega)]
    simp only [total, Words.square, Words.squareStages, clear_eq_zeros,
      Words.length_zeros]

end Reducer

namespace Context

variable (context : Context)

/-- A small number, on an accumulator that is cleared altogether. -/
theorem encodeWord_oblivious
    (word : Word) :
    ScratchM.Oblivious context.width (context.encodeWord word) := by
  unfold encodeWord
  split
  · exact Determined.pure _
  split
  · exact Determined.pure _
  let cleared := Words.zeros (2 * context.width + 1)
  let product :=
    Words.addMul method (cleared.take (context.width + 1)) context.radixSquared
      word
  refine context.modify_reduce_oblivious
    (product.result ++ cleared.drop (context.width + 1)) ?_ ?_
  · simp [product, cleared]
    omega
  · intro scratch roomy
    simp only [clear_eq_zeros]
    rw [roomy]

/-- The corrections of sums and differences read no temporaries at all. -/
theorem correctSum_oblivious
    (sum : Carried Words) :
    ScratchM.Oblivious context.width (context.correctSum sum) where
  same _ _ _ _ := rfl
  leaves _ roomy := roomy

theorem correctDifference_oblivious
    (difference : Carried Words) :
    ScratchM.Oblivious context.width
      (context.correctDifference difference) where
  same _ _ _ _ := rfl
  leaves _ roomy := roomy

theorem powerStep_oblivious
    (base power : Words)
    (bit : Bool) :
    ScratchM.Oblivious context.width (context.powerStep base power bit) := by
  refine (context.square_oblivious power).bind fun squared => ?_
  cases bit with
  | false => exact Determined.pure squared
  | true => exact context.multiply_oblivious squared base

/-- A power goes from one product to the next on the same temporaries. -/
theorem inverse_oblivious
    (number : Words) :
    ScratchM.Oblivious context.width (context.inverse number) :=
  Determined.foldlM (context.powerStep_oblivious number) _ _

end Context

end ModularLadder.Montgomery
