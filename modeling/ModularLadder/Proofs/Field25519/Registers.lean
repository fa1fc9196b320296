import Mathlib
import ModularLadder.Proofs.Field25519.Element

/-!
# Registers of elements

Programs on registers compute with elements under a discipline: the operands
of a sum are reduced, and those of every other operation are loose.  A sum may
leave a loose element in its register, which is then no operand for another
sum before something else has been done with it.

A program that starts from reduced elements has to watch over its sums only.
All registers stay loose, so that the other operations find what they ask for.
Then no limb overflows or falls below zero, what is handed to the carries
stays below `2^63`, and every result is the one that the ring modulo `p` says.
-/

namespace ModularLadder.Field25519

/-! ## Operations and their discipline -/

/-- An operation on the elements that registers hold. -/
inductive Operation (Register : Type) where
  | reduce (operand : Register)
  | add (left right : Register)
  | sub (left right : Register)
  | neg (operand : Register)
  | mul (left right : Register)
  | square (operand : Register)
  | squareTimes (operand : Register) (count : Nat)
  | mulSmall (operand : Register) (factor : UInt32)

/-- An operation, and the register that its result is written to. -/
structure Step (Register : Type) where
  destination : Register
  operation : Operation Register

/-- The squares that are carried around while an element is squared. -/
def Element.squaringAccumulators :
    (count : Nat) → (x : Element) → List Accumulators
  | 0, _ => []
  | count + 1, x =>
    x.widen.product x.widen :: squaringAccumulators count x.square

namespace Operation

variable {Register : Type}

/-- The result of an operation. -/
def result (registers : Register → Element) : Operation Register → Element
  | .reduce operand => (registers operand).reduce
  | .add left right => (registers left).add (registers right)
  | .sub left right => (registers left).sub (registers right)
  | .neg operand => (registers operand).neg
  | .mul left right => (registers left).mul (registers right)
  | .square operand => (registers operand).square
  | .squareTimes operand count => (registers operand).squareTimes count
  | .mulSmall operand factor => (registers operand).mulSmall factor

/-- The checked form of `result`. -/
def result?
    (registers : Register → Element) :
    Operation Register → Option Element
  | .reduce operand => (registers operand).reduce?
  | .add left right => (registers left).add? (registers right)
  | .sub left right => (registers left).sub? (registers right)
  | .neg operand => Element.zero.sub? (registers operand)
  | .mul left right => (registers left).mul? (registers right)
  | .square operand => (registers operand).square?
  | .squareTimes operand count => (registers operand).squareTimes? count
  | .mulSmall operand factor => (registers operand).mulSmall? factor

/-- The 64-bit limbs that an operation hands to the carries. -/
def accumulators
    (registers : Register → Element) :
    Operation Register → List Accumulators
  | .reduce operand => [(registers operand).widen]
  | .add _ _ => []
  | .sub left right =>
    [(registers left).widen.raisedDifference (registers right).widen]
  | .neg operand =>
    [Element.zero.widen.raisedDifference (registers operand).widen]
  | .mul left right =>
    [(registers left).widen.product (registers right).widen]
  | .square operand => (registers operand).squaringAccumulators 1
  | .squareTimes operand count =>
    (registers operand).squaringAccumulators count
  | .mulSmall operand factor =>
    [(registers operand).widen.map (· * factor.toUInt64)]

/-- What an operation means for the residues of the registers. -/
def meaning (residues : Register → Residue) : Operation Register → Residue
  | .reduce operand => residues operand
  | .add left right => residues left + residues right
  | .sub left right => residues left - residues right
  | .neg operand => -residues operand
  | .mul left right => residues left * residues right
  | .square operand => residues operand ^ 2
  | .squareTimes operand count => residues operand ^ 2 ^ count
  | .mulSmall operand factor => residues operand * factor.toNat

/--
The documented discipline.  Limbs may be reduced whatever they are, and an
element is squared at least once.
-/
def Respects (registers : Register → Element) : Operation Register → Prop
  | .reduce _ => True
  | .add left right => (registers left).Reduced ∧ (registers right).Reduced
  | .sub left right => (registers left).Loose ∧ (registers right).Loose
  | .neg operand => (registers operand).Loose
  | .mul left right => (registers left).Loose ∧ (registers right).Loose
  | .square operand => (registers operand).Loose
  | .squareTimes operand count => 0 < count ∧ (registers operand).Loose
  | .mulSmall operand _ => (registers operand).Loose

/-- The part of the discipline that a program has to watch over. -/
def Admissible (registers : Register → Element) : Operation Register → Prop
  | .add left right => (registers left).Reduced ∧ (registers right).Reduced
  | .squareTimes _ count => 0 < count
  | _ => True

/-- The bound on the result: a sum is loose, all else is reduced. -/
def Bounded (result : Element) : Operation Register → Prop
  | .add _ _ => result.Loose
  | _ => result.Reduced

/-- An operation that keeps the discipline and all that follows from it. -/
structure Exact
    (registers : Register → Element)
    (operation : Operation Register) :
    Prop where
  respects : operation.Respects registers
  checked_eq : operation.result? registers = some (operation.result registers)
  below :
    ∀ z ∈ operation.accumulators registers,
      (z.map UInt64.toNat).Below (2 ^ 63) (2 ^ 63)
  bounded : operation.Bounded (operation.result registers)
  residue_eq :
    (operation.result registers).residue =
      operation.meaning fun register => (registers register).residue

end Operation

/-! ## Bounds on what is carried -/

namespace LimbsAgree

variable
  {checked : TenLimbs (Checked 64)}
  {words : Accumulators}
  {numbers : TenLimbs Nat}

/-- A bound on the numbers is one on the words. -/
theorem words_below
    {even odd : Nat}
    (agree : LimbsAgree checked words numbers)
    (below : numbers.Below even odd) :
    (words.map UInt64.toNat).Below even odd := by
  rw [agree.numbers_eq] at below
  exact below

end LimbsAgree

namespace Element

variable {x y : Element}

theorem widen_below
    (x : Element) :
    (x.widen.map UInt64.toNat).Below (2 ^ 63) (2 ^ 63) :=
  (widen_agree x).words_below x.limbs_below

theorem raisedDifference_below
    (xLoose : x.Loose)
    (yLoose : y.Loose) :
    ((x.widen.raisedDifference y.widen).map UInt64.toNat).Below (2 ^ 63)
      (2 ^ 63) := by
  have agree :=
    (widen_agree x).raisedDifference (widen_agree y) xLoose.below yLoose.below
  exact agree.words_below (TenLimbs.raisedDifference_below xLoose.below)

theorem product_below
    (xLoose : x.Loose)
    (yLoose : y.Loose) :
    ((x.widen.product y.widen).map UInt64.toNat).Below (2 ^ 63) (2 ^ 63) := by
  rcases
      product_agree (widen_agree x) (widen_agree y) xLoose.below
        yLoose.below with
    ⟨agree, below⟩
  exact agree.words_below below

theorem scaled_below
    (loose : x.Loose)
    (factor : UInt32) :
    ((x.widen.map (· * factor.toUInt64)).map UInt64.toNat).Below (2 ^ 63)
      (2 ^ 63) := by
  rcases
      scaled_agree (widen_agree x) (factor_agrees factor) loose.below
        factor.toNat_lt with
    ⟨agree, below⟩
  exact agree.words_below below

theorem squaringAccumulators_below
    (loose : x.Loose)
    (count : Nat) :
    ∀ z ∈ x.squaringAccumulators count,
      (z.map UInt64.toNat).Below (2 ^ 63) (2 ^ 63) := by
  induction count generalizing x with
  | zero =>
    intro z member
    exact absurd member List.not_mem_nil
  | succ count ih =>
    rw [squaringAccumulators, List.forall_mem_cons]
    exact ⟨product_below loose loose, ih (square_computes loose).loose⟩

end Element

/-! ## Exact operations -/

section

variable
  {Register : Type}
  {registers : Register → Element}

namespace Operation

/-- An operation that computes a reduced result. -/
theorem exact_of_computes
    {operation : Operation Register}
    (respects : operation.Respects registers)
    (below :
      ∀ z ∈ operation.accumulators registers,
        (z.map UInt64.toNat).Below (2 ^ 63) (2 ^ 63))
    (bounded :
      (operation.result registers).Reduced →
        operation.Bounded (operation.result registers))
    (computes :
      Computes (operation.result? registers) (operation.result registers)
        (operation.meaning fun register => (registers register).residue)) :
    operation.Exact registers where
  respects := respects
  checked_eq := computes.checked_eq
  below := below
  bounded := bounded computes.reduced
  residue_eq := computes.residue_eq

/-- Loose registers are all that an operation other than a sum asks for. -/
theorem exact_of_loose
    (loose : ∀ register, (registers register).Loose)
    (operation : Operation Register)
    (admissible : operation.Admissible registers) :
    operation.Exact registers := by
  cases operation with
  | reduce operand =>
    exact
      exact_of_computes trivial
        (List.forall_mem_singleton.2 (Element.widen_below _)) id
        (Element.reduce_computes _)
  | add left right =>
    rcases Element.add_checked admissible.1 admissible.2 with
      ⟨checked_eq, bounded, residue_eq⟩
    exact
      { respects := admissible
        checked_eq := checked_eq
        below := List.forall_mem_nil _
        bounded := bounded
        residue_eq := residue_eq }
  | sub left right =>
    exact
      exact_of_computes ⟨loose left, loose right⟩
        (List.forall_mem_singleton.2
          (Element.raisedDifference_below (loose left) (loose right)))
        id (Element.sub_computes (loose left) (loose right))
  | neg operand =>
    exact
      exact_of_computes (loose operand)
        (List.forall_mem_singleton.2
          (Element.raisedDifference_below Element.reduced_zero.loose
            (loose operand)))
        id (Element.neg_computes (loose operand))
  | mul left right =>
    exact
      exact_of_computes ⟨loose left, loose right⟩
        (List.forall_mem_singleton.2
          (Element.product_below (loose left) (loose right)))
        id (Element.mul_computes (loose left) (loose right))
  | square operand =>
    exact
      exact_of_computes (loose operand)
        (Element.squaringAccumulators_below (loose operand) 1) id
        (Element.square_computes (loose operand))
  | squareTimes operand count =>
    cases count with
    | zero => exact absurd admissible (lt_irrefl 0)
    | succ count =>
      exact
        exact_of_computes ⟨admissible, loose operand⟩
          (Element.squaringAccumulators_below (loose operand) (count + 1)) id
          (Element.squareTimes_succ_computes (loose operand) count)
  | mulSmall operand factor =>
    exact
      exact_of_computes (loose operand)
        (List.forall_mem_singleton.2
          (Element.scaled_below (loose operand) factor))
        id (Element.mulSmall_computes (loose operand) factor)

theorem Exact.loose
    {operation : Operation Register}
    (computed : operation.Exact registers) :
    (operation.result registers).Loose := by
  have bounded := computed.bounded
  cases operation with
  | add left right => exact bounded
  | _ => exact Element.Reduced.loose bounded

end Operation

end

/-! ## Programs -/

namespace Step

variable
  {Register : Type}
  [DecidableEq Register]

/-- The registers after one step. -/
def next
    (registers : Register → Element)
    (step : Step Register) :
    Register → Element :=
  Function.update registers step.destination (step.operation.result registers)

/-- The checked form of `next`. -/
def next?
    (registers : Register → Element)
    (step : Step Register) :
    Option (Register → Element) := do
  let result ← step.operation.result? registers
  some (Function.update registers step.destination result)

/-- What one step does to residues. -/
def meaning
    (residues : Register → Residue)
    (step : Step Register) :
    Register → Residue :=
  Function.update residues step.destination (step.operation.meaning residues)

/-- A property of each operation of a program and the registers it finds. -/
def Throughout
    (property : (Register → Element) → Operation Register → Prop) :
    (registers : Register → Element) → (steps : List (Step Register)) → Prop
  | _, [] => True
  | registers, step :: steps =>
    property registers step.operation ∧
      Throughout property (step.next registers) steps

/-- The registers after a program. -/
def run
    (registers : Register → Element)
    (steps : List (Step Register)) :
    Register → Element :=
  steps.foldl next registers

/-- The checked form of `run`. -/
def run?
    (registers : Register → Element)
    (steps : List (Step Register)) :
    Option (Register → Element) :=
  steps.foldlM next? registers

/-- What a program does to residues. -/
def meanings
    (residues : Register → Residue)
    (steps : List (Step Register)) :
    Register → Residue :=
  steps.foldl meaning residues

section

variable
  {registers : Register → Element}
  {step : Step Register}

theorem next_checked
    (computed : step.operation.Exact registers) :
    step.next? registers = some (step.next registers) := by
  rw [next?, bind_result computed.checked_eq]
  rfl

theorem next_loose
    (loose : ∀ register, (registers register).Loose)
    (computed : step.operation.Exact registers) :
    ∀ register, (step.next registers register).Loose := by
  intro register
  rw [next, Function.update_apply]
  split
  · exact computed.loose
  · exact loose register

theorem residue_next
    (computed : step.operation.Exact registers) :
    (fun register => (step.next registers register).residue) =
      step.meaning fun register => (registers register).residue := by
  funext register
  rw [next, meaning, Function.update_apply, Function.update_apply]
  split
  · exact computed.residue_eq
  · rfl

end

/-- Programs run from loose registers, since these stay loose. -/
theorem run_of_loose
    (registers : Register → Element)
    (loose : ∀ register, (registers register).Loose)
    (steps : List (Step Register))
    (admissible : Throughout Operation.Admissible registers steps) :
    Throughout Operation.Exact registers steps ∧
      run? registers steps = some (run registers steps) ∧
      (∀ register, (run registers steps register).Loose) ∧
      (fun register => (run registers steps register).residue) =
        meanings (fun register => (registers register).residue) steps := by
  induction steps generalizing registers with
  | nil => exact ⟨trivial, rfl, loose, rfl⟩
  | cons step steps ih =>
    rcases admissible with ⟨first, rest⟩
    have computed := Operation.exact_of_loose loose step.operation first
    rcases ih (step.next registers) (next_loose loose computed) rest with
      ⟨throughout, checked_eq, looseAfter, residues⟩
    refine ⟨⟨computed, throughout⟩, ?_, looseAfter, ?_⟩
    · rw [run?, List.foldlM_cons, bind_result (next_checked computed)]
      exact checked_eq
    · rw [residue_next computed] at residues
      exact residues

/--
A program that starts from reduced elements, gives reduced operands to its
sums and squares at least once where it squares repeatedly.  Each of its
operations keeps the discipline, does not overflow, stays below `2^63` with
what it carries around, and has a result within the documented bound and with
the residue that is meant; and so has the program as a whole.
-/
theorem run_exact
    (start : Register → Element)
    (reduced : ∀ register, (start register).Reduced)
    (steps : List (Step Register))
    (admissible : Throughout Operation.Admissible start steps) :
    Throughout Operation.Exact start steps ∧
      run? start steps = some (run start steps) ∧
      (∀ register, (run start steps register).Loose) ∧
      ∀ register,
        (run start steps register).residue =
          meanings (fun register => (start register).residue) steps
            register := by
  have loose : ∀ register, (start register).Loose := by
    intro register
    exact (reduced register).loose
  rcases run_of_loose start loose steps admissible with
    ⟨throughout, checked_eq, looseAfter, residues⟩
  exact ⟨throughout, checked_eq, looseAfter, congrFun residues⟩

/-- The greatest limbs of a reduced element. -/
def greatest : Element :=
  { l0 := 0x3ffffff
    l1 := 0x2000000
    l2 := 0x3ffffff
    l3 := 0x2000000
    l4 := 0x3ffffff
    l5 := 0x2000000
    l6 := 0x3ffffff
    l7 := 0x2000000
    l8 := 0x3ffffff
    l9 := 0x2000000 }

/--
The greatest reduced limbs are doubled, and the sum is used by every other
operation before it is squared and added again.
-/
theorem run_exact_greatest :
    let start : Nat → Element := fun _ => greatest
    let steps : List (Step Nat) :=
      [⟨0, .add 0 1⟩, ⟨1, .sub 0 0⟩, ⟨2, .neg 0⟩, ⟨3, .mul 0 2⟩,
        ⟨4, .mulSmall 0 0xffffffff⟩, ⟨5, .squareTimes 0 3⟩, ⟨0, .square 0⟩,
        ⟨6, .reduce 5⟩, ⟨0, .add 0 6⟩]
    (∀ register, (start register).Reduced) ∧
      Throughout Operation.Admissible start steps ∧
      run? start steps = some (run start steps) ∧
      (run start steps 0).residue =
        (2 * greatest.residue) ^ 2 + (2 * greatest.residue) ^ 8 := by
  intro start steps
  have reduced : ∀ register, (start register).Reduced := by
    intro register
    exact (by decide : greatest.Reduced)
  have admissible : Throughout Operation.Admissible start steps := by
    have sumLoose : (greatest.add greatest).Loose :=
      (Element.add_checked (reduced 0) (reduced 1)).2.1
    exact
      ⟨⟨reduced 0, reduced 1⟩, trivial, trivial, trivial, trivial,
        (by decide : 0 < 3), trivial, trivial,
        ⟨(Element.square_computes sumLoose).reduced,
          (Element.reduce_computes _).reduced⟩,
        trivial⟩
  rcases run_exact start reduced steps admissible with
    ⟨-, checked_eq, -, residues⟩
  refine ⟨reduced, admissible, checked_eq, ?_⟩
  rw [residues 0, two_mul]
  rfl

end Step

end ModularLadder.Field25519
