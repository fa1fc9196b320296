import Mathlib
import ModularLadder.Proofs.Montgomery.Temporaries

/-!
# What registers have held does not show

A program uses some registers as temporaries.  Registers are settled when two
machines, however different they have been in the others, hold the same words
in them.  An operation whose registers are all settled settles the ones that it
writes; any other operation unsettles them.  Running through a program with
this rule tells what is settled in the end, and the answer can be computed.

Registers that a program has to read before it writes them are never settled by
it.  That all results are settled by a program if its operands are therefore
says that every temporary is written before it is read.
-/

namespace ModularLadder.Montgomery

/-! ## Registers settled by a program -/

section

variable
  {Register : Type}

namespace Step

/--
The registers that an operation may read.  One that refuses its argument
leaves its destination as it was.
-/
def uses : Step Register → List Register
  | .newNumber _ => []
  | .fromBytes destination _ => [destination]
  | .fromWord _ _ => []
  | .setWord _ _ => []
  | .load _ _ => []
  | .multiply _ left right => [left, right]
  | .multiplyInPlace destination operand => [destination, operand]
  | .squareInPlace destination => [destination]
  | .add _ left right => [left, right]
  | .addInPlace destination operand => [destination, operand]
  | .sub _ left right => [left, right]
  | .subInPlace destination operand => [destination, operand]
  | .neg _ operand => [operand]
  | .copy _ operand => [operand]
  | .select _ unset set _ => [unset, set]
  | .swap left right _ => [left, right]

/-- The registers that an operation may write. -/
def writes : Step Register → List Register
  | .newNumber destination => [destination]
  | .fromBytes destination _ => [destination]
  | .fromWord destination _ => [destination]
  | .setWord destination _ => [destination]
  | .load destination _ => [destination]
  | .multiply destination _ _ => [destination]
  | .multiplyInPlace destination _ => [destination]
  | .squareInPlace destination => [destination]
  | .add destination _ _ => [destination]
  | .addInPlace destination _ => [destination]
  | .sub destination _ _ => [destination]
  | .subInPlace destination _ => [destination]
  | .neg destination _ => [destination]
  | .copy destination _ => [destination]
  | .select destination _ _ _ => [destination]
  | .swap left right _ => [right, left]

variable [DecidableEq Register]

/-- The registers that are settled after an operation. -/
def settle
    (settled : List Register)
    (step : Step Register) :
    List Register :=
  if step.uses ⊆ settled then
    step.writes ++ settled
  else
    settled.filter (· ∉ step.writes)

/-- The registers that are settled after a sequence of operations. -/
def settleAll
    (settled : List Register)
    (steps : List (Step Register)) :
    List Register :=
  steps.foldl settle settled

end Step

/-! ## Machines that agree -/

namespace Machine

/--
Two machines hold the same words in the settled registers, and both have roomy
temporaries.
-/
structure Agree
    (width : Nat)
    (settled : List Register)
    (first second : Machine Register) :
    Prop where
  registers :
    ∀ register ∈ settled,
      first.registers register = second.registers register
  firstRoomy : first.scratch.Roomy width
  secondRoomy : second.scratch.Roomy width

theorem Agree.refl
    {width : Nat}
    {machine : Machine Register}
    (settled : List Register)
    (roomy : machine.scratch.Roomy width) :
    Agree width settled machine machine where
  registers _ _ := rfl
  firstRoomy := roomy
  secondRoomy := roomy

theorem Agree.mono
    {width : Nat}
    {settled fewer : List Register}
    {first second : Machine Register}
    (agree : Agree width settled first second)
    (subset : fewer ⊆ settled) :
    Agree width fewer first second where
  registers register member := agree.registers register (subset member)
  firstRoomy := agree.firstRoomy
  secondRoomy := agree.secondRoomy

variable
  [DecidableEq Register]
  {width : Nat}
  {settled : List Register}
  {first second : Machine Register}

omit [DecidableEq Register] in
theorem Agree.operand
    (agree : Agree width settled first second)
    {operand : Register}
    (used : [operand] ⊆ settled) :
    first.registers operand = second.registers operand :=
  agree.registers operand (used (List.mem_singleton_self operand))

omit [DecidableEq Register] in
theorem Agree.operands
    (agree : Agree width settled first second)
    {left right : Register}
    (used : [left, right] ⊆ settled) :
    first.registers left = second.registers left ∧
      first.registers right = second.registers right := by
  rw [List.cons_subset] at used
  exact ⟨agree.registers left used.1, agree.operand used.2⟩

/-- A register is settled when the same number is written to it. -/
theorem Agree.write
    (agree : Agree width settled first second)
    (destination : Register)
    {firstNumber secondNumber : Words}
    (same : firstNumber = secondNumber) :
    Agree width (destination :: settled)
      (first.write destination firstNumber)
      (second.write destination secondNumber) where
  registers register member := by
    show Function.update _ _ _ _ = Function.update _ _ _ _
    by_cases written : register = destination
    · rw [written, Function.update_self, Function.update_self, same]
    · rw [Function.update_of_ne written, Function.update_of_ne written]
      exact agree.registers register
        ((List.mem_cons.1 member).resolve_left written)
  firstRoomy := agree.firstRoomy
  secondRoomy := agree.secondRoomy

/-- A register is settled when an oblivious computation's answer is. -/
theorem Agree.compute
    (agree : Agree width settled first second)
    (destination : Register)
    {firstComputation secondComputation : ScratchM Words}
    (same : firstComputation = secondComputation)
    (oblivious : ScratchM.Oblivious width firstComputation) :
    Agree width (destination :: settled)
      (first.compute destination firstComputation)
      (second.compute destination secondComputation) := by
  subst same
  have written :=
    agree.write destination
      (oblivious.same _ _ agree.firstRoomy agree.secondRoomy)
  exact {
    registers := written.registers
    firstRoomy := oblivious.leaves _ agree.firstRoomy
    secondRoomy := oblivious.leaves _ agree.secondRoomy }

/-- An operation on settled registers settles what it writes. -/
theorem Agree.step_settled
    {context : Context}
    (agree : Agree context.width settled first second)
    (step : Step Register)
    (used : step.uses ⊆ settled) :
    Agree context.width (step.writes ++ settled) (first.step context step)
      (second.step context step) := by
  cases step with
  | newNumber destination => exact agree.write destination rfl
  | fromBytes destination number =>
    rw [Machine.step, Machine.step]
    cases context.encode number with
    | ok form => exact agree.write destination rfl
    | error failure =>
      exact agree.mono
        (List.cons_subset.2 ⟨used (List.mem_singleton_self _), fun _ => id⟩)
  | fromWord destination word => exact agree.write destination rfl
  | setWord destination word =>
    exact agree.compute destination rfl (context.encodeWord_oblivious word)
  | load destination number => exact agree.write destination rfl
  | multiply destination left right =>
    rcases agree.operands used with ⟨leftSame, rightSame⟩
    refine agree.compute destination (by rw [leftSame, rightSame]) ?_
    split
    · exact context.square_oblivious _
    · exact context.multiply_oblivious _ _
  | multiplyInPlace destination operand =>
    rcases agree.operands used with ⟨leftSame, rightSame⟩
    exact agree.compute destination (by rw [leftSame, rightSame])
      (context.multiply_oblivious _ _)
  | squareInPlace destination =>
    exact agree.compute destination (by rw [agree.operand used])
      (context.square_oblivious _)
  | add destination left right =>
    rcases agree.operands used with ⟨leftSame, rightSame⟩
    exact agree.compute destination (by rw [leftSame, rightSame])
      (context.correctSum_oblivious _)
  | addInPlace destination operand =>
    rcases agree.operands used with ⟨leftSame, rightSame⟩
    exact agree.compute destination (by rw [leftSame, rightSame])
      (context.correctSum_oblivious _)
  | sub destination left right =>
    rcases agree.operands used with ⟨leftSame, rightSame⟩
    exact agree.compute destination (by rw [leftSame, rightSame])
      (context.correctDifference_oblivious _)
  | subInPlace destination operand =>
    rcases agree.operands used with ⟨leftSame, rightSame⟩
    exact agree.compute destination (by rw [leftSame, rightSame])
      (context.correctDifference_oblivious _)
  | neg destination operand =>
    exact agree.write destination (by rw [agree.operand used])
  | copy destination operand =>
    exact agree.write destination (agree.operand used)
  | select destination unset set condition =>
    rcases agree.operands used with ⟨unsetSame, setSame⟩
    exact agree.write destination (by rw [unsetSame, setSame])
  | swap left right condition =>
    rcases agree.operands used with ⟨leftSame, rightSame⟩
    exact (agree.write left (by rw [leftSame, rightSame])).write right
      (by rw [leftSame, rightSame])

/-- An operation leaves the registers alone that it does not write. -/
theorem step_registers
    (context : Context)
    (machine : Machine Register)
    (step : Step Register)
    {register : Register}
    (unwritten : register ∉ step.writes) :
    (machine.step context step).registers register =
      machine.registers register := by
  cases step with
  | fromBytes destination number =>
    rw [Machine.step]
    cases context.encode number with
    | ok form =>
      exact Function.update_of_ne (List.ne_of_not_mem_cons unwritten) _ _
    | error failure => rfl
  | swap left right condition =>
    rw [Step.writes, List.mem_pair, not_or] at unwritten
    exact (Function.update_of_ne unwritten.1 _ _).trans
      (Function.update_of_ne unwritten.2 _ _)
  | _ => exact Function.update_of_ne (List.ne_of_not_mem_cons unwritten) _ _

/-- A program leaves a register alone that none of its operations writes. -/
theorem run_registers
    (context : Context)
    (machine : Machine Register)
    (steps : List (Step Register))
    {register : Register}
    (unwritten : ∀ step ∈ steps, register ∉ step.writes) :
    (machine.run context steps).registers register =
      machine.registers register := by
  induction steps generalizing machine with
  | nil => rfl
  | cons step steps ih =>
    rw [List.forall_mem_cons] at unwritten
    exact (ih _ unwritten.2).trans
      (step_registers context machine step unwritten.1)

theorem step_roomy
    {context : Context}
    {machine : Machine Register}
    (step : Step Register)
    (roomy : machine.scratch.Roomy context.width) :
    (machine.step context step).scratch.Roomy context.width :=
  ((Agree.refl step.uses roomy).step_settled step fun _ => id).firstRoomy

/-- After an operation the machines agree in the registers still settled. -/
theorem Agree.step
    {context : Context}
    (agree : Agree context.width settled first second)
    (step : Step Register) :
    Agree context.width (step.settle settled) (first.step context step)
      (second.step context step) := by
  rw [Step.settle]
  split
  case isTrue used => exact agree.step_settled step used
  case isFalse =>
    constructor
    case registers =>
      intro register member
      rw [List.mem_filter, decide_eq_true_iff] at member
      rw [step_registers context first step member.2,
        step_registers context second step member.2]
      exact agree.registers register member.1
    case firstRoomy => exact step_roomy step agree.firstRoomy
    case secondRoomy => exact step_roomy step agree.secondRoomy

/-- After a program the machines agree in the registers that it settles. -/
theorem Agree.run
    {context : Context}
    (agree : Agree context.width settled first second)
    (steps : List (Step Register)) :
    Agree context.width (Step.settleAll settled steps)
      (first.run context steps) (second.run context steps) := by
  induction steps generalizing settled first second with
  | nil => exact agree
  | cons step steps ih => exact ih (agree.step step)

/-- Programs that follow each other settle one after the other. -/
theorem Agree.append
    {context : Context}
    {middle last : List Register}
    {steps more : List (Step Register)}
    (run :
      Agree context.width middle (first.run context steps)
        (second.run context steps))
    (rest :
      ∀ left right : Machine Register,
        Agree context.width middle left right →
          Agree context.width last (left.run context more)
            (right.run context more)) :
    Agree context.width last (first.run context (steps ++ more))
      (second.run context (steps ++ more)) := by
  rw [run_append, run_append]
  exact rest _ _ run

/--
Any program makes the same registers of the same ones, whatever the
temporaries of the machine have held.
-/
theorem run_same_registers
    (context : Context)
    (steps : List (Step Register))
    (first second : Machine Register)
    (same :
      ∀ register, first.registers register = second.registers register)
    (firstRoomy : first.scratch.Roomy context.width)
    (secondRoomy : second.scratch.Roomy context.width)
    (register : Register) :
    (first.run context steps).registers register =
      (second.run context steps).registers register := by
  induction steps generalizing first second with
  | nil => exact same register
  | cons step steps ih =>
    refine ih _ _ (fun register => ?_) (step_roomy step firstRoomy)
      (step_roomy step secondRoomy)
    have agree :
        Agree context.width (register :: step.uses) first second :=
      ⟨fun register _ => same register, firstRoomy, secondRoomy⟩
    have next := agree.step_settled step (List.subset_cons_self _ _)
    exact next.registers register
      (List.mem_append_right _ List.mem_cons_self)

end Machine

end

end ModularLadder.Montgomery
