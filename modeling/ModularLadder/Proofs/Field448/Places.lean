import Mathlib
import ModularLadder.Field448
import ModularLadder.Proofs.Montgomery.Registers

/-!
# Computations on temporaries, in places

A computation on temporaries names what its operations answer with, and each
name stays valid to the end.  A program has places instead, which it overwrites
as soon as it can.  It performs the computation if in the end its places hold
the answer and the temporaries that the computation leaves behind.

That a program performs a computation is shown from one operation to the next.
An operation of the field may answer with any number and leave any scratch area
behind: all that matters is that both read the same numbers.
-/

namespace ModularLadder.Field448

open Montgomery (Context Machine Scratch ScratchM Step)

variable
  {Place Workplace α β : Type}
  [DecidableEq Place]

/--
From the machine and the temporaries on, the program ends with what the
computation answers with and leaves behind, laid out in its places.
-/
def Performs
    (field : Context)
    (layout : α → Workplace → Machine Place)
    (machine : Machine Place)
    (program : List (Step Place))
    (workplace : Workplace)
    (computation : StateM Workplace α) :
    Prop :=
  let outcome := StateT.run computation workplace
  machine.run field program = layout outcome.1 outcome.2

namespace Performs

variable
  {field : Context}
  {layout : β → Workplace → Machine Place}
  {machine : Machine Place}
  {step : Step Place}
  {program : List (Step Place)}
  {workplace : Workplace}

/-- Steps that together are one operation of the field. -/
theorem operations
    [HoldsScratch Workplace]
    {first : List (Step Place)}
    {operation : ScratchM Words}
    {destination : Place}
    {next : Words → StateM Workplace β}
    (computes :
      machine.run field first = machine.compute destination operation)
    (same : machine.scratch = HoldsScratch.scratch workplace)
    (rest :
      ∀ (number : Words) (scratch : Scratch),
        Performs field layout
          { registers := Function.update machine.registers destination number
            scratch := scratch }
          program (HoldsScratch.putScratch scratch workplace) (next number)) :
    Performs field layout machine (first ++ program) workplace
      (onScratch operation >>= next) := by
  have follows :=
    rest (StateT.run operation machine.scratch).1
      (StateT.run operation machine.scratch).2
  rw [Performs, Machine.run_append, computes]
  rw [same] at follows
  rw [Machine.compute, same]
  exact follows

/-- One operation of the field, whatever it answers with. -/
theorem operation
    [HoldsScratch Workplace]
    {operation : ScratchM Words}
    {destination : Place}
    {next : Words → StateM Workplace β}
    (computes :
      machine.step field step = machine.compute destination operation)
    (same : machine.scratch = HoldsScratch.scratch workplace)
    (rest :
      ∀ (number : Words) (scratch : Scratch),
        Performs field layout
          { registers := Function.update machine.registers destination number
            scratch := scratch }
          program (HoldsScratch.putScratch scratch workplace) (next number)) :
    Performs field layout machine (step :: program) workplace
      (onScratch operation >>= next) := by
  have single :
      machine.run field [step] = machine.compute destination operation :=
    computes
  exact operations single same rest

/-- A step that only moves numbers, which the computation does not notice. -/
theorem move
    {computation : StateM Workplace β}
    (rest :
      Performs field layout (machine.step field step) program workplace
        computation) :
    Performs field layout machine (step :: program) workplace computation :=
  rest

theorem get_bind
    {next : Workplace → StateM Workplace β}
    (rest :
      Performs field layout machine program workplace (next workplace)) :
    Performs field layout machine program workplace (get >>= next) :=
  rest

theorem modify_bind
    {change : Workplace → Workplace}
    {next : PUnit → StateM Workplace β}
    (rest :
      Performs field layout machine program (change workplace) (next ⟨⟩)) :
    Performs field layout machine program workplace (modify change >>= next) :=
  rest

theorem set_bind
    {left : Workplace}
    {next : PUnit → StateM Workplace β}
    (rest : Performs field layout machine program left (next ⟨⟩)) :
    Performs field layout machine program workplace (set left >>= next) :=
  rest

/-- In the end the places are compared one by one. -/
theorem done
    {answer : β}
    (registers :
      ∀ place,
        machine.registers place = (layout answer workplace).registers place)
    (scratch : machine.scratch = (layout answer workplace).scratch) :
    Performs field layout machine [] workplace (pure answer) :=
  Machine.ext_registers registers scratch

/-- Programs that follow each other perform what follows each other. -/
theorem append
    {middle : α → Workplace → Machine Place}
    {first second : List (Step Place)}
    {computation : StateM Workplace α}
    {next : α → StateM Workplace β}
    (performs : Performs field middle machine first workplace computation)
    (rest :
      ∀ answer left,
        Performs field layout (middle answer left) second left
          (next answer)) :
    Performs field layout machine (first ++ second) workplace
      (computation >>= next) := by
  rw [Performs, Machine.run_append, performs]
  exact rest _ _

end Performs

end ModularLadder.Field448
