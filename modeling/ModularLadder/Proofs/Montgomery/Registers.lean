import Mathlib
import ModularLadder.Proofs.Montgomery.Encoding

/-!
# Registers of Montgomery forms

A machine has registers for numbers and one set of temporaries that all of its
operations share.  Any finite sequence of operations on the registers refines
the same sequence on residues: the registers hold forms below the modulus
throughout, and what they represent is computed by the ring of residues.

The operands and the destination of an operation may be one register.  A
product whose factors are one register is computed by squaring.  An operation
that refuses its argument leaves the machine as it was.
-/

namespace ModularLadder.Montgomery

/-! ## Machines and their steps -/

/-- Registers for numbers, and the temporaries of their operations. -/
structure Machine (Register : Type) where
  registers : Register → Words
  scratch : Scratch

/-- One operation on registers. -/
inductive Step (Register : Type) where
  /-- A fresh number. -/
  | newNumber (destination : Register)
  /-- A number from big-endian bytes. -/
  | fromBytes (destination : Register) (number : Bytes)
  /-- A number from a single word, on temporaries of its own. -/
  | fromWord (destination : Register) (word : Word)
  /-- A number from a single word, on the temporaries of the machine. -/
  | setWord (destination : Register) (word : Word)
  /-- The words of a form as they are. -/
  | load (destination : Register) (number : Words)
  | multiply (destination left right : Register)
  | multiplyInPlace (destination operand : Register)
  | squareInPlace (destination : Register)
  | add (destination left right : Register)
  | addInPlace (destination operand : Register)
  | sub (destination left right : Register)
  | subInPlace (destination operand : Register)
  | neg (destination operand : Register)
  | copy (destination operand : Register)
  | select (destination unset set : Register) (condition : Bool)
  | swap (left right : Register) (condition : Bool)

/-- What is loaded has to be a number of the proper width below the modulus. -/
def Step.Admissible
    {Register : Type}
    (context : Context) :
    Step Register → Prop
  | .load _ number =>
    number.length = context.width ∧
      Words.value number < Words.value context.modulus
  | _ => True

section

variable
  {Register : Type}
  [DecidableEq Register]

namespace Machine

omit [DecidableEq Register] in
theorem ext_registers
    {left right : Machine Register}
    (registers :
      ∀ register, left.registers register = right.registers register)
    (scratch : left.scratch = right.scratch) :
    left = right := by
  cases left
  cases right
  exact Machine.mk.injEq .. |>.mpr ⟨funext registers, scratch⟩

/-- A machine whose registers hold fresh numbers. -/
def fresh (context : Context) : Machine Register :=
  { registers := fun _ => context.zero
    scratch := Scratch.ofWidth context.width }

/-- Writes a number to a register. -/
def write
    (machine : Machine Register)
    (destination : Register)
    (number : Words) :
    Machine Register :=
  { machine with
    registers := Function.update machine.registers destination number }

/-- Writes the result of a computation on the temporaries to a register. -/
def compute
    (machine : Machine Register)
    (destination : Register)
    (computation : ScratchM Words) :
    Machine Register :=
  let outcome := StateT.run computation machine.scratch
  { registers := Function.update machine.registers destination outcome.1
    scratch := outcome.2 }

/-- The machine after one operation. -/
def step
    (context : Context)
    (machine : Machine Register) :
    Step Register → Machine Register
  | .newNumber destination => machine.write destination context.zero
  | .fromBytes destination number =>
    match context.encode number with
    | .ok form => machine.write destination form
    | .error _ => machine
  | .fromWord destination word =>
    machine.write destination (context.ofWord word)
  | .setWord destination word =>
    machine.compute destination (context.encodeWord word)
  | .load destination number => machine.write destination number
  | .multiply destination left right =>
    machine.compute destination
      (if left = right then
        context.square (machine.registers left)
      else
        context.multiply (machine.registers left) (machine.registers right))
  | .multiplyInPlace destination operand =>
    machine.compute destination
      (context.multiply (machine.registers destination)
        (machine.registers operand))
  | .squareInPlace destination =>
    machine.compute destination
      (context.square (machine.registers destination))
  | .add destination left right =>
    machine.compute destination
      (context.add (machine.registers left) (machine.registers right))
  | .addInPlace destination operand =>
    machine.compute destination
      (context.addInPlace (machine.registers destination)
        (machine.registers operand))
  | .sub destination left right =>
    machine.compute destination
      (context.sub (machine.registers left) (machine.registers right))
  | .subInPlace destination operand =>
    machine.compute destination
      (context.subInPlace (machine.registers destination)
        (machine.registers operand))
  | .neg destination operand =>
    machine.write destination (context.neg (machine.registers operand))
  | .copy destination operand =>
    machine.write destination (machine.registers operand)
  | .select destination unset set condition =>
    machine.write destination
      (Words.select (machine.registers unset) (machine.registers set)
        (Choice.ofBool condition))
  | .swap left right condition =>
    let swapped :=
      Words.swapIf (machine.registers left) (machine.registers right)
        (Choice.ofBool condition)
    (machine.write left swapped.1).write right swapped.2

/-- The machine after a sequence of operations. -/
def run
    (context : Context)
    (machine : Machine Register)
    (steps : List (Step Register)) :
    Machine Register :=
  steps.foldl (step context) machine

theorem run_append
    (context : Context)
    (machine : Machine Register)
    (first second : List (Step Register)) :
    machine.run context (first ++ second) =
      (machine.run context first).run context second :=
  List.foldl_append

end Machine

/-! ## What a program means -/

namespace Step

/-- What one operation does to the residues that the registers represent. -/
def meaning
    (context : Context)
    (residues : Register → context.Residues) :
    Step Register → Register → context.Residues
  | .newNumber destination => Function.update residues destination 0
  | .fromBytes destination number =>
    if number ≠ [] ∧
        Bytes.bigEndianValue number < Words.value context.modulus then
      Function.update residues destination (Bytes.bigEndianValue number)
    else
      residues
  | .fromWord destination word =>
    Function.update residues destination word.toNat
  | .setWord destination word =>
    Function.update residues destination word.toNat
  | .load destination number =>
    Function.update residues destination (context.residue number)
  | .multiply destination left right =>
    Function.update residues destination (residues left * residues right)
  | .multiplyInPlace destination operand =>
    Function.update residues destination
      (residues destination * residues operand)
  | .squareInPlace destination =>
    Function.update residues destination
      (residues destination * residues destination)
  | .add destination left right =>
    Function.update residues destination (residues left + residues right)
  | .addInPlace destination operand =>
    Function.update residues destination
      (residues destination + residues operand)
  | .sub destination left right =>
    Function.update residues destination (residues left - residues right)
  | .subInPlace destination operand =>
    Function.update residues destination
      (residues destination - residues operand)
  | .neg destination operand =>
    Function.update residues destination (-residues operand)
  | .copy destination operand =>
    Function.update residues destination (residues operand)
  | .select destination unset set condition =>
    Function.update residues destination
      (if condition then residues set else residues unset)
  | .swap left right condition =>
    if condition then
      Function.update (Function.update residues left (residues right)) right
        (residues left)
    else
      residues

/-- What a sequence of operations does to the residues. -/
def meanings
    (context : Context)
    (residues : Register → context.Residues)
    (steps : List (Step Register)) :
    Register → context.Residues :=
  steps.foldl (meaning context) residues

end Step

/-! ## Refinement -/

namespace Machine

/--
Every register holds the form of a residue, and the temporaries have their
lengths.
-/
structure Simulates
    (context : Context)
    (machine : Machine Register)
    (residues : Register → context.Residues) :
    Prop where
  represents :
    ∀ register,
      context.Represents (machine.registers register) (residues register)
  fits : machine.scratch.Fits context.width

section

variable
  {context : Context}
  {machine : Machine Register}
  {residues : Register → context.Residues}

/-- A register that is written represents what is written to it. -/
theorem represents_update
    {registers : Register → Words}
    (represents :
      ∀ register,
        context.Represents (registers register) (residues register))
    (destination : Register)
    {number : Words}
    {residue : context.Residues}
    (form : context.Represents number residue) :
    ∀ register,
      context.Represents (Function.update registers destination number register)
        (Function.update residues destination residue register) := by
  intro register
  by_cases same : register = destination
  · subst same
    rw [Function.update_self, Function.update_self]
    exact form
  · rw [Function.update_of_ne same, Function.update_of_ne same]
    exact represents register

theorem Simulates.write
    (simulates : Simulates context machine residues)
    (destination : Register)
    {number : Words}
    {residue : context.Residues}
    (form : context.Represents number residue) :
    Simulates context (machine.write destination number)
      (Function.update residues destination residue) where
  represents := represents_update simulates.represents destination form
  fits := simulates.fits

theorem Simulates.compute
    (simulates : Simulates context machine residues)
    (destination : Register)
    {computation : ScratchM Words}
    {residue : context.Residues}
    (yields : context.Yields computation residue) :
    Simulates context (machine.compute destination computation)
      (Function.update residues destination residue) := by
  rcases yields machine.scratch simulates.fits with ⟨form, after⟩
  exact ⟨represents_update simulates.represents destination form, after⟩

omit [DecidableEq Register] in
theorem simulates_fresh
    (sound : context.Sound) :
    Simulates context (fresh context : Machine Register) fun _ => 0 where
  represents := fun _ => sound.represents_zero
  fits := Scratch.fits_ofWidth context.width

/-- Two registers exchange what they represent if the condition holds. -/
theorem Simulates.swap
    (simulates : Simulates context machine residues)
    (left right : Register)
    (condition : Bool) :
    Simulates context (machine.step context (.swap left right condition))
      (Step.meaning context residues (.swap left right condition)) := by
  have leftForm := simulates.represents left
  have rightForm := simulates.represents right
  have swapped :=
    Words.swapIf_ofBool (machine.registers left) (machine.registers right)
      condition (rightForm.width.trans leftForm.width.symm)
  rw [step, swapped]
  cases condition with
  | false =>
    have kept := (simulates.write left leftForm).write right rightForm
    rw [Function.update_eq_self, Function.update_eq_self] at kept
    exact kept
  | true => exact (simulates.write left rightForm).write right leftForm

/-- One operation preserves the simulation. -/
theorem Simulates.step
    (sound : context.Sound)
    (simulates : Simulates context machine residues)
    (step : Step Register)
    (admissible : step.Admissible context) :
    Simulates context (machine.step context step)
      (step.meaning context residues) := by
  have form := simulates.represents
  cases step with
  | newNumber destination =>
    exact simulates.write destination sound.represents_zero
  | fromBytes destination number =>
    rw [Machine.step, Context.encode_eq, Step.meaning]
    by_cases empty : number = []
    · rw [if_pos empty, if_neg fun both => both.1 empty]
      exact simulates
    · rw [if_neg empty]
      by_cases below :
          Bytes.bigEndianValue number < Words.value context.modulus
      · rw [if_pos below, if_pos ⟨empty, below⟩]
        exact simulates.write destination
          (sound.represents_encoded number below)
      · rw [if_neg below, if_neg fun both => below both.2]
        exact simulates
  | fromWord destination word =>
    exact simulates.write destination (sound.encodeWord_yields word).evaluate
  | setWord destination word =>
    exact simulates.compute destination (sound.encodeWord_yields word)
  | load destination number =>
    exact simulates.write destination ⟨admissible.1, admissible.2, rfl⟩
  | multiply destination left right =>
    apply simulates.compute destination
    by_cases same : left = right
    · subst same
      rw [if_pos rfl]
      exact sound.reducer.square_yields (form left)
    · rw [if_neg same]
      exact sound.reducer.multiply_yields (form left) (form right)
  | multiplyInPlace destination operand =>
    exact simulates.compute destination
      (sound.reducer.multiply_yields (form destination) (form operand))
  | squareInPlace destination =>
    exact simulates.compute destination
      (sound.reducer.square_yields (form destination))
  | add destination left right =>
    exact simulates.compute destination
      (sound.add_yields (form left) (form right))
  | addInPlace destination operand =>
    exact simulates.compute destination
      (sound.addInPlace_yields (form destination) (form operand))
  | sub destination left right =>
    exact simulates.compute destination
      (sound.sub_yields (form left) (form right))
  | subInPlace destination operand =>
    exact simulates.compute destination
      (sound.subInPlace_yields (form destination) (form operand))
  | neg destination operand =>
    exact simulates.write destination (sound.represents_neg (form operand))
  | copy destination operand =>
    exact simulates.write destination (form operand)
  | select destination unset set condition =>
    apply simulates.write destination
    rw [Words.select_ofBool _ _ _
      ((form set).width.trans (form unset).width.symm)]
    cases condition with
    | false => exact form unset
    | true => exact form set
  | swap left right condition =>
    exact simulates.swap left right condition

/-- A sequence of operations preserves the simulation. -/
theorem Simulates.run
    (sound : context.Sound)
    (simulates : Simulates context machine residues)
    (steps : List (Step Register))
    (admissible : ∀ step ∈ steps, step.Admissible context) :
    Simulates context (machine.run context steps)
      (Step.meanings context residues steps) := by
  induction steps generalizing machine residues with
  | nil => exact simulates
  | cons step steps ih =>
    rw [List.forall_mem_cons] at admissible
    exact ih (simulates.step sound step admissible.1) admissible.2

end

/--
After any sequence of operations from fresh registers, every register has the
words of the modulus and is below it, represents what the operations make of
the residues, and is told apart from zero, from one and from other registers
by its residue.
-/
theorem run_refines
    (modulusBytes : Bytes)
    (context : Context)
    (made : Context.ofBytes modulusBytes = .ok context)
    (steps : List (Step Register))
    (admissible : ∀ step ∈ steps, step.Admissible context) :
    let registers := ((fresh context).run context steps).registers
    let residues := Step.meanings context (fun _ => 0) steps
    (∀ register,
      (registers register).length = Words.widthOfBytes modulusBytes.length ∧
        Words.value (registers register) <
          Bytes.bigEndianValue modulusBytes) ∧
      (∀ register,
        context.residue (registers register) = residues register) ∧
      (∀ register,
        ((Words.isZero (registers register)).isSet = true ↔
            residues register = 0) ∧
          ((context.isOne (registers register)).isSet = true ↔
            residues register = 1)) ∧
      ∀ left right,
        (Words.eq (registers left) (registers right)).isSet = true ↔
          residues left = residues right := by
  intro registers residues
  rcases Context.sound_of_ofBytes made with ⟨sound, modulusValue, width, _⟩
  have simulates : Simulates context ((fresh context).run context steps)
      residues :=
    (simulates_fresh sound).run sound steps admissible
  have form :
      ∀ register,
        context.Represents (registers register) (residues register) :=
    simulates.represents
  refine ⟨?_, ?_, ?_, ?_⟩
  · intro register
    constructor
    · rw [(form register).width]
      exact width
    · rw [← modulusValue]
      exact (form register).below
  · intro register
    exact (form register).residue_eq
  · intro register
    constructor
    · rw [sound.isZero_eq (form register), Choice.isSet_ofBool,
        decide_eq_true_iff]
    · rw [sound.isOne_eq (form register), Choice.isSet_ofBool,
        decide_eq_true_iff]
  · intro left right
    rw [sound.eq_eq (form left) (form right), Choice.isSet_ofBool,
      decide_eq_true_iff]

/--
Modulo 97, the product of 100, reduced on entry, and of 60 is 180, and a
loaded form takes part.
-/
theorem run_refines_modulo_ninetySeven :
    let context := Context.ofModulus (Context.modulusOfBytes [97]) 1
    let steps : List (Step Nat) :=
      [.setWord 0 100, .fromBytes 1 [0, 60], .multiply 2 0 1, .fromWord 3 180,
        .load 4 [96], .addInPlace 2 4, .swap 2 5 true, .sub 2 5 4]
    let registers := ((fresh context).run context steps).registers
    Context.ofBytes [97] = .ok context ∧
      (Words.eq (registers 2) (registers 3)).isSet = true := by
  intro context steps registers
  have made : Context.ofBytes [97] = .ok context := by
    rw [Context.ofBytes_eq]
    rfl
  have modulusValue : Words.value context.modulus = 97 := by
    decide
  have admissible : ∀ step ∈ steps, step.Admissible context := by
    simp only [steps, List.forall_mem_cons, Step.Admissible]
    refine ⟨trivial, trivial, trivial, trivial, ⟨rfl, ?_⟩, trivial, trivial,
      trivial, ?_⟩
    · rw [modulusValue]
      decide
    · intro step none
      exact absurd none List.not_mem_nil
  have refined := run_refines [97] context made steps admissible
  refine ⟨made, (refined.2.2.2 2 3).2 ?_⟩
  have entered : (100 * 60 : context.Residues) = 180 := by
    have congruent :=
      (ZMod.natCast_eq_natCast_iff (100 * 60) 180
        (Words.value context.modulus)).2 (by rw [modulusValue]; decide)
    exact_mod_cast congruent
  simpa [steps, Step.meanings, Step.meaning, Function.update, modulusValue,
    Bytes.bigEndianValue] using entered

end Machine

end

end ModularLadder.Montgomery
