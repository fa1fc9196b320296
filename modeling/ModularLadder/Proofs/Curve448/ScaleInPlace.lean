import Mathlib
import ModularLadder.Curve448.Point
import ModularLadder.Proofs.Comparison
import ModularLadder.Proofs.Curve448.InPlace
import ModularLadder.Proofs.Montgomery.SettledRegisters
import ModularLadder.Proofs.Scalar

/-!
# Multiples on Curve448 in place

A point is replaced by its multiple in its own places.  The inverse of the
denominator is a power, computed in the place of a temporary, and makes the
base affine.  After the ladder the coordinates are exchanged for small ones in
two temporaries wherever the ladder has degenerated or the numerator of the
point at infinity is to be normalized.

The conditions of these exchanges are read from the places: whether the base
is zero after the ladder, and whether the denominator is zero in the end.  The
ladder leaves the base alone.
-/

namespace ModularLadder

/-! ## Powers and inverses in place -/

namespace Montgomery

variable
  {Register : Type}
  [DecidableEq Register]

/-- One bit of a power, in place. -/
def powerStepProgram
    (destination base : Register)
    (bit : Bool) :
    List (Step Register) :=
  if bit then
    [.squareInPlace destination, .multiplyInPlace destination base]
  else
    [.squareInPlace destination]

/-- The power with the exponent of inversion, in place. -/
def inverseProgram
    (context : Context)
    (destination base : Register) :
    List (Step Register) :=
  .load destination context.one ::
    context.inversionBits.flatMap (powerStepProgram destination base)

namespace Machine

/-- What is computed to a register can be computed further there. -/
theorem compute_compute
    (machine : Machine Register)
    (destination : Register)
    (computation : ScratchM Words)
    (next : Words → ScratchM Words) :
    (machine.compute destination computation).compute destination
        (next ((machine.compute destination computation).registers
          destination)) =
      machine.compute destination (computation >>= next) := by
  have answer :
      (machine.compute destination computation).registers destination =
        (StateT.run computation machine.scratch).1 :=
    Function.update_self _ _ _
  rw [answer]
  refine ext_registers (fun register => ?_) rfl
  exact congrFun (Function.update_idem _ _ _) register

theorem compute_registers
    (machine : Machine Register)
    {destination register : Register}
    (distinct : register ≠ destination)
    (computation : ScratchM Words) :
    (machine.compute destination computation).registers register =
      machine.registers register :=
  Function.update_of_ne distinct _ _

variable
  (context : Context)
  {destination base : Register}

theorem run_powerStepProgram
    (machine : Machine Register)
    (distinct : base ≠ destination)
    (bit : Bool) :
    machine.run context (powerStepProgram destination base bit) =
      machine.compute destination
        (context.powerStep (machine.registers base)
          (machine.registers destination) bit) := by
  cases bit with
  | false => rfl
  | true =>
    let square := context.square (machine.registers destination)
    let squared := machine.compute destination square
    have kept : squared.registers base = machine.registers base :=
      compute_registers machine distinct square
    show
      squared.compute destination
          (context.multiply (squared.registers destination)
            (squared.registers base)) =
        _
    rw [kept]
    exact compute_compute machine destination square fun power =>
      context.multiply power (machine.registers base)

theorem run_powerProgram
    (machine : Machine Register)
    (distinct : base ≠ destination)
    (bits : List Bool) :
    machine.run context (bits.flatMap (powerStepProgram destination base)) =
      machine.compute destination
        (bits.foldlM (context.powerStep (machine.registers base))
          (machine.registers destination)) := by
  induction bits generalizing machine with
  | nil =>
    refine ext_registers (fun register => ?_) rfl
    exact congrFun
      (Function.update_eq_self destination machine.registers).symm register
  | cons bit bits ih =>
    have kept :=
      compute_registers machine distinct
        (context.powerStep (machine.registers base)
          (machine.registers destination) bit)
    rw [List.flatMap_cons, run_append, run_powerStepProgram _ _ distinct, ih,
      kept, List.foldlM_cons]
    exact compute_compute machine destination _ fun power =>
      bits.foldlM (context.powerStep (machine.registers base)) power

/-- The inverse of a register, computed in another one. -/
theorem run_inverseProgram
    (machine : Machine Register)
    (distinct : base ≠ destination) :
    machine.run context (inverseProgram context destination base) =
      machine.compute destination
        (context.inverse (machine.registers base)) := by
  have kept :
      (machine.write destination context.one).registers base =
        machine.registers base :=
    Function.update_of_ne distinct _ _
  have loaded :
      (machine.write destination context.one).registers destination =
        context.one :=
    Function.update_self _ _ _
  have power :=
    run_powerProgram context (machine.write destination context.one) distinct
      context.inversionBits
  rw [kept, loaded] at power
  refine power.trans (ext_registers (fun register => ?_) rfl)
  exact congrFun (Function.update_idem _ _ _) register

end Machine

end Montgomery

/-! ## Programs for a multiple -/

namespace Curve448

open Field448 (Performs onScratch)
open Montgomery (Machine Step inverseProgram)

/-- The affine x-coordinate of the point, as the base of the climb. -/
def affineProgram (field : Montgomery.Context) : List (Step Place) :=
  inverseProgram field .a .z2 ++ [.multiply .x1 .x2 .a]

/-- An exchange of the point for small coordinates under a condition. -/
def exchangeSmallProgram (x z : Word) (condition : Bool) : List (Step Place) :=
  [.setWord .e x,
    .setWord .f z,
    .swap .x2 .e condition,
    .swap .z2 .f condition]

/-- An exchange of the numerator for one under a condition. -/
def normalizeProgram (condition : Bool) : List (Step Place) :=
  [.setWord .e 1,
    .swap .x2 .e condition]

/-- The multiple of a finite point by a scalar, in the place of the point. -/
def scaleInPlace
    (field : Montgomery.Context)
    (scalar : Bytes)
    (machine : Machine Place) :
    Machine Place :=
  let bits := (Scalar.bits scalar).map Choice.isSet
  let odd := (Scalar.isOdd scalar).isSet
  let climbed := machine.run field (affineProgram field ++ ladderProgram bits)
  let orderTwo := (Words.isZero (climbed.registers .x1)).isSet
  let mended :=
    climbed.run field
      (exchangeSmallProgram 0 1 (orderTwo && odd) ++
        exchangeSmallProgram 1 0 (orderTwo && !odd))
  mended.run field
    (normalizeProgram (Words.isZero (mended.registers .z2)).isSet)

/-- The affine base of the climb, which is left among the temporaries. -/
def affineBase
    (context : CurveContext)
    (point : Coordinates) :
    WorkplaceM Words := do
  let inverse ← onScratch (context.field.inverse point.z)
  let x1 ← onScratch (context.field.multiply point.x inverse)
  modify fun workplace => { workplace with a := inverse, x1 := x1 }
  return x1

/-- The multiples of the point of order two. -/
def mendOrderTwo
    (context : CurveContext)
    (orderTwo odd : Choice)
    (climbed : Coordinates) :
    WorkplaceM Coordinates := do
  let mended ← Point.exchangeSmall context 0 1 (orderTwo &&& odd) climbed
  Point.exchangeSmall context 1 0 (orderTwo &&& ~~~odd) mended

/-- A multiple is computed in four parts. -/
theorem scaleCoordinates_eq
    (context : CurveContext)
    (point : Coordinates)
    (scalar : Bytes) :
    Point.scaleCoordinates context point scalar =
      (do
        let x1 ← affineBase context point
        let climbed ← context.ladder (Scalar.bits scalar)
        let mended ←
          mendOrderTwo context (Words.isZero x1) (Scalar.isOdd scalar) climbed
        Point.normalizeInfinity context mended) := by
  simp only [Point.scaleCoordinates, affineBase, mendOrderTwo, bind_assoc,
    pure_bind]

/-! ## What the programs perform -/

section

variable
  (context : CurveContext)
  (point : Coordinates)
  (workplace : Workplace)

/-- The base is computed while the point still has its coordinates. -/
theorem affine_performs :
    Performs context.field (fun _ left => places context point left)
      (places context point workplace) (affineProgram context.field) workplace
      (affineBase context point) := by
  have distinct : Place.z2 ≠ Place.a := by decide
  refine .operations (Machine.run_inverseProgram _ _ distinct) rfl
    fun inverse _ => ?_
  refine .operation rfl rfl fun x1 _ => ?_
  refine .modify_bind (.done ?_ rfl)
  intro place
  cases place <;> rfl

theorem exchangeSmall_performs
    (x z : Word)
    (condition : Bool) :
    Performs context.field (places context) (places context point workplace)
      (exchangeSmallProgram x z condition) workplace
      (Point.exchangeSmall context x z (Choice.ofBool condition) point) := by
  refine .operation rfl rfl fun e _ => ?_
  refine .operation rfl rfl fun f _ => ?_
  refine .move (.move (.modify_bind (.done ?_ rfl)))
  intro place
  cases place <;> rfl

theorem mendOrderTwo_performs
    (orderTwo odd : Bool) :
    Performs context.field (places context) (places context point workplace)
      (exchangeSmallProgram 0 1 (orderTwo && odd) ++
        exchangeSmallProgram 1 0 (orderTwo && !odd))
      workplace
      (mendOrderTwo context (Choice.ofBool orderTwo) (Choice.ofBool odd)
        point) := by
  rw [mendOrderTwo, Choice.not_ofBool, Choice.and_ofBool, Choice.and_ofBool]
  exact (exchangeSmall_performs context point workplace 0 1 _).append
    fun mended left => exchangeSmall_performs context mended left 1 0 _

theorem normalize_performs :
    Performs context.field (places context) (places context point workplace)
      (normalizeProgram (Words.isZero point.z).isSet) workplace
      (Point.normalizeInfinity context point) := by
  have condition := Words.isZero_eq point.z
  refine .operation rfl rfl fun e _ => ?_
  refine .move (.modify_bind (.done ?_ rfl))
  intro place
  rw [condition, Choice.isSet_ofBool]
  cases place <;> rfl

end

/-! ## The multiple in its own places -/

/-- The ladder reads its base and never writes it. -/
theorem ladderProgram_unwritten
    (bits : List Bool) :
    ∀ step ∈ ladderProgram bits, Place.x1 ∉ step.writes := by
  have exchange (condition : Bool) :
      ∀ step ∈ exchangeProgram condition, Place.x1 ∉ step.writes := by
    cases condition <;> decide
  have climb (exchanged : Bool) :
      ∀ step ∈ bitsProgram exchanged bits, Place.x1 ∉ step.writes := by
    induction bits generalizing exchanged with
    | nil => exact exchange exchanged
    | cons bit bits ih =>
      have between : ∀ step ∈ stepProgram, Place.x1 ∉ step.writes := by
        decide
      intro step member
      rcases List.mem_append.1 member with first | others
      · exact exchange _ step first
      · rcases List.mem_append.1 others with middle | last
        · exact between step middle
        · exact ih bit step last
  have start : ∀ step ∈ startProgram, Place.x1 ∉ step.writes := by
    decide
  intro step member
  rcases List.mem_append.1 member with first | others
  · exact start step first
  · exact climb false step others

/-- A climb leaves its base as it was. -/
theorem ladder_base
    (context : CurveContext)
    (point : Coordinates)
    (workplace : Workplace)
    (bits : List Bool) :
    (StateT.run (context.ladder (bits.map Choice.ofBool)) workplace).2.x1 =
      workplace.x1 := by
  have performs := ladder_performs context point workplace bits
  have kept :=
    Machine.run_registers context.field (places context point workplace)
      (ladderProgram bits) (ladderProgram_unwritten bits)
  rw [performs] at kept
  exact kept

/--
In place, a finite point is replaced by its multiple.  Whether the order is two
is read from a place that the climb has left alone.
-/
theorem scaleInPlace_eq
    (context : CurveContext)
    (point : Coordinates)
    (workplace : Workplace)
    (scalar : Bytes) :
    let outcome :=
      StateT.run (Point.scaleCoordinates context point scalar) workplace
    scaleInPlace context.field scalar (places context point workplace) =
      places context outcome.1 outcome.2 := by
  rcases Scalar.exists_bits scalar with ⟨bits, read, _⟩
  have readBack : (Scalar.bits scalar).map Choice.isSet = bits := by
    rw [read, List.map_map]
    exact List.map_id'' Choice.isSet_ofBool bits
  have odd := Scalar.isOdd_eq scalar
  let base := StateT.run (affineBase context point) workplace
  let climbed := StateT.run (context.ladder (bits.map Choice.ofBool)) base.2
  have climb :
      (places context point workplace).run context.field
          (affineProgram context.field ++ ladderProgram bits) =
        places context climbed.1 climbed.2 :=
    (affine_performs context point workplace).append fun _ left =>
      ladder_performs context point left bits
  have based : (places context climbed.1 climbed.2).registers .x1 = base.1 :=
    ladder_base context point base.2 bits
  have orderTwo := Words.isZero_eq base.1
  have outcome :
      StateT.run (Point.scaleCoordinates context point scalar) workplace =
        (let mended :=
          StateT.run
            (mendOrderTwo context (Words.isZero base.1) (Scalar.isOdd scalar)
              climbed.1)
            climbed.2
        StateT.run (Point.normalizeInfinity context mended.1) mended.2) := by
    rw [scaleCoordinates_eq, read]
    rfl
  have mend :=
    mendOrderTwo_performs context climbed.1 climbed.2
      (decide (Words.value base.1 = 0))
      (decide (scalar.bigEndianValue % 2 = 1))
  rw [outcome, scaleInPlace, readBack, climb, based, orderTwo, odd,
    Choice.isSet_ofBool, Choice.isSet_ofBool]
  rw [Performs] at mend
  simp only [mend]
  exact normalize_performs context _ _

end Curve448

end ModularLadder
