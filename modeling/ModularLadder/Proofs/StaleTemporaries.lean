import Mathlib
import ModularLadder.Proofs.Curve448.ScaleInPlace
import ModularLadder.Proofs.Ed448.InPlace

/-!
# Results do not depend on stale temporaries

Points carry temporaries from one operation to the next, and so does whoever
uses the arithmetic of a modulus.  Two runs of an operation on the same operands
have the same result, whatever the temporaries of each run have held before.

The operations on points are followed in their places.  The program of an
operation settles the places of its result as soon as those of its operands are
settled, which is found by going through it once.  The ladder repeats an
exchange and a step whose six places stay settled; its first operations settle
them from the base and the constant of the curve.
-/

namespace ModularLadder

open Montgomery (Determined Machine Scratch ScratchM Step)

/-! ## Programs in the places of a workplace -/

namespace Field448

variable
  {Place Workplace β : Type}
  [HoldsScratch Workplace]

/-- The scratch area among the temporaries is roomy. -/
def Roomy (width : Nat) (workplace : Workplace) : Prop :=
  (HoldsScratch.scratch workplace).Roomy width

/--
A computation is determined if all places of its answer are settled wherever
its answer and the temporaries that it leaves are laid out.
-/
theorem determined_of_places
    {width : Nat}
    {final : Workplace → Machine Place}
    {computation : StateM Workplace β}
    (layout : β → Workplace → Machine Place)
    (settled : List Place)
    (ends :
      ∀ workplace,
        final workplace =
          layout (StateT.run computation workplace).1
            (StateT.run computation workplace).2)
    (agree :
      ∀ first second,
        Roomy width first →
          Roomy width second →
            Machine.Agree width settled (final first) (final second))
    (answer :
      ∀ first second left right,
        Machine.Agree width settled (layout first left) (layout second right) →
          first = second ∧ Roomy width left) :
    Determined (Roomy width) (Roomy width) computation := by
  have outcome (first second : Workplace)
      (firstRoomy : Roomy width first) (secondRoomy : Roomy width second) :=
    ends first ▸ ends second ▸ agree first second firstRoomy secondRoomy
  constructor
  case same =>
    intro first second firstRoomy secondRoomy
    exact (answer _ _ _ _ (outcome first second firstRoomy secondRoomy)).1
  case leaves =>
    intro workplace roomy
    exact (answer _ _ _ _ (outcome workplace workplace roomy roomy)).2

end Field448

/-! ## Multiples on Curve448 -/

namespace Curve448

open Field448 (Roomy determined_of_places)

/-- The places that keep the two points of a climb and what steps read. -/
def climbPlaces : List Place :=
  [.x2, .z2, .x1, .x3, .z3, .a24]

theorem stepProgram_settles :
    climbPlaces ⊆ Step.settleAll climbPlaces stepProgram := by
  decide

theorem exchangeProgram_settles
    (condition : Bool) :
    climbPlaces ⊆ Step.settleAll climbPlaces (exchangeProgram condition) := by
  cases condition <;> decide

/-- The climb starts from the base and the constant of the curve alone. -/
theorem startProgram_settles :
    climbPlaces ⊆ Step.settleAll [.x1, .a24] startProgram := by
  decide

/-- The places that a multiple is computed from. -/
def pointPlaces : List Place :=
  [.x2, .z2, .a24]

theorem exchangeSmallProgram_settles
    (odd even : Bool) :
    pointPlaces ⊆
      Step.settleAll climbPlaces
        (exchangeSmallProgram 0 1 odd ++ exchangeSmallProgram 1 0 even) := by
  cases odd <;> cases even <;> decide

theorem normalizeProgram_settles
    (condition : Bool) :
    pointPlaces ⊆ Step.settleAll pointPlaces (normalizeProgram condition) := by
  cases condition <;> decide

section

variable
  {field : Montgomery.Context}
  {first second : Machine Place}

/-- Along all bits, the places of a climb stay settled. -/
theorem agree_bitsProgram
    (agree : Machine.Agree field.width climbPlaces first second)
    (exchanged : Bool)
    (bits : List Bool) :
    Machine.Agree field.width climbPlaces
      (first.run field (bitsProgram exchanged bits))
      (second.run field (bitsProgram exchanged bits)) := by
  induction bits generalizing first second exchanged with
  | nil => exact (agree.run _).mono (exchangeProgram_settles exchanged)
  | cons bit bits ih =>
    have ordered :=
      (agree.run _).mono (exchangeProgram_settles (exchanged ^^ bit))
    refine ordered.append fun left right ordered => ?_
    have climbed := (ordered.run _).mono stepProgram_settles
    exact climbed.append fun left right climbed => ih climbed bit

theorem agree_ladderProgram
    (agree : Machine.Agree field.width [.x1, .a24] first second)
    (bits : List Bool) :
    Machine.Agree field.width climbPlaces
      (first.run field (ladderProgram bits))
      (second.run field (ladderProgram bits)) :=
  ((agree.run _).mono startProgram_settles).append fun _ _ started =>
    agree_bitsProgram started false bits

theorem agree_affineProgram
    (agree : Machine.Agree field.width pointPlaces first second) :
    Machine.Agree field.width [.x1, .a24]
      (first.run field (affineProgram field))
      (second.run field (affineProgram field)) := by
  have distinct : Place.z2 ≠ Place.a := by decide
  have denominator := agree.registers .z2 (by decide)
  have inverse :=
    agree.compute .a (congrArg field.inverse denominator)
      (field.inverse_oblivious _)
  rw [← Machine.run_inverseProgram field first distinct,
    ← Machine.run_inverseProgram field second distinct] at inverse
  exact inverse.append fun _ _ inverse => (inverse.run _).mono (by decide)

/-- The conditions of the exchanges are read from settled places too. -/
theorem agree_scaleInPlace
    (agree : Machine.Agree field.width pointPlaces first second)
    (scalar : Bytes) :
    Machine.Agree field.width pointPlaces (scaleInPlace field scalar first)
      (scaleInPlace field scalar second) := by
  have climbed :=
    (agree_affineProgram agree).append fun _ _ based =>
      agree_ladderProgram based ((Scalar.bits scalar).map Choice.isSet)
  have base := climbed.registers .x1 (by decide)
  have mended (odd even : Bool) :=
    (climbed.run _).mono (exchangeSmallProgram_settles odd even)
  have denominator (odd even : Bool) :=
    (mended odd even).registers .z2 (by decide)
  rw [scaleInPlace, scaleInPlace, ← base, ← denominator]
  exact ((mended _ _).run _).mono (normalizeProgram_settles _)

end

section

variable
  (curve : CurveContext)
  (point : Coordinates)

/-- Only the temporaries of a point are unsettled before it is multiplied. -/
theorem agree_places
    {first second : Workplace}
    (firstRoomy : Roomy curve.field.width first)
    (secondRoomy : Roomy curve.field.width second) :
    Machine.Agree curve.field.width pointPlaces (places curve point first)
      (places curve point second) where
  registers place settled := by
    fin_cases settled <;> rfl
  firstRoomy := firstRoomy
  secondRoomy := secondRoomy

theorem scaleCoordinates_determined
    (scalar : Bytes) :
    Determined (Roomy curve.field.width) (Roomy curve.field.width)
      (Point.scaleCoordinates curve point scalar) := by
  refine determined_of_places (places curve) pointPlaces
    (fun workplace => scaleInPlace_eq curve point workplace scalar) ?_ ?_
  · intro first second firstRoomy secondRoomy
    exact agree_scaleInPlace (agree_places curve point firstRoomy secondRoomy)
      scalar
  · rintro ⟨_, _⟩ ⟨_, _⟩ left right agree
    have x := agree.registers .x2 (by decide)
    have z := agree.registers .z2 (by decide)
    cases x
    cases z
    exact ⟨rfl, agree.firstRoomy⟩

end

/-- Two points differ in no more than what roomy temporaries have held. -/
structure Point.Alike (first second : Point) : Prop where
  curve : first.curve = second.curve
  coordinates : first.coordinates = second.coordinates
  firstRoomy : Roomy first.curve.field.width first.workplace
  secondRoomy : Roomy second.curve.field.width second.workplace

theorem Point.Alike.scale
    {first second : Point}
    (alike : Point.Alike first second)
    (scalar : Bytes) :
    Point.Alike (first.scale scalar) (second.scale scalar) := by
  have determined :=
    scaleCoordinates_determined first.curve first.coordinates scalar
  have secondRoomy : Roomy first.curve.field.width second.workplace :=
    alike.curve ▸ alike.secondRoomy
  have infinity : second.isInfinity = first.isInfinity := by
    rw [Point.isInfinity, Point.isInfinity, alike.coordinates]
  rw [Point.scale, Point.scale, infinity]
  by_cases atInfinity : first.isInfinity
  · rw [if_pos atInfinity, if_pos atInfinity]
    exact alike
  · rw [if_neg atInfinity, if_neg atInfinity, ← alike.curve,
      ← alike.coordinates]
    constructor
    case curve => rfl
    case coordinates => exact determined.same _ _ alike.firstRoomy secondRoomy
    case firstRoomy => exact determined.leaves _ alike.firstRoomy
    case secondRoomy => exact determined.leaves _ secondRoomy

end Curve448

/-! ## Operations on Ed448 -/

namespace Ed448

open Field448 (Performs Roomy determined_of_places)

/-- The places of a point's own coordinates. -/
def ownPlaces : List Place :=
  [.x, .y, .z]

/-- The places that a sum reads its operands and the constant from. -/
def operandPlaces : List Place :=
  ownPlaces ++ [.otherX, .otherY, .otherZ, .constant]

theorem sumProgram_settles :
    ownPlaces ⊆ Step.settleAll operandPlaces sumProgram := by
  decide

theorem doubleProgram_settles :
    ownPlaces ⊆ Step.settleAll ownPlaces doubleProgram := by
  decide

theorem negProgram_settles :
    ownPlaces ⊆ Step.settleAll ownPlaces negProgram := by
  decide

section

variable
  (curve : CurveContext)
  (own other : Coordinates)

/-- Only the temporaries of a point are unsettled before an operation. -/
theorem agree_places
    {first second : Workplace}
    (firstRoomy : Roomy curve.field.width first)
    (secondRoomy : Roomy curve.field.width second) :
    Machine.Agree curve.field.width operandPlaces
      (places curve own other first) (places curve own other second) where
  registers place settled := by
    fin_cases settled <;> rfl
  firstRoomy := firstRoomy
  secondRoomy := secondRoomy

/-- A computation is determined if its program settles the point. -/
theorem determined_of_settles
    {program : List (Step Place)}
    {computation : WorkplaceM Coordinates}
    (performs :
      ∀ workplace,
        Performs curve.field (places curve · other)
          (places curve own other workplace) program workplace computation)
    (settles : ownPlaces ⊆ Step.settleAll operandPlaces program) :
    Determined (Roomy curve.field.width) (Roomy curve.field.width)
      computation := by
  refine determined_of_places (places curve · other) ownPlaces performs ?_ ?_
  · intro first second firstRoomy secondRoomy
    exact ((agree_places curve own other firstRoomy secondRoomy).run _).mono
      settles
  · rintro ⟨_, _, _⟩ ⟨_, _, _⟩ left right agree
    have x := agree.registers .x (by decide)
    have y := agree.registers .y (by decide)
    have z := agree.registers .z (by decide)
    cases x
    cases y
    cases z
    exact ⟨rfl, agree.firstRoomy⟩

theorem add_determined :
    Determined (Roomy curve.field.width) (Roomy curve.field.width)
      (curve.add own other) :=
  determined_of_settles curve own other (sum_performs curve own other)
    sumProgram_settles

theorem double_determined :
    Determined (Roomy curve.field.width) (Roomy curve.field.width)
      (curve.double own) :=
  determined_of_settles curve own own (double_performs curve own own)
    (by decide)

theorem neg_determined :
    Determined (Roomy curve.field.width) (Roomy curve.field.width)
      (curve.neg own) :=
  determined_of_settles curve own own (neg_performs curve own own) (by decide)

end

/-! ## Points alike but for their temporaries -/

/-- Two points differ in no more than what roomy temporaries have held. -/
structure Point.Alike (first second : Point) : Prop where
  curve : first.curve = second.curve
  coordinates : first.coordinates = second.coordinates
  firstRoomy : Roomy first.curve.field.width first.workplace
  secondRoomy : Roomy second.curve.field.width second.workplace

theorem Point.add_map_coordinates
    (left right : Point) :
    (left.add right).map Point.coordinates =
      if left.curve.identity = right.curve.identity then
        .ok (left.update
          (left.curve.add left.coordinates right.coordinates)).coordinates
      else
        .error .curveMismatch := by
  rw [Point.add, checkSameCurve]
  split
  · rfl
  · rfl

namespace Point.Alike

variable
  {first second lower lower' upper upper' : Point}

/-- Points stay alike when both are computed anew from the same operands. -/
theorem update
    (alike : Point.Alike first second)
    {operation : WorkplaceM Coordinates}
    (determined :
      Determined (Roomy first.curve.field.width)
        (Roomy first.curve.field.width) operation) :
    Point.Alike (first.update operation) (second.update operation) where
  curve := alike.curve
  coordinates :=
    determined.same _ _ alike.firstRoomy (alike.curve ▸ alike.secondRoomy)
  firstRoomy := determined.leaves _ alike.firstRoomy
  secondRoomy :=
    alike.curve ▸ determined.leaves _ (alike.curve ▸ alike.secondRoomy)

theorem double
    (alike : Point.Alike first second) :
    Point.Alike first.double second.double := by
  rw [Point.double, Point.double, ← alike.curve, ← alike.coordinates]
  exact alike.update (double_determined _ _)

theorem neg
    (alike : Point.Alike first second) :
    Point.Alike first.neg second.neg := by
  rw [Point.neg, Point.neg, ← alike.curve, ← alike.coordinates]
  exact alike.update (neg_determined _ _)

/-- The temporaries of the other operand are not read at all. -/
theorem add
    (alike : Point.Alike first second)
    (other : Point)
    (workplace : Workplace) :
    (first.add other).map Point.coordinates =
      (second.add { other with workplace := workplace }).map
        Point.coordinates := by
  have summed :=
    alike.update
      (add_determined first.curve first.coordinates other.coordinates)
  rw [add_map_coordinates, add_map_coordinates, ← alike.curve,
    ← alike.coordinates, summed.coordinates]

theorem swapIf
    (lowerAlike : Point.Alike lower lower')
    (upperAlike : Point.Alike upper upper')
    (choice : Choice) :
    Point.Alike (lower.swapIf upper choice).1 (lower'.swapIf upper' choice).1 ∧
      Point.Alike (lower.swapIf upper choice).2
        (lower'.swapIf upper' choice).2 := by
  have coordinates :
      lower.coordinates.swapIf upper.coordinates choice =
        lower'.coordinates.swapIf upper'.coordinates choice := by
    rw [lowerAlike.coordinates, upperAlike.coordinates]
  constructor
  · exact ⟨lowerAlike.curve, congrArg Prod.fst coordinates,
      lowerAlike.firstRoomy, lowerAlike.secondRoomy⟩
  · exact ⟨upperAlike.curve, congrArg Prod.snd coordinates,
      upperAlike.firstRoomy, upperAlike.secondRoomy⟩

end Point.Alike

/-! ## Multiples on Ed448 -/

/-- Two climbs on a curve differ in no more than roomy temporaries. -/
structure Climb.Alike
    (curve : CurveContext)
    (first second : Climb) :
    Prop where
  lower : Point.Alike first.lower second.lower
  upper : Point.Alike first.upper second.upper
  exchanged : first.exchanged = second.exchanged
  lowerCurve : first.lower.curve = curve
  upperCurve : first.upper.curve = curve

namespace Climb.Alike

variable
  {curve : CurveContext}
  {first second : Climb}

/-- One bit of a climb keeps climbs alike. -/
theorem next
    (alike : Climb.Alike curve first second)
    (bit : Choice) :
    Climb.Alike curve (first.next curve bit) (second.next curve bit) := by
  rcases alike.lower.swapIf alike.upper (first.exchanged ^^^ bit) with
    ⟨lower, upper⟩
  rw [Climb.next, Climb.next, ← alike.exchanged]
  constructor
  case lower => exact lower.double
  case upper =>
    show Point.Alike (Point.update _ (curve.add _ _))
      (Point.update _ (curve.add _ _))
    rw [← lower.coordinates, ← upper.coordinates]
    refine upper.update ?_
    have determined := add_determined curve
    rw [← alike.upperCurve] at determined ⊢
    exact determined _ _
  case exchanged => rfl
  case lowerCurve => exact alike.lowerCurve
  case upperCurve => exact alike.upperCurve

/-- Climbs from alike points along the same bits are alike. -/
theorem foldl
    (alike : Climb.Alike curve first second)
    (bits : List Choice) :
    Climb.Alike curve (bits.foldl (Climb.next curve) first)
      (bits.foldl (Climb.next curve) second) := by
  induction bits generalizing first second with
  | nil => exact alike
  | cons bit bits ih => exact ih (alike.next bit)

theorem finish
    (alike : Climb.Alike curve first second) :
    first.finish.coordinates = second.finish.coordinates := by
  rw [Climb.finish, Climb.finish, ← alike.exchanged]
  exact (alike.lower.swapIf alike.upper first.exchanged).1.coordinates

end Climb.Alike

theorem Point.Alike.scale
    {first second : Point}
    (alike : Point.Alike first second)
    (scalar : Bytes) :
    Point.Alike (first.scale scalar) (second.scale scalar) := by
  have neutralRoomy :
      Roomy first.curve.field.width (Point.neutral first.curve).workplace :=
    (Montgomery.Scratch.fits_ofWidth _).roomy
  have start :
      Climb.Alike first.curve
        { lower := Point.neutral first.curve
          upper := first
          exchanged := Choice.no }
        { lower := Point.neutral first.curve
          upper := second
          exchanged := Choice.no } :=
    ⟨⟨rfl, rfl, neutralRoomy, neutralRoomy⟩, alike, rfl, rfl, rfl⟩
  have climbed := start.foldl (Scalar.bits scalar)
  refine ⟨alike.curve, ?_, alike.firstRoomy, alike.secondRoomy⟩
  rw [Point.scale, Point.scale, Climb.along, Climb.along, ← alike.curve]
  exact climbed.finish

end Ed448

/-! ## What ignores temporaries -/

/-- The arithmetic of a modulus does not show what temporaries have held. -/
structure Montgomery.Context.IgnoresTemporaries
    (context : Context) :
    Prop where
  encodeWord (word : Word) :
    ScratchM.Oblivious context.width (context.encodeWord word)
  /-- A product, in place of a factor or apart from both. -/
  multiply (left right : Words) :
    ScratchM.Oblivious context.width (context.multiply left right)
  square (number : Words) :
    ScratchM.Oblivious context.width (context.square number)
  add (left right : Words) :
    ScratchM.Oblivious context.width (context.add left right)
  addInPlace (left right : Words) :
    ScratchM.Oblivious context.width (context.addInPlace left right)
  sub (left right : Words) :
    ScratchM.Oblivious context.width (context.sub left right)
  subInPlace (left right : Words) :
    ScratchM.Oblivious context.width (context.subInPlace left right)
  inverse (number : Words) :
    ScratchM.Oblivious context.width (context.inverse number)
  /-- Any sequence of operations on registers, of which some may coincide. -/
  registers
    {Register : Type}
    [DecidableEq Register]
    (steps : List (Step Register))
    (first second : Machine Register)
    (same :
      ∀ register, first.registers register = second.registers register)
    (firstRoomy : first.scratch.Roomy context.width)
    (secondRoomy : second.scratch.Roomy context.width)
    (register : Register) :
    (first.run context steps).registers register =
      (second.run context steps).registers register

/-- The operations on Curve448 do not show what temporaries have held. -/
structure Curve448.CurveContext.IgnoresTemporaries
    (curve : CurveContext) :
    Prop where
  scale (first second : Point) :
    first.curve = curve →
      Point.Alike first second →
        ∀ scalar, Point.Alike (first.scale scalar) (second.scale scalar)
  /-- A multiple in place, whose temporaries are places of their own. -/
  scaleInPlace (first second : Machine Place) :
    Machine.Agree curve.field.width pointPlaces first second →
      ∀ scalar,
        Machine.Agree curve.field.width pointPlaces
          (scaleInPlace curve.field scalar first)
          (scaleInPlace curve.field scalar second)

/-- The operations on Ed448 do not show what temporaries have held. -/
structure Ed448.CurveContext.IgnoresTemporaries
    (curve : CurveContext) :
    Prop where
  add (first second other : Point) (workplace : Workplace) :
    first.curve = curve →
      Point.Alike first second →
        (first.add other).map Point.coordinates =
          (second.add { other with workplace := workplace }).map
            Point.coordinates
  double (first second : Point) :
    first.curve = curve →
      Point.Alike first second → Point.Alike first.double second.double
  neg (first second : Point) :
    first.curve = curve →
      Point.Alike first second → Point.Alike first.neg second.neg
  scale (first second : Point) :
    first.curve = curve →
      Point.Alike first second →
        ∀ scalar, Point.Alike (first.scale scalar) (second.scale scalar)
  sumInPlace (first second : Machine Place) :
    Machine.Agree curve.field.width operandPlaces first second →
      Machine.Agree curve.field.width ownPlaces
        (first.run curve.field sumProgram) (second.run curve.field sumProgram)
  doubleInPlace (first second : Machine Place) :
    Machine.Agree curve.field.width ownPlaces first second →
      Machine.Agree curve.field.width ownPlaces
        (first.run curve.field doubleProgram)
        (second.run curve.field doubleProgram)
  negInPlace (first second : Machine Place) :
    Machine.Agree curve.field.width ownPlaces first second →
      Machine.Agree curve.field.width ownPlaces
        (first.run curve.field negProgram) (second.run curve.field negProgram)

/--
The same operands give the same results on any temporaries, over any modulus
and on points of any coordinates.
-/
theorem operations_ignore_temporaries :
    (∀ context : Montgomery.Context, context.IgnoresTemporaries) ∧
      (∀ curve : Curve448.CurveContext, curve.IgnoresTemporaries) ∧
      ∀ curve : Ed448.CurveContext, curve.IgnoresTemporaries := by
  refine ⟨fun context => ?_, fun curve => ?_, fun curve => ?_⟩
  · exact {
      encodeWord := context.encodeWord_oblivious
      multiply := context.multiply_oblivious
      square := context.square_oblivious
      add := fun _ _ => context.correctSum_oblivious _
      addInPlace := fun _ _ => context.correctSum_oblivious _
      sub := fun _ _ => context.correctDifference_oblivious _
      subInPlace := fun _ _ => context.correctDifference_oblivious _
      inverse := context.inverse_oblivious
      registers := Machine.run_same_registers context }
  · exact {
      scale := fun _ _ _ alike => alike.scale
      scaleInPlace := fun _ _ => Curve448.agree_scaleInPlace }
  · exact {
      add := fun _ _ other workplace _ alike => alike.add other workplace
      double := fun _ _ _ alike => alike.double
      neg := fun _ _ _ alike => alike.neg
      scale := fun _ _ _ alike => alike.scale
      sumInPlace := fun _ _ agree =>
        (agree.run _).mono Ed448.sumProgram_settles
      doubleInPlace := fun _ _ agree =>
        (agree.run _).mono Ed448.doubleProgram_settles
      negInPlace := fun _ _ agree =>
        (agree.run _).mono Ed448.negProgram_settles }

/--
Modulo 97, a product and a multiple of a point are the same on fresh
temporaries and on temporaries that are full of ones.
-/
theorem operations_ignore_ones_modulo_ninetySeven :
    let field :=
      Montgomery.Context.ofModulus (Montgomery.Context.modulusOfBytes [97]) 1
    let curve : Curve448.CurveContext :=
      { identity := 0, field := field, a24 := [2] }
    let ones : Scratch := { accumulator := [1, 1, 1], difference := [1] }
    let fresh : Curve448.Point :=
      Curve448.Point.ofCoordinates curve { x := [60], z := [45] }
    let stale : Curve448.Point :=
      { fresh with
        workplace :=
          { a := [1], b := [1], c := [1], d := [1], e := [1], f := [1]
            x1 := [1], x3 := [1], z3 := [1], scratch := ones } }
    (StateT.run (field.multiply [60] [45]) ones).1 =
        (field.multiply [60] [45]).evaluate field.width ∧
      (stale.scale [5]).coordinates = (fresh.scale [5]).coordinates := by
  intro field curve ones fresh stale
  have alike : Curve448.Point.Alike stale fresh := ⟨rfl, rfl, rfl, rfl⟩
  constructor
  · exact ((operations_ignore_temporaries.1 field).multiply [60] [45]).same
      ones (Scratch.ofWidth field.width) rfl rfl
  · exact ((operations_ignore_temporaries.2.1 curve).scale stale fresh rfl alike
      [5]).coordinates

end ModularLadder
