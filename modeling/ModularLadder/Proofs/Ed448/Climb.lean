import Mathlib
import ModularLadder.Proofs.Ed448.Point
import ModularLadder.Proofs.Scalar

/-!
# Climbs on Ed448

After each bit of a scalar the two points of a climb stand for consecutive
multiples of the base.  The bits so far are the number of the smaller one, and
the last bit tells which of the points it is.  The next bit brings the points
into its own order, doubles one multiple and adds both.  No bit has
exceptions, so that the climb follows the multiples for every base and every
scalar.
-/

namespace ModularLadder.Ed448

/-- Two points are exchanged with their coordinates only. -/
theorem Point.Stands.swapIf
    {context : CurveContext}
    {left right : Point}
    {P Q : CurvePoint}
    (first : left.Stands context P)
    (second : right.Stands context Q)
    (condition : Bool) :
    let points := left.swapIf right (Choice.ofBool condition)
    points.1.Stands context (if condition then Q else P) ∧
      points.2.Stands context (if condition then P else Q) := by
  have exchanged :=
    Coordinates.swapIf_ofBool first.coordinates second.coordinates condition
  rw [Point.swapIf, exchanged]
  cases condition with
  | false =>
    exact
      ⟨⟨first.curve_eq, first.coordinates, first.room⟩,
        ⟨second.curve_eq, second.coordinates, second.room⟩⟩
  | true =>
    exact
      ⟨⟨first.curve_eq, second.coordinates, first.room⟩,
        ⟨second.curve_eq, first.coordinates, second.room⟩⟩

namespace Climb

/--
A climb whose points stand for consecutive multiples, the lower one for the
greater multiple if they are exchanged.
-/
structure Follows
    (context : CurveContext)
    (climb : Climb)
    (P : CurvePoint)
    (number : Nat)
    (exchanged : Bool) :
    Prop where
  exchanged_eq : climb.exchanged = Choice.ofBool exchanged
  lower : climb.lower.Stands context ((number + exchanged.toNat) • P)
  upper : climb.upper.Stands context ((number + (!exchanged).toNat) • P)

variable
  {context : CurveContext}
  {climb : Climb}
  {P : CurvePoint}
  {number : Nat}
  {exchanged : Bool}

/-- The points in the order that the next bit asks for. -/
theorem Follows.arranged
    (follows : climb.Follows context P number exchanged)
    (bit : Bool) :
    let points :=
      climb.lower.swapIf climb.upper (climb.exchanged ^^^ Choice.ofBool bit)
    points.1.Stands context ((number + bit.toNat) • P) ∧
      points.2.Stands context ((number + (!bit).toNat) • P) := by
  have points := follows.lower.swapIf follows.upper (exchanged ^^ bit)
  rw [← Choice.xor_ofBool, ← follows.exchanged_eq] at points
  cases exchanged <;> cases bit <;> exact points

/-- The points in their proper order. -/
theorem Follows.finish
    (follows : climb.Follows context P number exchanged) :
    climb.finish.Stands context (number • P) := by
  have points := follows.lower.swapIf follows.upper exchanged
  rw [← follows.exchanged_eq] at points
  cases exchanged <;> exact points.1

section

variable
  (sound : context.Sound)

include sound

/-- One bit doubles the number and adds the bit. -/
theorem Follows.next
    (follows : climb.Follows context P number exchanged)
    (bit : Bool) :
    (Climb.next context climb (Choice.ofBool bit)).Follows context P
      (2 * number + bit.toNat) bit := by
  rcases follows.arranged bit with ⟨lower, upper⟩
  have doubled := lower.double sound
  have sum := upper.update (sound.add upper.coordinates lower.coordinates)
  have lowerCount :
      number + bit.toNat + (number + bit.toNat) =
        2 * number + bit.toNat + bit.toNat := by
    omega
  have upperCount :
      number + (!bit).toNat + (number + bit.toNat) =
        2 * number + bit.toNat + (!bit).toNat := by
    omega
  rw [← add_nsmul, lowerCount] at doubled
  rw [← add_nsmul, upperCount] at sum
  exact ⟨rfl, doubled, sum⟩

/-- A climb along any bits reaches the number that the bits give. -/
theorem Follows.run
    (follows : climb.Follows context P number exchanged)
    (bits : List Bool) :
    ∃ last,
      ((bits.map Choice.ofBool).foldl (Climb.next context) climb).Follows
        context P (Scalar.climbed bits number) last := by
  induction bits generalizing climb number exchanged with
  | nil => exact ⟨exchanged, follows⟩
  | cons bit bits ih => exact ih (follows.next sound bit)

theorem follows_start
    {base : Point}
    (stands : base.Stands context P) :
    Follows context
      { lower := Point.neutral context
        upper := base
        exchanged := Choice.no }
      P 0 false := by
  refine ⟨rfl, ?_, ?_⟩
  · simpa using Point.stands_neutral sound
  · simpa using stands

end

end Climb

/-- Multiplication by a scalar is the multiple of the group. -/
theorem Point.Stands.scale
    {context : CurveContext}
    {point : Point}
    {P : CurvePoint}
    (sound : context.Sound)
    (stands : point.Stands context P)
    (scalar : Bytes) :
    (point.scale scalar).Stands context (scalar.bigEndianValue • P) := by
  rcases Scalar.exists_bits scalar with ⟨bits, bits_eq, climbed_eq⟩
  rcases (Climb.follows_start sound stands).run sound bits with ⟨last, follows⟩
  rw [climbed_eq, ← bits_eq, ← stands.curve_eq] at follows
  have multiple := follows.finish
  exact ⟨stands.curve_eq, multiple.coordinates, stands.room⟩

end ModularLadder.Ed448
