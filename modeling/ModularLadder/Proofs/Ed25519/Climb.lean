import Mathlib
import ModularLadder.Proofs.Ed25519.Point
import ModularLadder.Proofs.Scalar

/-!
# Climbs on Ed25519

After each bit of a scalar the two points of a climb, in their proper order,
stand for consecutive multiples of the base: the lower one for the number that
the bits have given so far.  The next bit doubles one of the two multiples and
adds both.  These operations have no exceptions and pass their checks, so that
the climb follows the multiples for every base and every scalar.
-/

namespace ModularLadder.Ed25519

namespace Climb

/-- The checked form of `next`. -/
def next? (climb : Climb) (bit : Choice) : Option Climb := do
  let points := climb.lower.swapIf climb.upper (climb.exchanged ^^^ bit)
  let lower ← points.1.double?
  let upper ← points.2.add? points.1
  some { lower := lower, upper := upper, exchanged := bit }

/-- The checked form of `along`. -/
def along? (base : Point) (bits : List Choice) : Option Climb :=
  bits.foldlM next?
    { lower := Point.neutral, upper := base, exchanged := Choice.no }

/--
A climb whose points, in their proper order, stand for consecutive multiples.
-/
structure Follows
    (climb : Climb)
    (P : curve.Point)
    (number : Nat)
    (exchanged : Bool) :
    Prop where
  exchanged_eq : climb.exchanged = Choice.ofBool exchanged
  lower : (if exchanged then climb.upper else climb.lower).Stands (number • P)
  upper :
    (if exchanged then climb.lower else climb.upper).Stands ((number + 1) • P)

variable
  {climb : Climb}
  {P : curve.Point}
  {number : Nat}
  {exchanged : Bool}

/-- The points in the order that the next bit asks for. -/
theorem Follows.arranged
    (follows : climb.Follows P number exchanged)
    (bit : Bool) :
    let points :=
      climb.lower.swapIf climb.upper (climb.exchanged ^^^ Choice.ofBool bit)
    points.1.Stands ((number + bit.toNat) • P) ∧
      points.2.Stands ((number + (!bit).toNat) • P) := by
  rcases follows with ⟨exchanged_eq, lower, upper⟩
  rw [exchanged_eq, Choice.xor_ofBool, Point.swapIf_ofBool]
  cases exchanged <;> cases bit
  · exact ⟨lower, upper⟩
  · exact ⟨upper, lower⟩
  · exact ⟨lower, upper⟩
  · exact ⟨upper, lower⟩

/-- One bit doubles the number and adds the bit. -/
theorem Follows.next
    (follows : climb.Follows P number exchanged)
    (bit : Bool) :
    climb.next? (Choice.ofBool bit) = some (climb.next (Choice.ofBool bit)) ∧
      (climb.next (Choice.ofBool bit)).Follows P (2 * number + bit.toNat)
        bit := by
  rcases follows.arranged bit with ⟨first, second⟩
  rcases first.double with ⟨double_eq, doubled⟩
  rcases second.add first with ⟨add_eq, sum⟩
  have total :
      number + (!bit).toNat + (number + bit.toNat) = 2 * number + 1 := by
    cases bit <;> simp only [Bool.not_false, Bool.not_true, Bool.toNat_false,
      Bool.toNat_true] <;> omega
  rw [← add_nsmul, ← two_mul] at doubled
  rw [← add_nsmul, total] at sum
  constructor
  · rw [next?, Field25519.bind_result double_eq,
      Field25519.bind_result add_eq]
    rfl
  · cases bit with
    | false => exact ⟨rfl, doubled, sum⟩
    | true => exact ⟨rfl, sum, doubled⟩

/-- A climb along any bits reaches the number that the bits give. -/
theorem Follows.run
    (follows : climb.Follows P number exchanged)
    (bits : List Bool) :
    ∃ last,
      (bits.map Choice.ofBool).foldlM next? climb =
          some ((bits.map Choice.ofBool).foldl Climb.next climb) ∧
        ((bits.map Choice.ofBool).foldl Climb.next climb).Follows P
          (Scalar.climbed bits number) last := by
  induction bits generalizing climb number exchanged with
  | nil => exact ⟨exchanged, rfl, follows⟩
  | cons bit bits ih =>
    rcases follows.next bit with ⟨checked_eq, next⟩
    rw [List.map_cons, List.foldlM_cons, Field25519.bind_result checked_eq]
    exact ih next

theorem follows_start
    {base : Point}
    (stands : base.Stands P) :
    Follows { lower := Point.neutral, upper := base, exchanged := Choice.no }
      P 0 false := by
  refine ⟨rfl, ?_, ?_⟩
  · rw [zero_nsmul]
    exact Point.stands_neutral
  · rw [zero_add, one_nsmul]
    exact stands

theorem Follows.finish
    (follows : climb.Follows P number exchanged) :
    climb.finish.Stands (number • P) := by
  rcases follows with ⟨exchanged_eq, lower, -⟩
  rw [Climb.finish, exchanged_eq, Point.swapIf_ofBool]
  cases exchanged <;> exact lower

end Climb

/-- The checked form of `scale`. -/
def Point.scale? (point : Point) (scalar : Bytes) : Option Point := do
  let climb ← Climb.along? point (Scalar.bits scalar)
  some climb.finish

/-- Multiplication by a scalar is the multiple of the group. -/
theorem Point.Stands.scale
    {point : Point}
    {P : curve.Point}
    (stands : point.Stands P)
    (scalar : Bytes) :
    Computes (point.scale? scalar) (point.scale scalar)
      (scalar.bigEndianValue • P) := by
  rcases Scalar.exists_bits scalar with ⟨bits, bits_eq, climbed_eq⟩
  rcases (Climb.follows_start stands).run bits with
    ⟨last, checked_eq, follows⟩
  rw [← bits_eq] at checked_eq follows
  rw [climbed_eq] at follows
  constructor
  · rw [Point.scale?, Climb.along?, Field25519.bind_result checked_eq]
    rfl
  · exact follows.finish

end ModularLadder.Ed25519
