import Mathlib
import ModularLadder.Curve25519.Ladder
import ModularLadder.Proofs.ExactLadder
import ModularLadder.Proofs.Field25519.Encoding

/-!
# The ladder on Curve25519 stays within its bounds

The ladder is stated once more in a checked form, in which every sum verifies
that its operands are reduced, every other operation that its operands are
loose, and all arithmetic on limbs that nothing overflows.

One step from reduced coordinates passes all these checks and leaves reduced
coordinates, whose residues are those of the exact step.  Since exchanging
points moves coordinates only, the same is true of a climb along any bits.
-/

namespace ModularLadder.Curve25519

open Field25519 (Element Residue)

namespace Rungs

/-- The checked form of `step`. -/
def step? (x1 : Element) (rungs : Rungs) : Option Rungs := do
  let a ← rungs.x2.add? rungs.z2
  let aa ← a.square?
  let b ← rungs.x2.sub? rungs.z2
  let bb ← b.square?
  let e ← aa.sub? bb
  let c ← rungs.x3.add? rungs.z3
  let d ← rungs.x3.sub? rungs.z3
  let da ← d.mul? a
  let cb ← c.mul? b
  let crossSum ← da.add? cb
  let x3 ← crossSum.square?
  let crossDifference ← da.sub? cb
  let crossSquare ← crossDifference.square?
  let z3 ← x1.mul? crossSquare
  let x2 ← aa.mul? bb
  let scaled ← e.mulSmall? a24
  let slope ← aa.add? scaled
  let z2 ← e.mul? slope
  some { x2, z2, x3, z3 }

/-- All four coordinates have reduced limbs. -/
structure Reduced (rungs : Rungs) : Prop where
  x2 : rungs.x2.Reduced
  z2 : rungs.z2.Reduced
  x3 : rungs.x3.Reduced
  z3 : rungs.z3.Reduced

/-- The residues of the coordinates. -/
def residues (rungs : Rungs) : ExactLadder.Rungs Residue :=
  { x2 := rungs.x2.residue
    z2 := rungs.z2.residue
    x3 := rungs.x3.residue
    z3 := rungs.z3.residue }

section

variable
  {x1 : Element}
  {rungs : Rungs}

/-- A step from reduced coordinates is checked and exact. -/
theorem Reduced.step
    (reduced : rungs.Reduced)
    (base : x1.Loose) :
    step? x1 rungs = some (rungs.step x1) ∧
      (rungs.step x1).Reduced ∧
      (rungs.step x1).residues =
        rungs.residues.step (121665 : Residue) x1.residue := by
  rcases Element.add_checked reduced.x2 reduced.z2 with ⟨a_eq, aLoose, a⟩
  have aa := Element.square_computes aLoose
  rw [a] at aa
  have b := Element.sub_computes reduced.x2.loose reduced.z2.loose
  have bb := Element.square_computes b.loose
  rw [b.residue_eq] at bb
  have e := Element.sub_computes aa.loose bb.loose
  rw [aa.residue_eq, bb.residue_eq] at e
  rcases Element.add_checked reduced.x3 reduced.z3 with ⟨c_eq, cLoose, c⟩
  have d := Element.sub_computes reduced.x3.loose reduced.z3.loose
  have da := Element.mul_computes d.loose aLoose
  rw [d.residue_eq, a] at da
  have cb := Element.mul_computes cLoose b.loose
  rw [c, b.residue_eq] at cb
  rcases Element.add_checked da.reduced cb.reduced with
    ⟨crossSum_eq, crossSumLoose, crossSum⟩
  have x3 := Element.square_computes crossSumLoose
  rw [crossSum, da.residue_eq, cb.residue_eq] at x3
  have crossDifference := Element.sub_computes da.loose cb.loose
  have crossSquare := Element.square_computes crossDifference.loose
  have z3 := Element.mul_computes base crossSquare.loose
  rw [crossSquare.residue_eq, crossDifference.residue_eq, da.residue_eq,
    cb.residue_eq] at z3
  have x2 := Element.mul_computes aa.loose bb.loose
  rw [aa.residue_eq, bb.residue_eq] at x2
  have scaled := Element.mulSmall_computes e.loose a24
  rcases Element.add_checked aa.reduced scaled.reduced with
    ⟨slope_eq, slopeLoose, slope⟩
  have z2 := Element.mul_computes e.loose slopeLoose
  rw [slope, scaled.residue_eq, e.residue_eq, aa.residue_eq] at z2
  refine ⟨?_, ⟨x2.reduced, z2.reduced, x3.reduced, z3.reduced⟩, ?_⟩
  · rw [step?, Field25519.bind_result a_eq, aa.bind, b.bind, bb.bind, e.bind,
      Field25519.bind_result c_eq, d.bind, da.bind, cb.bind,
      Field25519.bind_result crossSum_eq, x3.bind, crossDifference.bind,
      crossSquare.bind, z3.bind, x2.bind, scaled.bind,
      Field25519.bind_result slope_eq, z2.bind]
    rfl
  · rw [ExactLadder.Rungs.step, mul_comm (121665 : Residue)]
    exact
      (ExactLadder.Rungs.mk.injEq ..).mpr
        ⟨x2.residue_eq, z2.residue_eq, x3.residue_eq, z3.residue_eq⟩

theorem Reduced.swapIf
    (reduced : rungs.Reduced)
    (condition : Bool) :
    (rungs.swapIf (Choice.ofBool condition)).Reduced ∧
      (rungs.swapIf (Choice.ofBool condition)).residues =
        rungs.residues.swapIf condition := by
  rw [Rungs.swapIf, Element.swapIf_ofBool, Element.swapIf_ofBool]
  cases condition with
  | false => exact ⟨reduced, rfl⟩
  | true => exact ⟨⟨reduced.x3, reduced.z3, reduced.x2, reduced.z2⟩, rfl⟩

theorem start_reduced
    (base : x1.Reduced) :
    (start x1).Reduced :=
  ⟨Element.reduced_one, Element.reduced_zero, base, Element.reduced_one⟩

theorem residues_start
    (x1 : Element) :
    (start x1).residues = ExactLadder.Rungs.start x1.residue := by
  simp [residues, start, ExactLadder.Rungs.start]

end

end Rungs

namespace Climb

/-- The checked form of `next`. -/
def next? (x1 : Element) (climb : Climb) (bit : Choice) : Option Climb := do
  let rungs ← (climb.rungs.swapIf (climb.exchanged ^^^ bit)).step? x1
  some { rungs := rungs, exchanged := bit }

/-- The checked form of `along`. -/
def along? (x1 : Element) (bits : List Choice) : Option Climb :=
  bits.foldlM (next? x1) { rungs := Rungs.start x1, exchanged := Choice.no }

/-- A climb from reduced coordinates that follows an exact one. -/
structure Follows
    (climb : Climb)
    (exact : ExactLadder.Climb Residue) :
    Prop where
  reduced : climb.rungs.Reduced
  residues_eq : climb.rungs.residues = exact.rungs
  exchanged_eq : climb.exchanged = Choice.ofBool exact.exchanged

section

variable
  {x1 : Element}
  {climb : Climb}
  {exact : ExactLadder.Climb Residue}

theorem Follows.next
    (follows : climb.Follows exact)
    (base : x1.Loose)
    (bit : Bool) :
    next? x1 climb (Choice.ofBool bit) =
        some (climb.next x1 (Choice.ofBool bit)) ∧
      (climb.next x1 (Choice.ofBool bit)).Follows
        (exact.next (121665 : Residue) x1.residue bit) := by
  rcases follows.reduced.swapIf (exact.exchanged ^^ bit) with
    ⟨swapped, swappedResidues⟩
  rcases swapped.step base with ⟨checked_eq, reduced, residues⟩
  rw [swappedResidues, follows.residues_eq] at residues
  have choice :
      climb.exchanged ^^^ Choice.ofBool bit =
        Choice.ofBool (exact.exchanged ^^ bit) := by
    rw [follows.exchanged_eq, Choice.xor_ofBool]
  rw [next?, Climb.next, choice]
  refine ⟨?_, reduced, residues, rfl⟩
  rw [Field25519.bind_result checked_eq]

/-- A climb along any bits is checked and follows the exact one. -/
theorem Follows.run
    (follows : climb.Follows exact)
    (base : x1.Loose)
    (bits : List Bool) :
    (bits.map Choice.ofBool).foldlM (next? x1) climb =
        some ((bits.map Choice.ofBool).foldl (Climb.next x1) climb) ∧
      ((bits.map Choice.ofBool).foldl (Climb.next x1) climb).Follows
        (bits.foldl
          (ExactLadder.Climb.next (121665 : Residue) x1.residue) exact) := by
  induction bits generalizing climb exact with
  | nil => exact ⟨rfl, follows⟩
  | cons bit bits ih =>
    rcases follows.next base bit with ⟨checked_eq, next⟩
    rw [List.map_cons, List.foldlM_cons, Field25519.bind_result checked_eq]
    exact ih next

theorem follows_start
    (base : x1.Reduced) :
    Follows { rungs := Rungs.start x1, exchanged := Choice.no }
      { rungs := ExactLadder.Rungs.start x1.residue, exchanged := false } :=
  ⟨Rungs.start_reduced base, Rungs.residues_start x1, rfl⟩

/-- Every climb from a reduced base is checked and stays reduced. -/
theorem along_follows
    (base : x1.Reduced)
    (bits : List Bool) :
    along? x1 (bits.map Choice.ofBool) =
        some (along x1 (bits.map Choice.ofBool)) ∧
      (along x1 (bits.map Choice.ofBool)).Follows
        (ExactLadder.Climb.along (121665 : Residue) x1.residue bits) :=
  (follows_start base).run base.loose bits

theorem Follows.finish
    (follows : climb.Follows exact) :
    climb.finish.Reduced ∧ climb.finish.residues = exact.finish := by
  rw [Climb.finish, ExactLadder.Climb.finish, follows.exchanged_eq,
    ← follows.residues_eq]
  exact follows.reduced.swapIf exact.exchanged

end

end Climb

/-- The checked form of `ladder`. -/
def ladder? (x1 : Element) (bits : List Choice) : Option Rungs := do
  let climb ← Climb.along? x1 bits
  some climb.finish

/-- The ladder from a reduced base, along any bits. -/
theorem ladder_exact
    {x1 : Element}
    (base : x1.Reduced)
    (bits : List Bool) :
    ladder? x1 (bits.map Choice.ofBool) =
        some (ladder x1 (bits.map Choice.ofBool)) ∧
      (ladder x1 (bits.map Choice.ofBool)).Reduced ∧
      (ladder x1 (bits.map Choice.ofBool)).residues =
        ExactLadder.ladder (121665 : Residue) x1.residue bits := by
  rcases Climb.along_follows base bits with ⟨checked_eq, follows⟩
  refine ⟨?_, follows.finish⟩
  rw [ladder?, Field25519.bind_result checked_eq]
  rfl

end ModularLadder.Curve25519
