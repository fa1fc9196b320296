import Mathlib
import ModularLadder.Proofs.Field448.Element

/-!
# Computations on temporaries that hold a scratch area

The operations on points run on temporaries of their own kind, of which the
scratch area of the field is one part.  What is known of such temporaries
beforehand is a predicate that asks for a fitting scratch area and does not
mind what the field's operations leave in it: a room for these operations.

A computation in a room is followed from one operation to the next.  Each
operation of the field answers with the form of a residue, and leaves the room
as it was for what comes after it.
-/

namespace ModularLadder.Field448

open Montgomery (ScratchM Scratch)

/-- Knowledge of temporaries that the operations of the field do not lose. -/
structure Room (Workplace : Type) [HoldsScratch Workplace] where
  holds : Workplace → Prop
  fits : ∀ workplace, holds workplace →
    (HoldsScratch.scratch workplace).Fits width
  keeps : ∀ workplace (scratch : Scratch),
    holds workplace →
      scratch.Fits width →
      holds (HoldsScratch.putScratch scratch workplace)

/--
In the room the computation has a result, and leaves temporaries, with the
property.
-/
def Room.Ensures
    {Workplace α : Type}
    [HoldsScratch Workplace]
    (room : Room Workplace)
    (computation : StateM Workplace α)
    (after : α → Workplace → Prop) :
    Prop :=
  ∀ workplace : Workplace,
    room.holds workplace →
      after (StateT.run computation workplace).1
        (StateT.run computation workplace).2

variable
  {Workplace α β : Type}
  [HoldsScratch Workplace]
  {room : Room Workplace}
  {after : β → Workplace → Prop}

/-- An operation of the field, and what follows it. -/
theorem Yields.bind
    {operation : ScratchM Words}
    {x : Residue}
    {next : Words → StateM Workplace β}
    (yields : Yields operation x)
    (rest : ∀ number, IsForm number x → room.Ensures (next number) after) :
    room.Ensures (onScratch operation >>= next) after := by
  intro workplace holds
  rcases yields _ (room.fits workplace holds) with ⟨form, fits⟩
  exact rest _ form _ (room.keeps workplace _ holds fits)

/-- An operation of the field on its own. -/
theorem Yields.ensures
    {operation : ScratchM Words}
    {x : Residue}
    (yields : Yields operation x) :
    room.Ensures (onScratch operation) fun number workplace =>
      IsForm number x ∧ room.holds workplace := by
  intro workplace holds
  rcases yields _ (room.fits workplace holds) with ⟨form, fits⟩
  exact ⟨form, room.keeps workplace _ holds fits⟩

namespace Room.Ensures

theorem pure
    {value : β}
    (result : ∀ workplace, room.holds workplace → after value workplace) :
    room.Ensures (Pure.pure value) after := by
  intro workplace holds
  exact result workplace holds

theorem mono
    {computation : StateM Workplace β}
    {weaker : β → Workplace → Prop}
    (ensures : room.Ensures computation after)
    (implies :
      ∀ value workplace, after value workplace → weaker value workplace) :
    room.Ensures computation weaker := by
  intro workplace holds
  exact implies _ _ (ensures workplace holds)

/-- A computation that leaves another room for what follows it. -/
theorem bind
    {computation : StateM Workplace α}
    {next : α → StateM Workplace β}
    {answer : α → Prop}
    (left : Room Workplace)
    (first :
      room.Ensures computation fun value workplace =>
        answer value ∧ left.holds workplace)
    (rest : ∀ value, answer value → left.Ensures (next value) after) :
    room.Ensures (computation >>= next) after := by
  intro workplace holds
  rcases first workplace holds with ⟨answers, leaves⟩
  exact rest _ answers _ leaves

/-- A change of the temporaries that makes another room. -/
theorem modify_bind
    {change : Workplace → Workplace}
    {next : PUnit → StateM Workplace β}
    (left : Room Workplace)
    (leaves :
      ∀ workplace, room.holds workplace → left.holds (change workplace))
    (rest : left.Ensures (next ⟨⟩) after) :
    room.Ensures (modify change >>= next) after := by
  intro workplace holds
  exact rest _ (leaves workplace holds)

/-- A look at the temporaries. -/
theorem get_bind
    {next : Workplace → StateM Workplace β}
    (rest :
      ∀ workplace, room.holds workplace → room.Ensures (next workplace) after) :
    room.Ensures (get >>= next) after := by
  intro workplace holds
  exact rest workplace holds workplace holds

/-- Temporaries that are put in place of the former ones. -/
theorem set_bind
    {workplace : Workplace}
    {next : PUnit → StateM Workplace β}
    (left : Room Workplace)
    (leaves : left.holds workplace)
    (rest : left.Ensures (next ⟨⟩) after) :
    room.Ensures (set workplace >>= next) after := by
  intro _ _
  exact rest workplace leaves

end Room.Ensures

end ModularLadder.Field448
