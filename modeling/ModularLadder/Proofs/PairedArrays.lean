import Mathlib
import ModularLadder.Field25519.Element
import ModularLadder.Words.Selection

/-!
# Masked selection in place

Selection between long numbers and between elements is stated on whole numbers.
It is carried out on two arrays, place after place: the entries of one place are
read and overwritten before the next place is looked at, and the second entry
is overwritten while the first one is still needed.

A loop of this kind is followed here for any body.  Below the place that comes
next, all entries are what the body makes of the entries that were there at the
start; from that place on, nothing has changed.  After the last place both
arrays have been replaced at once, and for the bodies that select, assign and
exchange by a choice this is what the operations on whole numbers say.
-/

namespace ModularLadder

/-! ## Loops over pairs of entries -/

/-- Two arrays that are changed side by side. -/
@[ext]
structure PairedArrays (α β : Type) where
  left : List α
  right : List β
  deriving DecidableEq, Repr

namespace PairedArrays

variable {α β : Type}

/-- Both entries of a place are replaced, where there are two. -/
def turnAt
    (body : α → β → α × β)
    (arrays : PairedArrays α β)
    (place : Nat) :
    PairedArrays α β :=
  match arrays.left[place]?, arrays.right[place]? with
  | some left, some right =>
    { left := arrays.left.set place (body left right).1
      right := arrays.right.set place (body left right).2 }
  | _, _ => arrays

/-- The entries of the first places are replaced, one place after the other. -/
def turn
    (body : α → β → α × β)
    (arrays : PairedArrays α β) :
    (count : Nat) →
    PairedArrays α β
  | 0 => arrays
  | count + 1 => (turn body arrays count).turnAt body count

/-- All entries are replaced at once. -/
def mapPairs
    (body : α → β → α × β)
    (arrays : PairedArrays α β) :
    PairedArrays α β :=
  { left := arrays.left.zipWith (fun left right => (body left right).1)
      arrays.right
    right := arrays.left.zipWith (fun left right => (body left right).2)
      arrays.right }

/-- Below the count an array has its new entries, and from there its old ones. -/
def ReplacedBelow
    (before after now : List α)
    (count : Nat) :
    Prop :=
  ∀ place : Nat,
    now[place]? = if place < count then after[place]? else before[place]?

/-- Both arrays are replaced below the count. -/
structure Progress
    (body : α → β → α × β)
    (start now : PairedArrays α β)
    (count : Nat) :
    Prop where
  left :
    ReplacedBelow start.left (start.mapPairs body).left now.left count
  right :
    ReplacedBelow start.right (start.mapPairs body).right now.right count

namespace ReplacedBelow

variable
  {before after now : List α}
  {count : Nat}

theorem refl
    (before after : List α) :
    ReplacedBelow before after before 0 := by
  intro place
  rfl

/-- At the count itself the old entry is still there. -/
theorem unread
    (below : ReplacedBelow before after now count) :
    now[count]? = before[count]? := by
  simpa using below count

/-- Writing the new entry at the count concerns no other place. -/
theorem set
    (below : ReplacedBelow before after now count)
    {entry : α}
    (replaced : after[count]? = some entry)
    (inside : count < now.length) :
    ReplacedBelow before after (now.set count entry) (count + 1) := by
  intro place
  rcases eq_or_ne place count with rfl | other
  · simp [replaced, inside]
  · have bound : place < count + 1 ↔ place < count := by
      omega
    simp only [List.getElem?_set_ne other.symm, below place, bound]

/-- Once all places are below the count, no old entry is left. -/
theorem finish
    (below : ReplacedBelow before after now before.length)
    (sameLength : after.length = before.length) :
    now = after := by
  apply List.ext_getElem?
  intro place
  rw [below place]
  split
  case isTrue => rfl
  case isFalse outside =>
    have beyond : before.length ≤ place := Nat.le_of_not_lt outside
    rw [List.getElem?_eq_none beyond,
      List.getElem?_eq_none (sameLength.trans_le beyond)]

end ReplacedBelow

variable
  {body : α → β → α × β}
  {start now : PairedArrays α β}
  {count : Nat}

theorem turnAt_of_entries
    {place : Nat}
    {left : α}
    {right : β}
    (leftEntry : now.left[place]? = some left)
    (rightEntry : now.right[place]? = some right) :
    now.turnAt body place =
      { left := now.left.set place (body left right).1
        right := now.right.set place (body left right).2 } := by
  simp only [turnAt, leftEntry, rightEntry]

theorem mapPairs_of_entries
    (body : α → β → α × β)
    {place : Nat}
    {left : α}
    {right : β}
    (leftEntry : start.left[place]? = some left)
    (rightEntry : start.right[place]? = some right) :
    (start.mapPairs body).left[place]? = some (body left right).1 ∧
      (start.mapPairs body).right[place]? = some (body left right).2 := by
  simp [mapPairs, List.getElem?_zipWith, leftEntry, rightEntry]

namespace Progress

/-- The turn at the next place reads what the start has there. -/
theorem next
    (progress : Progress body start now count)
    (inside : count < start.left.length)
    (sameLength : start.right.length = start.left.length) :
    Progress body start (now.turnAt body count) (count + 1) := by
  obtain ⟨left, leftStart⟩ : ∃ left, start.left[count]? = some left :=
    ⟨_, List.getElem?_eq_getElem inside⟩
  obtain ⟨right, rightStart⟩ : ∃ right, start.right[count]? = some right :=
    ⟨_, List.getElem?_eq_getElem (sameLength ▸ inside)⟩
  have leftNow : now.left[count]? = some left :=
    progress.left.unread.trans leftStart
  have rightNow : now.right[count]? = some right :=
    progress.right.unread.trans rightStart
  obtain ⟨leftFits, -⟩ := List.getElem?_eq_some_iff.1 leftNow
  obtain ⟨rightFits, -⟩ := List.getElem?_eq_some_iff.1 rightNow
  have replaced := mapPairs_of_entries body leftStart rightStart
  rw [turnAt_of_entries leftNow rightNow]
  constructor
  case left => exact progress.left.set replaced.1 leftFits
  case right => exact progress.right.set replaced.2 rightFits

/-- Every turn keeps the progress, by induction on the places. -/
theorem turn
    (sameLength : start.right.length = start.left.length)
    (inside : count ≤ start.left.length) :
    Progress body start (start.turn body count) count := by
  induction count with
  | zero =>
    constructor
    case left => exact ReplacedBelow.refl start.left _
    case right => exact ReplacedBelow.refl start.right _
  | succ count progress =>
    exact
      (progress (Nat.le_of_succ_le inside)).next (Nat.lt_of_succ_le inside)
        sameLength

/-- After the last place nothing is left of the start. -/
theorem finish
    (progress : Progress body start now start.left.length)
    (sameLength : start.right.length = start.left.length) :
    now = start.mapPairs body := by
  have right := progress.right
  rw [← sameLength] at right
  apply PairedArrays.ext
  case left => exact progress.left.finish (by simp [mapPairs, sameLength])
  case right => exact right.finish (by simp [mapPairs, sameLength])

end Progress

/-- The loop over all places replaces all entries. -/
theorem turn_eq_mapPairs
    (body : α → β → α × β)
    (start : PairedArrays α β)
    (sameLength : start.right.length = start.left.length) :
    start.turn body start.left.length = start.mapPairs body :=
  (Progress.turn sameLength le_rfl).finish sameLength

end PairedArrays

/-! ## Selection by a choice -/

namespace Choice

/-- A word that is overwritten by one of two words. -/
def selectEntry
    (choice : Choice)
    (_destination : Word)
    (operands : Word × Word) :
    Word × (Word × Word) :=
  (choice.select operands.1 operands.2, operands)

/-- A word that is overwritten by another one if the choice is set. -/
def assignEntry
    (choice : Choice)
    (number replacement : Word) :
    Word × Word :=
  (choice.select number replacement, replacement)

/-- Two words exchanged: the second one is overwritten first. -/
def swapEntries
    (choice : Choice)
    (first second : Word) :
    Word × Word := Id.run do
  let mut left := first
  let mut right := second
  let kept := choice.select left right
  right := choice.select right left
  left := kept
  return (left, right)

/-- A limb that is overwritten by another one if the choice is set. -/
def assignLimb
    (choice : Choice)
    (limb replacement : UInt32) :
    UInt32 × UInt32 :=
  (choice.select32 limb replacement, replacement)

/-- Two limbs exchanged, by adding the masked difference to both. -/
def swapLimbs
    (choice : Choice)
    (first second : UInt32) :
    UInt32 × UInt32 := Id.run do
  let mut left := first
  let mut right := second
  let difference := choice.select32 0 (left ^^^ right)
  left := left ^^^ difference
  right := right ^^^ difference
  return (left, right)

end Choice

namespace Words

variable (choice : Choice)

theorem turn_selectEntry
    (destination unset set : Words)
    (unsetWidth : unset.length = destination.length)
    (setWidth : set.length = destination.length) :
    (PairedArrays.turn choice.selectEntry
        { left := destination, right := unset.zip set }
        destination.length).left =
      select unset set choice := by
  have sameLength : (unset.zip set).length = destination.length := by
    simp [unsetWidth, setWidth]
  rw [PairedArrays.turn_eq_mapPairs choice.selectEntry _ sameLength]
  apply List.ext_getElem
  · simp [PairedArrays.mapPairs, select, unsetWidth, setWidth]
  · intro place _ _
    simp [PairedArrays.mapPairs, select, Choice.selectEntry]

theorem turn_assignEntry
    (number replacement : Words)
    (sameWidth : replacement.length = number.length) :
    (PairedArrays.turn choice.assignEntry
        { left := number, right := replacement } number.length).left =
      assignIf number replacement choice := by
  rw [PairedArrays.turn_eq_mapPairs choice.assignEntry _ sameWidth]
  rfl

theorem turn_swapEntries
    (left right : Words)
    (sameWidth : right.length = left.length) :
    PairedArrays.turn choice.swapEntries
        { left := left, right := right } left.length =
      { left := (swapIf left right choice).1
        right := (swapIf left right choice).2 } := by
  rw [PairedArrays.turn_eq_mapPairs choice.swapEntries _ sameWidth]
  apply PairedArrays.ext
  case left => rfl
  case right => exact List.zipWith_comm

end Words

namespace Field25519.Element

variable (choice : Choice)

theorem turn_assignLimb
    (x replacement : Element) :
    (PairedArrays.turn choice.assignLimb
        { left := x.toList, right := replacement.toList } 10).left =
      (x.assignIf replacement choice).toList := by
  have replaced :=
    PairedArrays.turn_eq_mapPairs choice.assignLimb
      { left := x.toList, right := replacement.toList } rfl
  exact congrArg PairedArrays.left replaced

theorem turn_swapLimbs
    (x y : Element) :
    PairedArrays.turn choice.swapLimbs
        { left := x.toList, right := y.toList } 10 =
      { left := (x.swapIf y choice).1.toList
        right := (x.swapIf y choice).2.toList } :=
  PairedArrays.turn_eq_mapPairs choice.swapLimbs
    { left := x.toList, right := y.toList } rfl

end Field25519.Element

end ModularLadder
