import Mathlib
import ModularLadder.Proofs.Choice
import ModularLadder.Proofs.Field25519.Encoding
import ModularLadder.Proofs.PairedArrays

/-!
# Whatever a program makes of choices decides

A choice is made from a word that may or may not be zero, from a word that is
zero or one, or as the one that nothing has set.  It is combined with others
by the connectives, and two of these also act on a variable in place.  Programs
of such expressions and assignments are evaluated twice: on masks, as the
program does it, and on truth values.

The two evaluations agree in every variable at every time, because each mask
is the mask of its truth value.  Such a mask is never partial.  All selections
by it, of whatever width and length, give one of the alternatives and nothing
in between, on whole numbers and when the entries are overwritten one by one.
-/

namespace ModularLadder.Choice

open Field25519 (Element)

/-! ## Expressions and assignments -/

/-- How a choice is made from words and from the choices held by variables. -/
inductive Expression (Variable : Type) where
  | ofNonzero (word : Word)
  | ofBit (bit : Word) (isBit : bit = 0 ∨ bit = 1)
  | unset
  | held (name : Variable)
  | not (inner : Expression Variable)
  | and (left right : Expression Variable)
  | or (left right : Expression Variable)
  | xor (left right : Expression Variable)

/-- A variable takes a choice, or is combined with it in place. -/
inductive Assignment (Variable : Type) where
  | set (target : Variable) (source : Expression Variable)
  | andInto (target : Variable) (source : Expression Variable)
  | orInto (target : Variable) (source : Expression Variable)

variable {Variable : Type}

namespace Expression

/-- The choice that an expression makes, as a mask. -/
def choice (choices : Variable → Choice) : Expression Variable → Choice
  | ofNonzero word => Choice.ofNonzero word
  | ofBit bit _ => Choice.ofBit bit
  | unset => default
  | held name => choices name
  | not inner => ~~~inner.choice choices
  | and left right => left.choice choices &&& right.choice choices
  | or left right => left.choice choices ||| right.choice choices
  | xor left right => left.choice choices ^^^ right.choice choices

/-- The truth value that an expression is meant to have. -/
def truth (truths : Variable → Bool) : Expression Variable → Bool
  | ofNonzero word => word != 0
  | ofBit bit _ => bit == 1
  | unset => false
  | held name => truths name
  | not inner => !inner.truth truths
  | and left right => left.truth truths && right.truth truths
  | or left right => left.truth truths || right.truth truths
  | xor left right => left.truth truths ^^ right.truth truths

end Expression

/-- Every variable holds the choice of its truth value. -/
def Denote (choices : Variable → Choice) (truths : Variable → Bool) : Prop :=
  ∀ name, choices name = ofBool (truths name)

/-- A word that is zero or one makes the choice of whether it is one. -/
theorem ofBit_eq_beq
    {bit : Word}
    (isBit : bit = 0 ∨ bit = 1) :
    ofBit bit = ofBool (bit == 1) := by
  rcases isBit with rfl | rfl <;> rfl

theorem ofNonzero_eq_bne
    (word : Word) :
    ofNonzero word = ofBool (word != 0) := by
  rw [ofNonzero_eq]
  congr 1
  simp [bne, beq_eq_decide]

namespace Denote

variable
  {choices : Variable → Choice}
  {truths : Variable → Bool}

/-- At the start no variable is set. -/
theorem start :
    Denote (fun _ : Variable => default) fun _ => false := by
  intro name
  rfl

/-- The mask of an expression is the mask of its truth value. -/
theorem expression
    (denote : Denote choices truths)
    (source : Expression Variable) :
    source.choice choices = ofBool (source.truth truths) := by
  induction source with
  | ofNonzero word => exact ofNonzero_eq_bne word
  | ofBit bit isBit => exact ofBit_eq_beq isBit
  | unset => rfl
  | held name => exact denote name
  | not inner unmixed =>
    simp only [Expression.choice, Expression.truth, unmixed, not_ofBool]
  | and left right first second =>
    simp only [Expression.choice, Expression.truth, first, second, and_ofBool]
  | or left right first second =>
    simp only [Expression.choice, Expression.truth, first, second, or_ofBool]
  | xor left right first second =>
    simp only [Expression.choice, Expression.truth, first, second, xor_ofBool]

end Denote

/-! ## Programs -/

variable [DecidableEq Variable]

namespace Assignment

/-- The variables after an assignment of masks. -/
def choices
    (held : Variable → Choice) :
    Assignment Variable →
    Variable →
    Choice
  | set target source => Function.update held target (source.choice held)
  | andInto target source =>
    Function.update held target (held target &&& source.choice held)
  | orInto target source =>
    Function.update held target (held target ||| source.choice held)

/-- The variables after an assignment of truth values. -/
def truths
    (held : Variable → Bool) :
    Assignment Variable →
    Variable →
    Bool
  | set target source => Function.update held target (source.truth held)
  | andInto target source =>
    Function.update held target (held target && source.truth held)
  | orInto target source =>
    Function.update held target (held target || source.truth held)

end Assignment

/-- The masks that a program leaves, with no variable set at the start. -/
def choicesAfter (program : List (Assignment Variable)) : Variable → Choice :=
  program.foldl Assignment.choices fun _ => default

/-- The truth values that a program leaves. -/
def truthsAfter (program : List (Assignment Variable)) : Variable → Bool :=
  program.foldl Assignment.truths fun _ => false

namespace Denote

variable
  {choices : Variable → Choice}
  {truths : Variable → Bool}

theorem update
    (denote : Denote choices truths)
    (target : Variable)
    (value : Bool) :
    Denote (Function.update choices target (ofBool value))
      (Function.update truths target value) := by
  intro name
  rcases eq_or_ne name target with rfl | other
  · simp only [Function.update_self]
  · simp only [Function.update_of_ne other, denote name]

/-- An assignment keeps what the variables denote, those in place included. -/
theorem assignment
    (denote : Denote choices truths)
    (step : Assignment Variable) :
    Denote (step.choices choices) (step.truths truths) := by
  cases step with
  | set target source =>
    simp only [Assignment.choices, Assignment.truths,
      denote.expression source]
    exact denote.update target _
  | andInto target source =>
    simp only [Assignment.choices, Assignment.truths,
      denote.expression source, denote target, and_ofBool]
    exact denote.update target _
  | orInto target source =>
    simp only [Assignment.choices, Assignment.truths,
      denote.expression source, denote target, or_ofBool]
    exact denote.update target _

/-- A program keeps what the variables denote, by induction on its steps. -/
theorem program
    (denote : Denote choices truths)
    (steps : List (Assignment Variable)) :
    Denote (steps.foldl Assignment.choices choices)
      (steps.foldl Assignment.truths truths) := by
  induction steps generalizing choices truths with
  | nil => exact denote
  | cons step steps continued => exact continued (denote.assignment step)

end Denote

/-! ## What a mask decides -/

/--
A mask that is all zeros or all ones, as the condition says, and by which every
selection gives the first alternative or the second one.
-/
structure Decides (choice : Choice) (condition : Bool) : Prop where
  mask : choice.mask = if condition then ~~~0 else 0
  isSet : choice.isSet = condition
  word (unset set : Word) :
    choice.select unset set = if condition then set else unset
  limb (unset set : UInt32) :
    choice.select32 unset set = if condition then set else unset
  byte (unset set : UInt8) :
    choice.select8 unset set = if condition then set else unset
  selected
    (unset set : Words)
    (sameWidth : set.length = unset.length) :
    Words.select unset set choice = if condition then set else unset
  assigned
    (number replacement : Words)
    (sameWidth : replacement.length = number.length) :
    Words.assignIf number replacement choice =
      if condition then replacement else number
  exchanged
    (left right : Words)
    (sameWidth : right.length = left.length) :
    Words.swapIf left right choice =
      if condition then (right, left) else (left, right)
  elementAssigned (x replacement : Element) :
    x.assignIf replacement choice = if condition then replacement else x
  elementsExchanged (x y : Element) :
    x.swapIf y choice = if condition then (y, x) else (x, y)

/--
Selections that overwrite arrays entry by entry leave them as the condition
says: the alternative wanted, or both numbers in the other order.
-/
structure DecidesInPlace (choice : Choice) (condition : Bool) : Prop where
  selected
    (destination unset set : Words)
    (unsetWidth : unset.length = destination.length)
    (setWidth : set.length = destination.length) :
    (PairedArrays.turn choice.selectEntry
        { left := destination, right := unset.zip set }
        destination.length).left =
      if condition then set else unset
  assigned
    (number replacement : Words)
    (sameWidth : replacement.length = number.length) :
    (PairedArrays.turn choice.assignEntry
        { left := number, right := replacement } number.length).left =
      if condition then replacement else number
  exchanged
    (left right : Words)
    (sameWidth : right.length = left.length) :
    PairedArrays.turn choice.swapEntries
        { left := left, right := right } left.length =
      if condition then { left := right, right := left }
      else { left := left, right := right }
  elementAssigned (x replacement : Element) :
    (PairedArrays.turn choice.assignLimb
        { left := x.toList, right := replacement.toList } 10).left =
      if condition then replacement.toList else x.toList
  elementsExchanged (x y : Element) :
    PairedArrays.turn choice.swapLimbs
        { left := x.toList, right := y.toList } 10 =
      if condition then { left := y.toList, right := x.toList }
      else { left := x.toList, right := y.toList }

theorem decides_ofBool
    (condition : Bool) :
    Decides (ofBool condition) condition := by
  constructor
  case mask => exact mask_ofBool condition
  case isSet => exact isSet_ofBool condition
  case word => exact select_ofBool condition
  case limb => exact select32_ofBool condition
  case byte => exact select8_ofBool condition
  case selected =>
    intro unset set sameWidth
    exact Words.select_ofBool unset set condition sameWidth
  case assigned =>
    intro number replacement sameWidth
    exact Words.assignIf_ofBool number replacement condition sameWidth
  case exchanged =>
    intro left right sameWidth
    exact Words.swapIf_ofBool left right condition sameWidth
  case elementAssigned =>
    intro x replacement
    exact Element.assignIf_ofBool x replacement condition
  case elementsExchanged =>
    intro x y
    exact Element.swapIf_ofBool x y condition

/-- Entries that are overwritten in place end as the whole numbers do. -/
theorem Decides.inPlace
    {choice : Choice}
    {condition : Bool}
    (decides : Decides choice condition) :
    DecidesInPlace choice condition := by
  constructor
  case selected =>
    intro destination unset set unsetWidth setWidth
    rw [Words.turn_selectEntry choice destination unset set unsetWidth
      setWidth]
    exact decides.selected unset set (setWidth.trans unsetWidth.symm)
  case assigned =>
    intro number replacement sameWidth
    rw [Words.turn_assignEntry choice number replacement sameWidth]
    exact decides.assigned number replacement sameWidth
  case exchanged =>
    intro left right sameWidth
    rw [Words.turn_swapEntries choice left right sameWidth,
      decides.exchanged left right sameWidth]
    cases condition <;> rfl
  case elementAssigned =>
    intro x replacement
    rw [Element.turn_assignLimb, decides.elementAssigned]
    cases condition <;> rfl
  case elementsExchanged =>
    intro x y
    rw [Element.turn_swapLimbs, decides.elementsExchanged]
    cases condition <;> rfl

/--
Whatever a program has made of choices, every variable decides as its truth
value says.
-/
theorem programs_decide
    (program : List (Assignment Variable))
    (name : Variable) :
    Decides (choicesAfter program name) (truthsAfter program name) ∧
      DecidesInPlace (choicesAfter program name)
        (truthsAfter program name) := by
  have denoted :
      choicesAfter program name = ofBool (truthsAfter program name) :=
    Denote.start.program program name
  have decides :
      Decides (choicesAfter program name) (truthsAfter program name) := by
    rw [denoted]
    exact decides_ofBool (truthsAfter program name)
  exact ⟨decides, decides.inPlace⟩

/-- A lone highest bit sets a choice, and the masks stay whole in place. -/
example :
    let program : List (Assignment (Fin 2)) :=
      [ .set 0 (.ofNonzero 0x8000000000000000),
        .set 1 (.xor (.held 0) (.ofBit 1 (.inr rfl))),
        .andInto 0 (.not (.held 1)),
        .orInto 1 .unset ]
    (choicesAfter program 0).mask = ~~~0 ∧
      (choicesAfter program 1).mask = 0 := by
  decide

end ModularLadder.Choice
