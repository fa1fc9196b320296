import Mathlib
import ModularLadder.Proofs.Power

/-!
# Which operands powers and products refuse

A power and a product check their operands in the same order.  The modulus must
not be empty, the buffer and all operands must have its length, its number
must be odd and not one, and the base or the factors must be below it.  Once
these checks have passed nothing else can fail: the operands enter Montgomery
form, a table of powers always has an admissible number of entries, and the
buffer is long enough for the result.

Nothing is written before the last step, which cannot fail any more.  So a
buffer is either filled with the result or left as it was.
-/

namespace ModularLadder.Power

open Bytes (bigEndianValue ofNatBigEndian)
open Montgomery

/-! ## Operands that are refused -/

/--
Operands that a modulus refuses, if it is not empty: some have another length,
the modulus is even or one, or a factor is not below it.
-/
def Refused (modulus : Bytes) (operands factors : List Bytes) : Prop :=
  (∃ operand ∈ operands, operand.length ≠ modulus.length) ∨
    bigEndianValue modulus % 2 = 0 ∨
    bigEndianValue modulus = 1 ∨
    ∃ factor ∈ factors, bigEndianValue modulus ≤ bigEndianValue factor

/-- Operands that are not refused meet all of the conditions. -/
theorem not_refused_iff
    (modulus : Bytes)
    (operands factors : List Bytes) :
    ¬Refused modulus operands factors ↔
      (∀ operand ∈ operands, operand.length = modulus.length) ∧
        bigEndianValue modulus % 2 = 1 ∧
        bigEndianValue modulus ≠ 1 ∧
        ∀ factor ∈ factors, bigEndianValue factor < bigEndianValue modulus := by
  simp [Refused]

/--
How a computation that fills a buffer with a number modulo another one may end,
by its operands and by those of them that have to be below the modulus.
-/
structure IsOutcome
    (outcome : Except Failure Unit × Bytes)
    (modulus buffer : Bytes)
    (operands factors : List Bytes)
    (number : Nat) :
    Prop where
  notEnoughData_iff : outcome.1 = .error .notEnoughData ↔ modulus = []
  value_iff :
    outcome.1 = .error .value ↔
      modulus ≠ [] ∧ Refused modulus (buffer :: operands) factors
  ok_iff :
    outcome.1 = .ok () ↔
      modulus ≠ [] ∧ ¬Refused modulus (buffer :: operands) factors
  /-- A failure leaves the buffer as it was. -/
  unmodified : outcome.1 ≠ .ok () → outcome.2 = buffer
  /-- A success fills the buffer at the length of the modulus. -/
  filled :
    outcome.1 = .ok () →
      outcome.2 =
        ofNatBigEndian modulus.length (number % bigEndianValue modulus)

/-- The three ways to end exclude each other. -/
theorem isOutcome_of_cases
    {outcome : Except Failure Unit × Bytes}
    {modulus buffer : Bytes}
    {operands factors : List Bytes}
    {number : Nat}
    (empty : modulus = [] → outcome = (.error .notEnoughData, buffer))
    (refused :
      modulus ≠ [] →
        Refused modulus (buffer :: operands) factors →
          outcome = (.error .value, buffer))
    (admitted :
      ¬Refused modulus (buffer :: operands) factors →
        outcome =
          (.ok (),
            ofNatBigEndian modulus.length
              (number % bigEndianValue modulus))) :
    IsOutcome outcome modulus buffer operands factors number := by
  by_cases none : modulus = []
  · rw [empty none]
    constructor <;> simp [none]
  · by_cases unfit : Refused modulus (buffer :: operands) factors
    · rw [refused none unfit]
      constructor <;> simp [none, unfit]
    · rw [admitted unfit]
      constructor <;> simp [none, unfit]

/-! ## Computations after the checks -/

section

variable
  {β : Type}
  (buffer : Bytes)

/-- A failure ends the computation and leaves the buffer as it is. -/
theorem run_lift_error
    {α : Type}
    {outcome : Except Failure α}
    {failure : Failure}
    (failed : outcome = .error failure)
    (next : α → BufferM β) :
    ((liftM outcome : BufferM α) >>= next).run.run buffer =
      (.error failure, buffer) := by
  subst failed
  rfl

/-- A factor that is not below the modulus ends the computation. -/
theorem run_encode_of_le
    {context : Context}
    {factor : Bytes}
    (nonempty : factor ≠ [])
    (large : Words.value context.modulus ≤ bigEndianValue factor)
    (next : Words → BufferM β) :
    ((liftM (context.encode factor) : BufferM Words) >>= next).run.run
        buffer =
      (.error .value, buffer) := by
  apply run_lift_error
  rw [Context.encode_eq, if_neg nonempty, if_neg (Nat.not_lt.2 large)]

/-- A factor below the modulus enters Montgomery form. -/
theorem run_encode_of_lt
    {context : Context}
    {factor : Bytes}
    (nonempty : factor ≠ [])
    (below : bigEndianValue factor < Words.value context.modulus)
    (next : Words → BufferM β) :
    ((liftM (context.encode factor) : BufferM Words) >>= next).run.run
        buffer =
      (next (context.encoded factor)).run.run buffer := by
  apply run_lift_bind
  rw [Context.encode_eq, if_neg nonempty, if_pos below]

end

/-- The checks that powers and products begin with, and what comes next. -/
def afterChecks
    (modulus : Bytes)
    (operands : List Bytes)
    (next : Context → BufferM Unit) :
    BufferM Unit := do
  checkLengths modulus (operands.map List.length)
  let context ← Context.ofBytes modulus
  next context

/--
Refused operands end in a failure, by these checks or by the next one, which a
factor has to pass.
-/
theorem run_of_refused
    {modulus buffer : Bytes}
    {operands factors : List Bytes}
    {next : Context → BufferM Unit}
    (nonempty : modulus ≠ [])
    (refused : Refused modulus operands factors)
    (large :
      ∀ context : Context,
        (∀ operand ∈ operands, operand ≠ []) →
          (∃ factor ∈ factors,
            Words.value context.modulus ≤ bigEndianValue factor) →
          (next context).run.run buffer = (.error .value, buffer)) :
    (afterChecks modulus operands next).run.run buffer =
      (.error .value, buffer) := by
  rw [afterChecks]
  have checked := checkLengths_eq modulus (operands.map List.length)
  rw [if_neg nonempty] at checked
  simp only [List.forall_mem_map] at checked
  by_cases equal : ∀ operand ∈ operands, operand.length = modulus.length
  · rw [if_pos equal] at checked
    rw [run_lift_bind checked]
    by_cases unfit :
        bigEndianValue modulus % 2 = 0 ∨ bigEndianValue modulus = 1
    · apply run_lift_error
      rw [Context.ofBytes_eq, if_neg nonempty, if_pos unfit]
    · have made := Context.ofBytes_eq modulus
      rw [if_neg nonempty, if_neg unfit] at made
      rcases Context.sound_of_ofBytes made with ⟨-, modulusValue, -, -⟩
      rw [run_lift_bind made]
      apply large
      · rintro operand mem rfl
        exact nonempty (List.eq_nil_of_length_eq_zero (equal [] mem).symm)
      · rw [modulusValue]
        rcases refused with ⟨operand, mem, different⟩ | isEven | isOne | large
        · exact absurd (equal operand mem) different
        · exact absurd (Or.inl isEven) unfit
        · exact absurd (Or.inr isOne) unfit
        · exact large
  · rw [if_neg equal] at checked
    exact run_lift_error buffer checked _

/-- Operands that are not refused pass the checks. -/
theorem run_of_admitted
    {modulus buffer : Bytes}
    {operands factors : List Bytes}
    (admitted : ¬Refused modulus operands factors)
    (next : Context → BufferM Unit) :
    ∃ context,
      Context.ofBytes modulus = .ok context ∧
        (afterChecks modulus operands next).run.run buffer =
          (next context).run.run buffer := by
  rcases (not_refused_iff _ _ _).1 admitted with ⟨equal, isOdd, notOne, -⟩
  have nonempty := modulus_ne_nil modulus (by omega)
  have lengths :
      checkLengths modulus (operands.map List.length) = .ok () := by
    apply checkLengths_ok nonempty
    simpa using equal
  have made := Context.ofBytes_eq modulus
  rw [if_neg nonempty, if_neg (by omega)] at made
  refine ⟨_, made, ?_⟩
  rw [afterChecks, run_lift_bind lengths, run_lift_bind made]

/-! ## Powers and products -/

section

variable
  {buffer modulus : Bytes}

/-- Refused operands of a power leave the buffer as it was. -/
theorem powWith_of_refused
    {base exponent : Bytes}
    (nonempty : modulus ≠ [])
    (refused : Refused modulus [buffer, base, exponent] [base])
    (scramble : Nat → UInt16) :
    (powWith scramble base exponent modulus).run.run buffer =
      (.error .value, buffer) := by
  rw [powWith, run_get_bind]
  apply run_of_refused nonempty refused
  intro context nonemptyOperands large
  rcases large with ⟨factor, mem, large⟩
  rw [List.mem_singleton] at mem
  subst mem
  exact run_encode_of_le buffer (nonemptyOperands factor (by simp)) large _

/-- A power of operands that are not refused fills the buffer. -/
theorem powWith_of_admitted
    {base exponent : Bytes}
    (admitted : ¬Refused modulus [buffer, base, exponent] [base])
    (scramble : Nat → UInt16) :
    (powWith scramble base exponent modulus).run.run buffer =
      (.ok (),
        ofNatBigEndian modulus.length
          (bigEndianValue base ^ bigEndianValue exponent %
            bigEndianValue modulus)) := by
  rcases (not_refused_iff _ _ _).1 admitted with
    ⟨equal, isOdd, notOne, below⟩
  simp only [List.forall_mem_cons] at equal below
  exact
    powWith_eq base exponent modulus buffer isOdd (by omega) equal.2.1
      equal.2.2.1 equal.1 below.1 scramble

/-- Refused factors leave the buffer as it was. -/
theorem multiply_of_refused
    {left right : Bytes}
    (nonempty : modulus ≠ [])
    (refused : Refused modulus [buffer, left, right] [left, right]) :
    (multiply left right modulus).run.run buffer =
      (.error .value, buffer) := by
  rw [multiply, run_get_bind]
  apply run_of_refused nonempty refused
  intro context nonemptyOperands large
  have leftNonempty : left ≠ [] := nonemptyOperands left (by simp)
  have rightNonempty : right ≠ [] := nonemptyOperands right (by simp)
  by_cases below :
      bigEndianValue left < Words.value context.modulus
  · rw [run_encode_of_lt buffer leftNonempty below]
    have rightLarge :
        Words.value context.modulus ≤ bigEndianValue right := by
      simpa [Nat.not_le.2 below] using large
    exact run_encode_of_le buffer rightNonempty rightLarge _
  · exact run_encode_of_le buffer leftNonempty (Nat.not_lt.1 below) _

/-- A product of factors that are not refused fills the buffer. -/
theorem multiply_of_admitted
    {left right : Bytes}
    (admitted : ¬Refused modulus [buffer, left, right] [left, right]) :
    (multiply left right modulus).run.run buffer =
      (.ok (),
        ofNatBigEndian modulus.length
          (bigEndianValue left * bigEndianValue right %
            bigEndianValue modulus)) := by
  rw [multiply, run_get_bind]
  obtain ⟨context, made, run_eq⟩ := run_of_admitted admitted _
  refine run_eq.trans ?_
  rcases (not_refused_iff _ _ _).1 admitted with
    ⟨equal, isOdd, notOne, below⟩
  have nonempty := modulus_ne_nil modulus (by omega)
  simp only [List.forall_mem_cons] at equal below
  rcases equal with ⟨bufferLength, leftLength, rightLength, -⟩
  rcases Context.sound_of_ofBytes made with
    ⟨sound, modulusValue, -, modulusLength⟩
  have nonempty_of_length {operand : Bytes}
      (length : operand.length = modulus.length) :
      operand ≠ [] := by
    rintro rfl
    exact nonempty (List.eq_nil_of_length_eq_zero length.symm)
  rw [← modulusValue] at below ⊢
  rw [run_encode_of_lt buffer (nonempty_of_length leftLength) below.1,
    run_encode_of_lt buffer (nonempty_of_length rightLength) below.2.1]
  have product :=
    (sound.reducer.multiply_yields
      (sound.represents_encoded left below.1)
      (sound.represents_encoded right below.2.1)).evaluate
  rw [sound.decode_eq product, modulusLength, bufferLength,
    if_neg (Nat.lt_irrefl _), ← Nat.cast_mul, ZMod.val_natCast]

end

/--
How powers and products end, for all operands and all buffers, whatever stream
of words scrambles the table of powers and so for every seed.  An empty modulus
is not enough data; operands that the modulus refuses are of no admissible
value; all others have a result, which fills the buffer.  Nothing else can
fail, and a failure leaves the buffer as it was.
-/
theorem pow_multiply_outcomes
    (buffer modulus : Bytes) :
    (∀ (base exponent : Bytes) (scramble : Nat → UInt16),
      IsOutcome ((powWith scramble base exponent modulus).run.run buffer)
        modulus buffer [base, exponent] [base]
        (bigEndianValue base ^ bigEndianValue exponent)) ∧
      (∀ (base exponent : Bytes) (seed : UInt64),
        IsOutcome ((pow base exponent modulus seed).run.run buffer) modulus
          buffer [base, exponent] [base]
          (bigEndianValue base ^ bigEndianValue exponent)) ∧
      ∀ left right : Bytes,
        IsOutcome ((multiply left right modulus).run.run buffer) modulus
          buffer [left, right] [left, right]
          (bigEndianValue left * bigEndianValue right) := by
  have scrambled (base exponent : Bytes) (scramble : Nat → UInt16) :
      IsOutcome ((powWith scramble base exponent modulus).run.run buffer)
        modulus buffer [base, exponent] [base]
        (bigEndianValue base ^ bigEndianValue exponent) := by
    apply isOutcome_of_cases
    case empty =>
      rintro rfl
      rfl
    case refused =>
      intro nonempty refused
      exact powWith_of_refused nonempty refused scramble
    case admitted =>
      intro admitted
      exact powWith_of_admitted admitted scramble
  refine ⟨scrambled, ?_, ?_⟩
  · intro base exponent seed
    exact scrambled base exponent (ScatterTable.scrambleWord seed)
  · intro left right
    apply isOutcome_of_cases
    case empty =>
      rintro rfl
      rfl
    case refused => exact multiply_of_refused
    case admitted => exact multiply_of_admitted

end ModularLadder.Power
