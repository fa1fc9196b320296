/-!
# Causes of failure

Every operation that can refuse its arguments does so with one of the causes
listed here.  A cause has a stable integer code, which callers in other
programs rely on, and a short text.  The code zero is kept for success and
belongs to no cause.

Not every cause is raised by the arithmetic of this library.  The remaining
ones complete the numbering shared with the ciphers and digests that callers
use beside it.
-/

namespace ModularLadder

/-- The causes for which an operation reports failure. -/
inductive Failure where
  /-- A required argument was missing. -/
  | nullArgument
  /-- Storage for a result could not be had. -/
  | memory
  /-- An input or an output buffer was too short. -/
  | notEnoughData
  /-- A cipher could not encrypt. -/
  | encryption
  /-- A cipher could not decrypt. -/
  | decryption
  /-- A key had an unsupported size. -/
  | keySize
  /-- A nonce had an unsupported size. -/
  | nonceSize
  /-- A cipher was asked for an unsupported number of rounds. -/
  | roundCount
  /-- A digest had an unsupported size. -/
  | digestSize
  /-- More data was processed than the primitive admits. -/
  | dataLimit
  /-- A stream position lies beyond the last admissible one. -/
  | offsetLimit
  /-- A block had an unsupported size. -/
  | blockSize
  /-- An authentication tag had an unsupported size. -/
  | tagSize
  /-- A number lies outside the range that the operation admits. -/
  | value
  /-- Coordinates do not satisfy the curve equation. -/
  | pointNotOnCurve
  /-- Two points belong to different curve contexts. -/
  | curveMismatch
  /-- A modulus or an operand had an unsupported length. -/
  | modulusLength
  /-- The point at infinity has no affine coordinate. -/
  | pointAtInfinity
  /-- The cause is not known. -/
  | unknown
  deriving DecidableEq, Repr

namespace Failure

/-- Every cause, in the order of the codes. -/
def all : List Failure :=
  [nullArgument, memory, notEnoughData, encryption, decryption, keySize,
    nonceSize, roundCount, digestSize, dataLimit, offsetLimit, blockSize,
    tagSize, value, pointNotOnCurve, curveMismatch, modulusLength,
    pointAtInfinity, unknown]

/-- The integer code of a cause.  Codes are stable and never zero. -/
def code : Failure → Nat
  | nullArgument => 1
  | memory => 2
  | notEnoughData => 3
  | encryption => 4
  | decryption => 5
  | keySize => 6
  | nonceSize => 7
  | roundCount => 8
  | digestSize => 9
  | dataLimit => 10
  | offsetLimit => 11
  | blockSize => 12
  | tagSize => 13
  | value => 14
  | pointNotOnCurve => 15
  | curveMismatch => 16
  | modulusLength => 17
  | pointAtInfinity => 18
  | unknown => 32

/-- The text shown for a cause. -/
def message : Failure → String
  | nullArgument => "null argument"
  | memory => "memory allocation failed"
  | notEnoughData => "not enough data"
  | encryption => "encryption failed"
  | decryption => "decryption failed"
  | keySize => "invalid key size"
  | nonceSize => "invalid nonce size"
  | roundCount => "invalid number of rounds"
  | digestSize => "invalid digest size"
  | dataLimit => "maximum data length exceeded"
  | offsetLimit => "maximum offset exceeded"
  | blockSize => "invalid block size"
  | tagSize => "invalid tag size"
  | value => "invalid value"
  | pointNotOnCurve => "ec: point not on curve"
  | curveMismatch => "ec: points belong to different curves"
  | modulusLength => "invalid modulus or operand length"
  | pointAtInfinity => "ec: point at infinity"
  | unknown => "unknown error"

/-- The cause with the given code, if there is one. -/
def ofCode? (code : Nat) : Option Failure :=
  all.find? fun failure => failure.code == code

/--
The code of an outcome as a whole: zero for success, the cause's code
otherwise.
-/
def resultCode {α : Type} : Except Failure α → Nat
  | .ok _ => 0
  | .error failure => failure.code

/-- A code leads back to the cause that it was taken from. -/
theorem ofCode?_code
    (failure : Failure) :
    ofCode? failure.code = some failure := by
  cases failure <;> rfl

/-- No cause has the code of success. -/
theorem code_pos
    (failure : Failure) :
    0 < failure.code := by
  cases failure <;> decide

end Failure

end ModularLadder
