import ModularLadder.Montgomery.Arithmetic
import ModularLadder.Montgomery.Encoding

/-!
# Arithmetic modulo `2^448 - 2^224 - 1`

The two curves over this prime use general Montgomery arithmetic with numbers
of seven words.  Elements are encoded in 56 bytes.

Points of these curves carry temporaries of their own, so that no storage has
to be found while a secret scalar is at work.  A scratch area for field
operations is among them, whatever else the temporaries of a curve hold.
-/

namespace ModularLadder.Field448

open Montgomery (Context Scratch ScratchM)

/-- The length in bytes of an encoded element. -/
def byteLength : Nat :=
  56

/-- The modulus. -/
def prime : Nat :=
  (1 <<< 448) - (1 <<< 224) - 1

/-- The modulus in big-endian bytes. -/
def primeBytes : Bytes :=
  Bytes.ofNatBigEndian byteLength prime

/-- The arithmetic modulo the prime. -/
def context : Except Failure Context :=
  Context.ofBytes primeBytes

/-- The 56 big-endian bytes of an element. -/
def encode (context : Context) (element : Words) : Except Failure Bytes :=
  match (context.decode element).run.run (List.replicate byteLength 0) with
  | (.ok (), buffer) => .ok buffer
  | (.error failure, _) => .error failure

/-- Temporaries that hold a scratch area among other things. -/
class HoldsScratch (Workplace : Type) where
  scratch : Workplace → Scratch
  putScratch : Scratch → Workplace → Workplace

/-- Runs a field operation on the scratch area among the temporaries. -/
def onScratch
    {Workplace Result : Type}
    [HoldsScratch Workplace]
    (operation : ScratchM Result) :
    StateM Workplace Result := do
  let workplace ← get
  let (result, scratch) := operation.run (HoldsScratch.scratch workplace)
  set (HoldsScratch.putScratch scratch workplace)
  return result

end ModularLadder.Field448
