import ModularLadder.Bytes

/-!
# Hexadecimal text

A byte string of a known length is written as two hexadecimal digits per byte,
the high half of a byte before its low half.  Letters may be of either case.

The length of the text is counted in the bytes of its UTF-8 form and checked
before any character is looked at, so a text that is too long and also holds a
foreign character is refused for its length.
-/

namespace ModularLadder.HexText

/-- What can be wrong with a hexadecimal text. -/
inductive Defect where
  /-- The text does not have two digits for each expected byte. -/
  | length
  /-- The text holds something other than a hexadecimal digit. -/
  | character
  deriving DecidableEq, Repr

/-- The value of one digit, given as its character's byte. -/
def digit (character : UInt8) : Except Defect UInt8 :=
  if 0x30 ≤ character ∧ character ≤ 0x39 then
    .ok (character - 0x30)
  else if 0x61 ≤ character ∧ character ≤ 0x66 then
    .ok (character - 0x61 + 10)
  else if 0x41 ≤ character ∧ character ≤ 0x46 then
    .ok (character - 0x41 + 10)
  else
    .error .character

/-- Joins the digits in pairs, the first of each pair being the high half. -/
def joinPairs : List UInt8 → Except Defect Bytes
  | [] => .ok []
  | [_] => .error .length
  | high :: low :: rest => do
    let high ← digit high
    let low ← digit low
    let bytes ← joinPairs rest
    return (high <<< 4 ||| low) :: bytes

/-- The characters of a text as the bytes of its UTF-8 form. -/
def characters (text : String) : List UInt8 :=
  text.toUTF8.data.toList

/-- Reads exactly `count` bytes, in the order written. -/
def decode (count : Nat) (text : String) : Except Defect Bytes :=
  let characters := characters text
  if characters.length = 2 * count then
    joinPairs characters
  else
    .error .length

/--
Reads a literal, which is expected to be well formed: there is no value for a
malformed one, and no cause is given.
-/
def decodeLiteral? (count : Nat) (text : String) : Option Bytes :=
  (decode count text).toOption

end ModularLadder.HexText
