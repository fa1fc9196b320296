import ModularLadder.Bytes

/-!
# Windows of bits

An exponent in big-endian bytes is read as digits of a fixed number of bits,
most significant digit first.  The last digit ends at the last bit; if the
digits' size does not divide the number of bits, the first digit is shorter.
A digit may take its bits from more than one byte.

The reader keeps the bytes that still hold unread bits, and of the first of
them the number of these bits.
-/

namespace ModularLadder

/-- A reader of digits from a byte string. -/
structure BitWindow where
  /-- The number of bits of a digit. -/
  size : Nat
  /-- The number of digits still to be read. -/
  digitsLeft : Nat
  /-- The number of bits of the next digit. -/
  nextSize : Nat
  /-- The number of unread bits in the first remaining byte. -/
  available : Nat
  /-- The bytes that hold unread bits. -/
  remaining : Bytes

namespace BitWindow

/-- A reader of digits of the given size from the start of a string. -/
def ofBytes (size : Nat) (bytes : Bytes) : BitWindow :=
  let bitCount := 8 * bytes.length
  { size := size
    digitsLeft := (bitCount + size - 1) / size
    nextSize := if bitCount % size = 0 then size else bitCount % size
    available := 8
    remaining := bytes }

/-- How many digits are still to come: at least so many, and at most. -/
def sizeHint (reader : BitWindow) : Nat × Option Nat :=
  (reader.digitsLeft, some reader.digitsLeft)

/-- A digit together with what has not been read. -/
structure Collected where
  digit : Nat
  available : Nat
  remaining : Bytes

/--
Appends a number of bits to a digit, as many as possible from the first byte
and the rest from the following ones.  There is no result if the bytes hold
fewer bits than are wanted.
-/
def collect :
    (wanted available digit : Nat) → Bytes → Option Collected
  | 0, available, digit, remaining =>
    some { digit, available, remaining }
  | _ + 1, _, _, [] => none
  | wanted + 1, available, digit, byte :: rest =>
    let taken := min (wanted + 1) available
    let bits := (byte.toNat >>> (available - taken)) &&& ((1 <<< taken) - 1)
    let digit := (digit <<< taken) ||| bits
    if taken = available then
      collect (wanted + 1 - taken) 8 digit rest
    else
      some {
        digit
        available := available - taken
        remaining := byte :: rest }

/-- The next digit and the reader after it; nothing once all are read. -/
def next? (reader : BitWindow) : Option (Nat × BitWindow) :=
  match reader.digitsLeft with
  | 0 => none
  | digitsLeft + 1 =>
    (collect reader.nextSize reader.available 0 reader.remaining).map
      fun collected =>
        (collected.digit,
          { reader with
            digitsLeft := digitsLeft
            nextSize := reader.size
            available := collected.available
            remaining := collected.remaining })

/-- Reads at most the given number of digits. -/
def take : (count : Nat) → BitWindow → List Nat × BitWindow
  | 0, reader => ([], reader)
  | count + 1, reader =>
    match reader.next? with
    | none => ([], reader)
    | some (digit, reader) =>
      let (digits, reader) := take count reader
      (digit :: digits, reader)

/-- All digits that are still to be read. -/
def digits (reader : BitWindow) : List Nat :=
  (take reader.digitsLeft reader).1

end BitWindow

end ModularLadder
