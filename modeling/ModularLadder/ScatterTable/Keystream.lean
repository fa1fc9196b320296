/-!
# A keystream for scrambling

The layout of a scatter table is varied by words drawn from the ChaCha cipher
with eight rounds.  The cipher works on a square of sixteen 32-bit words: four
rows that hold constants, the key in two rows, and a counter with a stream
number, which is zero here.  A double round mixes the columns of the square
and then its diagonals.

The key is expanded from a 64-bit seed by a linear congruential generator,
whose every state gives one word of the key.

Nothing that a table answers depends on these words.  Any other words would
serve, so no law about them is needed.
-/

namespace ModularLadder.ScatterTable

/-- One row of the cipher's square. -/
structure Row where
  first : UInt32
  second : UInt32
  third : UInt32
  fourth : UInt32

namespace Row

/-- Combines two rows word by word. -/
def zipWith (combine : UInt32 → UInt32 → UInt32) (left right : Row) : Row :=
  { first := combine left.first right.first
    second := combine left.second right.second
    third := combine left.third right.third
    fourth := combine left.fourth right.fourth }

/-- Adds two rows. -/
def add : (left right : Row) → Row :=
  zipWith (· + ·)

/-- Combines two rows by exclusive or and rotates every word to the left. -/
def xorRotate (count : UInt32) : (left right : Row) → Row :=
  zipWith fun left right =>
    let mixed := left ^^^ right
    (mixed <<< count) ||| (mixed >>> (32 - count))

/-- Moves every word of a row one place forward. -/
def turn (row : Row) : Row :=
  { first := row.second
    second := row.third
    third := row.fourth
    fourth := row.first }

/-- The words of a row in order. -/
def toList (row : Row) : List UInt32 :=
  [row.first, row.second, row.third, row.fourth]

end Row

/-- The cipher's square of sixteen words. -/
structure Square where
  constants : Row
  keyLow : Row
  keyHigh : Row
  position : Row

namespace Square

/-- Mixes each column of the square. -/
def mixColumns (square : Square) : Square :=
  let a := square.constants.add square.keyLow
  let d := square.position.xorRotate 16 a
  let c := square.keyHigh.add d
  let b := square.keyLow.xorRotate 12 c
  let a := a.add b
  let d := d.xorRotate 8 a
  let c := c.add d
  let b := b.xorRotate 7 c
  { constants := a, keyLow := b, keyHigh := c, position := d }

/-- Mixes the columns, then the diagonals, turned into columns and back. -/
def doubleRound (square : Square) : Square :=
  let columns := square.mixColumns
  let diagonals :=
    mixColumns
      { columns with
        keyLow := columns.keyLow.turn
        keyHigh := columns.keyHigh.turn.turn
        position := columns.position.turn.turn.turn }
  { diagonals with
    keyLow := diagonals.keyLow.turn.turn.turn
    keyHigh := diagonals.keyHigh.turn.turn
    position := diagonals.position.turn }

/-- Adds two squares. -/
def add (left right : Square) : Square :=
  { constants := left.constants.add right.constants
    keyLow := left.keyLow.add right.keyLow
    keyHigh := left.keyHigh.add right.keyHigh
    position := left.position.add right.position }

/-- The words of a square, row by row. -/
def toList (square : Square) : List UInt32 :=
  square.constants.toList ++ square.keyLow.toList ++
    square.keyHigh.toList ++ square.position.toList

end Square

/-- The next state of the generator that expands a seed. -/
def nextState (state : UInt64) : UInt64 :=
  state * 6364136223846793005 + 11634580027462260723

/-- The word that a state gives: its mixed bits, rotated by its highest. -/
def stateWord (state : UInt64) : UInt32 :=
  let mixed := (((state >>> 18) ^^^ state) >>> 27).toUInt32
  let count := (state >>> 59).toUInt32
  (mixed >>> count) ||| (mixed <<< ((32 - count) % 32))

/-- Four consecutive words of an expanded seed, after a state. -/
def expandRow (state : UInt64) : Row × UInt64 :=
  let state1 := nextState state
  let state2 := nextState state1
  let state3 := nextState state2
  let state4 := nextState state3
  ({ first := stateWord state1
     second := stateWord state2
     third := stateWord state3
     fourth := stateWord state4 },
    state4)

/-- The square from which a block of the keystream is made. -/
def initialSquare (seed block : UInt64) : Square :=
  let (keyLow, state) := expandRow seed
  let (keyHigh, _) := expandRow state
  { constants :=
      { first := 0x61707865
        second := 0x3320646e
        third := 0x79622d32
        fourth := 0x6b206574 }
    keyLow := keyLow
    keyHigh := keyHigh
    position :=
      { first := block.toUInt32
        second := (block >>> 32).toUInt32
        third := 0
        fourth := 0 } }

/-- One block of the keystream: eight rounds, added to where they started. -/
def keystreamBlock (seed block : UInt64) : List UInt32 :=
  let start := initialSquare seed block
  let mixed := start.doubleRound.doubleRound.doubleRound.doubleRound
  (mixed.add start).toList

/-- The lower half of each word of the keystream, by position. -/
def scrambleWord (seed : UInt64) (position : Nat) : UInt16 :=
  let block := keystreamBlock seed (UInt64.ofNat (position / 16))
  (block.getD (position % 16) 0).toUInt16

end ModularLadder.ScatterTable
