import Mathlib
import ModularLadder.Proofs.Accumulation
import ModularLadder.Proofs.Encoding

/-!
# Conversions between byte strings and words

Words that are filled from a byte string stand for its number, extended by
zeros, and bytes that are filled from words hold the number modulo what they
have places for.  Neither shows what the destination has held.  A string
is the only one of its length with its number, and so are words of a width, so
that there and back again is the identity wherever nothing has been cut off.

Bytes can be filled one word at a time.  The word at an index goes to the eight
bytes that are eight times the index away from the least significant end.  If
there are not as many left, the word is the highest one and its upper bytes are
dropped: those at the back of a little-endian and at the front of a big-endian
string.
-/

namespace ModularLadder.Words

open Bytes (bigEndianValue littleEndianValue ofNatLittleEndian)

/-! ## Storing one word at a time -/

/-- Puts a word at its place in a little-endian string. -/
def storeLittleEndian (bytes : Bytes) (index : Nat) (word : Word) : Bytes :=
  let start := 8 * index
  let piece := (Word.littleEndianBytes word).take (bytes.length - start)
  bytes.take start ++ piece ++ bytes.drop (start + 8)

/-- Puts a word at its place in a big-endian string. -/
def storeBigEndian (bytes : Bytes) (index : Nat) (word : Word) : Bytes :=
  let stop := bytes.length - 8 * index
  let start := stop - 8
  let piece := (Word.littleEndianBytes word).reverse.drop (8 - (stop - start))
  bytes.take start ++ piece ++ bytes.drop stop

/--
A string after its lowest words have been stored one by one.  Beyond the words
of the number there are zeros.
-/
def storeLowest
    (store : Bytes → Nat → Word → Bytes)
    (destination : Bytes)
    (number : Words)
    (count : Nat) :
    Bytes :=
  (List.range count).foldl
    (fun bytes index => store bytes index (number.getD index 0))
    destination

/-- A string after all of its words have been stored. -/
def storeWords
    (store : Bytes → Nat → Word → Bytes)
    (destination : Bytes)
    (number : Words) :
    Bytes :=
  storeLowest store destination number (widthOfBytes destination.length)

theorem storeLowest_succ
    (store : Bytes → Nat → Word → Bytes)
    (destination : Bytes)
    (number : Words)
    (count : Nat) :
    storeLowest store destination number (count + 1) =
      store (storeLowest store destination number count) count
        (number.getD count 0) := by
  rw [storeLowest, List.range_succ, List.foldl_append]
  rfl

/-- A word at its place holds the digits of the whole number there. -/
theorem take_littleEndianBytes_getD
    (number : Words)
    (length index : Nat) :
    (Word.littleEndianBytes (number.getD index 0)).take (length - 8 * index) =
      ((ofNatLittleEndian length (value number)).drop (8 * index)).take 8 := by
  apply List.ext_getElem
  · simp [Nat.min_comm]
  · intro offset inside _
    rw [List.length_take, Word.length_littleEndianBytes] at inside
    have word : (8 * index + offset) / 8 = index := by omega
    have byte : (8 * index + offset) % 8 = offset := by omega
    have digit := byteAt_eq number (8 * index + offset)
    rw [byteAt, word, byte] at digit
    simpa [Word.littleEndianBytes, Bytes.getElem_ofNatLittleEndian] using digit

/-- The bytes up to a stored word are those below it, and the word's. -/
theorem take_storeLittleEndian
    (bytes : Bytes)
    (index : Nat)
    (word : Word) :
    (storeLittleEndian bytes index word).take (8 * (index + 1)) =
      bytes.take (8 * index) ++
        (Word.littleEndianBytes word).take (bytes.length - 8 * index) := by
  rw [storeLittleEndian]
  by_cases whole : 8 * (index + 1) ≤ bytes.length
  · apply List.take_left'
    rw [List.length_append, List.length_take, List.length_take,
      Word.length_littleEndianBytes]
    omega
  · have none : bytes.drop (8 * index + 8) = [] :=
      List.drop_of_length_le (by omega)
    rw [none, List.append_nil]
    apply List.take_of_length_le
    rw [List.length_append, List.length_take, List.length_take,
      Word.length_littleEndianBytes]
    omega

theorem length_storeLittleEndian
    (bytes : Bytes)
    (index : Nat)
    (word : Word)
    (inside : 8 * index < bytes.length) :
    (storeLittleEndian bytes index word).length = bytes.length := by
  rw [storeLittleEndian, List.length_append, List.length_append,
    List.length_take, List.length_take, List.length_drop,
    Word.length_littleEndianBytes]
  omega

/--
The words that have been stored fill the string from its lowest byte on as the
whole number does.
-/
theorem storeLowest_littleEndian
    (destination : Bytes)
    (number : Words)
    (count : Nat)
    (fits : count ≤ widthOfBytes destination.length) :
    (storeLowest storeLittleEndian destination number count).length =
        destination.length ∧
      (storeLowest storeLittleEndian destination number count).take
          (8 * count) =
        (toLittleEndian destination number).take (8 * count) := by
  induction count with
  | zero => exact ⟨rfl, rfl⟩
  | succ count ih =>
    rcases ih (by omega) with ⟨length, below⟩
    rw [widthOfBytes] at fits
    rw [storeLowest_succ]
    constructor
    · rw [length_storeLittleEndian _ _ _ (by omega), length]
    · rw [take_storeLittleEndian, below, length, toLittleEndian_eq,
        take_littleEndianBytes_getD, Nat.mul_add, List.take_add]

theorem storeWords_littleEndian
    (destination : Bytes)
    (number : Words) :
    storeWords storeLittleEndian destination number =
      toLittleEndian destination number := by
  rcases storeLowest_littleEndian destination number _ le_rfl with
    ⟨length, filled⟩
  have covered : destination.length ≤ 8 * widthOfBytes destination.length := by
    rw [widthOfBytes]
    omega
  rwa [List.take_of_length_le (by rw [length]; exact covered),
    List.take_of_length_le (by simpa using covered)]
    at filled

/-- A word goes to the same bytes of a string and of the reversed one. -/
theorem storeBigEndian_eq_reverse
    (bytes : Bytes)
    (index : Nat)
    (word : Word) :
    storeBigEndian bytes index word =
      (storeLittleEndian bytes.reverse index word).reverse := by
  have below :
      (bytes.reverse.take (8 * index)).reverse =
        bytes.drop (bytes.length - 8 * index) := by
    rw [List.take_reverse, List.reverse_reverse]
  have above :
      (bytes.reverse.drop (8 * index + 8)).reverse =
        bytes.take (bytes.length - 8 * index - 8) := by
    rw [List.drop_reverse, List.reverse_reverse, Nat.sub_sub]
  have dropped :
      8 - (bytes.length - 8 * index - (bytes.length - 8 * index - 8)) =
        8 - (bytes.length - 8 * index) := by
    omega
  rw [storeBigEndian, storeLittleEndian, List.reverse_append,
    List.reverse_append, below, above, dropped, List.length_reverse,
    List.reverse_take, Word.length_littleEndianBytes, List.append_assoc]

theorem storeLowest_bigEndian
    (destination : Bytes)
    (number : Words)
    (count : Nat) :
    storeLowest storeBigEndian destination number count =
      (storeLowest storeLittleEndian destination.reverse number
        count).reverse := by
  induction count with
  | zero => exact (List.reverse_reverse destination).symm
  | succ count ih =>
    rw [storeLowest_succ, storeLowest_succ, ih, storeBigEndian_eq_reverse,
      List.reverse_reverse]

theorem ofBigEndian_eq_reverse
    (destination : Words)
    (bytes : Bytes) :
    ofBigEndian destination bytes =
      ofLittleEndian destination bytes.reverse := by
  simp only [ofBigEndian, ofLittleEndian, loadBigEndian_eq_reverse]

theorem toBigEndian_eq_reverse
    (destination : Bytes)
    (number : Words) :
    toBigEndian destination number =
      (toLittleEndian destination.reverse number).reverse := by
  rw [toBigEndian_eq, toLittleEndian_eq, Bytes.ofNatBigEndian,
    List.length_reverse]

theorem storeWords_bigEndian
    (destination : Bytes)
    (number : Words) :
    storeWords storeBigEndian destination number =
      toBigEndian destination number := by
  rw [storeWords, storeLowest_bigEndian, ← List.length_reverse, ← storeWords,
    storeWords_littleEndian, toBigEndian_eq_reverse]

/-! ## There and back again -/

/--
What the conversions of one byte order do.  They are told apart by the number
that a string stands for in that order.
-/
structure ConvertsBytes
    (numberOf : Bytes → Nat)
    (load : Words → Bytes → Words)
    (store : Bytes → Words → Bytes)
    (storeWord : Bytes → Nat → Word → Bytes) :
    Prop where
  /-- Words that are enough take the number of a string, extended by zeros. -/
  load_standsFor (destination : Words) (bytes : Bytes) :
    widthOfBytes bytes.length ≤ destination.length →
      (load destination bytes).StandsFor destination.length (numberOf bytes)
  length_store (destination : Bytes) (number : Words) :
    (store destination number).length = destination.length
  /-- Bytes take a number modulo what they have places for. -/
  numberOf_store (destination : Bytes) (number : Words) :
    numberOf (store destination number) =
      value number % 2 ^ (8 * destination.length)
  /-- They can be filled by one word after the other. -/
  storeWords_eq (destination : Bytes) (number : Words) :
    storeWords storeWord destination number = store destination number
  /-- What has been loaded is stored as it was, at its own length. -/
  store_load (bytes destination : Bytes) (words : Words) :
    widthOfBytes bytes.length ≤ words.length →
      destination.length = bytes.length →
        store destination (load words bytes) = bytes
  /-- What has been stored as a whole is loaded as it was. -/
  load_store (number destination : Words) (bytes : Bytes) :
    bytes.length = 8 * number.length →
      destination.length = number.length →
        load destination (store bytes number) = number

/-- Exact conversions lead back where nothing has been cut off. -/
theorem convertsBytes_of_exact
    {numberOf : Bytes → Nat}
    {load : Words → Bytes → Words}
    {store : Bytes → Words → Bytes}
    {storeWord : Bytes → Nat → Word → Bytes}
    (numberOf_lt : ∀ bytes, numberOf bytes < 2 ^ (8 * bytes.length))
    (numberOf_injective :
      ∀ bytes other : Bytes,
        bytes.length = other.length →
          numberOf bytes = numberOf other →
            bytes = other)
    (length_load :
      ∀ destination bytes,
        (load destination bytes).length = destination.length)
    (value_load :
      ∀ destination bytes,
        value (load destination bytes) =
          numberOf bytes % 2 ^ (64 * destination.length))
    (length_store :
      ∀ destination number,
        (store destination number).length = destination.length)
    (numberOf_store :
      ∀ destination number,
        numberOf (store destination number) =
          value number % 2 ^ (8 * destination.length))
    (storeWords_eq :
      ∀ destination number,
        storeWords storeWord destination number = store destination number) :
    ConvertsBytes numberOf load store storeWord := by
  have loaded
      (destination : Words)
      (bytes : Bytes)
      (fits : widthOfBytes bytes.length ≤ destination.length) :
      (load destination bytes).StandsFor destination.length
        (numberOf bytes) := by
    refine ⟨length_load destination bytes, ?_⟩
    rw [value_load]
    apply Nat.mod_eq_of_lt
    apply lt_of_lt_of_le (numberOf_lt bytes)
    rw [widthOfBytes] at fits
    exact Nat.pow_le_pow_right (by decide) (by omega)
  constructor
  case load_standsFor => exact loaded
  case length_store => exact length_store
  case numberOf_store => exact numberOf_store
  case storeWords_eq => exact storeWords_eq
  case store_load =>
    intro bytes destination words fits length
    apply numberOf_injective
    · rw [length_store, length]
    · rw [numberOf_store, (loaded words bytes fits).value_eq, length]
      exact Nat.mod_eq_of_lt (numberOf_lt bytes)
  case load_store =>
    intro number destination bytes length width
    have fits :
        widthOfBytes (store bytes number).length ≤ destination.length := by
      rw [length_store, widthOfBytes]
      omega
    have weight : 8 * bytes.length = 64 * number.length := by omega
    have stored : numberOf (store bytes number) = value number := by
      rw [numberOf_store, weight]
      exact Nat.mod_eq_of_lt (value_lt number)
    have held := loaded destination _ fits
    rw [stored, width] at held
    exact held.unique ⟨rfl, rfl⟩

/--
Both byte orders convert exactly, whatever the destinations have held, and
differ by the order of the bytes only.
-/
theorem conversions_exact :
    ConvertsBytes littleEndianValue ofLittleEndian toLittleEndian
        storeLittleEndian ∧
      ConvertsBytes bigEndianValue ofBigEndian toBigEndian storeBigEndian ∧
      (∀ (destination : Words) (bytes : Bytes),
        ofBigEndian destination bytes =
          ofLittleEndian destination bytes.reverse) ∧
      ∀ (destination : Bytes) (number : Words),
        toBigEndian destination number =
          (toLittleEndian destination.reverse number).reverse := by
  refine ⟨?_, ?_, ofBigEndian_eq_reverse, toBigEndian_eq_reverse⟩
  · apply convertsBytes_of_exact
    case numberOf_lt => exact Bytes.littleEndianValue_lt_two_pow
    case numberOf_injective =>
      intro bytes other length number
      have written := Bytes.ofNatLittleEndian_littleEndianValue bytes
      rwa [length, number, Bytes.ofNatLittleEndian_littleEndianValue, eq_comm]
        at written
    case length_load => exact length_ofLittleEndian
    case value_load => exact value_ofLittleEndian
    case length_store => exact length_toLittleEndian
    case numberOf_store =>
      intro destination number
      rw [toLittleEndian_eq, Bytes.littleEndianValue_ofNatLittleEndian,
        Nat.pow_mul]
    case storeWords_eq => exact storeWords_littleEndian
  · apply convertsBytes_of_exact
    case numberOf_lt => exact Bytes.bigEndianValue_lt_two_pow
    case numberOf_injective =>
      intro bytes other length number
      have written := Bytes.ofNatBigEndian_bigEndianValue bytes
      rwa [length, number, Bytes.ofNatBigEndian_bigEndianValue, eq_comm]
        at written
    case length_load => exact length_ofBigEndian
    case value_load => exact value_ofBigEndian
    case length_store => exact length_toBigEndian
    case numberOf_store =>
      intro destination number
      rw [toBigEndian_eq, Bytes.bigEndianValue_ofNatBigEndian, Nat.pow_mul]
    case storeWords_eq => exact storeWords_bigEndian

/--
Nine bytes fill a word and an eighth of another one.  Seventeen bytes hold them
behind zeros, and five bytes hold the lower part only.
-/
theorem conversions_exact_ninth_byte :
    let bytes : Bytes := [0x80, 1, 2, 3, 4, 5, 6, 7, 0xff]
    let words : Words := [5, 5, 5]
    (ofBigEndian words bytes).StandsFor 3 (bigEndianValue bytes) ∧
      ofBigEndian words bytes = [0x01020304050607ff, 0x80, 0] ∧
      toBigEndian (List.replicate 9 1) (ofBigEndian words bytes) = bytes ∧
      storeWords storeBigEndian (List.replicate 9 1)
          (ofBigEndian words bytes) =
        bytes ∧
      toBigEndian (List.replicate 17 1) (ofBigEndian words bytes) =
        List.replicate 8 0 ++ bytes ∧
      toLittleEndian (List.replicate 5 1) (ofBigEndian words bytes) =
        [0xff, 7, 6, 5, 4] := by
  intro bytes words
  have big := conversions_exact.2.1
  have back := big.store_load bytes (List.replicate 9 1) words
    (by decide) (by decide)
  refine ⟨big.load_standsFor words bytes (by decide), ?_, back, ?_, ?_, ?_⟩
  · decide +kernel
  · rw [big.storeWords_eq, back]
  · decide +kernel
  · decide +kernel

end ModularLadder.Words
