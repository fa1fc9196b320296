import Mathlib
import ModularLadder.Proofs.Positional
import ModularLadder.Words.Encoding

/-!
# Numbers in words and in bytes

Words and bytes are two groupings of one number.  Loading a byte string fills
the words with the number of the string, modulo the radix to their width, and
storing words fills the bytes with the number of the words, modulo the radix
to their length.  Big-endian strings are the reversed little-endian ones.
-/

namespace ModularLadder

/-! ## Byte strings -/

namespace Bytes

/-- Reading and writing again at the same length gives the same string. -/
theorem ofNatLittleEndian_littleEndianValue
    (bytes : Bytes) :
    ofNatLittleEndian bytes.length (littleEndianValue bytes) = bytes := by
  induction bytes with
  | nil => rfl
  | cons byte rest ih =>
    have bound := byte.toNat_lt
    have lowest : UInt8.ofNat (littleEndianValue (byte :: rest)) = byte := by
      apply UInt8.toNat_inj.1
      rw [UInt8.toNat_ofNat', littleEndianValue]
      omega
    have upper :
        littleEndianValue (byte :: rest) / 256 = littleEndianValue rest := by
      rw [littleEndianValue]
      omega
    rw [List.length_cons, ofNatLittleEndian, lowest, upper, ih]

theorem ofNatBigEndian_bigEndianValue
    (bytes : Bytes) :
    ofNatBigEndian bytes.length (bigEndianValue bytes) = bytes := by
  have reversed := ofNatLittleEndian_littleEndianValue bytes.reverse
  rw [List.length_reverse, ← bigEndianValue_reverse, List.reverse_reverse]
    at reversed
  rw [ofNatBigEndian, reversed, List.reverse_reverse]

theorem bigEndianValue_eq_reverse
    (bytes : Bytes) :
    bigEndianValue bytes = littleEndianValue bytes.reverse := by
  rw [← bigEndianValue_reverse, List.reverse_reverse]

/-- A string is the only one of its length that stands for its number. -/
theorem eq_ofNatLittleEndian_iff
    (bytes : Bytes)
    (length number : Nat) :
    bytes = ofNatLittleEndian length number ↔
      bytes.length = length ∧
        littleEndianValue bytes = number % 256 ^ length := by
  constructor
  · rintro rfl
    exact
      ⟨length_ofNatLittleEndian length number,
        littleEndianValue_ofNatLittleEndian length number⟩
  · rintro ⟨rfl, value⟩
    have written :=
      ofNatLittleEndian_littleEndianValue
        (ofNatLittleEndian bytes.length number)
    rw [length_ofNatLittleEndian, littleEndianValue_ofNatLittleEndian,
      ← value, ofNatLittleEndian_littleEndianValue] at written
    exact written

theorem eq_ofNatBigEndian_iff
    (bytes : Bytes)
    (length number : Nat) :
    bytes = ofNatBigEndian length number ↔
      bytes.length = length ∧
        bigEndianValue bytes = number % 256 ^ length := by
  rw [ofNatBigEndian, bigEndianValue_eq_reverse, ← List.length_reverse,
    ← eq_ofNatLittleEndian_iff, List.reverse_eq_iff]

theorem bigEndianValue_lt
    (bytes : Bytes) :
    bigEndianValue bytes < 256 ^ bytes.length := by
  have bound := littleEndianValue_lt bytes.reverse
  rwa [← bigEndianValue_eq_reverse, List.length_reverse] at bound

theorem bigEndianValue_lt_two_pow
    (bytes : Bytes) :
    bigEndianValue bytes < 2 ^ (8 * bytes.length) := by
  rw [Nat.pow_mul]
  exact bigEndianValue_lt bytes

/-- Bytes that come first weigh more by one radix for each that follows. -/
theorem bigEndianValue_append
    (high low : Bytes) :
    bigEndianValue (high ++ low) =
      256 ^ low.length * bigEndianValue high + bigEndianValue low := by
  rw [bigEndianValue_eq_reverse, List.reverse_append, littleEndianValue_append,
    ← bigEndianValue_eq_reverse, ← bigEndianValue_eq_reverse,
    List.length_reverse, Nat.add_comm]

theorem bigEndianValue_zeros
    {bytes : Bytes}
    (zeros : ∀ byte ∈ bytes, byte = 0) :
    bigEndianValue bytes = 0 := by
  have replicated := List.eq_replicate_of_mem zeros
  rw [replicated]
  induction bytes.length with
  | zero => rfl
  | succ count ih =>
    rw [List.replicate_succ', bigEndianValue_append_singleton, ih]
    rfl

/-- A first byte that is not zero weighs at least once. -/
theorem pow_le_bigEndianValue_cons
    (byte : UInt8)
    (rest : Bytes)
    (nonzero : byte ≠ 0) :
    256 ^ rest.length ≤ bigEndianValue (byte :: rest) := by
  have positive : 1 ≤ byte.toNat := by
    apply Nat.one_le_iff_ne_zero.2
    intro zero
    exact nonzero (UInt8.toNat_inj.1 zero)
  have first : bigEndianValue [byte] = byte.toNat := by
    simp [bigEndianValue]
  have parts := bigEndianValue_append [byte] rest
  rw [first, List.singleton_append] at parts
  have scaled : 256 ^ rest.length * 1 ≤ 256 ^ rest.length * byte.toNat :=
    Nat.mul_le_mul_left _ positive
  omega

/-- Leading zeros do not contribute to a number. -/
theorem bigEndianValue_dropWhile
    (bytes : Bytes) :
    bigEndianValue (bytes.dropWhile (· == 0)) = bigEndianValue bytes := by
  induction bytes with
  | nil => rfl
  | cons byte rest ih =>
    by_cases zero : byte = 0
    · rw [List.dropWhile_cons_of_pos (by simpa using zero), ih, zero]
      rfl
    · rw [List.dropWhile_cons_of_neg (by simpa using zero)]

/-- A byte of a written number, by its place from the lowest one. -/
theorem getElem_ofNatLittleEndian
    (length value index : Nat)
    (inside : index < (ofNatLittleEndian length value).length) :
    (ofNatLittleEndian length value)[index] =
      UInt8.ofNat (value / 256 ^ index) := by
  induction length generalizing value index with
  | zero => simp [ofNatLittleEndian] at inside
  | succ length ih =>
    cases index with
    | zero => simp [ofNatLittleEndian]
    | succ index =>
      simp only [ofNatLittleEndian, List.getElem_cons_succ]
      rw [ih, Nat.div_div_eq_div_mul, ← Nat.pow_succ']

/-- The lower part of a string, by the remainder of its number. -/
theorem littleEndianValue_take
    (bytes : Bytes)
    (count : Nat) :
    littleEndianValue (bytes.take count) =
      littleEndianValue bytes % 256 ^ count := by
  have parts := littleEndianValue_append (bytes.take count) (bytes.drop count)
  have bound := littleEndianValue_lt (bytes.take count)
  rw [List.take_append_drop] at parts
  by_cases fits : count ≤ bytes.length
  · rw [List.length_take, Nat.min_eq_left fits] at parts bound
    rw [parts, Nat.add_mul_mod_self_left, Nat.mod_eq_of_lt bound]
  · have whole : bytes.take count = bytes :=
      List.take_of_length_le (by omega)
    have wide : 256 ^ bytes.length ≤ 256 ^ count :=
      Nat.pow_le_pow_right (by decide) (by omega)
    rw [whole] at bound ⊢
    exact (Nat.mod_eq_of_lt (by omega)).symm

/-- The upper part of a string, by the quotient of its number. -/
theorem littleEndianValue_drop
    (bytes : Bytes)
    (count : Nat) :
    littleEndianValue (bytes.drop count) =
      littleEndianValue bytes / 256 ^ count := by
  have parts := littleEndianValue_append (bytes.take count) (bytes.drop count)
  have bound := littleEndianValue_lt (bytes.take count)
  rw [List.take_append_drop] at parts
  by_cases fits : count ≤ bytes.length
  · rw [List.length_take, Nat.min_eq_left fits] at parts bound
    rw [parts, Nat.add_mul_div_left _ _ (Nat.pow_pos (by decide)),
      Nat.div_eq_of_lt bound, Nat.zero_add]
  · have none : bytes.drop count = [] := List.drop_of_length_le (by omega)
    have wide : 256 ^ bytes.length ≤ 256 ^ count :=
      Nat.pow_le_pow_right (by decide) (by omega)
    have whole := littleEndianValue_lt bytes
    rw [none, Nat.div_eq_of_lt (by omega)]
    rfl

end Bytes

/-! ## Bytes of a word -/

namespace Word

/-- The bytes of a word are those of its number. -/
theorem littleEndianBytes_eq
    (word : Word) :
    littleEndianBytes word = Bytes.ofNatLittleEndian 8 word.toNat := by
  apply List.ext_getElem
  · simp [littleEndianBytes]
  · intro index inside other
    simp only [littleEndianBytes, List.length_map, List.length_range] at inside
    rw [Bytes.getElem_ofNatLittleEndian]
    simp only [littleEndianBytes, List.getElem_map, List.getElem_range]
    apply UInt8.toNat_inj.1
    have amount : (UInt64.ofNat (8 * index)).toNat % 64 = 8 * index := by
      rw [UInt64.toNat_ofNat']
      omega
    rw [UInt64.toNat_toUInt8, UInt64.toNat_shiftRight, amount,
      Nat.shiftRight_eq_div_pow, UInt8.toNat_ofNat', Nat.pow_mul]

@[simp]
theorem length_littleEndianBytes
    (word : Word) :
    (littleEndianBytes word).length = 8 := by
  simp [littleEndianBytes]

theorem littleEndianValue_littleEndianBytes
    (word : Word) :
    Bytes.littleEndianValue (littleEndianBytes word) = word.toNat := by
  rw [littleEndianBytes_eq, Bytes.littleEndianValue_ofNatLittleEndian]
  exact Nat.mod_eq_of_lt word.toNat_lt

end Word

/-! ## Loading and storing words -/

namespace Words

/-- The bytes of words in order have the number of the words. -/
theorem littleEndianValue_flatMap
    (number : Words) :
    Bytes.littleEndianValue (number.flatMap Word.littleEndianBytes) =
      value number := by
  induction number with
  | nil => rfl
  | cons word rest ih =>
    rw [List.flatMap_cons, Bytes.littleEndianValue_append, ih,
      Word.littleEndianValue_littleEndianBytes, Word.length_littleEndianBytes,
      value_cons]
    rfl

theorem length_flatMap_littleEndianBytes
    (number : Words) :
    (number.flatMap Word.littleEndianBytes).length = 8 * number.length := by
  simp [Nat.mul_comm]

/-- Up to eight bytes gathered in a word. -/
theorem toNat_foldr_bytes
    (bytes : Bytes)
    (fits : bytes.length ≤ 8) :
    (bytes.foldr
        (fun (byte : UInt8) (word : Word) => (word <<< 8) ||| byte.toUInt64)
        0).toNat =
      Bytes.littleEndianValue bytes := by
  induction bytes with
  | nil => rfl
  | cons byte rest ih =>
    rw [List.length_cons] at fits
    have upper := ih (by omega)
    have byteBound : byte.toUInt64.toNat < 2 ^ 8 := byte.toNat_lt
    have bound := Bytes.littleEndianValue_lt (byte :: rest)
    have wide : 256 ^ (byte :: rest).length ≤ 2 ^ 64 :=
      Nat.pow_le_pow_right (by decide) fits
    rw [Bytes.littleEndianValue] at bound
    rw [List.foldr_cons, UInt64.or_comm, Bytes.littleEndianValue]
    refine (Word.toNat_or_shiftLeft _ _ 8 (by decide) byteBound).trans ?_
    rw [upper, UInt8.toNat_toUInt64]
    exact Nat.mod_eq_of_lt (lt_of_lt_of_le bound wide)

/-- The word at an index is the digit of the string's number at that place. -/
theorem toNat_loadLittleEndian
    (bytes : Bytes)
    (index : Nat) :
    (loadLittleEndian bytes index).toNat =
      Bytes.littleEndianValue bytes / 2 ^ (64 * index) % 2 ^ 64 := by
  rw [loadLittleEndian, toNat_foldr_bytes _ (List.length_take_le _ _),
    Bytes.littleEndianValue_take, Bytes.littleEndianValue_drop, Nat.pow_mul,
    Nat.pow_mul]
  rfl

/-- A word of a big-endian string is that of the reversed string. -/
theorem loadBigEndian_eq_reverse
    (bytes : Bytes)
    (index : Nat) :
    loadBigEndian bytes index = loadLittleEndian bytes.reverse index := by
  rw [loadBigEndian, loadLittleEndian, List.drop_reverse, List.take_reverse,
    List.foldr_reverse, List.length_take, Nat.min_eq_left (Nat.sub_le _ _)]

/-- Filling the words takes the string's number modulo what they can hold. -/
theorem value_ofLittleEndian
    (destination : Words)
    (bytes : Bytes) :
    value (ofLittleEndian destination bytes) =
      Bytes.littleEndianValue bytes % 2 ^ (64 * destination.length) := by
  induction destination generalizing bytes with
  | nil => simp [ofLittleEndian, value, Nat.mod_one]
  | cons word rest ih =>
    have shifted :
        (fun (index : Nat) (_ : Word) => loadLittleEndian bytes (index + 1)) =
          fun index _ => loadLittleEndian (bytes.drop 8) index := by
      funext index _
      rw [loadLittleEndian, loadLittleEndian, List.drop_drop,
        Nat.mul_add, Nat.add_comm]
    have upper := ih (bytes.drop 8)
    rw [ofLittleEndian] at upper
    rw [ofLittleEndian, List.mapIdx_cons, value_cons, shifted, upper,
      toNat_loadLittleEndian, Bytes.littleEndianValue_drop, List.length_cons,
      Nat.mul_add, Nat.add_comm (64 * rest.length), Nat.pow_add, Nat.mod_mul]
    simp

/-- Filling the words takes the string's number modulo what they can hold. -/
theorem value_ofBigEndian
    (destination : Words)
    (bytes : Bytes) :
    value (ofBigEndian destination bytes) =
      Bytes.bigEndianValue bytes % 2 ^ (64 * destination.length) := by
  have reversed :
      ofBigEndian destination bytes =
        ofLittleEndian destination bytes.reverse := by
    simp only [ofBigEndian, ofLittleEndian, loadBigEndian_eq_reverse]
  rw [reversed, value_ofLittleEndian, Bytes.bigEndianValue_eq_reverse]

/-- A string that fits the words is taken whole. -/
theorem value_ofBigEndian_of_length_le
    (destination : Words)
    (bytes : Bytes)
    (fits : bytes.length ≤ 8 * destination.length) :
    value (ofBigEndian destination bytes) = Bytes.bigEndianValue bytes := by
  rw [value_ofBigEndian]
  apply Nat.mod_eq_of_lt
  apply lt_of_lt_of_le (Bytes.bigEndianValue_lt bytes)
  rw [show 256 = 2 ^ 8 from rfl, ← Nat.pow_mul]
  exact Nat.pow_le_pow_right (by decide) (by omega)

/-- The word at an index is the digit of the number at that place. -/
theorem toNat_getD
    (number : Words)
    (index : Nat) :
    (number.getD index 0).toNat = value number / 2 ^ (64 * index) % 2 ^ 64 := by
  induction number generalizing index with
  | nil => simp [value]
  | cons word rest ih =>
    have bound := word.toNat_lt
    cases index with
    | zero =>
      rw [List.getD_cons_zero, value_cons, Nat.mul_zero, Nat.pow_zero,
        Nat.div_one]
      omega
    | succ index =>
      rw [List.getD_cons_succ, ih, value_cons, Nat.mul_add,
        Nat.add_comm (64 * index), Nat.pow_add, ← Nat.div_div_eq_div_mul,
        Nat.mul_one, Nat.add_mul_div_left _ _ (Nat.two_pow_pos 64),
        Nat.div_eq_of_lt bound, Nat.zero_add]

/-- A byte of a number is its digit in radix 256 at that place. -/
theorem byteAt_eq
    (number : Words)
    (place : Nat) :
    byteAt number place = UInt8.ofNat (value number / 256 ^ place) := by
  apply UInt8.toNat_inj.1
  have amount :
      (UInt64.ofNat (8 * (place % 8))).toNat % 64 = 8 * (place % 8) := by
    rw [UInt64.toNat_ofNat']
    omega
  have wordWeight :
      2 ^ 64 = 2 ^ (8 * (place % 8)) * 2 ^ (64 - 8 * (place % 8)) := by
    rw [← Nat.pow_add]
    congr 1
    omega
  have byteWeight : 2 ^ 8 ∣ 2 ^ (64 - 8 * (place % 8)) :=
    Nat.pow_dvd_pow 2 (by omega)
  have placeWeight :
      2 ^ (64 * (place / 8)) * 2 ^ (8 * (place % 8)) = 256 ^ place := by
    rw [show 256 = 2 ^ 8 from rfl, ← Nat.pow_mul, ← Nat.pow_add]
    congr 1
    omega
  rw [byteAt, UInt64.toNat_toUInt8, UInt64.toNat_shiftRight, amount,
    Nat.shiftRight_eq_div_pow, toNat_getD, UInt8.toNat_ofNat', wordWeight,
    Nat.mod_mul_right_div_self, Nat.mod_mod_of_dvd _ byteWeight,
    Nat.div_div_eq_div_mul, placeWeight]

/-- Storing writes the number at the length of the destination. -/
theorem toLittleEndian_eq
    (destination : Bytes)
    (number : Words) :
    toLittleEndian destination number =
      Bytes.ofNatLittleEndian destination.length (value number) := by
  apply List.ext_getElem
  · simp [toLittleEndian]
  · intro index _ _
    simp only [toLittleEndian, List.getElem_mapIdx, byteAt_eq,
      Bytes.getElem_ofNatLittleEndian]

/-- Storing writes the number at the length of the destination. -/
theorem toBigEndian_eq
    (destination : Bytes)
    (number : Words) :
    toBigEndian destination number =
      Bytes.ofNatBigEndian destination.length (value number) := by
  apply List.ext_getElem
  · simp [toBigEndian]
  · intro index _ _
    simp only [toBigEndian, List.getElem_mapIdx, byteAt_eq,
      Bytes.ofNatBigEndian, List.getElem_reverse,
      Bytes.getElem_ofNatLittleEndian, Bytes.length_ofNatLittleEndian]

end Words

end ModularLadder
