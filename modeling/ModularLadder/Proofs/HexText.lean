import Mathlib
import ModularLadder.HexText

/-!
# Hexadecimal text is read as it is written

Every byte is written by two digits, its high half before its low half, and
every digit that is a letter may be written in either case.  A choice of case
for each place of the text makes one written form; lower, upper and mixed case
are such choices.

Reading accepts the written forms of as many bytes as are expected and nothing
else.  What it refuses, it refuses for the length of the UTF-8 form first and
for a foreign character second.  The written forms of one byte string become
equal once all letters are lower case, and those of different strings never
do.
-/

namespace ModularLadder.HexText

/-! ## Written forms -/

/-- The digit of a half byte, in upper or in lower case. -/
def digitCharacter (upper : Bool) (half : Nat) : Char :=
  let digits : List Char :=
    if upper then
      ['0', '1', '2', '3', '4', '5', '6', '7', '8', '9', 'A', 'B', 'C', 'D',
        'E', 'F']
    else
      ['0', '1', '2', '3', '4', '5', '6', '7', '8', '9', 'a', 'b', 'c', 'd',
        'e', 'f']
  digits.getD half '0'

/-- The digits of bytes in order, with a choice of case for every place. -/
def digitCharacters (upper : Nat → Bool) : Bytes → List Char
  | [] => []
  | byte :: rest =>
    digitCharacter (upper 0) (byte.toNat / 16) ::
      digitCharacter (upper 1) (byte.toNat % 16) ::
        digitCharacters (fun place => upper (place + 2)) rest

/-- The written form of bytes under a choice of case. -/
def encode (upper : Nat → Bool) (bytes : Bytes) : String :=
  String.ofList (digitCharacters upper bytes)

/-- The characters `0` to `9`, `a` to `f` and `A` to `F`. -/
def IsDigit (character : UInt8) : Prop :=
  ('0'.toUInt8 ≤ character ∧ character ≤ '9'.toUInt8) ∨
    ('a'.toUInt8 ≤ character ∧ character ≤ 'f'.toUInt8) ∨
      ('A'.toUInt8 ≤ character ∧ character ≤ 'F'.toUInt8)

instance : DecidablePred IsDigit :=
  fun _ => inferInstanceAs (Decidable (_ ∨ _ ∨ _))

/-- A digit has the value of a half byte, and its character is known from it. -/
theorem digit_cases
    (character : UInt8) :
    (∃ half : Fin 16,
        digit character = .ok (UInt8.ofNat half) ∧
          IsDigit character ∧
          ∃ upper, character = (digitCharacter upper half).toUInt8) ∨
      digit character = .error .character ∧ ¬ IsDigit character := by
  revert character
  decide +kernel

theorem digit_digitCharacter
    (upper : Bool)
    (half : Fin 16) :
    digit (digitCharacter upper half).toUInt8 = .ok (UInt8.ofNat half) := by
  revert upper half
  decide

theorem toLower_digitCharacter
    (upper : Bool)
    (half : Fin 16) :
    (digitCharacter upper half).toLower = digitCharacter false half := by
  revert upper half
  decide

theorem digitCharacter_ascii
    (upper : Bool)
    (half : Fin 16) :
    (digitCharacter upper half).val ≤ 127 := by
  revert upper half
  decide

/-- The halves of a byte make up the byte. -/
theorem join_halves
    (byte : UInt8) :
    UInt8.ofNat (byte.toNat / 16) <<< 4 ||| UInt8.ofNat (byte.toNat % 16) =
      byte := by
  revert byte
  decide +kernel

/-- The value of the higher half of a byte. -/
def highHalf (byte : UInt8) : Fin 16 :=
  ⟨byte.toNat / 16, by have bound := byte.toNat_lt; omega⟩

/-- The value of the lower half of a byte. -/
def lowHalf (byte : UInt8) : Fin 16 :=
  ⟨byte.toNat % 16, Nat.mod_lt _ (by decide)⟩

theorem digitCharacters_cons
    (upper : Nat → Bool)
    (byte : UInt8)
    (rest : Bytes) :
    digitCharacters upper (byte :: rest) =
      digitCharacter (upper 0) (highHalf byte) ::
        digitCharacter (upper 1) (lowHalf byte) ::
          digitCharacters (fun place => upper (place + 2)) rest :=
  rfl

@[simp]
theorem length_digitCharacters
    (upper : Nat → Bool)
    (bytes : Bytes) :
    (digitCharacters upper bytes).length = 2 * bytes.length := by
  induction bytes generalizing upper with
  | nil => rfl
  | cons byte rest ih =>
    rw [digitCharacters_cons, List.length_cons, List.length_cons, ih,
      List.length_cons]
    omega

theorem digitCharacters_ascii
    (upper : Nat → Bool)
    (bytes : Bytes) :
    ∀ character ∈ digitCharacters upper bytes, character.val ≤ 127 := by
  induction bytes generalizing upper with
  | nil => simp [digitCharacters]
  | cons byte rest ih =>
    rw [digitCharacters_cons]
    simp only [List.forall_mem_cons]
    exact ⟨digitCharacter_ascii _ _, digitCharacter_ascii _ _, ih _⟩

theorem toLower_digitCharacters
    (upper : Nat → Bool)
    (bytes : Bytes) :
    (digitCharacters upper bytes).map Char.toLower =
      digitCharacters (fun _ => false) bytes := by
  induction bytes generalizing upper with
  | nil => rfl
  | cons byte rest ih =>
    rw [digitCharacters_cons, digitCharacters_cons, List.map_cons,
      List.map_cons, toLower_digitCharacter, toLower_digitCharacter, ih]

/-- Lower case makes all written forms equal. -/
theorem toLower_encode
    (upper : Nat → Bool)
    (bytes : Bytes) :
    (encode upper bytes).toLower = encode (fun _ => false) bytes := by
  rw [← String.toList_inj, String.toLower, String.toList_map, encode, encode,
    String.toList_ofList, String.toList_ofList, toLower_digitCharacters]

/-! ## The characters of a text -/

section Characters

theorem characters_injective
    {text other : String}
    (same : characters text = characters other) :
    text = other := by
  rw [← String.toByteArray_inj, ByteArray.ext_iff]
  exact Array.toList_inj.1 same

/-- Characters of one byte each are the bytes of the text. -/
theorem characters_ofList
    (digits : List Char)
    (ascii : ∀ character ∈ digits, character.val ≤ 127) :
    characters (String.ofList digits) = digits.map Char.toUInt8 := by
  rw [characters, String.toUTF8_eq_toByteArray, String.toByteArray_ofList,
    List.utf8Encode, List.data_toByteArray, List.map_eq_flatMap]
  apply List.flatMap_congr
  intro character member
  exact
    String.utf8EncodeChar_eq_singleton
      (Char.utf8Size_eq_one_iff.2 (ascii character member))

theorem characters_encode
    (upper : Nat → Bool)
    (bytes : Bytes) :
    characters (encode upper bytes) =
      (digitCharacters upper bytes).map Char.toUInt8 :=
  characters_ofList _ (digitCharacters_ascii upper bytes)

end Characters

/-! ## Pairs of digits -/

theorem joinPairs_digitCharacters
    (upper : Nat → Bool)
    (bytes : Bytes) :
    joinPairs ((digitCharacters upper bytes).map Char.toUInt8) =
      .ok bytes := by
  induction bytes generalizing upper with
  | nil => rfl
  | cons byte rest ih =>
    rw [digitCharacters_cons, List.map_cons, List.map_cons, joinPairs,
      digit_digitCharacter, digit_digitCharacter, ih]
    exact congrArg (fun first => Except.ok (first :: rest)) (join_halves byte)

theorem highHalf_join
    (high low : Fin 16) :
    highHalf (UInt8.ofNat (16 * high + low)) = high := by
  revert high low
  decide

theorem lowHalf_join
    (high low : Fin 16) :
    lowHalf (UInt8.ofNat (16 * high + low)) = low := by
  revert high low
  decide

/-- The case of a byte's two digits, and a choice for those that follow. -/
def caseOfPair (high low : Bool) (rest : Nat → Bool) : Nat → Bool
  | 0 => high
  | 1 => low
  | place + 2 => rest place

theorem exists_pair
    {count : Nat}
    {text : List UInt8}
    (length : text.length = 2 * (count + 1)) :
    ∃ first second rest,
      text = first :: second :: rest ∧ rest.length = 2 * count := by
  match text with
  | [] => simp at length
  | [_] =>
    rw [List.length_singleton] at length
    omega
  | first :: second :: rest =>
    rw [List.length_cons, List.length_cons] at length
    exact ⟨first, second, rest, rfl, by omega⟩

/-- Any pairs of digits are a written form. -/
theorem exists_digitCharacters
    (count : Nat)
    (text : List UInt8)
    (length : text.length = 2 * count)
    (digits : ∀ character ∈ text, IsDigit character) :
    ∃ upper bytes,
      bytes.length = count ∧
        text = (digitCharacters upper bytes).map Char.toUInt8 := by
  induction count generalizing text with
  | zero =>
    rw [List.eq_nil_of_length_eq_zero length]
    exact ⟨fun _ => false, [], rfl, rfl⟩
  | succ count ih =>
    rcases exists_pair length with ⟨first, second, rest, rfl, restLength⟩
    simp only [List.forall_mem_cons] at digits
    rcases digits with ⟨isFirst, isSecond, areRest⟩
    rcases digit_cases first with ⟨high, -, -, highCase, firstEq⟩ | ⟨-, foreign⟩
    case inr => exact absurd isFirst foreign
    rcases digit_cases second with ⟨low, -, -, lowCase, secondEq⟩ | ⟨-, foreign⟩
    case inr => exact absurd isSecond foreign
    rcases ih rest restLength areRest with ⟨upper, bytes, countEq, restEq⟩
    refine
      ⟨caseOfPair highCase lowCase upper,
        UInt8.ofNat (16 * high + low) :: bytes, ?_, ?_⟩
    · rw [List.length_cons, countEq]
    · rw [digitCharacters_cons, highHalf_join, lowHalf_join, firstEq, secondEq,
        restEq]
      rfl

/-- A character that is no digit is found wherever it stands. -/
theorem joinPairs_of_foreign
    (count : Nat)
    (text : List UInt8)
    (length : text.length = 2 * count)
    (foreign : ∃ character ∈ text, ¬ IsDigit character) :
    joinPairs text = .error .character := by
  induction count generalizing text with
  | zero =>
    rw [List.eq_nil_of_length_eq_zero length] at foreign
    simp at foreign
  | succ count ih =>
    rcases exists_pair length with ⟨first, second, rest, rfl, restLength⟩
    rw [joinPairs]
    rcases digit_cases first with ⟨high, readFirst, isFirst, -⟩ | ⟨refused, -⟩
    case inr =>
      rw [refused]
      rfl
    rcases digit_cases second with ⟨low, readSecond, isSecond, -⟩ | ⟨refused, -⟩
    case inr =>
      rw [readFirst, refused]
      rfl
    have later : ∃ character ∈ rest, ¬ IsDigit character := by
      simpa [isFirst, isSecond] using foreign
    rw [readFirst, readSecond, ih rest restLength later]
    rfl

/-! ## Reading a text -/

section Decoding

variable
  {count : Nat}
  {text : String}

theorem decode_of_size_ne
    (size : text.utf8ByteSize ≠ 2 * count) :
    decode count text = .error .length :=
  if_neg size

theorem decode_of_foreign
    (size : text.utf8ByteSize = 2 * count)
    (foreign : ∃ character ∈ characters text, ¬ IsDigit character) :
    decode count text = .error .character :=
  (if_pos size).trans (joinPairs_of_foreign count _ size foreign)

theorem decode_encode
    (upper : Nat → Bool)
    (bytes : Bytes) :
    decode bytes.length (encode upper bytes) = .ok bytes := by
  have size :
      (characters (encode upper bytes)).length = 2 * bytes.length := by
    simp [characters_encode]
  rw [decode, if_pos size, characters_encode, joinPairs_digitCharacters]

/-- A text of the right size that holds digits only is a written form. -/
theorem exists_encode
    (size : text.utf8ByteSize = 2 * count)
    (digits : ∀ character ∈ characters text, IsDigit character) :
    ∃ upper bytes, bytes.length = count ∧ text = encode upper bytes := by
  rcases exists_digitCharacters count (characters text) size digits with
    ⟨upper, bytes, countEq, written⟩
  refine ⟨upper, bytes, countEq, ?_⟩
  apply characters_injective
  rw [characters_encode, written]

/-- What is read has been written. -/
theorem exists_encode_of_decode
    {bytes : Bytes}
    (accepted : decode count text = .ok bytes) :
    bytes.length = count ∧ ∃ upper, text = encode upper bytes := by
  by_cases size : text.utf8ByteSize = 2 * count
  · by_cases digits : ∀ character ∈ characters text, IsDigit character
    · rcases exists_encode size digits with ⟨upper, others, rfl, rfl⟩
      rw [decode_encode] at accepted
      cases accepted
      exact ⟨rfl, upper, rfl⟩
    · push Not at digits
      rw [decode_of_foreign size digits] at accepted
      cases accepted
  · rw [decode_of_size_ne size] at accepted
    cases accepted

end Decoding

/-! ## What reading accepts and refuses -/

/-- Two written forms stand for the same bytes if they differ in case only. -/
theorem toLower_encode_eq_iff
    (upper otherUpper : Nat → Bool)
    (bytes others : Bytes) :
    (encode upper bytes).toLower = (encode otherUpper others).toLower ↔
      bytes = others := by
  rw [toLower_encode, toLower_encode]
  constructor
  · intro same
    have read := decode_encode (fun _ => false) bytes
    have size : bytes.length = others.length := by
      have lengths := congrArg (fun text => (characters text).length) same
      simp [characters_encode] at lengths
      omega
    rw [same, size, decode_encode] at read
    cases read
    rfl
  · rintro rfl
    rfl

/-- How a text is read as a known number of bytes. -/
structure Reads (count : Nat) : Prop where
  /-- The size of the UTF-8 form is looked at before anything else. -/
  decode_length_iff (text : String) :
    decode count text = .error .length ↔ text.utf8ByteSize ≠ 2 * count
  /-- In a text of the right size every character has to be a digit. -/
  decode_character_iff (text : String) :
    decode count text = .error .character ↔
      text.utf8ByteSize = 2 * count ∧
        ∃ character ∈ characters text, ¬ IsDigit character
  /-- Any other text is read. -/
  exists_decode_iff (text : String) :
    (∃ bytes, decode count text = .ok bytes) ↔
      text.utf8ByteSize = 2 * count ∧
        ∀ character ∈ characters text, IsDigit character
  /-- It is read as the bytes that it is a written form of. -/
  decode_ok_iff (text : String) (bytes : Bytes) :
    decode count text = .ok bytes ↔
      bytes.length = count ∧ ∃ upper, text = encode upper bytes
  /-- What is written in whatever case is read again. -/
  decode_written (upper : Nat → Bool) (bytes : Bytes) :
    bytes.length = count → decode count (encode upper bytes) = .ok bytes
  /-- Texts that are read alike differ in letter case only. -/
  same_bytes_iff (otherCount : Nat) (text other : String)
      (bytes others : Bytes) :
    decode count text = .ok bytes →
      decode otherCount other = .ok others →
        (bytes = others ↔ text.toLower = other.toLower)

/-- The three cases of a text, with the outcome of each. -/
theorem decode_cases
    (count : Nat)
    (text : String) :
    (text.utf8ByteSize ≠ 2 * count ∧ decode count text = .error .length) ∨
      (text.utf8ByteSize = 2 * count ∧
        (∃ character ∈ characters text, ¬ IsDigit character) ∧
          decode count text = .error .character) ∨
        text.utf8ByteSize = 2 * count ∧
          (∀ character ∈ characters text, IsDigit character) ∧
            ∃ bytes, decode count text = .ok bytes := by
  by_cases size : text.utf8ByteSize = 2 * count
  · right
    by_cases digits : ∀ character ∈ characters text, IsDigit character
    · rcases exists_encode size digits with ⟨upper, bytes, rfl, rfl⟩
      exact .inr ⟨size, digits, bytes, decode_encode upper bytes⟩
    · push Not at digits
      exact .inl ⟨size, digits, decode_of_foreign size digits⟩
  · exact .inl ⟨size, decode_of_size_ne size⟩

/-- Every number of bytes is read so. -/
theorem written_forms_read
    (count : Nat) :
    Reads count := by
  constructor
  case decode_length_iff =>
    intro text
    rcases decode_cases count text with
      ⟨size, refused⟩ | ⟨size, -, refused⟩ | ⟨size, -, bytes, read⟩
    · exact iff_of_true refused size
    · simp [refused, size]
    · simp [read, size]
  case decode_character_iff =>
    intro text
    rcases decode_cases count text with
      ⟨size, refused⟩ | ⟨size, foreign, refused⟩ | ⟨size, digits, bytes, read⟩
    · simp [refused, size]
    · exact iff_of_true refused ⟨size, foreign⟩
    · simpa [read, size] using digits
  case exists_decode_iff =>
    intro text
    rcases decode_cases count text with
      ⟨size, refused⟩ | ⟨size, foreign, refused⟩ | ⟨size, digits, read⟩
    · simp [refused, size]
    · simpa [refused, size] using foreign
    · exact iff_of_true read ⟨size, digits⟩
  case decode_ok_iff =>
    intro text bytes
    constructor
    · exact exists_encode_of_decode
    · rintro ⟨rfl, upper, rfl⟩
      exact decode_encode upper bytes
  case decode_written =>
    rintro upper bytes rfl
    exact decode_encode upper bytes
  case same_bytes_iff =>
    intro otherCount text other bytes others read otherRead
    rcases exists_encode_of_decode read with ⟨-, upper, rfl⟩
    rcases exists_encode_of_decode otherRead with ⟨-, otherUpper, rfl⟩
    exact (toLower_encode_eq_iff upper otherUpper bytes others).symm

/--
Two bytes in mixed case, a text with one digit too few, and a character that
takes the two bytes of an expected pair.
-/
theorem written_forms_read_mixed_case :
    decode 2 "0aF9" = .ok [0x0a, 0xf9] ∧
      "0aF9".toLower = "0Af9".toLower ∧
      decode 2 "0aF" = .error .length ∧
      decode 1 "é" = .error .character := by
  have mixed : decode 2 "0aF9" = .ok [0x0a, 0xf9] :=
    ((written_forms_read 2).decode_ok_iff _ _).2
      ⟨rfl, fun place => place == 2, by decide⟩
  have other : decode 2 "0Af9" = .ok [0x0a, 0xf9] :=
    ((written_forms_read 2).decode_ok_iff _ _).2
      ⟨rfl, fun place => place == 1, by decide⟩
  refine
    ⟨mixed, ((written_forms_read 2).same_bytes_iff 2 _ _ _ _ mixed other).1 rfl,
      ?_, ?_⟩
  · exact ((written_forms_read 2).decode_length_iff _).2 (by decide)
  · exact ((written_forms_read 1).decode_character_iff _).2 (by decide)

end ModularLadder.HexText
