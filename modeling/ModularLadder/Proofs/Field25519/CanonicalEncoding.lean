import Mathlib
import ModularLadder.Proofs.Field25519.Encoding
import ModularLadder.Proofs.Field25519.Reduction

/-!
# Encodings of elements are unique

An element may have any limbs, and many elements stand for one number modulo
`p`.  Its encoding depends on that number only: it is the one string of 32
bytes, or the one list of four words, with the least number that is congruent
to the value of the element.

Conversely a string is read as the only element of nominal limbs that stands
for the number of the string without bit 255.  That number may still be `p` or
more, and is then written differently; the canonical reading refuses it, and
any string with bit 255 as well.
-/

namespace ModularLadder.Field25519

/-- Limbs of nominal width are the digits of their number. -/
theorem digits_weighted
    {x : TenLimbs Nat}
    (below : x.Below (2 ^ 26) (2 ^ 25)) :
    digits x.weighted = x := by
  rcases below with ⟨h0, h1, h2, h3, h4, h5, h6, h7, h8, h9⟩
  obtain ⟨l0, l1, l2, l3, l4, l5, l6, l7, l8, l9⟩ := x
  dsimp only at h0 h1 h2 h3 h4 h5 h6 h7 h8 h9
  simp only [digits, TenLimbs.weighted_eq, TenLimbs.mk.injEq]
  omega

namespace Element

/--
The encodings of an element are the only ones of their length that stand for
the least number with its value, and are found without an overflow.
-/
structure UniquelyWritten (x : Element) : Prop where
  checked_eq : toLittleEndian? x = some x.toLittleEndian
  littleEndian :
    ∀ bytes : Bytes,
      bytes = x.toLittleEndian ↔
        bytes.length = byteLength ∧
          bytes.littleEndianValue = x.value % prime
  bigEndian :
    ∀ bytes : Bytes,
      bytes = x.toBigEndian ↔
        bytes.length = byteLength ∧ bytes.bigEndianValue = x.value % prime
  words :
    ∀ words : Words,
      words = x.toWords ↔
        words.length = 4 ∧ Words.value words = x.value % prime

/--
The only element of nominal limbs that stands for a number without what lies
above bit 254.
-/
def IsReading (x : Element) (number : Nat) : Prop :=
  ∀ y : Element, y = x ↔ y.Nominal ∧ y.value = number % 2 ^ 255

/-- Elements of nominal limbs are the same if their numbers are. -/
theorem Nominal.eq_of_value_eq
    {x y : Element}
    (xNominal : x.Nominal)
    (yNominal : y.Nominal)
    (same : x.value = y.value) :
    x = y := by
  apply limbs_injective
  rw [← digits_weighted xNominal, ← digits_weighted yNominal, ← value_eq,
    ← value_eq, same]

theorem uniquelyWritten
    (x : Element) :
    x.UniquelyWritten := by
  have room : x.value % prime < 256 ^ 32 :=
    (Nat.mod_lt _ prime_prime.pos).trans (by decide)
  constructor
  case checked_eq => exact toLittleEndian_checked x
  case littleEndian =>
    intro bytes
    rw [toLittleEndian_eq, val_residue, Bytes.eq_ofNatLittleEndian_iff,
      Nat.mod_eq_of_lt room, byteLength]
  case bigEndian =>
    intro bytes
    rw [toBigEndian_eq, val_residue, Bytes.eq_ofNatBigEndian_iff,
      Nat.mod_eq_of_lt room, byteLength]
  case words =>
    intro words
    rw [← val_residue, ← value_toWords]
    constructor
    · rintro rfl
      exact ⟨length_toWords x, rfl⟩
    · rintro ⟨length, value⟩
      exact Words.eq_of_value_eq words x.toWords length value

/-- Nominal limbs and a number below `2^255` determine an element. -/
theorem isReading_of_nominal
    {x : Element}
    {number : Nat}
    (nominal : x.Nominal)
    (value : x.value = number % 2 ^ 255) :
    x.IsReading number := by
  intro y
  constructor
  · rintro rfl
    exact ⟨nominal, value⟩
  · rintro ⟨yNominal, yValue⟩
    exact yNominal.eq_of_value_eq nominal (yValue.trans value.symm)

theorem isReading_ofLittleEndian
    (bytes : Bytes) :
    (ofLittleEndian bytes).IsReading bytes.littleEndianValue :=
  isReading_of_nominal (nominal_ofLittleEndian bytes)
    (value_ofLittleEndian bytes)

theorem isReading_ofBigEndian
    (bytes : Bytes) :
    (ofBigEndian bytes).IsReading bytes.bigEndianValue := by
  rw [Bytes.bigEndianValue_eq_reverse]
  exact isReading_ofLittleEndian bytes.reverse

theorem isReading_ofWords
    (words : Words) :
    (ofWords words).IsReading (Words.value words) := by
  rw [← Words.littleEndianValue_flatMap]
  exact isReading_ofLittleEndian (words.flatMap Word.littleEndianBytes)

/-- The four words of a string are read like the string itself. -/
theorem ofWords_ofLittleEndian
    (bytes : Bytes) :
    ofWords (Words.ofLittleEndian (Words.zeros 4) bytes) =
      ofLittleEndian bytes := by
  apply (isReading_ofLittleEndian bytes _).2
  rcases (isReading_ofWords _ _).1 rfl with ⟨nominal, value⟩
  refine ⟨nominal, value.trans ?_⟩
  rw [Words.value_ofLittleEndian]
  exact Nat.mod_mod_of_dvd _ (Nat.pow_dvd_pow 2 (by decide))

/-- A canonical string is written again as it was read. -/
theorem toBigEndian_ofBigEndian
    {bytes : Bytes}
    (length : bytes.length = byteLength)
    (less : bytes.bigEndianValue < prime) :
    (ofBigEndian bytes).toBigEndian = bytes := by
  symm
  rw [(uniquelyWritten _).bigEndian, ← val_residue,
    val_residue_ofBigEndian less]
  exact ⟨length, rfl⟩

/-- The strings that the canonical reading accepts, and what it answers. -/
theorem ofCanonical?_eq_some_iff
    {bytes : Bytes}
    {x : Element} :
    ofCanonical? bytes = some x ↔
      (bytes.length = byteLength ∧ bytes.bigEndianValue < prime) ∧
        x = ofBigEndian bytes := by
  by_cases length : bytes.length = byteLength
  · rw [ofCanonical?_eq bytes length]
    by_cases less : bytes.bigEndianValue < prime <;>
      simp [length, less, eq_comm]
  · have refused : (ofBigEndian bytes).toBigEndian ≠ bytes := by
      intro same
      exact length (((uniquelyWritten _).bigEndian bytes).1 same.symm).1
    simp [ofCanonical?, refused, length]

/--
Elements are written as the unique encodings of the least numbers with their
values, whatever their limbs are, and compare as equal exactly if their values
are congruent modulo `p`.  Strings and words are read as the unique elements
of nominal limbs that stand for their numbers without bit 255.  The canonical
reading accepts exactly the strings of 32 bytes with a number below `p`, which
the element is written by again.
-/
theorem encodings_are_canonical :
    (∀ x : Element, x.UniquelyWritten) ∧
      (∀ x y : Element,
        x.eq y = Choice.ofBool (decide (x.value ≡ y.value [MOD prime]))) ∧
      (∀ bytes : Bytes,
        (ofLittleEndian bytes).IsReading bytes.littleEndianValue ∧
          (ofBigEndian bytes).IsReading bytes.bigEndianValue ∧
          ofBigEndian bytes.reverse = ofLittleEndian bytes ∧
          ofWords (Words.ofLittleEndian (Words.zeros 4) bytes) =
            ofLittleEndian bytes) ∧
      (∀ words : Words, (ofWords words).IsReading (Words.value words)) ∧
      ∀ bytes : Bytes,
        ((ofCanonical? bytes).isSome ↔
          bytes.length = byteLength ∧ bytes.bigEndianValue < prime) ∧
          ∀ x, ofCanonical? bytes = some x →
            x.value = bytes.bigEndianValue ∧ x.toBigEndian = bytes := by
  refine ⟨uniquelyWritten, ?_, ?_, isReading_ofWords, ?_⟩
  · intro x y
    rw [eq_eq]
    simp only [residue_eq_iff]
  · intro bytes
    refine
      ⟨isReading_ofLittleEndian bytes, isReading_ofBigEndian bytes, ?_,
        ofWords_ofLittleEndian bytes⟩
    rw [ofBigEndian, List.reverse_reverse]
  · intro bytes
    simp only [Option.isSome_iff_exists, ofCanonical?_eq_some_iff,
      exists_and_left, exists_eq, and_true, true_and]
    rintro x ⟨⟨length, less⟩, rfl⟩
    refine ⟨?_, toBigEndian_ofBigEndian length less⟩
    have modulus := TenLimbs.prime_add
    rw [value_ofBigEndian, Nat.mod_eq_of_lt (by omega)]

/--
The number before the modulus is read and written again.  The one after it is
refused by the canonical reading, and otherwise written as one.
-/
theorem encodings_are_canonical_near_prime :
    let before := Bytes.ofNatBigEndian byteLength (prime - 1)
    let after := Bytes.ofNatBigEndian byteLength (prime + 1)
    (∃ x, ofCanonical? before = some x ∧ x.toBigEndian = before) ∧
      ¬(ofCanonical? after).isSome ∧
      (ofBigEndian after).toBigEndian = Bytes.ofNatBigEndian byteLength 1 := by
  intro before after
  rcases encodings_are_canonical with ⟨written, -, read, -, canonical⟩
  have before_value : before.bigEndianValue = prime - 1 := by
    rw [Bytes.bigEndianValue_ofNatBigEndian]
    exact Nat.mod_eq_of_lt (by decide)
  have after_value : after.bigEndianValue = prime + 1 := by
    rw [Bytes.bigEndianValue_ofNatBigEndian]
    exact Nat.mod_eq_of_lt (by decide)
  have accepted : (ofCanonical? before).isSome := by
    rw [(canonical before).1, before_value]
    exact ⟨Bytes.length_ofNatBigEndian _ _, by decide⟩
  refine ⟨?_, ?_, ?_⟩
  · rcases Option.isSome_iff_exists.1 accepted with ⟨x, x_eq⟩
    exact ⟨x, x_eq, ((canonical before).2 x x_eq).2⟩
  · rw [(canonical after).1, after_value]
    rintro ⟨-, less⟩
    exact absurd less (by decide)
  · symm
    rw [(written _).bigEndian, (((read after).2.1 _).1 rfl).2, after_value]
    exact ⟨Bytes.length_ofNatBigEndian _ _, by decide⟩

end Element

end ModularLadder.Field25519
