import Mathlib
import ModularLadder.Scalar
import ModularLadder.Proofs.Choice
import ModularLadder.Proofs.Encoding

/-!
# The bits of a scalar

The choices along which a ladder climbs are the bits of the scalar's number,
most significant first, eight of them for each byte.  A climb that doubles at
each bit and adds the bit finds the number again.
-/

namespace ModularLadder.Scalar

/-- The lowest bits of a number, most significant first. -/
def highestFirst : (count number : Nat) → List Bool
  | 0, _ => []
  | count + 1, number => number.testBit count :: highestFirst count number

/-- The number that is reached from another one along bits. -/
def climbed (bits : List Bool) (start : Nat) : Nat :=
  bits.foldl (fun number bit => 2 * number + bit.toNat) start

/-- Only the lowest bits matter. -/
theorem highestFirst_add_mul
    (count low high : Nat) :
    highestFirst count (low + 2 ^ count * high) = highestFirst count low := by
  induction count generalizing high with
  | zero => rfl
  | succ count ih =>
    have split : 2 ^ (count + 1) * high = 2 ^ count * (2 * high) := by
      rw [Nat.pow_succ, Nat.mul_assoc]
    have highest :
        (low + 2 ^ count * (2 * high)).testBit count = low.testBit count := by
      rw [Nat.testBit_eq_decide_div_mod_eq, Nat.testBit_eq_decide_div_mod_eq,
        Nat.add_mul_div_left _ _ (Nat.two_pow_pos count),
        Nat.add_mul_mod_self_left]
    rw [highestFirst, highestFirst, split, highest, ih]

/-- More bits, followed by the lowest ones. -/
theorem highestFirst_append
    (upper lower number : Nat) :
    highestFirst (upper + lower) number =
      highestFirst upper (number / 2 ^ lower) ++ highestFirst lower number := by
  induction upper with
  | zero =>
    rw [Nat.zero_add]
    rfl
  | succ upper ih =>
    rw [Nat.succ_add, highestFirst, ih, highestFirst, Nat.testBit_div_two_pow,
      List.cons_append]

theorem climbed_highestFirst
    (count number start : Nat) :
    climbed (highestFirst count number) start =
      2 ^ count * start + number % 2 ^ count := by
  induction count generalizing start with
  | zero => simp [climbed, highestFirst, Nat.mod_one]
  | succ count ih =>
    have highest : number % 2 ^ (count + 1) =
        2 ^ count * (number.testBit count).toNat + number % 2 ^ count := by
      rw [Nat.toNat_testBit, Nat.pow_succ, Nat.mod_mul, Nat.add_comm]
    rw [highestFirst, climbed, List.foldl_cons]
    show climbed (highestFirst count number) _ = _
    rw [ih, highest, Nat.pow_succ]
    ring

/-- A climb along all the bits of a number finds it. -/
theorem climbed_of_lt
    {count number : Nat}
    (bound : number < 2 ^ count) :
    climbed (highestFirst count number) 0 = number := by
  rw [climbed_highestFirst, Nat.mul_zero, Nat.zero_add, Nat.mod_eq_of_lt bound]

theorem byteBits_eq
    (byte : UInt8) :
    byteBits byte = (highestFirst 8 byte.toNat).map Choice.ofBool := by
  have bit (position : UInt8) (inside : position.toNat < 8) :
      Choice.ofBit ((byte >>> position) &&& 1).toUInt64 =
        Choice.ofBool (byte.toNat.testBit position.toNat) := by
    have number :
        ((byte >>> position) &&& 1).toUInt64.toNat =
          byte.toNat / 2 ^ position.toNat % 2 := by
      rw [UInt8.toNat_toUInt64, UInt8.toNat_and, UInt8.toNat_shiftRight,
        Nat.mod_eq_of_lt inside, Nat.shiftRight_eq_div_pow]
      exact Nat.and_one_is_mod _
    rw [Choice.ofBit_eq, number, Nat.testBit_eq_decide_div_mod_eq]
    rw [number]
    omega
  simp only [byteBits, highestFirst, List.map_cons, List.map_nil]
  rw [bit 7 (by decide), bit 6 (by decide), bit 5 (by decide),
    bit 4 (by decide), bit 3 (by decide), bit 2 (by decide),
    bit 1 (by decide), bit 0 (by decide)]
  rfl

/-- The choices of a scalar are the bits of its number. -/
theorem bits_eq
    (scalar : Bytes) :
    bits scalar =
      (highestFirst (8 * scalar.length) scalar.bigEndianValue).map
        Choice.ofBool := by
  induction scalar with
  | nil => rfl
  | cons byte rest ih =>
    have bound := Bytes.bigEndianValue_lt_two_pow rest
    have whole :
        Bytes.bigEndianValue (byte :: rest) =
          Bytes.bigEndianValue rest + 2 ^ (8 * rest.length) * byte.toNat := by
      have parts := Bytes.bigEndianValue_append [byte] rest
      have radix : 256 ^ rest.length = 2 ^ (8 * rest.length) := by
        rw [Nat.pow_mul]
      rw [List.singleton_append, radix] at parts
      rw [parts, Nat.add_comm]
      simp [Bytes.bigEndianValue]
    have upper :
        Bytes.bigEndianValue (byte :: rest) / 2 ^ (8 * rest.length) =
          byte.toNat := by
      rw [whole, Nat.add_mul_div_left _ _ (Nat.two_pow_pos _),
        Nat.div_eq_of_lt bound, Nat.zero_add]
    rw [bits, List.flatMap_cons, ← bits, ih, byteBits_eq, List.length_cons,
      Nat.mul_succ, Nat.add_comm, highestFirst_append, upper, whole,
      highestFirst_add_mul, List.map_append]

/-- The bits of a scalar, along which a climb finds its number. -/
theorem exists_bits
    (scalar : Bytes) :
    ∃ list : List Bool,
      bits scalar = list.map Choice.ofBool ∧
        climbed list 0 = scalar.bigEndianValue := by
  have bound := Bytes.bigEndianValue_lt_two_pow scalar
  exact ⟨_, bits_eq scalar, climbed_of_lt bound⟩

/-- A scalar is odd exactly if its number is. -/
theorem isOdd_eq
    (scalar : Bytes) :
    isOdd scalar =
      Choice.ofBool (decide (scalar.bigEndianValue % 2 = 1)) := by
  rcases List.eq_nil_or_concat' scalar with empty | ⟨upper, last, whole⟩
  · rw [empty]
    rfl
  · have bit :
        (last &&& 1).toUInt64.toNat = scalar.bigEndianValue % 2 := by
      rw [UInt8.toNat_toUInt64, UInt8.toNat_and, whole,
        Bytes.bigEndianValue_append_singleton]
      show last.toNat &&& 1 = _
      rw [Nat.and_one_is_mod]
      omega
    have final : isOdd scalar = Choice.ofBit (last &&& 1).toUInt64 := by
      rw [isOdd, whole, List.getLast?_concat]
    rw [final]
    rw [Choice.ofBit_eq, bit]
    rw [bit]
    omega

end ModularLadder.Scalar
