import Mathlib
import ModularLadder.Bytes
import ModularLadder.Words

/-!
# Positional values

A byte string stands for a number in radix `256`, a list of words for one in
radix `2^64`.  The laws of both readings are the same: parts that follow others
weigh more by a power of the radix, and a number of a given length is below
the radix to that length.  Writing a number in bytes and reading it back keeps
it modulo that bound.

Words are put together from parts by moving one part up and filling the places
that this clears with the other one.
-/

namespace ModularLadder

namespace Bytes

/-- Bytes that follow others weigh more by one radix for each of those. -/
theorem littleEndianValue_append
    (low high : Bytes) :
    littleEndianValue (low ++ high) =
      littleEndianValue low + 256 ^ low.length * littleEndianValue high := by
  induction low with
  | nil => simp [littleEndianValue]
  | cons byte low ih =>
    rw [List.cons_append, littleEndianValue, littleEndianValue, ih,
      List.length_cons, Nat.pow_succ', Nat.mul_add, Nat.mul_assoc,
      Nat.add_assoc]

/-- A number of a given length is below the radix to that length. -/
theorem littleEndianValue_lt
    (bytes : Bytes) :
    littleEndianValue bytes < 256 ^ bytes.length := by
  induction bytes with
  | nil => simp [littleEndianValue]
  | cons byte rest ih =>
    have bound := byte.toNat_lt
    rw [littleEndianValue, List.length_cons, Nat.pow_succ']
    have step : 256 * (littleEndianValue rest + 1) ≤ 256 * 256 ^ rest.length :=
      Nat.mul_le_mul_left _ ih
    omega

theorem littleEndianValue_lt_two_pow
    (bytes : Bytes) :
    littleEndianValue bytes < 2 ^ (8 * bytes.length) := by
  rw [Nat.pow_mul]
  exact littleEndianValue_lt bytes

theorem bigEndianValue_append_singleton
    (bytes : Bytes)
    (byte : UInt8) :
    bigEndianValue (bytes ++ [byte]) =
      256 * bigEndianValue bytes + byte.toNat := by
  simp [bigEndianValue, List.foldl_append]

/-- The two readings differ by the order of the bytes only. -/
theorem bigEndianValue_reverse
    (bytes : Bytes) :
    bigEndianValue bytes.reverse = littleEndianValue bytes := by
  induction bytes with
  | nil => rfl
  | cons byte rest ih =>
    rw [List.reverse_cons, bigEndianValue_append_singleton, ih,
      littleEndianValue, Nat.add_comm]

/-- Writing keeps a number modulo the radix to the given length. -/
theorem littleEndianValue_ofNatLittleEndian
    (length value : Nat) :
    littleEndianValue (ofNatLittleEndian length value) =
      value % 256 ^ length := by
  induction length generalizing value with
  | zero => simp [ofNatLittleEndian, littleEndianValue, Nat.mod_one]
  | succ length ih =>
    rw [ofNatLittleEndian, littleEndianValue, ih, UInt8.toNat_ofNat',
      @Nat.pow_succ' 256 length, Nat.mod_mul (x := value) (a := 256)]

/-- Zero is written by zeros only. -/
theorem ofNatLittleEndian_zero
    (length : Nat) :
    ofNatLittleEndian length 0 = List.replicate length 0 := by
  induction length with
  | zero => rfl
  | succ length ih =>
    rw [ofNatLittleEndian, Nat.zero_div, ih, List.replicate_succ]
    rfl

theorem bigEndianValue_ofNatBigEndian
    (length value : Nat) :
    bigEndianValue (ofNatBigEndian length value) = value % 256 ^ length := by
  rw [ofNatBigEndian, bigEndianValue_reverse,
    littleEndianValue_ofNatLittleEndian]

end Bytes

namespace Word

/--
A word moved up by some places, with another one in the places that this
clears, stands for the sum.  What leaves the word at the top is lost.
-/
theorem toNat_or_shiftLeft
    (low high : Word)
    (place : Nat)
    (inside : place < 64)
    (lowBound : low.toNat < 2 ^ place) :
    (low ||| (high <<< UInt64.ofNat place)).toNat =
      (low.toNat + 2 ^ place * high.toNat) % 2 ^ 64 := by
  have amount : (UInt64.ofNat place).toNat % 64 = place := by
    rw [UInt64.toNat_ofNat']
    omega
  have weight : 2 ^ 64 = 2 ^ place * 2 ^ (64 - place) := by
    rw [← Nat.pow_add, Nat.add_sub_cancel' inside.le]
  have shifted :
      2 ^ place * high.toNat % 2 ^ 64 =
        2 ^ place * (high.toNat % 2 ^ (64 - place)) := by
    rw [weight, Nat.mul_mod_mul_left]
  have kept : high.toNat % 2 ^ (64 - place) < 2 ^ (64 - place) :=
    Nat.mod_lt _ (Nat.two_pow_pos _)
  have room :
      low.toNat + 2 ^ place * (high.toNat % 2 ^ (64 - place)) < 2 ^ 64 :=
    calc
      _ < 2 ^ place * (high.toNat % 2 ^ (64 - place) + 1) := by
        rw [Nat.mul_add]
        omega
      _ ≤ 2 ^ place * 2 ^ (64 - place) := Nat.mul_le_mul_left _ kept
      _ = 2 ^ 64 := weight.symm
  calc
    (low ||| (high <<< UInt64.ofNat place)).toNat =
        2 ^ place * (high.toNat % 2 ^ (64 - place)) ||| low.toNat := by
      rw [UInt64.toNat_or, UInt64.toNat_shiftLeft, amount, Nat.shiftLeft_eq,
        Nat.mul_comm high.toNat, shifted, Nat.or_comm]
    _ = 2 ^ place * (high.toNat % 2 ^ (64 - place)) + low.toNat :=
      (Nat.two_pow_add_eq_or_of_lt lowBound _).symm
    _ = (low.toNat + 2 ^ place * high.toNat) % 2 ^ 64 := by
      rw [← Nat.add_mod_mod, shifted, Nat.mod_eq_of_lt room, Nat.add_comm]

end Word

namespace Words

/-- The lowest word, and all others one radix higher. -/
theorem value_cons
    (word : Word)
    (rest : Words) :
    value (word :: rest) = word.toNat + 2 ^ 64 * value rest := by
  rw [value, Nat.shiftLeft_eq, Nat.one_mul]

@[simp]
theorem value_zeros
    (width : Nat) :
    value (zeros width) = 0 := by
  induction width with
  | zero => rfl
  | succ width ih =>
    rw [zeros] at ih
    simp [zeros, List.replicate_succ, value, ih]

/-- Words that follow others weigh more by one radix for each of those. -/
theorem value_append
    (low high : Words) :
    value (low ++ high) = value low + 2 ^ (64 * low.length) * value high := by
  induction low with
  | nil => simp [value]
  | cons word low ih =>
    rw [List.cons_append, value_cons, value_cons, ih, List.length_cons,
      Nat.mul_add, Nat.mul_add, Nat.pow_add]
    rw [← Nat.mul_assoc, Nat.mul_comm (2 ^ 64) (2 ^ (64 * low.length)),
      Nat.add_assoc]

/-- A number of a given width is below the radix to that width. -/
theorem value_lt
    (number : Words) :
    value number < 2 ^ (64 * number.length) := by
  induction number with
  | nil => simp [value]
  | cons word rest ih =>
    have bound := word.toNat_lt
    rw [value_cons, List.length_cons, Nat.mul_add, Nat.pow_add]
    have step :
        2 ^ 64 * (value rest + 1) ≤ 2 ^ 64 * 2 ^ (64 * rest.length) :=
      Nat.mul_le_mul_left _ ih
    rw [Nat.mul_comm (2 ^ (64 * rest.length))]
    omega

/-- A weight one word higher is greater by one radix. -/
theorem weight_succ
    (width multiple : Nat) :
    2 ^ (64 * (width + 1)) * multiple =
      2 ^ 64 * (2 ^ (64 * width) * multiple) := by
  rw [Nat.mul_add, Nat.pow_add, Nat.mul_comm (2 ^ (64 * width)), Nat.mul_assoc]

end Words

end ModularLadder
