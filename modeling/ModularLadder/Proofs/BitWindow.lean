import Mathlib
import ModularLadder.BitWindow
import ModularLadder.Proofs.Encoding

/-!
# The digits of a byte string

Reading bits moves them from the bytes that still hold them into a digit.
What has been read, followed by what is left, is one number throughout; this
is the invariant of a read.  The digits of a reader, put together in the radix
of their size, are therefore the number of the string, and each of them is
below that radix.
-/

namespace ModularLadder.BitWindow

open Bytes (bigEndianValue)

/-! ## Bits that are left to read -/

/-- The number of bits that bytes hold, the first one only so many. -/
def bitCount (available : Nat) : Bytes → Nat
  | [] => 0
  | _ :: rest => available + 8 * rest.length

/-- The number that these bits stand for. -/
def unread (available : Nat) : Bytes → Nat
  | [] => 0
  | byte :: rest =>
    byte.toNat % 2 ^ available * 2 ^ (8 * rest.length) + bigEndianValue rest

/-- The number written by digits of a size, most significant first. -/
def positional (size : Nat) (digits : List Nat) : Nat :=
  digits.foldl (fun value digit => 2 ^ size * value + digit) 0

theorem positional_from
    (size start : Nat)
    (digits : List Nat) :
    digits.foldl (fun value digit => 2 ^ size * value + digit) start =
      2 ^ (size * digits.length) * start + positional size digits := by
  induction digits generalizing start with
  | nil => simp [positional]
  | cons digit digits ih =>
    rw [positional, List.foldl_cons, List.foldl_cons, ih, ih (_ + digit),
      List.length_cons]
    ring

theorem positional_cons
    (size digit : Nat)
    (digits : List Nat) :
    positional size (digit :: digits) =
      2 ^ (size * digits.length) * digit + positional size digits := by
  rw [positional, List.foldl_cons, positional_from, Nat.mul_zero, Nat.zero_add]

theorem unread_lt
    (available : Nat)
    (remaining : Bytes) :
    unread available remaining < 2 ^ bitCount available remaining := by
  cases remaining with
  | nil => simp [unread, bitCount]
  | cons byte rest =>
    have upper : byte.toNat % 2 ^ available + 1 ≤ 2 ^ available :=
      Nat.mod_lt _ (Nat.two_pow_pos available)
    have lower := Bytes.bigEndianValue_lt_two_pow rest
    have scaled := Nat.mul_le_mul_right (2 ^ (8 * rest.length)) upper
    rw [Nat.add_mul, Nat.one_mul] at scaled
    rw [unread, bitCount, Nat.pow_add]
    omega

/-- Whole bytes hold eight bits each. -/
theorem bitCount_eight
    (bytes : Bytes) :
    bitCount 8 bytes = 8 * bytes.length := by
  cases bytes with
  | nil => rfl
  | cons byte rest =>
    rw [bitCount, List.length_cons]
    omega

/-- Nothing of whole bytes has been read. -/
theorem unread_eight
    (bytes : Bytes) :
    unread 8 bytes = bigEndianValue bytes := by
  cases bytes with
  | nil => rfl
  | cons byte rest =>
    have parts := Bytes.bigEndianValue_append [byte] rest
    have first : bigEndianValue [byte] = byte.toNat := by
      simp [bigEndianValue]
    rw [first, List.singleton_append] at parts
    rw [unread, parts, Nat.mod_eq_of_lt byte.toNat_lt, Nat.pow_mul,
      Nat.mul_comm]

/-- The bits that are taken from a byte, appended to a digit. -/
theorem append_bits
    (digit byte taken shift : Nat) :
    (digit <<< taken) ||| ((byte >>> shift) &&& ((1 <<< taken) - 1)) =
      2 ^ taken * digit + byte / 2 ^ shift % 2 ^ taken := by
  have bound : byte / 2 ^ shift % 2 ^ taken < 2 ^ taken :=
    Nat.mod_lt _ (Nat.two_pow_pos taken)
  rw [Nat.shiftRight_eq_div_pow, Nat.shiftLeft_eq, Nat.shiftLeft_eq,
    Nat.one_mul, Nat.and_two_pow_sub_one_eq_mod, Nat.mul_comm digit]
  exact (Nat.two_pow_add_eq_or_of_lt bound digit).symm

/-! ## Reads within a digit -/

/--
What a read gives, if enough bits are left: the digit and the bits left over
are the same number as before.
-/
structure Reads
    (wanted available digit : Nat)
    (remaining : Bytes)
    (collected : Collected) :
    Prop where
  available_pos : 0 < collected.available
  available_le : collected.available ≤ 8
  bits :
    bitCount collected.available collected.remaining + wanted =
      bitCount available remaining
  exact :
    2 ^ bitCount collected.available collected.remaining * collected.digit +
        unread collected.available collected.remaining =
      2 ^ bitCount available remaining * digit + unread available remaining

/-- A read that empties the first byte goes on with the following ones. -/
theorem Reads.next
    {wanted available digit : Nat}
    {byte : UInt8}
    {rest : Bytes}
    {collected : Collected}
    (reads :
      Reads wanted 8 (2 ^ available * digit + byte.toNat % 2 ^ available) rest
        collected) :
    Reads (available + wanted) available digit (byte :: rest) collected where
  available_pos := reads.available_pos
  available_le := reads.available_le
  bits := by
    have bits := reads.bits
    rw [bitCount_eight] at bits
    rw [bitCount]
    omega
  exact := by
    rw [reads.exact, bitCount_eight, unread_eight, bitCount, unread,
      Nat.pow_add]
    ring

/-- A read that is satisfied by the first byte leaves bits in it. -/
theorem reads_within
    (wanted left digit : Nat)
    (byte : UInt8)
    (rest : Bytes)
    (left_pos : 0 < left)
    (left_le : wanted + left ≤ 8) :
    Reads wanted (wanted + left) digit (byte :: rest)
      { digit := 2 ^ wanted * digit + byte.toNat / 2 ^ left % 2 ^ wanted
        available := left
        remaining := byte :: rest } where
  available_pos := left_pos
  available_le := by
    show left ≤ 8
    omega
  bits := by
    show left + 8 * rest.length + wanted =
      wanted + left + 8 * rest.length
    omega
  exact := by
    have split :
        byte.toNat % 2 ^ (wanted + left) =
          byte.toNat % 2 ^ left +
            2 ^ left * (byte.toNat / 2 ^ left % 2 ^ wanted) := by
      rw [Nat.add_comm wanted, Nat.pow_add, Nat.mod_mul]
    rw [bitCount, bitCount, unread, unread, split, Nat.pow_add, Nat.pow_add,
      Nat.pow_add]
    ring

/-- Reading succeeds and is exact as long as enough bits are left. -/
theorem collect_reads
    (wanted available digit : Nat)
    (remaining : Bytes)
    (available_pos : 0 < available)
    (available_le : available ≤ 8)
    (enough : wanted ≤ bitCount available remaining) :
    ∃ collected,
      collect wanted available digit remaining = some collected ∧
        Reads wanted available digit remaining collected := by
  induction remaining generalizing wanted available digit with
  | nil =>
    have none : wanted = 0 := Nat.le_zero.1 enough
    subst none
    exact ⟨⟨digit, available, []⟩, by rw [collect],
      ⟨available_pos, available_le, rfl, rfl⟩⟩
  | cons byte rest ih =>
    cases wanted with
    | zero =>
      exact ⟨⟨digit, available, byte :: rest⟩, by rw [collect],
        ⟨available_pos, available_le, rfl, rfl⟩⟩
    | succ wanted =>
      rw [bitCount] at enough
      rw [collect]
      simp only [append_bits]
      by_cases emptied : available ≤ wanted + 1
      · have taken : min (wanted + 1) available = available :=
          Nat.min_eq_right emptied
        rcases
            ih (wanted + 1 - available) 8
              (2 ^ available * digit + byte.toNat % 2 ^ available)
              (by decide) (le_refl 8) (by rw [bitCount_eight]; omega) with
          ⟨collected, result, reads⟩
        refine ⟨collected, ?_, ?_⟩
        · rw [taken, if_pos rfl, Nat.sub_self, Nat.pow_zero, Nat.div_one]
          exact result
        · have next := reads.next
          rwa [Nat.add_sub_cancel' emptied] at next
      · rcases
            Nat.exists_eq_add_of_le (Nat.le_of_lt (Nat.not_le.1 emptied)) with
          ⟨left, rfl⟩
        have taken : min (wanted + 1) (wanted + 1 + left) = wanted + 1 :=
          Nat.min_eq_left (Nat.le_add_right _ _)
        have left_pos : 0 < left := by omega
        refine ⟨_, ?_, reads_within (wanted + 1) left digit byte rest left_pos
          available_le⟩
        rw [taken, if_neg (by omega), Nat.add_sub_cancel_left]

/-- A digit has no more bits than were wanted. -/
theorem Reads.digit_lt
    {wanted available : Nat}
    {remaining : Bytes}
    {collected : Collected}
    (reads : Reads wanted available 0 remaining collected) :
    collected.digit < 2 ^ wanted := by
  have bound := unread_lt available remaining
  have exact := reads.exact
  rw [Nat.mul_zero, Nat.zero_add] at exact
  rw [← exact, ← reads.bits, Nat.pow_add] at bound
  exact Nat.lt_of_mul_lt_mul_left
    (lt_of_le_of_lt (Nat.le_add_right _ _) bound)

/-! ## Proper readers -/

/-- The bits that the digits to come will take are those that are left. -/
structure Proper (reader : BitWindow) : Prop where
  available_pos : 0 < reader.available
  available_le : reader.available ≤ 8
  nextSize_le : reader.nextSize ≤ reader.size
  bits :
    bitCount reader.available reader.remaining =
      match reader.digitsLeft with
      | 0 => 0
      | digitsLeft + 1 => reader.nextSize + reader.size * digitsLeft

/-- The number of what is left to be read. -/
def number (reader : BitWindow) : Nat :=
  unread reader.available reader.remaining

/--
As long as digits are left, the next one is read.  All digits after it have
the full size.
-/
theorem Proper.next
    {reader : BitWindow}
    (proper : reader.Proper)
    {digitsLeft : Nat}
    (some_left : reader.digitsLeft = digitsLeft + 1) :
    ∃ digit after,
      reader.next? = some (digit, after) ∧
        after.Proper ∧
        after.digitsLeft = digitsLeft ∧
        after.nextSize = reader.size ∧
        after.size = reader.size ∧
        digit < 2 ^ reader.nextSize ∧
        reader.number = 2 ^ (reader.size * digitsLeft) * digit +
          after.number := by
  have bits :
      bitCount reader.available reader.remaining =
        reader.nextSize + reader.size * digitsLeft := by
    have toCome := proper.bits
    rw [some_left] at toCome
    exact toCome
  rcases
      collect_reads reader.nextSize reader.available 0 reader.remaining
        proper.available_pos proper.available_le (by omega) with
    ⟨collected, result, reads⟩
  have left :
      bitCount collected.available collected.remaining =
        reader.size * digitsLeft := by
    have afterwards := reads.bits
    omega
  let after : BitWindow :=
    { reader with
      digitsLeft := digitsLeft
      nextSize := reader.size
      available := collected.available
      remaining := collected.remaining }
  have read : reader.next? = some (collected.digit, after) := by
    rw [next?, some_left, result]
    rfl
  refine ⟨collected.digit, after, read, ?_, rfl, rfl, rfl, reads.digit_lt, ?_⟩
  · refine ⟨reads.available_pos, reads.available_le, le_refl _, ?_⟩
    show bitCount collected.available collected.remaining = _
    rw [left]
    cases digitsLeft with
    | zero => rfl
    | succ digitsLeft =>
      show _ = reader.size + reader.size * digitsLeft
      rw [Nat.mul_add, Nat.mul_one, Nat.add_comm]
  · have exact := reads.exact
    rw [left, Nat.mul_zero, Nat.zero_add] at exact
    exact exact.symm

/-- Nothing is left to be read once the digits are. -/
theorem Proper.number_eq_zero
    {reader : BitWindow}
    (proper : reader.Proper)
    (none_left : reader.digitsLeft = 0) :
    reader.number = 0 := by
  have bits := proper.bits
  rw [none_left] at bits
  have bound := unread_lt reader.available reader.remaining
  rw [bits, Nat.pow_zero, Nat.lt_one_iff] at bound
  exact bound

/-- All digits of a reader, and the number they write. -/
theorem Proper.take_exact
    {reader : BitWindow}
    (proper : reader.Proper) :
    (take reader.digitsLeft reader).1.length = reader.digitsLeft ∧
      (∀ digit ∈ (take reader.digitsLeft reader).1,
        digit < 2 ^ reader.size) ∧
      positional reader.size (take reader.digitsLeft reader).1 =
        reader.number := by
  generalize count_eq : reader.digitsLeft = count
  induction count generalizing reader with
  | zero =>
    refine ⟨rfl, ?_, (proper.number_eq_zero count_eq).symm⟩
    intro digit none
    exact absurd none List.not_mem_nil
  | succ count ih =>
    rcases proper.next count_eq with
      ⟨digit, after, read, afterProper, afterLeft, _, afterSize, bound, exact⟩
    rcases ih afterProper afterLeft with ⟨length, bounds, value⟩
    have taken :
        (take (count + 1) reader).1 = digit :: (take count after).1 := by
      rw [take, read]
    rw [afterSize] at bounds value
    rw [taken]
    refine ⟨by rw [List.length_cons, length], ?_, ?_⟩
    · rw [List.forall_mem_cons]
      refine ⟨lt_of_lt_of_le bound ?_, bounds⟩
      exact Nat.pow_le_pow_right (by decide) proper.nextSize_le
    · rw [positional_cons, length, value, exact]

/-- The number of digits that bits are grouped in. -/
theorem digitsLeft_ofBytes
    (size : Nat)
    (bytes : Bytes)
    (size_pos : 0 < size) :
    (ofBytes size bytes).digitsLeft =
      if 8 * bytes.length % size = 0 then
        8 * bytes.length / size
      else
        8 * bytes.length / size + 1 := by
  have divided := Nat.div_add_mod (8 * bytes.length) size
  have remainder := Nat.mod_lt (8 * bytes.length) size_pos
  show (8 * bytes.length + size - 1) / size = _
  split_ifs with whole
  · apply Nat.div_eq_of_lt_le
    · rw [Nat.mul_comm (_ / size)]
      omega
    · rw [Nat.add_mul, Nat.one_mul, Nat.mul_comm (_ / size)]
      omega
  · apply Nat.div_eq_of_lt_le
    · rw [Nat.add_mul, Nat.one_mul, Nat.mul_comm (_ / size)]
      omega
    · rw [Nat.add_mul, Nat.add_mul, Nat.one_mul, Nat.mul_comm (_ / size)]
      omega

/-- A reader from the start of a string has digits for all of its bits. -/
theorem proper_ofBytes
    (size : Nat)
    (bytes : Bytes)
    (size_pos : 0 < size) :
    (ofBytes size bytes).Proper := by
  have divided := Nat.div_add_mod (8 * bytes.length) size
  have remainder := Nat.mod_lt (8 * bytes.length) size_pos
  refine ⟨Nat.zero_lt_succ 7, le_refl 8, ?_, ?_⟩
  · show (if _ then _ else _) ≤ size
    split_ifs
    · exact le_refl size
    · exact remainder.le
  · show bitCount 8 bytes = _
    rw [bitCount_eight, digitsLeft_ofBytes size bytes size_pos]
    by_cases whole : 8 * bytes.length % size = 0
    · rw [whole, Nat.add_zero] at divided
      simp only [ofBytes, whole, if_true]
      cases quotient : 8 * bytes.length / size with
      | zero =>
        rw [quotient, Nat.mul_zero] at divided
        exact divided.symm
      | succ quotient =>
        rw [quotient, Nat.mul_add, Nat.mul_one, Nat.add_comm] at divided
        exact divided.symm
    · simp only [ofBytes, whole, if_false]
      omega

/-- The digits of a string write its number. -/
theorem digits_ofBytes
    (size : Nat)
    (bytes : Bytes)
    (size_pos : 0 < size) :
    (∀ digit ∈ (ofBytes size bytes).digits, digit < 2 ^ size) ∧
      positional size (ofBytes size bytes).digits = bigEndianValue bytes := by
  rcases (proper_ofBytes size bytes size_pos).take_exact with ⟨_, bounds, value⟩
  refine ⟨bounds, ?_⟩
  rw [← unread_eight bytes]
  exact value

end ModularLadder.BitWindow
