import Mathlib
import ModularLadder.Field25519.Encoding
import ModularLadder.Proofs.Comparison
import ModularLadder.Proofs.Encoding
import ModularLadder.Proofs.Field25519.Element

/-!
# Elements and byte strings stand for the same numbers

Reading takes the number of a byte string modulo `2^255` and writing gives the
least number with the value of the element modulo `p`.  The canonical reading
succeeds exactly for the strings of numbers below `p`, and two elements compare
as equal exactly if their residues are.

The writing is stated in a checked form as well: the subtraction of the
modulus works on 32-bit limbs and does not overflow.
-/

namespace ModularLadder.Field25519

/-! ## Loading limbs -/

/-- The limbs of a number below `2^255`. -/
def digits (number : Nat) : TenLimbs Nat :=
  { l0 := number % 2 ^ 26
    l1 := number / 2 ^ 26 % 2 ^ 25
    l2 := number / 2 ^ 51 % 2 ^ 26
    l3 := number / 2 ^ 77 % 2 ^ 25
    l4 := number / 2 ^ 102 % 2 ^ 26
    l5 := number / 2 ^ 128 % 2 ^ 25
    l6 := number / 2 ^ 153 % 2 ^ 26
    l7 := number / 2 ^ 179 % 2 ^ 25
    l8 := number / 2 ^ 204 % 2 ^ 26
    l9 := number / 2 ^ 230 % 2 ^ 25 }

theorem digits_below
    (number : Nat) :
    (digits number).Below (2 ^ 26) (2 ^ 25) := by
  refine ⟨?_, ?_, ?_, ?_, ?_, ?_, ?_, ?_, ?_, ?_⟩ <;>
    exact Nat.mod_lt _ (by decide)

theorem weighted_digits
    (number : Nat) :
    (digits number).weighted = number % 2 ^ 255 := by
  have join (place width : Nat) :
      number % 2 ^ place + 2 ^ place * (number / 2 ^ place % 2 ^ width) =
        number % 2 ^ (place + width) := by
    rw [Nat.pow_add, Nat.mod_mul]
  rw [TenLimbs.weighted_eq]
  simp only [digits]
  rw [join 26 25, join 51 26, join 77 25, join 102 26, join 128 25,
    join 153 26, join 179 25, join 204 26, join 230 25]

/-- Three parts of a word, of which the last one may reach beyond it. -/
theorem toNat_threeParts
    (low middle high : Word)
    (firstPlace secondPlace : Nat)
    (ordered : firstPlace ≤ secondPlace)
    (inside : secondPlace < 64)
    (lowBound : low.toNat < 2 ^ firstPlace)
    (middleBound : middle.toNat < 2 ^ (secondPlace - firstPlace)) :
    (low ||| (middle <<< UInt64.ofNat firstPlace) |||
        (high <<< UInt64.ofNat secondPlace)).toNat =
      (low.toNat + 2 ^ firstPlace * middle.toNat +
        2 ^ secondPlace * high.toNat) % 2 ^ 64 := by
  have lower : low.toNat + 2 ^ firstPlace * middle.toNat < 2 ^ secondPlace :=
    calc
      low.toNat + 2 ^ firstPlace * middle.toNat <
          2 ^ firstPlace * (middle.toNat + 1) := by
        rw [Nat.mul_add]
        omega
      _ ≤ 2 ^ firstPlace * 2 ^ (secondPlace - firstPlace) :=
        Nat.mul_le_mul_left _ middleBound
      _ = 2 ^ secondPlace := by
        rw [← Nat.pow_add, Nat.add_sub_cancel' ordered]
  have whole : 2 ^ secondPlace ≤ 2 ^ 64 :=
    Nat.pow_le_pow_right (by decide) inside.le
  have joined :
      (low ||| (middle <<< UInt64.ofNat firstPlace)).toNat =
        low.toNat + 2 ^ firstPlace * middle.toNat := by
    rw [Word.toNat_or_shiftLeft low middle firstPlace
      (lt_of_le_of_lt ordered inside) lowBound]
    exact Nat.mod_eq_of_lt (by omega)
  rw [Word.toNat_or_shiftLeft _ high secondPlace inside (joined ▸ lower),
    joined]

namespace Element

theorem toNat_loadWindow
    (bytes : Bytes)
    (position : Nat) :
    (loadWindow bytes position).toNat =
      bytes.littleEndianValue / 2 ^ (8 * position) % 2 ^ 32 := by
  have short : ((bytes.drop position).take 4).length ≤ 8 :=
    (List.length_take_le 4 _).trans (by decide)
  rw [loadWindow, Words.toNat_foldr_bytes _ short, Bytes.littleEndianValue_take,
    Bytes.littleEndianValue_drop, Nat.pow_mul]
  rfl

/-- A limb is cut out of the number of the string. -/
theorem toNat_loadLimb
    (bytes : Bytes)
    (position width : Nat)
    (distance mask : UInt64)
    (maskEq : mask.toNat = 2 ^ width - 1)
    (fits : distance.toNat + width ≤ 32) :
    (loadLimb bytes position distance mask).toNat =
      bytes.littleEndianValue / 2 ^ (8 * position + distance.toNat) %
        2 ^ width := by
  have window : 2 ^ 32 = 2 ^ distance.toNat * 2 ^ (32 - distance.toNat) := by
    rw [← Nat.pow_add, Nat.add_sub_cancel' (by omega)]
  have inside : 2 ^ width ∣ 2 ^ (32 - distance.toNat) :=
    Nat.pow_dvd_pow 2 (by omega)
  have narrow :
      bytes.littleEndianValue / 2 ^ (8 * position + distance.toNat) %
          2 ^ width <
        2 ^ 32 :=
    (Nat.mod_lt _ (Nat.two_pow_pos _)).trans_le
      (Nat.pow_le_pow_right (by decide) (by omega))
  rw [loadLimb, UInt64.toNat_toUInt32, UInt64.toNat_and, maskEq,
    Nat.and_two_pow_sub_one_eq_mod, UInt64.toNat_shiftRight,
    toNat_loadWindow, Nat.mod_eq_of_lt (a := distance.toNat) (by omega),
    Nat.shiftRight_eq_div_pow, window, Nat.mod_mul_right_div_self,
    Nat.mod_mod_of_dvd _ inside, Nat.div_div_eq_div_mul, ← Nat.pow_add,
    ← window, Nat.mod_eq_of_lt narrow]

/-- Reading a string takes the digits of its number. -/
theorem limbs_ofLittleEndian
    (bytes : Bytes) :
    (ofLittleEndian bytes).limbs = digits bytes.littleEndianValue := by
  have limb (position width : Nat) (distance mask : UInt64)
      (maskEq : mask.toNat = 2 ^ width - 1)
      (fits : distance.toNat + width ≤ 32) :=
    toNat_loadLimb bytes position width distance mask maskEq fits
  simp only [limbs, ofLittleEndian, TenLimbs.map, digits]
  rw [limb 0 26 0 _ rfl (by decide), limb 3 25 2 _ rfl (by decide),
    limb 6 26 3 _ rfl (by decide), limb 9 25 5 _ rfl (by decide),
    limb 12 26 6 _ rfl (by decide), limb 16 25 0 _ rfl (by decide),
    limb 19 26 1 _ rfl (by decide), limb 22 25 3 _ rfl (by decide),
    limb 25 26 4 _ rfl (by decide), limb 28 25 6 _ rfl (by decide)]
  rw [show (8 * 0 + UInt64.toNat 0) = 0 from rfl, Nat.pow_zero, Nat.div_one]
  rfl

theorem nominal_ofLittleEndian
    (bytes : Bytes) :
    (ofLittleEndian bytes).Nominal := by
  rw [Nominal, limbs_ofLittleEndian]
  exact digits_below bytes.littleEndianValue

theorem value_ofLittleEndian
    (bytes : Bytes) :
    (ofLittleEndian bytes).value = bytes.littleEndianValue % 2 ^ 255 := by
  rw [value_eq, limbs_ofLittleEndian, weighted_digits]

theorem value_ofBigEndian
    (bytes : Bytes) :
    (ofBigEndian bytes).value = bytes.bigEndianValue % 2 ^ 255 := by
  rw [ofBigEndian, value_ofLittleEndian, Bytes.bigEndianValue_eq_reverse]

/-! ## Writing the least number -/

/-- The four words of limbs of nominal width, as parts of their number. -/
theorem value_pack_parts
    {x : Element}
    (nominal : x.Nominal) :
    Words.value x.pack =
      (x.l0.toNat + 2 ^ 26 * x.l1.toNat + 2 ^ 51 * x.l2.toNat) % 2 ^ 64 +
        2 ^ 64 *
          ((x.l2.toNat / 2 ^ 13 + 2 ^ 13 * x.l3.toNat +
              2 ^ 38 * x.l4.toNat) % 2 ^ 64 +
            2 ^ 64 *
              ((x.l5.toNat + 2 ^ 25 * x.l6.toNat + 2 ^ 51 * x.l7.toNat) %
                  2 ^ 64 +
                2 ^ 64 *
                  ((x.l7.toNat / 2 ^ 13 + 2 ^ 12 * x.l8.toNat +
                    2 ^ 38 * x.l9.toNat) % 2 ^ 64))) := by
  rcases nominal with ⟨h0, h1, h2, h3, h4, h5, h6, h7, h8, h9⟩
  have wide (limb : UInt32) : limb.toUInt64.toNat = limb.toNat :=
    UInt32.toNat_toUInt64 limb
  have upper (limb : UInt32) :
      (limb.toUInt64 >>> 13).toNat = limb.toNat / 2 ^ 13 := by
    rw [UInt64.toNat_shiftRight, wide, Nat.shiftRight_eq_div_pow]
    rfl
  have first :=
    toNat_threeParts x.l0.toUInt64 x.l1.toUInt64 x.l2.toUInt64 26 51
      (by decide) (by decide) ((wide x.l0).trans_lt h0)
      ((wide x.l1).trans_lt h1)
  have second :=
    toNat_threeParts (x.l2.toUInt64 >>> 13) x.l3.toUInt64 x.l4.toUInt64 13 38
      (by decide) (by decide)
      ((upper x.l2).trans_lt (Nat.div_lt_of_lt_mul h2))
      ((wide x.l3).trans_lt h3)
  have third :=
    toNat_threeParts x.l5.toUInt64 x.l6.toUInt64 x.l7.toUInt64 25 51
      (by decide) (by decide) ((wide x.l5).trans_lt h5)
      ((wide x.l6).trans_lt h6)
  have fourth :=
    toNat_threeParts (x.l7.toUInt64 >>> 13) x.l8.toUInt64 x.l9.toUInt64 12 38
      (by decide) (by decide)
      ((upper x.l7).trans_lt (Nat.div_lt_of_lt_mul h7))
      ((wide x.l8).trans_lt h8)
  rw [wide, wide, wide] at first third
  rw [upper, wide, wide] at second fourth
  rw [← first, ← second, ← third, ← fourth]
  rfl

/-- Packing keeps the number of limbs of nominal width. -/
theorem value_pack
    {x : Element}
    (nominal : x.Nominal) :
    Words.value x.pack = x.value := by
  rw [value_pack_parts nominal, value_eq, TenLimbs.weighted_eq]
  rcases nominal with ⟨h0, h1, h2, h3, h4, h5, h6, h7, h8, h9⟩
  simp only [limbs, TenLimbs.map] at h0 h1 h2 h3 h4 h5 h6 h7 h8 h9 ⊢
  omega

/-- The checked form of `canonical`. -/
def canonical? (x : Element) : Option Element := do
  let reduced ← reduce? x
  collect (reduced.checked 32).subtractPrime

/-- The checked form of `toLittleEndian`. -/
def toLittleEndian? (x : Element) : Option Bytes := do
  let least ← canonical? x
  some (least.pack.flatMap Word.littleEndianBytes)

/-- The least number with the value of an element, without an overflow. -/
theorem canonical_exact
    (x : Element) :
    canonical? x = some x.canonical ∧
      x.canonical.Nominal ∧
      x.canonical.value = x.residue.val := by
  have reduced := reduce_computes x
  have agree := subtractPrime_agree (narrow_agree x.reduce) reduced.nominal
  have collected := agree.collect_narrow.1
  have least : x.canonical.limbs = x.reduce.limbs.subtractPrime :=
    agree.collect_narrow.2
  refine ⟨?_, ?_, ?_⟩
  · rw [canonical?, reduced.bind]
    exact collected
  · rw [Nominal, least]
    exact TenLimbs.addAndWrap_below _ _
  · rw [value_eq, least, TenLimbs.weighted_subtractPrime reduced.nominal,
      ← value_eq, ← val_residue]
    exact congrArg ZMod.val reduced.residue_eq

@[simp]
theorem length_toWords
    (x : Element) :
    x.toWords.length = 4 :=
  rfl

theorem value_toWords
    (x : Element) :
    Words.value x.toWords = x.residue.val := by
  rcases canonical_exact x with ⟨-, nominal, value⟩
  rw [toWords, value_pack nominal, value]

theorem toLittleEndian_eq
    (x : Element) :
    x.toLittleEndian = Bytes.ofNatLittleEndian 32 x.residue.val := by
  have number : x.toLittleEndian.littleEndianValue = x.residue.val := by
    rw [toLittleEndian, Words.littleEndianValue_flatMap, value_toWords]
  have length : x.toLittleEndian.length = 32 := by
    simp [toLittleEndian]
  rw [← number, ← length, Bytes.ofNatLittleEndian_littleEndianValue]

theorem toLittleEndian_checked
    (x : Element) :
    toLittleEndian? x = some x.toLittleEndian := by
  rw [toLittleEndian?, bind_result (canonical_exact x).1]
  rfl

theorem toBigEndian_eq
    (x : Element) :
    x.toBigEndian = Bytes.ofNatBigEndian 32 x.residue.val := by
  rw [toBigEndian, toLittleEndian_eq]
  rfl

/-! ## Comparison -/

/-- Elements have the same words exactly if they have the same residue. -/
theorem toWords_inj
    {x y : Element} :
    x.toWords = y.toWords ↔ x.residue = y.residue := by
  have sameWidth : x.toWords.length = y.toWords.length := by
    simp
  rw [← Words.value_inj sameWidth, value_toWords, value_toWords]
  exact (ZMod.val_injective prime).eq_iff

@[simp]
theorem eq_eq
    (x y : Element) :
    x.eq y = Choice.ofBool (decide (x.residue = y.residue)) := by
  have sameWidth : x.toWords.length = y.toWords.length := by
    simp
  have same :
      (x.toWords.zipWith (· ^^^ ·) y.toWords).foldl (· ||| ·) 0 = 0 ↔
        x.residue = y.residue := by
    rw [Words.foldl_or_eq_zero_iff,
      Words.forall_mem_zipWith_xor_iff _ _ sameWidth, toWords_inj]
    exact and_iff_right rfl
  rw [eq, Choice.ofNonzero_eq, Choice.not_ofBool, ← decide_not]
  congr 1
  apply decide_eq_decide.2
  rw [not_ne_iff, same]

@[simp]
theorem isZero_eq
    (x : Element) :
    x.isZero = Choice.ofBool (decide (x.residue = 0)) := by
  rw [isZero, eq_eq, residue_zero]

/-! ## Canonical strings -/

theorem val_residue_ofBigEndian
    {bytes : Bytes}
    (less : bytes.bigEndianValue < prime) :
    (ofBigEndian bytes).residue.val = bytes.bigEndianValue := by
  have modulus := TenLimbs.prime_add
  rw [val_residue, value_ofBigEndian,
    Nat.mod_eq_of_lt (b := 2 ^ 255) (by omega), Nat.mod_eq_of_lt less]

/-- The canonical reading accepts exactly the numbers below the modulus. -/
theorem ofCanonical?_eq
    (bytes : Bytes)
    (length : bytes.length = 32) :
    ofCanonical? bytes =
      if bytes.bigEndianValue < prime then some (ofBigEndian bytes)
      else none := by
  have accepted :
      (ofBigEndian bytes).toBigEndian = bytes ↔
        bytes.bigEndianValue < prime := by
    rw [toBigEndian_eq]
    constructor
    · intro same
      have value := congrArg Bytes.bigEndianValue same
      rw [Bytes.bigEndianValue_ofNatBigEndian] at value
      rw [← value]
      exact (Nat.mod_le _ _).trans_lt (ZMod.val_lt _)
    · intro less
      rw [val_residue_ofBigEndian less, ← length,
        Bytes.ofNatBigEndian_bigEndianValue]
  simp only [ofCanonical?, accepted]

/-- Two elements are exchanged by a truth value. -/
@[simp]
theorem swapIf_ofBool
    (x y : Element)
    (condition : Bool) :
    x.swapIf y (Choice.ofBool condition) =
      if condition then (y, x) else (x, y) := by
  cases condition with
  | false => simp [swapIf, TenLimbs.map, TenLimbs.zipWith]
  | true =>
    have first (a b : UInt32) : a ^^^ (a ^^^ b) = b := by
      rw [← UInt32.xor_assoc, UInt32.xor_self, UInt32.zero_xor]
    have second (a b : UInt32) : b ^^^ (a ^^^ b) = a := by
      rw [UInt32.xor_comm a, ← UInt32.xor_assoc, UInt32.xor_self,
        UInt32.zero_xor]
    simp [swapIf, TenLimbs.map, TenLimbs.zipWith, first, second]

@[simp]
theorem assignIf_ofBool
    (x replacement : Element)
    (condition : Bool) :
    x.assignIf replacement (Choice.ofBool condition) =
      if condition then replacement else x := by
  cases condition <;> simp [assignIf, TenLimbs.zipWith]

end Element

/-- A written residue is read as the number it is. -/
@[simp]
theorem bigEndianValue_ofNat_val
    (x : Residue) :
    (Bytes.ofNatBigEndian 32 x.val).bigEndianValue = x.val := by
  have room : prime < 256 ^ 32 := by
    decide
  rw [Bytes.bigEndianValue_ofNatBigEndian,
    Nat.mod_eq_of_lt ((ZMod.val_lt x).trans room)]

/-- Different residues are written differently. -/
theorem ofNatBigEndian_val_injective :
    Function.Injective fun x : Residue => Bytes.ofNatBigEndian 32 x.val := by
  intro x y same
  have values := congrArg Bytes.bigEndianValue same
  simp only [bigEndianValue_ofNat_val] at values
  exact ZMod.val_injective prime values

end ModularLadder.Field25519
