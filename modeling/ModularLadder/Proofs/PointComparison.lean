import Mathlib
import ModularLadder.Bytes
import ModularLadder.Failure

/-!
# Comparing points through what is read from them

Many projective coordinates are those of one point, and a comparison of points
sees cross products of them only.  It is an equivalence if its answer is
whether the same value is read from both points, such as the affine
coordinates.

Where a point has one coordinate, the value is missing at infinity: the
denominator is zero there.  Cross products agree for two points at infinity
and disagree for a finite one and the one at infinity, but all this rests on
numerator and denominator not being zero both.  The products of `0 / 0` with
any fraction agree, so that a single such state would make the comparison
intransitive.
-/

namespace ModularLadder

/-- The number that a fraction denotes, or none if it is at infinity. -/
def affinePart
    {k : Type*}
    [Field k]
    [DecidableEq k]
    (x z : k) :
    Option k :=
  if z = 0 then none else some (x / z)

section

variable
  {k : Type*}
  [Field k]
  [DecidableEq k]
  {x z x' z' : k}

theorem affinePart_eq_none_iff :
    affinePart x z = none ↔ z = 0 := by
  simp [affinePart]

theorem affinePart_eq_some_iff
    {u : k} :
    affinePart x z = some u ↔ z ≠ 0 ∧ x / z = u := by
  simp [affinePart]

/-- Cross products compare fractions, unless one of them is degenerate. -/
theorem cross_products_iff
    (proper : ¬(x = 0 ∧ z = 0))
    (proper' : ¬(x' = 0 ∧ z' = 0)) :
    x * z' = x' * z ↔ affinePart x z = affinePart x' z' := by
  by_cases infinite : z = 0
  · have numerator : x ≠ 0 := fun zero => proper ⟨zero, infinite⟩
    rw [affinePart_eq_none_iff.2 infinite, @eq_comm _ none,
      affinePart_eq_none_iff]
    simp [infinite, numerator]
  · by_cases infinite' : z' = 0
    · have numerator : x' ≠ 0 := fun zero => proper' ⟨zero, infinite'⟩
      rw [affinePart_eq_none_iff.2 infinite', affinePart_eq_none_iff]
      simp [infinite', numerator]
    · rw [affinePart, if_neg infinite, affinePart, if_neg infinite',
        Option.some_inj, div_eq_div_iff infinite infinite']

end

variable
  {Point Value k : Type*}

section

variable
  (Member : Point → Prop)
  (compare : Point → Point → Except Failure Bool)

/--
The comparison answers for certain points whether the same value is read from
both.
-/
def ComparesBy
    [DecidableEq Value]
    (read : Point → Value) :
    Prop :=
  ∀ left right, Member left → Member right →
    compare left right = .ok (decide (read left = read right))

/-- Whether two points, which belong to certain ones, compare as equal. -/
def ComparesEqual (left right : { point // Member point }) : Prop :=
  compare left right = .ok true

end

/--
Both points are at infinity, or neither is and both are written by the same
bytes.
-/
def WrittenAlike
    (isInfinity : Point → Bool)
    (write : Point → Except Failure Bytes)
    (left right : Point) :
    Prop :=
  (isInfinity left = true ∧ isInfinity right = true) ∨
    (isInfinity left = false ∧
      isInfinity right = false ∧
      ∃ bytes, write left = .ok bytes ∧ write right = .ok bytes)

/--
How points with one coordinate are compared.  The comparison has an answer for
all reachable points, which is whether they are written alike; it is an
equivalence of them; and what equals the point at infinity is at infinity.
-/
structure ComparesCoordinates
    (Reachable : Point → Prop)
    (compare : Point → Point → Except Failure Bool)
    (isInfinity : Point → Bool)
    (write : Point → Except Failure Bytes)
    (infinity : Point) :
    Prop where
  answers :
    ∀ left right, Reachable left → Reachable right →
      ∃ same,
        compare left right = .ok same ∧
          (same = true ↔ WrittenAlike isInfinity write left right)
  written :
    ∀ point, Reachable point → isInfinity point = false →
      ∃ bytes, write point = .ok bytes
  equivalence : Equivalence (ComparesEqual Reachable compare)
  infinity_iff :
    ∀ point, Reachable point →
      (compare point infinity = .ok true ↔ isInfinity point = true)

/--
How points with two coordinates are compared.  The comparison has an answer
for all reachable points, which is whether the bytes of their coordinates are
the same; it does not depend on which valid representations of the points are
compared; and it is an equivalence of reachable points.
-/
structure ComparesPairs
    (Reachable Valid : Point → Prop)
    (compare : Point → Point → Except Failure Bool)
    (write : Point → Except Failure (Bytes × Bytes))
    (affine : Point → k × k) :
    Prop where
  answers :
    ∀ left right, Reachable left → Reachable right →
      ∃ leftBytes rightBytes same,
        write left = .ok leftBytes ∧
          write right = .ok rightBytes ∧
          compare left right = .ok same ∧
          (same = true ↔ leftBytes = rightBytes)
  representation :
    ∀ left right left' right',
      Reachable left → Reachable right → Valid left' → Valid right' →
      affine left = affine left' → affine right = affine right' →
        compare left right = compare left' right'
  equivalence : Equivalence (ComparesEqual Reachable compare)

section

variable
  {Member Reachable Valid : Point → Prop}
  {compare : Point → Point → Except Failure Bool}
  {left right : Point}

section

variable
  [DecidableEq Value]
  {read : Point → Value}

theorem ComparesBy.eq_ok_true_iff
    (compares : ComparesBy Member compare read)
    (leftMember : Member left)
    (rightMember : Member right) :
    compare left right = .ok true ↔ read left = read right := by
  rw [compares left right leftMember rightMember, Except.ok.injEq,
    decide_eq_true_eq]

theorem ComparesBy.equivalence
    (compares : ComparesBy Member compare read) :
    Equivalence (ComparesEqual Member compare) := by
  have same :
      ComparesEqual Member compare =
        Function.onFun (· = ·) fun point : { point // Member point } =>
          read point := by
    funext left right
    exact propext (compares.eq_ok_true_iff left.2 right.2)
  rw [same]
  exact eq_equivalence.comap _

theorem ComparesBy.mono
    (compares : ComparesBy Valid compare read)
    (valid : ∀ point, Reachable point → Valid point) :
    ComparesBy Reachable compare read :=
  fun left right leftReachable rightReachable =>
    compares left right (valid left leftReachable) (valid right rightReachable)

end

section

variable
  [DecidableEq k]
  {isInfinity : Point → Bool}
  {write : Point → Except Failure Bytes}
  {infinity : Point}
  {read : Point → Option k}
  {encode : k → Bytes}

/-- Points are compared by the coordinate that they are written by. -/
theorem ComparesBy.comparesCoordinates
    (compares : ComparesBy Reachable compare read)
    (injective : Function.Injective encode)
    (reachable_infinity : Reachable infinity)
    (infinity_read : read infinity = none)
    (isInfinity_eq :
      ∀ point, Reachable point → isInfinity point = (read point).isNone)
    (write_eq :
      ∀ point u, Reachable point → read point = some u →
        write point = .ok (encode u)) :
    ComparesCoordinates Reachable compare isInfinity write infinity where
  answers left right leftReachable rightReachable := by
    refine ⟨_, compares left right leftReachable rightReachable, ?_⟩
    rw [decide_eq_true_eq, WrittenAlike, isInfinity_eq left leftReachable,
      isInfinity_eq right rightReachable]
    cases leftRead : read left with
    | none => cases rightRead : read right <;> simp
    | some u =>
      cases rightRead : read right with
      | none => simp
      | some v =>
        rw [write_eq left u leftReachable leftRead,
          write_eq right v rightReachable rightRead]
        simp [injective.eq_iff, eq_comm]
  written point reachable finite := by
    rw [isInfinity_eq point reachable, Option.isNone_eq_false_iff,
      Option.isSome_iff_exists] at finite
    rcases finite with ⟨u, reads⟩
    exact ⟨encode u, write_eq point u reachable reads⟩
  equivalence := compares.equivalence
  infinity_iff point reachable := by
    rw [compares.eq_ok_true_iff reachable reachable_infinity, infinity_read,
      isInfinity_eq point reachable, Option.isNone_iff_eq_none]

end

section

variable
  [DecidableEq k]
  {write : Point → Except Failure (Bytes × Bytes)}
  {read : Point → k × k}
  {encode : k × k → Bytes × Bytes}

/-- Points are compared by the two coordinates that they are written by. -/
theorem ComparesBy.comparesPairs
    (compares : ComparesBy Valid compare read)
    (valid : ∀ point, Reachable point → Valid point)
    (injective : Function.Injective encode)
    (write_eq : ∀ point, Valid point → write point = .ok (encode (read point))) :
    ComparesPairs Reachable Valid compare write read where
  answers left right leftReachable rightReachable := by
    have leftValid := valid left leftReachable
    have rightValid := valid right rightReachable
    refine
      ⟨_, _, _, write_eq left leftValid, write_eq right rightValid,
        compares left right leftValid rightValid, ?_⟩
    rw [decide_eq_true_eq, injective.eq_iff]
  representation left right left' right' leftReachable rightReachable leftValid'
      rightValid' sameLeft sameRight := by
    rw [compares left right (valid left leftReachable)
        (valid right rightReachable),
      compares left' right' leftValid' rightValid', sameLeft, sameRight]
  equivalence := (compares.mono valid).equivalence

end

end

end ModularLadder
