import Mathlib
import ModularLadder.Proofs.Comparison
import ModularLadder.Proofs.Encoding
import ModularLadder.ScatterTable

/-!
# A scattered table gives back its numbers

Within a line every number has a slot of its own, because the slots are the
indices moved by an odd multiplier and an offset modulo a power of two.
Storing one number hence leaves the pieces of all others alone.  Gathering
masks out all slots but one, and the pieces of one number in the order of the
lines are the number's bytes.

None of this depends on the scramble words.
-/

namespace ModularLadder.ScatterTable

/-! ## Slots of a line -/

section Counts

variable
  {count : Nat}
  (admissible : count ∈ admissibleCounts)

include admissible

theorem exists_two_pow :
    ∃ exponent, count = 2 ^ exponent ∧ exponent ≤ 6 := by
  simp only [admissibleCounts, List.mem_cons, List.not_mem_nil, or_false]
    at admissible
  rcases admissible with rfl | rfl | rfl | rfl | rfl | rfl
  · exact ⟨1, rfl, by decide⟩
  · exact ⟨2, rfl, by decide⟩
  · exact ⟨3, rfl, by decide⟩
  · exact ⟨4, rfl, by decide⟩
  · exact ⟨5, rfl, by decide⟩
  · exact ⟨6, rfl, by decide⟩

/-- The pieces of all numbers fill a line. -/
theorem count_mul_pieceLength :
    count * pieceLength count = lineLength := by
  simp only [admissibleCounts, List.mem_cons, List.not_mem_nil, or_false]
    at admissible
  rcases admissible with rfl | rfl | rfl | rfl | rfl | rfl <;> rfl

theorem count_pos :
    0 < count := by
  rcases exists_two_pow admissible with ⟨exponent, rfl, _⟩
  exact Nat.two_pow_pos exponent

theorem count_le :
    count ≤ 64 := by
  rcases exists_two_pow admissible with ⟨exponent, rfl, bound⟩
  exact Nat.pow_le_pow_right (by decide) bound

theorem pieceLength_pos :
    0 < pieceLength count := by
  have filled := count_mul_pieceLength admissible
  apply Nat.pos_of_ne_zero
  intro none
  rw [none, Nat.mul_zero] at filled
  exact absurd filled (by decide)

theorem slot_eq_mod
    (scramble : UInt16)
    (index : Nat) :
    slot scramble count index =
      ((scramble.toNat &&& 0xff) +
          index * ((scramble.toNat >>> 8) ||| 1)) % count := by
  rcases exists_two_pow admissible with ⟨exponent, rfl, _⟩
  rw [slot, Nat.and_two_pow_sub_one_eq_mod]

theorem slot_lt
    (scramble : UInt16)
    (index : Nat) :
    slot scramble count index < count := by
  rw [slot_eq_mod admissible]
  exact Nat.mod_lt _ (count_pos admissible)

/-- No two numbers share a slot. -/
theorem slot_injective
    (scramble : UInt16)
    {first second : Nat}
    (first_lt : first < count)
    (second_lt : second < count)
    (sameSlot : slot scramble count first = slot scramble count second) :
    first = second := by
  rw [slot_eq_mod admissible, slot_eq_mod admissible] at sameSlot
  have congruent :
      first * ((scramble.toNat >>> 8) ||| 1) ≡
        second * ((scramble.toNat >>> 8) ||| 1) [MOD count] :=
    Nat.ModEq.add_left_cancel' _ sameSlot
  have multiplierOdd : ((scramble.toNat >>> 8) ||| 1) % 2 = 1 := by
    rw [Nat.or_mod_two_eq_one]
    exact Or.inr rfl
  rcases exists_two_pow admissible with ⟨exponent, rfl, _⟩
  have coprime :
      Nat.Coprime (2 ^ exponent) ((scramble.toNat >>> 8) ||| 1) := by
    apply Nat.Coprime.pow_left
    exact Nat.coprime_two_left.2 (Nat.odd_iff.2 multiplierOdd)
  have cancelled := Nat.ModEq.cancel_right_of_coprime coprime congruent
  rwa [Nat.ModEq, Nat.mod_eq_of_lt first_lt, Nat.mod_eq_of_lt second_lt]
    at cancelled

/-- A slot ends within its line. -/
theorem slot_end_le
    {place : Nat}
    (place_lt : place < count) :
    place * pieceLength count + pieceLength count ≤ lineLength := by
  rw [← count_mul_pieceLength admissible, ← Nat.succ_mul]
  exact Nat.mul_le_mul_right _ place_lt

end Counts

/-! ## Pieces of a number -/

section Pieces

variable
  (count : Nat)

theorem getElem?_piece
    (index : Nat)
    (bytes : Bytes)
    (place : Nat) :
    (piece count index bytes)[place]? =
      if place < pieceLength count then
        bytes[index * pieceLength count + place]?
      else
        none := by
  rw [piece, List.getElem?_take, List.getElem?_drop]

theorem length_piece_le
    (index : Nat)
    (bytes : Bytes) :
    (piece count index bytes).length ≤ pieceLength count :=
  List.length_take_le _ _

theorem length_piece
    (index : Nat)
    (bytes : Bytes)
    (inside :
      index * pieceLength count + pieceLength count ≤ bytes.length) :
    (piece count index bytes).length = pieceLength count := by
  rw [piece, List.length_take, List.length_drop]
  omega

/-- The pieces after the first one are those of the bytes after it. -/
theorem piece_succ
    (index : Nat)
    (bytes : Bytes) :
    piece count (index + 1) bytes =
      piece count index (bytes.drop (pieceLength count)) := by
  rw [piece, piece, List.drop_drop, Nat.succ_mul, Nat.add_comm]

end Pieces

/-! ## Overwriting a piece -/

theorem getElem?_overwrite
    (position : Nat)
    (replacement bytes : Bytes)
    (inside : position + replacement.length ≤ bytes.length)
    (place : Nat) :
    (overwrite position replacement bytes)[place]? =
      if place < position then
        bytes[place]?
      else if place < position + replacement.length then
        replacement[place - position]?
      else
        bytes[place]? := by
  have low : (bytes.take position).length = position := by
    rw [List.length_take]
    omega
  rw [overwrite, List.append_assoc]
  split_ifs with before within
  · rw [List.getElem?_append_left (by omega), List.getElem?_take,
      if_pos before]
  · rw [List.getElem?_append_right (by omega), low,
      List.getElem?_append_left (by omega)]
  · rw [List.getElem?_append_right (by omega), low,
      List.getElem?_append_right (by omega), List.getElem?_drop]
    congr 1
    omega

@[simp]
theorem length_overwrite
    (position : Nat)
    (replacement bytes : Bytes)
    (inside : position + replacement.length ≤ bytes.length) :
    (overwrite position replacement bytes).length = bytes.length := by
  rw [overwrite, List.length_append, List.length_append, List.length_take,
    List.length_drop]
  omega

section Overwriting

variable
  {count : Nat}
  (admissible : count ∈ admissibleCounts)
  {slotIndex : Nat}
  (slotIndex_lt : slotIndex < count)
  (replacement bytes : Bytes)
  (replacement_le : replacement.length ≤ pieceLength count)
  (bytes_length : bytes.length = lineLength)

include admissible slotIndex_lt replacement_le bytes_length

theorem replacement_inside :
    slotIndex * pieceLength count + replacement.length ≤ bytes.length := by
  have inside := slot_end_le admissible slotIndex_lt
  omega

/-- What has been stored in a slot stands at its start. -/
theorem take_piece_overwrite :
    (piece count slotIndex
          (overwrite (slotIndex * pieceLength count) replacement bytes)).take
        replacement.length =
      replacement := by
  apply List.ext_getElem?
  intro place
  rw [List.getElem?_take, getElem?_piece,
    getElem?_overwrite _ _ _
      (replacement_inside admissible slotIndex_lt replacement bytes
        replacement_le bytes_length)]
  by_cases within : place < replacement.length
  · rw [if_pos within, if_pos (by omega), if_neg (by omega),
      if_pos (by omega), Nat.add_sub_cancel_left]
  · rw [if_neg within, List.getElem?_eq_none (Nat.not_lt.1 within)]

/-- Storing in one slot leaves every other slot alone. -/
theorem piece_overwrite_of_ne
    {other : Nat}
    (different : other ≠ slotIndex) :
    piece count other
        (overwrite (slotIndex * pieceLength count) replacement bytes) =
      piece count other bytes := by
  apply List.ext_getElem?
  intro place
  rw [getElem?_piece, getElem?_piece,
    getElem?_overwrite _ _ _
      (replacement_inside admissible slotIndex_lt replacement bytes
        replacement_le bytes_length)]
  by_cases within : place < pieceLength count
  · rw [if_pos within, if_pos within]
    rcases Nat.lt_or_gt_of_ne different with below | above
    · have apart := Nat.mul_le_mul_right (pieceLength count) below
      rw [Nat.succ_mul] at apart
      rw [if_pos (by omega)]
    · have apart := Nat.mul_le_mul_right (pieceLength count) above
      rw [Nat.succ_mul] at apart
      rw [if_neg (by omega), if_neg (by omega)]
  · rw [if_neg within, if_neg within]

end Overwriting

/-! ## Filling a line -/

/-- Stores the piece of one number in a line. -/
def putPiece
    (count lineIndex index : Nat)
    (number : Words)
    (line : ScatterLine) :
    ScatterLine :=
  { line with
    bytes :=
      overwrite (slot line.scramble count index * pieceLength count)
        (piece count lineIndex (number.flatMap Word.littleEndianBytes))
        line.bytes }

/-- Stores the pieces with one index, one of each number, in a line. -/
def fillLine (count lineIndex : Nat) :
    (index : Nat) → List Words → ScatterLine → ScatterLine
  | _, [], line => line
  | index, number :: numbers, line =>
    fillLine count lineIndex (index + 1) numbers
      (putPiece count lineIndex index number line)

/-- Storing numbers one after the other fills the lines one by one. -/
theorem storeAll_eq
    (count index : Nat)
    (numbers : List Words)
    (lines : List ScatterLine) :
    storeAll count index numbers lines =
      lines.mapIdx fun lineIndex line =>
        fillLine count lineIndex index numbers line := by
  induction numbers generalizing index lines with
  | nil =>
    rw [storeAll]
    apply List.ext_getElem
    · rw [List.length_mapIdx]
    · intro lineIndex _ _
      rw [List.getElem_mapIdx, fillLine]
  | cons number numbers ih =>
    rw [storeAll, ih, store]
    apply List.ext_getElem
    · rw [List.length_mapIdx, List.length_mapIdx, List.length_mapIdx]
    · intro lineIndex _ _
      rw [List.getElem_mapIdx, List.getElem_mapIdx, List.getElem_mapIdx,
        fillLine, putPiece]

theorem scramble_fillLine
    (count lineIndex index : Nat)
    (numbers : List Words)
    (line : ScatterLine) :
    (fillLine count lineIndex index numbers line).scramble =
      line.scramble := by
  induction numbers generalizing index line with
  | nil => rfl
  | cons number numbers ih => rw [fillLine, ih, putPiece]

section Filling

variable
  {count : Nat}
  (admissible : count ∈ admissibleCounts)
  (lineIndex index : Nat)
  {line : ScatterLine}
  (bytes_length : line.bytes.length = lineLength)

include admissible bytes_length

@[simp]
theorem length_putPiece
    (number : Words) :
    (putPiece count lineIndex index number line).bytes.length =
      lineLength := by
  rw [putPiece, length_overwrite]
  · exact bytes_length
  · exact
      replacement_inside admissible (slot_lt admissible line.scramble index)
        _ line.bytes (length_piece_le count lineIndex _) bytes_length

@[simp]
theorem length_fillLine
    (numbers : List Words) :
    (fillLine count lineIndex index numbers line).bytes.length =
      lineLength := by
  induction numbers generalizing index line with
  | nil => exact bytes_length
  | cons number numbers ih =>
    exact
      ih (index + 1)
        (length_putPiece admissible lineIndex index bytes_length number)

/-- Numbers with higher indices leave the slot of an index alone. -/
theorem piece_fillLine_of_lt
    (numbers : List Words)
    (fits : index + numbers.length ≤ count)
    {other : Nat}
    (other_lt : other < index) :
    piece count (slot line.scramble count other)
        (fillLine count lineIndex index numbers line).bytes =
      piece count (slot line.scramble count other) line.bytes := by
  induction numbers generalizing index line with
  | nil => rfl
  | cons number numbers ih =>
    rw [List.length_cons] at fits
    have apart :
        slot line.scramble count other ≠ slot line.scramble count index := by
      intro same
      have equal :=
        slot_injective admissible line.scramble (by omega) (by omega) same
      omega
    have later :=
      ih (index + 1)
        (length_putPiece admissible lineIndex index bytes_length number)
        (by omega) (Nat.lt_succ_of_lt other_lt)
    have kept :=
      piece_overwrite_of_ne admissible
        (slot_lt admissible line.scramble index)
        (piece count lineIndex (number.flatMap Word.littleEndianBytes))
        line.bytes (length_piece_le count lineIndex _) bytes_length apart
    exact later.trans kept

/-- After all numbers are stored, each has its piece in its own slot. -/
theorem take_piece_fillLine
    (numbers : List Words)
    (fits : index + numbers.length ≤ count)
    (wanted : Nat)
    (wanted_lt : wanted < numbers.length) :
    let stored :=
      piece count lineIndex (numbers[wanted].flatMap Word.littleEndianBytes)
    (piece count (slot line.scramble count (index + wanted))
          (fillLine count lineIndex index numbers line).bytes).take
        stored.length =
      stored := by
  intro stored
  induction numbers generalizing index line wanted with
  | nil => exact absurd wanted_lt (Nat.not_lt_zero _)
  | cons number numbers ih =>
    rw [List.length_cons] at fits wanted_lt
    have after_length :=
      length_putPiece admissible lineIndex index bytes_length number
    cases wanted with
    | zero =>
      have kept :
          piece count (slot line.scramble count index)
              (fillLine count lineIndex index (number :: numbers) line).bytes =
            piece count (slot line.scramble count index)
              (putPiece count lineIndex index number line).bytes :=
        piece_fillLine_of_lt admissible lineIndex (index + 1) after_length
          numbers (by omega) (Nat.lt_succ_self index)
      rw [Nat.add_zero, kept]
      exact
        take_piece_overwrite admissible
          (slot_lt admissible line.scramble index) _ line.bytes
          (length_piece_le count lineIndex _) bytes_length
    | succ wanted =>
      have later :=
        ih (index + 1) after_length (by omega) wanted
          (Nat.lt_of_succ_lt_succ wanted_lt)
      rw [Nat.add_assoc, Nat.add_comm 1] at later
      exact later

end Filling

/-! ## Gathering from a line -/

section Gathering

variable
  {count : Nat}
  (admissible : count ∈ admissibleCounts)

include admissible

/-- Of the slots that have been passed, only the wanted one has shown. -/
theorem gathered_eq
    (wanted : Nat)
    (wanted_lt : wanted < count)
    (line : ScatterLine)
    (bytes_length : line.bytes.length = lineLength)
    (passed : Nat)
    (passed_le : passed ≤ count) :
    (List.range passed).foldl
        (fun gathered index =>
          let hit := Word.eq (UInt64.ofNat index) (UInt64.ofNat wanted)
          gathered.zipWith
            (fun kept byte => kept ||| hit.select8 0 byte)
            (piece count index line.bytes))
        (List.replicate (pieceLength count) 0) =
      if wanted < passed then
        piece count wanted line.bytes
      else
        List.replicate (pieceLength count) 0 := by
  induction passed with
  | zero => rw [if_neg (Nat.not_lt_zero _)]; rfl
  | succ passed ih =>
    have bound := count_le admissible
    have pieceFull (place : Nat) (place_lt : place < count) :
        (piece count place line.bytes).length = pieceLength count := by
      apply length_piece
      rw [bytes_length]
      exact slot_end_le admissible place_lt
    have hit :
        Word.eq (UInt64.ofNat passed) (UInt64.ofNat wanted) =
          Choice.ofBool (decide (passed = wanted)) := by
      rw [Word.eq_eq]
      congr 1
      apply decide_eq_decide.2
      have size : 64 < UInt64.size := by decide
      rw [← UInt64.toNat_inj, UInt64.toNat_ofNat_of_lt' (by omega),
        UInt64.toNat_ofNat_of_lt' (by omega)]
    rw [List.range_succ, List.foldl_append, ih (by omega)]
    simp only [List.foldl_cons, List.foldl_nil, hit, Choice.select8_ofBool]
    apply List.ext_getElem
    · rw [List.length_zipWith, pieceFull passed (by omega)]
      split_ifs <;> simp [pieceFull wanted wanted_lt]
    · intro place _ _
      rw [List.getElem_zipWith]
      by_cases here : passed = wanted
      · subst here
        simp
      · have unchanged : wanted < passed + 1 ↔ wanted < passed := by omega
        simp [here, unchanged]

theorem gatherPiece_eq
    (wanted : Nat)
    (wanted_lt : wanted < count)
    (line : ScatterLine)
    (bytes_length : line.bytes.length = lineLength) :
    gatherPiece count wanted line = piece count wanted line.bytes := by
  rw [gatherPiece,
    gathered_eq admissible wanted wanted_lt line bytes_length count (le_refl _),
    if_pos wanted_lt]

end Gathering

/-! ## The whole table -/

/--
Full slots that start with the pieces of some bytes, one after the other, start
with the bytes if they are long enough.
-/
theorem take_flatten_eq
    (count : Nat)
    (slots : List Bytes)
    (bytes : Bytes)
    (full : ∀ content ∈ slots, content.length = pieceLength count)
    (pieces :
      ∀ index (inside : index < slots.length),
        slots[index].take (piece count index bytes).length =
          piece count index bytes)
    (enough : bytes.length ≤ slots.length * pieceLength count) :
    slots.flatten.take bytes.length = bytes := by
  induction slots generalizing bytes with
  | nil =>
    have empty : bytes = [] := by
      apply List.eq_nil_of_length_eq_zero
      simpa using enough
    rw [empty]
    rfl
  | cons content slots ih =>
    rw [List.forall_mem_cons] at full
    have first := pieces 0 (Nat.zero_lt_succ _)
    have leading :
        piece count 0 bytes = bytes.take (pieceLength count) := by
      rw [piece, Nat.zero_mul, List.drop_zero]
    rw [leading, List.getElem_cons_zero, List.length_take] at first
    by_cases short : bytes.length ≤ pieceLength count
    · rw [Nat.min_eq_right short, List.take_of_length_le short] at first
      rw [List.flatten_cons, List.take_append_of_le_length, first]
      rw [full.1]
      exact short
    · have long : pieceLength count ≤ bytes.length := by omega
      rw [Nat.min_eq_left long, List.take_of_length_le full.1.le] at first
      have rest :=
        ih (bytes.drop (pieceLength count)) full.2
          (by
            intro index inside
            have next := pieces (index + 1) (Nat.succ_lt_succ inside)
            rw [piece_succ] at next
            exact next)
          (by
            rw [List.length_cons, Nat.succ_mul] at enough
            rw [List.length_drop]
            omega)
      rw [List.length_drop] at rest
      have total :
          bytes.length =
            content.length + (bytes.length - pieceLength count) := by
        rw [full.1]
        omega
      rw [List.flatten_cons, total, List.take_length_add_append, rest, first,
        List.take_append_drop]

/-- The lines are as many as the pieces of a number. -/
theorem enough_lines
    (count byteLength : Nat)
    (positive : 0 < pieceLength count) :
    byteLength ≤ lineCount count byteLength * pieceLength count := by
  have divided :=
    Nat.div_add_mod (byteLength + pieceLength count - 1) (pieceLength count)
  have remainder :=
    Nat.mod_lt (byteLength + pieceLength count - 1) positive
  rw [lineCount, Nat.mul_comm]
  omega

/-- The table of admissible numbers of equal width. -/
def filled
    (numbers : List Words)
    (scramble : Nat → UInt16)
    (width : Nat) :
    ScatterTable :=
  { count := numbers.length
    byteLength := 8 * width
    lines :=
      storeAll numbers.length 0 numbers
        ((List.range (lineCount numbers.length (8 * width))).map fun index =>
          { scramble := scramble index
            bytes := List.replicate lineLength 0 : ScatterLine }) }

/-- A line before any number is stored. -/
def emptyLine (scramble : UInt16) : ScatterLine :=
  { scramble := scramble
    bytes := List.replicate lineLength 0 }

theorem length_filled_lines
    (numbers : List Words)
    (scramble : Nat → UInt16)
    (width : Nat) :
    (filled numbers scramble width).lines.length =
      lineCount numbers.length (8 * width) := by
  rw [filled, storeAll_eq, List.length_mapIdx, List.length_map,
    List.length_range]

theorem getElem_filled_lines
    (numbers : List Words)
    (scramble : Nat → UInt16)
    (width index : Nat)
    (inside : index < (filled numbers scramble width).lines.length) :
    (filled numbers scramble width).lines[index] =
      fillLine numbers.length index 0 numbers (emptyLine (scramble index)) := by
  simp only [filled, storeAll_eq, List.getElem_mapIdx, List.getElem_map,
    List.getElem_range, emptyLine]

section

variable
  (numbers : List Words)
  (scramble : Nat → UInt16)
  (width : Nat)
  (admissible : numbers.length ∈ admissibleCounts)
  (widths : ∀ number ∈ numbers, number.length = width)

include admissible

theorem scatter_eq_filled
    (widths : ∀ number ∈ numbers, number.length = width)
    (width_pos : 0 < width) :
    scatter numbers scramble = .ok (filled numbers scramble width) := by
  have nonempty : 0 < numbers.length := count_pos admissible
  have head : (numbers.headD []).length = width := by
    cases numbers with
    | nil => exact absurd nonempty (Nat.lt_irrefl 0)
    | cons number _ => exact widths number List.mem_cons_self
  have contained : admissibleCounts.contains numbers.length = true := by
    rw [List.contains_iff_mem]
    exact admissible
  have wide : (width == 0) = false := by
    rw [beq_eq_false_iff_ne]
    omega
  have equal : (numbers.any fun number => number.length != width) = false := by
    rw [List.any_eq_false]
    intro number mem
    rw [widths number mem]
    simp
  simp only [scatter, contained, head, wide, equal, Bool.not_true]
  rfl

/-- What is gathered from a line is a full slot with a number's piece in it. -/
theorem gathered_line
    (index : Nat)
    (inside : index < numbers.length)
    (lineIndex : Nat)
    (line_lt : lineIndex < (filled numbers scramble width).lines.length) :
    let line := (filled numbers scramble width).lines[lineIndex]
    let gathered :=
      gatherPiece numbers.length (slot line.scramble numbers.length index) line
    let stored :=
      piece numbers.length lineIndex
        (numbers[index].flatMap Word.littleEndianBytes)
    gathered.length = pieceLength numbers.length ∧
      gathered.take stored.length = stored := by
  intro line gathered stored
  have line_eq :
      line =
        fillLine numbers.length lineIndex 0 numbers
          (emptyLine (scramble lineIndex)) :=
    getElem_filled_lines numbers scramble width lineIndex line_lt
  have empty :
      (emptyLine (scramble lineIndex)).bytes.length = lineLength :=
    List.length_replicate
  have full : line.bytes.length = lineLength := by
    rw [line_eq]
    exact length_fillLine admissible lineIndex 0 empty numbers
  have own := slot_lt admissible line.scramble index
  have fetched :
      gathered =
        piece numbers.length (slot line.scramble numbers.length index)
          line.bytes :=
    gatherPiece_eq admissible _ own line full
  constructor
  · rw [fetched]
    apply length_piece
    rw [full]
    exact slot_end_le admissible own
  · have kept :=
      take_piece_fillLine admissible lineIndex 0 empty numbers
        (Nat.zero_add _).le index inside
    rw [Nat.zero_add] at kept
    rw [fetched, line_eq, scramble_fillLine]
    exact kept

include widths

/-- The pieces that are gathered from all lines make up the number's bytes. -/
theorem take_gathered_pieces
    (index : Nat)
    (inside : index < numbers.length) :
    (((filled numbers scramble width).lines.map fun line =>
        gatherPiece numbers.length
          (slot line.scramble numbers.length index) line).flatten).take
        (8 * width) =
      numbers[index].flatMap Word.littleEndianBytes := by
  have bytesLength :
      (numbers[index].flatMap Word.littleEndianBytes).length = 8 * width := by
    rw [Words.length_flatMap_littleEndianBytes,
      widths _ (List.getElem_mem inside)]
  have gathered :=
    gathered_line numbers scramble width admissible index inside
  rw [← bytesLength]
  apply take_flatten_eq numbers.length
  · intro content mem
    rcases List.mem_map.1 mem with ⟨line, lineMem, rfl⟩
    rcases List.getElem_of_mem lineMem with ⟨lineIndex, line_lt, rfl⟩
    exact (gathered lineIndex line_lt).1
  · intro lineIndex line_lt
    rw [List.length_map] at line_lt
    rw [List.getElem_map]
    exact (gathered lineIndex line_lt).2
  · rw [List.length_map, length_filled_lines, bytesLength]
    exact enough_lines _ _ (pieceLength_pos admissible)

/-- Gathering from a table gives back the number with the wanted index. -/
theorem gather_filled
    (index : Nat)
    (inside : index < numbers.length)
    (destination : Words)
    (destinationWidth : destination.length = width) :
    (filled numbers scramble width).gather destination index =
      numbers[index] := by
  have numberWidth : numbers[index].length = width :=
    widths _ (List.getElem_mem inside)
  apply Words.eq_of_value_eq
  · simp [gather, destinationWidth, numberWidth]
  · have gathered :=
      take_gathered_pieces numbers scramble width admissible widths index
        inside
    have bound := Words.value_lt numbers[index]
    rw [numberWidth] at bound
    rw [← List.flatMap_def] at gathered
    rw [gather, Words.value_ofLittleEndian]
    show
      Bytes.littleEndianValue
          (((filled numbers scramble width).lines.flatMap fun line =>
            gatherPiece numbers.length
              (slot line.scramble numbers.length index) line).take
            (8 * width)) %
        _ = _
    rw [gathered, Words.littleEndianValue_flatMap, destinationWidth,
      Nat.mod_eq_of_lt bound]

end

end ModularLadder.ScatterTable
