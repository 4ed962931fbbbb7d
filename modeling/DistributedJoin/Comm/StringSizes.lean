import DistributedJoin.Comm.AllToAllCommunicator

/-!
# String sizes and string offsets

The sizes of strings are the differences of neighbouring offsets, and the offsets are the
running totals of the sizes, with a zero in front. For a range of rows the one undoes the
other, as long as the characters of the range can be counted.
-/

namespace DistributedJoin

open Device

/-- `calculate_string_offsets_from_sizes` for all columns: the offset subcolumns of string
columns are overwritten, up to the number of rows. -/
def Table.calculate_string_offsets_from_sizes
    (output_table : Table)
    (input_sizes : List (List Int)) : Table :=
  (List.range output_table.length).map fun icol =>
    let output_column := output_table.column icol
    if output_column.type.id ≠ .STRING then output_column
    else
      let nrows := output_column.size.toNat
      { output_column with
        child_offsets :=
          DistributedJoin.calculate_string_offsets_from_sizes
              ((input_sizes.getD icol []).take nrows) ++
            output_column.child_offsets.drop (nrows + 1) }

/-- The offsets of a range of rows do not decrease, and the characters of these rows can be
counted. -/
structure Column.Countable (column : Column) (first last : Int) : Prop where
  sorted : column.child_offsets.Pairwise (· ≤ ·)
  inside : last < column.child_offsets.length
  total : column.child_offsets.getD last.toNat 0 - column.child_offsets.getD first.toNat 0 <
    2 ^ 31

/-- Sizes of strings for the columns of a table: one list for each column, which is empty
for columns that do not hold strings. -/
structure Table.SizesFor (table : Table) (nrows : Nat) (sizes : List (List Int)) : Prop where
  columns : sizes.length = table.length
  others : ∀ icol < table.length, (table.column icol).type.id ≠ .STRING →
    sizes.getD icol [] = []
  rows : ∀ icol < table.length, (table.column icol).type.id = .STRING →
    (sizes.getD icol []).length = nrows
  nonnegative : ∀ icol < table.length, (table.column icol).type.id = .STRING →
    ∀ size ∈ sizes.getD icol [], 0 ≤ size
  total : ∀ icol < table.length, (table.column icol).type.id = .STRING →
    (sizes.getD icol []).sum < 2 ^ 31

/-- A table for a number of rows with the element types of another table. -/
structure Table.Shaped (table like : Table) (nrows : Int) : Prop where
  columns : table.length = like.length
  types : ∀ icol < like.length, (table.column icol).type = (like.column icol).type
  rows : ∀ icol < like.length, (table.column icol).size = nrows

section Tables

variable (table : Table) {icol : Nat} (icolBound : icol < table.length)
include icolBound

theorem getD_string_sizes (first last : Int) :
    (calculate_string_sizes_from_offsets table first last).getD icol [] =
      if (table.column icol).type.id ≠ .STRING then []
      else string_sizes (table.column icol) first last := by
  rw [List.getD_eq_getElem _ _ (by simpa [calculate_string_sizes_from_offsets] using icolBound)]
  simp only [calculate_string_sizes_from_offsets, List.getElem_map, List.getElem_range]

/-- Columns that do not hold strings stay as they are. -/
theorem column_string_offsets_other
    (sizes : List (List Int))
    (other : (table.column icol).type.id ≠ .STRING) :
    (table.calculate_string_offsets_from_sizes sizes).column icol = table.column icol := by
  rw [Table.column,
    List.getD_eq_getElem _ _ (by simpa [Table.calculate_string_offsets_from_sizes] using icolBound)]
  simp only [Table.calculate_string_offsets_from_sizes, List.getElem_map, List.getElem_range]
  exact if_pos other

/-- A string column gets the offsets for its sizes. -/
theorem column_string_offsets
    (sizes : List (List Int))
    (string : (table.column icol).type.id = .STRING) :
    (table.calculate_string_offsets_from_sizes sizes).column icol =
      { table.column icol with
        child_offsets :=
          calculate_string_offsets_from_sizes
              ((sizes.getD icol []).take (table.column icol).size.toNat) ++
            (table.column icol).child_offsets.drop ((table.column icol).size.toNat + 1) } := by
  rw [Table.column,
    List.getD_eq_getElem _ _ (by simpa [Table.calculate_string_offsets_from_sizes] using icolBound)]
  simp only [Table.calculate_string_offsets_from_sizes, List.getElem_map, List.getElem_range]
  exact if_neg (not_not.mpr string)

end Tables

namespace AllToAllCommunicator

variable (self : AllToAllCommunicator) (gpu : Gpu) (memory : Memory)

/-- The sizes of strings that have been received, in the order of the rows. -/
def string_sizes_received : List (List Int) :=
  (List.range self.input_table.length).map fun icol =>
    if (self.input_table.column icol).type.id ≠ .STRING then []
    else decodeWords 4
      (contents gpu.uninitialized (writesTo (.plain (.sizes icol)) memory)
        ((self.recv_offsets.getLastD 0).toNat * 4))
      self.communicated_rows.toNat

/-- The offsets of the communicated table are those that are rebuilt from the received
sizes, whatever the allocated offset subcolumns contain. -/
theorem communicated_column_eq_rebuilt
    {allocated : Table}
    {icol : Nat}
    (icolBound : icol < self.input_table.length)
    (columns : allocated.length = self.input_table.length)
    {child_offsets : List Int}
    (uninitialized : allocated.column icol =
      { self.communicated_column gpu memory icol with child_offsets := child_offsets })
    (rows : child_offsets.length = self.communicated_rows.toNat + 1)
    (string : (self.input_table.column icol).type.id = .STRING) :
    (allocated.calculate_string_offsets_from_sizes
      (self.string_sizes_received gpu memory)).column icol =
        self.communicated_column gpu memory icol := by
  have received : (self.string_sizes_received gpu memory).getD icol [] =
      decodeWords 4
        (contents gpu.uninitialized (writesTo (.plain (.sizes icol)) memory)
          ((self.recv_offsets.getLastD 0).toNat * 4))
        self.communicated_rows.toNat := by
    rw [List.getD_eq_getElem _ _ (by simpa [string_sizes_received] using icolBound)]
    simp only [string_sizes_received, List.getElem_map, List.getElem_range]
    exact if_neg (not_not.mpr string)
  have communicated : self.communicated_column gpu memory icol = _ := if_neg (not_not.mpr string)
  rw [column_string_offsets allocated (columns.symm ▸ icolBound) _
    (by rw [uninitialized, communicated]; exact string), received, uninitialized]
  simp only [communicated]
  rw [List.take_of_length_le (by simp [decodeWords]), List.drop_of_length_le rows.le,
    List.append_nil]

end AllToAllCommunicator

namespace Column.Countable

variable {column : Column} {first last : Int} (countable : column.Countable first last)
  (nonnegative : 0 ≤ first)
include countable nonnegative

/-- Offsets of a range of rows lie between those at its ends. -/
theorem between
    {row next : Nat}
    (ordered : row ≤ next)
    (inside : next ≤ (last - first).toNat)
    (nonempty : first ≤ last) :
    0 ≤ column.child_offsets.getD (first.toNat + next) 0 -
        column.child_offsets.getD (first.toNat + row) 0 ∧
      column.child_offsets.getD (first.toNat + next) 0 -
        column.child_offsets.getD (first.toNat + row) 0 < 2 ^ 31 := by
  have bound := countable.inside
  have total := countable.total
  have le : ∀ {lower upper : Nat}, lower ≤ upper → upper ≤ last.toNat →
      column.child_offsets.getD lower 0 ≤ column.child_offsets.getD upper 0 := by
    intro lower upper lowerUpper upperBound
    rw [List.getD_eq_getElem _ _ (by omega), List.getD_eq_getElem _ _ (by omega)]
    rcases Nat.lt_or_eq_of_le lowerUpper with before | rfl
    · exact List.pairwise_iff_getElem.mp countable.sorted _ _ _ _ before
    · exact le_rfl
  have step := @le (first.toNat + row) (first.toNat + next) (by omega) (by omega)
  have start := @le first.toNat (first.toNat + row) (by omega) (by omega)
  have finish := @le (first.toNat + next) last.toNat (by omega) (by omega)
  omega

/-- The sizes of the first strings of a range add up to a difference of offsets. -/
theorem sum_take_string_sizes
    (nonempty : first ≤ last)
    {row : Nat}
    (rowBound : row ≤ (last - first).toNat) :
    ((string_sizes column first last).take row).sum =
      column.child_offsets.getD (first.toNat + row) 0 -
        column.child_offsets.getD first.toNat 0 := by
  induction row with
  | zero => simp
  | succ row inductionHypothesis =>
      have length : row < (string_sizes column first last).length := by
        rw [string_sizes, List.length_map, List.length_range]
        exact rowBound
      obtain ⟨lower, upper⟩ := countable.between nonnegative (Nat.le_succ row) rowBound nonempty
      have size : (string_sizes column first last)[row] =
          column.child_offsets.getD (first.toNat + (row + 1)) 0 -
            column.child_offsets.getD (first.toNat + row) 0 := by
        simp only [string_sizes, List.getElem_map, List.getElem_range]
        exact toSizeType_eq lower upper
      rw [List.take_succ_eq_append_getElem length, List.sum_append, List.sum_singleton, size,
        inductionHypothesis (Nat.le_of_succ_le rowBound)]
      omega

/-- Rebuilding the offsets from the sizes of a range of rows shifts the offsets of the
range, so that they start at zero. -/
theorem getD_rebuilt
    (nonempty : first ≤ last)
    {row : Nat}
    (rowBound : row ≤ (last - first).toNat) :
    (calculate_string_offsets_from_sizes (string_sizes column first last)).getD row 0 =
      column.child_offsets.getD (first.toNat + row) 0 -
        column.child_offsets.getD first.toNat 0 := by
  have fits : ∀ size ∈ string_sizes column first last, toSizeType size = size := by
    intro size member
    obtain ⟨index, indexBound, rfl⟩ := List.mem_map.mp member
    obtain ⟨lower, upper⟩ := countable.between nonnegative (Nat.le_succ index)
      (List.mem_range.mp indexBound) nonempty
    exact congrArg toSizeType (toSizeType_eq lower upper)
  obtain ⟨lower, upper⟩ := countable.between nonnegative (Nat.zero_le row) rowBound nonempty
  rw [getD_calculate_string_offsets fits (by simpa [string_sizes] using rowBound),
    countable.sum_take_string_sizes nonnegative nonempty rowBound]
  exact toSizeType_eq lower upper

end Column.Countable

/-- The sizes that belong to rebuilt offsets are those that the offsets have been rebuilt
from. -/
theorem string_sizes_rebuilt
    {column : Column}
    {sizes rest : List Int}
    (offsets : column.child_offsets = calculate_string_offsets_from_sizes sizes ++ rest)
    (nonnegative : ∀ size ∈ sizes, 0 ≤ size)
    (total : sizes.sum < 2 ^ 31) :
    string_sizes column 0 sizes.length = sizes := by
  have rebuilt : calculate_string_offsets_from_sizes sizes = offsetsOf sizes := by
    rw [← (scanl_addSizeType_eq_iff nonnegative).mpr total]
    refine calculate_string_offsets_eq_scanl fun size member => ?_
    exact toSizeType_eq (nonnegative size member)
      ((List.single_le_sum nonnegative size member).trans_lt total)
  have getD_offsets : ∀ {row}, row ≤ sizes.length →
      column.child_offsets.getD row 0 = (offsetsOf sizes).getD row 0 := by
    intro row rowBound
    rw [offsets, rebuilt, List.getD_append _ _ _ _ (by rw [length_offsetsOf]; omega)]
  apply List.ext_getElem
  · simp [string_sizes]
  · intro row _ rowBound
    have difference := countAt_offsetsOf sizes rowBound
    rw [countAt, List.getD_eq_getElem _ _ rowBound] at difference
    simp only [string_sizes, List.getElem_map, List.getElem_range, Int.toNat_zero, Nat.zero_add]
    rw [getD_offsets rowBound, getD_offsets (Nat.le_of_lt rowBound), difference]
    have member := List.getElem_mem rowBound
    exact toSizeType_eq (nonnegative _ member)
      ((List.single_le_sum nonnegative _ member).trans_lt total)

/-- String sizes and string offsets are inverse to each other. The offsets for the sizes of
a range of rows are those of the range, shifted to start at zero, and the sizes for the
offsets of a whole table are those that the offsets are from. Columns that do not hold
strings stay as they are, and have no sizes. -/
theorem string_sizes_offsets_inverse (table : Table) :
    (∀ (first last : Int) (output_table : Table), 0 ≤ first → first ≤ last →
      (∀ icol < table.length, (table.column icol).type.id = .STRING →
        (table.column icol).Countable first last) →
      output_table.Shaped table (last - first) →
      let sizes := calculate_string_sizes_from_offsets table first last
      let rebuilt := output_table.calculate_string_offsets_from_sizes sizes
      sizes.length = table.length ∧ rebuilt.length = table.length ∧
        ∀ icol < table.length,
          if (table.column icol).type.id = .STRING then
            ∀ row : Nat, (row : Int) ≤ last - first →
              (rebuilt.column icol).child_offsets.getD row 0 =
                (table.column icol).child_offsets.getD (first.toNat + row) 0 -
                  (table.column icol).child_offsets.getD first.toNat 0
          else sizes.getD icol [] = [] ∧ rebuilt.column icol = output_table.column icol) ∧
    ∀ (nrows : Nat) (sizes : List (List Int)), table.SizesFor nrows sizes →
      (∀ icol < table.length, (table.column icol).size = nrows) →
      let rebuilt := table.calculate_string_offsets_from_sizes sizes
      calculate_string_sizes_from_offsets rebuilt 0 nrows = sizes ∧
        rebuilt.length = table.length ∧
        ∀ icol < table.length, (table.column icol).type.id ≠ .STRING →
          rebuilt.column icol = table.column icol := by
  constructor
  · intro first last output_table nonnegative ordered countable shaped sizes rebuilt
    have columns : rebuilt.length = table.length := by
      simpa [rebuilt, Table.calculate_string_offsets_from_sizes] using shaped.columns
    refine ⟨by simp [sizes, calculate_string_sizes_from_offsets], columns, ?_⟩
    intro icol icolBound
    have outputBound : icol < output_table.length := shaped.columns.symm ▸ icolBound
    have type := congrArg DataType.id (shaped.types icol icolBound)
    have column_sizes := getD_string_sizes table icolBound first last
    split
    · rename_i string
      intro row rowBound
      rw [if_neg (not_not.mpr string)] at column_sizes
      have whole : (sizes.getD icol []).take (output_table.column icol).size.toNat =
          string_sizes (table.column icol) first last := by
        rw [column_sizes, shaped.rows icol icolBound, List.take_of_length_le]
        simp [string_sizes]
      have length : (string_sizes (table.column icol) first last).length =
          (last - first).toNat := by simp [string_sizes]
      rw [column_string_offsets output_table outputBound sizes (type.trans string), whole,
        List.getD_append _ _ _ _ (by rw [length_calculate_string_offsets, length]; omega)]
      exact (countable icol icolBound string).getD_rebuilt nonnegative ordered (by omega)
    · rename_i other
      rw [if_pos other] at column_sizes
      exact ⟨column_sizes, column_string_offsets_other output_table outputBound sizes
        (type.trans_ne other)⟩
  · intro nrows sizes sizesFor rows rebuilt
    have columns : rebuilt.length = table.length := by
      simp [rebuilt, Table.calculate_string_offsets_from_sizes]
    refine ⟨?_, columns, fun icol icolBound other =>
      column_string_offsets_other table icolBound sizes other⟩
    apply List.ext_getElem
    · rw [sizesFor.columns, ← columns]
      simp [calculate_string_sizes_from_offsets]
    · intro icol _ sizesBound
      have icolBound : icol < table.length := sizesFor.columns ▸ sizesBound
      have column_sizes := getD_string_sizes rebuilt (columns.symm ▸ icolBound) 0 nrows
      rw [← List.getD_eq_getElem _ [], column_sizes, ← List.getD_eq_getElem _ []]
      by_cases string : (table.column icol).type.id = .STRING
      · have column := column_string_offsets table icolBound sizes string
        rw [rows icol icolBound, Int.toNat_natCast, ← sizesFor.rows icol icolBound string,
          List.take_length] at column
        have type : (rebuilt.column icol).type.id = .STRING := by rw [column]; exact string
        rw [if_neg (not_not.mpr type), ← sizesFor.rows icol icolBound string]
        exact string_sizes_rebuilt (congrArg Column.child_offsets column)
          (sizesFor.nonnegative icol icolBound string) (sizesFor.total icol icolBound string)
      · have column := column_string_offsets_other table icolBound sizes string
        rw [if_pos (by rw [column]; exact string), sizesFor.others icol icolBound string]

/-- A column of numbers beside the strings "ab", "" and "cde". -/
def numbersAndStrings : Table :=
  [{ type := ⟨.INT32, 0⟩
     size := 3
     offset := 0
     head := List.replicate 12 0
     null_mask := none
     child_offsets := []
     child_chars := [] },
   { type := ⟨.STRING, 0⟩
     size := 3
     offset := 0
     head := []
     null_mask := none
     child_offsets := [0, 2, 2, 5]
     child_chars := [97, 98, 99, 100, 101] }]

/-- A table for two of its rows. -/
def twoRows : Table := numbersAndStrings.map fun column : Column => { column with size := 2 }

/-- The end of the last of two strings, and the sizes for the offsets of three rows. -/
theorem string_sizes_offsets_numbersAndStrings :
    ((twoRows.calculate_string_offsets_from_sizes
        (calculate_string_sizes_from_offsets numbersAndStrings 1 3)).column 1).child_offsets.getD
          2 0 = 3 ∧
      calculate_string_sizes_from_offsets
        (numbersAndStrings.calculate_string_offsets_from_sizes [[], [4, 0, 1]]) 0 3 =
          [[], [4, 0, 1]] := by
  constructor
  · have columns := ((string_sizes_offsets_inverse numbersAndStrings).1 1 3 twoRows (by decide)
      (by decide) (by
        intro icol icolBound string
        obtain rfl : icol = 1 := by
          have cases : icol = 0 ∨ icol = 1 := by
            change icol < 2 at icolBound
            omega
          rcases cases with rfl | rfl
          · contradiction
          · rfl
        exact ⟨by decide, by decide, by decide⟩) ⟨rfl, by decide, by decide⟩).2.2 1 (by decide)
    rw [if_pos (by rfl)] at columns
    exact columns 2 (by decide)
  · exact ((string_sizes_offsets_inverse numbersAndStrings).2 3 _
      ⟨rfl, by decide, by decide, by decide, by decide⟩ (by decide)).1

end DistributedJoin
