import DistributedJoin.Comm.Sizes
import DistributedJoin.Cudf.Elements
import Mathlib.Algebra.BigOperators.Ring.Finset

/-!
# Subcolumns of string columns

The character subcolumn of a string column is cut at the offsets found at the
cut rows. The offset subcolumn travels as the sizes of the strings and is
rebuilt from them by a scan.
-/

namespace DistributedJoin

open Device Spmd

/-- Where the characters of the rows at the given row offsets start. -/
def gathered_offsets (column : Column) (offsets : List Int) : List Int :=
  offsets.map fun offset => column.child_offsets.getD offset.toNat 0

/-- For every string column, the start positions of the characters to send to
and to receive from each member of the group; nothing for other columns. -/
def gather_string_offsets
    (table : Table)
    (offsets : List Int)
    (comm_group : CommunicationGroup) :
    Process ranks (List (List Int × List Int)) :=
  (List.range table.length).mapM fun icol =>
    if (table.column icol).type.id ≠ .STRING then pure ([], [])
    else do
      let string_send_offsets := gathered_offsets (table.column icol) offsets
      let string_recv_offsets ← communicate_sizes string_send_offsets comm_group
      pure (string_send_offsets, string_recv_offsets)

/-- The sizes of the strings of a range of rows of one column. -/
def string_sizes (column : Column) (first last : Int) : List Int :=
  (List.range (last - first).toNat).map fun row =>
    toSizeType (column.child_offsets.getD (first.toNat + row + 1) 0 -
      column.child_offsets.getD (first.toNat + row) 0)

/-- For every string column, the sizes of the strings of a range of rows. -/
def calculate_string_sizes_from_offsets
    (input_table : Table)
    (first last : Int) : List (List Int) :=
  (List.range input_table.length).map fun icol =>
    if (input_table.column icol).type.id ≠ .STRING then []
    else string_sizes (input_table.column icol) first last

/-- Addition of two `cudf::size_type`. -/
def addSizeType (left right : Int) : Int := toSizeType (left + right)

/-- The offset subcolumn of a column whose strings have the given sizes. -/
def calculate_string_offsets_from_sizes (input_sizes : List Int) : List Int :=
  0 :: inclusive_scan addSizeType input_sizes

/-- The sizes of the strings of a range of rows are the lengths of these
strings. -/
theorem string_sizes_eq
    {column : Column}
    (sound : column.Sound)
    (unsliced : column.offset = 0)
    (string : column.type.id = .STRING)
    {first last : Int}
    (nonnegative : 0 ≤ first)
    (ordered : first ≤ last)
    (inside : last ≤ column.size) :
    string_sizes column first last =
      ((column.elements.drop first.toNat).take (last - first).toNat).map
        fun element => (element.length : Int) := by
  unfold string_sizes
  apply List.ext_getElem
  · simp only [List.length_map, List.length_range, List.length_take, List.length_drop,
      Column.length_elements]
    omega
  · intro row rowBound _
    rw [List.length_map, List.length_range] at rowBound
    have rowInside : first.toNat + row < column.size.toNat := by omega
    have length := sound.length_element unsliced string rowInside
    have lower := (sound.getD_offsets_bounds string
      (Nat.le_of_lt rowInside)).1
    have upper : column.child_offsets.getD (first.toNat + row + 1) 0 ≤
        column.child_chars.length := (sound.getD_offsets_bounds string rowInside).2
    have chars := sound.chars_lt string
    have fits : toSizeType (column.child_offsets.getD (first.toNat + row + 1) 0 -
        column.child_offsets.getD (first.toNat + row) 0) =
        (column.elements.getD (first.toNat + row) []).length := by
      rw [length]
      exact toSizeType_eq (by omega) (by omega)
    simp only [List.getElem_map, List.getElem_range, List.getElem_take,
      List.getElem_drop, fits]
    rw [List.getD_eq_getElem]

/-- Running totals of `cudf::size_type` are the totals, wrapped. -/
theorem getD_scanl_addSizeType
    (total : Int)
    (values : List Int)
    {index : Nat}
    (indexBound : index ≤ values.length) :
    (values.scanl addSizeType (toSizeType total)).getD index 0 =
      toSizeType (total + (values.take index).sum) := by
  induction values generalizing total index with
  | nil =>
      obtain rfl : index = 0 := Nat.le_zero.mp indexBound
      simp
  | cons value rest inductionHypothesis =>
      cases index with
      | zero => simp
      | succ index =>
          have step : addSizeType (toSizeType total) value = toSizeType (total + value) :=
            Int.bmod_add_bmod
          rw [List.scanl_cons, step, List.getD_cons_succ,
            inductionHypothesis _ (Nat.le_of_succ_le_succ indexBound),
            List.take_succ_cons, List.sum_cons, Int.add_assoc]

/-- Totals of values that are not negative, calculated in the width of
`cudf::size_type`, are exact if and only if the last of them is in range. -/
theorem scanl_addSizeType_eq_iff
    {values : List Int}
    (nonnegative : ∀ value ∈ values, 0 ≤ value) :
    values.scanl addSizeType 0 = offsetsOf values ↔ values.sum < 2 ^ 31 := by
  have total : ∀ index, index ≤ values.length →
      (values.scanl addSizeType 0).getD index 0 = toSizeType (values.take index).sum := by
    intro index indexBound
    have scanned := getD_scanl_addSizeType 0 values indexBound
    rwa [Int.zero_add] at scanned
  constructor
  · intro exact
    have last := total _ (Nat.le_refl _)
    rw [exact, getD_offsetsOf _ (Nat.le_refl _), List.take_length] at last
    rw [last]
    exact toSizeType_lt _
  · intro small
    apply List.ext_getElem
    · simp
    · intro index indexBound otherBound
      rw [List.length_scanl] at indexBound
      obtain ⟨lower, upper⟩ := sum_take_le nonnegative index
      rw [← List.getD_eq_getElem _ 0, ← List.getD_eq_getElem _ 0,
        total _ (Nat.le_of_lt_succ indexBound), getD_offsetsOf _ (Nat.le_of_lt_succ indexBound)]
      exact toSizeType_eq lower (by omega)

/-- Rebuilding offsets is a scan that starts at zero. -/
theorem calculate_string_offsets_eq_scanl
    {sizes : List Int}
    (fits : ∀ size ∈ sizes, toSizeType size = size) :
    calculate_string_offsets_from_sizes sizes = sizes.scanl addSizeType 0 := by
  cases sizes with
  | nil => rfl
  | cons first rest =>
      rw [calculate_string_offsets_from_sizes, inclusive_scan, List.scanl_cons, addSizeType,
        Int.zero_add, fits first (by simp)]

/-- A rebuilt offset is the total size of the strings before it, wrapped. -/
theorem getD_calculate_string_offsets
    {sizes : List Int}
    (fits : ∀ size ∈ sizes, toSizeType size = size)
    {row : Nat}
    (rowBound : row ≤ sizes.length) :
    (calculate_string_offsets_from_sizes sizes).getD row 0 =
      toSizeType (sizes.take row).sum := by
  have scanned := getD_scanl_addSizeType 0 sizes rowBound
  rw [calculate_string_offsets_eq_scanl fits]
  rwa [Int.zero_add] at scanned

theorem length_calculate_string_offsets (sizes : List Int) :
    (calculate_string_offsets_from_sizes sizes).length = sizes.length + 1 := by
  cases sizes with
  | nil => rfl
  | cons first rest =>
      rw [calculate_string_offsets_from_sizes, inclusive_scan, List.length_cons,
        List.length_scanl, List.length_cons]

/-- The sizes of strings. -/
def sizesOf (strings : List (List Byte)) : List Int :=
  strings.map fun string => (string.length : Int)

theorem sum_take_sizesOf (strings : List (List Byte)) (row : Nat) :
    ((sizesOf strings).take row).sum = ((strings.take row).flatten.length : Int) := by
  rw [sizesOf, ← List.map_take, List.length_flatten, Nat.cast_list_sum, List.map_map]
  rfl

theorem length_flatten_take_le (strings : List (List Byte)) (row : Nat) :
    (strings.take row).flatten.length ≤ strings.flatten.length := by
  conv_rhs => rw [← List.take_append_drop row strings]
  rw [List.flatten_append, List.length_append]
  exact Nat.le_add_right _ _

/-- Sizes of strings whose characters can be counted. -/
theorem toSizeType_of_mem_sizesOf
    {strings : List (List Byte)}
    (each : ∀ string ∈ strings, string.length < 2 ^ 31)
    {size : Int}
    (member : size ∈ sizesOf strings) :
    toSizeType size = size := by
  obtain ⟨string, stringMember, rfl⟩ := List.mem_map.mp member
  have bound := each string stringMember
  exact toSizeType_eq (by omega) (by omega)

/-- A string is not longer than all strings together. -/
theorem length_le_flatten
    {strings : List (List Byte)}
    {string : List Byte}
    (member : string ∈ strings) :
    string.length ≤ strings.flatten.length := by
  obtain ⟨before, after, rfl⟩ := List.append_of_mem member
  simp only [List.flatten_append, List.flatten_cons, List.length_append]
  omega

/-- Offsets rebuilt from sizes cut the characters at the strings. -/
theorem getD_rebuilt_offsets
    {strings : List (List Byte)}
    (small : strings.flatten.length < 2 ^ 31)
    {row : Nat}
    (rowBound : row ≤ strings.length) :
    (calculate_string_offsets_from_sizes (sizesOf strings)).getD row 0 =
      ((strings.take row).flatten.length : Int) := by
  have part := length_flatten_take_le strings row
  rw [getD_calculate_string_offsets
    (fun size member => toSizeType_of_mem_sizesOf (fun string stringMember =>
      (length_le_flatten stringMember).trans_lt small) member)
    (by rw [sizesOf, List.length_map]; exact rowBound), sum_take_sizesOf]
  exact toSizeType_eq (by omega) (by omega)

/-- The positions of a rebuilt offset column. -/
theorem mem_rebuilt_offsets
    {strings : List (List Byte)}
    {value : Int}
    (member : value ∈ calculate_string_offsets_from_sizes (sizesOf strings)) :
    ∃ row, row ≤ strings.length ∧
      (calculate_string_offsets_from_sizes (sizesOf strings)).getD row 0 = value := by
  obtain ⟨row, rowBound, rfl⟩ := List.getElem_of_mem member
  have length := length_calculate_string_offsets (sizesOf strings)
  rw [sizesOf, List.length_map] at length
  refine ⟨row, ?_, List.getD_eq_getElem _ _ rowBound⟩
  rw [sizesOf] at rowBound
  omega

/-- Rebuilt offsets point into the characters. -/
theorem rebuilt_offsets_bound
    {strings : List (List Byte)}
    (small : strings.flatten.length < 2 ^ 31)
    {value : Int}
    (member : value ∈ calculate_string_offsets_from_sizes (sizesOf strings)) :
    0 ≤ value ∧ value ≤ strings.flatten.length := by
  obtain ⟨row, rowBound, rfl⟩ := mem_rebuilt_offsets member
  have part := length_flatten_take_le strings row
  rw [getD_rebuilt_offsets small rowBound]
  omega

/-- Rebuilt offsets do not decrease. -/
theorem sorted_rebuilt_offsets
    {strings : List (List Byte)}
    (small : strings.flatten.length < 2 ^ 31) :
    (calculate_string_offsets_from_sizes (sizesOf strings)).Pairwise (· ≤ ·) := by
  have length := length_calculate_string_offsets (sizesOf strings)
  rw [sizesOf, List.length_map, ← sizesOf] at length
  rw [List.pairwise_iff_getElem]
  intro first second firstBound secondBound ordered
  have left : _ = ((strings.take first).flatten.length : Int) :=
    getD_rebuilt_offsets small (by omega)
  have right : _ = ((strings.take second).flatten.length : Int) :=
    getD_rebuilt_offsets small (by omega)
  rw [List.getD_eq_getElem _ _ firstBound] at left
  rw [List.getD_eq_getElem _ _ secondBound] at right
  have prefixes : (strings.take first).flatten.length ≤
      (strings.take second).flatten.length := by
    have part := length_flatten_take_le (strings.take second) first
    rwa [List.take_take, Nat.min_eq_left (Nat.le_of_lt ordered)] at part
  rw [left, right]
  exact_mod_cast prefixes

/-- A string column rebuilt from the sizes and the characters of strings holds
these strings. -/
theorem elements_of_sizes
    {column : Column}
    {strings : List (List Byte)}
    (string : column.type.id = .STRING)
    (unsliced : column.offset = 0)
    (size : column.size = strings.length)
    (offsets : column.child_offsets =
      calculate_string_offsets_from_sizes (sizesOf strings))
    (chars : column.child_chars = strings.flatten)
    (small : strings.flatten.length < 2 ^ 31) :
    column.elements = strings := by
  rw [Column.elements_string unsliced string]
  apply List.ext_getElem
  · simp [size]
  · intro row _ rowBound
    have split : strings = strings.take row ++ (strings[row] :: strings.drop (row + 1)) := by
      rw [← List.drop_eq_getElem_cons rowBound, List.take_append_drop]
    have next : (strings.take (row + 1)).flatten.length =
        (strings.take row).flatten.length + strings[row].length := by
      rw [List.take_succ_eq_append_getElem rowBound, List.flatten_append,
        List.length_append, List.flatten_singleton]
    simp only [List.getElem_map, List.getElem_range]
    rw [offsets, getD_rebuilt_offsets small (Nat.le_of_lt rowBound),
      getD_rebuilt_offsets small rowBound, next, chars]
    have count : (((strings.take row).flatten.length + strings[row].length : Nat) -
        ((strings.take row).flatten.length : Int)).toNat = strings[row].length := by
      omega
    rw [count]
    have read := readRange_append (strings.take row).flatten strings[row]
      (strings.drop (row + 1)).flatten
    have whole : (strings.take row).flatten ++ strings[row] ++
        (strings.drop (row + 1)).flatten = strings.flatten := by
      rw [List.append_assoc, ← List.flatten_cons, ← List.flatten_append, ← split]
    rwa [whole] at read

/-- Adding a size wraps around at most once. -/
theorem addSizeType_cases
    {start size : Int}
    (lower : -2 ^ 31 ≤ start)
    (upper : start < 2 ^ 31)
    (nonnegative : 0 ≤ size)
    (small : size < 2 ^ 31) :
    start + size < 2 ^ 31 ∧ addSizeType start size = start + size ∨
      2 ^ 31 ≤ start + size ∧ addSizeType start size = start + size - 2 ^ 32 := by
  unfold addSizeType toSizeType
  rw [Int.bmod_def]
  split <;> omega

/-- The lengths of strings that are cut at totals calculated in the width of
`cudf::size_type`. -/
def cut_lengths (start : Int) (sizes : List Int) : List Nat :=
  (List.range sizes.length).map fun row =>
    ((sizes.scanl addSizeType start).getD (row + 1) 0 -
      (sizes.scanl addSizeType start).getD row 0).toNat

theorem cut_lengths_cons (start size : Int) (rest : List Int) :
    cut_lengths start (size :: rest) =
      (addSizeType start size - start).toNat :: cut_lengths (addSizeType start size) rest := by
  have first : (rest.scanl addSizeType (addSizeType start size)).getD 0 0 =
      addSizeType start size := by
    cases rest <;> simp
  unfold cut_lengths
  rw [List.length_cons, List.range_succ_eq_map, List.map_cons, List.map_map, List.scanl_cons,
    List.getD_cons_succ, List.getD_cons_zero, first]
  rfl

/-- Cut strings have at most their sizes together, and fewer bytes than that if the
total does not fit. -/
theorem sum_cut_lengths
    {start : Int}
    {sizes : List Int}
    (lower : -2 ^ 31 ≤ start)
    (upper : start < 2 ^ 31)
    (each : ∀ size ∈ sizes, 0 ≤ size ∧ size < 2 ^ 31) :
    ((cut_lengths start sizes).sum : Int) ≤ sizes.sum ∧
      (2 ^ 31 ≤ start + sizes.sum → ((cut_lengths start sizes).sum : Int) < sizes.sum) := by
  induction sizes generalizing start with
  | nil =>
      simp only [cut_lengths, List.length_nil, List.range_zero, List.map_nil, List.sum_nil]
      omega
  | cons size rest inductionHypothesis =>
      obtain ⟨nonnegative, small⟩ := each size (by simp)
      have restEach : ∀ size ∈ rest, 0 ≤ size ∧ size < 2 ^ 31 := fun size member =>
        each size (by simp [member])
      rw [cut_lengths_cons, List.sum_cons, List.sum_cons, Nat.cast_add]
      rcases addSizeType_cases lower upper nonnegative small with ⟨fits, next⟩ | ⟨wraps, next⟩
      · obtain ⟨bounded, strict⟩ : ((cut_lengths (addSizeType start size) rest).sum : Int) ≤
            rest.sum ∧ _ := inductionHypothesis (by omega) (by omega) restEach
        rw [next] at bounded strict ⊢
        omega
      · obtain ⟨bounded, _⟩ : ((cut_lengths (addSizeType start size) rest).sum : Int) ≤
            rest.sum ∧ _ := inductionHypothesis (by omega) (by omega) restEach
        rw [next] at bounded ⊢
        omega

/-- A property that does not hold at first but later on starts to hold
somewhere. -/
theorem exists_first_step
    {property : Nat → Prop}
    {last : Nat}
    (before : ¬ property 0)
    (after : property last) :
    ∃ step, step < last ∧ ¬ property step ∧ property (step + 1) := by
  induction last with
  | zero => exact absurd after before
  | succ last inductionHypothesis =>
      by_cases earlier : property last
      · obtain ⟨step, stepBound, change⟩ := inductionHypothesis earlier
        exact ⟨step, Nat.lt_succ_of_lt stepBound, change⟩
      · exact ⟨last, Nat.lt_succ_self last, earlier, after⟩

/-- The first string that ends at or beyond a limit. -/
theorem exists_crossing
    (strings : List (List Byte))
    {limit : Nat}
    (positive : 0 < limit)
    (large : limit ≤ strings.flatten.length) :
    ∃ row, row < strings.length ∧ (strings.take row).flatten.length < limit ∧
      limit ≤ (strings.take (row + 1)).flatten.length := by
  let beyond : Nat → Prop := fun row => limit ≤ (strings.take row).flatten.length
  have before : ¬ beyond 0 := Nat.not_le.mpr positive
  have after : beyond strings.length := by
    simp only [beyond, List.take_length]
    exact large
  obtain ⟨row, rowBound, below, above⟩ := exists_first_step before after
  exact ⟨row, rowBound, Nat.not_le.mp below, above⟩

/-- A string column rebuilt from strings with too many characters does not hold
these strings: the first string that ends beyond `2 ^ 31` is lost. -/
theorem elements_ne_of_large
    {column : Column}
    {strings : List (List Byte)}
    (string : column.type.id = .STRING)
    (unsliced : column.offset = 0)
    (size : column.size = strings.length)
    (offsets : column.child_offsets =
      calculate_string_offsets_from_sizes (sizesOf strings))
    (each : ∀ element ∈ strings, element.length < 2 ^ 31)
    (large : 2 ^ 31 ≤ strings.flatten.length) :
    column.elements ≠ strings := by
  intro same
  obtain ⟨row, rowBound, below, above⟩ := exists_crossing strings (by decide) large
  have next : (strings.take (row + 1)).flatten.length =
      (strings.take row).flatten.length + strings[row].length := by
    rw [List.take_succ_eq_append_getElem rowBound, List.flatten_append,
      List.length_append, List.flatten_singleton]
  have rowLength := each strings[row] (List.getElem_mem rowBound)
  have unwrapped : toSizeType ((strings.take row).flatten.length : Int) =
      (strings.take row).flatten.length := toSizeType_eq (by omega) (by omega)
  have wrapped : toSizeType ((strings.take (row + 1)).flatten.length : Int) < 0 :=
    toSizeType_neg (by omega) (by omega)
  have nonempty : 0 < strings[row].length := by omega
  have fits : ∀ value ∈ sizesOf strings, toSizeType value = value := fun _ =>
    toSizeType_of_mem_sizesOf each
  have length : (sizesOf strings).length = strings.length := by
    rw [sizesOf, List.length_map]
  have start : _ = toSizeType ((sizesOf strings).take row).sum :=
    getD_calculate_string_offsets fits (by rw [length]; exact Nat.le_of_lt rowBound)
  have finish : _ = toSizeType ((sizesOf strings).take (row + 1)).sum :=
    getD_calculate_string_offsets fits (by rw [length]; exact rowBound)
  rw [sum_take_sizesOf, unwrapped] at start
  rw [sum_take_sizesOf] at finish
  have element := congrArg (fun elements : List (List Byte) => elements.getD row []) same
  simp only [Column.elements_string unsliced string] at element
  rw [List.getD_eq_getElem _ _ (by simpa [size] using rowBound), List.getElem_map,
    List.getElem_range, List.getD_eq_getElem _ _ rowBound, offsets, start, finish] at element
  have empty : (toSizeType ((strings.take (row + 1)).flatten.length : Int) -
      ((strings.take row).flatten.length : Int)).toNat = 0 :=
    Int.toNat_of_nonpos (Int.sub_nonpos_of_le (wrapped.le.trans (Int.natCast_nonneg _)))
  rw [empty, readRange_zero] at element
  rw [← element] at nonempty
  exact absurd nonempty (Nat.lt_irrefl 0)

end DistributedJoin
