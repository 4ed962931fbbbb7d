import DistributedJoin.Comm.CommunicatedTable
import DistributedJoin.Comm.Distribution

/-!
# The rows of the local tables

The local tables cut the rows of the global table into consecutive slices. What
is distributed are the elements at the beginning of the buffers of the columns,
which are those of the columns unless they are sliced.
-/

namespace DistributedJoin

open Device Spmd

section Sizes

variable {global_size : Int} {n : Nat}

theorem get_local_table_size_eq (global_size : Int) (rank n : Nat) :
    get_local_table_size global_size rank n =
      global_size / n + if (rank : Int) < global_size % n then 1 else 0 := by
  simp only [get_local_table_size]
  split <;> omega

/-- Every local table begins where the one before it ends. -/
theorem get_start_idx_succ (global_size : Int) (rank n : Nat) :
    get_start_idx global_size (rank + 1) n =
      get_start_idx global_size rank n + get_local_table_size global_size rank n := by
  have next : min ((rank + 1 : Nat) : Int) (global_size % n) =
      min (rank : Int) (global_size % n) +
        if (rank : Int) < global_size % n then 1 else 0 := by
    split <;> omega
  have quotient : global_size / n * ((rank + 1 : Nat) : Int) =
      global_size / n * rank + global_size / n := by
    rw [Nat.cast_add, Int.mul_add, Nat.cast_one, Int.mul_one]
  rw [get_local_table_size_eq, get_start_idx, get_start_idx, next, quotient]
  omega

/-- The last local table ends with the global one. -/
theorem get_start_idx_last (global_size : Int) (n_pos : 0 < n) :
    get_start_idx global_size n n = global_size := by
  have remainder : global_size % n < n := Int.emod_lt_of_pos _ (by omega)
  unfold get_start_idx
  rw [min_eq_right (Int.le_of_lt remainder), Int.mul_comm]
  exact Int.emod_add_mul_ediv _ _

theorem get_local_table_size_nonneg (nonnegative : 0 ≤ global_size) (rank n : Nat) :
    0 ≤ get_local_table_size global_size rank n := by
  have quotient : 0 ≤ global_size / n := Int.ediv_nonneg nonnegative (by omega)
  rw [get_local_table_size_eq]
  split <;> omega

/-- The sizes of two local tables differ by at most one. -/
theorem get_local_table_size_le (global_size : Int) (rank other n : Nat) :
    get_local_table_size global_size rank n ≤
      get_local_table_size global_size other n + 1 := by
  rw [get_local_table_size_eq, get_local_table_size_eq]
  split <;> split <;> omega

theorem get_start_idx_eq_sum (global_size : Int) (n_pos : 0 < n) (rank : Nat) :
    get_start_idx global_size rank n =
      ((List.range rank).map fun earlier => get_local_table_size global_size earlier n).sum := by
  induction rank with
  | zero => exact get_start_idx_zero global_size n_pos
  | succ rank inductionHypothesis =>
      rw [get_start_idx_succ, inductionHypothesis, List.range_succ, List.map_append,
        List.sum_append]
      simp

/-- All local tables together are as large as the global one. -/
theorem sum_get_local_table_size (global_size : Int) (n_pos : 0 < n) :
    ((List.range n).map fun rank => get_local_table_size global_size rank n).sum =
      global_size := by
  rw [← get_start_idx_eq_sum global_size n_pos, get_start_idx_last global_size n_pos]

theorem get_start_idx_nonneg
    (nonnegative : 0 ≤ global_size)
    (n_pos : 0 < n)
    (rank : Nat) :
    0 ≤ get_start_idx global_size rank n := by
  rw [get_start_idx_eq_sum global_size n_pos]
  apply List.sum_nonneg
  intro size member
  obtain ⟨earlier, _, rfl⟩ := List.mem_map.mp member
  exact get_local_table_size_nonneg nonnegative _ _

/-- A local table ends inside the global one. -/
theorem get_start_idx_add_le
    (nonnegative : 0 ≤ global_size)
    {rank : Nat}
    (rankBound : rank < n) :
    get_start_idx global_size rank n + get_local_table_size global_size rank n ≤
      global_size := by
  have n_pos : 0 < n := Nat.zero_lt_of_lt rankBound
  let sizes := (List.range n).map fun rank => get_local_table_size global_size rank n
  have nonneg : ∀ size ∈ sizes, 0 ≤ size := by
    intro size member
    obtain ⟨earlier, _, rfl⟩ := List.mem_map.mp member
    exact get_local_table_size_nonneg nonnegative _ _
  have initial : (sizes.take (rank + 1)).sum = get_start_idx global_size (rank + 1) n := by
    rw [get_start_idx_eq_sum global_size n_pos, ← List.map_take, List.take_range,
      min_eq_left rankBound]
  have bound := (sum_take_le nonneg (rank + 1)).2
  rw [initial, get_start_idx_succ,
    show sizes.sum = global_size from sum_get_local_table_size global_size n_pos] at bound
  exact bound

/-- The slice of a list of all rows that goes to a rank. -/
def local_part {α : Type} (n rank : Nat) (values : List α) : List α :=
  (values.drop (get_start_idx values.length rank n).toNat).take
    (get_local_table_size values.length rank n).toNat

theorem length_local_part
    {α : Type}
    (values : List α)
    {rank : Nat}
    (rankBound : rank < n) :
    ((local_part n rank values).length : Int) =
      get_local_table_size values.length rank n := by
  have n_pos : 0 < n := Nat.zero_lt_of_lt rankBound
  have length_nonneg : (0 : Int) ≤ values.length := Int.natCast_nonneg _
  have start := get_start_idx_nonneg length_nonneg n_pos rank
  have size := get_local_table_size_nonneg length_nonneg rank n
  have inside := get_start_idx_add_le length_nonneg rankBound
  rw [local_part, List.length_take, List.length_drop]
  omega

/-- The slices of all ranks are the whole list. -/
theorem flatMap_local_part
    {α : Type}
    (values : List α)
    (n_pos : 0 < n) :
    ((List.range n).flatMap fun rank => local_part n rank values) = values := by
  have length_nonneg : (0 : Int) ≤ values.length := Int.natCast_nonneg _
  have initial : ∀ count : Nat,
      ((List.range count).flatMap fun rank => local_part n rank values) =
        values.take (get_start_idx values.length count n).toNat := by
    intro count
    induction count with
    | zero =>
        rw [get_start_idx_zero _ n_pos]
        rfl
    | succ count inductionHypothesis =>
        have start := get_start_idx_nonneg length_nonneg n_pos count
        have size := get_local_table_size_nonneg length_nonneg count n
        rw [List.range_succ, List.flatMap_append, inductionHypothesis, get_start_idx_succ,
          Int.toNat_add start size, List.take_add]
        simp [local_part]
  rw [initial n, get_start_idx_last _ n_pos, Int.toNat_natCast, List.take_length]

theorem map_local_part
    {α β : Type}
    (change : α → β)
    (values : List α)
    (n rank : Nat) :
    (local_part n rank values).map change = local_part n rank (values.map change) := by
  rw [local_part, local_part, List.map_take, List.map_drop, List.length_map]

theorem mem_of_mem_local_part
    {α : Type}
    {value : α}
    {values : List α}
    {rank : Nat}
    (member : value ∈ local_part n rank values) :
    value ∈ values :=
  List.mem_of_mem_drop (List.mem_of_mem_take member)

end Sizes

/-- A write of a whole block leaves the written bytes in it. -/
theorem contents_single (initial : Int → Byte) (bytes : List Byte) :
    contents initial [⟨0, bytes⟩] bytes.length = bytes := by
  have tiles : Tiles [⟨0, bytes⟩] [bytes] := List.Perm.refl _
  have content := tiles.contents_eq initial
  rwa [List.flatten_singleton] at content

/-- A fixed-width column with the given elements. -/
def column_of (dtype : DataType) (elements : List (List Byte)) : Column :=
  fixed_width_column dtype elements.length elements.flatten

section Columns

variable {dtype : DataType} {elements : List (List Byte)}

theorem head_elements_column_of
    (uniform : ∀ element ∈ elements, element.length = dtype.id.size_of) :
    (column_of dtype elements).head_elements = elements :=
  itemsOf_flatten uniform

theorem cells_column_of
    (fixed : dtype.id ≠ .STRING)
    (uniform : ∀ element ∈ elements, element.length = dtype.id.size_of) :
    (column_of dtype elements).cells = elements.map some := by
  rw [Column.cells_eq (show (column_of dtype elements).null_mask = none from rfl),
    Column.elements_fixed rfl fixed, head_elements_column_of uniform]

theorem wellFormed_column_of
    (fixed : dtype.id ≠ .STRING)
    (uniform : ∀ element ∈ elements, element.length = dtype.id.size_of)
    (small : elements.length < 2 ^ 31) :
    (column_of dtype elements).WellFormed where
  size_nonneg := Int.natCast_nonneg _
  size_lt := Int.ofNat_lt.mpr small
  unsliced := rfl
  non_null := rfl
  fixed := fun _ => length_flatten_items uniform
  offsets_length := fun string => absurd string fixed
  offsets_cover := fun string => absurd string fixed
  offsets_sorted := fun string => absurd string fixed
  offsets_bound := fun string => absurd string fixed
  chars_lt := fun string => absurd string fixed

/-- Elements of one width can be recovered from a column. -/
theorem column_of_inj
    {others : List (List Byte)}
    (uniform : ∀ element ∈ elements, element.length = dtype.id.size_of)
    (othersUniform : ∀ element ∈ others, element.length = dtype.id.size_of)
    (equal : column_of dtype elements = column_of dtype others) :
    elements = others := by
  rw [← head_elements_column_of uniform, equal, head_elements_column_of othersUniform]

end Columns

/-- The elements of a column for a rank. -/
theorem distributed_bytes_eq
    (icol : Nat)
    {global_col : Column}
    (sound : global_col.Sound)
    {n rank : Nat}
    (rankBound : rank < n) :
    distributed_bytes icol global_col global_col.type.id.size_of n rank =
      (local_part n rank global_col.head_elements).flatten := by
  have n_pos : 0 < n := Nat.zero_lt_of_lt rankBound
  have size : (global_col.head_elements.length : Int) = global_col.size := by
    rw [Column.length_head_elements, Int.toNat_of_nonneg sound.size_nonneg]
  have start := get_start_idx_nonneg sound.size_nonneg n_pos rank
  have count := get_local_table_size_nonneg sound.size_nonneg rank n
  have inside := get_start_idx_add_le sound.size_nonneg rankBound
  obtain ⟨first, firstEquality⟩ := Int.eq_ofNat_of_zero_le start
  obtain ⟨rows, rowsEquality⟩ := Int.eq_ofNat_of_zero_le count
  rw [local_part, size]
  simp only [distributed_bytes, distributed_transfer, firstEquality, rowsEquality,
    ← Nat.cast_mul, Int.toNat_natCast]
  exact readRange_eq_flatten_itemsOf (by omega)

namespace Table

theorem column_mem {table : Table} {icol : Nat} (icolBound : icol < table.length) :
    table.column icol ∈ table := by
  rw [column, List.getD_eq_getElem _ _ icolBound]
  exact List.getElem_mem icolBound

/-- The bytes of a column that are sent or copied are those of its first
elements. -/
theorem Sound.readRange_num_rows
    {table : Table}
    (sound : table.Sound)
    {icol : Nat}
    (icolBound : icol < table.length) :
    readRange (table.column icol).head 0
        (table.num_rows * (table.column icol).type.id.size_of).toNat =
      (table.column icol).head_elements.flatten := by
  have range : readRange (table.column icol).head
      (0 * (table.column icol).type.id.size_of : Nat)
      ((table.column icol).size.toNat * (table.column icol).type.id.size_of) = _ :=
    readRange_eq_flatten_itemsOf (Nat.le_of_eq (Nat.zero_add _))
  have count : (table.num_rows * (table.column icol).type.id.size_of).toNat =
      (table.column icol).size.toNat * (table.column icol).type.id.size_of := by
    rw [sound.sizes _ (column_mem icolBound),
      Int.toNat_mul sound.num_rows_nonneg (Int.natCast_nonneg _), Int.toNat_natCast]
  rw [Nat.zero_mul, Nat.cast_zero, List.drop_zero, List.take_of_length_le (by simp)] at range
  rw [count, range]
  rfl

/-- No column holds strings. -/
def FixedWidth (table : Table) : Prop := ∀ column ∈ table, column.type.id ≠ .STRING

/-- The rows at the beginning of the buffers of the columns. -/
def head_rows (table : Table) : List Row :=
  rowsOf table.num_rows.toNat (table.map fun column => column.head_elements.map some)

/-- A table that is neither sliced nor nullable has its rows at the beginning of
the buffers. -/
theorem WellFormed.rows_eq
    {table : Table}
    (wellFormed : table.WellFormed)
    (fixed : table.FixedWidth) :
    table.rows = table.head_rows := by
  unfold rows head_rows
  congr 1
  apply List.map_congr_left
  intro column member
  have columnWellFormed := wellFormed.columns column member
  rw [Column.cells_eq columnWellFormed.non_null,
    Column.elements_fixed columnWellFormed.unsliced (fixed column member)]

end Table

/-- A fixed-width table with the given elements. -/
def table_of
    (ncols : Nat)
    (dtype : Nat → DataType)
    (elements : Nat → List (List Byte)) : Table :=
  (List.range ncols).map fun icol => column_of (dtype icol) (elements icol)

/-- The elements of a table have the widths of their types, and every column has
the same number of them. -/
structure Rectangular
    (ncols : Nat)
    (dtype : Nat → DataType)
    (elements : Nat → List (List Byte))
    (count : Nat) : Prop where
  fixed : ∀ icol, icol < ncols → (dtype icol).id ≠ .STRING
  uniform : ∀ icol, icol < ncols → ∀ element ∈ elements icol,
    element.length = (dtype icol).id.size_of
  lengths : ∀ icol, icol < ncols → (elements icol).length = count
  /-- Rows need columns. -/
  no_columns : ncols = 0 → count = 0

namespace Rectangular

variable {ncols count : Nat} {dtype : Nat → DataType} {elements : Nat → List (List Byte)}
variable (rectangular : Rectangular ncols dtype elements count)
include rectangular

theorem num_rows_eq : (table_of ncols dtype elements).num_rows = count := by
  cases ncols with
  | zero =>
      rw [rectangular.no_columns rfl]
      rfl
  | succ rest =>
      rw [table_of, List.range_succ_eq_map, List.map_cons]
      exact congrArg Nat.cast (rectangular.lengths 0 (Nat.succ_pos rest))

theorem rows_eq :
    (table_of ncols dtype elements).rows =
      rowsOf count ((List.range ncols).map fun icol => (elements icol).map some) := by
  rw [Table.rows, rectangular.num_rows_eq, Int.toNat_natCast, table_of, List.map_map]
  congr 1
  apply List.map_congr_left
  intro icol range
  have icolBound := List.mem_range.mp range
  exact cells_column_of (rectangular.fixed icol icolBound) (rectangular.uniform icol icolBound)

theorem fixedWidth : (table_of ncols dtype elements).FixedWidth := by
  intro column member
  obtain ⟨icol, range, rfl⟩ := List.mem_map.mp member
  exact rectangular.fixed icol (List.mem_range.mp range)

theorem wellFormed (small : count < 2 ^ 31) :
    (table_of ncols dtype elements).WellFormed where
  columns := by
    intro column member
    obtain ⟨icol, range, rfl⟩ := List.mem_map.mp member
    have icolBound := List.mem_range.mp range
    exact wellFormed_column_of (rectangular.fixed icol icolBound)
      (rectangular.uniform icol icolBound) (rectangular.lengths icol icolBound ▸ small)
  sizes := by
    intro column member
    obtain ⟨icol, range, rfl⟩ := List.mem_map.mp member
    rw [rectangular.num_rows_eq]
    exact congrArg Nat.cast (rectangular.lengths icol (List.mem_range.mp range))

end Rectangular

/-- Tables determine their elements. -/
theorem table_of_inj
    {ncols count otherCount : Nat}
    {dtype : Nat → DataType}
    {elements others : Nat → List (List Byte)}
    (rectangular : Rectangular ncols dtype elements count)
    (othersRectangular : Rectangular ncols dtype others otherCount)
    (equal : table_of ncols dtype elements = table_of ncols dtype others)
    {icol : Nat}
    (icolBound : icol < ncols) :
    elements icol = others icol :=
  column_of_inj (rectangular.uniform icol icolBound) (othersRectangular.uniform icol icolBound)
    (List.map_inj_left.mp equal icol (List.mem_range.mpr icolBound))

section Distributed

variable {gpu : Gpu} {global_table : Table} {n rank : Nat}

/-- A column of a local table holds the elements for the rank. -/
theorem distributed_column_eq
    (sound : global_table.Sound)
    (rankBound : rank < n)
    {icol : Nat}
    (icolBound : icol < global_table.length) :
    distributed_column gpu global_table n rank icol =
      column_of (distributed_dtype (global_table.column icol).type rank)
        (local_part n rank (global_table.column icol).head_elements) := by
  have member := Table.column_mem icolBound
  have columnSound := sound.columns _ member
  have length := length_local_part (global_table.column icol).head_elements rankBound
  rw [Column.length_head_elements, Int.toNat_of_nonneg columnSound.size_nonneg,
    sound.sizes _ member] at length
  have uniform : ∀ element ∈ local_part n rank (global_table.column icol).head_elements,
      element.length = (global_table.column icol).type.id.size_of := fun element inPart =>
    Column.length_of_mem_head_elements (mem_of_mem_local_part inPart)
  have room := length_flatten_items uniform
  simp only [distributed_column, distributed_bytes_eq icol columnSound rankBound, column_of,
    length]
  rw [← length, Int.toNat_natCast, ← room, contents_single]

/-- A local table holds the elements for the rank. -/
theorem distributed_eq (sound : global_table.Sound) (rankBound : rank < n) :
    distributed gpu global_table n rank =
      table_of global_table.length
        (fun icol => distributed_dtype (global_table.column icol).type rank)
        (fun icol => local_part n rank (global_table.column icol).head_elements) :=
  List.map_congr_left fun _ range =>
    distributed_column_eq sound rankBound (List.mem_range.mp range)

theorem rectangular_distributed
    (sound : global_table.Sound)
    (fixed : global_table.FixedWidth)
    (rankBound : rank < n) :
    Rectangular global_table.length
      (fun icol => distributed_dtype (global_table.column icol).type rank)
      (fun icol => local_part n rank (global_table.column icol).head_elements)
      (get_local_table_size global_table.num_rows rank n).toNat where
  fixed := fun icol icolBound => fixed _ (Table.column_mem icolBound)
  uniform := fun icol _ element member =>
    Column.length_of_mem_head_elements (mem_of_mem_local_part member)
  lengths := by
    intro icol icolBound
    have member := Table.column_mem icolBound
    have length := length_local_part (global_table.column icol).head_elements rankBound
    rw [Column.length_head_elements,
      Int.toNat_of_nonneg (sound.columns _ member).size_nonneg, sound.sizes _ member] at length
    omega
  no_columns := by
    intro empty
    have length := length_local_part ([] : List Byte) rankBound
    rw [Table.num_rows_eq_zero empty]
    simp only [List.length_nil, Nat.cast_zero, local_part, List.drop_nil, List.take_nil] at length
    omega

/-- The size of a local table. -/
theorem num_rows_distributed
    (sound : global_table.Sound)
    (fixed : global_table.FixedWidth)
    (rankBound : rank < n) :
    (distributed gpu global_table n rank).num_rows =
      get_local_table_size global_table.num_rows rank n := by
  rw [distributed_eq sound rankBound,
    (rectangular_distributed sound fixed rankBound).num_rows_eq,
    Int.toNat_of_nonneg (get_local_table_size_nonneg sound.num_rows_nonneg rank n)]

theorem wellFormed_distributed
    (sound : global_table.Sound)
    (fixed : global_table.FixedWidth)
    (rankBound : rank < n) :
    (distributed gpu global_table n rank).WellFormed := by
  have n_pos : 0 < n := Nat.zero_lt_of_lt rankBound
  have inside := get_start_idx_add_le sound.num_rows_nonneg rankBound
  have start := get_start_idx_nonneg sound.num_rows_nonneg n_pos rank
  have small := sound.num_rows_lt
  rw [distributed_eq sound rankBound]
  exact (rectangular_distributed sound fixed rankBound).wellFormed (by omega)

/-- The rows of a local table are the slice of the global rows for the rank. -/
theorem rows_distributed
    (sound : global_table.Sound)
    (fixed : global_table.FixedWidth)
    (rankBound : rank < n) :
    (distributed gpu global_table n rank).rows =
      local_part n rank global_table.head_rows := by
  have n_pos : 0 < n := Nat.zero_lt_of_lt rankBound
  have rows : ((global_table.head_rows.length : Nat) : Int) = global_table.num_rows := by
    rw [Table.head_rows, length_rowsOf, Int.toNat_of_nonneg sound.num_rows_nonneg]
  have inside := get_start_idx_add_le sound.num_rows_nonneg rankBound
  have start := get_start_idx_nonneg sound.num_rows_nonneg n_pos rank
  have size := get_local_table_size_nonneg sound.num_rows_nonneg rank n
  rw [distributed_eq sound rankBound, (rectangular_distributed sound fixed rankBound).rows_eq,
    local_part, rows, Table.head_rows, Table.map_eq_map_range,
    ← rowsOf_slice (List.range global_table.length) (by omega)]
  congr 1
  apply List.map_congr_left
  intro icol range
  have member := Table.column_mem (List.mem_range.mp range)
  rw [map_local_part, local_part, List.length_map, Column.length_head_elements,
    Int.toNat_of_nonneg (sound.columns _ member).size_nonneg, sound.sizes _ member]

end Distributed

end DistributedJoin
