import DistributedJoin.Comm.Collection
import DistributedJoin.Comm.FixedWidth
import DistributedJoin.Comm.LocalTables

/-!
# The rows of the merged table

As long as `cudf::size_type` can count its rows, the merged table holds the rows of
all ranks in the order of the ranks, and each of its rows is written once.
-/

namespace DistributedJoin

open Device Spmd

/-- The exact number of rows of all tables. -/
def total_rows (n : Nat) (table : Nat → Table) : Int :=
  ((List.range n).map fun rank => (table rank).num_rows).sum

theorem all_nrows_eq (n : Nat) (table : Nat → Table) :
    all_nrows n table = (List.range n).map fun rank => (table rank).num_rows := by
  rw [all_nrows, gathered_values, if_pos rfl]

/-- The root calculates the number of rows up to the width of
`cudf::size_type`. -/
theorem merged_rows_eq (n : Nat) (table : Nat → Table) :
    merged_rows n table = toSizeType (total_rows n table) := by
  have last := getD_scan_table_nrows (all_nrows n table) (Nat.le_refl _)
  rw [List.take_length, all_nrows_eq] at last
  rw [merged_rows, List.getLastD_eq_getLast?, List.getLast?_eq_getElem?,
    length_scan_table_nrows, Nat.add_sub_cancel, ← List.getD_eq_getElem?_getD, all_nrows_eq,
    last, total_rows]

section Merged

variable {n : Nat} {table : Nat → Table}

theorem total_rows_eq (sound : ∀ rank, rank < n → (table rank).Sound) :
    total_rows n table =
      (((List.range n).map fun rank => (table rank).num_rows.toNat).sum : Nat) := by
  rw [total_rows, Nat.cast_list_sum, List.map_map]
  congr 1
  apply List.map_congr_left
  intro rank range
  exact (Int.toNat_of_nonneg (sound rank (List.mem_range.mp range)).num_rows_nonneg).symm

/-- The position of the rows of a rank. -/
theorem getD_scan_all_nrows
    (sound : ∀ rank, rank < n → (table rank).Sound)
    (small : total_rows n table < 2 ^ 31)
    {rank : Nat}
    (rankBound : rank < n) :
    (scan_table_nrows (all_nrows n table)).getD rank 0 =
      (((List.range rank).map fun earlier => (table earlier).num_rows.toNat).sum : Nat) := by
  have counted : all_nrows n table =
      (List.range n).map fun rank => ((table rank).num_rows.toNat : Int) := by
    rw [all_nrows_eq]
    apply List.map_congr_left
    intro rank range
    exact (Int.toNat_of_nonneg (sound rank (List.mem_range.mp range)).num_rows_nonneg).symm
  have nonnegative : ∀ nrows ∈ all_nrows n table, 0 ≤ nrows := by
    intro nrows member
    rw [counted] at member
    obtain ⟨rank, _, rfl⟩ := List.mem_map.mp member
    exact Int.natCast_nonneg _
  have exact : scan_table_nrows (all_nrows n table) = offsetsOf (all_nrows n table) :=
    (scan_table_nrows_eq_iff nonnegative).mpr (by rwa [all_nrows_eq])
  rw [exact, counted, getD_offsetsOf_map_range _ (Nat.le_of_lt rankBound)]

/-- The elements at the beginning of the buffers of all ranks. -/
def merged_elements (n : Nat) (table : Nat → Table) (icol : Nat) : List (List Byte) :=
  (List.range n).flatMap fun rank => ((table rank).column icol).head_elements

theorem size_column
    (sound : ∀ rank, rank < n → (table rank).Sound)
    (mergeable : Mergeable n table)
    {rank icol : Nat}
    (rankBound : rank < n)
    (icolBound : icol < (table 0).length) :
    ((table rank).column icol).size = (table rank).num_rows :=
  (sound rank rankBound).sizes _
    (Table.column_mem (icolBound.trans_eq (mergeable.length_eq rankBound).symm))

theorem length_of_mem_merged_elements
    (mergeable : Mergeable n table)
    {icol : Nat}
    {element : List Byte}
    (member : element ∈ merged_elements n table icol) :
    element.length = ((table 0).column icol).type.id.size_of := by
  obtain ⟨rank, range, inside⟩ := List.mem_flatMap.mp member
  rw [← mergeable.type_eq (List.mem_range.mp range) icol]
  exact Column.length_of_mem_head_elements inside

theorem length_merged_elements
    (sound : ∀ rank, rank < n → (table rank).Sound)
    (mergeable : Mergeable n table)
    {icol : Nat}
    (icolBound : icol < (table 0).length) :
    (merged_elements n table icol).length =
      ((List.range n).map fun rank => (table rank).num_rows.toNat).sum := by
  rw [merged_elements, List.length_flatMap]
  congr 1
  apply List.map_congr_left
  intro rank range
  rw [Column.length_head_elements,
    size_column sound mergeable (List.mem_range.mp range) icolBound]

/-- The writes to a merged column lay the elements of all ranks side by side. -/
theorem tiles_collected_writes
    (sound : ∀ rank, rank < n → (table rank).Sound)
    (mergeable : Mergeable n table)
    (small : total_rows n table < 2 ^ 31)
    {icol : Nat}
    (icolBound : icol < (table 0).length) :
    Tiles
      (collected_writes (fun rank => (table rank).column icol)
        (fun rank => (table rank).num_rows) (scan_table_nrows (all_nrows n table))
        ((table 0).column icol).type.id.size_of n 0)
      ((List.range n).map fun rank => ((table rank).column icol).head_elements.flatten) := by
  let width := ((table 0).column icol).type.id.size_of
  let piece : Nat → List Byte := fun rank => ((table rank).column icol).head_elements.flatten
  have read : ∀ rank, rank < n →
      readRange ((table rank).column icol).head 0 ((table rank).num_rows * width).toNat =
        piece rank := by
    intro rank rankBound
    have read := (sound rank rankBound).readRange_num_rows
      (icolBound.trans_eq (mergeable.length_eq rankBound).symm)
    rwa [mergeable.type_eq rankBound icol] at read
  have lengths : ∀ rank, rank < n →
      (piece rank).length = (table rank).num_rows.toNat * width := by
    intro rank rankBound
    rw [← read rank rankBound, length_readRange,
      Int.toNat_mul (sound rank rankBound).num_rows_nonneg (Int.natCast_nonneg _),
      Int.toNat_natCast]
  have places : ∀ rank, rank < n →
      (scan_table_nrows (all_nrows n table)).getD rank 0 * width =
        (((List.range rank).map fun earlier => (piece earlier).length).sum : Nat) := by
    intro rank rankBound
    rw [getD_scan_all_nrows sound small rankBound, ← Nat.cast_mul, ← List.sum_map_mul_right]
    congr 2
    apply List.map_congr_left
    intro earlier range
    exact (lengths earlier (Nat.lt_trans (List.mem_range.mp range) rankBound)).symm
  have tiles := tiles_of_filter piece n (fun _ => true) places fun _ _ dropped => by
    contradiction
  rw [List.filter_true] at tiles
  have writes : collected_writes (fun rank => (table rank).column icol)
      (fun rank => (table rank).num_rows) (scan_table_nrows (all_nrows n table)) width n 0 =
        (List.range n).map fun rank =>
          ⟨(scan_table_nrows (all_nrows n table)).getD rank 0 * width, piece rank⟩ := by
    refine (if_pos rfl).trans (List.map_congr_left fun rank range => ?_)
    rw [read rank (List.mem_range.mp range)]
  rw [show ((table 0).column icol).type.id.size_of = width from rfl, writes]
  exact tiles

theorem merged_rows_small
    (sound : ∀ rank, rank < n → (table rank).Sound)
    (small : total_rows n table < 2 ^ 31) :
    merged_rows n table = total_rows n table := by
  rw [merged_rows_eq, toSizeType_eq _ small]
  rw [total_rows_eq sound]
  exact Int.natCast_nonneg _

/-- A merged column holds the elements of all ranks. -/
theorem merged_column_eq
    (gpu : Gpu)
    (sound : ∀ rank, rank < n → (table rank).Sound)
    (mergeable : Mergeable n table)
    (small : total_rows n table < 2 ^ 31)
    {icol : Nat}
    (icolBound : icol < (table 0).length) :
    merged_column gpu n table icol =
      column_of ((table 0).column icol).type (merged_elements n table icol) := by
  have length := length_merged_elements sound mergeable icolBound
  have rows : merged_rows n table = (merged_elements n table icol).length := by
    rw [merged_rows_small sound small, total_rows_eq sound, length]
  have content := (tiles_collected_writes sound mergeable small icolBound).contents_eq
    gpu.uninitialized
  have flattened : ((List.range n).map fun rank =>
      ((table rank).column icol).head_elements.flatten).flatten =
        (merged_elements n table icol).flatten := by
    rw [merged_elements, List.flatMap_def, List.flatten_flatten, List.map_map]
    rfl
  rw [flattened, length_flatten_items fun element => length_of_mem_merged_elements mergeable]
    at content
  rw [merged_column, column_of, rows, Int.toNat_natCast, content]

/-- The merged table holds the elements of all ranks. -/
theorem merged_eq
    (gpu : Gpu)
    (sound : ∀ rank, rank < n → (table rank).Sound)
    (mergeable : Mergeable n table)
    (small : total_rows n table < 2 ^ 31) :
    merged gpu n table =
      table_of (table 0).length (fun icol => ((table 0).column icol).type)
        (merged_elements n table) :=
  List.map_congr_left fun _ range =>
    merged_column_eq gpu sound mergeable small (List.mem_range.mp range)

theorem rectangular_merged
    (sound : ∀ rank, rank < n → (table rank).Sound)
    (mergeable : Mergeable n table) :
    Rectangular (table 0).length (fun icol => ((table 0).column icol).type)
      (merged_elements n table)
      ((List.range n).map fun rank => (table rank).num_rows.toNat).sum where
  fixed := fun _ icolBound => mergeable.fixed_column icolBound
  uniform := fun _ _ _ member => length_of_mem_merged_elements mergeable member
  lengths := fun _ icolBound => length_merged_elements sound mergeable icolBound
  no_columns := by
    intro empty
    apply List.sum_eq_zero
    intro count member
    obtain ⟨rank, range, rfl⟩ := List.mem_map.mp member
    rw [Table.num_rows_eq_zero ((mergeable.length_eq (List.mem_range.mp range)).trans empty),
      Int.toNat_zero]

/-- The merged table has the rows of all ranks, in the order of the ranks. -/
theorem rows_merged
    (gpu : Gpu)
    (sound : ∀ rank, rank < n → (table rank).Sound)
    (mergeable : Mergeable n table)
    (small : total_rows n table < 2 ^ 31) :
    (merged gpu n table).rows = (List.range n).flatMap fun rank => (table rank).head_rows := by
  let cells : Nat → Nat → List Cell := fun rank icol =>
    ((table rank).column icol).head_elements.map some
  have stacked : (List.range (table 0).length).map (fun icol =>
        (merged_elements n table icol).map some) =
      (List.range (table 0).length).map fun icol =>
        (List.range n).flatMap fun rank => cells rank icol := by
    apply List.map_congr_left
    intro icol _
    rw [merged_elements, List.map_flatMap]
  rw [merged_eq gpu sound mergeable small, (rectangular_merged sound mergeable).rows_eq,
    stacked, rowsOf_flatMap]
  · apply List.flatMap_congr
    intro rank range
    rw [Table.head_rows, Table.map_eq_map_range, mergeable.length_eq (List.mem_range.mp range)]
  · intro rank range icol columnRange
    rw [List.length_map, Column.length_head_elements,
      size_column sound mergeable (List.mem_range.mp range) (List.mem_range.mp columnRange)]

/-- The merged table has the columns of the tables. -/
theorem schema_merged (gpu : Gpu) (n : Nat) (table : Nat → Table) :
    (merged gpu n table).schema = (table 0).schema := by
  unfold merged
  rw [Table.schema, Table.schema, List.map_map, Table.map_eq_map_range]
  rfl

section Accesses

/-- The part of a merged column that holds the elements of a rank. -/
def merged_extent (n : Nat) (table : Nat → Table) (dtype_size rank : Nat) : Extent where
  start := (scan_table_nrows (all_nrows n table)).getD rank 0 * dtype_size
  length := (table rank).num_rows * dtype_size

theorem accesses_gatherEvents
    (access : Access)
    (buffer : Buffer)
    (n : Nat)
    (value : Int)
    (rank : Nat) :
    accesses access buffer (gatherEvents n value rank) = [] := by
  unfold accesses
  rw [List.filterMap_eq_nil_iff]
  intro event member
  simp only [gatherEvents, gather_actions, gather, List.mem_append, List.mem_map,
    List.mem_singleton] at member
  rcases member with ⟨action, _, rfl⟩ | rfl
  · cases action <;> rfl
  · rfl

theorem getD_gathered_values (value : Nat → Int) {rank : Nat} (rankBound : rank < n) :
    (gathered_values n value 0).getD rank 0 = value rank := by
  rw [gathered_values, if_pos rfl, List.getD_eq_getElem _ _ (by simpa using rankBound)]
  simp

/-- The root writes the elements of every rank to a merged column. -/
theorem accesses_collectEvents
    (n_pos : 0 < n)
    (nonnegative : 0 ≤ (table 0).num_rows)
    (icol dtype_size : Nat) :
    (accesses .write (.plain (.data icol))
      (collectEvents icol (fun rank => (table rank).column icol)
        (fun rank => (table rank).num_rows) dtype_size n 0)).Perm
      ((List.range n).map (merged_extent n table dtype_size)) := by
  have posted : accesses .write (.plain (.data icol))
      ((collect_actions icol ((table 0).column icol) (table 0).num_rows
          (all_nrows n table) (scan_table_nrows (all_nrows n table))
          dtype_size n 0).map Action.event) =
        (workers n).map (merged_extent n table dtype_size) := by
    unfold accesses collect_actions gather
    rw [if_pos rfl, List.map_map, List.filterMap_map, ← List.filterMap_eq_map]
    apply List.filterMap_congr
    intro worker member
    have known : (all_nrows n table).getD worker 0 = (table worker).num_rows :=
      getD_gathered_values _ (mem_workers.mp member).2
    simp only [Function.comp_apply, accessed, Action.event, merged_landing, merged_extent,
      known, if_pos]
  let copy : Note := copy_note icol (readRange ((table 0).column icol).head 0
    ((table 0).num_rows * dtype_size).toNat)
  have copied : accesses .write (.plain (.data icol)) [.noted copy] =
      [merged_extent n table dtype_size 0] := by
    have first : (scan_table_nrows (all_nrows n table)).getD 0 0 = 0 := by
      rw [getD_scan_table_nrows _ (Nat.zero_le _)]
      rfl
    have length : ((((table 0).num_rows * dtype_size).toNat : Nat) : Int) =
        (table 0).num_rows * dtype_size :=
      Int.toNat_of_nonneg (Int.mul_nonneg nonnegative (Int.natCast_nonneg _))
    simp only [accesses, List.filterMap_cons, List.filterMap_nil, accessed, copy, copy_note,
      merged_extent, first, length, length_readRange, zero_mul, if_pos]
  have all : accesses .write (.plain (.data icol))
      (collectEvents icol (fun rank => (table rank).column icol)
        (fun rank => (table rank).num_rows) dtype_size n 0) =
      (workers n).map (merged_extent n table dtype_size) ++
        [merged_extent n table dtype_size 0] := by
    rw [← posted, ← copied]
    have started : accesses .write (.plain (.data icol)) [.noted .start] = [] := rfl
    have waited : accesses .write (.plain (.data icol)) [.waited .communicator] = [] := rfl
    simp only [collectEvents, accesses_append, if_pos, started, waited, List.nil_append,
      List.append_nil]
    rfl
  rw [all, ← cons_workers n_pos, List.map_cons]
  exact List.perm_append_singleton _ _

theorem accesses_collectEvents_of_ne
    {icol other : Nat}
    (different : other ≠ icol)
    (access : Access)
    (column : Nat → Column)
    (nrows : Nat → Int)
    (dtype_size n rank : Nat) :
    accesses access (.plain (.data icol))
      (collectEvents other column nrows dtype_size n rank) = [] := by
  unfold accesses
  rw [List.filterMap_eq_nil_iff]
  intro event member
  simp only [collectEvents, collect_actions, gather, List.mem_append, List.mem_map,
    List.mem_singleton] at member
  rcases member with rfl | ⟨action, inActions, rfl⟩ | copied | rfl
  · rfl
  · split at inActions
    · obtain ⟨worker, _, rfl⟩ := List.mem_map.mp inActions
      cases access <;> simp [accessed, Action.event, merged_landing, different]
    · obtain rfl := List.mem_singleton.mp inActions
      cases access <;> simp [accessed, Action.event, collected_transfer, different]
  · split at copied
    · obtain rfl := List.mem_singleton.mp copied
      cases access <;> simp [accessed, copy_note, different]
    · contradiction
  · rfl

/-- The root writes every row of a merged column once. -/
theorem written_once
    (n_pos : 0 < n)
    (sound : ∀ rank, rank < n → (table rank).Sound)
    (mergeable : Mergeable n table)
    (small : total_rows n table < 2 ^ 31)
    {icol row : Nat}
    (icolBound : icol < (table 0).length)
    (rowBound : (row : Int) < total_rows n table) :
    AccessedOnce (accesses .write (.plain (.data icol)) (collectTablesEvents n table 0))
      (row * ((table 0).column icol).type.id.size_of : Nat)
      ((row + 1) * ((table 0).column icol).type.id.size_of : Nat) := by
  let width := ((table 0).column icol).type.id.size_of
  have positive : 0 < width := (TypeId.size_of_bounds (mergeable.fixed_column icolBound)).1
  have column : accesses .write (.plain (.data icol)) (collectTablesEvents n table 0) =
      accesses .write (.plain (.data icol))
        (collectEvents icol (fun rank => (table rank).column icol)
          (fun rank => (table rank).num_rows) width n 0) := by
    rw [collectTablesEvents, accesses_append, accesses_gatherEvents, List.nil_append,
      accesses_flatMap]
    have distinct : ((List.range (table 0).length).map id).Nodup := by
      simpa using List.nodup_range
    exact flatMap_of_distinct distinct (List.mem_range.mpr icolBound) fun other _ different =>
      accesses_collectEvents_of_ne different _ _ _ _ _ _
  have extent : ∀ rank, rank < n → merged_extent n table width rank =
      ⟨((((List.range rank).map fun earlier => (table earlier).num_rows.toNat).sum *
          width : Nat) : Int), (((table rank).num_rows.toNat * width : Nat) : Int)⟩ := by
    intro rank rankBound
    rw [merged_extent, getD_scan_all_nrows sound small rankBound, Nat.cast_mul, Nat.cast_mul,
      Int.toNat_of_nonneg (sound rank rankBound).num_rows_nonneg]
  have once := countP_blocks (fun rank => (table rank).num_rows.toNat) n row
  rw [if_pos (by rw [total_rows_eq sound] at rowBound; omega)] at once
  rw [column]
  refine AccessedOnce.of_perm ⟨?_, ?_⟩
    (accesses_collectEvents n_pos (sound 0 n_pos).num_rows_nonneg icol width)
  · refine Eq.trans ?_ once
    rw [List.countP_map]
    apply List.countP_congr
    intro rank range
    rw [Function.comp_apply, extent rank (List.mem_range.mp range), decide_eq_true_iff,
      Extent.meets_iff positive, decide_eq_true_iff]
  · refine Eq.trans ?_ once
    rw [List.countP_map]
    apply List.countP_congr
    intro rank range
    rw [Function.comp_apply, extent rank (List.mem_range.mp range), decide_eq_true_iff,
      Extent.contains_iff positive, decide_eq_true_iff]

end Accesses

end Merged

end DistributedJoin
