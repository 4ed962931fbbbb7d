import DistributedJoin.Join.Programs
import DistributedJoin.Join.ResultSchema

/-!
# The tables that the join returns

If there are rows on both sides of every local join, all ranks return tables with the columns of
both sides. None of their rows has a null, and together the tables have the rows of the whole
join.
-/

namespace DistributedJoin

open Device Spmd

/-- A table that cuDF has created: it is in buffers of its own. -/
structure Table.Created (table : Table) : Prop where
  sound : table.Sound
  unsliced : ∀ column ∈ table, column.offset = 0

/-- An inner join of fixed-width columns creates its result, if its rows can be counted. -/
def InnerJoin.Creates (inner_join : InnerJoin) : Prop :=
  ∀ left right left_on right_on, left.Sound → right.Sound →
    left.num_rows ≠ 0 → right.num_rows ≠ 0 →
    (∀ dtype ∈ left.schema ++ right.schema, dtype.id ≠ .STRING) →
    (inner_join left right left_on right_on).rows.length < 2 ^ 31 →
    (inner_join left right left_on right_on).Created

/-- A concatenation of tables with the same fixed-width columns has all of their rows, if they
can be counted. -/
def Concatenate.Appends (concatenate : Concatenate) : Prop :=
  ∀ tables schema, tables ≠ [] → (∀ table ∈ tables, table.Sound ∧ table.schema = schema) →
    (∀ dtype ∈ schema, dtype.id ≠ .STRING) → (tables.flatMap Table.rows).length < 2 ^ 31 →
    ∃ result, concatenate tables = .ok result ∧ result.Created ∧ result.schema = schema ∧
      result.rows = tables.flatMap Table.rows

/-- The rows of a table without nulls are at the beginning of the buffers of its columns. -/
theorem Table.Created.rows_eq
    {table : Table}
    (created : table.Created)
    (non_null : table.NonNull)
    (fixed : table.FixedWidth) :
    table.rows = table.head_rows := by
  rw [← non_null.stored_rows_eq created.sound.sizes, stored_rows, head_rows]
  congr 1
  apply List.map_congr_left
  intro column member
  rw [Column.elements_fixed (created.unsliced column member) (fixed column member)]

section References

/-- Rows of fixed-width columns that can be counted fit into a table. -/
theorem Table.RowsSized.fit
    {schema : List DataType}
    {rows : List Row}
    (sized : RowsSized schema rows)
    (fixed : ∀ dtype ∈ schema, dtype.id ≠ .STRING)
    (count : rows.length < 2 ^ 31) :
    RowsFit schema rows where
  cells := fun icol icolBound => {
    count := by rwa [List.length_map]
    width := sized.cells icol icolBound
    chars := fun string => absurd string (by
      rw [List.getD_eq_getElem _ _ icolBound]
      exact fixed _ (List.getElem_mem icolBound)) }
  width := sized.width
  empty := sized.empty

theorem created_ofRows
    {schema : List DataType}
    {rows : List Row}
    (fit : Table.RowsFit schema rows) :
    (Table.ofRows schema rows).Created :=
  ⟨Table.sound_ofRows fit, fun _ member => Table.unsliced_ofRows member⟩

/-- Combining rows creates a table. -/
theorem creates_nested_loop_join : InnerJoin.Creates nested_loop_join := by
  intro left right left_on right_on left_sound right_sound _ _ fixed count
  have pairs : ∀ row ∈ left.rows.flatMap (fun left_row =>
      (right.rows.filter fun right_row => keyOf left_on left_row = keyOf right_on right_row).map
        fun right_row => left_row ++ right_row),
      ∃ head ∈ left.rows, ∃ tail ∈ right.rows, row = head ++ tail := by
    intro row member
    obtain ⟨head, headMember, paired⟩ := List.mem_flatMap.mp member
    obtain ⟨tail, filtered, rfl⟩ := List.mem_map.mp paired
    exact ⟨head, headMember, tail, (List.mem_filter.mp filtered).1, rfl⟩
  have sized := left_sound.rowsFit.sized.append right_sound.rowsFit.sized pairs
  rw [nested_loop_join, Table.rows_ofRows sized] at count
  exact created_ofRows (sized.fit fixed count)

/-- Appending rows creates a table. -/
theorem appends_concatenate_rows : Concatenate.Appends concatenate_rows := by
  intro tables schema nonempty tables_sound fixed count
  obtain ⟨first, rest, rfl⟩ := List.exists_cons_of_ne_nil nonempty
  have columns : first.schema = schema := (tables_sound first List.mem_cons_self).2
  have same : ∀ table ∈ rest, table.schema = first.schema := fun table member =>
    ((tables_sound table (List.mem_cons_of_mem _ member)).2).trans columns.symm
  have each : ∀ table ∈ first :: rest, Table.RowsSized schema table.rows := fun table member =>
    (tables_sound table member).2 ▸ (tables_sound table member).1.rowsFit.sized
  have sized : Table.RowsSized schema ((first :: rest).flatMap Table.rows) := by
    constructor
    case cells =>
      intro icol icolBound dtype bytes member
      obtain ⟨row, rowMember, cell⟩ := List.mem_map.mp member
      obtain ⟨table, tableMember, inside⟩ := List.mem_flatMap.mp rowMember
      exact (each table tableMember).cells icol icolBound dtype bytes
        (List.mem_map.mpr ⟨row, inside, cell⟩)
    case width =>
      intro row rowMember
      obtain ⟨table, tableMember, inside⟩ := List.mem_flatMap.mp rowMember
      exact (each table tableMember).width row inside
    case empty =>
      intro none
      exact List.flatMap_eq_nil_iff.mpr fun table member => (each table member).empty none
  refine ⟨_, concatenate_rows_eq same, ?_, ?_, ?_⟩
  · rw [columns]
    exact created_ofRows (sized.fit fixed count)
  · rw [Table.schema_ofRows, columns]
  · rw [columns, Table.rows_ofRows sized]

end References

namespace JoinCall

variable {n : Nat} {join : JoinCall n} {hash : HashId → Nat → List Cell → Nat}

/-- The local joins of a rank. -/
def local_joins
    {cudf : Cudf}
    (gpu : Gpu)
    (kept : join.BatchesKept cudf.hash_partition)
    (rank : Nat) : List Table :=
  JoinState.all_local_joins cudf.inner_join (join.input .left).on_columns
    (join.input .right).on_columns join.over_decom_factor (received_batches gpu kept rank)
    (join.outcome cudf rank)

/-- What the join returns on a rank. -/
def join_result
    {cudf : Cudf}
    (gpu : Gpu)
    (kept : join.BatchesKept cudf.hash_partition)
    (rank : Nat) : Except String Table :=
  joined_result cudf (join.input .left).on_columns (join.input .right).on_columns
    join.over_decom_factor (received_batches gpu kept) rank (join.outcome cudf rank)

/-- A table without nulls whose rows are the local joins of a rank. -/
structure Joined
    {cudf : Cudf}
    (gpu : Gpu)
    (kept : join.BatchesKept cudf.hash_partition)
    (rank : Nat)
    (table : Table) : Prop where
  created : table.Created
  schema : table.schema = join.result_schema
  rows : table.rows = (local_joins gpu kept rank).flatMap Table.rows
  non_null : table.NonNull

/-- No row of the join has a null. -/
theorem Plain.non_null_of_mem_joined_rows
    (plain : join.Plain)
    {matching : List Cell → List Cell → Bool}
    {row : Row}
    (member : row ∈ joined_rows matching (join.input .left).on_columns
      (join.input .right).on_columns (join.input .left).all_rows (join.input .right).all_rows) :
    none ∉ row := by
  have non_null : ∀ side, ∀ row ∈ (join.input side).all_rows, none ∉ row := by
    intro side row inside
    obtain ⟨rank, range, inTable⟩ := List.mem_flatMap.mp inside
    exact plain.non_null side rank (List.mem_range.mp range) row inTable
  rw [joined_rows, Relational.join] at member
  obtain ⟨head, headMember, paired⟩ := Multiset.mem_bind.mp member
  obtain ⟨tail, filtered, rfl⟩ := Multiset.mem_map.mp paired
  rw [List.mem_append, not_or]
  exact ⟨non_null .left head headMember,
    non_null .right tail (Multiset.mem_filter.mp filtered).1⟩

namespace Exchanged

variable {input : Side → JoinTable n} (exchanged : join.Exchanged hash input)
  {cudf : Cudf} (partitions : cudf.hash_partition.Partitions hash)
  (plain : join.Plain) (countable : join.Countable hash) (gpu : Gpu)
include exchanged partitions plain countable

/-- The tables of a local join are sound. -/
theorem sound_joined_table
    {rank ibatch : Nat}
    (rankBound : rank < n)
    (ibatchBound : ibatch < join.over_decom_factor)
    (side : Side) :
    (joined_table gpu (exchanged.kept partitions) rank ibatch side).Sound := by
  unfold joined_table
  split
  · exact exchanged.domains.sound side rank rankBound
  · rename_i several
    exact exchanged.sound_received_batch partitions plain countable gpu several side rankBound
      ibatchBound

variable {matching : List Cell → List Cell → Bool} (joins : cudf.inner_join.Joins matching)
  (hashes : HashesMatch hash matching)
include joins hashes

/-- All local joins make the whole join. -/
theorem sum_rows_local_joins :
    ∑ rank ∈ Finset.range n,
        (((local_joins gpu (exchanged.kept partitions) rank).flatMap Table.rows : List Row) :
          Multiset Row) =
      joined_rows matching (join.input .left).on_columns (join.input .right).on_columns
        (join.input .left).all_rows (join.input .right).all_rows := by
  rw [← exchanged.sum_local_joins partitions plain countable gpu joins hashes,
    ← exchanged.on_columns .left, ← exchanged.on_columns .right]
  rfl

/-- The local joins of a rank are a part of the whole join. -/
theorem rows_local_joins_le
    {rank : Nat}
    (rankBound : rank < n) :
    (((local_joins gpu (exchanged.kept partitions) rank).flatMap Table.rows : List Row) :
        Multiset Row) ≤
      joined_rows matching (join.input .left).on_columns (join.input .right).on_columns
        (join.input .left).all_rows (join.input .right).all_rows := by
  rw [← exchanged.sum_rows_local_joins partitions plain countable gpu joins hashes]
  exact Finset.single_le_sum (f := fun rank =>
    (((local_joins gpu (exchanged.kept partitions) rank).flatMap Table.rows : List Row) :
      Multiset Row)) (fun _ _ => Multiset.zero_le _) (Finset.mem_range.mpr rankBound)

variable
  (small : (joined_rows matching (join.input .left).on_columns (join.input .right).on_columns
    (join.input .left).all_rows (join.input .right).all_rows).card < 2 ^ 31)
  (meets : join.MeetsRows hash)
include small meets

/-- A local join creates a table with the columns of both sides. -/
theorem created_local_join
    (creates : cudf.inner_join.Creates)
    (keeps : cudf.inner_join.KeepsColumns)
    {rank : Nat}
    (rankBound : rank < n)
    {table : Table}
    (member : table ∈ local_joins gpu (exchanged.kept partitions) rank) :
    table.Created ∧ table.schema = (join.with_input input).result_schema := by
  have rows := (exchanged.joinsRows_iff gpu partitions countable).mpr meets
  have schema := (local_joins_columns_iff gpu (exchanged.kept partitions) keeps).mpr (.inr rows)
    rank rankBound table member
  refine ⟨?_, schema⟩
  obtain ⟨ibatch, ibatchBound, rfl⟩ :=
    (mem_all_local_joins_iff gpu (exchanged.kept partitions) rank table).mp member
  have sound := exchanged.sound_joined_table partitions plain countable gpu rankBound ibatchBound
  have both := rows rank rankBound ibatch ibatchBound
  have columns := schema_joined_table gpu (exchanged.kept partitions) rankBound ibatch
  have part := (List.sublist_flatten_of_mem (List.mem_map_of_mem (f := Table.rows) member)).length_le
  have all := Multiset.card_le_card
    (exchanged.rows_local_joins_le partitions plain countable gpu joins hashes rankBound)
  rw [Multiset.coe_card, List.flatMap_def] at all
  unfold local_join_helper at part ⊢
  rw [if_pos ⟨both .left, both .right⟩] at part ⊢
  refine creates _ _ _ _ (sound .left) (sound .right) (both .left) (both .right) ?_
    ((part.trans all).trans_lt small)
  rw [columns .left, columns .right]
  intro dtype inside
  rcases List.mem_append.mp inside with left | right
  · exact plain.fixed .left dtype (exchanged.schema .left ▸ left)
  · exact plain.fixed .right dtype (exchanged.schema .right ▸ right)

/-- Every rank returns a table. -/
theorem exists_joined
    (creates : cudf.inner_join.Creates)
    (keeps : cudf.inner_join.KeepsColumns)
    (appends : cudf.concatenate.Appends)
    {rank : Nat}
    (rankBound : rank < n) :
    ∃ table, join_result gpu (exchanged.kept partitions) rank = .ok table ∧
      Joined gpu (exchanged.kept partitions) rank table := by
  have part := exchanged.rows_local_joins_le partitions plain countable gpu joins hashes rankBound
  have non_null : ∀ row ∈ (local_joins gpu (exchanged.kept partitions) rank).flatMap Table.rows,
      none ∉ row := fun row member =>
    plain.non_null_of_mem_joined_rows (Multiset.mem_of_le part (Multiset.mem_coe.mpr member))
  have each : ∀ table ∈ local_joins gpu (exchanged.kept partitions) rank, table.Created ∧
      table.schema = (join.with_input input).result_schema := fun table member =>
    exchanged.created_local_join partitions plain countable gpu joins hashes small meets creates
      keeps rankBound member
  suffices joined : ∃ table, join_result gpu (exchanged.kept partitions) rank = .ok table ∧
      table.Created ∧ table.schema = (join.with_input input).result_schema ∧
        table.rows = (local_joins gpu (exchanged.kept partitions) rank).flatMap Table.rows by
    obtain ⟨table, result, created, schema, rows⟩ := joined
    refine ⟨table, result, created, schema, rows, fun row member => non_null row ?_⟩
    exact rows ▸ member
  unfold local_joins at each ⊢
  unfold join_result
  cases found : (join.with_input input).outcome cudf rank with
  | some table =>
      rw [found] at each
      obtain ⟨created, schema⟩ := each table (List.mem_singleton_self table)
      exact ⟨table, rfl, created, schema, (List.flatMap_singleton Table.rows table).symm⟩
  | none =>
      rw [found] at each
      have count := Multiset.card_le_card part
      rw [Multiset.coe_card, local_joins, found] at count
      refine appends _ _ ?_ (fun table member => ?_) ?_ (count.trans_lt small)
      · exact List.map_eq_nil_iff.not.mpr
          (List.range_eq_nil.not.mpr (Nat.ne_of_gt join.over_decom_factor_pos))
      · exact ⟨(each table member).1.sound, (each table member).2⟩
      · intro dtype inside
        rcases List.mem_append.mp inside with left | right
        · exact plain.fixed .left dtype (exchanged.schema .left ▸ left)
        · exact plain.fixed .right dtype (exchanged.schema .right ▸ right)

end Exchanged

end JoinCall

end DistributedJoin
