import DistributedJoin.Comm.Distribution

/-!
# What the collection of tables does

The root learns the sizes of all tables, calculates where their rows go and
receives them column by column.
-/

namespace DistributedJoin

open Device Spmd

/-- A scan of values that starts at zero is exact if their sum is in range. -/
theorem getD_scan_table_nrows
    (table_nrows : List Int)
    {index : Nat}
    (indexBound : index ≤ table_nrows.length) :
    (scan_table_nrows table_nrows).getD index 0 =
      toSizeType (table_nrows.take index).sum := by
  have scanned := getD_scanl_addSizeType 0 table_nrows indexBound
  rwa [Int.zero_add] at scanned

@[simp] theorem length_scan_table_nrows (table_nrows : List Int) :
    (scan_table_nrows table_nrows).length = table_nrows.length + 1 :=
  List.length_scanl

/-- The calculated positions are the exact ones if and only if the merged table has
fewer than `2 ^ 31` rows. -/
theorem scan_table_nrows_eq_iff
    {table_nrows : List Int}
    (nonnegative : ∀ nrows ∈ table_nrows, 0 ≤ nrows) :
    scan_table_nrows table_nrows = offsetsOf table_nrows ↔ table_nrows.sum < 2 ^ 31 :=
  scanl_addSizeType_eq_iff nonnegative

namespace Table

variable {first second : Table}

theorem length_eq_of_schema (same : first.schema = second.schema) :
    first.length = second.length := by
  have lengths := congrArg List.length same
  rwa [schema, schema, List.length_map, List.length_map] at lengths

theorem type_eq_of_schema (same : first.schema = second.schema) (icol : Nat) :
    (first.column icol).type = (second.column icol).type := by
  have types := congrArg (fun schema => schema.getD icol missingColumn.type) same
  simp only [schema, List.getD_map] at types
  exact types

end Table

section Phases

variable {n : Nat} {eager : Eagerness ranks} {before : Arrivals ranks}

/-- The array that `MPI_Gather` returns. -/
def gathered_values (n : Nat) (value : Nat → Int) (rank : Nat) : List Int :=
  if rank = 0 then (List.range n).map value else List.replicate n (-1)

/-- What a rank does when it tells the root a value. -/
def gatherEvents (n : Nat) (value : Int) (rank : Nat) : List (Event ranks) :=
  (gather_actions value n rank).map Action.event ++ [.waited .mpi]

/-- The root gets to know the values of all ranks. -/
theorem phase_MPI_Gather
    (n_pos : 0 < n)
    (group_by_batch : Bool)
    (value : Nat → Int)
    (quiet : before .mpi = fun _ => []) :
    Phase n eager before
      (fun rank => MPI_Gather (value rank) (communicatorOf n group_by_batch rank))
      before (.ok (gathered_values n value)) (fun rank => gatherEvents n (value rank) rank) := by
  let actions : Nat → List (Action ranks .mpi) := fun rank =>
    gather_actions (value rank) n rank
  have family : actions = gather n value id := by
    funext rank
    exact gather_congr (fun _ => rfl) fun _ => rfl
  have matched : Matched n actions := family ▸ matched_gather _ _ n_pos
  have exchange : Phase n eager before _ _ _ _ := Phase.perform_await matched quiet
  refine ((exchange.map fun rank arrivals =>
    if rank = 0 then ((0, value rank) :: arrivals).foldl
      (fun values arrival => values.set arrival.1 arrival.2) (List.replicate n (-1))
    else List.replicate n (-1)).congr fun rank _ => ?_).congr_result fun rank rankBound => ?_
  · have chosen : ∀ arrivals : List (Nat × Int),
        (if rank = 0 then
            Process.pure (((0, value rank) :: arrivals).foldl
              (fun values arrival => values.set arrival.1 arrival.2) (List.replicate n (-1)))
          else Process.pure (I := ranks) (List.replicate n (-1))) =
          Process.pure (if rank = 0 then
            ((0, value rank) :: arrivals).foldl
              (fun values arrival => values.set arrival.1 arrival.2) (List.replicate n (-1))
            else List.replicate n (-1)) := by
      intro arrivals
      split <;> rfl
    simp only [← chosen, bind_assoc]
    rfl
  · unfold gathered_values
    split
    · rename_i root
      subst root
      have delivered : deliveries actions 0 =
          (workers n).map fun worker => (worker, value worker) := by
        rw [family, deliveries_gather, if_pos rfl]
        rfl
      have all : (0, value 0) :: (workers n).map (fun worker => (worker, value worker)) =
          (List.range n).map fun rank => (rank, value rank) := by
        rw [← cons_workers n_pos, List.map_cons]
      have filled := foldl_set_range value (List.replicate n (-1))
      rw [List.length_replicate] at filled
      rw [delivered, all]
      exact filled
    · rfl

/-- The writes to a merged column. -/
def collected_writes
    (column : Nat → Column)
    (nrows : Nat → Int)
    (table_nrows_scan : List Int)
    (dtype_size n rank : Nat) : List Write :=
  if rank = 0 then
    (List.range n).map fun source =>
      ⟨table_nrows_scan.getD source 0 * dtype_size,
        readRange (column source).head 0 (nrows source * dtype_size).toNat⟩
  else []

/-- What a rank does when a column is collected. -/
def collectEvents
    (icol : Nat)
    (column : Nat → Column)
    (nrows : Nat → Int)
    (dtype_size n rank : Nat) : List (Event ranks) :=
  let table_nrows := gathered_values n nrows rank
  [.noted .start] ++
    ((collect_actions icol (column rank) (nrows rank) table_nrows
        (scan_table_nrows table_nrows) dtype_size n rank).map Action.event ++
      ((if rank = 0 then
          [.noted (copy_note icol
            (readRange (column 0).head 0 (nrows 0 * dtype_size).toNat))]
        else []) ++ [.waited .communicator]))

/-- The root gets the elements of all ranks of a column. -/
theorem phase_collect_cols
    (n_pos : 0 < n)
    (group_by_batch : Bool)
    (icol : Nat)
    (column : Nat → Column)
    (nrows : Nat → Int)
    (same_type : ∀ rank, rank < n → (column rank).type = (column 0).type)
    (fixed : (column 0).type.id ≠ .STRING)
    (quiet : before .communicator = fun _ => []) :
    Phase n eager before
      (fun rank => collect_cols icol (column rank) (nrows rank)
        (gathered_values n nrows rank) (scan_table_nrows (gathered_values n nrows rank))
        (communicatorOf n group_by_batch rank))
      before
      (.ok (collected_writes column nrows (scan_table_nrows (gathered_values n nrows 0))
        (column 0).type.id.size_of n))
      (collectEvents icol column nrows (column 0).type.id.size_of n) := by
  let dtype_size := (column 0).type.id.size_of
  let table_nrows : Nat → List Int := gathered_values n nrows
  let actions : Nat → List (Action ranks .communicator) := fun rank =>
    collect_actions icol (column rank) (nrows rank) (table_nrows rank)
      (scan_table_nrows (table_nrows rank)) dtype_size n rank
  have family : actions =
      gather n (fun rank => collected_transfer icol (column rank) (nrows rank) dtype_size)
        (merged_landing icol (table_nrows 0) (scan_table_nrows (table_nrows 0))
          dtype_size) := by
    funext rank
    exact gather_congr (fun _ => rfl) fun root => by rw [root]
  have matched : Matched n actions := family ▸ matched_gather _ _ n_pos
  have known : ∀ source, source < n → (table_nrows 0).getD source 0 = nrows source := by
    intro source sourceBound
    have values : table_nrows 0 = (List.range n).map nrows := if_pos rfl
    rw [values, List.getD_eq_getElem _ _ (by simpa using sourceBound)]
    simp
  let copied : List Byte := readRange (column 0).head 0 (nrows 0 * dtype_size).toNat
  have started : Phase n eager before (fun _ => Communicator.start) before
      (.ok fun _ => ()) _ := Phase.observe (I := ranks) fun _ => .start
  have performed : Phase n eager before (fun rank => Process.perform (actions rank)) _ _ _ :=
    Phase.perform matched
  have noted : Phase n eager (before.deliver .communicator (deliveries actions))
      _ _ _ _ := Phase.observeIf (fun rank => rank = 0) fun _ => copy_note icol copied
  have stopped : Phase n eager (before.deliver .communicator (deliveries actions))
      (fun _ => Communicator.stop) _ _ _ := Phase.await (I := ranks) .communicator
  rw [Arrivals.settle_deliver quiet, Arrivals.deliver_quiet quiet] at stopped
  have composed : Phase n eager before _ _ _ _ :=
    started.seq (performed.seq (noted.seq (stopped.map fun rank arrivals =>
      if rank = 0 then
        (⟨0, copied⟩ : Write) ::
          arrivals.map fun arrival => ⟨arrival.1.start, arrival.2.bytes⟩
      else [])))
  refine (composed.congr fun rank rankBound => ?_).congr_result fun rank rankBound => ?_
  · have type := same_type rank rankBound
    have accepted : require_fixed_width (column rank).type = Process.pure () := by
      rw [require_fixed_width, type, if_neg fixed]
    have width : (column rank).type.id.size_of = dtype_size := by rw [type]
    rw [collect_cols, accepted, Process.pure_bind]
    by_cases root : rank = 0
    · subst root
      simp only [communicatorOf, if_pos]
      have rows : (gathered_values n nrows 0).getD 0 0 = nrows 0 := known 0 n_pos
      rw [rows]
      rfl
    · simp only [communicatorOf, width, if_neg root]
      rfl
  · unfold collected_writes
    split
    · rename_i root
      subst root
      have delivered : deliveries actions 0 = (workers n).map fun worker =>
          (merged_landing icol (table_nrows 0) (scan_table_nrows (table_nrows 0))
              dtype_size worker,
            collected_transfer icol (column worker) (nrows worker) dtype_size) := by
        rw [family, deliveries_gather, if_pos rfl]
      have first : (scan_table_nrows (table_nrows 0)).getD 0 0 = 0 := by
        rw [getD_scan_table_nrows _ (Nat.zero_le _)]
        rfl
      rw [delivered, ← cons_workers n_pos, List.map_cons, List.map_map]
      congr 1
      rw [show gathered_values n nrows 0 = table_nrows 0 from rfl, first, zero_mul]
    · rfl

/-- The tables of the ranks can be merged: they have the same columns, none of
which holds strings. -/
structure Mergeable (n : Nat) (table : Nat → Table) : Prop where
  same_schema : ∀ rank, rank < n → (table rank).schema = (table 0).schema
  fixed : ∀ dtype ∈ (table 0).schema, dtype.id ≠ .STRING

/-- The sizes of the tables in the order of the ranks. -/
def all_nrows (n : Nat) (table : Nat → Table) : List Int :=
  gathered_values n (fun rank => (table rank).num_rows) 0

/-- The number of rows of the merged table, as the root calculates it. -/
def merged_rows (n : Nat) (table : Nat → Table) : Int :=
  (scan_table_nrows (all_nrows n table)).getLastD 0

/-- A column of the merged table. -/
def merged_column (gpu : Gpu) (n : Nat) (table : Nat → Table) (icol : Nat) : Column :=
  let dtype := ((table 0).column icol).type
  fixed_width_column dtype (merged_rows n table)
    (contents gpu.uninitialized
      (collected_writes (fun rank => (table rank).column icol)
        (fun rank => (table rank).num_rows) (scan_table_nrows (all_nrows n table))
        dtype.id.size_of n 0)
      ((merged_rows n table).toNat * dtype.id.size_of))

/-- The merged table. -/
def merged (gpu : Gpu) (n : Nat) (table : Nat → Table) : Table :=
  (List.range (table 0).length).map (merged_column gpu n table)

/-- What a rank does when the tables are collected. -/
def collectTablesEvents (n : Nat) (table : Nat → Table) (rank : Nat) :
    List (Event ranks) :=
  gatherEvents n (table rank).num_rows rank ++
    (List.range (table 0).length).flatMap fun icol =>
      collectEvents icol (fun rank => (table rank).column icol)
        (fun rank => (table rank).num_rows) ((table 0).column icol).type.id.size_of n rank

namespace Mergeable

variable {table : Nat → Table}

theorem length_eq
    (mergeable : Mergeable n table)
    {rank : Nat}
    (rankBound : rank < n) :
    (table rank).length = (table 0).length :=
  Table.length_eq_of_schema (mergeable.same_schema rank rankBound)

theorem type_eq
    (mergeable : Mergeable n table)
    {rank : Nat}
    (rankBound : rank < n)
    (icol : Nat) :
    ((table rank).column icol).type = ((table 0).column icol).type :=
  Table.type_eq_of_schema (mergeable.same_schema rank rankBound) icol

theorem fixed_column
    (mergeable : Mergeable n table)
    {icol : Nat}
    (icolBound : icol < (table 0).length) :
    ((table 0).column icol).type.id ≠ .STRING := by
  rw [Table.column, List.getD_eq_getElem _ _ icolBound]
  exact mergeable.fixed _ (List.mem_map_of_mem (List.getElem_mem icolBound))

end Mergeable

/-- The root can allocate the merged table. -/
def Allocatable (n : Nat) (table : Nat → Table) : Prop :=
  table 0 = [] ∨ 0 ≤ merged_rows n table

theorem forM_allocated
    {table : Nat → Table}
    (mergeable : Mergeable n table)
    (allocatable : Allocatable n table) :
    (forM (table 0) fun column => do
      require_fixed_width column.type
      if merged_rows n table < 0 then Process.fail "Column size cannot be negative.") =
      (Process.pure () : Process ranks Unit) := by
  apply forM_eq_pure
  intro column member
  have counted : ¬ merged_rows n table < 0 := by
    rcases allocatable with empty | nonnegative
    · rw [empty] at member
      contradiction
    · exact not_lt.mpr nonnegative
  rw [require_fixed_width, if_neg (mergeable.fixed _ (List.mem_map_of_mem member)),
    if_neg counted]
  rfl

/-- The root merges the tables whose sizes it knows. -/
theorem phase_merge_tables
    (n_pos : 0 < n)
    (group_by_batch : Bool)
    (gpu : Gpu)
    (table : Nat → Table)
    (mergeable : Mergeable n table)
    (allocatable : Allocatable n table)
    (quiet : before .communicator = fun _ => []) :
    Phase n eager before
      (fun rank => merge_tables gpu (table rank)
        (gathered_values n (fun rank => (table rank).num_rows) rank)
        (communicatorOf n group_by_batch rank))
      before
      (.ok fun rank => if rank = 0 then some (merged gpu n table) else none)
      (fun rank => (List.range (table 0).length).flatMap fun icol =>
        collectEvents icol (fun rank => (table rank).column icol)
          (fun rank => (table rank).num_rows) ((table 0).column icol).type.id.size_of n
          rank) := by
  let nrows : Nat → Int := fun rank => (table rank).num_rows
  let dtype : Nat → DataType := fun icol => ((table 0).column icol).type
  let scan : Nat → List Int := fun rank => scan_table_nrows (gathered_values n nrows rank)
  let total : Nat → Int := fun rank => (scan rank).getLastD 0
  let column : Nat → DataType → List Write → Column := fun rank dtype writes =>
    fixed_width_column dtype (total rank)
      (contents gpu.uninitialized writes ((total rank).toNat * dtype.id.size_of))
  let writes : Nat → Nat → List Write := fun rank icol =>
    collected_writes (fun rank => (table rank).column icol) nrows (scan 0)
      (dtype icol).id.size_of n rank
  have each : ∀ icol ∈ List.range (table 0).length, Phase n eager before
      (fun rank => collect_cols icol ((table rank).column icol) (nrows rank)
          (gathered_values n nrows rank) (scan rank)
          (communicatorOf n group_by_batch rank) >>= fun writes =>
        Process.pure (column rank ((table rank).column icol).type writes))
      before (.ok fun rank => column rank (dtype icol) (writes rank icol))
      (collectEvents icol (fun rank => (table rank).column icol) nrows
        (dtype icol).id.size_of n) := by
    intro icol range
    have sent : Phase n eager before _ _ _ _ :=
      phase_collect_cols n_pos group_by_batch icol (fun rank => (table rank).column icol)
        nrows (fun rank rankBound => mergeable.type_eq rankBound icol)
        (mergeable.fixed_column (List.mem_range.mp range)) quiet
    refine (sent.map fun rank writes => column rank (dtype icol) writes).congr
      fun rank rankBound => ?_
    rw [mergeable.type_eq rankBound icol]
  have sent : Phase n eager before _ _ _ _ :=
    (Phase.mapM (List.range (table 0).length) each).map fun rank columns =>
      if rank = 0 then some columns else none
  refine (sent.congr fun rank rankBound => ?_).congr_result fun rank _ => ?_
  · unfold merge_tables
    dsimp only [communicatorOf]
    rw [mergeable.length_eq rankBound]
    by_cases root : rank = 0
    · subst root
      have accepted := forM_allocated mergeable allocatable
      unfold merged_rows all_nrows at accepted
      refine (if_pos rfl).trans ?_
      rw [accepted, Process.pure_bind]
      rfl
    · exact if_neg root
  · by_cases root : rank = 0
    · subst root
      rfl
    · rw [if_neg root, if_neg root]

/-- The root refuses to allocate columns of a negative size. -/
theorem merge_tables_refused
    {table : Nat → Table}
    (gpu : Gpu)
    (group_by_batch : Bool)
    (mergeable : Mergeable n table)
    (refused : ¬ Allocatable n table) :
    merge_tables gpu (table 0) (all_nrows n table) (communicatorOf n group_by_batch 0) =
      .fail "Column size cannot be negative." := by
  obtain ⟨nonempty, negative⟩ := not_or.mp refused
  obtain ⟨column, rest, columns⟩ := List.exists_cons_of_ne_nil nonempty
  have fixed : column.type.id ≠ .STRING :=
    mergeable.fixed _ (List.mem_map_of_mem (by rw [columns]; simp))
  have wrapped : (scan_table_nrows (all_nrows n table)).getLastD 0 < 0 := not_le.mp negative
  unfold merge_tables
  dsimp only [communicatorOf]
  refine (if_pos rfl).trans ?_
  rw [columns, List.forM_cons, require_fixed_width, if_neg fixed, if_pos wrapped]
  rfl

/-- The whole collection on all ranks. -/
theorem phase_collect_tables
    (n_pos : 0 < n)
    (group_by_batch : Bool)
    (gpu : Gpu)
    (table : Nat → Table)
    (mergeable : Mergeable n table)
    (allocatable : Allocatable n table) :
    Phase n eager (Arrivals.none ranks)
      (fun rank => collect_tables gpu (table rank) (communicatorOf n group_by_batch rank))
      (Arrivals.none ranks)
      (.ok fun rank => if rank = 0 then some (merged gpu n table) else none)
      (collectTablesEvents n table) :=
  (phase_MPI_Gather n_pos group_by_batch (fun rank => (table rank).num_rows) rfl).bind
    (phase_merge_tables n_pos group_by_batch gpu table mergeable allocatable rfl)

end Phases

end DistributedJoin
