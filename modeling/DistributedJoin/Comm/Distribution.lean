import DistributedJoin.Comm.DistributeTable
import DistributedJoin.Comm.Exchange

/-!
# What the distribution of a table does

The root tells the workers the size and the types of its table and sends each of
them its rows, column by column.
-/

namespace DistributedJoin

open Device Spmd

section Phases

variable {n : Nat} {eager : Eagerness ranks} {before : Arrivals ranks}

/-- What a rank does when the root tells it a value. -/
def bcastEvents (n : Nat) (value : Int) (rank : Nat) : List (Event ranks) :=
  (bcast_actions value n rank).map Action.event ++ [.waited .mpi]

/-- All ranks get to know the value of the root. -/
theorem phase_MPI_Bcast
    (n_pos : 0 < n)
    (group_by_batch : Bool)
    (value : Nat → Int)
    (quiet : before .mpi = fun _ => []) :
    Phase n eager before
      (fun rank => MPI_Bcast (value rank) (communicatorOf n group_by_batch rank))
      before (.ok fun _ => value 0) (bcastEvents n (value 0)) := by
  have matched : Matched n (bcast_actions (value 0) n) := matched_scatter _ _ n_pos
  have exchange : Phase n eager before _ _ _ _ := Phase.perform_await matched quiet
  refine ((exchange.map fun rank arrivals =>
    arrivals.foldl (fun _ arrival => arrival.2) (value rank)).congr
      fun rank _ => ?_).congr_result fun rank rankBound => ?_
  · have same : bcast_actions (value rank) n rank = bcast_actions (value 0) n rank :=
      scatter_congr (fun root => by rw [root]) fun _ => rfl
    simp only [MPI_Bcast, communicatorOf, bind_assoc, same]
    rfl
  · have delivered : deliveries (bcast_actions (value 0) n) rank =
        if rank = 0 then [] else [(0, value 0)] := deliveries_scatter _ _ rankBound
    rw [delivered]
    split
    · rename_i root
      rw [root]
      rfl
    · rfl

/-- The elements of a column for a rank. -/
def distributed_bytes
    (icol : Nat)
    (global_col : Column)
    (dtype_size n rank : Nat) : List Byte :=
  (distributed_transfer icol global_col dtype_size n rank).bytes

/-- What a rank does when a column is distributed. -/
def distributeEvents
    (icol : Nat)
    (global_col : Column)
    (local_size : Nat → Int)
    (dtype_size n rank : Nat) : List (Event ranks) :=
  [.noted .start] ++
    ((distribute_actions icol global_col (local_size rank) dtype_size n rank).map
        Action.event ++
      ((if rank = 0 then
          [.noted (copy_note icol (distributed_bytes icol global_col dtype_size n 0))]
        else []) ++ [.waited .communicator]))

/-- The first local table begins with the global one. -/
theorem get_start_idx_zero (global_size : Int) {n : Nat} (n_pos : 0 < n) :
    get_start_idx global_size 0 n = 0 := by
  unfold get_start_idx
  rw [Nat.cast_zero, min_eq_left (Int.emod_nonneg _ (by omega)), mul_zero, add_zero]

/-- The root copies its own elements. -/
theorem distributed_bytes_root
    (icol : Nat)
    (global_col : Column)
    (dtype_size : Nat)
    {n : Nat}
    (n_pos : 0 < n) :
    distributed_bytes icol global_col dtype_size n 0 =
      readRange global_col.head 0
        (get_local_table_size global_col.size 0 n * dtype_size).toNat := by
  simp only [distributed_bytes, distributed_transfer, get_start_idx_zero _ n_pos, zero_mul]

/-- Every rank gets its elements of a column. -/
theorem phase_distribute_cols
    (n_pos : 0 < n)
    (group_by_batch : Bool)
    (icol : Nat)
    (global_col : Nat → Column)
    (dtype : Nat → DataType)
    (local_size : Nat → Int)
    (same_id : ∀ rank, rank < n → (dtype rank).id = (dtype 0).id)
    (quiet : before .communicator = fun _ => []) :
    Phase n eager before
      (fun rank => distribute_cols icol (global_col rank) (dtype rank) (local_size rank)
        (communicatorOf n group_by_batch rank))
      before
      (.ok fun rank => [⟨0, distributed_bytes icol (global_col 0) (dtype 0).id.size_of n
        rank⟩])
      (distributeEvents icol (global_col 0) local_size (dtype 0).id.size_of n) := by
  let dtype_size := (dtype 0).id.size_of
  let actions : Nat → List (Action ranks .communicator) := fun rank =>
    distribute_actions icol (global_col 0) (local_size rank) dtype_size n rank
  have family : actions = scatter n (distributed_transfer icol (global_col 0) dtype_size n)
      (fun rank => local_landing icol (local_size rank) dtype_size) := by
    funext rank
    exact scatter_congr (fun _ => rfl) fun _ => rfl
  have matched : Matched n actions := family ▸ matched_scatter _ _ n_pos
  let copied : Nat → Note := fun _ =>
    copy_note icol (distributed_bytes icol (global_col 0) dtype_size n 0)
  have started : Phase n eager before (fun _ => Communicator.start) before
      (.ok fun _ => ()) _ := Phase.observe (I := ranks) fun _ => .start
  have performed : Phase n eager before (fun rank => Process.perform (actions rank)) _ _ _ :=
    Phase.perform matched
  have noted : Phase n eager (before.deliver .communicator (deliveries actions))
      _ _ _ _ := Phase.observeIf (fun rank => rank = 0) copied
  have stopped : Phase n eager (before.deliver .communicator (deliveries actions))
      (fun _ => Communicator.stop) _ _ _ := Phase.await (I := ranks) .communicator
  rw [Arrivals.settle_deliver quiet, Arrivals.deliver_quiet quiet] at stopped
  have composed : Phase n eager before _ _ _ _ :=
    started.seq (performed.seq (noted.seq (stopped.map fun rank arrivals =>
      if rank = 0 then
        [⟨0, distributed_bytes icol (global_col 0) dtype_size n 0⟩]
      else arrivals.map fun arrival => (⟨arrival.1.start, arrival.2.bytes⟩ : Write))))
  refine (composed.congr fun rank rankBound => ?_).congr_result fun rank rankBound => ?_
  · have width : (dtype rank).id.size_of = dtype_size :=
      congrArg TypeId.size_of (same_id rank rankBound)
    have same : distribute_actions icol (global_col rank) (local_size rank) dtype_size n
        rank = actions rank :=
      scatter_congr (fun root => by rw [root]) fun _ => rfl
    by_cases root : rank = 0
    · subst root
      simp only [distribute_cols, communicatorOf, width, same, if_pos, copied,
        distributed_bytes_root icol _ _ n_pos]
      rfl
    · simp only [distribute_cols, communicatorOf, width, same, if_neg root]
      rfl
  · have delivered : deliveries actions rank =
        if rank = 0 then [] else
          [(local_landing icol (local_size rank) dtype_size,
            distributed_transfer icol (global_col 0) dtype_size n rank)] := by
      rw [family]
      exact deliveries_scatter _ _ rankBound
    rw [delivered]
    split
    · rename_i root
      rw [root]
    · rfl

/-- The type of a local column. -/
def distributed_dtype (dtype : DataType) (rank : Nat) : DataType where
  id := dtype.id
  scale := if rank = 0 then dtype.scale else 0

/-- A column of a local table. -/
def distributed_column
    (gpu : Gpu)
    (global_table : Table)
    (n rank icol : Nat) : Column :=
  let dtype := (global_table.column icol).type
  let local_table_size := get_local_table_size global_table.num_rows rank n
  fixed_width_column (distributed_dtype dtype rank) local_table_size
    (contents gpu.uninitialized
      [⟨0, distributed_bytes icol (global_table.column icol) dtype.id.size_of n rank⟩]
      (local_table_size.toNat * dtype.id.size_of))

/-- The local table of a rank. -/
def distributed (gpu : Gpu) (global_table : Table) (n rank : Nat) : Table :=
  (List.range global_table.length).map (distributed_column gpu global_table n rank)

/-- What a rank does when a table is distributed. -/
def distributeTableEvents (global_table : Table) (n rank : Nat) : List (Event ranks) :=
  bcastEvents n global_table.num_rows rank ++
    (bcastEvents n global_table.length rank ++
      (((List.range global_table.length).flatMap fun icol =>
          bcastEvents n (global_table.column icol).type.id.value rank) ++
        (List.range global_table.length).flatMap fun icol =>
          distributeEvents icol (global_table.column icol)
            (fun rank => get_local_table_size global_table.num_rows rank n)
            (global_table.column icol).type.id.size_of n rank))

/-- The types as the ranks know them. -/
theorem phase_bcast_columns_dtype
    (n_pos : 0 < n)
    (group_by_batch : Bool)
    (global_table : Nat → Table)
    (quiet : before .mpi = fun _ => []) :
    Phase n eager before
      (fun rank => bcast_columns_dtype (global_table rank) (global_table 0).length
        (communicatorOf n group_by_batch rank))
      before
      (.ok fun rank => (List.range (global_table 0).length).map fun icol =>
        distributed_dtype ((global_table 0).column icol).type rank)
      (fun rank => (List.range (global_table 0).length).flatMap fun icol =>
        bcastEvents n ((global_table 0).column icol).type.id.value rank) := by
  let own : Nat → Nat → DataType := fun rank icol =>
    if rank = 0 then ((global_table rank).column icol).type else ⟨.INT8, 0⟩
  have each : ∀ icol ∈ List.range (global_table 0).length, Phase n eager before
      (fun rank => MPI_Bcast (own rank icol).id.value (communicatorOf n group_by_batch rank)
        >>= fun id => Process.pure (⟨.ofValue id, (own rank icol).scale⟩ : DataType))
      before
      (.ok fun rank => distributed_dtype ((global_table 0).column icol).type rank)
      (bcastEvents n ((global_table 0).column icol).type.id.value) := by
    intro icol _
    have told : Phase n eager before _ _ _ _ :=
      phase_MPI_Bcast n_pos group_by_batch (fun rank => (own rank icol).id.value) quiet
    refine (told.map fun rank id => (⟨.ofValue id, (own rank icol).scale⟩ : DataType)).congr_result
      fun rank _ => ?_
    simp only [own, if_pos, TypeId.ofValue_value, distributed_dtype]
    split
    · rename_i root
      rw [root]
    · rfl
  exact Phase.mapM (List.range (global_table 0).length) each

/-- Checks that all succeed do nothing. -/
theorem forM_eq_pure
    {κ : Type}
    {check : κ → Process ranks Unit}
    {keys : List κ}
    (accepted : ∀ key ∈ keys, check key = Process.pure ()) :
    forM keys check = Process.pure () := by
  induction keys with
  | nil => rfl
  | cons key rest inductionHypothesis =>
      rw [List.forM_cons, accepted key (by simp), Process.pure_bind,
        inductionHypothesis fun other member => accepted other (by simp [member])]

/-- All ranks get their local tables. -/
theorem phase_distribute_columns
    (n_pos : 0 < n)
    (group_by_batch : Bool)
    (gpu : Gpu)
    (global_table : Nat → Table)
    (fixed : ∀ icol, icol < (global_table 0).length →
      ((global_table 0).column icol).type.id ≠ .STRING)
    (quiet : before .communicator = fun _ => []) :
    Phase n eager before
      (fun rank => distribute_columns gpu (global_table rank)
        ((List.range (global_table 0).length).map fun icol =>
          distributed_dtype ((global_table 0).column icol).type rank)
        (get_local_table_size (global_table 0).num_rows rank n)
        (communicatorOf n group_by_batch rank))
      before (.ok (distributed gpu (global_table 0) n))
      (fun rank => (List.range (global_table 0).length).flatMap fun icol =>
        distributeEvents icol ((global_table 0).column icol)
          (fun rank => get_local_table_size (global_table 0).num_rows rank n)
          ((global_table 0).column icol).type.id.size_of n rank) := by
  let dtype : Nat → Nat → DataType := fun icol rank =>
    distributed_dtype ((global_table 0).column icol).type rank
  let columns_dtype : Nat → List DataType := fun rank =>
    (List.range (global_table 0).length).map fun icol => dtype icol rank
  let local_size : Nat → Int := fun rank =>
    get_local_table_size (global_table 0).num_rows rank n
  let column : DataType → Nat → List Write → Column := fun dtype rank writes =>
    fixed_width_column dtype (local_size rank)
      (contents gpu.uninitialized writes ((local_size rank).toNat * dtype.id.size_of))
  have each : ∀ icol ∈ List.range (global_table 0).length, Phase n eager before
      (fun rank => distribute_cols icol ((global_table rank).column icol)
          ((columns_dtype rank).getD icol ⟨.INT8, 0⟩) (local_size rank)
          (communicatorOf n group_by_batch rank) >>= fun writes =>
        Process.pure (column ((columns_dtype rank).getD icol ⟨.INT8, 0⟩) rank writes))
      before (.ok fun rank => distributed_column gpu (global_table 0) n rank icol)
      (distributeEvents icol ((global_table 0).column icol) local_size
        ((global_table 0).column icol).type.id.size_of n) := by
    intro icol range
    have sent : Phase n eager before _ _ _ _ :=
      phase_distribute_cols n_pos group_by_batch icol
        (fun rank => (global_table rank).column icol) (dtype icol) local_size
        (fun _ _ => rfl) quiet
    refine (sent.map fun rank writes => column (dtype icol rank) rank writes).congr
      fun rank _ => ?_
    have known : (columns_dtype rank).getD icol ⟨.INT8, 0⟩ = dtype icol rank := by
      rw [List.getD_eq_getElem _ _ (by simpa [columns_dtype] using List.mem_range.mp range)]
      simp [columns_dtype]
    rw [known]
  refine (Phase.mapM (List.range (global_table 0).length) each).congr fun rank _ => ?_
  have accepted : forM (columns_dtype rank) require_fixed_width = Process.pure () := by
    apply forM_eq_pure
    intro other member
    obtain ⟨icol, range, rfl⟩ := List.mem_map.mp member
    exact if_neg (fixed icol (List.mem_range.mp range))
  rw [distribute_columns, accepted, Process.pure_bind, List.length_map, List.length_range]
  rfl

/-- The whole distribution on all ranks. -/
theorem phase_distribute_table
    (n_pos : 0 < n)
    (group_by_batch : Bool)
    (gpu : Gpu)
    (global_table : Nat → Table)
    (fixed : ∀ icol, icol < (global_table 0).length →
      ((global_table 0).column icol).type.id ≠ .STRING) :
    Phase n eager (Arrivals.none ranks)
      (fun rank => distribute_table gpu (global_table rank)
        (communicatorOf n group_by_batch rank))
      (Arrivals.none ranks) (.ok (distributed gpu (global_table 0) n))
      (distributeTableEvents (global_table 0) n) := by
  let rows : Nat → Int := fun rank => if rank = 0 then (global_table rank).num_rows else -1
  let ncols : Nat → Int := fun rank =>
    if rank = 0 then ((global_table rank).length : Int) else -1
  let communicator : Nat → Communicator := communicatorOf n group_by_batch
  have composed : Phase n eager (Arrivals.none ranks)
      (fun rank => MPI_Bcast (rows rank) (communicator rank) >>= fun global_table_size =>
        MPI_Bcast (ncols rank) (communicator rank) >>= fun ncols =>
          bcast_columns_dtype (global_table rank) ncols (communicator rank) >>=
            fun columns_dtype => distribute_columns gpu (global_table rank) columns_dtype
              (get_local_table_size global_table_size rank n) (communicator rank))
      (Arrivals.none ranks) (.ok (distributed gpu (global_table 0) n))
      (distributeTableEvents (global_table 0) n) :=
    (phase_MPI_Bcast n_pos group_by_batch rows rfl).bind
      ((phase_MPI_Bcast n_pos group_by_batch ncols rfl).bind
        ((phase_bcast_columns_dtype n_pos group_by_batch global_table rfl).bind
          (phase_distribute_columns n_pos group_by_batch gpu global_table fixed rfl)))
  exact composed

end Phases

end DistributedJoin
