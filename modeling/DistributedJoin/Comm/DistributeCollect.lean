import DistributedJoin.Comm.MergedTable

/-!
# Distributing and collecting

Collecting tables concatenates them, and distributing a table cuts it into tables
that differ by at most one row. Collecting the local tables gives back the rows of
the global table. The types of the local columns are those of the global ones,
except that the workers lose the scales of fixed-point types.
-/

namespace DistributedJoin

open Device Spmd

section Distribute

variable {n : Nat} (eager : Eagerness ranks) (group_by_batch : Bool) (gpu : Gpu)

/-- The ranks of a system distribute the table of the root. -/
def distributeProgram (n : Nat) (global_table : Nat → Table) : Nat → Process ranks Table :=
  fun rank => distribute_table gpu (global_table rank) (communicatorOf n group_by_batch rank)

/-- The ranks of a system collect their tables. -/
def collectProgram (n : Nat) (table : Nat → Table) : Nat → Process ranks (Option Table) :=
  fun rank => collect_tables gpu (table rank) (communicatorOf n group_by_batch rank)

/-- The local tables are slices of a global table, one after the other, and
collecting them gives it back. -/
structure Distributed
    (n : Nat)
    (global_table : Nat → Table)
    (local_table : Nat → Table) : Prop where
  /-- All ranks get their local tables. -/
  returns : Returns n eager (distributeProgram group_by_batch gpu n global_table) local_table
  /-- The root sends every rank as many elements as its local table has rows. -/
  sent : ∀ state, Reaches (Configuration.step n eager)
      (Configuration.start (distributeProgram group_by_batch gpu n global_table)) state →
    ∀ rank transfer, .sent .communicator rank transfer ∈ (state 0).log →
      rank < n ∧ transfer.count = (local_table rank).num_rows
  even : ∀ rank other, rank < n → other < n →
    (local_table rank).num_rows ≤ (local_table other).num_rows + 1
  complete : total_rows n local_table = (global_table 0).num_rows
  schema : ∀ rank, rank < n → (local_table rank).schema = (global_table 0).schema
  rows : ((List.range n).flatMap fun rank => (local_table rank).rows) = (global_table 0).rows
  /-- The root gets the global table back. -/
  collected : ∃ merged_table : Table,
    merged_table.schema = (global_table 0).schema ∧
      merged_table.rows = (global_table 0).rows ∧
      Returns n eager (collectProgram group_by_batch gpu n local_table)
        fun rank => if rank = 0 then some merged_table else none

/-- The root gets the concatenation of all tables and has written each of its rows
once. -/
structure Collected (n : Nat) (table : Nat → Table) (merged_table : Table) : Prop where
  returns : Returns n eager (collectProgram group_by_batch gpu n table)
    fun rank => if rank = 0 then some merged_table else none
  schema : merged_table.schema = (table 0).schema
  rows : merged_table.rows = (List.range n).flatMap fun rank => (table rank).rows
  written : ∀ state, Reaches (Configuration.step n eager)
      (Configuration.start (collectProgram group_by_batch gpu n table)) state →
    (state 0).process.Ended → ∀ icol, icol < (table 0).length →
      ∀ row : Nat, (row : Int) < total_rows n table →
        AccessedOnce (accesses .write (.plain (.data icol)) (state 0).log)
          (row * ((table 0).column icol).type.id.size_of : Nat)
          ((row + 1) * ((table 0).column icol).type.id.size_of : Nat)

variable {eager group_by_batch gpu}

theorem settles_collect
    (n_pos : 0 < n)
    {table : Nat → Table}
    (sound : ∀ rank, rank < n → (table rank).Sound)
    (mergeable : Mergeable n table)
    (small : total_rows n table < 2 ^ 31) :
    Settles n eager (collectProgram group_by_batch gpu n table)
      (fun rank => Process.pure (if rank = 0 then some (merged gpu n table) else none))
      (collectTablesEvents n table) := by
  refine Settles.of_returning
    (phase_collect_tables n_pos group_by_batch gpu table mergeable (.inr ?_))
  rw [merged_rows_small sound small, total_rows_eq sound]
  exact Int.natCast_nonneg _

/-- If the root cannot allocate the merged table, it stops with an error. -/
theorem collect_refused
    (n_pos : 0 < n)
    {table : Nat → Table}
    (mergeable : Mergeable n table)
    (refused : ¬ Allocatable n table) :
    ∃ state, Reaches (Configuration.step n eager)
        (Configuration.start (collectProgram group_by_batch gpu n table)) state ∧
      (state 0).process = .fail "Column size cannot be negative." := by
  have told : Phase n eager (Arrivals.none ranks) _ _ _ _ :=
    phase_MPI_Gather n_pos group_by_batch (fun rank => (table rank).num_rows) rfl
  obtain ⟨state, reached, _, finished⟩ := told _
    (fun rank table_nrows =>
      merge_tables gpu (table rank) table_nrows (communicatorOf n group_by_batch rank))
    (Configuration.start (collectProgram group_by_batch gpu n table)) (resolved_start _)
    fun _ _ => rfl
  refine ⟨state, reached, ?_⟩
  rw [(finished 0 n_pos).1]
  exact merge_tables_refused gpu group_by_batch mergeable refused

/-- Collecting concatenates the tables as long as their rows can be counted. -/
theorem collected_merged
    (n_pos : 0 < n)
    {table : Nat → Table}
    (wellFormed : ∀ rank, rank < n → (table rank).WellFormed)
    (mergeable : Mergeable n table)
    (fixed : ∀ rank, rank < n → (table rank).FixedWidth)
    (small : total_rows n table < 2 ^ 31) :
    Collected eager group_by_batch gpu n table (merged gpu n table) := by
  have sound : ∀ rank, rank < n → (table rank).Sound := fun rank rankBound =>
    (wellFormed rank rankBound).sound
  have settles : Settles n eager (collectProgram group_by_batch gpu n table) _ _ :=
    settles_collect n_pos sound mergeable small
  constructor
  case returns => exact settles.returns
  case schema => exact schema_merged gpu n table
  case rows =>
    rw [rows_merged gpu sound mergeable small]
    apply List.flatMap_congr
    intro rank range
    have rankBound := List.mem_range.mp range
    exact ((wellFormed rank rankBound).rows_eq (fixed rank rankBound)).symm
  case written =>
    intro state reached ended icol icolBound row rowBound
    rw [(settles.ended_eq reached n_pos ended).2]
    exact written_once n_pos sound mergeable small icolBound rowBound

variable {global_table : Nat → Table}

theorem settles_distribute
    (n_pos : 0 < n)
    (fixed : (global_table 0).FixedWidth) :
    Settles n eager (distributeProgram group_by_batch gpu n global_table)
      (fun rank => Process.pure (distributed gpu (global_table 0) n rank))
      (distributeTableEvents (global_table 0) n) :=
  Settles.of_returning (phase_distribute_table n_pos group_by_batch gpu global_table
    fun _ icolBound => fixed _ (Table.column_mem icolBound))

/-- What the root sends to a rank when it distributes a table. -/
theorem sent_of_mem_distributeTableEvents
    {global_table : Table}
    (sound : global_table.Sound)
    {rank : Nat}
    {transfer : Transfer}
    (member : .sent .communicator rank transfer ∈ distributeTableEvents global_table n 0) :
    rank < n ∧ transfer.count = get_local_table_size global_table.num_rows rank n := by
  have silent : ∀ value, .sent .communicator rank transfer ∉ bcastEvents n value 0 := by
    intro value inEvents
    simp only [bcastEvents, bcast_actions, scatter, if_pos, List.mem_append, List.mem_map,
      List.mem_singleton] at inEvents
    rcases inEvents with ⟨_, ⟨worker, _, rfl⟩, equal⟩ | equal
    · simp [Action.event] at equal
    · contradiction
  simp only [distributeTableEvents, List.mem_append, List.mem_flatMap, List.mem_range, silent,
    and_false, exists_false, false_or] at member
  obtain ⟨icol, icolBound, inColumn⟩ := member
  simp only [distributeEvents, distribute_actions, scatter, if_pos, List.mem_append,
    List.mem_map, List.mem_singleton] at inColumn
  rcases inColumn with equal | ⟨_, ⟨worker, inWorkers, rfl⟩, equal⟩ | equal | equal
  · contradiction
  · obtain ⟨rfl, rfl⟩ : worker = rank ∧ _ = transfer := by simpa [Action.event] using equal
    refine ⟨(mem_workers.mp inWorkers).2, ?_⟩
    rw [distributed_transfer, sound.sizes _ (Table.column_mem icolBound)]
  · contradiction
  · contradiction

/-- The types of the columns survive the distribution. -/
def TypesKept (n : Nat) (global_table : Table) : Prop :=
  n = 1 ∨ ∀ column ∈ global_table, column.type.scale = 0

theorem schema_distributed
    {global_table : Table}
    (kept : TypesKept n global_table)
    {rank : Nat}
    (rankBound : rank < n) :
    (distributed gpu global_table n rank).schema = global_table.schema := by
  unfold distributed
  rw [Table.schema, Table.schema, List.map_map, Table.map_eq_map_range]
  apply List.map_congr_left
  intro icol range
  simp only [Function.comp_apply, distributed_column, fixed_width_column, distributed_dtype]
  rcases kept with single | unscaled
  · rw [if_pos (by omega)]
  · have scale := unscaled _ (Table.column_mem (List.mem_range.mp range))
    rw [scale, ite_self, ← scale]

/-- The workers know no scales. -/
theorem unscaled_distributed
    {global_table : Table}
    {rank : Nat}
    (worker : rank ≠ 0) :
    ∀ dtype ∈ (distributed gpu global_table n rank).schema, dtype.scale = 0 := by
  intro dtype inSchema
  obtain ⟨_, inTable, rfl⟩ := List.mem_map.mp inSchema
  obtain ⟨icol, _, rfl⟩ := List.mem_map.mp inTable
  exact if_neg worker

/-- If all ranks know the types, they survive the distribution. -/
theorem typesKept_of_schema
    (n_pos : 0 < n)
    {global_table : Table}
    (same : ∀ rank, rank < n →
      (distributed gpu global_table n rank).schema = global_table.schema) :
    TypesKept n global_table := by
  by_cases single : n = 1
  · exact .inl single
  · refine .inr fun column member => ?_
    have unscaled : ∀ dtype ∈ (distributed gpu global_table n 1).schema, dtype.scale = 0 :=
      unscaled_distributed Nat.one_ne_zero
    rw [same 1 (by omega)] at unscaled
    exact unscaled _ (List.mem_map_of_mem member)

/-- If the types survive, the local tables are slices of the global table. -/
theorem distributed_of_typesKept
    (n_pos : 0 < n)
    (wellFormed : (global_table 0).WellFormed)
    (fixed : (global_table 0).FixedWidth)
    (kept : TypesKept n (global_table 0)) :
    Distributed eager group_by_batch gpu n global_table
      (distributed gpu (global_table 0) n) := by
  have sound := wellFormed.sound
  have settles : Settles n eager (distributeProgram group_by_batch gpu n global_table) _ _ :=
    settles_distribute n_pos fixed
  have num_rows : ∀ rank, rank < n → (distributed gpu (global_table 0) n rank).num_rows =
      get_local_table_size (global_table 0).num_rows rank n := fun rank rankBound =>
    num_rows_distributed sound fixed rankBound
  have complete : total_rows n (distributed gpu (global_table 0) n) =
      (global_table 0).num_rows := by
    rw [← sum_get_local_table_size (global_table 0).num_rows n_pos]
    exact congrArg List.sum (List.map_congr_left fun rank range =>
      num_rows rank (List.mem_range.mp range))
  have rows : ((List.range n).flatMap fun rank => (distributed gpu (global_table 0) n rank).rows) =
      (global_table 0).rows := by
    rw [wellFormed.rows_eq fixed, ← flatMap_local_part (global_table 0).head_rows n_pos]
    apply List.flatMap_congr
    intro rank range
    exact rows_distributed sound fixed (List.mem_range.mp range)
  have localFixed : ∀ rank, rank < n →
      (distributed gpu (global_table 0) n rank).FixedWidth := by
    intro rank rankBound
    rw [distributed_eq sound rankBound]
    exact (rectangular_distributed sound fixed rankBound).fixedWidth
  have mergeable : Mergeable n (distributed gpu (global_table 0) n) := {
    same_schema := by
      intro rank rankBound
      rw [schema_distributed kept rankBound, schema_distributed kept n_pos]
    fixed := by
      intro dtype member
      obtain ⟨column, inTable, rfl⟩ := List.mem_map.mp member
      exact localFixed 0 n_pos column inTable }
  have collected : Collected eager group_by_batch gpu n _ _ := collected_merged n_pos
    (fun rank rankBound => wellFormed_distributed sound fixed rankBound) mergeable localFixed
    (complete ▸ sound.num_rows_lt)
  constructor
  case returns => exact settles.returns
  case sent =>
    intro state reached rank transfer member
    have final := (settles.log_grows reached n_pos).subset member
    obtain ⟨rankBound, count⟩ := sent_of_mem_distributeTableEvents sound final
    exact ⟨rankBound, count.trans (num_rows rank rankBound).symm⟩
  case even =>
    intro rank other rankBound otherBound
    rw [num_rows rank rankBound, num_rows other otherBound]
    exact get_local_table_size_le _ _ _ _
  case complete => exact complete
  case schema => exact fun rank rankBound => schema_distributed kept rankBound
  case rows => exact rows
  case collected =>
    exact ⟨_, collected.schema.trans (schema_distributed kept n_pos), collected.rows.trans rows,
      collected.returns⟩

end Distribute

/-- A message to a rank that is sent with the communicator. -/
def is_send_to (dest : Nat) : Event ranks → Bool
  | .sent .communicator peer _ => peer = dest
  | _ => false

/-- A receive from a rank that is posted with the communicator. -/
def is_receive_from (source : Nat) : Event ranks → Bool
  | .posted .communicator peer _ => peer = source
  | _ => false

section CollectsEvenly

variable {n : Nat}

/-- Of what happens once for every column there is as much as there are columns. -/
theorem countP_collectTablesEvents
    (table : Nat → Table)
    (rank : Nat)
    (counted : Event ranks → Bool)
    (told : (gatherEvents n (table rank).num_rows rank).countP counted = 0)
    (once : ∀ icol column nrows dtype_size,
      (collectEvents icol column nrows dtype_size n rank).countP counted = 1) :
    (collectTablesEvents n table rank).countP counted = (table 0).length := by
  have columns : (List.range (table 0).length).map (List.countP counted ∘ fun icol =>
      collectEvents icol (fun rank => (table rank).column icol)
        (fun rank => (table rank).num_rows) ((table 0).column icol).type.id.size_of n rank) =
      (List.range (table 0).length).map fun _ => 1 :=
    List.map_congr_left fun icol _ => once icol _ _ _
  rw [collectTablesEvents, List.countP_append, told, List.countP_flatMap, columns, Nat.zero_add,
    List.map_const', List.sum_replicate_nat, List.length_range, Nat.mul_one]

theorem sends_of_worker (table : Nat → Table) {worker : Nat} (positive : worker ≠ 0) :
    (collectTablesEvents n table worker).countP (is_send_to 0) = (table 0).length := by
  apply countP_collectTablesEvents
  case told => simp [gatherEvents, gather_actions, gather, positive, Action.event, is_send_to]
  case once =>
    intro icol column nrows dtype_size
    simp [collectEvents, collect_actions, gather, positive, Action.event, is_send_to]

theorem receives_of_root (table : Nat → Table) {worker : Nat} (member : worker ∈ workers n) :
    (collectTablesEvents n table 0).countP (is_receive_from worker) = (table 0).length := by
  apply countP_collectTablesEvents
  case told =>
    simp [gatherEvents, gather_actions, gather, Action.event, is_receive_from, Function.comp_def]
  case once =>
    intro icol column nrows dtype_size
    have count : (workers n).countP (fun peer => decide (peer = worker)) = 1 :=
      (List.countP_congr fun peer _ => by simp).trans
        (List.count_eq_one_of_mem nodup_workers member)
    simp [collectEvents, collect_actions, gather, Action.event, is_receive_from, Function.comp_def,
      count]

variable (eager : Eagerness ranks) (group_by_batch : Bool) (gpu : Gpu)

/-- When no rank can go on with the collection, every worker has sent as often as the root has
posted a receive from it. -/
def CollectsEvenly (n : Nat) (table : Nat → Table) : Prop :=
  ∀ state, Reaches (Configuration.step n eager)
      (Configuration.start (collectProgram group_by_batch gpu n table)) state →
    Halted (Configuration.step n eager) state → ∀ worker, worker ≠ 0 → worker < n →
      (state worker).log.countP (is_send_to 0) =
        (state 0).log.countP (is_receive_from worker)

theorem collects_evenly
    {table : Nat → Table}
    (mergeable : Mergeable n table)
    (allocatable : Allocatable n table) :
    CollectsEvenly eager group_by_batch gpu n table := by
  intro state reached halted worker positive workerBound
  have n_pos : 0 < n := Nat.zero_lt_of_lt workerBound
  have settles : Settles n eager (collectProgram group_by_batch gpu n table) _ _ :=
    Settles.of_returning
      (phase_collect_tables n_pos group_by_batch gpu table mergeable allocatable)
  obtain ⟨finish, ⟨_, further⟩, finished⟩ := settles.reaches_final reached
  cases further with
  | refl =>
      rw [(finished worker workerBound).2, (finished 0 n_pos).2, sends_of_worker table positive,
        receives_of_root table (mem_workers.mpr ⟨positive, workerBound⟩)]
  | head taken _ =>
      rw [halted] at taken
      contradiction

end CollectsEvenly

/-- Distributing a table cuts it into local tables that give it back when they are
collected if and only if there is no worker or no column has a scale. Collecting
tables always concatenates them, whatever order the ranks run in. -/
theorem distribute_collect_iff
    {n : Nat}
    (n_pos : 0 < n)
    (eager : Eagerness ranks)
    (group_by_batch : Bool)
    (gpu : Gpu) :
    (∀ global_table : Nat → Table,
      (global_table 0).WellFormed → (global_table 0).FixedWidth →
      ((∃ local_table, Distributed eager group_by_batch gpu n global_table local_table) ↔
        n = 1 ∨ ∀ column ∈ global_table 0, column.type.scale = 0)) ∧
    ∀ table : Nat → Table,
      (∀ rank, rank < n → (table rank).WellFormed) →
      (∀ rank, rank < n → (table rank).FixedWidth) →
      (∀ rank, rank < n → (table rank).schema = (table 0).schema) →
      total_rows n table < 2 ^ 31 →
      ∃ merged_table, Collected eager group_by_batch gpu n table merged_table := by
  constructor
  · intro global_table wellFormed fixed
    constructor
    · rintro ⟨local_table, correct⟩
      have settles : Settles n eager (distributeProgram group_by_batch gpu n global_table) _ _ :=
        settles_distribute n_pos fixed
      have same : ∀ rank, rank < n →
          (distributed gpu (global_table 0) n rank).schema = (global_table 0).schema := by
        intro rank rankBound
        rw [← correct.returns.unique settles.returns rankBound]
        exact correct.schema rank rankBound
      exact typesKept_of_schema n_pos same
    · intro kept
      exact ⟨_, distributed_of_typesKept n_pos wellFormed fixed kept⟩
  · intro table wellFormed fixed same_schema small
    have mergeable : Mergeable n table := ⟨same_schema, fun dtype member => by
      obtain ⟨column, inTable, rfl⟩ := List.mem_map.mp member
      exact fixed 0 n_pos column inTable⟩
    exact ⟨_, collected_merged n_pos wellFormed mergeable fixed small⟩

/-- Every rank gets local columns of the types of the root if and only if there is no
worker or no type has a scale, whatever order the ranks run in. -/
theorem distribute_types_iff
    {n : Nat}
    (n_pos : 0 < n)
    (eager : Eagerness ranks)
    (group_by_batch : Bool)
    (gpu : Gpu)
    (global_table : Nat → Table)
    (fixed : (global_table 0).FixedWidth) :
    (∃ local_table,
      Returns n eager (distributeProgram group_by_batch gpu n global_table) local_table ∧
        ∀ rank, rank < n → (local_table rank).schema = (global_table 0).schema) ↔
      n = 1 ∨ ∀ column ∈ global_table 0, column.type.scale = 0 := by
  have settles : Settles n eager (distributeProgram group_by_batch gpu n global_table) _ _ :=
    settles_distribute n_pos fixed
  constructor
  · rintro ⟨local_table, returns, same⟩
    have kept : ∀ rank, rank < n →
        (distributed gpu (global_table 0) n rank).schema = (global_table 0).schema := by
      intro rank rankBound
      rw [← returns.unique settles.returns rankBound]
      exact same rank rankBound
    exact typesKept_of_schema n_pos kept
  · intro kept
    exact ⟨_, settles.returns, fun rank rankBound => schema_distributed kept rankBound⟩

/-- A table with one column of two fixed-point numbers. -/
def decimals (scale : Int) : Table :=
  [{  type := ⟨.DECIMAL32, scale⟩
      size := 2
      offset := 0
      head := [1, 0, 0, 0, 2, 0, 0, 0]
      null_mask := none
      child_offsets := []
      child_chars := [] }]

theorem fixedWidth_decimals (scale : Int) : (decimals scale).FixedWidth := by
  intro column member
  obtain rfl := List.mem_singleton.mp member
  exact TypeId.noConfusion

theorem wellFormed_decimals (scale : Int) : (decimals scale).WellFormed where
  columns := by
    intro column member
    obtain rfl := List.mem_singleton.mp member
    exact {
      size_nonneg := show (0 : Int) ≤ 2 by decide
      size_lt := show (2 : Int) < 2 ^ 31 by decide
      unsliced := rfl
      non_null := rfl
      fixed := fun _ => rfl
      offsets_length := fun string => by contradiction
      offsets_cover := fun string => by contradiction
      offsets_sorted := fun string => by contradiction
      offsets_bound := fun string => by contradiction
      chars_lt := fun string => by contradiction }
  sizes := by
    intro column member
    obtain rfl := List.mem_singleton.mp member
    rfl

/-- Two ranks share two numbers without a scale. Numbers with a scale are no longer the same,
but can be collected. -/
theorem distribute_collect_two_ranks :
    (∃ local_table, Distributed (fun _ _ _ _ => false) false storingGpu 2
      (fun _ => decimals 0) local_table) ∧
    (¬ ∃ local_table, Distributed (fun _ _ _ _ => false) false storingGpu 2
      (fun _ => decimals (-2)) local_table) ∧
    ∃ merged_table, Collected (fun _ _ _ _ => false) false storingGpu 2
      (fun _ => decimals (-2)) merged_table := by
  have applied := distribute_collect_iff Nat.two_pos (fun _ _ _ _ => false) false storingGpu
  refine ⟨(applied.1 (fun _ => decimals 0) (wellFormed_decimals 0) (fixedWidth_decimals 0)).mpr
    (.inr fun column member => ?_), fun distributed => ?_,
    applied.2 (fun _ => decimals (-2)) (fun _ _ => wellFormed_decimals (-2))
      (fun _ _ => fixedWidth_decimals (-2)) (fun _ _ => rfl) (by decide)⟩
  · obtain rfl := List.mem_singleton.mp member
    rfl
  · rcases (applied.1 (fun _ => decimals (-2)) (wellFormed_decimals (-2))
      (fixedWidth_decimals (-2))).mp distributed with alone | unscaled
    · contradiction
    · exact absurd (unscaled _ (List.mem_singleton.mpr rfl)) (by decide)

/-- Two ranks agree on the type of numbers without a scale. -/
theorem distribute_types_two_ranks :
    ∃ local_table,
      Returns 2 (fun _ _ _ _ => false)
          (distributeProgram false storingGpu 2 fun _ => decimals 0) local_table ∧
        ∀ rank, rank < 2 → (local_table rank).schema = (decimals 0).schema :=
  (distribute_types_iff Nat.two_pos (fun _ _ _ _ => false) false storingGpu
    (fun _ => decimals 0) (fixedWidth_decimals 0)).mpr
    (.inr fun column member => by
      obtain rfl := List.mem_singleton.mp member
      rfl)

/-- The local column of the second rank is a hundred times too large. -/
theorem distribute_types_lost :
    (decimals (-2)).FixedWidth ∧
      ¬ ∃ local_table,
        Returns 2 (fun _ _ _ _ => false)
            (distributeProgram false storingGpu 2 fun _ => decimals (-2)) local_table ∧
          ∀ rank, rank < 2 → (local_table rank).schema = (decimals (-2)).schema := by
  refine ⟨fixedWidth_decimals (-2), ?_⟩
  rintro ⟨local_table, returns, same⟩
  have settles : Settles 2 (fun _ _ _ _ => false)
      (distributeProgram false storingGpu 2 fun _ => decimals (-2)) _ _ :=
    settles_distribute Nat.two_pos (fixedWidth_decimals (-2))
  have schema := same 1 Nat.one_lt_two
  rw [returns.unique settles.returns Nat.one_lt_two] at schema
  have lost : (distributed storingGpu (decimals (-2)) 2 1).schema = [⟨.DECIMAL32, 0⟩] := rfl
  have kept : (decimals (-2)).schema = [⟨.DECIMAL32, -2⟩] := rfl
  rw [lost, kept] at schema
  contradiction

/-- The second rank does not get the scale of the numbers. -/
theorem distribute_loses_scale :
    (decimals (-2)).WellFormed ∧ (decimals (-2)).FixedWidth ∧
      ¬ ∃ local_table, Distributed (fun _ _ _ _ => false) false storingGpu 2
        (fun _ => decimals (-2)) local_table := by
  refine ⟨wellFormed_decimals (-2), fixedWidth_decimals (-2), ?_⟩
  rintro ⟨local_table, correct⟩
  have settles : Settles 2 (fun _ _ _ _ => false)
      (distributeProgram false storingGpu 2 fun _ => decimals (-2)) _ _ :=
    settles_distribute Nat.two_pos (fixedWidth_decimals (-2))
  have same := correct.returns.unique settles.returns Nat.one_lt_two
  have schema := correct.schema 1 Nat.one_lt_two
  rw [same] at schema
  have lost : (distributed storingGpu (decimals (-2)) 2 1).schema = [⟨.DECIMAL32, 0⟩] := rfl
  have kept : (decimals (-2)).schema = [⟨.DECIMAL32, -2⟩] := rfl
  rw [lost, kept] at schema
  contradiction

end DistributedJoin
