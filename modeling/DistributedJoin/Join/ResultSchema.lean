import DistributedJoin.Comm.DistributeCollect
import DistributedJoin.Join.JoinedRows

/-!
# The columns of the join result

The result of a rank should have the columns of the left tables followed by those of the
right ones. A local join of a table without rows has no columns at all, so the results have
their columns if and only if there are rows on both sides of every local join.
-/

namespace DistributedJoin

open Device Spmd

/-- The inner join of tables with rows has the columns of both. -/
def InnerJoin.KeepsColumns (inner_join : InnerJoin) : Prop :=
  ∀ left right left_on right_on, left.num_rows ≠ 0 → right.num_rows ≠ 0 →
    (inner_join left right left_on right_on).schema = left.schema ++ right.schema

/-- A concatenation has the columns of its tables. Tables without columns are not refused. -/
structure Concatenate.KeepsColumns (concatenate : Concatenate) : Prop where
  schema : ∀ tables schema result, tables ≠ [] → (∀ table ∈ tables, table.schema = schema) →
    concatenate tables = .ok result → result.schema = schema
  no_columns : ∀ tables, tables ≠ [] → (∀ table ∈ tables, table.schema = []) →
    ∃ result, concatenate tables = .ok result

/-- A local join has the columns of both tables, or none. -/
theorem schema_local_join_helper
    {inner_join : InnerJoin}
    (keeps : inner_join.KeepsColumns)
    (left right : Table)
    (left_on right_on : List Nat) :
    (local_join_helper inner_join left right left_on right_on).schema =
      if left.num_rows ≠ 0 ∧ right.num_rows ≠ 0 then left.schema ++ right.schema else [] := by
  unfold local_join_helper
  split
  · rename_i rows
    exact keeps left right left_on right_on rows.1 rows.2
  · rfl

instance decidable_forall_side {p : Side → Prop} [∀ side, Decidable (p side)] : Decidable (∀ side, p side) :=
  decidable_of_iff (p .left ∧ p .right)
    ⟨fun both side => by cases side with | left => exact both.1 | right => exact both.2,
      fun all => ⟨all .left, all .right⟩⟩

namespace JoinState

/-- The tables that the calls return have the given columns, all tables that a rank
concatenates have the same columns, and collecting the returned tables on the root, where
that is possible, takes as many sends as receives. -/
structure UniformSchema (n : Nat) (schema : List DataType) (state : JoinState) : Prop where
  returned : ∀ rank, rank < n → ∀ table, state.returned rank = some (.ok table) →
    table.schema = schema
  concatenated : ∀ rank, rank < n → ∀ first ∈ state.batch_join_results rank,
    ∀ second ∈ state.batch_join_results rank, first.schema = second.schema
  collected : ∀ table : Nat → Table,
    (∀ rank, rank < n → state.returned rank = some (.ok (table rank))) →
    (∀ dtype ∈ schema, dtype.id ≠ .STRING) → Allocatable n table →
    ∀ eager group_by_batch gpu, CollectsEvenly eager group_by_batch gpu n table

section

variable {cudf : Cudf} {n : Nat} {eager : Eagerness ranks} {left_on right_on : List Nat}
  {over_decom_factor : Nat} {program : Nat → Process ranks (Option Table)}
  {outcome : Nat → Option Table} {batches : Nat → Side → Nat → Table}
  {log : Nat → List (Event ranks)} {state : JoinState} {schema : List DataType}

/-- The results of the batches are local joins. -/
theorem Consistent.mem_all_local_joins
    (consistent : Consistent cudf n eager left_on right_on over_decom_factor program outcome
      batches state)
    {rank : Nat}
    (rankBound : rank < n)
    {table : Table}
    (member : table ∈ state.batch_join_results rank) :
    table ∈ all_local_joins cudf.inner_join left_on right_on over_decom_factor (batches rank)
      (outcome rank) := by
  obtain ⟨joined, bound, results⟩ := consistent.results rank rankBound
  rw [results] at member
  obtain ⟨ibatch, range, rfl⟩ := List.mem_map.mp member
  have ibatchBound := List.mem_range.mp range
  cases found : outcome rank with
  | some _ =>
      rw [found] at bound
      exact absurd (ibatchBound.trans_le bound) (Nat.not_lt_zero _)
  | none =>
      rw [found] at bound
      exact List.mem_map_of_mem (List.mem_range.mpr (ibatchBound.trans_le bound))

/-- What a call returns is its only local join or the concatenation of all of them. -/
theorem Consistent.returned_cases
    (consistent : Consistent cudf n eager left_on right_on over_decom_factor program outcome
      batches state)
    (delivers : state.Delivers cudf.concatenate over_decom_factor)
    {rank : Nat}
    (rankBound : rank < n)
    {result : Except String Table}
    (returned : state.returned rank = some result) :
    (∃ table, outcome rank = some table ∧ result = .ok table) ∨
      outcome rank = none ∧ result = cudf.concatenate (state.batch_join_results rank) ∧
        state.batch_join_results rank =
          all_local_joins cudf.inner_join left_on right_on over_decom_factor (batches rank)
            (outcome rank) := by
  have any : state.returned rank ≠ none := by
    rw [returned]
    exact Option.some_ne_none result
  have process := (consistent.returned rank rankBound any).1
  have joins := consistent.local_joins_eq rankBound any
  obtain ⟨ended, here, joined⟩ := delivers rank result returned
  obtain rfl : ended = outcome rank := Process.pure.inj (here.symm.trans process)
  rw [local_joins, process] at joins
  cases found : outcome rank with
  | some table =>
      rw [found] at joined
      exact .inl ⟨table, rfl, (Option.some.inj joined).symm⟩
  | none =>
      rw [found, join_result] at joined
      rw [found] at joins
      split at joined
      · exact .inr ⟨rfl, (Option.some.inj joined).symm, joins⟩
      · contradiction

/-- If all local joins have the same columns, so do the results. -/
theorem Consistent.uniformSchema
    (consistent : Consistent cudf n eager left_on right_on over_decom_factor program outcome
      batches state)
    (delivers : state.Delivers cudf.concatenate over_decom_factor)
    (keeps : cudf.concatenate.KeepsColumns)
    (positive : 0 < over_decom_factor)
    (columns : ∀ rank, rank < n → ∀ table ∈ all_local_joins cudf.inner_join left_on right_on
      over_decom_factor (batches rank) (outcome rank), table.schema = schema) :
    UniformSchema n schema state := by
  have returned_columns : ∀ rank, rank < n → ∀ table, state.returned rank = some (.ok table) →
      table.schema = schema := by
    intro rank rankBound table returned
    obtain ⟨_, found, result⟩ | ⟨found, result, joins⟩ :=
      consistent.returned_cases delivers rankBound returned
    · obtain rfl := Except.ok.inj result
      refine columns rank rankBound table ?_
      rw [found]
      exact List.mem_singleton_self table
    · rw [joins] at result
      refine keeps.schema _ schema table ?_ (columns rank rankBound) result.symm
      rw [found]
      exact fun none => absurd (List.map_eq_nil_iff.mp none)
        (List.range_eq_nil.not.mpr (Nat.ne_of_gt positive))
  constructor
  case returned => exact returned_columns
  case concatenated =>
    intro rank rankBound first firstMember second secondMember
    rw [columns rank rankBound first (consistent.mem_all_local_joins rankBound firstMember),
      columns rank rankBound second (consistent.mem_all_local_joins rankBound secondMember)]
  case collected =>
    intro table returned fixed allocatable eager group_by_batch gpu
    have schemas : ∀ rank, rank < n → (table rank).schema = schema := fun rank rankBound =>
      returned_columns rank rankBound _ (returned rank rankBound)
    rcases Nat.eq_zero_or_pos n with rfl | n_pos
    · exact fun _ _ _ _ _ workerBound => absurd workerBound (Nat.not_lt_zero _)
    · exact collects_evenly eager group_by_batch gpu {
        same_schema := fun rank rankBound => (schemas rank rankBound).trans (schemas 0 n_pos).symm
        fixed := fun dtype member => fixed dtype (schemas 0 n_pos ▸ member) } allocatable

/-- If the results have their columns in all states, so have all local joins. -/
theorem Ends.columns_of_uniformSchema
    (ends : Ends n eager program over_decom_factor outcome batches log)
    (keeps : cudf.concatenate.KeepsColumns)
    (either : ∀ rank, rank < n → ∀ table ∈ all_local_joins cudf.inner_join left_on right_on
      over_decom_factor (batches rank) (outcome rank), table.schema = schema ∨ table.schema = [])
    (uniform : ∀ state, Reaches (step cudf n eager left_on right_on over_decom_factor)
      (start program) state → UniformSchema n schema state)
    {rank : Nat}
    (rankBound : rank < n)
    {table : Table}
    (member : table ∈ all_local_joins cudf.inner_join left_on right_on over_decom_factor
      (batches rank) (outcome rank)) :
    table.schema = schema := by
  obtain ⟨finish, reached, returned⟩ := ends.reaches_returned (.refl (start program))
  have consistent : Consistent cudf n eager left_on right_on over_decom_factor program outcome
      batches finish := ends.consistent reached
  have delivers : finish.Delivers cudf.concatenate over_decom_factor := delivers_of_reaches reached
  obtain ⟨result, here⟩ := Option.ne_none_iff_exists'.mp (returned rank rankBound)
  obtain ⟨only, found, rfl⟩ | ⟨found, rfl, joins⟩ :=
    consistent.returned_cases delivers rankBound here
  · rw [found] at member
    obtain rfl := List.mem_singleton.mp member
    exact (uniform finish reached).returned rank rankBound table here
  · rcases either rank rankBound table member with whole | empty
    · exact whole
    · -- all tables are empty, and so is their concatenation
      have empties : ∀ other ∈ finish.batch_join_results rank, other.schema = [] := by
        intro other otherMember
        rw [(uniform finish reached).concatenated rank rankBound other otherMember table
          (joins ▸ member), empty]
      have nonempty : finish.batch_join_results rank ≠ [] := List.ne_nil_of_mem (joins ▸ member)
      obtain ⟨merged, concatenated⟩ := keeps.no_columns _ nonempty empties
      rw [concatenated] at here
      rw [empty, ← (uniform finish reached).returned rank rankBound merged here]
      exact (keeps.schema _ [] merged nonempty empties concatenated).symm

/-- Columns are told from what the calls have returned and joined. -/
theorem Interrupts.uniformSchema
    {whole : JoinState}
    (interrupts : state.Interrupts n whole)
    (uniform : UniformSchema n schema whole) :
    UniformSchema n schema state := by
  constructor
  · rw [interrupts.returned]
    exact uniform.returned
  · rw [interrupts.batch_join_results]
    exact uniform.concatenated
  · rw [interrupts.returned]
    exact uniform.collected

end

end JoinState

namespace JoinCall

variable {n : Nat} {join : JoinCall n}

/-- The columns that the results should have. -/
def result_schema (join : JoinCall n) : List DataType :=
  (join.input .left).schema ++ (join.input .right).schema

section LocalJoins

variable {cudf : Cudf} (gpu : Gpu) (kept : join.BatchesKept cudf.hash_partition)

/-- The tables of a local join. -/
def joined_table (rank ibatch : Nat) (side : Side) : Table :=
  if join.nvlink_partition_size = 1 then (join.input side).table rank
  else received_batches gpu kept rank side ibatch

/-- In every local join there are rows on both sides. -/
def JoinsRows : Prop :=
  ∀ rank, rank < n → ∀ ibatch, ibatch < join.over_decom_factor → ∀ side,
    (joined_table gpu kept rank ibatch side).num_rows ≠ 0

theorem schema_joined_table
    {rank : Nat}
    (rankBound : rank < n)
    (ibatch : Nat)
    (side : Side) :
    (joined_table gpu kept rank ibatch side).schema = (join.input side).schema := by
  unfold joined_table
  split
  · exact (join.input side).same_schema rank rankBound
  · exact (batch kept side ibatch).schema_communicated gpu rankBound

/-- All local joins of a rank. -/
theorem mem_all_local_joins_iff
    (rank : Nat)
    (table : Table) :
    table ∈ JoinState.all_local_joins cudf.inner_join (join.input .left).on_columns
        (join.input .right).on_columns join.over_decom_factor (received_batches gpu kept rank)
        (join.outcome cudf rank) ↔
      ∃ ibatch, ibatch < join.over_decom_factor ∧
        local_join_helper cudf.inner_join (joined_table gpu kept rank ibatch .left)
          (joined_table gpu kept rank ibatch .right) (join.input .left).on_columns
          (join.input .right).on_columns = table := by
  unfold outcome joined_table
  split
  · rw [JoinState.all_local_joins, List.mem_singleton]
    constructor
    · exact fun same => ⟨0, join.over_decom_factor_pos, same.symm⟩
    · rintro ⟨_, _, same⟩
      exact same.symm
  · simp only [JoinState.all_local_joins, List.mem_map, List.mem_range]
    rfl

/-- The local joins have the columns of both sides if and only if there are rows on both
sides of each of them, or no columns at all. -/
theorem local_joins_columns_iff (keeps : cudf.inner_join.KeepsColumns) :
    (∀ rank, rank < n → ∀ table ∈ JoinState.all_local_joins cudf.inner_join
        (join.input .left).on_columns (join.input .right).on_columns join.over_decom_factor
        (received_batches gpu kept rank) (join.outcome cudf rank),
          table.schema = join.result_schema) ↔
      join.result_schema = [] ∨ JoinsRows gpu kept := by
  have columns : ∀ rank, rank < n → ∀ ibatch,
      (local_join_helper cudf.inner_join (joined_table gpu kept rank ibatch .left)
          (joined_table gpu kept rank ibatch .right) (join.input .left).on_columns
          (join.input .right).on_columns).schema =
        if (joined_table gpu kept rank ibatch .left).num_rows ≠ 0 ∧
            (joined_table gpu kept rank ibatch .right).num_rows ≠ 0 then join.result_schema
        else [] := by
    intro rank rankBound ibatch
    rw [schema_local_join_helper keeps, schema_joined_table gpu kept rankBound,
      schema_joined_table gpu kept rankBound]
    rfl
  constructor
  · intro whole
    refine or_iff_not_imp_left.mpr fun nonempty rank rankBound ibatch ibatchBound side => ?_
    have schema := whole rank rankBound _
      ((mem_all_local_joins_iff gpu kept rank _).mpr ⟨ibatch, ibatchBound, rfl⟩)
    rw [columns rank rankBound] at schema
    split at schema
    · rename_i rows
      cases side with
      | left => exact rows.1
      | right => exact rows.2
    · exact absurd schema.symm nonempty
  · rintro condition rank rankBound table member
    obtain ⟨ibatch, ibatchBound, rfl⟩ := (mem_all_local_joins_iff gpu kept rank table).mp member
    rw [columns rank rankBound]
    rcases condition with empty | rows
    · rw [empty, ite_self]
    · have both := rows rank rankBound ibatch ibatchBound
      exact if_pos ⟨both .left, both .right⟩

theorem local_joins_columns_or_nil
    (keeps : cudf.inner_join.KeepsColumns)
    {rank : Nat}
    (rankBound : rank < n)
    {table : Table}
    (member : table ∈ JoinState.all_local_joins cudf.inner_join (join.input .left).on_columns
      (join.input .right).on_columns join.over_decom_factor (received_batches gpu kept rank)
      (join.outcome cudf rank)) :
    table.schema = join.result_schema ∨ table.schema = [] := by
  obtain ⟨ibatch, _, rfl⟩ := (mem_all_local_joins_iff gpu kept rank table).mp member
  rw [schema_local_join_helper keeps, schema_joined_table gpu kept rankBound,
    schema_joined_table gpu kept rankBound]
  split
  · exact .inl rfl
  · exact .inr rfl

end LocalJoins

/-- Whether a row is to be joined on a rank, in a batch. -/
def Meets
    (join : JoinCall n)
    (hash : HashId → Nat → List Cell → Nat)
    (rank ibatch : Nat)
    (side : Side)
    (row : Row) : Prop :=
  join.domain hash side row = rank / join.nvlink_partition_size ∧
    (join.nvlink_partition_size ≠ 1 → join.partition hash side row =
      ibatch * join.nvlink_partition_size + rank % join.nvlink_partition_size)

instance
    (hash : HashId → Nat → List Cell → Nat)
    (rank ibatch : Nat)
    (side : Side)
    (row : Row) :
    Decidable (join.Meets hash rank ibatch side row) :=
  inferInstanceAs (Decidable (_ ∧ _))

/-- On every rank, rows of both sides are to be joined in every batch. -/
def MeetsRows (join : JoinCall n) (hash : HashId → Nat → List Cell → Nat) : Prop :=
  ∀ rank, rank < n → ∀ ibatch, ibatch < join.over_decom_factor → ∀ side,
    ∃ row ∈ (join.input side).all_rows, join.Meets hash rank ibatch side row

instance (hash : HashId → Nat → List Cell → Nat) : Decidable (join.MeetsRows hash) :=
  inferInstanceAs (Decidable (∀ rank, rank < n → ∀ ibatch, ibatch < join.over_decom_factor →
    ∀ side, ∃ row ∈ (join.input side).all_rows, join.Meets hash rank ibatch side row))

/-- On every rank, rows of both sides are to be joined in every batch, and their number does
not vanish as a `cudf::size_type`. -/
def MeetsCounted (join : JoinCall n) (hash : HashId → Nat → List Cell → Nat) : Prop :=
  ∀ rank, rank < n → ∀ ibatch, ibatch < join.over_decom_factor → ∀ side,
    toSizeType ((join.input side).all_rows.filter fun row =>
      join.Meets hash rank ibatch side row).length ≠ 0

instance (hash : HashId → Nat → List Cell → Nat) : Decidable (join.MeetsCounted hash) :=
  inferInstanceAs (Decidable (∀ rank, rank < n → ∀ ibatch, ibatch < join.over_decom_factor →
    ∀ side, toSizeType ((join.input side).all_rows.filter fun row =>
      join.Meets hash rank ibatch side row).length ≠ 0))

section Destinations

variable {hash : HashId → Nat → List Cell → Nat} {rank ibatch : Nat}

/-- If every domain is one rank, rows meet on the rank of their domain. -/
theorem filter_meets_alone
    (alone : join.nvlink_partition_size = 1)
    (side : Side) :
    ((join.input side).all_rows.filter fun row => join.Meets hash rank ibatch side row) =
      (join.input side).all_rows.filter fun row => join.domain hash side row = rank := by
  refine List.filter_congr fun row _ => decide_eq_decide.mpr ?_
  rw [Meets, alone, Nat.div_one]
  exact and_iff_left fun several => absurd rfl several

/-- If domains have several ranks, rows meet where they are sent in batches. -/
theorem filter_meets_batch
    (several : join.nvlink_partition_size ≠ 1)
    (side : Side) :
    ((join.input side).all_rows.filter fun row => join.Meets hash rank ibatch side row) =
      join.batch_rows hash side rank ibatch := by
  refine List.filter_congr fun row _ => decide_eq_decide.mpr ?_
  rw [Meets, forall_prop_of_true several]

variable {cudf : Cudf} (gpu : Gpu) {input : Side → JoinTable n}

/-- A local join is given the rows that are to be joined there. -/
theorem KeysExchanged.num_rows_joined_table
    (exchanged : join.KeysExchanged hash input)
    (partitions : cudf.hash_partition.Partitions hash)
    (rankBound : rank < n)
    (ibatchBound : ibatch < join.over_decom_factor)
    (side : Side) :
    (joined_table gpu (exchanged.kept partitions) rank ibatch side).num_rows =
      toSizeType ((join.input side).all_rows.filter fun row =>
        join.Meets hash rank ibatch side row).length := by
  unfold joined_table
  by_cases alone : join.nvlink_partition_size = 1
  · have sound := exchanged.domains.sound side rank rankBound
    rw [filter_meets_alone alone, ← exchanged.domains.num_rows_alone alone side rankBound,
      toSizeType_eq sound.num_rows_nonneg sound.num_rows_lt]
    exact congrArg Table.num_rows (if_pos alone)
  · have whole : (batch (exchanged.kept partitions) side ibatch).Whole :=
      whole_batch exchanged.domains.sound partitions side ibatchBound
    rw [filter_meets_batch alone, ← exchanged.received_rows_batch partitions side rankBound
      ibatchBound, ← whole.num_rows_communicated gpu rankBound]
    exact congrArg Table.num_rows (if_neg alone)

/-- For plain tables it can be told from the hash values of the keys alone whether there are
rows in all local joins. -/
theorem Exchanged.joinsRows_iff
    (exchanged : join.Exchanged hash input)
    (partitions : cudf.hash_partition.Partitions hash)
    (countable : join.Countable hash) :
    JoinsRows gpu (exchanged.kept partitions) ↔ join.MeetsRows hash := by
  refine forall₂_congr fun rank rankBound => forall₂_congr fun ibatch ibatchBound =>
    forall_congr' fun side => ?_
  have small : (((join.input side).all_rows.filter fun row =>
      join.Meets hash rank ibatch side row).length : Int) < 2 ^ 31 := by
    by_cases alone : join.nvlink_partition_size = 1
    · rw [filter_meets_alone alone,
        ← exchanged.keysExchanged.domains.num_rows_alone alone side rankBound]
      exact (exchanged.domains.sound side rank rankBound).num_rows_lt
    · rw [filter_meets_batch alone]
      exact_mod_cast countable.batches alone side rank rankBound ibatch ibatchBound
  rw [exchanged.keysExchanged.num_rows_joined_table gpu partitions rankBound ibatchBound,
    toSizeType_eq (Int.natCast_nonneg _) small, Int.natCast_ne_zero, ← Nat.pos_iff_ne_zero,
    List.length_filter_pos_iff]
  simp only [decide_eq_true_eq]

end Destinations

/-- The shuffle keeps the key columns and the columns of the tables. -/
theorem exchanged_input_kept
    {hash_partition : HashPartition}
    (kept : join.ShuffleKept hash_partition)
    (gpu : Gpu)
    (side : Side) :
    (join.exchanged_input kept gpu side).on_columns = (join.input side).on_columns ∧
      (join.exchanged_input kept gpu side).schema = (join.input side).schema := by
  unfold exchanged_input
  split
  · exact ⟨rfl, rfl⟩
  · exact ⟨rfl, rfl⟩

/-- When the results have their columns in all states, if it is known how the call ends. -/
theorem uniformSchema_iff
    {cudf : Cudf}
    {gpu : Gpu}
    {eager : Eagerness ranks}
    {program : Nat → Process ranks (Option Table)}
    {log : Nat → List (Event ranks)}
    {kept : join.BatchesKept cudf.hash_partition}
    (ends : JoinState.Ends n eager program join.over_decom_factor (join.outcome cudf)
      (received_batches gpu kept) log)
    (joins : cudf.inner_join.KeepsColumns)
    (concatenates : cudf.concatenate.KeepsColumns) :
    (∀ state, Reaches (JoinState.step cudf n eager (join.input .left).on_columns
        (join.input .right).on_columns join.over_decom_factor) (.start program) state →
      state.UniformSchema n join.result_schema) ↔
      join.result_schema = [] ∨ JoinsRows gpu kept := by
  rw [← local_joins_columns_iff gpu kept joins]
  constructor
  · intro uniform rank rankBound table member
    exact ends.columns_of_uniformSchema concatenates
      (fun _ otherBound _ => local_joins_columns_or_nil gpu kept joins otherBound) uniform
      rankBound member
  · intro columns state reached
    have consistent : JoinState.Consistent cudf n eager _ _ _ _ _ _ state :=
      ends.consistent reached
    exact consistent.uniformSchema (JoinState.delivers_of_reaches reached) concatenates
      join.over_decom_factor_pos columns

section AfterShuffle

variable {hash : HashId → Nat → List Cell → Nat} {cudf : Cudf}

/-- The keys of the shuffled tables are known: every rank can count what it is sent, and if
they are partitioned again, no key is null. -/
structure KeysKnown {hash_partition : HashPartition} (kept : join.ShuffleKept hash_partition) :
    Prop where
  fits : join.nvlink_partition_size ≠ n → ∀ side rank, rank < n → (shuffle kept side).Fits rank
  non_null : join.nvlink_partition_size ≠ n → join.nvlink_partition_size ≠ 1 →
    ∀ side rank, rank < n → ∀ row ∈ ((join.input side).table rank).rows,
      none ∉ keyOf (join.input side).on_columns row

variable (sound : ∀ side rank, rank < n → ((join.input side).table rank).Sound)
  (partitions : cudf.hash_partition.Partitions hash)
  (supported : join.nvlink_partition_size ≠ n →
    ∀ side, (shuffle (shuffleKept sound partitions) side).Supported)
  (known : KeysKnown (shuffleKept sound partitions)) (gpu : Gpu)
include sound partitions supported known

theorem sound_exchanged_input
    (side : Side)
    {rank : Nat}
    (rankBound : rank < n) :
    ((join.exchanged_input (shuffleKept sound partitions) gpu side).table rank).Sound := by
  unfold exchanged_input
  split
  · exact sound side rank rankBound
  · rename_i domains
    exact sound_shuffle sound partitions gpu (supported domains) (known.fits domains) side
      rankBound

/-- The tables after the shuffle are partitioned for the batches. -/
theorem batchesKept_after_shuffle :
    (join.after_shuffle (shuffleKept sound partitions) gpu).BatchesKept cudf.hash_partition :=
  batchesKept (fun side _ rankBound =>
    sound_exchanged_input sound partitions supported known gpu side rankBound) partitions

theorem keysExchanged_exchanged_input
    (either : join.nvlink_partition_size = n ∨ join.nvlink_partition_size ≠ 1) :
    join.KeysExchanged hash (join.exchanged_input (shuffleKept sound partitions) gpu) := by
  unfold exchanged_input
  split
  · rename_i single
    exact ⟨fun _ => rfl, fun _ => rfl, keyDomains_of_eq single sound⟩
  · rename_i domains
    have several := either.resolve_left domains
    exact ⟨fun _ => rfl, fun _ => rfl, keyDomains_of_ne sound partitions gpu (supported domains)
      (known.fits domains) (known.non_null domains several)⟩

/-- A local join is given the rows that are to be joined there, with or without a shuffle. -/
theorem num_rows_joined_table_after_shuffle
    (kept : (join.after_shuffle (shuffleKept sound partitions) gpu).BatchesKept
      cudf.hash_partition)
    {rank ibatch : Nat}
    (rankBound : rank < n)
    (ibatchBound : ibatch < join.over_decom_factor)
    (side : Side) :
    (joined_table gpu kept rank ibatch side).num_rows =
      toSizeType ((join.input side).all_rows.filter fun row =>
        join.Meets hash rank ibatch side row).length := by
  by_cases either : join.nvlink_partition_size = n ∨ join.nvlink_partition_size ≠ 1
  · exact (keysExchanged_exchanged_input sound partitions supported known gpu either
      ).num_rows_joined_table gpu partitions rankBound ibatchBound side
  · -- what a domain of one rank is sent in the shuffle is joined at once
    have alone : join.nvlink_partition_size = 1 := by
      by_contra several
      exact either (.inr several)
    have domains : join.nvlink_partition_size ≠ n := fun single => either (.inl single)
    have whole : (shuffle (shuffleKept sound partitions) side).Whole :=
      (partitioned_shuffle sound partitions side).whole
    have joined : joined_table gpu kept rank ibatch side =
        (shuffle (shuffleKept sound partitions) side).communicated gpu rank := by
      refine (if_pos alone).trans ?_
      change (join.exchanged_input _ gpu side).table rank = _
      rw [exchanged_input, if_neg domains]
      rfl
    have sent : (join.shuffled_rows hash side rank : Multiset Row) =
        ((join.input side).all_rows : Multiset Row).filter
          fun row => join.domain hash side row = rank := shuffled_rows_alone alone side rankBound
    have count := congrArg Multiset.card sent
    rw [Multiset.coe_card, Multiset.filter_coe, Multiset.coe_card] at count
    rw [joined, whole.num_rows_communicated gpu rankBound,
      received_rows_shuffle sound partitions side rankBound, filter_meets_alone alone, count]

/-- Whether there are rows in all local joins can be told from the keys and their hash values. -/
theorem joinsRows_after_shuffle_iff
    (kept : (join.after_shuffle (shuffleKept sound partitions) gpu).BatchesKept
      cudf.hash_partition) :
    JoinsRows gpu kept ↔ join.MeetsCounted hash :=
  forall₂_congr fun _ rankBound => forall₂_congr fun _ ibatchBound => forall_congr' fun side => by
    rw [num_rows_joined_table_after_shuffle sound partitions supported known gpu kept rankBound
      ibatchBound side]

/-- When the results have their columns in all states, told from the keys and their hash
values, if it is known how the call ends. -/
theorem uniformSchema_iff_counted
    {eager : Eagerness ranks}
    {program : Nat → Process ranks (Option Table)}
    {kept : (join.after_shuffle (shuffleKept sound partitions) gpu).BatchesKept
      cudf.hash_partition}
    (joins : cudf.inner_join.KeepsColumns)
    (concatenates : cudf.concatenate.KeepsColumns)
    (ends : ∃ log, JoinState.Ends n eager program join.over_decom_factor
      ((join.after_shuffle (shuffleKept sound partitions) gpu).outcome cudf)
      (received_batches gpu kept) log) :
    (∀ state, Reaches (join.step cudf eager) (.start program) state →
        state.UniformSchema n join.result_schema) ↔
      join.result_schema = [] ∨ join.MeetsCounted hash := by
  let later := join.after_shuffle (shuffleKept sound partitions) gpu
  have same : ∀ side, (later.input side).on_columns = (join.input side).on_columns ∧
      (later.input side).schema = (join.input side).schema :=
    exchanged_input_kept (shuffleKept sound partitions) gpu
  have schema : later.result_schema = join.result_schema := by
    rw [result_schema, result_schema, (same .left).2, (same .right).2]
  obtain ⟨log, ends⟩ := ends
  have uniform := later.uniformSchema_iff ends joins concatenates
  rw [schema, (same .left).1, (same .right).1,
    joinsRows_after_shuffle_iff sound partitions supported known] at uniform
  exact uniform

end AfterShuffle

end JoinCall

/-- Combining rows keeps the columns. -/
theorem keepsColumns_nested_loop_join : InnerJoin.KeepsColumns nested_loop_join :=
  fun _ _ _ _ _ _ => Table.schema_ofRows _ _

/-- Tables with the same columns are not refused. -/
theorem concatenate_rows_eq
    {first : Table}
    {rest : List Table}
    (same : ∀ table ∈ rest, table.schema = first.schema) :
    concatenate_rows (first :: rest) =
      .ok (Table.ofRows first.schema ((first :: rest).flatMap Table.rows)) := by
  have lengths : ¬ (rest.any fun table => table.length ≠ first.length) = true := by
    rw [List.any_eq_true]
    rintro ⟨table, member, different⟩
    exact of_decide_eq_true different (Table.length_eq_of_schema (same table member))
  have types : ¬ (rest.any fun table => table.schema ≠ first.schema) = true := by
    rw [List.any_eq_true]
    rintro ⟨table, member, different⟩
    exact of_decide_eq_true different (same table member)
  exact (if_neg lengths).trans (if_neg types)

/-- Appending rows keeps the columns. -/
theorem keepsColumns_concatenate_rows : Concatenate.KeepsColumns concatenate_rows := by
  have equal : ∀ {first : Table} {rest : List Table} {schema : List DataType},
      (∀ table ∈ first :: rest, table.schema = schema) →
        ∀ table ∈ rest, table.schema = first.schema := fun columns table member =>
    (columns table (List.mem_cons_of_mem _ member)).trans
      (columns _ List.mem_cons_self).symm
  constructor
  case schema =>
    intro tables schema result nonempty columns concatenated
    obtain ⟨first, rest, rfl⟩ := List.exists_cons_of_ne_nil nonempty
    rw [concatenate_rows_eq (equal columns)] at concatenated
    rw [← Except.ok.inj concatenated, Table.schema_ofRows]
    exact columns first List.mem_cons_self
  case no_columns =>
    intro tables nonempty columns
    obtain ⟨first, rest, rfl⟩ := List.exists_cons_of_ne_nil nonempty
    exact ⟨_, concatenate_rows_eq (equal columns)⟩

/-- The sum of the bytes of a key, or a quarter of it when NVLink domains exchange rows. -/
def sumOrQuarter (hash_function : HashId) (hash_seed : Nat) (key : List Cell) : Nat :=
  if hash_seed = hash_partition_seed_ib then sumOfBytes hash_function hash_seed key / 4
  else sumOfBytes hash_function hash_seed key

/-- Two keys of a rank, with a word and without one. -/
def keysWithWords (rank : Nat) : List Row :=
  [[some [(2 * rank).toUInt8], some [97, 98]], [some [(2 * rank + 1).toUInt8], none]]

theorem rowsFit_keysWithWords (rank : Nat) :
    Table.RowsFit [⟨.INT8, 0⟩, ⟨.STRING, 0⟩] (keysWithWords rank) where
  cells := by
    intro icol icolBound
    match icol, icolBound with
    | 0, _ =>
        exact {
          count := show 2 < 2 ^ 31 by decide
          width := fun _ bytes member => by
            simp only [keysWithWords, List.map_cons, List.map_nil, List.getD_cons_zero,
              List.mem_cons, Option.some.injEq, List.not_mem_nil, or_false] at member
            rcases member with rfl | rfl <;> rfl
          chars := fun string => TypeId.noConfusion string }
    | 1, _ =>
        exact {
          count := show 2 < 2 ^ 31 by decide
          width := fun fixed => absurd rfl fixed
          chars := fun _ => show 2 < 2 ^ 31 by decide }
  width := by simp [keysWithWords]
  empty := fun none => absurd none (List.cons_ne_nil _ _)

/-- Four ranks of two NVLink domains that join keys with words in two batches. -/
def wordsJoin : JoinCall 4 where
  n_pos := four_ranks_pos
  input := fun _ => {
    schema := [⟨.INT8, 0⟩, ⟨.STRING, 0⟩]
    table := fun rank => .ofRows [⟨.INT8, 0⟩, ⟨.STRING, 0⟩] (keysWithWords rank)
    same_schema := fun _ _ => Table.schema_ofRows _ _
    on_columns := [0]
    options := [] }
  group_by_batch := false
  over_decom_factor := 2
  over_decom_factor_pos := Nat.two_pos
  nvlink_domain_size := 2

theorem get_nvl_partition_size_four_two : get_nvl_partition_size 4 2 = 2 := by
  have root : ceil_sqrt 4 = 2 := by
    rw [ceil_sqrt, show Nat.sqrt 4 = 2 from Nat.sqrt_eq 2]
    rfl
  rw [get_nvl_partition_size, if_neg (by decide), root]
  rfl

theorem several_domains_wordsJoin : wordsJoin.nvlink_partition_size ≠ 4 := by
  have size : wordsJoin.nvlink_partition_size = 2 := get_nvl_partition_size_four_two
  rw [size]
  decide

theorem sound_wordsJoin (side : Side) (rank : Nat) :
    rank < 4 → ((wordsJoin.input side).table rank).Sound :=
  fun _ => Table.sound_ofRows (rowsFit_keysWithWords rank)

theorem partitions_wordsJoin :
    (cudf_by_rows sumOrQuarter).hash_partition.Partitions sumOrQuarter :=
  partitions_sorted_by_hash sumOrQuarter

/-- The partitions of the shuffle of words. -/
theorem shuffleKept_wordsJoin : wordsJoin.ShuffleKept (cudf_by_rows sumOrQuarter).hash_partition :=
  JoinCall.shuffleKept sound_wordsJoin partitions_wordsJoin

theorem supported_wordsJoin (side : Side) :
    (JoinCall.shuffle shuffleKept_wordsJoin side).Supported :=
  (Redistribution.uncompressed_of_no_options rfl).supported

theorem keysKnown_wordsJoin : JoinCall.KeysKnown shuffleKept_wordsJoin where
  fits := by
    intro _ side rank rankBound
    have rows : ∀ rank, rank < 4 →
        (JoinCall.shuffle shuffleKept_wordsJoin .left).received_rows rank + 1 < 2 ^ 31 := by
      decide +kernel
    have chars : ∀ rank, rank < 4 →
        (JoinCall.shuffle shuffleKept_wordsJoin .left).received_chars 1 rank < 2 ^ 31 := by
      decide +kernel
    have same : JoinCall.shuffle shuffleKept_wordsJoin side =
        JoinCall.shuffle shuffleKept_wordsJoin .left := rfl
    rw [same]
    exact {
      rows := (Int.lt_succ _).trans (rows rank rankBound)
      offsets := fun _ _ _ => rows rank rankBound
      chars := fun icol icolBound string => by
        match icol, icolBound with
        | 0, _ => exact TypeId.noConfusion string
        | 1, _ => exact chars rank rankBound }
  non_null := by
    intro _ _ side
    exact show ∀ rank, rank < 4 → ∀ row ∈ (Table.ofRows _ (keysWithWords rank)).rows,
      none ∉ keyOf [0] row by decide +kernel

theorem batchesKept_wordsJoin :
    (JoinCall.shuffled shuffleKept_wordsJoin storingGpu).BatchesKept
      (cudf_by_rows sumOrQuarter).hash_partition :=
  JoinCall.batchesKept
    (fun side _ rankBound => JoinCall.sound_shuffle sound_wordsJoin
      partitions_wordsJoin storingGpu supported_wordsJoin
      (keysKnown_wordsJoin.fits several_domains_wordsJoin) side rankBound)
    partitions_wordsJoin

/-- All columns can be created. -/
theorem allocates_wordsJoin :
    wordsJoin.Allocates (cudf_by_rows sumOrQuarter) storingGpu := by
  have shuffled : JoinCall.ShuffleAllocates shuffleKept_wordsJoin := fun side =>
    (JoinCall.partitioned_shuffle sound_wordsJoin partitions_wordsJoin
      side).whole.toSound.allocates fun _ rankBound =>
        keysKnown_wordsJoin.fits several_domains_wordsJoin side _ rankBound
  have sizes : ∀ ibatch, ibatch < 2 → ∀ rank, rank < 4 →
      ¬ (JoinCall.batch batchesKept_wordsJoin .left ibatch).NegativeSize rank := by
    decide +kernel
  rw [JoinCall.Allocates, if_neg several_domains_wordsJoin]
  refine fun _ => ⟨shuffled, fun _ _ side ibatch ibatchBound => ?_⟩
  have same : JoinCall.batch batchesKept_wordsJoin side ibatch =
      JoinCall.batch batchesKept_wordsJoin .left ibatch := rfl
  have allocates := (Redistribution.allocates_iff _).mpr (sizes ibatch ibatchBound)
  rw [← same] at allocates
  exact allocates

/-- Two ranks that join bytes, with a single key in the right tables. -/
def singleKeyJoin : JoinCall 2 :=
  bytesJoin 2 Nat.two_pos fun side _ =>
    match side with
    | .left => [0, 1, 2, 3]
    | .right => [1]

end DistributedJoin
