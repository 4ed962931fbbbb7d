import DistributedJoin.Join.Destinations

/-!
# The rows of the join

Every pair of rows that match meets on one rank, in one batch. So the local joins of all
ranks together are the join of the tables of all ranks, in whatever order the threads run.
-/

namespace DistributedJoin

open Device Spmd

/-- The inner join of rows whose keys match. -/
def joined_rows
    (matching : List Cell → List Cell → Bool)
    (left_on right_on : List Nat)
    (left right : List Row) : Multiset Row :=
  Relational.join (fun row other => matching (keyOf left_on row) (keyOf right_on other))
    (fun row other => row ++ other) left right

/-- All calls on tables with rows return the inner join. -/
def InnerJoin.Joins
    (inner_join : InnerJoin)
    (matching : List Cell → List Cell → Bool) : Prop :=
  ∀ left right left_on right_on, left.Sound → right.Sound →
    left.num_rows ≠ 0 → right.num_rows ≠ 0 →
      ((inner_join left right left_on right_on).rows : Multiset Row) =
        joined_rows matching left_on right_on left.rows right.rows

/-- Keys that match have the same hash values. -/
def HashesMatch
    (hash : HashId → Nat → List Cell → Nat)
    (matching : List Cell → List Cell → Bool) : Prop :=
  ∀ left right, matching left right = true → ∀ hash_function hash_seed,
    hash hash_function hash_seed left = hash hash_function hash_seed right

/-- A local join is the inner join, also of tables without rows. -/
theorem rows_local_join_helper
    {inner_join : InnerJoin}
    {matching : List Cell → List Cell → Bool}
    (joins : inner_join.Joins matching)
    {left right : Table}
    (left_sound : left.Sound)
    (right_sound : right.Sound)
    (left_on right_on : List Nat) :
    ((local_join_helper inner_join left right left_on right_on).rows : Multiset Row) =
      joined_rows matching left_on right_on left.rows right.rows := by
  have no_rows : ∀ table : Table, table.num_rows = 0 → table.rows = [] := fun table none =>
    List.eq_nil_of_length_eq_zero (by rw [Table.length_rows, none]; rfl)
  unfold local_join_helper
  split
  · rename_i rows
    exact joins left right left_on right_on left_sound right_sound rows.1 rows.2
  · rename_i missing
    have nothing : ((Table.rows [] : List Row) : Multiset Row) = 0 := rfl
    rw [nothing]
    rcases Classical.not_and_iff_not_or_not.mp missing with left_none | right_none
    · rw [joined_rows, no_rows left (not_not.mp left_none)]
      exact (Relational.join_zero_left _).symm
    · rw [joined_rows, no_rows right (not_not.mp right_none)]
      exact (Relational.join_zero_right _).symm

namespace JoinCall

variable {n : Nat} {join : JoinCall n} {hash : HashId → Nat → List Cell → Nat}

/-- The rank and the batch in which a row is joined. -/
def place (join : JoinCall n) (hash : HashId → Nat → List Cell → Nat) (side : Side) (row : Row) :
    Nat × Nat :=
  (join.domain hash side row * join.nvlink_partition_size +
      join.partition hash side row % join.nvlink_partition_size,
    join.partition hash side row / join.nvlink_partition_size)

theorem place_eq_iff (side : Side) (row : Row) (rank ibatch : Nat) :
    join.place hash side row = (rank, ibatch) ↔
      join.domain hash side row = rank / join.nvlink_partition_size ∧
        join.partition hash side row =
          ibatch * join.nvlink_partition_size + rank % join.nvlink_partition_size := by
  have positive := join.nvlink_partition_size_pos
  rw [place, Prod.mk.injEq]
  generalize join.domain hash side row = domain
  generalize join.partition hash side row = partition
  generalize join.nvlink_partition_size = size at positive ⊢
  constructor
  · rintro ⟨rfl, rfl⟩
    have place := Nat.mod_lt partition positive
    rw [Nat.mul_comm domain, Nat.mul_add_div positive, Nat.div_eq_of_lt place, Nat.add_zero,
      Nat.mul_add_mod, Nat.mod_mod]
    exact ⟨rfl, (Nat.div_add_mod' partition size).symm⟩
  · rintro ⟨rfl, rfl⟩
    have place := Nat.mod_lt rank positive
    rw [Nat.mul_comm ibatch, Nat.mul_add_mod, Nat.mod_mod, Nat.mul_add_div positive,
      Nat.div_eq_of_lt place, Nat.add_zero]
    exact ⟨Nat.div_add_mod' rank size, rfl⟩

theorem domain_row_lt (side : Side) (row : Row) :
    join.domain hash side row < n / join.nvlink_partition_size :=
  Nat.mod_lt _ join.infiniband.group_size_pos

/-- Every row is joined on one of the ranks, in one of the batches. -/
theorem place_mem (side : Side) (row : Row) :
    join.place hash side row ∈
      Finset.range n ×ˢ Finset.range join.over_decom_factor := by
  refine Finset.mem_product.mpr ⟨Finset.mem_range.mpr ?_, Finset.mem_range.mpr ?_⟩
  · have domainBound : join.domain hash side row < n / join.nvlink_partition_size :=
      domain_row_lt side row
    have next := Nat.mul_le_mul_right join.nvlink_partition_size (Nat.succ_le_of_lt domainBound)
    rw [Nat.succ_mul, Nat.div_mul_cancel join.nvlink_partition_size_dvd] at next
    have position := Nat.mod_lt (join.partition hash side row) join.nvlink_partition_size_pos
    exact (Nat.add_lt_add_left position _).trans_le next
  · exact Nat.div_lt_of_lt_mul (Nat.mod_lt _ join.num_partitions_pos)

/-- Rows that match are joined in the same place. -/
theorem place_eq_of_matching
    {matching : List Cell → List Cell → Bool}
    (hashes : HashesMatch hash matching)
    {row other : Row}
    (found : matching (keyOf (join.input .left).on_columns row)
      (keyOf (join.input .right).on_columns other) = true) :
    join.domain hash .left row = join.domain hash .right other ∧
      join.place hash .left row = join.place hash .right other := by
  have domains : join.domain hash .left row = join.domain hash .right other :=
    congrArg (· % join.infiniband.group_size) (hashes _ _ found _ _)
  have partitions : join.partition hash .left row = join.partition hash .right other :=
    congrArg (· % join.num_partitions) (hashes _ _ found _ _)
  exact ⟨domains, by rw [place, place, domains, partitions]⟩

/-- If every domain is one rank, its tables are those of the rank. -/
theorem group_rows_alone
    (alone : join.nvlink_partition_size = 1)
    (table : Nat → Table)
    (rank : Nat) :
    (join.nvlink.group_rows table rank : Multiset Row) = (table rank).rows := by
  refine (Layout.coe_group_rows_nvlink _ rank).trans ?_
  rw [alone, Finset.sum_range_one, Nat.div_one, Nat.mul_one, Nat.add_zero]

/-- If every domain is one rank, the ranks have the rows of their domains. -/
theorem Domains.rows_alone
    {tables : Side → Nat → Table}
    (domains : join.Domains hash tables)
    (alone : join.nvlink_partition_size = 1)
    (side : Side)
    {rank : Nat}
    (rankBound : rank < n) :
    ((tables side rank).rows : Multiset Row) =
      ((join.input side).all_rows : Multiset Row).filter
        fun row => join.domain hash side row = rank := by
  have rows := domains.rows side rank rankBound
  rw [group_rows_alone alone, alone, Nat.div_one] at rows
  exact rows

/-- If every domain is one rank, the ranks have as many rows as their domains. -/
theorem KeyDomains.num_rows_alone
    {tables : Side → Nat → Table}
    (domains : join.KeyDomains hash tables)
    (alone : join.nvlink_partition_size = 1)
    (side : Side)
    {rank : Nat}
    (rankBound : rank < n) :
    (tables side rank).num_rows =
      (((join.input side).all_rows.filter
        fun row => join.domain hash side row = rank).length : Int) := by
  have count := congrArg Multiset.card (domains.keys side rank rankBound)
  have nonnegative := (domains.sound side rank rankBound).num_rows_nonneg
  rw [group_rows_alone alone, alone, Nat.div_one, Multiset.card_map, Multiset.card_map,
    Multiset.filter_coe, Multiset.coe_card, Multiset.coe_card, Table.length_rows] at count
  omega

section Sums

variable {matching : List Cell → List Cell → Bool} (hashes : HashesMatch hash matching)
include hashes

/-- The batches of all ranks make the whole join. -/
theorem sum_batch_rows :
    ∑ rank ∈ Finset.range n, ∑ ibatch ∈ Finset.range join.over_decom_factor,
        joined_rows matching (join.input .left).on_columns (join.input .right).on_columns
          (join.batch_rows hash .left rank ibatch) (join.batch_rows hash .right rank ibatch) =
      joined_rows matching (join.input .left).on_columns (join.input .right).on_columns
        (join.input .left).all_rows (join.input .right).all_rows := by
  have batch : ∀ side rank ibatch, (join.batch_rows hash side rank ibatch : Multiset Row) =
      ((join.input side).all_rows : Multiset Row).filter
        fun row => join.place hash side row = (rank, ibatch) := by
    intro side rank ibatch
    simp only [place_eq_iff]
    exact (Multiset.filter_coe _ _).symm
  rw [← Finset.sum_product' (Finset.range n) (Finset.range join.over_decom_factor)
    fun rank ibatch => joined_rows matching (join.input .left).on_columns
      (join.input .right).on_columns (join.batch_rows hash .left rank ibatch)
      (join.batch_rows hash .right rank ibatch)]
  unfold joined_rows
  simp only [batch]
  exact Relational.sum_join_places (fun row _ => place_mem .left row)
    (fun row _ => place_mem .right row)
    fun _ _ _ _ found => (place_eq_of_matching hashes found).2

/-- If every domain is one rank, the ranks make the whole join. -/
theorem sum_domain_rows
    (alone : join.nvlink_partition_size = 1)
    {tables : Side → Nat → Table}
    (domains : join.Domains hash tables) :
    ∑ rank ∈ Finset.range n,
        joined_rows matching (join.input .left).on_columns (join.input .right).on_columns
          (tables .left rank).rows (tables .right rank).rows =
      joined_rows matching (join.input .left).on_columns (join.input .right).on_columns
        (join.input .left).all_rows (join.input .right).all_rows := by
  have parts : ∀ rank ∈ Finset.range n,
      joined_rows matching (join.input .left).on_columns (join.input .right).on_columns
          (tables .left rank).rows (tables .right rank).rows =
        Relational.join
          (fun row other => matching (keyOf (join.input .left).on_columns row)
            (keyOf (join.input .right).on_columns other))
          (fun row other => row ++ other)
          (((join.input .left).all_rows : Multiset Row).filter
            fun row => join.domain hash .left row = rank)
          (((join.input .right).all_rows : Multiset Row).filter
            fun row => join.domain hash .right row = rank) := by
    intro rank range
    have rankBound := Finset.mem_range.mp range
    rw [joined_rows, domains.rows_alone alone .left rankBound,
      domains.rows_alone alone .right rankBound]
  have inside : ∀ side row, join.domain hash side row ∈ Finset.range n := by
    intro side row
    have domainBound : join.domain hash side row < n / join.nvlink_partition_size :=
      domain_row_lt side row
    rw [alone, Nat.div_one] at domainBound
    exact Finset.mem_range.mpr domainBound
  rw [Finset.sum_congr rfl parts]
  exact Relational.sum_join_places (fun row _ => inside .left row)
    (fun row _ => inside .right row)
    fun _ _ _ _ found => (place_eq_of_matching hashes found).1

end Sums

/-- Tables that are exchanged in batches: those of the call, or those that the shuffle
returns. -/
structure Exchanged
    (join : JoinCall n)
    (hash : HashId → Nat → List Cell → Nat)
    (input : Side → JoinTable n) : Prop where
  on_columns : ∀ side, (input side).on_columns = (join.input side).on_columns
  schema : ∀ side, (input side).schema = (join.input side).schema
  domains : join.Domains hash fun side => (input side).table

/-- Tables that are exchanged in batches, as far as their keys are known. -/
structure KeysExchanged
    (join : JoinCall n)
    (hash : HashId → Nat → List Cell → Nat)
    (input : Side → JoinTable n) : Prop where
  on_columns : ∀ side, (input side).on_columns = (join.input side).on_columns
  schema : ∀ side, (input side).schema = (join.input side).schema
  domains : join.KeyDomains hash fun side => (input side).table

namespace KeysExchanged

variable {input : Side → JoinTable n} (exchanged : join.KeysExchanged hash input)
include exchanged

theorem partition_eq (side : Side) (row : Row) :
    (join.with_input input).partition hash side row = join.partition hash side row := by
  have columns : ((join.with_input input).input side).on_columns =
      (join.input side).on_columns := exchanged.on_columns side
  rw [partition, partition, columns]
  rfl

variable {hash_partition : HashPartition} (partitions : hash_partition.Partitions hash)
include partitions

/-- The exchanged tables are partitioned. -/
theorem kept : (join.with_input input).BatchesKept hash_partition :=
  batchesKept exchanged.domains.sound partitions

/-- A rank receives as many rows in a batch as are joined there. -/
theorem received_rows_batch
    (side : Side)
    {rank ibatch : Nat}
    (rankBound : rank < n)
    (ibatchBound : ibatch < join.over_decom_factor) :
    (batch (exchanged.kept partitions) side ibatch).received_rows rank =
      (join.batch_rows hash side rank ibatch).length := by
  have whole : (batch (exchanged.kept partitions) side ibatch).Whole :=
    whole_batch exchanged.domains.sound partitions side ibatchBound
  have gathered : ((batch (exchanged.kept partitions) side ibatch).gathered_rows rank).Perm _ :=
    gathered_rows_batch exchanged.domains.sound partitions side rankBound ibatchBound
  -- the partition of a row can be told from its key
  let placed : List Cell → Prop := fun key =>
    hash .HASH_MURMUR3 hash_partition_seed key % join.num_partitions =
      ibatch * join.nvlink_partition_size + rank % join.nvlink_partition_size
  have count : ∀ rows : Multiset Row,
      ((rows.map (keyOf (join.input side).on_columns)).filter placed).card =
        (rows.filter fun row => join.partition hash side row =
          ibatch * join.nvlink_partition_size + rank % join.nvlink_partition_size).card := by
    intro rows
    rw [Multiset.filter_map, Multiset.card_map]
    rfl
  have keys := congrArg (fun keys => (keys.filter placed).card)
    (exchanged.domains.keys side rank rankBound)
  simp only [count] at keys
  have length := whole.length_gathered_rows rankBound
  rw [gathered.length_eq] at length
  simp only [exchanged.partition_eq] at length
  rw [← length, batch_rows, ← Multiset.coe_card, ← Multiset.coe_card, ← Multiset.filter_coe,
    ← Multiset.filter_coe]
  refine (congrArg Nat.cast keys).trans ?_
  rw [Multiset.filter_filter]
  exact congrArg (fun rows => ((Multiset.card rows : Nat) : Int))
    (Multiset.filter_congr fun row _ => and_comm)

end KeysExchanged

namespace Exchanged

variable {input : Side → JoinTable n} (exchanged : join.Exchanged hash input)
include exchanged

theorem keysExchanged : join.KeysExchanged hash input where
  on_columns := exchanged.on_columns
  schema := exchanged.schema
  domains := exchanged.domains.keyDomains

variable {hash_partition : HashPartition} (partitions : hash_partition.Partitions hash)
include partitions

theorem kept : (join.with_input input).BatchesKept hash_partition :=
  exchanged.keysExchanged.kept partitions

/-- The rows that a rank is sent in a batch. -/
theorem gathered_rows_eq
    (side : Side)
    {rank ibatch : Nat}
    (rankBound : rank < n)
    (ibatchBound : ibatch < join.over_decom_factor) :
    ((batch (exchanged.kept partitions) side ibatch).gathered_rows rank : Multiset Row) =
      join.batch_rows hash side rank ibatch := by
  have gathered : ((batch (exchanged.kept partitions) side ibatch).gathered_rows rank).Perm _ :=
    gathered_rows_batch exchanged.domains.sound partitions side rankBound ibatchBound
  have domain : ((join.with_input input).nvlink.group_rows (input side).table rank :
      Multiset Row) = _ := exchanged.domains.rows side rank rankBound
  rw [Multiset.coe_eq_coe.mpr gathered, ← Multiset.filter_coe]
  simp only [exchanged.keysExchanged.partition_eq]
  refine (congrArg (Multiset.filter _) domain).trans ?_
  rw [Multiset.filter_filter, batch_rows, ← Multiset.filter_coe]
  exact Multiset.filter_congr fun row _ => and_comm

end Exchanged

namespace Exchanged

variable {input : Side → JoinTable n} (exchanged : join.Exchanged hash input)
  {cudf : Cudf} (partitions : cudf.hash_partition.Partitions hash)
  (plain : join.Plain) (countable : join.Countable hash) (gpu : Gpu)
include exchanged partitions plain countable

omit plain in
theorem small_batch
    (several : join.nvlink_partition_size ≠ 1)
    (side : Side)
    {rank ibatch : Nat}
    (rankBound : rank < n)
    (ibatchBound : ibatch < join.over_decom_factor) :
    (batch (exchanged.kept partitions) side ibatch).received_rows rank < 2 ^ 31 := by
  rw [exchanged.keysExchanged.received_rows_batch partitions side rankBound ibatchBound]
  exact_mod_cast countable.batches several side rank rankBound ibatch ibatchBound

/-- In a batch a rank receives the rows of all ranks that are joined there. -/
theorem rows_received_batch
    (several : join.nvlink_partition_size ≠ 1)
    (side : Side)
    {rank ibatch : Nat}
    (rankBound : rank < n)
    (ibatchBound : ibatch < join.over_decom_factor) :
    ((received_batches gpu (exchanged.kept partitions) rank side ibatch).rows : Multiset Row) =
      join.batch_rows hash side rank ibatch := by
  have sound := exchanged.domains.sound
  have whole : (batch (exchanged.kept partitions) side ibatch).Whole :=
    whole_batch sound partitions side ibatchBound
  have received := whole.rows_fixed_width gpu (plain.fixedWidth (exchanged.schema side))
    (supported_batch (exchanged.kept partitions) side ibatch) rankBound
    (exchanged.small_batch partitions countable several side rankBound ibatchBound)
  have stored : (batch (exchanged.kept partitions) side ibatch).gathered_stored_rows rank =
      (batch (exchanged.kept partitions) side ibatch).gathered_rows rank :=
    whole.toSound.gathered_stored_rows_eq rankBound fun index indexBound => by
      have memberBound := join.nvlink.member_lt rankBound indexBound
      have partitioned : Partitioned _ _ _
          (((join.with_input input).input side).table (join.nvlink.member rank index)) _ _ :=
        partitioned_batches sound partitions side memberBound
      exact (exchanged.domains.non_null side _ memberBound).of_perm partitioned.rows
  rw [← exchanged.gathered_rows_eq partitions side rankBound ibatchBound, ← stored, ← received]
  rfl

theorem sound_received_batch
    (several : join.nvlink_partition_size ≠ 1)
    (side : Side)
    {rank ibatch : Nat}
    (rankBound : rank < n)
    (ibatchBound : ibatch < join.over_decom_factor) :
    (received_batches gpu (exchanged.kept partitions) rank side ibatch).Sound := by
  have whole : (batch (exchanged.kept partitions) side ibatch).Whole :=
    whole_batch exchanged.domains.sound partitions side ibatchBound
  exact whole.sound_fixed_width gpu (plain.fixedWidth (exchanged.schema side)) rankBound
    (exchanged.small_batch partitions countable several side rankBound ibatchBound)

variable {matching : List Cell → List Cell → Bool} (joins : cudf.inner_join.Joins matching)
  (hashes : HashesMatch hash matching)
include joins hashes

/-- The local joins of all ranks make the whole join. -/
theorem sum_local_joins :
    ∑ rank ∈ Finset.range n,
        (((JoinState.all_local_joins cudf.inner_join (join.input .left).on_columns
          (join.input .right).on_columns join.over_decom_factor
          (received_batches gpu (exchanged.kept partitions) rank)
          ((join.with_input input).outcome cudf rank)).flatMap Table.rows : List Row) :
            Multiset Row) =
      joined_rows matching (join.input .left).on_columns (join.input .right).on_columns
        (join.input .left).all_rows (join.input .right).all_rows := by
  by_cases alone : join.nvlink_partition_size = 1
  · rw [← sum_domain_rows hashes alone exchanged.domains]
    refine Finset.sum_congr rfl fun rank range => ?_
    have rankBound := Finset.mem_range.mp range
    have ended : (join.with_input input).outcome cudf rank =
        some (local_join_helper cudf.inner_join ((input .left).table rank)
          ((input .right).table rank) (join.input .left).on_columns
          (join.input .right).on_columns) := by
      rw [← exchanged.on_columns .left, ← exchanged.on_columns .right]
      exact if_pos alone
    rw [ended, JoinState.all_local_joins, List.flatMap_singleton]
    exact rows_local_join_helper joins (exchanged.domains.sound .left rank rankBound)
      (exchanged.domains.sound .right rank rankBound) _ _
  · rw [← sum_batch_rows hashes]
    refine Finset.sum_congr rfl fun rank range => ?_
    have rankBound := Finset.mem_range.mp range
    have ended : (join.with_input input).outcome cudf rank = none := if_neg alone
    rw [ended, JoinState.all_local_joins, List.flatMap_map, Relational.coe_flatMap_range]
    refine Finset.sum_congr rfl fun ibatch ibatchRange => ?_
    have ibatchBound := Finset.mem_range.mp ibatchRange
    have sound := fun side => exchanged.sound_received_batch partitions plain countable gpu alone
      side rankBound ibatchBound
    rw [JoinState.batch_join_result, rows_local_join_helper joins (sound .left) (sound .right),
      joined_rows, joined_rows,
      exchanged.rows_received_batch partitions plain countable gpu alone .left rankBound ibatchBound,
      exchanged.rows_received_batch partitions plain countable gpu alone .right rankBound
        ibatchBound]

end Exchanged

/-- The columns of the tables that are shuffled can be compressed as asked for. -/
def Compressible (join : JoinCall n) : Prop :=
  ∀ side icol, icol < (join.input side).schema.length →
    ((join.input side).options.getD icol .none).compression_method = .none ∨
      ((join.input side).options.getD icol .none).compression_method = .cascaded ∧
        ((join.input side).schema.getD icol Table.missingColumn.type).id.compressible = true

theorem Plain.supported_shuffle
    (plain : join.Plain)
    {hash_partition : HashPartition}
    (partitions : hash_partition.Partitions hash)
    (compressible : join.Compressible)
    (side : Side) :
    (shuffle (shuffleKept plain.sound partitions) side).Supported := by
  intro plan member
  obtain ⟨icol, icolBound, ⟨_, rfl⟩ | ⟨string, _⟩⟩ := Redistribution.mem_plans member
  · exact compressible side icol icolBound
  · exact absurd string (plain.fixedWidth rfl icol icolBound)

/-- The tables that are exchanged in batches are those of the call or the shuffled ones. -/
theorem Plain.exchanged
    (plain : join.Plain)
    {hash_partition : HashPartition}
    (partitions : hash_partition.Partitions hash)
    (supported : join.nvlink_partition_size ≠ n →
      ∀ side, (shuffle (shuffleKept plain.sound partitions) side).Supported)
    (countable : join.Countable hash)
    (gpu : Gpu) :
    join.Exchanged hash (join.exchanged_input (shuffleKept plain.sound partitions) gpu) := by
  unfold exchanged_input
  split
  · rename_i single
    exact ⟨fun _ => rfl, fun _ => rfl, domains_of_eq single plain⟩
  · rename_i several
    exact ⟨fun _ => rfl, fun _ => rfl,
      plain.domains_of_ne partitions several countable gpu (supported several)⟩

/-- All columns that the call asks for can be created. -/
theorem Plain.allocates
    (plain : join.Plain)
    {cudf : Cudf}
    (partitions : cudf.hash_partition.Partitions hash)
    (supported : join.nvlink_partition_size ≠ n →
      ∀ side, (shuffle (shuffleKept plain.sound partitions) side).Supported)
    (countable : join.Countable hash)
    (gpu : Gpu) :
    join.Allocates cudf gpu := by
  have batches : ∀ {input : Side → JoinTable n} (exchanged : join.Exchanged hash input),
      join.nvlink_partition_size ≠ 1 → BatchesAllocate (exchanged.kept partitions) := by
    intro input exchanged several side ibatch ibatchBound
    have whole : (batch (exchanged.kept partitions) side ibatch).Whole :=
      whole_batch exchanged.domains.sound partitions side ibatchBound
    exact whole.toSound.allocates fun rank rankBound =>
      (plain.fixedWidth (exchanged.schema side)).fits
        (exchanged.small_batch partitions countable several side rankBound ibatchBound)
  unfold Allocates
  split
  · rename_i single
    have exchanged : join.Exchanged hash join.input :=
      ⟨fun _ => rfl, fun _ => rfl, domains_of_eq single plain⟩
    exact fun several _ => batches exchanged several
  · rename_i domains
    let kept : join.ShuffleKept cudf.hash_partition := shuffleKept plain.sound partitions
    have exchanged : join.Exchanged hash (shuffled kept gpu).input :=
      ⟨fun _ => rfl, fun _ => rfl,
        plain.domains_of_ne partitions domains countable gpu (supported domains)⟩
    refine fun _ => ⟨fun side => ?_, fun several _ => batches exchanged several⟩
    have whole : (shuffle kept side).Whole :=
      (partitioned_shuffle plain.sound partitions side).whole
    exact whole.toSound.allocates fun rank rankBound => (plain.fixedWidth rfl).fits
      (small_shuffle plain.sound partitions domains countable side rankBound)

/-- How the calling threads end. -/
theorem Plain.ends
    (plain : join.Plain)
    {cudf : Cudf}
    (partitions : cudf.hash_partition.Partitions hash)
    (supported : join.nvlink_partition_size ≠ n →
      ∀ side, (shuffle (shuffleKept plain.sound partitions) side).Supported)
    (countable : join.Countable hash)
    (eager : Eagerness ranks)
    (gpu : Gpu) :
    ∃ log, JoinState.Ends n eager (join.program cudf gpu) join.over_decom_factor
      ((join.after_shuffle (shuffleKept plain.sound partitions) gpu).outcome cudf)
      (received_batches gpu
        ((plain.exchanged partitions supported countable gpu).kept partitions)) log :=
  ends_after_shuffle gpu (shuffleKept plain.sound partitions) supported
    (fun _ side => (partitioned_shuffle plain.sound partitions side).whole.narrow) _
    (plain.allocates partitions supported countable gpu)

end JoinCall

/-- Whatever order the threads of the ranks run in: when all calls have come to their end,
the local joins of all ranks and all batches together are the inner join of the tables of all
ranks. All calls can come to their end. -/
theorem distributed_inner_join_rows
    {n : Nat}
    (eager : Eagerness ranks)
    (gpu : Gpu)
    (cudf : Cudf)
    (hash : HashId → Nat → List Cell → Nat)
    (matching : List Cell → List Cell → Bool)
    (join : JoinCall n)
    (partitions : cudf.hash_partition.Partitions hash)
    (hashes : HashesMatch hash matching)
    (joins : cudf.inner_join.Joins matching)
    (plain : join.Plain)
    (compressible : join.nvlink_partition_size ≠ n → join.Compressible)
    (countable : join.Countable hash)
    (state : JoinState)
    (reached : Reaches (join.step cudf eager) (join.start cudf gpu) state) :
    ((∀ rank, rank < n → state.returned rank ≠ none) →
      (((List.range n).flatMap fun rank =>
          (state.local_joins rank).flatMap Table.rows : List Row) : Multiset Row) =
        joined_rows matching (join.input .left).on_columns (join.input .right).on_columns
          (join.input .left).all_rows (join.input .right).all_rows) ∧
    ∃ finish, Reaches (join.step cudf eager) state finish ∧
      ∀ rank, rank < n → finish.returned rank ≠ none := by
  have supported : join.nvlink_partition_size ≠ n → ∀ side,
      (JoinCall.shuffle (JoinCall.shuffleKept plain.sound partitions) side).Supported :=
    fun several => plain.supported_shuffle partitions (compressible several)
  have exchanged : join.Exchanged hash
      (join.exchanged_input (JoinCall.shuffleKept plain.sound partitions) gpu) :=
    plain.exchanged partitions supported countable gpu
  obtain ⟨log, ends⟩ := plain.ends partitions supported countable eager gpu
  have consistent : JoinState.Consistent cudf n eager _ _ _ _ _ _ state :=
    ends.consistent reached
  refine ⟨fun returned => ?_, ends.reaches_returned reached⟩
  rw [Relational.coe_flatMap_range, ← exchanged.sum_local_joins partitions plain countable gpu
    joins hashes]
  refine Finset.sum_congr rfl fun rank range => ?_
  have rankBound := Finset.mem_range.mp range
  rw [consistent.local_joins_eq rankBound (returned rank rankBound)]
  rfl

/-- Combining all pairs of rows with equal keys is an inner join. -/
theorem joins_nested_loop_join :
    InnerJoin.Joins nested_loop_join fun left right => decide (left = right) := by
  intro left right left_on right_on left_sound right_sound _ _
  have pairs : ∀ row ∈ left.rows.flatMap (fun left_row =>
      (right.rows.filter fun right_row => keyOf left_on left_row = keyOf right_on right_row).map
        fun right_row => left_row ++ right_row),
      ∃ head ∈ left.rows, ∃ tail ∈ right.rows, row = head ++ tail := by
    intro row member
    obtain ⟨head, headMember, paired⟩ := List.mem_flatMap.mp member
    obtain ⟨tail, filtered, rfl⟩ := List.mem_map.mp paired
    exact ⟨head, headMember, tail, (List.mem_filter.mp filtered).1, rfl⟩
  have sized := left_sound.rowsFit.sized.append right_sound.rowsFit.sized pairs
  rw [nested_loop_join, Table.rows_ofRows sized, joined_rows, Relational.join,
    ← Multiset.coe_bind]
  simp only [decide_eq_true_eq, Multiset.filter_coe, Multiset.map_coe]

/-- Four ranks of two NVLink domains that join bytes in two batches. -/
def domainsJoin (bytes : Side → Nat → List Byte) : JoinCall 4 :=
  { bytesJoin 4 four_ranks_pos bytes with nvlink_domain_size := 2 }

theorem plain_bytesJoin
    {n : Nat}
    {n_pos : 0 < n}
    {bytes : Side → Nat → List Byte}
    (small : ∀ side rank, (bytes side rank).length < 2 ^ 31) :
    (bytesJoin n n_pos bytes).Plain where
  fixed := by
    intro side dtype member
    obtain rfl := List.mem_singleton.mp member
    exact TypeId.noConfusion
  sound := fun side rank _ => (Table.wellFormed_ofBytes (small side rank)).sound
  non_null := by
    intro side rank _
    refine Table.nonNull_of_masks (fun column member => ?_) fun column member => ?_
    · obtain rfl := List.mem_singleton.mp member
      rfl
    · obtain rfl := List.mem_singleton.mp member
      rfl

theorem plain_domainsJoin : (domainsJoin fun _ rank => [rank.toUInt8]).Plain :=
  have plain : (bytesJoin 4 (by decide) fun _ rank => [rank.toUInt8]).Plain :=
    plain_bytesJoin fun _ _ => show 1 < 2 ^ 31 by decide
  ⟨plain.fixed, plain.sound, plain.non_null⟩

theorem countable_domainsJoin : (domainsJoin fun _ rank => [rank.toUInt8]).Countable sumOfBytes where
  shuffled := by
    intro _ side rank _
    let join := domainsJoin fun _ rank => [rank.toUInt8]
    have single : ∀ rank, (((join.input side).table rank).rows).length = 1 := fun _ => rfl
    have few : join.infiniband.group_size ≤ 4 := Nat.div_le_self 4 _
    have length : (join.infiniband.group_rows (join.input side).table rank).length ≤ 4 := by
      rw [Layout.group_rows, List.length_flatMap, List.map_congr_left fun index _ => single _,
        List.map_const', List.sum_replicate_nat, List.length_range, Nat.mul_one]
      exact few
    exact (List.length_filter_le _ _).trans_lt (length.trans_lt (by decide))
  batches := by
    intro _ side rank _ ibatch _
    have length : ((domainsJoin fun _ rank => [rank.toUInt8]).input side).all_rows.length = 4 := rfl
    exact (List.length_filter_le _ _).trans_lt (length.trans_lt (by decide))

/-- Every rank has its own number in both tables. The four numbers are joined, wherever the
rows are sent. -/
theorem distributed_inner_join_rows_four_ranks :
    ∃ finish,
      Reaches ((domainsJoin fun _ rank => [rank.toUInt8]).step (cudf_by_rows sumOfBytes)
          fun _ _ _ _ => false)
        ((domainsJoin fun _ rank => [rank.toUInt8]).start (cudf_by_rows sumOfBytes) storingGpu)
        finish ∧
      (((List.range 4).flatMap fun rank =>
          (finish.local_joins rank).flatMap Table.rows : List Row) : Multiset Row) =
        (([0, 1, 2, 3] : List Byte).map fun byte => [some [byte], some [byte]] : List Row) := by
  have rows := distributed_inner_join_rows (fun _ _ _ _ => false) storingGpu
    (cudf_by_rows sumOfBytes) sumOfBytes (fun left right => decide (left = right))
    (domainsJoin fun _ rank => [rank.toUInt8])
    (partitions_sorted_by_hash sumOfBytes)
    (fun _ _ same _ _ => congrArg _ (of_decide_eq_true same)) joins_nested_loop_join
    plain_domainsJoin (fun _ _ _ _ => .inl rfl) countable_domainsJoin
  obtain ⟨finish, reached, returned⟩ := (rows _ (.refl _)).2
  exact ⟨finish, reached, ((rows finish reached).1 returned).trans (by decide)⟩

end DistributedJoin
