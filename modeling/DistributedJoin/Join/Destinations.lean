import DistributedJoin.Join.Endings
import DistributedJoin.Relational.Join

/-!
# Where the rows of a join meet

The shuffle brings every row to the NVLink domain that its key is assigned to, and the
exchange of the batches brings it to one rank of the domain, in one batch. Which rows a rank
receives in a batch can be told from the rows of the tables of all ranks.
-/

namespace DistributedJoin

open Device Spmd

/-- The rows of the tables of all ranks. -/
def JoinTable.all_rows {n : Nat} (input : JoinTable n) : List Row :=
  (List.range n).flatMap fun rank => (input.table rank).rows

namespace Layout

variable {n : Nat} {nvlink_partition_size : Nat} {n_pos : 0 < n}
  {divides : nvlink_partition_size ∣ n}

theorem group_size_nvlink :
    (nvlink nvlink_partition_size n_pos divides).group_size = nvlink_partition_size :=
  Nat.div_one _

theorem local_idx_nvlink (rank : Nat) :
    (nvlink nvlink_partition_size n_pos divides).local_idx rank =
      rank % nvlink_partition_size := by
  rw [local_idx_eq]
  exact Nat.div_one _

theorem member_nvlink (rank index : Nat) :
    (nvlink nvlink_partition_size n_pos divides).member rank index =
      rank / nvlink_partition_size * nvlink_partition_size + index := by
  change rank / nvlink_partition_size * nvlink_partition_size + rank % 1 + index * 1 = _
  rw [Nat.mod_one, Nat.mul_one, Nat.add_zero]

theorem local_idx_infiniband {rank : Nat} (rankBound : rank < n) :
    (infiniband nvlink_partition_size n_pos divides).local_idx rank =
      rank / nvlink_partition_size := by
  rw [local_idx_eq]
  exact congrArg (· / nvlink_partition_size) (Nat.mod_eq_of_lt rankBound)

theorem member_infiniband {rank : Nat} (rankBound : rank < n) (index : Nat) :
    (infiniband nvlink_partition_size n_pos divides).member rank index =
      index * nvlink_partition_size + rank % nvlink_partition_size := by
  change rank / n * n + rank % nvlink_partition_size + index * nvlink_partition_size = _
  rw [Nat.div_eq_of_lt rankBound, Nat.zero_mul, Nat.zero_add, Nat.add_comm]

/-- The tables of an NVLink domain, rank by rank. -/
theorem coe_group_rows_nvlink (table : Nat → Table) (rank : Nat) :
    ((nvlink nvlink_partition_size n_pos divides).group_rows table rank : Multiset Row) =
      ∑ index ∈ Finset.range nvlink_partition_size,
        ((table (rank / nvlink_partition_size * nvlink_partition_size + index)).rows :
          Multiset Row) := by
  rw [group_rows, group_size_nvlink, Relational.coe_flatMap_range]
  exact Finset.sum_congr rfl fun index _ => by rw [member_nvlink]

/-- The groups of the shuffle that the ranks of an NVLink domain belong to have all ranks as
their members. -/
theorem sum_group_rows_infiniband
    (table : Nat → Table)
    {domain : Nat}
    (domainBound : domain < n / nvlink_partition_size) :
    ∑ index ∈ Finset.range nvlink_partition_size,
        ((infiniband nvlink_partition_size n_pos divides).group_rows table
          (domain * nvlink_partition_size + index) : Multiset Row) =
      ((List.range n).flatMap fun rank => (table rank).rows : List Row) := by
  have size : (infiniband nvlink_partition_size n_pos divides).group_size =
      n / nvlink_partition_size := rfl
  have whole : n / nvlink_partition_size * nvlink_partition_size = n :=
    Nat.div_mul_cancel divides
  have member : ∀ index, index < nvlink_partition_size →
      domain * nvlink_partition_size + index < n ∧
        (domain * nvlink_partition_size + index) % nvlink_partition_size = index := by
    intro index indexBound
    constructor
    · have next := Nat.mul_le_mul_right nvlink_partition_size domainBound
      rw [Nat.succ_mul, whole] at next
      omega
    · rw [Nat.mul_comm, Nat.mul_add_mod, Nat.mod_eq_of_lt indexBound]
  have rows : ∀ index ∈ Finset.range nvlink_partition_size,
      ((infiniband nvlink_partition_size n_pos divides).group_rows table
          (domain * nvlink_partition_size + index) : Multiset Row) =
        ∑ block ∈ Finset.range (n / nvlink_partition_size),
          ((table (block * nvlink_partition_size + index)).rows : Multiset Row) := by
    intro index range
    obtain ⟨rankBound, place⟩ := member index (Finset.mem_range.mp range)
    rw [group_rows, size, Relational.coe_flatMap_range]
    refine Finset.sum_congr rfl fun block _ => ?_
    rw [member_infiniband rankBound, place]
  have blocks := Relational.sum_range_blocks
    (fun rank => ((table rank).rows : Multiset Row)) (n / nvlink_partition_size)
    nvlink_partition_size
  rw [whole] at blocks
  rw [Finset.sum_congr rfl rows, Finset.sum_comm, Relational.coe_flatMap_range, blocks]

end Layout

namespace JoinCall

variable {n : Nat} (join : JoinCall n) (hash : HashId → Nat → List Cell → Nat)

theorem nvlink_partition_size_dvd : join.nvlink_partition_size ∣ n :=
  get_nvl_partition_size_dvd n join.nvlink_domain_size

theorem nvlink_partition_size_pos : 0 < join.nvlink_partition_size :=
  Nat.pos_of_dvd_of_pos join.nvlink_partition_size_dvd join.n_pos

/-- The domain of a rank. -/
theorem domain_lt {rank : Nat} (rankBound : rank < n) :
    rank / join.nvlink_partition_size < n / join.nvlink_partition_size := by
  apply Nat.div_lt_of_lt_mul
  rwa [Nat.mul_div_cancel' join.nvlink_partition_size_dvd]

/-- The NVLink domain that a row is assigned to. -/
def domain (side : Side) (row : Row) : Nat :=
  hash .HASH_MURMUR3 hash_partition_seed_ib (keyOf (join.input side).on_columns row) %
    join.infiniband.group_size

/-- The partition of an NVLink domain that a row is assigned to. -/
def partition (side : Side) (row : Row) : Nat :=
  hash .HASH_MURMUR3 hash_partition_seed (keyOf (join.input side).on_columns row) %
    join.num_partitions

/-- The rows that a rank receives in the shuffle: those of its group that are assigned to its
domain. -/
def shuffled_rows (side : Side) (rank : Nat) : List Row :=
  (join.infiniband.group_rows (join.input side).table rank).filter fun row =>
    join.domain hash side row = rank / join.nvlink_partition_size

/-- The rows that a rank receives in a batch: those of all ranks that are assigned to its
domain and to its partition of the batch. -/
def batch_rows (side : Side) (rank ibatch : Nat) : List Row :=
  (join.input side).all_rows.filter fun row =>
    join.domain hash side row = rank / join.nvlink_partition_size ∧
      join.partition hash side row =
        ibatch * join.nvlink_partition_size + rank % join.nvlink_partition_size

/-- No rank receives more rows than `cudf::size_type` can count, neither in the shuffle nor
in a batch. -/
structure Countable : Prop where
  shuffled : join.nvlink_partition_size ≠ n → ∀ side rank, rank < n →
    (join.shuffled_rows hash side rank).length < 2 ^ 31
  batches : join.nvlink_partition_size ≠ 1 → ∀ side rank, rank < n →
    ∀ ibatch, ibatch < join.over_decom_factor →
      (join.batch_rows hash side rank ibatch).length < 2 ^ 31

/-- Tables of fixed-width columns without nulls, which cuDF can hold, on all ranks. -/
structure Plain : Prop where
  fixed : ∀ side, ∀ dtype ∈ (join.input side).schema, dtype.id ≠ .STRING
  sound : ∀ side rank, rank < n → ((join.input side).table rank).Sound
  non_null : ∀ side rank, rank < n → ((join.input side).table rank).NonNull

/-- Tables in which every NVLink domain has the rows that are assigned to it. -/
structure Domains (tables : Side → Nat → Table) : Prop where
  sound : ∀ side rank, rank < n → (tables side rank).Sound
  non_null : ∀ side rank, rank < n → (tables side rank).NonNull
  rows : ∀ side rank, rank < n →
    (join.nvlink.group_rows (tables side) rank : Multiset Row) =
      ((join.input side).all_rows : Multiset Row).filter fun row =>
        join.domain hash side row = rank / join.nvlink_partition_size

/-- Tables in which every NVLink domain has the keys that are assigned to it. -/
structure KeyDomains (tables : Side → Nat → Table) : Prop where
  sound : ∀ side rank, rank < n → (tables side rank).Sound
  keys : ∀ side rank, rank < n →
    (join.nvlink.group_rows (tables side) rank : Multiset Row).map
        (keyOf (join.input side).on_columns) =
      (((join.input side).all_rows : Multiset Row).filter fun row =>
        join.domain hash side row = rank / join.nvlink_partition_size).map
          (keyOf (join.input side).on_columns)

variable {join} {hash}

/-- Domains that have their rows have their keys. -/
theorem Domains.keyDomains
    {tables : Side → Nat → Table}
    (domains : join.Domains hash tables) :
    join.KeyDomains hash tables where
  sound := domains.sound
  keys := fun side rank rankBound => congrArg _ (domains.rows side rank rankBound)

/-- If every rank has what it is sent in the shuffle, every NVLink domain has what is assigned
to it. -/
theorem map_group_rows_of_shuffled
    {α : Type}
    {value : Row → α}
    {side : Side}
    {table : Nat → Table}
    (received : ∀ rank, rank < n →
      ((table rank).rows.map value).Perm ((join.shuffled_rows hash side rank).map value))
    {rank : Nat}
    (rankBound : rank < n) :
    (join.nvlink.group_rows table rank : Multiset Row).map value =
      (((join.input side).all_rows : Multiset Row).filter fun row =>
        join.domain hash side row = rank / join.nvlink_partition_size).map value := by
  have all : ∑ index ∈ Finset.range join.nvlink_partition_size,
      (join.infiniband.group_rows (join.input side).table
        (rank / join.nvlink_partition_size * join.nvlink_partition_size + index) :
          Multiset Row) = (join.input side).all_rows :=
    Layout.sum_group_rows_infiniband (join.input side).table (join.domain_lt rankBound)
  have group : (join.nvlink.group_rows table rank : Multiset Row) = _ :=
    Layout.coe_group_rows_nvlink _ rank
  rw [group, ← all, Relational.filter_sum]
  simp only [← Multiset.coe_mapAddMonoidHom, map_sum]
  refine Finset.sum_congr rfl fun index range => ?_
  have indexBound := Finset.mem_range.mp range
  have memberBound : rank / join.nvlink_partition_size * join.nvlink_partition_size + index <
      n := (Layout.member_nvlink rank index).symm.trans_lt
    (join.nvlink.member_lt rankBound (indexBound.trans_eq Layout.group_size_nvlink.symm))
  have place : (rank / join.nvlink_partition_size * join.nvlink_partition_size + index) /
      join.nvlink_partition_size = rank / join.nvlink_partition_size := by
    rw [Nat.mul_comm, Nat.mul_add_div join.nvlink_partition_size_pos,
      Nat.div_eq_of_lt indexBound, Nat.add_zero]
  have here := Multiset.coe_eq_coe.mpr (received _ memberBound)
  rw [← Multiset.map_coe, ← Multiset.map_coe, shuffled_rows, place, ← Multiset.filter_coe] at here
  exact here

theorem Plain.fixedWidth
    (plain : join.Plain)
    {side : Side}
    {task : Redistribution n}
    (schema : task.schema = (join.input side).schema) :
    task.FixedWidth := by
  intro icol icolBound string
  refine plain.fixed side (task.column_type icol) ?_ string
  rw [Redistribution.column_type, List.getD_eq_getElem _ _ icolBound, ← schema]
  exact List.getElem_mem icolBound

/-- With one NVLink domain all rows are assigned to it. -/
theorem group_rows_of_eq
    (single : join.nvlink_partition_size = n)
    (side : Side)
    {rank : Nat}
    (rankBound : rank < n) :
    (join.nvlink.group_rows (join.input side).table rank : Multiset Row) =
      ((join.input side).all_rows : Multiset Row).filter fun row =>
        join.domain hash side row = rank / join.nvlink_partition_size := by
  have all : ∀ row : Row, join.domain hash side row = rank / join.nvlink_partition_size := by
    intro row
    have groups : join.infiniband.group_size = 1 := by
      change n / join.nvlink_partition_size = 1
      rw [single]
      exact Nat.div_self join.n_pos
    rw [domain, groups, Nat.mod_one, single, Nat.div_eq_of_lt rankBound]
  rw [Multiset.filter_eq_self.mpr fun row _ => all row]
  refine (Layout.coe_group_rows_nvlink _ rank).trans ?_
  rw [JoinTable.all_rows, Relational.coe_flatMap_range, single, Nat.div_eq_of_lt rankBound,
    Nat.zero_mul]
  simp only [Nat.zero_add]

theorem domains_of_eq
    (single : join.nvlink_partition_size = n)
    (plain : join.Plain) :
    join.Domains hash fun side => (join.input side).table where
  sound := plain.sound
  non_null := plain.non_null
  rows := fun side _ rankBound => group_rows_of_eq single side rankBound

theorem keyDomains_of_eq
    (single : join.nvlink_partition_size = n)
    (sound : ∀ side rank, rank < n → ((join.input side).table rank).Sound) :
    join.KeyDomains hash fun side => (join.input side).table where
  sound := sound
  keys := fun side _ rankBound => congrArg _ (group_rows_of_eq single side rankBound)

/-- If every domain is one rank, it is sent all rows that are assigned to it. -/
theorem shuffled_rows_alone
    (alone : join.nvlink_partition_size = 1)
    (side : Side)
    {rank : Nat}
    (rankBound : rank < n) :
    (join.shuffled_rows hash side rank : Multiset Row) =
      ((join.input side).all_rows : Multiset Row).filter
        fun row => join.domain hash side row = rank := by
  have all : ∑ index ∈ Finset.range join.nvlink_partition_size,
      (join.infiniband.group_rows (join.input side).table
        (rank / join.nvlink_partition_size * join.nvlink_partition_size + index) :
          Multiset Row) = (join.input side).all_rows :=
    Layout.sum_group_rows_infiniband (join.input side).table (join.domain_lt rankBound)
  rw [alone, Finset.sum_range_one, Nat.div_one, Nat.mul_one, Nat.add_zero] at all
  rw [shuffled_rows, ← Multiset.filter_coe, all, alone, Nat.div_one]

section Partitioned

variable {hash_partition : HashPartition} {kept : join.ShuffleKept hash_partition} {side : Side}
  (partitioned : (join.shuffle_call side).AllPartitioned hash hash_partition)
include partitioned

/-- Tables that are partitioned for the shuffle are sent by the domains of their rows. -/
theorem gathered_rows_of_partitioned
    {rank : Nat}
    (rankBound : rank < n) :
    ((shuffle kept side).gathered_rows rank).Perm (join.shuffled_rows hash side rank) := by
  have gathered := partitioned.gathered_rows_perm rankBound
  have own : (join.shuffle_call side).layout.local_idx rank =
      rank / join.nvlink_partition_size := Layout.local_idx_infiniband rankBound
  rw [own] at gathered
  exact gathered

theorem received_rows_of_partitioned
    {rank : Nat}
    (rankBound : rank < n) :
    (shuffle kept side).received_rows rank = (join.shuffled_rows hash side rank).length := by
  have whole : (shuffle kept side).Whole := partitioned.whole
  rw [← whole.length_gathered_rows rankBound,
    (gathered_rows_of_partitioned partitioned rankBound).length_eq]

end Partitioned

section Shuffle

variable {hash_partition : HashPartition}
  (sound : ∀ side rank, rank < n → ((join.input side).table rank).Sound)
  (partitions : hash_partition.Partitions hash)
include sound partitions

/-- The tables are partitioned for the shuffle. -/
theorem partitioned_shuffle (side : Side) :
    (join.shuffle_call side).AllPartitioned hash hash_partition := fun rank rankBound =>
  partitions _ _ _ _ _ (sound side rank rankBound) join.infiniband.group_size_pos

theorem shuffleKept : join.ShuffleKept hash_partition := fun side rank rankBound =>
  (partitioned_shuffle sound partitions side rank rankBound).schema.trans
    ((join.input side).same_schema rank rankBound)

/-- The rows that a rank is sent in the shuffle. -/
theorem gathered_rows_shuffle
    (side : Side)
    {rank : Nat}
    (rankBound : rank < n) :
    ((shuffle (shuffleKept sound partitions) side).gathered_rows rank).Perm
      (join.shuffled_rows hash side rank) :=
  gathered_rows_of_partitioned (partitioned_shuffle sound partitions side) rankBound

theorem received_rows_shuffle
    (side : Side)
    {rank : Nat}
    (rankBound : rank < n) :
    (shuffle (shuffleKept sound partitions) side).received_rows rank =
      (join.shuffled_rows hash side rank).length :=
  received_rows_of_partitioned (partitioned_shuffle sound partitions side) rankBound

theorem small_shuffle
    (several : join.nvlink_partition_size ≠ n)
    (countable : join.Countable hash)
    (side : Side)
    {rank : Nat}
    (rankBound : rank < n) :
    (shuffle (shuffleKept sound partitions) side).received_rows rank < 2 ^ 31 := by
  rw [received_rows_shuffle sound partitions side rankBound]
  exact_mod_cast countable.shuffled several side rank rankBound

section Received

variable (gpu : Gpu)
  (supported : ∀ side, (shuffle (shuffleKept sound partitions) side).Supported)
  (fits : ∀ side rank, rank < n → (shuffle (shuffleKept sound partitions) side).Fits rank)
include supported fits

theorem sound_shuffle
    (side : Side)
    {rank : Nat}
    (rankBound : rank < n) :
    ((shuffle (shuffleKept sound partitions) side).communicated gpu rank).Sound := by
  have partitioned := partitioned_shuffle sound partitions side
  have whole : (shuffle (shuffleKept sound partitions) side).Whole := partitioned.whole
  exact (whole.wellFormed_communicated gpu (supported side) rankBound
    (fun _ => partitioned.aligned) (fits side rank rankBound)).sound

variable (non_null : ∀ side rank, rank < n → ∀ row ∈ ((join.input side).table rank).rows,
  none ∉ keyOf (join.input side).on_columns row)
include non_null

/-- The keys that a rank gets in the shuffle, if none of them is null. -/
theorem keys_shuffle
    (side : Side)
    {rank : Nat}
    (rankBound : rank < n) :
    (((shuffle (shuffleKept sound partitions) side).communicated gpu rank).rows.map
        (keyOf (join.input side).on_columns)).Perm
      ((join.shuffled_rows hash side rank).map (keyOf (join.input side).on_columns)) := by
  let task := shuffle (shuffleKept sound partitions) side
  have partitioned := partitioned_shuffle sound partitions side
  have whole : task.Whole := partitioned.whole
  have stored : task.gathered (fun source => (task.table source).stored_rows.map
      (keyOf (join.input side).on_columns)) rank =
        task.gathered (fun source => (task.table source).rows.map
          (keyOf (join.input side).on_columns)) rank := by
    apply List.flatMap_congr
    intro index range
    have sourceBound := task.layout.member_lt rankBound (List.mem_range.mp range)
    have arranged := partitioned _ sourceBound
    have keys := Table.map_keyOf_stored_rows (whole.sound_tables _ sourceBound).sizes
      fun row member => non_null side _ sourceBound row (arranged.rows.mem_iff.mp member)
    exact congrArg (task.part · _ _) keys
  have received : (task.communicated gpu rank).rows = task.gathered_stored_rows rank :=
    whole.stored_rows_communicated gpu (supported side) rankBound (fun _ => partitioned.aligned)
      (fits side rank rankBound)
  rw [received, Redistribution.gathered_stored_rows, task.map_gathered, stored,
    ← task.map_gathered]
  exact (gathered_rows_shuffle sound partitions side rankBound).map _

/-- After the shuffle every NVLink domain has the keys that are assigned to it. -/
theorem keyDomains_of_ne :
    join.KeyDomains hash fun side =>
      (shuffle (shuffleKept sound partitions) side).communicated gpu where
  sound := fun side _ rankBound =>
    sound_shuffle sound partitions gpu supported fits side rankBound
  keys := fun side _ => map_group_rows_of_shuffled fun _ rankBound =>
    keys_shuffle sound partitions gpu supported fits non_null side rankBound

end Received

end Shuffle

section PlainShuffle

variable {hash_partition : HashPartition} (plain : join.Plain)
  (partitions : hash_partition.Partitions hash)
include plain partitions

/-- What the ranks receive in the shuffle are the rows that are assigned to their domain. -/
theorem Plain.rows_shuffle
    (several : join.nvlink_partition_size ≠ n)
    (countable : join.Countable hash)
    (gpu : Gpu)
    (side : Side)
    (supported : (shuffle (shuffleKept plain.sound partitions) side).Supported)
    {rank : Nat}
    (rankBound : rank < n) :
    ((shuffle (shuffleKept plain.sound partitions) side).communicated gpu rank).rows.Perm
      (join.shuffled_rows hash side rank) := by
  have partitioned := partitioned_shuffle plain.sound partitions side
  have whole : (shuffle (shuffleKept plain.sound partitions) side).Whole := partitioned.whole
  rw [whole.rows_fixed_width gpu (plain.fixedWidth rfl) supported rankBound
    (small_shuffle plain.sound partitions several countable side rankBound)]
  have stored : _ = (shuffle (shuffleKept plain.sound partitions) side).gathered_rows rank :=
    partitioned.gathered_stored_rows_eq rankBound fun index indexBound =>
      plain.non_null side _ (join.infiniband.member_lt rankBound indexBound)
  exact (List.Perm.of_eq stored).trans (gathered_rows_shuffle plain.sound partitions side rankBound)

/-- After the shuffle every NVLink domain has the rows that are assigned to it. -/
theorem Plain.domains_of_ne
    (several : join.nvlink_partition_size ≠ n)
    (countable : join.Countable hash)
    (gpu : Gpu)
    (supported : ∀ side, (shuffle (shuffleKept plain.sound partitions) side).Supported) :
    join.Domains hash fun side =>
      (shuffle (shuffleKept plain.sound partitions) side).communicated gpu where
  sound := by
    intro side rank rankBound
    have whole : (shuffle (shuffleKept plain.sound partitions) side).Whole :=
      (partitioned_shuffle plain.sound partitions side).whole
    exact whole.sound_fixed_width gpu (plain.fixedWidth rfl) rankBound
      (small_shuffle plain.sound partitions several countable side rankBound)
  non_null := by
    intro side rank rankBound row member
    have received := plain.rows_shuffle partitions several countable gpu side (supported side)
      rankBound
    obtain ⟨grouped, _⟩ := List.mem_filter.mp (received.mem_iff.mp member)
    obtain ⟨index, range, inTable⟩ := List.mem_flatMap.mp grouped
    exact plain.non_null side _
      (join.infiniband.member_lt rankBound (List.mem_range.mp range)) row inTable
  rows := by
    intro side rank rankBound
    have rows := map_group_rows_of_shuffled
      (fun rank rankBound => (plain.rows_shuffle partitions several countable gpu side
        (supported side) rankBound).map id) rankBound
    rwa [Multiset.map_id, Multiset.map_id] at rows

end PlainShuffle

section Batches

/-- A batch has the end of its last partition, too. -/
theorem length_batch_offsets
    {offset : List Int}
    {nvlink_partition_size over_decom_factor ibatch : Nat}
    (length : offset.length = nvlink_partition_size * over_decom_factor + 1)
    (ibatchBound : ibatch < over_decom_factor) :
    (batch_offsets offset nvlink_partition_size ibatch).length = nvlink_partition_size + 1 := by
  have room : (ibatch + 1) * nvlink_partition_size ≤
      nvlink_partition_size * over_decom_factor := by
    rw [Nat.mul_comm nvlink_partition_size]
    exact Nat.mul_le_mul_right _ ibatchBound
  rw [batch_offsets, List.length_take, List.length_drop, length, Nat.succ_mul]
  rw [Nat.succ_mul] at room
  omega

theorem getD_batch_offsets
    (offset : List Int)
    {nvlink_partition_size index : Nat}
    (ibatch : Nat)
    (indexBound : index ≤ nvlink_partition_size) :
    (batch_offsets offset nvlink_partition_size ibatch).getD index 0 =
      offset.getD (ibatch * nvlink_partition_size + index) 0 := by
  have size : (ibatch + 1) * nvlink_partition_size + 1 - ibatch * nvlink_partition_size =
      nvlink_partition_size + 1 := by
    rw [Nat.succ_mul]
    omega
  simp only [batch_offsets, size, List.getD_eq_getElem?_getD, List.getElem?_take,
    List.getElem?_drop, if_pos (Nat.lt_succ_of_le indexBound)]

/-- A partition of a batch is one of all partitions. -/
theorem batch_index_lt
    {nvlink_partition_size over_decom_factor ibatch index : Nat}
    (ibatchBound : ibatch < over_decom_factor)
    (indexBound : index < nvlink_partition_size) :
    ibatch * nvlink_partition_size + index < nvlink_partition_size * over_decom_factor := by
  have room : (ibatch + 1) * nvlink_partition_size ≤
      nvlink_partition_size * over_decom_factor := by
    rw [Nat.mul_comm nvlink_partition_size]
    exact Nat.mul_le_mul_right _ ibatchBound
  rw [Nat.succ_mul] at room
  omega

variable {hash_partition : HashPartition}
  (sound : ∀ side rank, rank < n → ((join.input side).table rank).Sound)
  (partitions : hash_partition.Partitions hash)
include sound partitions

/-- The tables are partitioned for the batches. -/
theorem partitioned_batches
    (side : Side)
    {rank : Nat}
    (rankBound : rank < n) :
    Partitioned (hash .HASH_MURMUR3 hash_partition_seed) (join.input side).on_columns
      join.num_partitions ((join.input side).table rank)
      ((join.input side).hashed hash_partition join.num_partitions hash_partition_seed rank).1
      ((join.input side).hashed hash_partition join.num_partitions hash_partition_seed rank).2 :=
  partitions _ _ _ _ _ (sound side rank rankBound) join.num_partitions_pos

theorem batchesKept : join.BatchesKept hash_partition := fun side rank rankBound =>
  (partitioned_batches sound partitions side rankBound).schema.trans
    ((join.input side).same_schema rank rankBound)

/-- The offsets of a batch lie between those of all partitions. -/
theorem offsets_batch
    (side : Side)
    (ibatch : Nat)
    {rank : Nat}
    (rankBound : rank < n) :
    (batch (batchesKept sound partitions) side ibatch).offsets rank =
      batch_offsets
        (((join.input side).hashed hash_partition join.num_partitions hash_partition_seed rank).2 ++
          [((join.input side).hashed hash_partition join.num_partitions hash_partition_seed
            rank).1.num_rows])
        join.nvlink_partition_size ibatch := by
  rw [(partitioned_batches sound partitions side rankBound).num_rows_eq (sound side rank rankBound)]
  rfl

theorem whole_batch
    (side : Side)
    {ibatch : Nat}
    (ibatchBound : ibatch < join.over_decom_factor) :
    (batch (batchesKept sound partitions) side ibatch).Whole where
  sound_tables := fun rank rankBound =>
    (partitioned_batches sound partitions side rankBound).sound
  unsliced := fun rank rankBound =>
    (partitioned_batches sound partitions side rankBound).unsliced
  offsets_length := by
    intro rank rankBound
    have group_size : (batch (batchesKept sound partitions) side ibatch).layout.group_size =
        join.nvlink_partition_size := Layout.group_size_nvlink
    rw [offsets_batch sound partitions side ibatch rankBound, group_size]
    exact length_batch_offsets
      (partitioned_batches sound partitions side rankBound).length_append ibatchBound
  offsets_sorted := by
    intro rank rankBound
    rw [offsets_batch sound partitions side ibatch rankBound]
    exact (partitioned_batches sound partitions side rankBound).sorted_append.sublist
      ((List.take_sublist _ _).trans (List.drop_sublist _ _))
  offsets_inside := by
    intro rank rankBound offset member
    rw [offsets_batch sound partitions side ibatch rankBound] at member
    exact (partitioned_batches sound partitions side rankBound).append_inside
      (List.mem_of_mem_drop (List.mem_of_mem_take member))

/-- What a rank sends in a batch are the rows of one partition. -/
theorem part_batch
    (side : Side)
    {rank ibatch index : Nat}
    (rankBound : rank < n)
    (ibatchBound : ibatch < join.over_decom_factor)
    (indexBound : index < join.nvlink_partition_size) :
    (batch (batchesKept sound partitions) side ibatch).part
        ((batch (batchesKept sound partitions) side ibatch).table rank).rows rank index =
      ((batch (batchesKept sound partitions) side ibatch).table rank).rows.filter fun row =>
        join.partition hash side row = ibatch * join.nvlink_partition_size + index := by
  have whole := whole_batch sound partitions side ibatchBound
  have partitioned := partitioned_batches sound partitions side rankBound
  have start : ∀ position, position ≤ join.nvlink_partition_size →
      (batch (batchesKept sound partitions) side ibatch).first_row rank position =
        partition_start
          ((join.input side).hashed hash_partition join.num_partitions hash_partition_seed rank).1
          ((join.input side).hashed hash_partition join.num_partitions hash_partition_seed rank).2
          (ibatch * join.nvlink_partition_size + position) := by
    intro position positionBound
    rw [Redistribution.first_row, offsets_batch sound partitions side ibatch rankBound,
      getD_batch_offsets _ ibatch positionBound]
    rfl
  rw [whole.toSound.part_eq_slice _ rankBound
      (indexBound.trans_eq Layout.group_size_nvlink.symm), start index indexBound.le,
    start (index + 1) indexBound]
  exact partitioned.slice_rows (batch_index_lt ibatchBound indexBound)

/-- The rows that a rank is sent in a batch. -/
theorem gathered_rows_batch
    (side : Side)
    {rank ibatch : Nat}
    (rankBound : rank < n)
    (ibatchBound : ibatch < join.over_decom_factor) :
    ((batch (batchesKept sound partitions) side ibatch).gathered_rows rank).Perm
      ((join.nvlink.group_rows (join.input side).table rank).filter fun row =>
        join.partition hash side row =
          ibatch * join.nvlink_partition_size + rank % join.nvlink_partition_size) := by
  have own : join.nvlink.local_idx rank = rank % join.nvlink_partition_size :=
    Layout.local_idx_nvlink rank
  rw [Layout.group_rows, List.filter_flatMap]
  refine List.Perm.flatMap_left _ fun index range => ?_
  have memberBound := join.nvlink.member_lt rankBound (List.mem_range.mp range)
  have part := part_batch sound partitions side memberBound ibatchBound
    (Nat.mod_lt rank join.nvlink_partition_size_pos)
  rw [← own] at part ⊢
  exact (List.Perm.of_eq part).trans
    ((partitioned_batches sound partitions side memberBound).rows.filter _)

end Batches

end JoinCall

end DistributedJoin
