import DistributedJoin.Comm.Truncation
import DistributedJoin.Join.ShuffleOn

/-!
# Nulls in shuffled tables

A shuffle sends the data of a column without its null mask. What is stored for a null
arrives as a value, so the rows of a group survive a shuffle exactly if none of them
has a null and every rank can count what it receives.
-/

namespace DistributedJoin

open Device Spmd

namespace Redistribution

variable {n : Nat} {task : Redistribution n}

/-- The bytes of a column of the communicated table. -/
theorem Sound.column_length_communicated
    (sound : task.Sound)
    (gpu : Gpu)
    {rank icol : Nat}
    (rankBound : rank < n)
    (icolBound : icol < task.schema.length) :
    column_length icol (task.communicated gpu rank).rows =
      ((task.communicated gpu rank).column icol).elements.flatten.length := by
  have size : ((task.communicated gpu rank).column icol).size =
      (task.communicated gpu rank).num_rows := by
    rw [task.size_communicated gpu rankBound icolBound, sound.num_rows_communicated gpu rankBound]
  have inside : icol < (task.communicated gpu rank).length :=
    icolBound.trans_eq (task.length_communicated gpu rankBound).symm
  apply column_length_eq
  rw [Table.map_getD_rows inside size,
    Column.cells_eq (task.null_mask_communicated gpu rankBound icolBound)]

/-- A rank gets at most the characters that it receives, and fewer if it cannot count
them. -/
theorem Whole.length_elements_string
    (whole : task.Whole)
    (gpu : Gpu)
    (supported : task.Supported)
    {rank icol : Nat}
    (rankBound : rank < n)
    (icolBound : icol < task.schema.length)
    (string : task.IsString icol)
    (aligned : ∀ source, source < n → task.Aligned source)
    (small : task.received_rows rank < 2 ^ 31) :
    (((task.communicated gpu rank).column icol).elements.flatten.length : Int) ≤
        task.received_chars icol rank ∧
      (2 ^ 31 ≤ task.received_chars icol rank →
        (((task.communicated gpu rank).column icol).elements.flatten.length : Int) <
          task.received_chars icol rank) := by
  have fits : ∀ size ∈ task.received_sizes icol rank, toSizeType size = size := fun _ =>
    toSizeType_of_mem_received_sizes rankBound
  have type : ((task.communicated gpu rank).column icol).type.id = .STRING := by
    rw [task.type_communicated gpu rankBound icolBound]
    exact string
  have size : ((task.communicated gpu rank).column icol).size.toNat =
      (task.received_sizes icol rank).length := by
    have total := whole.total_data_eq icol rankBound
    rw [task.size_communicated gpu rankBound icolBound,
      toSizeType_eq (whole.received_rows_nonneg rankBound) small, length_received_sizes]
    omega
  have lengths : ((task.communicated gpu rank).column icol).elements.flatten.length =
      (cut_lengths 0 (task.received_sizes icol rank)).sum := by
    rw [Column.elements_string (task.offset_communicated gpu rankBound icolBound) type,
      whole.child_offsets_received gpu supported rankBound icolBound string small,
      calculate_string_offsets_eq_scanl fits, List.length_flatten, List.map_map, size,
      cut_lengths]
    congr 1
    apply List.map_congr_left
    intro row _
    exact length_readRange _ _ _
  have each : ∀ size ∈ task.received_sizes icol rank, 0 ≤ size ∧ size < 2 ^ 31 := by
    intro size member
    have narrowed := toSizeType_lt size
    rw [fits size member] at narrowed
    exact ⟨whole.received_sizes_nonneg rankBound icolBound string member, narrowed⟩
  have cut : ((cut_lengths 0 (task.received_sizes icol rank)).sum : Int) ≤ _ ∧ _ :=
    sum_cut_lengths (by decide) (by decide) each
  rw [← whole.sum_received_sizes rankBound icolBound string aligned, lengths]
  rwa [Int.zero_add] at cut

end Redistribution

namespace Shuffle

variable {n : Nat} (shuffle : Shuffle n)

/-- The shuffle returns tables in which every group has the rows that it had before. -/
def NullsSurvive
    (eager : Eagerness ranks)
    (gpu : Gpu)
    (hash_partition : HashPartition) : Prop :=
  ∃ result, Returns n eager (shuffle.program hash_partition gpu) result ∧
    ∀ rank, rank < n →
      (shuffle.layout.group_rows result rank).Perm (shuffle.layout.group_rows shuffle.input rank)

variable {shuffle}
variable {hash : HashId → Nat → List Cell → Nat} {hash_partition : HashPartition}

namespace AllPartitioned

variable (partitioned : shuffle.AllPartitioned hash hash_partition)

/-- Rows survive if all columns can be created and what arrives are these rows. -/
theorem nullsSurvive_iff_perm
    {eager : Eagerness ranks}
    (gpu : Gpu)
    (supported : partitioned.redistribution.Supported) :
    shuffle.NullsSurvive eager gpu hash_partition ↔
      partitioned.redistribution.Allocates ∧ ∀ rank, rank < n →
        (shuffle.layout.group_rows (partitioned.redistribution.communicated gpu) rank).Perm
          (shuffle.layout.group_rows shuffle.input rank) := by
  have settles : partitioned.redistribution.Allocates →
      Settles n eager (partitioned.redistribution.program gpu) _ _ := fun allocates =>
    Settles.of_returning
      (partitioned.redistribution.phase_program gpu supported partitioned.whole.narrow allocates)
  constructor
  · rintro ⟨result, returns, survived⟩
    have allocates : partitioned.redistribution.Allocates := fun rank rankBound refused =>
      partitioned.redistribution.not_returns_of_refused eager gpu rankBound refused result returns
    refine ⟨allocates, fun rank rankBound => ?_⟩
    have same : shuffle.layout.group_rows (partitioned.redistribution.communicated gpu) rank =
        shuffle.layout.group_rows result rank :=
      List.flatMap_congr fun index range => by
        rw [(settles allocates).returns.unique returns
          (shuffle.layout.member_lt rankBound (List.mem_range.mp range))]
    rw [same]
    exact survived rank rankBound
  · rintro ⟨allocates, survived⟩
    exact ⟨_, (settles allocates).returns, survived⟩

/-- What arrives has no nulls. -/
theorem nonNull_of_perm
    (gpu : Gpu)
    {rank : Nat}
    (rankBound : rank < n)
    (survived : (shuffle.layout.group_rows
      (partitioned.redistribution.communicated gpu) rank).Perm
        (shuffle.layout.group_rows shuffle.input rank))
    {index : Nat}
    (indexBound : index < shuffle.layout.group_size) :
    (shuffle.input (shuffle.layout.member rank index)).NonNull := by
  intro row member null
  have inGroup : row ∈ shuffle.layout.group_rows shuffle.input rank :=
    List.mem_flatMap.mpr ⟨index, List.mem_range.mpr indexBound, member⟩
  obtain ⟨place, range, arrived⟩ := List.mem_flatMap.mp (survived.mem_iff.mpr inGroup)
  have placeBound := shuffle.layout.member_lt rankBound (List.mem_range.mp range)
  have masks : ∀ column ∈ partitioned.redistribution.communicated gpu
      (shuffle.layout.member rank place), column.null_mask = none := by
    intro column columnMember
    obtain ⟨icol, icolBound, rfl⟩ :=
      partitioned.redistribution.mem_communicated gpu placeBound columnMember
    exact partitioned.redistribution.null_mask_communicated gpu placeBound icolBound
  exact Table.nonNull_of_masks
    (fun _ => partitioned.whole.sizes_communicated gpu placeBound) masks row arrived null

/-- No rank receives more rows than it can count. -/
theorem received_rows_lt_of_perm
    (gpu : Gpu)
    {rank : Nat}
    (rankBound : rank < n)
    (survived : (shuffle.layout.group_rows
      (partitioned.redistribution.communicated gpu) rank).Perm
        (shuffle.layout.group_rows shuffle.input rank))
    {index : Nat}
    (indexBound : index < shuffle.layout.group_size) :
    partitioned.redistribution.received_rows (shuffle.layout.member rank index) < 2 ^ 31 := by
  let task := partitioned.redistribution
  have sound : task.Sound := partitioned.whole.toSound
  have arrived : ∀ place, place < shuffle.layout.group_size →
      (task.communicated gpu (shuffle.layout.member rank place)).rows.length =
        (toSizeType (task.received_rows (shuffle.layout.member rank place))).toNat := by
    intro place placeBound
    rw [Table.length_rows,
      sound.num_rows_communicated gpu (shuffle.layout.member_lt rankBound placeBound)]
  have sent : ∀ place, place < shuffle.layout.group_size →
      ((task.gathered_rows (shuffle.layout.member rank place)).length : Int) =
        task.received_rows (shuffle.layout.member rank place) := fun place placeBound =>
    sound.length_gathered_rows (shuffle.layout.member_lt rankBound placeBound)
  have union := survived.trans (partitioned.gathered_rows_union rankBound).symm
  have bounded : ∀ place, place < shuffle.layout.group_size →
      (task.communicated gpu (shuffle.layout.member rank place)).rows.length ≤
        (task.gathered_rows (shuffle.layout.member rank place)).length := by
    intro place placeBound
    have counted := sent place placeBound
    have narrower := toSizeType_le
      (sound.received_rows_nonneg (shuffle.layout.member_lt rankBound placeBound))
    rw [arrived place placeBound]
    omega
  have same : (task.communicated gpu (shuffle.layout.member rank index)).rows.length =
      (task.gathered_rows (shuffle.layout.member rank index)).length :=
    Relational.length_eq_of_perm union bounded indexBound
  have counted := sent index indexBound
  have narrowed := toSizeType_lt (task.received_rows (shuffle.layout.member rank index))
  rw [arrived index indexBound] at same
  change task.received_rows (shuffle.layout.member rank index) < 2 ^ 31
  omega

/-- If nothing is null, no rank receives more characters than it can count. -/
theorem received_chars_lt_of_perm
    (gpu : Gpu)
    (supported : partitioned.redistribution.Supported)
    {rank : Nat}
    (rankBound : rank < n)
    (survived : (shuffle.layout.group_rows
      (partitioned.redistribution.communicated gpu) rank).Perm
        (shuffle.layout.group_rows shuffle.input rank))
    {index icol : Nat}
    (indexBound : index < shuffle.layout.group_size)
    (icolBound : icol < shuffle.schema.length)
    (string : partitioned.redistribution.IsString icol) :
    partitioned.redistribution.received_chars icol (shuffle.layout.member rank index) <
      2 ^ 31 := by
  let task := partitioned.redistribution
  have whole : task.Whole := partitioned.whole
  have lengths : ∀ place, place < shuffle.layout.group_size →
      (column_length icol (task.communicated gpu (shuffle.layout.member rank place)).rows : Int) ≤
          task.received_chars icol (shuffle.layout.member rank place) ∧
        (2 ^ 31 ≤ task.received_chars icol (shuffle.layout.member rank place) →
          (column_length icol (task.communicated gpu (shuffle.layout.member rank place)).rows :
            Int) < task.received_chars icol (shuffle.layout.member rank place)) := by
    intro place placeBound
    have memberBound := shuffle.layout.member_lt rankBound placeBound
    rw [whole.column_length_communicated gpu memberBound icolBound]
    exact whole.length_elements_string gpu supported memberBound icolBound string
      (fun _ => partitioned.aligned)
      (partitioned.received_rows_lt_of_perm gpu rankBound survived placeBound)
  have sent : ∀ place, place < shuffle.layout.group_size →
      (column_length icol (task.gathered_rows (shuffle.layout.member rank place)) : Int) =
        task.received_chars icol (shuffle.layout.member rank place) := by
    intro place placeBound
    have memberBound := shuffle.layout.member_lt rankBound placeBound
    refine (partitioned.received_chars_eq memberBound (fun other otherBound => ?_) icolBound
      string).symm
    rw [shuffle.layout.member_member rank other placeBound]
    exact partitioned.nonNull_of_perm gpu rankBound survived otherBound
  have union := survived.trans (partitioned.gathered_rows_union rankBound).symm
  have bounded : ∀ place, place < shuffle.layout.group_size →
      column_length icol (task.communicated gpu (shuffle.layout.member rank place)).rows ≤
        column_length icol (task.gathered_rows (shuffle.layout.member rank place)) := by
    intro place placeBound
    have fewer := (lengths place placeBound).1
    rw [← sent place placeBound] at fewer
    exact_mod_cast fewer
  have same : column_length icol (task.communicated gpu (shuffle.layout.member rank index)).rows =
      column_length icol (task.gathered_rows (shuffle.layout.member rank index)) :=
    Relational.sum_weight_eq_of_perm _ union bounded indexBound
  by_contra large
  have fewer := (lengths index indexBound).2 (not_lt.mp large)
  rw [← sent index indexBound, same] at fewer
  exact absurd fewer (lt_irrefl _)

end AllPartitioned

end Shuffle

/-- The rows of all groups survive a shuffle if and only if none of them has a null and no
rank receives `2 ^ 31` rows, or `2 ^ 31` characters of a column, or more, or with strings
`2 ^ 31 - 1` rows. -/
theorem nulls_survive_iff
    {n : Nat}
    (eager : Eagerness ranks)
    (gpu : Gpu)
    (hash : HashId → Nat → List Cell → Nat)
    (hash_partition : HashPartition)
    (shuffle : Shuffle n)
    (partitioned : shuffle.AllPartitioned hash hash_partition)
    (supported : partitioned.redistribution.Supported) :
    shuffle.NullsSurvive eager gpu hash_partition ↔
      ∀ rank, rank < n →
        (shuffle.input rank).NonNull ∧ partitioned.redistribution.Fits rank := by
  rw [partitioned.nullsSurvive_iff_perm gpu supported]
  constructor
  · rintro ⟨allocates, survived⟩ rank rankBound
    have own := shuffle.layout.member_local_idx rank
    have indexBound := shuffle.layout.local_idx_lt rank
    have kept := survived rank rankBound
    have rows := partitioned.received_rows_lt_of_perm gpu rankBound kept indexBound
    have nonNull := partitioned.nonNull_of_perm gpu rankBound kept indexBound
    rw [own] at rows nonNull
    refine ⟨nonNull, rows, fun icol icolBound string => ?_, fun icol icolBound string => ?_⟩
    · have offsets : partitioned.redistribution.received_rows rank + 1 ≠ 2 ^ 31 := fun exhausted =>
        allocates rank rankBound
          (partitioned.redistribution.refused_of_offsets rankBound icolBound string exhausted)
      omega
    · have chars := partitioned.received_chars_lt_of_perm gpu supported rankBound kept indexBound
        icolBound string
      rwa [own] at chars
  · intro condition
    have sound : partitioned.redistribution.Sound := partitioned.whole.toSound
    refine ⟨sound.allocates fun rank rankBound => (condition rank rankBound).2,
      fun rank rankBound => ?_⟩
    have arrived : shuffle.layout.group_rows (partitioned.redistribution.communicated gpu) rank =
        (List.range shuffle.layout.group_size).flatMap fun index =>
          partitioned.redistribution.gathered_rows (shuffle.layout.member rank index) := by
      apply List.flatMap_congr
      intro index range
      have memberBound := shuffle.layout.member_lt rankBound (List.mem_range.mp range)
      exact partitioned.rows_communicated_eq gpu supported memberBound
        (fun other otherBound => (condition _ (shuffle.layout.member_lt memberBound otherBound)).1)
        (condition _ memberBound).2
    rw [arrived]
    exact partitioned.gathered_rows_union rankBound

/-- Words and their keys survive. -/
theorem nulls_survive_two_ranks :
    (rowsShuffle [⟨.INT8, 0⟩, ⟨.STRING, 0⟩] fun _ => keysAndWords).NullsSurvive
      (fun _ _ _ _ => false) storingGpu (sorted_by_hash sumOfBytes) :=
  (nulls_survive_iff (fun _ _ _ _ => false) storingGpu sumOfBytes (sorted_by_hash sumOfBytes) _
    partitioned_keysAndWords (Redistribution.uncompressed_of_no_options rfl).supported).mpr
      fun _ rankBound =>
        ⟨show ∀ row ∈ (Table.ofRows _ keysAndWords).rows, none ∉ row by decide,
          fits_keysAndWords rankBound⟩

/-- A row with a key and a null. -/
def keyAndNull : Table :=
  Table.ofRows [⟨.INT8, 0⟩, ⟨.INT8, 0⟩] [[some [7], none]]

theorem sound_keyAndNull : keyAndNull.Sound where
  columns := by
    intro column member
    have small : column.size = 1 ∧ column.type.id ≠ .STRING :=
      (show ∀ column ∈ keyAndNull, column.size = 1 ∧ column.type.id ≠ .STRING by decide)
        column member
    exact {
      size_nonneg := by omega
      size_lt := by omega
      offsets_cover := fun string => absurd string small.2
      offsets_sorted := fun string => absurd string small.2
      offsets_bound := fun string => absurd string small.2
      chars_lt := fun string => absurd string small.2 }
  sizes := by decide

/-- The shuffle of a row with a null on a single rank. -/
def nullShuffle : Shuffle 1 where
  layout := .singleRank
  schema := [⟨.INT8, 0⟩, ⟨.INT8, 0⟩]
  input := fun _ => keyAndNull
  same_schema := fun _ _ => Table.schema_ofRows _ _
  on_columns := [0]
  options := []
  group_by_batch := false
  hash_function := .HASH_IDENTITY
  hash_seed := 0

theorem partitioned_nullShuffle : nullShuffle.AllPartitioned sumOfBytes (sorted_by_hash sumOfBytes) :=
  Shuffle.allPartitioned_sorted_by_hash sumOfBytes fun _ _ => sound_keyAndNull

/-- A null does not survive a shuffle. -/
theorem null_lost :
    keyAndNull.Sound ∧ nullShuffle.AllPartitioned sumOfBytes (sorted_by_hash sumOfBytes) ∧
      ¬ nullShuffle.NullsSurvive (fun _ _ _ _ => false) storingGpu
        (sorted_by_hash sumOfBytes) := by
  refine ⟨sound_keyAndNull, partitioned_nullShuffle, fun survive => ?_⟩
  obtain ⟨_, survived⟩ := (partitioned_nullShuffle.nullsSurvive_iff_perm storingGpu
    (Redistribution.uncompressed_of_no_options rfl).supported).mp survive
  have nonNull : keyAndNull.NonNull := partitioned_nullShuffle.nonNull_of_perm storingGpu
    Nat.one_pos (survived 0 Nat.one_pos) Nat.one_pos
  exact nonNull [some [7], none] (by decide) (by decide)

end DistributedJoin
