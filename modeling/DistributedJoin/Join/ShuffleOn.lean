import DistributedJoin.Comm.FixedWidth
import DistributedJoin.Cudf.FromRows

/-!
# Shuffling tables

Every rank sorts its table by the hash values of the keys and sends each member of
its group the rows of one partition. Together the members keep all rows, and rows
with equal keys meet on one rank.
-/

namespace DistributedJoin

open Device Spmd

/-- Shuffle the table according to the hash values. -/
def shuffle_on
    (hash_partition : HashPartition)
    (gpu : Gpu)
    (input : Table)
    (on_columns : List Nat)
    (comm_group : CommunicationGroup)
    (communicator : Communicator)
    (compression_options : List ColumnCompressionOptions)
    (hash_function : HashId)
    (hash_seed : Nat) : Process ranks Table :=
  let (hashed_input, offsets) :=
    hash_partition input on_columns comm_group.size hash_function hash_seed
  redistribute gpu hashed_input (offsets ++ [hashed_input.num_rows]) comm_group communicator
    compression_options true

/-- What a rank sends to a member lies between two of its offsets. -/
theorem Redistribution.Sound.part_eq_slice
    {α : Type}
    {n : Nat}
    {task : Redistribution n}
    (sound : task.Sound)
    (values : List α)
    {rank index : Nat}
    (rankBound : rank < n)
    (indexBound : index < task.layout.group_size) :
    task.part values rank index =
      Relational.slice values (task.first_row rank index) (task.first_row rank (index + 1)) := by
  rw [Relational.slice, sound.first_row_succ rankBound indexBound, Nat.add_sub_cancel_left]
  rfl

/-- If no member has a null, a rank gets the rows of the members. -/
theorem Redistribution.Sound.gathered_stored_rows_eq
    {n : Nat}
    {task : Redistribution n}
    (sound : task.Sound)
    {rank : Nat}
    (rankBound : rank < n)
    (non_null : ∀ index, index < task.layout.group_size →
      (task.table (task.layout.member rank index)).NonNull) :
    task.gathered_stored_rows rank = task.gathered_rows rank := by
  apply List.flatMap_congr
  intro index range
  have sourceBound := task.layout.member_lt rankBound (List.mem_range.mp range)
  have stored := (non_null index (List.mem_range.mp range)).stored_rows_eq
    (sound.sound_tables _ sourceBound).sizes
  exact congrArg (fun rows => task.part rows _ _) stored

/-- The number of bytes that rows have in a column. -/
def column_length (icol : Nat) (rows : List Row) : Nat :=
  (rows.map fun row => ((row.getD icol none).getD []).length).sum

/-- The number of bytes, read from the column. -/
theorem column_length_eq
    {icol : Nat}
    {rows : List Row}
    {elements : List (List Byte)}
    (column : (rows.map fun row => row.getD icol none) = elements.map some) :
    column_length icol rows = elements.flatten.length := by
  have lengths := congrArg (fun cells : List Cell => (cells.map fun cell =>
    (cell.getD []).length).sum) column
  simp only [List.map_map] at lengths
  rw [List.length_flatten]
  exact lengths

/-- The bytes of a column that are sent to a rank. -/
theorem Redistribution.Sound.column_length_gathered
    {n : Nat}
    {task : Redistribution n}
    (sound : task.Sound)
    {rank icol : Nat}
    (rankBound : rank < n)
    (icolBound : icol < task.schema.length) :
    column_length icol (task.gathered_stored_rows rank) =
      (task.gathered_elements icol rank).flatten.length := by
  let columns := (List.range task.schema.length).map fun icol =>
    (task.gathered_elements icol rank).map some
  have bound : icol < columns.length := by simpa [columns] using icolBound
  have cells : columns[icol] = (task.gathered_elements icol rank).map some := by
    simp [columns]
  have count : columns[icol].length = (task.received_rows rank).toNat := by
    have length := sound.length_gathered_elements rankBound icolBound
    rw [cells, List.length_map]
    omega
  apply column_length_eq
  rw [← sound.rowsOf_gathered rankBound, ← cells]
  exact map_getD_rowsOf bound count

/-- The rows of the tables of a group. -/
def Layout.group_rows {n : Nat} (layout : Layout n) (table : Nat → Table) (rank : Nat) : List Row :=
  (List.range layout.group_size).flatMap fun index => (table (layout.member rank index)).rows

/-- One collective call of `shuffle_on`. -/
structure Shuffle (n : Nat) where
  layout : Layout n
  schema : List DataType
  input : Nat → Table
  /-- All ranks have tables of the same schema. -/
  same_schema : ∀ rank, rank < n → (input rank).schema = schema
  on_columns : List Nat
  options : List ColumnCompressionOptions
  group_by_batch : Bool
  hash_function : HashId
  hash_seed : Nat

namespace Shuffle

variable {n : Nat} (shuffle : Shuffle n)

/-- The program of all ranks. -/
def program (hash_partition : HashPartition) (gpu : Gpu) (rank : Nat) : Process ranks Table :=
  shuffle_on hash_partition gpu (shuffle.input rank) shuffle.on_columns
    (shuffle.layout.group rank) (communicatorOf n shuffle.group_by_batch rank) shuffle.options
    shuffle.hash_function shuffle.hash_seed

/-- The partitions of a rank. -/
def hashed (hash_partition : HashPartition) (rank : Nat) : Table × List Int :=
  hash_partition (shuffle.input rank) shuffle.on_columns shuffle.layout.group_size
    shuffle.hash_function shuffle.hash_seed

/-- All ranks get their tables sorted into partitions. -/
def AllPartitioned
    (hash : HashId → Nat → List Cell → Nat)
    (hash_partition : HashPartition) : Prop :=
  ∀ rank, rank < n →
    Partitioned (hash shuffle.hash_function shuffle.hash_seed) shuffle.on_columns
      shuffle.layout.group_size (shuffle.input rank) (shuffle.hashed hash_partition rank).1
      (shuffle.hashed hash_partition rank).2

/-- The index in its group of the rank that a row ends on. -/
def bucket (hash : HashId → Nat → List Cell → Nat) (row : Row) : Nat :=
  hash shuffle.hash_function shuffle.hash_seed (keyOf shuffle.on_columns row) %
    shuffle.layout.group_size

theorem bucket_lt (hash : HashId → Nat → List Cell → Nat) (row : Row) :
    shuffle.bucket hash row < shuffle.layout.group_size :=
  Nat.mod_lt _ shuffle.layout.group_size_pos

variable {shuffle}
variable {hash : HashId → Nat → List Cell → Nat} {hash_partition : HashPartition}

namespace AllPartitioned

variable (partitioned : shuffle.AllPartitioned hash hash_partition)
include partitioned

/-- The communication of the partitions. -/
def redistribution : Redistribution n where
  layout := shuffle.layout
  schema := shuffle.schema
  table := fun rank => (shuffle.hashed hash_partition rank).1
  same_schema := fun rank rankBound =>
    (partitioned rank rankBound).schema.trans (shuffle.same_schema rank rankBound)
  offsets := fun rank => (shuffle.hashed hash_partition rank).2 ++
    [(shuffle.hashed hash_partition rank).1.num_rows]
  options := shuffle.options
  group_by_batch := shuffle.group_by_batch
  explicit_copy_to_current_rank := true

theorem whole : partitioned.redistribution.Whole where
  sound_tables := fun rank rankBound => (partitioned rank rankBound).sound
  unsliced := fun rank rankBound => (partitioned rank rankBound).unsliced
  offsets_length := fun rank rankBound => (partitioned rank rankBound).length_append
  offsets_sorted := fun rank rankBound => (partitioned rank rankBound).sorted_append
  offsets_inside := fun rank rankBound _ => (partitioned rank rankBound).append_inside

/-- The first partition starts with the first row. -/
theorem headD_offsets {rank : Nat} (rankBound : rank < n) :
    (partitioned.redistribution.offsets rank).headD 0 = 0 := by
  have length := (partitioned rank rankBound).offsets_length
  have first := (partitioned rank rankBound).offsets_first
  have positive := shuffle.layout.group_size_pos
  change ((shuffle.hashed hash_partition rank).2 ++ [_]).headD 0 = 0
  cases offsets : (shuffle.hashed hash_partition rank).2 with
  | nil =>
      rw [offsets, List.length_nil] at length
      omega
  | cons offset rest =>
      rw [offsets] at first
      exact first

theorem aligned {rank : Nat} (rankBound : rank < n) :
    partitioned.redistribution.Aligned rank :=
  .inl (partitioned.headD_offsets rankBound)

/-- The rows of a partition. -/
theorem part_rows
    {rank index : Nat}
    (rankBound : rank < n)
    (indexBound : index < shuffle.layout.group_size) :
    partitioned.redistribution.part (shuffle.hashed hash_partition rank).1.rows rank index =
      (shuffle.hashed hash_partition rank).1.rows.filter fun row =>
        shuffle.bucket hash row = index := by
  have sound : partitioned.redistribution.Sound := partitioned.whole.toSound
  exact (sound.part_eq_slice _ rankBound indexBound).trans
    ((partitioned rank rankBound).slice_rows indexBound)

/-- A rank gets the rows of its group that its index stands for. -/
theorem gathered_rows_eq {rank : Nat} (rankBound : rank < n) :
    partitioned.redistribution.gathered_rows rank =
      (shuffle.layout.group_rows (fun source => (shuffle.hashed hash_partition source).1) rank).filter
        fun row => shuffle.bucket hash row = shuffle.layout.local_idx rank := by
  rw [Layout.group_rows, List.filter_flatMap]
  apply List.flatMap_congr
  intro index range
  exact partitioned.part_rows (shuffle.layout.member_lt rankBound (List.mem_range.mp range))
    (shuffle.layout.local_idx_lt rank)

theorem group_rows_hashed {rank : Nat} (rankBound : rank < n) :
    (shuffle.layout.group_rows (fun source => (shuffle.hashed hash_partition source).1) rank).Perm
      (shuffle.layout.group_rows shuffle.input rank) :=
  List.Perm.flatMap_left _ fun _ range => (partitioned _
    (shuffle.layout.member_lt rankBound (List.mem_range.mp range))).rows

/-- Up to their order these are rows of the input. -/
theorem gathered_rows_perm {rank : Nat} (rankBound : rank < n) :
    (partitioned.redistribution.gathered_rows rank).Perm
      ((shuffle.layout.group_rows shuffle.input rank).filter
        fun row => shuffle.bucket hash row = shuffle.layout.local_idx rank) := by
  rw [partitioned.gathered_rows_eq rankBound]
  exact (partitioned.group_rows_hashed rankBound).filter _

/-- If all rows stand for the first rank of a group, it gets all of them. -/
theorem gathered_rows_of_first
    (first : ∀ row, shuffle.bucket hash row = 0)
    {rank : Nat}
    (rankBound : rank < n) :
    (partitioned.redistribution.gathered_rows rank).Perm
      (if shuffle.layout.local_idx rank = 0 then shuffle.layout.group_rows shuffle.input rank
        else []) := by
  have gathered := partitioned.gathered_rows_perm rankBound
  simp only [first] at gathered
  split
  · rename_i here
    simpa [here] using gathered
  · rename_i elsewhere
    simpa [Ne.symm elsewhere] using gathered

end AllPartitioned

end Shuffle

/-- All members of a group see the same rows. -/
theorem Layout.group_rows_member
    {n : Nat}
    (layout : Layout n)
    (table : Nat → Table)
    (rank : Nat)
    {index : Nat}
    (indexBound : index < layout.group_size) :
    layout.group_rows table (layout.member rank index) = layout.group_rows table rank := by
  unfold group_rows
  simp only [layout.member_member rank _ indexBound]

namespace Shuffle.AllPartitioned

variable {n : Nat} {shuffle : Shuffle n}
variable {hash : HashId → Nat → List Cell → Nat} {hash_partition : HashPartition}
variable (partitioned : shuffle.AllPartitioned hash hash_partition)

/-- Together the members of a group get all rows of the group. -/
theorem gathered_rows_union {rank : Nat} (rankBound : rank < n) :
    ((List.range shuffle.layout.group_size).flatMap fun index =>
        partitioned.redistribution.gathered_rows (shuffle.layout.member rank index)).Perm
      (shuffle.layout.group_rows shuffle.input rank) := by
  have sorted : ((List.range shuffle.layout.group_size).flatMap fun index =>
      (shuffle.layout.group_rows shuffle.input rank).filter
        fun row => shuffle.bucket hash row = index).Perm _ :=
    Relational.flatMap_filter_perm fun row _ => shuffle.bucket_lt hash row
  refine (List.Perm.flatMap_left _ fun index range => ?_).trans sorted
  have indexBound := List.mem_range.mp range
  have gathered := partitioned.gathered_rows_perm (shuffle.layout.member_lt rankBound indexBound)
  rwa [shuffle.layout.group_rows_member _ rank indexBound,
    shuffle.layout.local_idx_member rank indexBound] at gathered

/-- If the group has no nulls, its ranks are sent the rows of the partitions. -/
theorem gathered_stored_rows_eq
    {rank : Nat}
    (rankBound : rank < n)
    (non_null : ∀ index, index < shuffle.layout.group_size →
      (shuffle.input (shuffle.layout.member rank index)).NonNull) :
    partitioned.redistribution.gathered_stored_rows rank =
      partitioned.redistribution.gathered_rows rank :=
  partitioned.whole.toSound.gathered_stored_rows_eq rankBound fun index indexBound =>
    (non_null index indexBound).of_perm
      (partitioned _ (shuffle.layout.member_lt rankBound indexBound)).rows

/-- If nothing is null, a rank receives the characters of the rows of the partitions. -/
theorem received_chars_eq
    {rank icol : Nat}
    (rankBound : rank < n)
    (non_null : ∀ index, index < shuffle.layout.group_size →
      (shuffle.input (shuffle.layout.member rank index)).NonNull)
    (icolBound : icol < shuffle.schema.length)
    (string : partitioned.redistribution.IsString icol) :
    partitioned.redistribution.received_chars icol rank =
      column_length icol (partitioned.redistribution.gathered_rows rank) := by
  rw [← partitioned.gathered_stored_rows_eq rankBound non_null,
    partitioned.whole.toSound.column_length_gathered rankBound icolBound]
  exact (partitioned.whole.length_flatten_gathered rankBound icolBound string).symm

/-- If nothing is null and everything can be counted, a rank gets the rows of the
partitions. -/
theorem rows_communicated_eq
    (gpu : Gpu)
    (supported : partitioned.redistribution.Supported)
    {rank : Nat}
    (rankBound : rank < n)
    (non_null : ∀ index, index < shuffle.layout.group_size →
      (shuffle.input (shuffle.layout.member rank index)).NonNull)
    (fits : partitioned.redistribution.Fits rank) :
    (partitioned.redistribution.communicated gpu rank).rows =
      partitioned.redistribution.gathered_rows rank := by
  rw [partitioned.whole.stored_rows_communicated gpu supported rankBound
    (fun _ => partitioned.aligned) fits, partitioned.gathered_stored_rows_eq rankBound non_null]

end Shuffle.AllPartitioned

/-- The result of a shuffle: every group keeps its rows, and every row is on the rank
that its key is assigned to. -/
structure Shuffled
    {n : Nat}
    (hash : HashId → Nat → List Cell → Nat)
    (shuffle : Shuffle n)
    (result : Nat → Table) : Prop where
  schema : ∀ rank, rank < n → (result rank).schema = shuffle.schema
  rows : ∀ rank, rank < n →
    (shuffle.layout.group_rows result rank).Perm (shuffle.layout.group_rows shuffle.input rank)
  placed : ∀ rank, rank < n → ∀ row ∈ (result rank).rows,
    shuffle.bucket hash row = shuffle.layout.local_idx rank

/-- Two tables that are shuffled with the same groups, hash function and seed. -/
structure Shuffle.Compatible {n : Nat} (first second : Shuffle n) : Prop where
  layout : first.layout = second.layout
  hash_function : first.hash_function = second.hash_function
  hash_seed : first.hash_seed = second.hash_seed

/-- Rows with equal keys in two shuffled tables of one group are on the same rank. -/
theorem Shuffled.same_rank
    {n : Nat}
    {hash : HashId → Nat → List Cell → Nat}
    {first second : Shuffle n}
    {result other : Nat → Table}
    (left : Shuffled hash first result)
    (right : Shuffled hash second other)
    (compatible : first.Compatible second)
    {rank index : Nat}
    (rankBound : rank < n)
    (indexBound : index < first.layout.group_size)
    {row candidate : Row}
    (member : row ∈ (result rank).rows)
    (candidateMember : candidate ∈ (other (first.layout.member rank index)).rows)
    (same : keyOf first.on_columns row = keyOf second.on_columns candidate) :
    first.layout.member rank index = rank := by
  have here := left.placed rank rankBound row member
  have there := right.placed _ (first.layout.member_lt rankBound indexBound) candidate
    candidateMember
  have buckets : first.bucket hash row = second.bucket hash candidate := by
    unfold Shuffle.bucket
    rw [same, compatible.layout, compatible.hash_function, compatible.hash_seed]
  rw [buckets, there, ← compatible.layout,
    first.layout.local_idx_member rank indexBound] at here
  rw [here, first.layout.member_local_idx]

/-- If the columns can be created, a shuffle redistributes the rows of every group by their
keys: all rows are kept, and rows with equal keys, also those of another table, end on the
same rank. -/
theorem shuffle_on_by_key
    {n : Nat}
    (eager : Eagerness ranks)
    (gpu : Gpu)
    (hash : HashId → Nat → List Cell → Nat)
    (hash_partition : HashPartition)
    (shuffle : Shuffle n)
    (partitioned : shuffle.AllPartitioned hash hash_partition)
    (non_null : ∀ rank, rank < n → (shuffle.input rank).NonNull)
    (supported : partitioned.redistribution.Supported)
    (fits : ∀ rank, rank < n → partitioned.redistribution.Fits rank) :
    ∃ result, Returns n eager (shuffle.program hash_partition gpu) result ∧
      Shuffled hash shuffle result ∧
      ∀ (second : Shuffle n) (other : Nat → Table), Shuffled hash second other →
        shuffle.Compatible second →
        ∀ rank, rank < n → ∀ index, index < shuffle.layout.group_size →
          ∀ row ∈ (result rank).rows,
            ∀ candidate ∈ (other (shuffle.layout.member rank index)).rows,
              keyOf shuffle.on_columns row = keyOf second.on_columns candidate →
                shuffle.layout.member rank index = rank := by
  let task := partitioned.redistribution
  have settles : Settles n eager (task.program gpu) _ _ :=
    Settles.of_returning (task.phase_program gpu supported partitioned.whole.narrow
      (partitioned.whole.allocates fits))
  have arrived : ∀ rank, rank < n →
      (task.communicated gpu rank).rows = task.gathered_rows rank := fun rank rankBound =>
    partitioned.rows_communicated_eq gpu supported rankBound
      (fun _ indexBound => non_null _ (shuffle.layout.member_lt rankBound indexBound))
      (fits rank rankBound)
  have shuffled : Shuffled hash shuffle (task.communicated gpu) := by
    constructor
    case schema => exact fun rank rankBound => task.schema_communicated gpu rankBound
    case rows =>
      intro rank rankBound
      have union := partitioned.gathered_rows_union rankBound
      have members : shuffle.layout.group_rows (task.communicated gpu) rank =
          (List.range shuffle.layout.group_size).flatMap fun index =>
            task.gathered_rows (shuffle.layout.member rank index) :=
        List.flatMap_congr fun index range =>
          arrived _ (shuffle.layout.member_lt rankBound (List.mem_range.mp range))
      rwa [members]
    case placed =>
      intro rank rankBound row member
      rw [arrived rank rankBound, partitioned.gathered_rows_eq rankBound] at member
      exact of_decide_eq_true (List.mem_filter.mp member).2
  exact ⟨task.communicated gpu, settles.returns, shuffled,
    fun _ _ right compatible _ rankBound _ indexBound _ member _ candidateMember same =>
      shuffled.same_rank right compatible rankBound indexBound member candidateMember same⟩

/-- Sorting the rows of sound tables partitions them. -/
theorem Shuffle.allPartitioned_sorted_by_hash
    {n : Nat}
    {shuffle : Shuffle n}
    (hash : HashId → Nat → List Cell → Nat)
    (sound : ∀ rank, rank < n → (shuffle.input rank).Sound) :
    shuffle.AllPartitioned hash (sorted_by_hash hash) := fun rank rankBound =>
  partitioned_sorted_by_hash hash (sound rank rankBound) _ shuffle.layout.group_size_pos _ _

/-- A hash function that adds up the bytes of a key. -/
def sumOfBytes (_ : HashId) (_ : Nat) (key : List Cell) : Nat :=
  (key.map fun cell => ((cell.getD []).map UInt8.toNat).sum).sum

/-- Two ranks that shuffle rows by their first column. -/
def rowsShuffle (schema : List DataType) (rows : Nat → List Row) : Shuffle 2 where
  layout := .whole 2 Nat.two_pos
  schema := schema
  input := fun rank => .ofRows schema (rows rank)
  same_schema := fun _ _ => Table.schema_ofRows _ _
  on_columns := [0]
  options := []
  group_by_batch := false
  hash_function := .HASH_IDENTITY
  hash_seed := 0

theorem partitioned_rowsShuffle
    {schema : List DataType}
    {rows : Nat → List Row}
    (hash : HashId → Nat → List Cell → Nat)
    (fit : ∀ rank, rank < 2 → Table.RowsFit schema (rows rank)) :
    (rowsShuffle schema rows).AllPartitioned hash (sorted_by_hash hash) :=
  Shuffle.allPartitioned_sorted_by_hash hash fun rank rankBound =>
    Table.sound_ofRows (fit rank rankBound)

/-- A key and a word in each row. -/
def keysAndWords : List Row := [[some [1], some [97]], [some [2], some [98, 99]]]

theorem rowsFit_keysAndWords : Table.RowsFit [⟨.INT8, 0⟩, ⟨.STRING, 0⟩] keysAndWords where
  cells := by
    intro icol icolBound
    match icol, icolBound with
    | 0, _ =>
        exact {
          count := by decide
          width := fun _ bytes member => by
            simp only [keysAndWords, List.map_cons, List.map_nil, List.getD_cons_zero,
              List.mem_cons, Option.some.injEq, List.not_mem_nil, or_false] at member
            rcases member with rfl | rfl <;> rfl
          chars := fun string => TypeId.noConfusion string }
    | 1, _ =>
        exact {
          count := by decide
          width := fun fixed => absurd rfl fixed
          chars := fun _ => by decide }
  width := by decide
  empty := fun none => absurd none (List.cons_ne_nil _ _)

theorem partitioned_keysAndWords :
    (rowsShuffle [⟨.INT8, 0⟩, ⟨.STRING, 0⟩] fun _ => keysAndWords).AllPartitioned sumOfBytes
      (sorted_by_hash sumOfBytes) :=
  partitioned_rowsShuffle sumOfBytes fun _ _ => rowsFit_keysAndWords

theorem fits_keysAndWords
    {rank : Nat}
    (rankBound : rank < 2) :
    partitioned_keysAndWords.redistribution.Fits rank where
  rows := match rank, rankBound with
    | 0, _ => by decide
    | 1, _ => by decide
  offsets := fun _ _ _ => match rank, rankBound with
    | 0, _ => by decide
    | 1, _ => by decide
  chars := fun icol icolBound string => match rank, rankBound, icol, icolBound with
    | _, _, 0, _ => TypeId.noConfusion string
    | 0, _, 1, _ => by decide
    | 1, _, 1, _ => by decide

/-- Words are shuffled by odd and even keys. -/
theorem shuffle_on_by_key_two_ranks :
    ∃ result, Returns 2 (fun _ _ _ _ => false)
        ((rowsShuffle [⟨.INT8, 0⟩, ⟨.STRING, 0⟩] fun _ => keysAndWords).program
          (sorted_by_hash sumOfBytes) storingGpu) result ∧
      Shuffled sumOfBytes (rowsShuffle [⟨.INT8, 0⟩, ⟨.STRING, 0⟩] fun _ => keysAndWords)
        result := by
  obtain ⟨result, returns, shuffled, _⟩ := shuffle_on_by_key (fun _ _ _ _ => false) storingGpu
    sumOfBytes (sorted_by_hash sumOfBytes) _ partitioned_keysAndWords
    (fun rank _ => show ∀ row ∈ (Table.ofRows _ keysAndWords).rows, none ∉ row by decide)
    (Redistribution.uncompressed_of_no_options rfl).supported
    fun rank rankBound => fits_keysAndWords rankBound
  exact ⟨result, returns, shuffled⟩

/-- A hash function that sends all rows to the first rank. -/
def sameHash (_ : HashId) (_ : Nat) (_ : List Cell) : Nat := 0

/-- As many empty words on two ranks as a rank can count rows. -/
def emptyWords (rank : Nat) : List Row :=
  List.replicate (if rank = 0 then 2 ^ 30 else 2 ^ 30 - 1) [some []]

theorem length_emptyWords_le (rank : Nat) : (emptyWords rank).length ≤ 2 ^ 30 := by
  rw [emptyWords, List.length_replicate]
  split <;> omega

theorem rowsFit_emptyWords (rank : Nat) : Table.RowsFit [⟨.STRING, 0⟩] (emptyWords rank) where
  cells := by
    intro icol icolBound
    obtain rfl : icol = 0 := Nat.lt_one_iff.mp icolBound
    have small := length_emptyWords_le rank
    exact {
      count := by
        rw [List.length_map]
        omega
      width := fun fixed => absurd rfl fixed
      chars := fun _ => by
        simp [emptyWords, Column.storedBytes] }
  width := by
    intro row member
    rw [List.eq_of_mem_replicate member]
    rfl
  empty := fun none => absurd none (List.cons_ne_nil _ _)

theorem partitioned_emptyWords :
    (rowsShuffle [⟨.STRING, 0⟩] emptyWords).AllPartitioned sameHash (sorted_by_hash sameHash) :=
  partitioned_rowsShuffle sameHash fun rank _ => rowsFit_emptyWords rank

theorem rows_emptyWords (rank : Nat) :
    (Table.ofRows [⟨.STRING, 0⟩] (emptyWords rank)).rows = emptyWords rank :=
  Table.rows_ofRows (rowsFit_emptyWords rank).sized

/-- The first rank is sent all rows. -/
theorem gathered_emptyWords {rank : Nat} (rankBound : rank < 2) :
    (partitioned_emptyWords.redistribution.gathered_rows rank).Perm
      (List.replicate (if rank = 0 then 2 ^ 31 - 1 else 0) [some []]) := by
  have members : ∀ index, (Layout.whole 2 Nat.two_pos).member rank index = index :=
    Layout.member_whole Nat.two_pos rankBound
  have rows : (rowsShuffle [⟨.STRING, 0⟩] emptyWords).layout.group_rows
      (rowsShuffle [⟨.STRING, 0⟩] emptyWords).input rank =
        List.replicate (2 ^ 31 - 1) [some []] := by
    change ((List.range 2).flatMap fun index => (Table.ofRows _ (emptyWords
      ((Layout.whole 2 Nat.two_pos).member rank index))).rows) = _
    simp only [List.range_succ, List.range_zero, List.nil_append, List.flatMap_append,
      List.flatMap_singleton, members, rows_emptyWords]
    exact List.replicate_append_replicate
  have local_idx : (rowsShuffle [⟨.STRING, 0⟩] emptyWords).layout.local_idx rank = rank :=
    Layout.local_idx_whole Nat.two_pos rankBound
  have gathered := partitioned_emptyWords.gathered_rows_of_first (fun _ => rfl) rankBound
  rw [rows, local_idx] at gathered
  split at gathered
  · rename_i here
    rwa [if_pos here]
  · rename_i elsewhere
    rwa [if_neg elsewhere]

/-- If a rank is sent as many strings as it can count rows, it cannot create their offsets,
and the shuffle does not return. -/
theorem shuffle_on_refused :
    (∀ rank, rank < 2 →
      ((rowsShuffle [⟨.STRING, 0⟩] emptyWords).input rank).Sound ∧
      ((rowsShuffle [⟨.STRING, 0⟩] emptyWords).input rank).NonNull ∧
      partitioned_emptyWords.redistribution.received_rows rank < 2 ^ 31 ∧
      partitioned_emptyWords.redistribution.received_chars 0 rank < 2 ^ 31) ∧
    partitioned_emptyWords.redistribution.Uncompressed ∧
    ¬ ∃ result, Returns 2 (fun _ _ _ _ => false)
      ((rowsShuffle [⟨.STRING, 0⟩] emptyWords).program (sorted_by_hash sameHash) storingGpu)
        result := by
  have sound : partitioned_emptyWords.redistribution.Sound := partitioned_emptyWords.whole.toSound
  have nonNull : ∀ rank, ((rowsShuffle [⟨.STRING, 0⟩] emptyWords).input rank).NonNull := by
    intro rank row member
    rw [show ((rowsShuffle [⟨.STRING, 0⟩] emptyWords).input rank).rows = _ from
      rows_emptyWords rank] at member
    rw [List.eq_of_mem_replicate member]
    decide
  have received : ∀ rank, rank < 2 → partitioned_emptyWords.redistribution.received_rows rank =
      if rank = 0 then 2 ^ 31 - 1 else 0 := by
    intro rank rankBound
    rw [← sound.length_gathered_rows rankBound, (gathered_emptyWords rankBound).length_eq,
      List.length_replicate]
    split <;> rfl
  have chars : ∀ rank, rank < 2 →
      partitioned_emptyWords.redistribution.received_chars 0 rank = 0 := by
    intro rank rankBound
    rw [partitioned_emptyWords.received_chars_eq rankBound (fun _ _ => nonNull _) Nat.one_pos rfl,
      column_length, ((gathered_emptyWords rankBound).map _).sum_eq]
    simp
  refine ⟨fun rank rankBound => ⟨Table.sound_ofRows (rowsFit_emptyWords rank), nonNull rank,
    ?_, ?_⟩, Redistribution.uncompressed_of_no_options rfl, ?_⟩
  · rw [received rank rankBound]
    split <;> omega
  · rw [chars rank rankBound]
    decide
  · rintro ⟨result, returns⟩
    have exhausted : partitioned_emptyWords.redistribution.received_rows 0 + 1 = 2 ^ 31 :=
      congrArg (· + 1) (received 0 Nat.two_pos)
    have string : partitioned_emptyWords.redistribution.IsString 0 := rfl
    have refused := partitioned_emptyWords.redistribution.refused_of_offsets Nat.two_pos
      Nat.one_pos string exhausted
    exact partitioned_emptyWords.redistribution.not_returns_of_refused (fun _ _ _ _ => false)
      storingGpu Nat.two_pos refused result returns

end DistributedJoin
