import DistributedJoin.Comm.DistributeCollect

/-!
# Views of tables

A view of a table may be sliced: its rows begin at an offset in the buffers of its
columns. The communication code ignores the offset and reads the elements at the
beginning of the buffers, so two views with the same rows are treated alike if and
only if these elements agree.
-/

namespace DistributedJoin

open Device Spmd

namespace Table

/-- The views have the same columns and as many rows. -/
structure SameShape (first second : Table) : Prop where
  schema : first.schema = second.schema
  num_rows : first.num_rows = second.num_rows

/-- The elements at the beginning of the buffers of two views agree. -/
def SameHeads (first second : Table) : Prop :=
  ∀ icol, icol < first.length →
    (first.column icol).head_elements = (second.column icol).head_elements

theorem SameShape.length_eq {first second : Table} (shape : first.SameShape second) :
    first.length = second.length :=
  length_eq_of_schema shape.schema

theorem SameShape.type_eq
    {first second : Table}
    (shape : first.SameShape second)
    (icol : Nat) :
    (first.column icol).type = (second.column icol).type :=
  type_eq_of_schema shape.schema icol

theorem SameShape.fixedWidth
    {first second : Table}
    (shape : first.SameShape second)
    (fixed : first.FixedWidth) :
    second.FixedWidth := by
  intro column member
  have inSchema : column.type ∈ first.schema := by
    rw [shape.schema]
    exact List.mem_map_of_mem member
  obtain ⟨other, otherMember, type⟩ := List.mem_map.mp inSchema
  rw [← type]
  exact fixed other otherMember

end Table

/-- A rank produces the same value in two programs, in whatever order the ranks
run. -/
def SameResult
    {I : Interface}
    {α : Type}
    (n : Nat)
    (eager : Eagerness I)
    (first second : Nat → Process I α)
    (rank : Nat) : Prop :=
  ∀ value, Produces n eager first rank value ↔ Produces n eager second rank value

theorem sameResult_iff
    {I : Interface}
    {α : Type}
    {n : Nat}
    {eager : Eagerness I}
    {first second : Nat → Process I α}
    {result other : Nat → α}
    (left : Returns n eager first result)
    (right : Returns n eager second other)
    {rank : Nat}
    (rankBound : rank < n) :
    SameResult n eager first second rank ↔ result rank = other rank := by
  unfold SameResult
  simp only [left.produces_iff rankBound, right.produces_iff rankBound]
  constructor
  · exact fun same => ((same (result rank)).mp rfl).symm
  · exact fun same value => by rw [same]

/-- Concatenations of pieces with the same lengths determine the pieces. -/
theorem flatMap_range_inj
    {α : Type}
    {count : Nat}
    {first second : Nat → List α}
    (lengths : ∀ index, index < count → (first index).length = (second index).length)
    (same : (List.range count).flatMap first = (List.range count).flatMap second)
    {index : Nat}
    (indexBound : index < count) :
    first index = second index := by
  induction count with
  | zero => contradiction
  | succ count inductionHypothesis =>
      rw [List.range_succ, List.flatMap_append, List.flatMap_append, List.flatMap_singleton,
        List.flatMap_singleton] at same
      obtain ⟨earlier, last⟩ := List.append_inj' same (lengths count (Nat.lt_succ_self count))
      rcases Nat.lt_succ_iff_lt_or_eq.mp indexBound with before | rfl
      · exact inductionHypothesis (fun index below => lengths index (Nat.lt_succ_of_lt below))
          earlier before
      · exact last

section Distribute

variable {n : Nat} {first second : Table}

/-- The local tables agree exactly if the beginnings of the buffers do. -/
theorem distributed_eq_iff
    (gpu : Gpu)
    (n_pos : 0 < n)
    (firstSound : first.Sound)
    (secondSound : second.Sound)
    (fixed : first.FixedWidth)
    (secondFixed : second.FixedWidth)
    (shape : first.SameShape second) :
    (∀ rank, rank < n → distributed gpu first n rank = distributed gpu second n rank) ↔
      first.SameHeads second := by
  constructor
  · intro same icol icolBound
    rw [← flatMap_local_part (first.column icol).head_elements n_pos,
      ← flatMap_local_part (second.column icol).head_elements n_pos]
    apply List.flatMap_congr
    intro rank range
    have rankBound := List.mem_range.mp range
    have equal := same rank rankBound
    rw [distributed_eq firstSound rankBound, distributed_eq secondSound rankBound,
      ← shape.length_eq] at equal
    have types : (fun icol => distributed_dtype (second.column icol).type rank) =
        fun icol => distributed_dtype (first.column icol).type rank := by
      funext icol
      rw [shape.type_eq icol]
    have rectangular := rectangular_distributed secondSound secondFixed rankBound
    rw [types, ← shape.length_eq] at rectangular
    rw [types] at equal
    exact table_of_inj (rectangular_distributed firstSound fixed rankBound) rectangular
      equal icolBound
  · intro heads rank rankBound
    rw [distributed_eq firstSound rankBound, distributed_eq secondSound rankBound,
      ← shape.length_eq]
    apply List.map_congr_left
    intro icol range
    simp only [shape.type_eq icol, heads icol (List.mem_range.mp range)]

end Distribute

section Collect

variable {n : Nat} {first second : Nat → Table}

/-- Views of all ranks with the same columns and as many rows. -/
def SameShapes (n : Nat) (first second : Nat → Table) : Prop :=
  ∀ rank, rank < n → (first rank).SameShape (second rank)

theorem all_nrows_congr (shapes : SameShapes n first second) :
    all_nrows n first = all_nrows n second := by
  rw [all_nrows_eq, all_nrows_eq]
  apply List.map_congr_left
  intro rank range
  exact (shapes rank (List.mem_range.mp range)).num_rows

theorem merged_rows_congr (shapes : SameShapes n first second) :
    merged_rows n first = merged_rows n second := by
  rw [merged_rows, merged_rows, all_nrows_congr shapes]

/-- The merged tables agree if the beginnings of the buffers do, even if the rows
cannot be counted. -/
theorem merged_congr
    (n_pos : 0 < n)
    (gpu : Gpu)
    (firstSound : ∀ rank, rank < n → (first rank).Sound)
    (secondSound : ∀ rank, rank < n → (second rank).Sound)
    (mergeable : Mergeable n first)
    (shapes : SameShapes n first second)
    (heads : ∀ rank, rank < n → (first rank).SameHeads (second rank)) :
    merged gpu n first = merged gpu n second := by
  have rows := merged_rows_congr shapes
  rw [merged, merged, ← (shapes 0 n_pos).length_eq]
  apply List.map_congr_left
  intro icol range
  have icolBound := List.mem_range.mp range
  have type := (shapes 0 n_pos).type_eq icol
  rw [merged_column, merged_column, ← rows, ← type, all_nrows_congr shapes]
  congr 2
  rw [collected_writes, collected_writes, if_pos rfl, if_pos rfl]
  apply List.map_congr_left
  intro rank rankRange
  have rankBound := List.mem_range.mp rankRange
  have firstBound : icol < (first rank).length :=
    icolBound.trans_eq (mergeable.length_eq rankBound).symm
  have secondBound := firstBound.trans_eq (shapes rank rankBound).length_eq
  have firstRead := (firstSound rank rankBound).readRange_num_rows firstBound
  have secondRead := (secondSound rank rankBound).readRange_num_rows secondBound
  rw [← (shapes rank rankBound).type_eq icol] at secondRead
  rw [mergeable.type_eq rankBound icol] at firstRead secondRead
  rw [firstRead, secondRead, heads rank rankBound icol firstBound]

/-- As long as the rows can be counted, merged tables that agree come from buffers
that begin alike. -/
theorem heads_of_merged_eq
    (n_pos : 0 < n)
    (gpu : Gpu)
    (firstSound : ∀ rank, rank < n → (first rank).Sound)
    (secondSound : ∀ rank, rank < n → (second rank).Sound)
    (firstMergeable : Mergeable n first)
    (secondMergeable : Mergeable n second)
    (shapes : SameShapes n first second)
    (small : total_rows n first < 2 ^ 31)
    (same : merged gpu n first = merged gpu n second)
    {rank : Nat}
    (rankBound : rank < n) :
    (first rank).SameHeads (second rank) := by
  have secondSmall : total_rows n second < 2 ^ 31 := by
    rwa [total_rows, ← all_nrows_eq, ← all_nrows_congr shapes, all_nrows_eq]
  intro icol icolBound
  have rootBound := icolBound.trans_eq (firstMergeable.length_eq rankBound)
  rw [merged_eq gpu firstSound firstMergeable small,
    merged_eq gpu secondSound secondMergeable secondSmall, ← (shapes 0 n_pos).length_eq] at same
  have types : (fun icol => ((second 0).column icol).type) =
      fun icol => ((first 0).column icol).type := by
    funext icol
    rw [(shapes 0 n_pos).type_eq icol]
  have rectangular := rectangular_merged secondSound secondMergeable
  rw [types, ← (shapes 0 n_pos).length_eq] at rectangular
  rw [types] at same
  have elements := table_of_inj (rectangular_merged firstSound firstMergeable) rectangular same
    rootBound
  refine flatMap_range_inj (fun other otherBound => ?_) elements rankBound
  have otherColumn := rootBound.trans_eq (firstMergeable.length_eq otherBound).symm
  rw [Column.length_head_elements, Column.length_head_elements,
    (firstSound other otherBound).sizes _ (Table.column_mem otherColumn),
    (secondSound other otherBound).sizes _
      (Table.column_mem (otherColumn.trans_eq (shapes other otherBound).length_eq)),
    (shapes other otherBound).num_rows]

end Collect

namespace Redistribution

variable {n : Nat} (task : Redistribution n)

/-- The same communication of other tables. -/
def with_tables
    (table : Nat → Table)
    (same_schema : ∀ rank, rank < n → (table rank).schema = task.schema) :
    Redistribution n :=
  { task with table := table, same_schema := same_schema }

/-- The beginnings of the buffers of the members of a group agree in the parts for a
rank. -/
def SameParts (table : Nat → Table) (rank : Nat) : Prop :=
  ∀ icol, icol < task.schema.length → ∀ index, index < task.layout.group_size →
    task.part ((task.table (task.layout.member rank index)).column icol).head_elements
        (task.layout.member rank index) (task.layout.local_idx rank) =
      task.part ((table (task.layout.member rank index)).column icol).head_elements
        (task.layout.member rank index) (task.layout.local_idx rank)

variable {task}
variable {table : Nat → Table}
variable {same_schema : ∀ rank, rank < n → (table rank).schema = task.schema}

theorem supported_with_tables (fixed : task.FixedWidth) (supported : task.Supported) :
    (task.with_tables table same_schema).Supported := by
  intro plan member
  obtain ⟨icol, icolBound, ⟨notString, rfl⟩ | ⟨string, _⟩⟩ := mem_plans member
  · exact supported (task.data_plan icol) (task.plan_mem_data icolBound notString)
  · exact absurd string (fixed icol icolBound)

/-- How large the columns are is told from the offsets. -/
theorem refused_with_tables
    (fixed : task.FixedWidth)
    {rank : Nat}
    (rankBound : rank < n) :
    (task.with_tables table same_schema).Refused rank ↔ task.Refused rank := by
  have strings : ∀ icol, icol < task.schema.length → ¬ task.IsString icol := fixed
  rw [refused_iff _ rankBound, refused_iff _ rankBound, NegativeSize, NegativeSize]
  refine exists_congr fun icol => and_congr_right fun icolBound => ?_
  have fixedColumn : ¬ (task.with_tables table same_schema).IsString icol := strings icol icolBound
  simp only [strings icol icolBound, fixedColumn, false_and, or_false]
  rfl

theorem allocates_with_tables (fixed : task.FixedWidth) :
    (task.with_tables table same_schema).Allocates ↔ task.Allocates :=
  forall₂_congr fun _ rankBound => not_congr (refused_with_tables fixed rankBound)

/-- If all columns can be created, a rank produces its communicated table. -/
theorem sameResult_iff_of_allocates
    {eager : Eagerness ranks}
    (gpu : Gpu)
    (sound : task.Sound)
    (otherSound : (task.with_tables table same_schema).Sound)
    (fixed : task.FixedWidth)
    (supported : task.Supported)
    {rank : Nat}
    (rankBound : rank < n)
    (allocates : task.Allocates) :
    SameResult n eager (task.program gpu) ((task.with_tables table same_schema).program gpu)
        rank ↔
      task.communicated gpu rank = (task.with_tables table same_schema).communicated gpu rank := by
  have settles : Settles n eager (task.program gpu) _ _ :=
    Settles.of_returning (task.phase_program gpu supported sound.narrow allocates)
  have otherSettles :
      Settles n eager ((task.with_tables table same_schema).program gpu) _ _ :=
    Settles.of_returning ((task.with_tables table same_schema).phase_program gpu
      (supported_with_tables fixed supported) otherSound.narrow
      ((allocates_with_tables fixed).mpr allocates))
  exact sameResult_iff settles.returns otherSettles.returns rankBound

/-- A rank that asks for a column of a negative size produces nothing from either. -/
theorem sameResult_of_refused
    {eager : Eagerness ranks}
    {gpu : Gpu}
    (fixed : task.FixedWidth)
    {rank : Nat}
    (rankBound : rank < n)
    (refused : task.Refused rank) :
    SameResult n eager (task.program gpu) ((task.with_tables table same_schema).program gpu)
      rank := by
  obtain ⟨_, reached, failed⟩ := task.reaches_refused eager gpu rankBound refused
  obtain ⟨_, otherReached, otherFailed⟩ :=
    (task.with_tables table same_schema).reaches_refused eager gpu rankBound
      ((refused_with_tables fixed rankBound).mpr refused)
  exact fun value => iff_of_false (not_produces_of_failed reached failed value)
    (not_produces_of_failed otherReached otherFailed value)

/-- The communicated tables agree if the parts do, even if the rows cannot be
counted. -/
theorem communicated_congr
    (gpu : Gpu)
    (sound : task.Sound)
    (otherSound : (task.with_tables table same_schema).Sound)
    (fixed : task.FixedWidth)
    (supported : task.Supported)
    {rank : Nat}
    (rankBound : rank < n)
    (parts : task.SameParts table rank) :
    task.communicated gpu rank = (task.with_tables table same_schema).communicated gpu rank := by
  let other := task.with_tables table same_schema
  have length : (task.created rank).input_table.length = task.schema.length :=
    task.length_table rankBound
  have otherLength : (other.created rank).input_table.length = task.schema.length :=
    other.length_table rankBound
  rw [communicated, communicated, AllToAllCommunicator.communicated_table,
    AllToAllCommunicator.communicated_table, length, otherLength]
  apply List.map_congr_left
  intro icol range
  have icolBound := List.mem_range.mp range
  have notString := fixed icol icolBound
  have type : ((task.created rank).input_table.column icol).type = task.column_type icol :=
    task.type_column rankBound icol
  have otherType : ((other.created rank).input_table.column icol).type =
      task.column_type icol := other.type_column rankBound icol
  have gathered : task.gathered_head_elements icol rank =
      other.gathered_head_elements icol rank := List.flatMap_congr fun index memberRange =>
    parts icol icolBound index (List.mem_range.mp memberRange)
  have pieces : ((task.data_plan icol).pieces task.layout rank).flatten =
      ((other.data_plan icol).pieces task.layout rank).flatten := by
    rw [sound.flatten_pieces_data rankBound icolBound, gathered]
    exact (otherSound.flatten_pieces_data rankBound icolBound).symm
  have tiles := task.tiles_memory gpu supported (task.plan_mem_data icolBound notString)
    (sound.placed_data icol) rankBound
  have otherTiles := other.tiles_memory gpu (supported_with_tables fixed supported)
    (other.plan_mem_data icolBound notString) (otherSound.placed_data icol) rankBound
  have content := tiles.contents_congr otherTiles pieces gpu.uninitialized
  rw [AllToAllCommunicator.communicated_column, AllToAllCommunicator.communicated_column,
    type, otherType, if_pos (task.ne_string notString), if_pos (task.ne_string notString)]
  congr 1
  exact content _

/-- As long as the rows can be counted, communicated tables that agree come from
parts that agree. -/
theorem parts_of_communicated_eq
    (gpu : Gpu)
    (sound : task.Sound)
    (otherSound : (task.with_tables table same_schema).Sound)
    (fixed : task.FixedWidth)
    (supported : task.Supported)
    {rank : Nat}
    (rankBound : rank < n)
    (small : task.received_rows rank < 2 ^ 31)
    (same : task.communicated gpu rank =
      (task.with_tables table same_schema).communicated gpu rank) :
    task.SameParts table rank := by
  let other := task.with_tables table same_schema
  intro icol icolBound index indexBound
  have elements := sound.elements_data gpu supported rankBound icolBound
    (fixed icol icolBound) small
  have otherElements := otherSound.elements_data gpu (supported_with_tables fixed supported)
    rankBound icolBound (fixed icol icolBound) small
  have gathered : task.gathered_head_elements icol rank =
      other.gathered_head_elements icol rank := by
    rw [← elements, same]
    exact otherElements
  refine flatMap_range_inj (fun position positionBound => ?_) gathered indexBound
  have sourceBound := task.layout.member_lt rankBound positionBound
  have ownBound := task.layout.local_idx_lt rank
  exact (sound.length_part sourceBound icolBound ownBound).trans
    (otherSound.length_part sourceBound icolBound ownBound).symm

end Redistribution

section Results

variable {n : Nat} {eager : Eagerness ranks} {group_by_batch : Bool} {gpu : Gpu}

theorem sameResult_distribute
    (n_pos : 0 < n)
    (first second : Nat → Table)
    (fixed : (first 0).FixedWidth)
    (secondFixed : (second 0).FixedWidth)
    {rank : Nat}
    (rankBound : rank < n) :
    SameResult n eager (distributeProgram group_by_batch gpu n first)
        (distributeProgram group_by_batch gpu n second) rank ↔
      distributed gpu (first 0) n rank = distributed gpu (second 0) n rank := by
  have settles : Settles n eager (distributeProgram group_by_batch gpu n first) _ _ :=
    settles_distribute n_pos fixed
  have otherSettles : Settles n eager (distributeProgram group_by_batch gpu n second) _ _ :=
    settles_distribute n_pos secondFixed
  exact sameResult_iff settles.returns otherSettles.returns rankBound

/-- The root collects the same table from buffers that begin alike, or it collects
none of either. -/
theorem sameResult_collect
    (n_pos : 0 < n)
    {first second : Nat → Table}
    (firstMergeable : Mergeable n first)
    (secondMergeable : Mergeable n second)
    (shapes : SameShapes n first second)
    (same : merged gpu n first = merged gpu n second) :
    SameResult n eager (collectProgram group_by_batch gpu n first)
      (collectProgram group_by_batch gpu n second) 0 := by
  have allocatable_iff : Allocatable n first ↔ Allocatable n second := by
    unfold Allocatable
    rw [merged_rows_congr shapes, ← List.length_eq_zero_iff, ← List.length_eq_zero_iff,
      (shapes 0 n_pos).length_eq]
  by_cases allocatable : Allocatable n first
  · have settles : Settles n eager (collectProgram group_by_batch gpu n first) _ _ :=
      Settles.of_returning
        (phase_collect_tables n_pos group_by_batch gpu first firstMergeable allocatable)
    have otherSettles : Settles n eager (collectProgram group_by_batch gpu n second) _ _ :=
      Settles.of_returning (phase_collect_tables n_pos group_by_batch gpu second
        secondMergeable (allocatable_iff.mp allocatable))
    rw [sameResult_iff settles.returns otherSettles.returns n_pos, if_pos rfl, if_pos rfl, same]
  · obtain ⟨state, reached, failed⟩ : ∃ state, Reaches (Configuration.step n eager)
        (Configuration.start (collectProgram group_by_batch gpu n first)) state ∧ _ :=
      collect_refused n_pos firstMergeable allocatable
    obtain ⟨other, otherReached, otherFailed⟩ : ∃ state, Reaches (Configuration.step n eager)
        (Configuration.start (collectProgram group_by_batch gpu n second)) state ∧ _ :=
      collect_refused n_pos secondMergeable (mt allocatable_iff.mpr allocatable)
    exact fun value => iff_of_false (not_produces_of_failed reached failed value)
      (not_produces_of_failed otherReached otherFailed value)

theorem SameShapes.mergeable
    (n_pos : 0 < n)
    {first second : Nat → Table}
    (shapes : SameShapes n first second)
    (mergeable : Mergeable n first) :
    Mergeable n second where
  same_schema := by
    intro rank rankBound
    rw [← (shapes rank rankBound).schema, mergeable.same_schema rank rankBound,
      (shapes 0 n_pos).schema]
  fixed := by
    rw [← (shapes 0 n_pos).schema]
    exact mergeable.fixed

end Results

/-- Two families of views with the same columns and as many rows are treated alike
if and only if the elements at the beginning of their buffers agree where they are
read: on the root when a table is distributed, on all ranks when tables are
collected on the root, and in the parts for a rank when tables are redistributed.
That they suffice does not depend on how many rows there are: what is produced agrees,
both produce it if all ranks can create their columns, and none does if the rank cannot. -/
theorem views_alike_iff
    {n : Nat}
    (n_pos : 0 < n)
    (eager : Eagerness ranks)
    (group_by_batch : Bool)
    (gpu : Gpu) :
    (∀ first second : Nat → Table,
      (first 0).Sound → (second 0).Sound → (first 0).FixedWidth →
      (first 0).SameShape (second 0) →
      ((∀ rank, rank < n →
          SameResult n eager (distributeProgram group_by_batch gpu n first)
            (distributeProgram group_by_batch gpu n second) rank) ↔
        (first 0).SameHeads (second 0))) ∧
    (∀ first second : Nat → Table,
      (∀ rank, rank < n → (first rank).Sound) →
      (∀ rank, rank < n → (second rank).Sound) →
      Mergeable n first → SameShapes n first second →
      ((∀ rank, rank < n → (first rank).SameHeads (second rank)) →
        SameResult n eager (collectProgram group_by_batch gpu n first)
          (collectProgram group_by_batch gpu n second) 0) ∧
      (total_rows n first < 2 ^ 31 →
        SameResult n eager (collectProgram group_by_batch gpu n first)
          (collectProgram group_by_batch gpu n second) 0 →
        ∀ rank, rank < n → (first rank).SameHeads (second rank))) ∧
    ∀ (task : Redistribution n) (table : Nat → Table)
      (same_schema : ∀ rank, rank < n → (table rank).schema = task.schema),
      task.Sound → (task.with_tables table same_schema).Sound →
      task.FixedWidth → task.Supported →
      ∀ rank, rank < n →
        (task.SameParts table rank →
          (∀ value other, Produces n eager (task.program gpu) rank value →
            Produces n eager ((task.with_tables table same_schema).program gpu) rank other →
              value = other) ∧
          (task.Allocates ∨ task.NegativeSize rank → SameResult n eager (task.program gpu)
            ((task.with_tables table same_schema).program gpu) rank)) ∧
        (task.received_rows rank < 2 ^ 31 → task.Allocates →
          SameResult n eager (task.program gpu)
            ((task.with_tables table same_schema).program gpu) rank →
          task.SameParts table rank) := by
  refine ⟨?_, ?_, ?_⟩
  · intro first second firstSound secondSound fixed shape
    have secondFixed := shape.fixedWidth fixed
    calc
      _ ↔ ∀ rank, rank < n →
          distributed gpu (first 0) n rank = distributed gpu (second 0) n rank :=
        forall₂_congr fun _ rankBound =>
          sameResult_distribute n_pos first second fixed secondFixed rankBound
      _ ↔ (first 0).SameHeads (second 0) :=
        distributed_eq_iff gpu n_pos firstSound secondSound fixed secondFixed shape
  · intro first second firstSound secondSound mergeable shapes
    have secondMergeable := shapes.mergeable n_pos mergeable
    constructor
    · intro heads
      exact sameResult_collect n_pos mergeable secondMergeable shapes
        (merged_congr n_pos gpu firstSound secondSound mergeable shapes heads)
    · intro small same rank rankBound
      have secondSmall : total_rows n second < 2 ^ 31 := by
        rwa [total_rows, ← all_nrows_eq, ← all_nrows_congr shapes, all_nrows_eq]
      have settles : Settles n eager (collectProgram group_by_batch gpu n first) _ _ :=
        settles_collect n_pos firstSound mergeable small
      have otherSettles : Settles n eager (collectProgram group_by_batch gpu n second) _ _ :=
        settles_collect n_pos secondSound secondMergeable secondSmall
      rw [sameResult_iff settles.returns otherSettles.returns n_pos] at same
      exact heads_of_merged_eq n_pos gpu firstSound secondSound mergeable secondMergeable
        shapes small (Option.some.inj same) rankBound
  · intro task table same_schema sound otherSound fixed supported rank rankBound
    have otherSupported : (task.with_tables table same_schema).Supported :=
      Redistribution.supported_with_tables fixed supported
    constructor
    · intro parts
      have same := Redistribution.communicated_congr gpu sound otherSound fixed supported
        rankBound parts
      constructor
      · intro value other produces otherProduces
        rw [(task.attempt_program gpu supported sound.narrow).eq_of_produces rankBound produces,
          ((task.with_tables table same_schema).attempt_program gpu otherSupported
            otherSound.narrow).eq_of_produces rankBound otherProduces, same]
      · rintro (allocates | negative)
        · exact (Redistribution.sameResult_iff_of_allocates gpu sound otherSound fixed supported
            rankBound allocates).mpr same
        · exact Redistribution.sameResult_of_refused fixed rankBound
            ((task.refused_iff rankBound).mpr negative)
    · intro small allocates same
      exact Redistribution.parts_of_communicated_eq gpu sound otherSound fixed supported
        rankBound small ((Redistribution.sameResult_iff_of_allocates gpu sound otherSound fixed
          supported rankBound allocates).mp same)

/-- A view of one byte of a buffer. -/
def byteView (head : List Byte) (offset : Nat) : Table :=
  [{  type := ⟨.INT8, 0⟩
      size := 1
      offset := offset
      head := head
      null_mask := none
      child_offsets := []
      child_chars := [] }]

theorem sound_byteView (head : List Byte) (offset : Nat) : (byteView head offset).Sound where
  columns := by
    intro column member
    obtain rfl := List.mem_singleton.mp member
    exact {
      size_nonneg := show (0 : Int) ≤ 1 by decide
      size_lt := show (1 : Int) < 2 ^ 31 by decide
      offsets_cover := fun string => by contradiction
      offsets_sorted := fun string => by contradiction
      offsets_bound := fun string => by contradiction
      chars_lt := fun string => by contradiction }
  sizes := by
    intro column member
    obtain rfl := List.mem_singleton.mp member
    rfl

theorem fixedWidth_byteView (head : List Byte) (offset : Nat) :
    (byteView head offset).FixedWidth := by
  intro column member
  obtain rfl := List.mem_singleton.mp member
  exact TypeId.noConfusion

/-- Two ranks that send the byte of their views to the first of them. -/
def oneByteEach (head : List Byte) (offset : Nat) : Redistribution 2 where
  layout := .whole 2 Nat.two_pos
  schema := [⟨.INT8, 0⟩]
  table := fun _ => byteView head offset
  same_schema := fun _ _ => rfl
  offsets := fun _ => [0, 1, 1]
  options := []
  group_by_batch := false
  explicit_copy_to_current_rank := true

theorem sound_oneByteEach (head : List Byte) (offset : Nat) : (oneByteEach head offset).Sound where
  sound_tables := fun _ _ => sound_byteView head offset
  offsets_length := fun _ _ => show 3 = 2 / 1 + 1 by decide
  offsets_sorted := fun _ _ => show [0, 1, 1].Pairwise (· ≤ ·) by decide
  offsets_inside := fun _ _ => show ∀ row ∈ [0, 1, 1], (0 : Int) ≤ row ∧ row ≤ 1 by decide

theorem fixedWidth_oneByteEach (head : List Byte) (offset : Nat) :
    (oneByteEach head offset).FixedWidth := by
  intro icol icolBound
  obtain rfl : icol = 0 := Nat.lt_one_iff.mp icolBound
  exact TypeId.noConfusion

theorem sameHeads_equal_bytes : (byteView [5] 0).SameHeads (byteView [5, 5] 1) := by
  intro icol icolBound
  obtain rfl : icol = 0 := Nat.lt_one_iff.mp icolBound
  rfl

/-- A sliced view of two equal bytes is as good as one that is not sliced. A view of the second
of two different bytes is not. -/
theorem views_alike_equal_bytes :
    (∀ rank, rank < 2 → SameResult 2 (fun _ _ _ _ => false)
      (distributeProgram false storingGpu 2 fun _ => byteView [5] 0)
      (distributeProgram false storingGpu 2 fun _ => byteView [5, 5] 1) rank) ∧
    SameResult 2 (fun _ _ _ _ => false)
      (collectProgram false storingGpu 2 fun _ => byteView [5] 0)
      (collectProgram false storingGpu 2 fun _ => byteView [5, 5] 1) 0 ∧
    (∀ rank, rank < 2 → SameResult 2 (fun _ _ _ _ => false) ((oneByteEach [5] 0).program storingGpu)
      ((oneByteEach [5, 5] 1).program storingGpu) rank) ∧
    (¬ ∀ rank, rank < 2 → SameResult 2 (fun _ _ _ _ => false)
      (distributeProgram false storingGpu 2 fun _ => byteView [5] 0)
      (distributeProgram false storingGpu 2 fun _ => byteView [4, 5] 1) rank) ∧
    ¬ SameResult 2 (fun _ _ _ _ => false)
      (collectProgram false storingGpu 2 fun _ => byteView [5] 0)
      (collectProgram false storingGpu 2 fun _ => byteView [4, 5] 1) 0 ∧
    ¬ SameResult 2 (fun _ _ _ _ => false) ((oneByteEach [5] 0).program storingGpu)
      ((oneByteEach [4, 5] 1).program storingGpu) 0 := by
  obtain ⟨distribution, collection, redistribution⟩ :=
    views_alike_iff Nat.two_pos (fun _ _ _ _ => false) false storingGpu
  have sound := sound_byteView
  have shape : ∀ head, (byteView [5] 0).SameShape (byteView head 1) := fun _ => ⟨rfl, rfl⟩
  have shared := fun head => distribution (fun _ => byteView [5] 0) (fun _ => byteView head 1)
    (sound _ _) (sound _ _) (fixedWidth_byteView _ _) (shape head)
  have merged := fun head => collection (fun _ => byteView [5] 0) (fun _ => byteView head 1)
    (fun _ _ => sound _ _) (fun _ _ => sound _ _)
    ⟨fun _ _ => rfl, fun dtype member => by
      obtain rfl := List.mem_singleton.mp member
      exact TypeId.noConfusion⟩ (fun _ _ => shape head)
  have sent := fun head => redistribution (oneByteEach [5] 0) (fun _ => byteView head 1)
    (fun _ _ => rfl) (sound_oneByteEach _ _) (sound_oneByteEach head 1)
    (fixedWidth_oneByteEach _ _)
    (Redistribution.uncompressed_of_no_options rfl).supported
  have allocates : (oneByteEach [5] 0).Allocates :=
    (sound_oneByteEach [5] 0).allocates fun rank rankBound =>
      (fixedWidth_oneByteEach [5] 0).fits <| match rank, rankBound with
        | 0, _ => by decide
        | 1, _ => by decide
  have different : ¬ (byteView [5] 0).SameHeads (byteView [4, 5] 1) :=
    fun heads => absurd (heads 0 Nat.one_pos) (by decide)
  refine ⟨(shared [5, 5]).mpr sameHeads_equal_bytes,
    (merged [5, 5]).1 fun _ _ => sameHeads_equal_bytes, fun rank rankBound => ?_,
    fun same => different ((shared [4, 5]).mp same),
    fun same => different ((merged [4, 5]).2 (by decide) same 0 Nat.two_pos), fun same => ?_⟩
  · refine ((sent [5, 5] rank rankBound).1 fun icol icolBound index _ => ?_).2 (.inl allocates)
    obtain rfl : icol = 0 := Nat.lt_one_iff.mp icolBound
    rfl
  · have parts := (sent [4, 5] 0 Nat.two_pos).2 (by decide) allocates same
    exact absurd (parts 0 Nat.one_pos 0 (by decide)) (by decide)

/-- Two views of the same byte, one of them sliced, are distributed differently. -/
theorem views_differ_sliced :
    (byteView [5] 0).rows = (byteView [4, 5] 1).rows ∧
      (byteView [5] 0).schema = (byteView [4, 5] 1).schema ∧
      ¬ SameResult 1 (fun _ _ _ _ => false)
        (distributeProgram false storingGpu 1 fun _ => byteView [5] 0)
        (distributeProgram false storingGpu 1 fun _ => byteView [4, 5] 1) 0 := by
  refine ⟨by decide, rfl, fun same => ?_⟩
  have fixed := fixedWidth_byteView [5] 0
  have slicedFixed := fixedWidth_byteView [4, 5] 1
  have equal : distributed storingGpu (byteView [5] 0) 1 0 =
      distributed storingGpu (byteView [4, 5] 1) 1 0 :=
    (sameResult_distribute Nat.one_pos (fun _ => byteView [5] 0) (fun _ => byteView [4, 5] 1)
      fixed slicedFixed Nat.one_pos).mp same
  have heads : (byteView [5] 0).SameHeads (byteView [4, 5] 1) := by
    refine (distributed_eq_iff storingGpu Nat.one_pos (sound_byteView _ _) (sound_byteView _ _) fixed
      slicedFixed ⟨rfl, rfl⟩).mp fun rank rankBound => ?_
    obtain rfl : rank = 0 := Nat.lt_one_iff.mp rankBound
    exact equal
  have elements := heads 0 Nat.one_pos
  exact absurd elements (by decide)

end DistributedJoin
