import DistributedJoin.Comm.Accesses
import DistributedJoin.Comm.CommunicatedTable

/-!
# Communication of fixed-width tables

A table without string columns is communicated correctly as long as no rank
receives more rows than `cudf::size_type` can count. Every row of the
communicated table is written once.
-/

namespace DistributedJoin

open Device Spmd

/-- Exactly one access has bytes in common with a range, and exactly one contains
the whole range. -/
def AccessedOnce (extents : List Extent) (first last : Int) : Prop :=
  extents.countP (fun extent => extent.Meets first last) = 1 ∧
    extents.countP (fun extent => extent.Contains first last) = 1

theorem AccessedOnce.of_perm
    {extents others : List Extent}
    {first last : Int}
    (once : AccessedOnce extents first last)
    (rearranged : others.Perm extents) :
    AccessedOnce others first last :=
  ⟨(rearranged.countP_eq _).trans once.1, (rearranged.countP_eq _).trans once.2⟩

/-- Of blocks that lie side by side, one holds a given position. -/
theorem countP_blocks
    (size : Nat → Nat)
    (count position : Nat) :
    (List.range count).countP (fun index =>
        ((List.range index).map size).sum ≤ position ∧
          position < ((List.range index).map size).sum + size index) =
      if position < ((List.range count).map size).sum then 1 else 0 := by
  induction count with
  | zero => simp
  | succ count inductionHypothesis =>
      rw [List.range_succ, List.countP_append, inductionHypothesis, List.map_append,
        List.sum_append]
      simp only [List.countP_cons, List.countP_nil, List.map_cons, List.map_nil,
        List.sum_cons, List.sum_nil, decide_eq_true_eq]
      split_ifs <;> omega

/-- A block of elements meets one element exactly if it holds it. -/
theorem Extent.meets_iff
    {start count row width : Nat}
    (positive : 0 < width) :
    (Extent.mk (start * width : Nat) (count * width : Nat)).Meets
        (row * width : Nat) ((row + 1) * width : Nat) ↔
      start ≤ row ∧ row < start + count := by
  simp only [Meets, lt_min_iff, max_lt_iff, ← Nat.cast_add, ← Nat.add_mul,
    Nat.cast_lt, Nat.mul_lt_mul_right positive]
  omega

/-- A block of elements contains one element exactly if it holds it. -/
theorem Extent.contains_iff
    {start count row width : Nat}
    (positive : 0 < width) :
    (Extent.mk (start * width : Nat) (count * width : Nat)).Contains
        (row * width : Nat) ((row + 1) * width : Nat) ↔
      start ≤ row ∧ row < start + count := by
  simp only [Contains, ← Nat.cast_add, ← Nat.add_mul, Nat.cast_le,
    Nat.mul_le_mul_right_iff positive]
  omega

namespace GroupPlan

variable {plan : GroupPlan} {n : Nat} {layout : Layout n}

theorem Placed.extent_write
    (placed : plan.Placed layout)
    {rank index : Nat}
    (rankBound : rank < n)
    (indexBound : index < layout.group_size) :
    plan.extent .write rank index =
      ⟨((((List.range index).map (plan.share layout rank)).sum * plan.item_size : Nat) : Int),
        ((plan.share layout rank index * plan.item_size : Nat) : Int)⟩ := by
  have count : countAt (plan.recv_offsets rank) index = plan.share layout rank index := by
    rw [placed.exchanged, layout.countAt_exchanged _ rank indexBound,
      placed.countAt_eq rankBound indexBound]
  rw [extent, extentAt, Access.offsets, count,
    placed.getD_recv_offsets rankBound (Nat.le_of_lt indexBound), Nat.cast_mul,
    Nat.cast_mul]

/-- Every element of a receive buffer is written once. -/
theorem Placed.accessedOnce
    (placed : plan.Placed layout)
    (positive : 0 < plan.item_size)
    {rank row : Nat}
    (rankBound : rank < n)
    (rowBound : row < plan.total layout rank) :
    AccessedOnce ((List.range layout.group_size).map (plan.extent .write rank))
      (row * plan.item_size : Nat) ((row + 1) * plan.item_size : Nat) := by
  have once := countP_blocks (plan.share layout rank) layout.group_size row
  rw [if_pos (show row < ((List.range layout.group_size).map
    (plan.share layout rank)).sum from rowBound)] at once
  constructor
  · refine Eq.trans ?_ once
    rw [List.countP_map]
    apply List.countP_congr
    intro index range
    rw [Function.comp_apply, placed.extent_write rankBound (List.mem_range.mp range),
      decide_eq_true_iff, Extent.meets_iff positive, decide_eq_true_iff]
  · refine Eq.trans ?_ once
    rw [List.countP_map]
    apply List.countP_congr
    intro index range
    rw [Function.comp_apply, placed.extent_write rankBound (List.mem_range.mp range),
      decide_eq_true_iff, Extent.contains_iff positive, decide_eq_true_iff]

end GroupPlan

namespace Redistribution

variable {n : Nat} (task : Redistribution n)

/-- No column holds strings. -/
def FixedWidth : Prop := ∀ icol, icol < task.schema.length → ¬ task.IsString icol

/-- No column is compressed. -/
def Uncompressed : Prop := ∀ plan ∈ task.plans, plan.compression_method = .none

variable {task}

theorem Uncompressed.supported (uncompressed : task.Uncompressed) : task.Supported :=
  fun plan member => .inl (uncompressed plan member)

/-- Without options nothing is compressed. -/
theorem uncompressed_of_no_options (unset : task.options = []) : task.Uncompressed := by
  have column : ∀ icol, task.column_options icol = .none := by
    intro icol
    rw [column_options, unset]
    rfl
  intro plan member
  obtain ⟨icol, _, ⟨_, rfl⟩ | ⟨_, rfl | rfl⟩⟩ := task.mem_plans member
  · rw [data_plan, column]
    rfl
  · rw [sizes_plan, column]
    rfl
  · rw [chars_plan, column]
    rfl

/-- The columns of a table without strings can be created if their rows can be
counted. -/
theorem FixedWidth.fits
    (fixed : task.FixedWidth)
    {rank : Nat}
    (small : task.received_rows rank < 2 ^ 31) :
    task.Fits rank where
  rows := small
  offsets := fun icol icolBound string => absurd string (fixed icol icolBound)
  chars := fun icol icolBound string => absurd string (fixed icol icolBound)

theorem Uncompressed.narrow (uncompressed : task.Uncompressed) : task.Narrow := by
  intro plan member cascaded
  rw [uncompressed plan member] at cascaded
  contradiction

/-- Every row of a fixed-width column is written once. -/
theorem WellFormed.written_once
    (wellFormed : task.WellFormed)
    (uncompressed : task.Uncompressed)
    (gpu : Gpu)
    {rank icol row : Nat}
    (rankBound : rank < n)
    (icolBound : icol < task.schema.length)
    (fixed : ¬ task.IsString icol)
    (rowBound : (row : Int) < task.received_rows rank) :
    AccessedOnce (accesses .write (.plain (.data icol)) (task.events gpu rank))
      (row * (task.column_type icol).id.size_of : Nat)
      ((row + 1) * (task.column_type icol).id.size_of : Nat) := by
  have member := task.plan_mem_data icolBound fixed
  have placed := wellFormed.placed_data icol
  have total := wellFormed.total_data_eq icol rankBound
  have inside : row < (task.data_plan icol).total task.layout rank := by omega
  have once := placed.accessedOnce (TypeId.size_of_bounds fixed).1 rankBound inside
  exact once.of_perm (task.accesses_events gpu member (uncompressed _ member) placed
    .write rankBound)

namespace Whole

variable (whole : task.Whole)
include whole

/-- A table of fixed-width columns has the rows that are stored for the rank. -/
theorem rows_fixed_width
    (gpu : Gpu)
    (fixed : task.FixedWidth)
    (supported : task.Supported)
    {rank : Nat}
    (rankBound : rank < n)
    (small : task.received_rows rank < 2 ^ 31) :
    (task.communicated gpu rank).rows = task.gathered_stored_rows rank :=
  whole.rows_of_elements gpu rankBound small fun icol icolBound =>
    whole.elements_fixed_width gpu supported rankBound icolBound (fixed icol icolBound) small

/-- A communicated table of fixed-width columns is sound. -/
theorem sound_fixed_width
    (gpu : Gpu)
    (fixed : task.FixedWidth)
    {rank : Nat}
    (rankBound : rank < n)
    (small : task.received_rows rank < 2 ^ 31) :
    (task.communicated gpu rank).Sound where
  columns := by
    intro column member
    obtain ⟨icol, icolBound, rfl⟩ := task.mem_communicated gpu rankBound member
    have nonnegative := whole.received_rows_nonneg rankBound
    have size : ((task.communicated gpu rank).column icol).size = task.received_rows rank :=
      (task.size_communicated gpu rankBound icolBound).trans (toSizeType_eq nonnegative small)
    have noString : ((task.communicated gpu rank).column icol).type.id ≠ .STRING := by
      rw [task.type_communicated gpu rankBound icolBound]
      exact fixed icol icolBound
    exact {
      size_nonneg := size ▸ nonnegative
      size_lt := size ▸ small
      offsets_cover := fun string => absurd string noString
      offsets_sorted := fun string => absurd string noString
      offsets_bound := fun string => absurd string noString
      chars_lt := fun string => absurd string noString }
  sizes := fun _ member => whole.sizes_communicated gpu rankBound member

end Whole

end Redistribution

/-- Whatever order the ranks run in: the table of a rank is the concatenation of
the rows that the members of its group have for it, and each of its rows has been
written once in every column, by the copy or by a receive. All ranks get their
tables. -/
theorem all_to_all_fixed_width
    {n : Nat}
    (eager : Eagerness ranks)
    (gpu : Gpu)
    (task : Redistribution n)
    (wellFormed : task.WellFormed)
    (fixed : task.FixedWidth)
    (uncompressed : task.Uncompressed)
    (small : ∀ rank, rank < n → task.received_rows rank < 2 ^ 31)
    (state : Configuration ranks Table)
    (reached : Reaches (Configuration.step n eager)
      (Configuration.start (task.program gpu)) state) :
    (∀ rank, rank < n → ∀ table, (state rank).process = .pure table →
      table.schema = task.schema ∧
        table.rows = task.gathered_rows rank ∧
        ∀ icol, icol < task.schema.length →
          ∀ row : Nat, (row : Int) < task.received_rows rank →
            AccessedOnce (accesses .write (.plain (.data icol)) (state rank).log)
              (row * (task.column_type icol).id.size_of : Nat)
              ((row + 1) * (task.column_type icol).id.size_of : Nat)) ∧
    ∃ finish, Reaches (Configuration.step n eager) state finish ∧
      ∀ rank, rank < n → ∃ table, (finish rank).process = .pure table := by
  have settles : Settles n eager (task.program gpu) _ _ :=
    Settles.of_returning (task.phase_program gpu uncompressed.supported
      uncompressed.narrow (wellFormed.allocates fun rank rankBound =>
        fixed.fits (small rank rankBound)))
  constructor
  · intro rank rankBound table returned
    have ended : (state rank).process.Ended := by
      rw [returned]
      trivial
    obtain ⟨processEquality, logEquality⟩ := settles.ended_eq reached rankBound ended
    obtain rfl : task.communicated gpu rank = table := by
      rw [returned] at processEquality
      exact (Process.pure.inj processEquality).symm
    refine ⟨task.schema_communicated gpu rankBound,
      (wellFormed.whole.rows_fixed_width gpu fixed uncompressed.supported rankBound
        (small rank rankBound)).trans (wellFormed.gathered_stored_rows_eq rankBound),
      fun icol icolBound row rowBound => ?_⟩
    rw [logEquality]
    exact wellFormed.written_once uncompressed gpu rankBound icolBound
      (fixed icol icolBound) rowBound
  · obtain ⟨finish, tail, finished⟩ := settles.reaches_final reached
    exact ⟨finish, tail, fun rank rankBound => ⟨_, (finished rank rankBound).1⟩⟩

/-- The redistribution of one column of bytes over all ranks of a system, each with
the same bytes. -/
def bytesTask
    {n : Nat}
    (n_pos : 0 < n)
    (bytes : List Byte)
    (offsets : List Int) : Redistribution n where
  layout := .whole n n_pos
  schema := [⟨.INT8, 0⟩]
  table := fun _ => .ofBytes bytes
  same_schema := fun _ _ => rfl
  offsets := fun _ => offsets
  options := []
  group_by_batch := false
  explicit_copy_to_current_rank := true

section BytesTask

variable {n : Nat} (n_pos : 0 < n) (bytes : List Byte) (offsets : List Int)

theorem fixedWidth_bytesTask : (bytesTask n_pos bytes offsets).FixedWidth := by
  intro icol icolBound
  obtain rfl : icol = 0 := Nat.lt_one_iff.mp icolBound
  exact TypeId.noConfusion

theorem uncompressed_bytesTask : (bytesTask n_pos bytes offsets).Uncompressed :=
  Redistribution.uncompressed_of_no_options rfl

theorem wellFormed_bytesTask
    (small : bytes.length < 2 ^ 31)
    (length : offsets.length = n + 1)
    (sorted : offsets.Pairwise (· ≤ ·))
    (inside : ∀ offset ∈ offsets, 0 ≤ offset ∧ offset ≤ bytes.length) :
    (bytesTask n_pos bytes offsets).WellFormed where
  tables := fun _ _ => Table.wellFormed_ofBytes small
  sound_tables := fun _ _ => (Table.wellFormed_ofBytes small).sound
  offsets_length := by
    intro _ _
    change offsets.length = n / 1 + 1
    rw [length, Nat.div_one]
  offsets_sorted := fun _ _ => sorted
  offsets_inside := fun _ _ => inside

end BytesTask

/-- Two ranks that exchange single bytes. -/
def singleBytes : Redistribution 2 := bytesTask Nat.two_pos [1, 2] [0, 1, 2]

/-- Both ranks get their table, with every byte of it written once. -/
theorem all_to_all_fixed_width_two_ranks :
    ∃ finish, Reaches (Configuration.step 2 fun _ _ _ _ => false)
      (Configuration.start (singleBytes.program storingGpu)) finish ∧
      ∀ rank, rank < 2 → ∃ table, (finish rank).process = .pure table ∧
        table.schema = [⟨.INT8, 0⟩] ∧ table.rows = singleBytes.gathered_rows rank ∧
          ∀ row : Nat, (row : Int) < singleBytes.received_rows rank →
            AccessedOnce (accesses .write (.plain (.data 0)) (finish rank).log) (row : Nat)
              (row + 1 : Nat) := by
  have applied := all_to_all_fixed_width (fun _ _ _ _ => false) storingGpu singleBytes
    (wellFormed_bytesTask _ _ _ (by decide) (by decide) (by decide) (by decide))
    (fixedWidth_bytesTask _ _ _) (uncompressed_bytesTask _ _ _)
    (fun rank rankBound => match rank, rankBound with
      | 0, _ => by decide
      | 1, _ => by decide)
  obtain ⟨finish, reached, returned⟩ := (applied _ (.refl _)).2
  refine ⟨finish, reached, fun rank rankBound => ?_⟩
  obtain ⟨table, process⟩ := returned rank rankBound
  obtain ⟨schema, rows, written⟩ := (applied finish reached).1 rank rankBound table process
  refine ⟨table, process, schema, rows, fun row rowBound => ?_⟩
  have once := written 0 Nat.one_pos row rowBound
  have size : (singleBytes.column_type 0).id.size_of = 1 := rfl
  rwa [size, Nat.mul_one, Nat.mul_one] at once

theorem four_ranks_pos : 0 < 4 := by decide

/-- Four ranks that all send `2 ^ 30` bytes to the first of them: the number of rows
that it receives is zero in the width of `cudf::size_type`. -/
def crowded : Redistribution 4 :=
  bytesTask four_ranks_pos (List.replicate (2 ^ 30) 0) [0, 2 ^ 30, 2 ^ 30, 2 ^ 30, 2 ^ 30]

theorem wellFormed_crowded : crowded.WellFormed :=
  wellFormed_bytesTask _ _ _ (by rw [List.length_replicate]; decide) (by decide) (by decide)
    (by rw [List.length_replicate]; decide)

/-- A number of rows that wraps to zero is not refused. -/
theorem allocates_crowded : crowded.Allocates := by
  intro rank rankBound
  match rank, rankBound with
  | 0, _ => decide
  | 1, _ => decide
  | 2, _ => decide
  | 3, _ => decide

/-- A rank that is sent `2 ^ 32` rows does not get them. -/
theorem all_to_all_fixed_width_crowded :
    crowded.WellFormed ∧ crowded.FixedWidth ∧ crowded.Uncompressed ∧
      ∃ finish, Reaches (Configuration.step 4 fun _ _ _ _ => false)
        (Configuration.start (crowded.program storingGpu)) finish ∧
        ∃ table, (finish 0).process = .pure table ∧
          table.rows ≠ crowded.gathered_rows 0 := by
  have uncompressed : crowded.Uncompressed := uncompressed_bytesTask _ _ _
  refine ⟨wellFormed_crowded, fixedWidth_bytesTask _ _ _, uncompressed, ?_⟩
  have settles : Settles 4 (fun _ _ _ _ => false) (crowded.program storingGpu) _ _ :=
    Settles.of_returning (crowded.phase_program storingGpu uncompressed.supported
      uncompressed.narrow allocates_crowded)
  obtain ⟨finish, tail, finished⟩ := settles.reaches_final (.refl _)
  exact ⟨finish, tail, _, (finished 0 (by decide)).1,
    wellFormed_crowded.rows_communicated_ne storingGpu (by decide) (by decide)⟩

end DistributedJoin
