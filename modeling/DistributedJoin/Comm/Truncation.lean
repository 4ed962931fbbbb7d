import DistributedJoin.Comm.DistributeCollect

/-!
# Sizes that cannot be counted

Ranks learn how much they receive in 64 bits, but `cudf::size_type` has 32 bits. A
total that does not fit is narrowed when the columns are created and when running totals
are calculated. The creation of a column of a negative size fails; a total that wraps
to a size that is not negative goes unnoticed.
-/

namespace DistributedJoin

open Device Spmd

namespace Redistribution

variable {n : Nat} (task : Redistribution n)

/-- The columns of a table have as many rows and characters as the rank has been told
in 64 bits, and the offsets of strings are the exact totals of the received sizes. -/
def SizesExact (rank : Nat) (table : Table) : Prop :=
  ∀ icol, icol < task.schema.length →
    (table.column icol).size = (task.recv_offsets rank).getLastD 0 ∧
      (task.IsString icol →
        ((table.column icol).child_chars.length : Int) =
            (task.string_recv_offsets icol rank).getLastD 0 ∧
          (table.column icol).child_offsets = offsetsOf (task.received_sizes icol rank))

/-- All totals of a rank fit the width of `cudf::size_type`. -/
structure InRange (rank : Nat) : Prop where
  rows : task.received_rows rank < 2 ^ 31
  chars : ∀ icol, icol < task.schema.length → task.IsString icol →
    task.received_chars icol rank < 2 ^ 31
  sizes : ∀ icol, icol < task.schema.length → task.IsString icol →
    (task.received_sizes icol rank).sum < 2 ^ 31

variable {task}

/-- If the sizes of the strings are read where they are, their total is the number of
characters. -/
theorem Whole.sum_received_sizes
    (whole : task.Whole)
    {rank icol : Nat}
    (rankBound : rank < n)
    (icolBound : icol < task.schema.length)
    (string : task.IsString icol)
    (aligned : ∀ source, source < n → task.Aligned source) :
    (task.received_sizes icol rank).sum = task.received_chars icol rank := by
  have total := sum_take_sizesOf (task.gathered_elements icol rank)
    (task.gathered_elements icol rank).length
  have length : (sizesOf (task.gathered_elements icol rank)).length =
      (task.gathered_elements icol rank).length := List.length_map _
  rw [List.take_length, ← length, List.take_length] at total
  rw [whole.received_sizes_eq rankBound icolBound string aligned, total,
    whole.length_flatten_gathered rankBound icolBound string]

variable (task) in
theorem length_child_chars_communicated
    (gpu : Gpu)
    {rank icol : Nat}
    (rankBound : rank < n)
    (icolBound : icol < task.schema.length)
    (string : task.IsString icol) :
    ((task.communicated gpu rank).column icol).child_chars.length =
      (toSizeType (task.received_chars icol rank)).toNat := by
  have type : ((task.created rank).input_table.column icol).type =
      task.column_type icol := task.type_column rankBound icol
  have last : ((task.created rank).string_recv_offsets.getD icol []).getLastD 0 =
      task.received_chars icol rank := by
    rw [← task.getLastD_string_recv_offsets icol rank, ← task.getD_of_string
      (fun icol => task.string_recv_offsets icol rank) icolBound string]
    rfl
  rw [task.column_communicated gpu rankBound icolBound,
    AllToAllCommunicator.communicated_column,
    if_neg (not_not.mpr (show _ = _ from type ▸ string)), last]
  exact length_contents _ _ _

namespace Sound

variable (sound : task.Sound)
include sound

/-- The sizes of the communicated table are exact if and only if all totals fit the
width of `cudf::size_type`. -/
theorem sizesExact_iff
    (gpu : Gpu)
    (supported : task.Supported)
    {rank : Nat}
    (rankBound : rank < n) :
    task.SizesExact rank (task.communicated gpu rank) ↔ task.InRange rank := by
  unfold SizesExact
  simp only [getLastD_recv_offsets, getLastD_string_recv_offsets]
  have offsets_iff : task.received_rows rank < 2 ^ 31 → ∀ icol, icol < task.schema.length →
      task.IsString icol →
      (((task.communicated gpu rank).column icol).child_offsets =
          offsetsOf (task.received_sizes icol rank) ↔
        (task.received_sizes icol rank).sum < 2 ^ 31) := by
    intro rows icol icolBound string
    rw [sound.child_offsets_received gpu supported rankBound icolBound string rows,
      calculate_string_offsets_eq_scanl fun _ => toSizeType_of_mem_received_sizes rankBound]
    exact scanl_addSizeType_eq_iff fun _ =>
      sound.received_sizes_nonneg rankBound icolBound string
  constructor
  · intro same
    have rows : task.received_rows rank < 2 ^ 31 := by
      rcases Nat.eq_zero_or_pos task.schema.length with empty | positive
      · rw [sound.received_rows_of_no_columns empty rankBound]
        decide
      · rw [← (same 0 positive).1, task.size_communicated gpu rankBound positive]
        exact toSizeType_lt _
    refine ⟨rows, fun icol icolBound string => ?_, fun icol icolBound string =>
      (offsets_iff rows icol icolBound string).mp ((same icol icolBound).2 string).2⟩
    have length := ((same icol icolBound).2 string).1
    have narrowed := toSizeType_lt (task.received_chars icol rank)
    have nonnegative := sound.received_chars_nonneg rankBound icolBound string
    rw [task.length_child_chars_communicated gpu rankBound icolBound string] at length
    omega
  · intro inRange icol icolBound
    constructor
    · rw [task.size_communicated gpu rankBound icolBound,
        toSizeType_eq (sound.received_rows_nonneg rankBound) inRange.rows]
    · intro string
      have nonnegative := sound.received_chars_nonneg rankBound icolBound string
      refine ⟨?_, (offsets_iff inRange.rows icol icolBound string).mpr
        (inRange.sizes icol icolBound string)⟩
      rw [task.length_child_chars_communicated gpu rankBound icolBound string,
        toSizeType_eq nonnegative (inRange.chars icol icolBound string)]
      exact Int.toNat_of_nonneg nonnegative

end Sound

end Redistribution

section Reported

variable {n : Nat} {eager : Eagerness ranks} {group_by_batch : Bool} {gpu : Gpu}

/-- Every run can go on until some rank has reported an error or all ranks have
communicated tables with exact sizes. -/
def Redistribution.SizesReported
    (eager : Eagerness ranks)
    (gpu : Gpu)
    (task : Redistribution n) : Prop :=
  ∀ state, Reaches (Configuration.step n eager) (Configuration.start (task.program gpu)) state →
    ∃ finish, Reaches (Configuration.step n eager) state finish ∧
      ((∃ rank, rank < n ∧ ∃ reason, (finish rank).process = .fail reason) ∨
        ∀ rank, rank < n → ∃ table, (finish rank).process = .pure table ∧
          task.SizesExact rank table)

/-- In every run, if a rank returns a communicated table, its sizes are exact. -/
def Redistribution.ExactIfReturned
    (eager : Eagerness ranks)
    (gpu : Gpu)
    (task : Redistribution n)
    (rank : Nat) : Prop :=
  ∀ table, Produces n eager (task.program gpu) rank table → task.SizesExact rank table

/-- If the root collects tables without an error, it has calculated the exact
positions of their rows. -/
def CountsReported
    (eager : Eagerness ranks)
    (group_by_batch : Bool)
    (gpu : Gpu)
    (n : Nat)
    (table : Nat → Table) : Prop :=
  ∀ result, Produces n eager (collectProgram group_by_batch gpu n table) 0 result →
    scan_table_nrows (all_nrows n table) = offsetsOf (all_nrows n table)

namespace Redistribution

variable {task : Redistribution n}

/-- A rank that needs a negative size can only fail. -/
theorem fails_of_negativeSize
    {rank : Nat}
    (rankBound : rank < n)
    (negative : task.NegativeSize rank)
    {state : Configuration ranks Table}
    (reached : Reaches (Configuration.step n eager) (Configuration.start (task.program gpu))
      state) :
    (∃ finish, Reaches (Configuration.step n eager) state finish ∧
        ∃ reason, (finish rank).process = .fail reason) ∧
      ∀ table, (state rank).process ≠ .pure table := by
  obtain ⟨stopped, stops, failed⟩ :=
    task.reaches_refused eager gpu rankBound ((task.refused_iff rankBound).mpr negative)
  have ended : (stopped rank).process.Ended := by
    rw [failed]
    trivial
  obtain ⟨finish, further, same⟩ := (Configuration.ends_as stops ended reached).1
  refine ⟨⟨finish, further, _, (congrArg Endpoint.process same).trans failed⟩, ?_⟩
  exact fun table returned => not_produces_of_failed stops failed table ⟨state, reached, returned⟩

/-- A rank whose totals can be counted has exact sizes, whatever the other ranks do. -/
theorem InRange.exactIfReturned
    {rank : Nat}
    (inRange : task.InRange rank)
    (sound : task.Sound)
    (supported : task.Supported)
    (rankBound : rank < n) :
    task.ExactIfReturned eager gpu rank := by
  intro table produces
  rw [(task.attempt_program gpu supported sound.narrow).eq_of_produces rankBound produces]
  exact (sound.sizesExact_iff gpu supported rankBound).mpr inRange

/-- If no rank needs a negative size, only ranks whose totals can be counted have exact
sizes. -/
theorem inRange_of_exactIfReturned
    (sound : task.Sound)
    (supported : task.Supported)
    (positive : ∀ rank, rank < n → ¬ task.NegativeSize rank)
    {rank : Nat}
    (rankBound : rank < n)
    (exact_sizes : task.ExactIfReturned eager gpu rank) :
    task.InRange rank := by
  have settles : Settles n eager (task.program gpu) _ _ :=
    Settles.of_returning
      (task.phase_program gpu supported sound.narrow (task.allocates_iff.mpr positive))
  exact (sound.sizesExact_iff gpu supported rankBound).mp
    (exact_sizes _ ((settles.returns.produces_iff rankBound).mpr rfl))

theorem sizesReported_iff
    (sound : task.Sound)
    (supported : task.Supported) :
    task.SizesReported eager gpu ↔
      (∃ rank, rank < n ∧ task.NegativeSize rank) ∨ ∀ rank, rank < n → task.InRange rank := by
  by_cases negative : ∃ rank, rank < n ∧ task.NegativeSize rank
  · refine iff_of_true (fun state reached => ?_) (.inl negative)
    obtain ⟨rank, rankBound, needed⟩ := negative
    obtain ⟨finish, further, failed⟩ := (fails_of_negativeSize rankBound needed reached).1
    exact ⟨finish, further, .inl ⟨rank, rankBound, failed⟩⟩
  · have settles : Settles n eager (task.program gpu) _ _ :=
      Settles.of_returning (task.phase_program gpu supported sound.narrow
        (task.allocates_iff.mpr fun rank rankBound needed => negative ⟨rank, rankBound, needed⟩))
    rw [or_iff_right negative]
    constructor
    · intro reported rank rankBound
      obtain ⟨finish, reached, ⟨other, otherBound, reason, failed⟩ | tables⟩ :=
        reported _ (.refl _)
      · have ended : (finish other).process.Ended := by
          rw [failed]
          trivial
        rw [(settles.ended_eq reached otherBound ended).1] at failed
        contradiction
      · obtain ⟨table, returned, same⟩ := tables rank rankBound
        rw [← Process.pure.inj (settles.returned_eq reached rankBound returned)] at same
        exact (sound.sizesExact_iff gpu supported rankBound).mp same
    · intro inRange state reached
      obtain ⟨finish, further, finished⟩ := settles.reaches_final reached
      exact ⟨finish, further, .inr fun rank rankBound => ⟨_, (finished rank rankBound).1,
        (sound.sizesExact_iff gpu supported rankBound).mpr (inRange rank rankBound)⟩⟩

end Redistribution

theorem countsReported_iff
    (n_pos : 0 < n)
    {table : Nat → Table}
    (sound : ∀ rank, rank < n → (table rank).Sound)
    (mergeable : Mergeable n table) :
    CountsReported eager group_by_batch gpu n table ↔
      ¬ Allocatable n table ∨ total_rows n table < 2 ^ 31 := by
  have exact_iff : scan_table_nrows (all_nrows n table) = offsetsOf (all_nrows n table) ↔
      total_rows n table < 2 ^ 31 := by
    rw [all_nrows_eq]
    apply scan_table_nrows_eq_iff
    intro nrows member
    obtain ⟨rank, range, rfl⟩ := List.mem_map.mp member
    exact (sound rank (List.mem_range.mp range)).num_rows_nonneg
  unfold CountsReported
  rw [exact_iff]
  by_cases allocatable : Allocatable n table
  · have settles : Settles n eager (collectProgram group_by_batch gpu n table) _ _ :=
      Settles.of_returning
        (phase_collect_tables n_pos group_by_batch gpu table mergeable allocatable)
    simp only [settles.returns.produces_iff n_pos, forall_eq', allocatable, not_true,
      false_or]
  · obtain ⟨state, reached, failed⟩ : ∃ state, Reaches (Configuration.step n eager)
        (Configuration.start (collectProgram group_by_batch gpu n table)) state ∧ _ :=
      collect_refused n_pos mergeable allocatable
    exact iff_of_true (fun result produced =>
      absurd produced (not_produces_of_failed reached failed result)) (.inl allocatable)

end Reported

end DistributedJoin
