import DistributedJoin.Comm.FixedWidth

/-!
# Communication of string columns

String columns are communicated correctly exactly when every rank sends rows
from the first row of its table on, or no rows at all, and no rank receives more
rows or characters than `cudf::size_type` can count.
-/

namespace DistributedJoin

open Device Spmd

namespace Redistribution

variable {n : Nat} (task : Redistribution n)

/-- The size in bytes of the buffer with the string sizes that a rank sends. -/
def sizes_buffer_size (rank : Nat) : Int :=
  4 * ((task.offsets rank).getLastD 0 - (task.offsets rank).headD 0)

/-- Every byte that is read from a buffer with string sizes is inside the
buffer. -/
def SizesReadInside (rank icol : Nat) (log : List (Event ranks)) : Prop :=
  ∀ extent ∈ accesses .read (.plain (.sizes icol)) log, 0 < extent.length →
    0 ≤ extent.start ∧ extent.start + extent.length ≤ task.sizes_buffer_size rank

/-- String columns are communicated correctly: in every run, nothing is read
outside the buffers with string sizes, every string column of a returned table is
the concatenation of the strings that the members of the group have for the rank,
and all ranks can still return their tables. -/
def StringsCorrect (eager : Eagerness ranks) (gpu : Gpu) : Prop :=
  ∀ icol, icol < task.schema.length → task.IsString icol →
    ∀ state, Reaches (Configuration.step n eager)
        (Configuration.start (task.program gpu)) state →
      (∀ rank, rank < n → task.SizesReadInside rank icol (state rank).log ∧
        ∀ table, (state rank).process = .pure table →
          (table.column icol).elements = task.gathered_elements icol rank) ∧
      ∃ finish, Reaches (Configuration.step n eager) state finish ∧
        ∀ rank, rank < n → ∃ table, (finish rank).process = .pure table

variable {task}

namespace WellFormed

variable (wellFormed : task.WellFormed)
include wellFormed

theorem sizes_buffer_size_eq
    {rank : Nat}
    (rankBound : rank < n) :
    task.sizes_buffer_size rank =
      4 * ((task.first_row rank task.layout.group_size : Int) -
        task.first_row rank 0) := by
  rw [sizes_buffer_size, wellFormed.getLastD_offsets rankBound,
    wellFormed.headD_offsets rankBound]

/-- What a rank reads of the sizes of the strings for one member. -/
theorem extent_read_sizes
    {rank icol index : Nat}
    (rankBound : rank < n)
    (indexBound : index < task.layout.group_size) :
    (task.sizes_plan icol).extent .read rank index =
      ⟨task.first_row rank index * 4, task.row_count rank index * 4⟩ := by
  have start := wellFormed.getD_offsets_eq rankBound (Nat.le_of_lt indexBound)
  have count := wellFormed.countAt_eq rankBound indexBound
  have width : ((task.sizes_plan icol).item_size : Int) = 4 := rfl
  simp only [GroupPlan.extent, extentAt, Access.offsets, width]
  simp only [sizes_plan, start, count]

theorem mem_accesses_sizes
    (uncompressed : task.Uncompressed)
    (gpu : Gpu)
    {rank icol : Nat}
    (rankBound : rank < n)
    (icolBound : icol < task.schema.length)
    (string : task.IsString icol)
    {extent : Extent} :
    extent ∈ accesses .read (.plain (.sizes icol)) (task.events gpu rank) ↔
      ∃ index, index < task.layout.group_size ∧
        extent = ⟨task.first_row rank index * 4, task.row_count rank index * 4⟩ := by
  have member := task.plan_mem_sizes icolBound string
  have accessed := task.accesses_events gpu member (uncompressed _ member)
    (wellFormed.placed_sizes icol) .read rankBound
  rw [show Buffer.plain (.sizes icol) = .plain (task.sizes_plan icol).ptr from rfl,
    accessed.mem_iff, List.mem_map]
  constructor
  · rintro ⟨index, range, rfl⟩
    have indexBound := List.mem_range.mp range
    exact ⟨index, indexBound, wellFormed.extent_read_sizes rankBound indexBound⟩
  · rintro ⟨index, indexBound, rfl⟩
    exact ⟨index, List.mem_range.mpr indexBound,
      wellFormed.extent_read_sizes rankBound indexBound⟩

/-- An aligned rank reads inside its buffers. -/
theorem sizesReadInside
    (uncompressed : task.Uncompressed)
    (gpu : Gpu)
    {rank icol : Nat}
    (rankBound : rank < n)
    (icolBound : icol < task.schema.length)
    (string : task.IsString icol)
    (aligned : task.Aligned rank) :
    task.SizesReadInside rank icol (task.events gpu rank) := by
  intro extent member nonempty
  obtain ⟨index, indexBound, rfl⟩ := (wellFormed.mem_accesses_sizes uncompressed gpu
    rankBound icolBound string).mp member
  have next : task.first_row rank (index + 1) =
      task.first_row rank index + task.row_count rank index :=
    wellFormed.first_row_succ rankBound indexBound
  have upper : task.first_row rank (index + 1) ≤
      task.first_row rank task.layout.group_size :=
    wellFormed.first_row_le rankBound indexBound (Nat.le_refl _)
  have lower := wellFormed.first_row_le rankBound (Nat.zero_le index)
    (Nat.le_of_lt indexBound)
  unfold Aligned at aligned
  rw [wellFormed.headD_offsets rankBound, wellFormed.getLastD_offsets rankBound] at aligned
  rw [wellFormed.sizes_buffer_size_eq rankBound]
  simp only at nonempty ⊢
  omega

/-- A rank that is not aligned reads outside its buffers. -/
theorem not_sizesReadInside
    (uncompressed : task.Uncompressed)
    (gpu : Gpu)
    {rank icol : Nat}
    (rankBound : rank < n)
    (icolBound : icol < task.schema.length)
    (string : task.IsString icol)
    (misaligned : ¬ task.Aligned rank) :
    ¬ task.SizesReadInside rank icol (task.events gpu rank) := by
  intro inside
  unfold Aligned at misaligned
  rw [wellFormed.headD_offsets rankBound, wellFormed.getLastD_offsets rankBound,
    not_or] at misaligned
  obtain ⟨shifted, sending⟩ := misaligned
  let atEnd : Nat → Prop := fun index =>
    task.first_row rank index = task.first_row rank task.layout.group_size
  have notEmpty : ¬ atEnd 0 := fun same => sending (by rw [same])
  have finished : atEnd task.layout.group_size := rfl
  obtain ⟨index, indexBound, before, after⟩ := exists_first_step notEmpty finished
  have upper := wellFormed.first_row_le rankBound (Nat.le_of_lt indexBound) (Nat.le_refl _)
  have next : task.first_row rank (index + 1) =
      task.first_row rank index + task.row_count rank index :=
    wellFormed.first_row_succ rankBound indexBound
  have read := inside _ ((wellFormed.mem_accesses_sizes uncompressed gpu rankBound
    icolBound string).mpr ⟨index, indexBound, rfl⟩)
  rw [wellFormed.sizes_buffer_size_eq rankBound] at read
  simp only [atEnd] at read before after
  omega

/-- A rank that receives too many characters does not get the strings. -/
theorem elements_string_ne
    (gpu : Gpu)
    (supported : task.Supported)
    {rank icol : Nat}
    (rankBound : rank < n)
    (icolBound : icol < task.schema.length)
    (string : task.IsString icol)
    (aligned : ∀ source, source < n → task.Aligned source)
    (small : task.received_rows rank < 2 ^ 31)
    (large : 2 ^ 31 ≤ task.received_chars icol rank) :
    ((task.communicated gpu rank).column icol).elements ≠
      task.gathered_elements icol rank := by
  have type := task.type_communicated gpu rankBound icolBound
  have chars := wellFormed.whole.length_flatten_gathered rankBound icolBound string
  refine elements_ne_of_large (type ▸ string)
    (task.offset_communicated gpu rankBound icolBound) ?_
    (wellFormed.whole.child_offsets_communicated gpu supported rankBound icolBound string
      aligned small)
    (fun _ => wellFormed.whole.length_lt_of_mem_gathered rankBound icolBound string)
    (by omega)
  rw [task.size_communicated gpu rankBound icolBound,
    toSizeType_eq (wellFormed.received_rows_nonneg rankBound) small,
    wellFormed.length_gathered_elements rankBound icolBound]

/-- A rank that receives too many rows does not get its elements. -/
theorem elements_ne_of_many_rows
    (gpu : Gpu)
    {rank icol : Nat}
    (rankBound : rank < n)
    (icolBound : icol < task.schema.length)
    (large : 2 ^ 31 ≤ task.received_rows rank) :
    ((task.communicated gpu rank).column icol).elements ≠
      task.gathered_elements icol rank := by
  intro same
  have length := congrArg List.length same
  have received := wellFormed.length_gathered_elements rankBound icolBound
  have bound := toSizeType_lt (task.received_rows rank)
  rw [Column.length_elements, task.size_communicated gpu rankBound icolBound] at length
  omega

end WellFormed

/-- What is read up to some point of a run is read in the whole run. -/
theorem SizesReadInside.of_earlier
    {rank icol : Nat}
    {earlier later : List (Event ranks)}
    (inside : task.SizesReadInside rank icol later)
    (grown : earlier <+: later) :
    task.SizesReadInside rank icol earlier :=
  fun extent member => inside extent ((grown.filterMap _).subset member)

/-- If string columns are communicated correctly, no rank asks for a column of a
negative size. -/
theorem StringsCorrect.allocates
    {eager : Eagerness ranks}
    {gpu : Gpu}
    (correct : task.StringsCorrect eager gpu)
    {icol : Nat}
    (icolBound : icol < task.schema.length)
    (string : task.IsString icol) :
    task.Allocates := by
  intro rank rankBound refused
  obtain ⟨state, reached, failed⟩ := task.reaches_refused eager gpu rankBound refused
  obtain ⟨finish, tail, returned⟩ := (correct icol icolBound string state reached).2
  obtain ⟨table, finished⟩ := returned rank rankBound
  have ended : (state rank).process.Ended := by
    rw [failed]
    trivial
  rw [Configuration.unchanged_of_ended tail ended, failed] at finished
  contradiction

/-- String columns that are communicated correctly have been communicated
correctly at the end of a run. -/
theorem StringsCorrect.at_end
    {eager : Eagerness ranks}
    {gpu : Gpu}
    (correct : task.StringsCorrect eager gpu)
    (uncompressed : task.Uncompressed)
    {rank icol : Nat}
    (rankBound : rank < n)
    (icolBound : icol < task.schema.length)
    (string : task.IsString icol) :
    task.SizesReadInside rank icol (task.events gpu rank) ∧
      ((task.communicated gpu rank).column icol).elements =
        task.gathered_elements icol rank := by
  have settles : Settles n eager (task.program gpu) _ _ :=
    Settles.of_returning (task.phase_program gpu uncompressed.supported
      uncompressed.narrow (correct.allocates icolBound string))
  obtain ⟨finish, reached, finished⟩ := settles.reaches_final (.refl _)
  obtain ⟨inside, delivered⟩ := (correct icol icolBound string finish reached).1 rank rankBound
  rw [(finished rank rankBound).2] at inside
  exact ⟨inside, delivered _ (finished rank rankBound).1⟩

/-- Reading outside a buffer with string sizes. -/
theorem not_stringsCorrect_of_misaligned
    (wellFormed : task.WellFormed)
    (uncompressed : task.Uncompressed)
    (eager : Eagerness ranks)
    (gpu : Gpu)
    {rank icol : Nat}
    (rankBound : rank < n)
    (icolBound : icol < task.schema.length)
    (string : task.IsString icol)
    (misaligned : ¬ task.Aligned rank) :
    ¬ task.StringsCorrect eager gpu := fun correct =>
  wellFormed.not_sizesReadInside uncompressed gpu rankBound icolBound string misaligned
    (correct.at_end uncompressed rankBound icolBound string).1

end Redistribution

/-- If there are strings, and what every rank receives of them fits, everything
fits. -/
theorem Redistribution.fits_of_strings
    {n : Nat}
    {task : Redistribution n}
    {rank : Nat}
    (strings : ∃ icol, icol < task.schema.length ∧ task.IsString icol)
    (each : ∀ icol, icol < task.schema.length → task.IsString icol →
      task.received_rows rank + 1 < 2 ^ 31 ∧ task.received_chars icol rank < 2 ^ 31) :
    task.Fits rank where
  rows := by
    obtain ⟨icol, icolBound, string⟩ := strings
    have rows := (each icol icolBound string).1
    omega
  offsets := fun icol icolBound string => (each icol icolBound string).1
  chars := fun icol icolBound string => (each icol icolBound string).2

/-- String columns are communicated correctly if and only if every rank sends
rows from the beginning of its table or no rows, and no rank receives `2 ^ 31 - 1`
rows, or `2 ^ 31` characters of a column, or more. -/
theorem strings_correct_iff
    {n : Nat}
    (eager : Eagerness ranks)
    (gpu : Gpu)
    (task : Redistribution n)
    (wellFormed : task.WellFormed)
    (uncompressed : task.Uncompressed) :
    task.StringsCorrect eager gpu ↔
      ∀ icol, icol < task.schema.length → task.IsString icol → ∀ rank, rank < n →
        task.Aligned rank ∧ task.received_rows rank + 1 < 2 ^ 31 ∧
          task.received_chars icol rank < 2 ^ 31 := by
  constructor
  · intro correct icol icolBound string
    have aligned : ∀ rank, rank < n → task.Aligned rank := by
      intro rank rankBound
      by_contra misaligned
      exact Redistribution.not_stringsCorrect_of_misaligned wellFormed uncompressed eager gpu rankBound
        icolBound string misaligned correct
    intro rank rankBound
    have delivered := (correct.at_end uncompressed rankBound icolBound string).2
    have rows : task.received_rows rank < 2 ^ 31 := by
      by_contra large
      exact wellFormed.elements_ne_of_many_rows gpu rankBound icolBound
        (not_lt.mp large) delivered
    have offsets : task.received_rows rank + 1 ≠ 2 ^ 31 := fun exhausted =>
      correct.allocates icolBound string rank rankBound
        (task.refused_of_offsets rankBound icolBound string exhausted)
    refine ⟨aligned rank rankBound, by omega, ?_⟩
    by_contra large
    exact wellFormed.elements_string_ne gpu uncompressed.supported rankBound icolBound
      string aligned rows (not_lt.mp large) delivered
  · intro condition icol icolBound string state reached
    have fits : ∀ rank, rank < n → task.Fits rank := fun rank rankBound =>
      Redistribution.fits_of_strings ⟨icol, icolBound, string⟩ fun other otherBound strings =>
        (condition other otherBound strings rank rankBound).2
    have settles : Settles n eager (task.program gpu) _ _ :=
      Settles.of_returning (task.phase_program gpu uncompressed.supported
        uncompressed.narrow (wellFormed.allocates fits))
    constructor
    · intro rank rankBound
      have aligned := (condition icol icolBound string rank rankBound).1
      have inside := wellFormed.sizesReadInside uncompressed gpu rankBound icolBound string
        aligned
      refine ⟨inside.of_earlier (settles.log_grows reached rankBound), fun table returned => ?_⟩
      have final := settles.returned_eq reached rankBound returned
      rw [← Process.pure.inj final]
      exact wellFormed.whole.elements_string gpu uncompressed.supported rankBound icolBound
        string (fun source sourceBound =>
          (condition icol icolBound string source sourceBound).1) (fits rank rankBound).rows
        ((fits rank rankBound).chars icol icolBound string)
    · obtain ⟨finish, tail, finished⟩ := settles.reaches_final reached
      exact ⟨finish, tail, fun rank rankBound => ⟨_, (finished rank rankBound).1⟩⟩

/-- A table with a column of the two strings `a` and `b`. -/
def twoStrings : Table :=
  [{  type := ⟨.STRING, 0⟩
      size := 2
      offset := 0
      head := []
      null_mask := none
      child_offsets := [0, 1, 2]
      child_chars := [97, 98] }]

theorem wellFormed_twoStrings : twoStrings.WellFormed where
  columns := by
    intro column member
    obtain rfl := List.mem_singleton.mp member
    exact {
      size_nonneg := by decide
      size_lt := by decide
      unsliced := rfl
      non_null := rfl
      fixed := fun fixed => absurd rfl fixed
      offsets_length := fun _ => rfl
      offsets_cover := fun _ => by decide
      offsets_sorted := fun _ => by decide
      offsets_bound := fun _ => by decide
      chars_lt := fun _ => by decide }
  sizes := by
    intro column member
    obtain rfl := List.mem_singleton.mp member
    rfl

/-- A single rank that redistributes a range of rows of two strings. -/
def stringsTask (first last : Int) : Redistribution 1 where
  layout := .singleRank
  schema := [⟨.STRING, 0⟩]
  table := fun _ => twoStrings
  same_schema := fun _ _ => rfl
  offsets := fun _ => [first, last]
  options := []
  group_by_batch := false
  explicit_copy_to_current_rank := true

theorem wellFormed_stringsTask
    {first last : Int}
    (nonnegative : 0 ≤ first)
    (ordered : first ≤ last)
    (inside : last ≤ 2) :
    (stringsTask first last).WellFormed where
  tables := fun _ _ => wellFormed_twoStrings
  sound_tables := fun _ _ => wellFormed_twoStrings.sound
  offsets_length := fun _ _ => show 2 = 1 / 1 + 1 by decide
  offsets_sorted := by
    intro _ _
    simp [stringsTask, ordered]
  offsets_inside := by
    intro rank _ offset member
    have rows : ((stringsTask first last).table rank).num_rows = 2 := rfl
    simp only [stringsTask, List.mem_cons, List.not_mem_nil, or_false] at member
    grind

theorem uncompressed_stringsTask (first last : Int) :
    (stringsTask first last).Uncompressed :=
  Redistribution.uncompressed_of_no_options rfl

/-- Both strings are redistributed correctly. -/
theorem strings_correct_from_first_row :
    (stringsTask 0 2).StringsCorrect (fun _ _ _ _ => false) storingGpu :=
  (strings_correct_iff (fun _ _ _ _ => false) storingGpu (stringsTask 0 2)
    (wellFormed_stringsTask (by decide) (by decide) (by decide))
    (uncompressed_stringsTask 0 2)).mpr fun icol icolBound _ rank rankBound =>
      match icol, icolBound, rank, rankBound with
      | 0, _, 0, _ => by decide

/-- If only the second string is sent, its size is read outside the buffer. -/
theorem strings_read_outside :
    (stringsTask 1 2).WellFormed ∧ (stringsTask 1 2).Uncompressed ∧
      ¬ (stringsTask 1 2).StringsCorrect (fun _ _ _ _ => false) storingGpu := by
  have wellFormed : (stringsTask 1 2).WellFormed :=
    wellFormed_stringsTask (by decide) (by decide) (by decide)
  have uncompressed := uncompressed_stringsTask 1 2
  have string : (stringsTask 1 2).IsString 0 := rfl
  exact ⟨wellFormed, uncompressed,
    Redistribution.not_stringsCorrect_of_misaligned wellFormed uncompressed _ _ Nat.one_pos
      Nat.one_pos string (by decide)⟩

end DistributedJoin
