import DistributedJoin.Comm.StringRows

/-!
# Allocation of the communicated table

The columns of the communicated table are created before a row is received. How large
they are is decided by all members of the group together. A size that is negative as a
`cudf::size_type` is an error of the rank that asks for it.
-/

namespace DistributedJoin

open Device Spmd

namespace Redistribution

variable {n : Nat} (task : Redistribution n)

/-- Every column is created with the received rows, and a string column also with one
offset more than rows and, if there are rows, with the received characters. -/
theorem mem_requested_sizes
    {rank : Nat}
    (rankBound : rank < n)
    {size : Int} :
    size ∈ (task.created rank).requested_sizes ↔
      ∃ icol, icol < task.schema.length ∧
        (size = toSizeType (task.received_rows rank) ∨
          task.IsString icol ∧
            (size = toSizeType (task.received_rows rank + 1) ∨
              toSizeType (task.received_rows rank) ≠ 0 ∧
                size = toSizeType (task.received_chars icol rank))) := by
  have length : (task.created rank).input_table.length = task.schema.length :=
    task.length_table rankBound
  have rows : (task.created rank).communicated_rows = toSizeType (task.received_rows rank) :=
    task.communicated_rows_created rank
  have last : (task.created rank).recv_offsets.getLastD 0 = task.received_rows rank :=
    task.getLastD_recv_offsets rank
  rw [AllToAllCommunicator.requested_sizes, List.mem_flatMap, length, rows, last]
  simp only [List.mem_range]
  refine exists_congr fun icol => and_congr_right fun icolBound => ?_
  have type : ((task.created rank).input_table.column icol).type = task.column_type icol :=
    task.type_column rankBound icol
  rw [type]
  by_cases string : task.IsString icol
  · have chars : ((task.created rank).string_recv_offsets.getD icol []).getLastD 0 =
        task.received_chars icol rank := by
      rw [← task.getLastD_string_recv_offsets icol rank, ← task.getD_of_string
        (fun icol => task.string_recv_offsets icol rank) icolBound string]
      rfl
    rw [if_neg (task.not_ne_string string), chars]
    by_cases none : toSizeType (task.received_rows rank) = 0
    · simp only [none, string, if_true, List.nil_append, List.mem_cons, List.not_mem_nil,
        or_false, true_and, ne_eq, not_true, false_and]
      exact or_comm
    · simp only [none, string, if_false, List.mem_append, List.mem_cons, List.not_mem_nil,
        or_false, true_and, ne_eq, not_false_eq_true]
      tauto
  · rw [if_pos (task.ne_string string)]
    simp only [string, List.mem_singleton, false_and, or_false]

/-- What the members of the group send to a rank takes a size that is negative as a
`cudf::size_type`: the number of rows, or with strings the number of their offsets or of
their characters. -/
def NegativeSize (rank : Nat) : Prop :=
  ∃ icol, icol < task.schema.length ∧
    (toSizeType (task.received_rows rank) < 0 ∨
      task.IsString icol ∧
        (toSizeType (task.received_rows rank + 1) < 0 ∨
          toSizeType (task.received_rows rank) ≠ 0 ∧
            toSizeType (task.received_chars icol rank) < 0))

instance (rank : Nat) : Decidable (task.NegativeSize rank) :=
  inferInstanceAs (Decidable (∃ icol, icol < task.schema.length ∧ (_ ∨ _ ∧ (_ ∨ _ ∧ _))))

/-- A rank asks for a column of a negative size exactly if it needs one. -/
theorem refused_iff
    {rank : Nat}
    (rankBound : rank < n) :
    task.Refused rank ↔ task.NegativeSize rank := by
  unfold Refused NegativeSize
  simp only [task.mem_requested_sizes rankBound]
  constructor
  · rintro ⟨size, ⟨icol, icolBound, rfl | ⟨string, rfl | ⟨some_rows, rfl⟩⟩⟩, negative⟩
    · exact ⟨icol, icolBound, .inl negative⟩
    · exact ⟨icol, icolBound, .inr ⟨string, .inl negative⟩⟩
    · exact ⟨icol, icolBound, .inr ⟨string, .inr ⟨some_rows, negative⟩⟩⟩
  · rintro ⟨icol, icolBound, negative | ⟨string, negative | ⟨some_rows, negative⟩⟩⟩
    · exact ⟨_, ⟨icol, icolBound, .inl rfl⟩, negative⟩
    · exact ⟨_, ⟨icol, icolBound, .inr ⟨string, .inl rfl⟩⟩, negative⟩
    · exact ⟨_, ⟨icol, icolBound, .inr ⟨string, .inr ⟨some_rows, rfl⟩⟩⟩, negative⟩

theorem allocates_iff :
    task.Allocates ↔ ∀ rank, rank < n → ¬ task.NegativeSize rank :=
  forall₂_congr fun _ rankBound => not_congr (task.refused_iff rankBound)

/-- Rows that need the sign bit are refused. -/
theorem refused_of_rows
    {rank icol : Nat}
    (rankBound : rank < n)
    (icolBound : icol < task.schema.length)
    (large : 2 ^ 31 ≤ task.received_rows rank)
    (small : task.received_rows rank < 2 ^ 32) :
    task.Refused rank :=
  (task.refused_iff rankBound).mpr ⟨icol, icolBound, .inl (toSizeType_neg large small)⟩

/-- Strings with as many rows as can be counted have an offset too many. -/
theorem refused_of_offsets
    {rank icol : Nat}
    (rankBound : rank < n)
    (icolBound : icol < task.schema.length)
    (string : task.IsString icol)
    (exhausted : task.received_rows rank + 1 = 2 ^ 31) :
    task.Refused rank := by
  refine (task.refused_iff rankBound).mpr ⟨icol, icolBound, .inr ⟨string, .inl ?_⟩⟩
  rw [exhausted]
  decide

/-- What a rank receives fits the width of `cudf::size_type`, and so do the offsets of
its strings. -/
structure Fits (rank : Nat) : Prop where
  rows : task.received_rows rank < 2 ^ 31
  offsets : ∀ icol, icol < task.schema.length → task.IsString icol →
    task.received_rows rank + 1 < 2 ^ 31
  chars : ∀ icol, icol < task.schema.length → task.IsString icol →
    task.received_chars icol rank < 2 ^ 31

variable {task}

namespace Sound

variable (sound : task.Sound)
include sound

/-- A rank can create columns for what fits. -/
theorem not_refused
    {rank : Nat}
    (rankBound : rank < n)
    (fits : task.Fits rank) :
    ¬ task.Refused rank := by
  have nonnegative := sound.received_rows_nonneg rankBound
  rw [task.refused_iff rankBound]
  rintro ⟨icol, icolBound, negative | ⟨string, negative | ⟨_, negative⟩⟩⟩
  · rw [toSizeType_eq nonnegative fits.rows] at negative
    omega
  · rw [toSizeType_eq (by omega) (fits.offsets icol icolBound string)] at negative
    omega
  · have chars := sound.received_chars_nonneg rankBound icolBound string
    rw [toSizeType_eq chars (fits.chars icol icolBound string)] at negative
    omega

/-- All communicated tables can be created if what every rank receives fits. -/
theorem allocates (fits : ∀ rank, rank < n → task.Fits rank) : task.Allocates :=
  fun rank rankBound => sound.not_refused rankBound (fits rank rankBound)

end Sound

end Redistribution

end DistributedJoin
