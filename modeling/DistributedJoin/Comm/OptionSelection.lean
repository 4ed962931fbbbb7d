import DistributedJoin.Comm.CompressionOptions

/-!
# Selecting compression options

Only the root selects options, so only the root notices a type that cannot be
compressed, and the workers have then entered a broadcast that never takes place.
-/

namespace DistributedJoin

open Device Spmd

/-- All columns that would be compressed can be. -/
def Selectable (schema : List DataType) : Prop :=
  ∀ dtype ∈ schema, dtype.id ≠ .STRING → dtype.id.compressible = true

instance (schema : List DataType) : Decidable (Selectable schema) :=
  inferInstanceAs (Decidable (∀ dtype ∈ schema, _))

section Selection

variable {select_config : SelectConfig}

/-- A column gets options of its shape, if its elements can be compressed. -/
theorem select_column_options_ok
    (select_config : SelectConfig)
    {column : Column}
    (selectable : column.type.id ≠ .STRING → column.type.id.compressible = true) :
    ∃ options, select_column_options select_config column = .ok options ∧
      options.Shaped column.type.id := by
  unfold select_column_options
  by_cases string : column.type.id = .STRING
  · rw [if_pos string]
    refine ⟨_, rfl, ?_⟩
    rw [ColumnCompressionOptions.Shaped, if_pos string]
    exact ⟨_, _, rfl, rfl, rfl⟩
  · rw [if_neg string, cascaded_selector_functor, if_pos (selectable string)]
    refine ⟨_, rfl, ?_⟩
    rw [ColumnCompressionOptions.Shaped, if_neg string]
    rfl

theorem select_column_options_error
    {column : Column}
    (fixed : column.type.id ≠ .STRING)
    (unsupported : ¬ column.type.id.compressible = true) :
    select_column_options select_config column =
      .error "Unsupported type for CascadedSelector" := by
  rw [select_column_options, if_neg fixed, cascaded_selector_functor, if_neg unsupported]
  rfl

/-- The selection succeeds if no column would be refused. -/
theorem generate_auto_select_ok
    (select_config : SelectConfig)
    {input_table : Table}
    (selectable : Selectable input_table.schema) :
    ∃ options,
      generate_auto_select_compression_options select_config input_table = .ok options ∧
        List.Forall₂ (fun dtype options => options.Shaped dtype.id) input_table.schema
          options := by
  unfold generate_auto_select_compression_options
  induction input_table with
  | nil => exact ⟨[], rfl, .nil⟩
  | cons column rest inductionHypothesis =>
      obtain ⟨options, selected, shaped⟩ := select_column_options_ok select_config
        (selectable column.type (List.mem_cons_self ..))
      obtain ⟨more, remaining, shapes⟩ := inductionHypothesis fun dtype member =>
        selectable dtype (List.mem_cons_of_mem _ member)
      refine ⟨options :: more, ?_, .cons shaped shapes⟩
      rw [List.mapM_cons, selected, remaining]
      rfl

/-- The selection fails if a column is refused. -/
theorem generate_auto_select_error
    {input_table : Table}
    (unselectable : ¬ Selectable input_table.schema) :
    generate_auto_select_compression_options select_config input_table =
      .error "Unsupported type for CascadedSelector" := by
  unfold generate_auto_select_compression_options
  induction input_table with
  | nil => exact absurd (fun dtype member => absurd member List.not_mem_nil) unselectable
  | cons column rest inductionHypothesis =>
      by_cases first : column.type.id ≠ .STRING → column.type.id.compressible = true
      · obtain ⟨options, selected, _⟩ := select_column_options_ok select_config first
        have others : ¬ Selectable (Table.schema rest) := by
          intro selectable
          refine unselectable fun dtype member => ?_
          rcases List.mem_cons.mp member with rfl | later
          · exact first
          · exact selectable dtype later
        rw [List.mapM_cons, selected, inductionHypothesis others]
        rfl
      · push Not at first
        rw [List.mapM_cons, select_column_options_error first.1 first.2]
        rfl

end Selection

/-- The ranks of a system agree on the options for their tables. -/
def generateProgram
    (select_config : SelectConfig)
    (n : Nat)
    (input_table : Nat → Table)
    (rank : Nat) : Process broadcasts (List ColumnCompressionOptions) :=
  generate_compression_options_distributed select_config (input_table rank) true n rank

/-- All ranks return or all ranks fail, and no rank enters a broadcast that the root
does not enter. -/
structure FailsTogether
    {α : Type}
    (n : Nat)
    (eager : Eagerness broadcasts)
    (program : Nat → Process broadcasts α) : Prop where
  uniform : (∃ result, Returns n eager program result) ∨
    ∃ (reason : Nat → String) (log : Nat → List (Event broadcasts)),
      Settles n eager program (fun rank => .fail (reason rank)) log
  entered : ∀ state, Reaches (Configuration.step n eager) (Configuration.start program) state →
    (state 0).process.Ended → ∀ rank, rank < n →
      (entered (state rank).log).length ≤ (entered (state 0).log).length

section Outcomes

variable {n : Nat} (n_pos : 0 < n) {eager : Eagerness broadcasts} {select_config : SelectConfig}
  {schema : List DataType} {input_table : Nat → Table}
  (same_schema : ∀ rank, rank < n → (input_table rank).schema = schema)
include n_pos same_schema

/-- If no column is refused, all ranks get the selection of the root. -/
theorem broadcasts_selected (selectable : Selectable schema) :
    ∃ options, Broadcasts n eager (generateProgram select_config n input_table) options
      (schema.flatMap fun dtype => broadcast_sizes dtype.id) := by
  have root := same_schema 0 n_pos
  obtain ⟨options, selected, shaped⟩ :=
    generate_auto_select_ok select_config (root ▸ selectable)
  let known : Nat → List ColumnCompressionOptions := fun rank => if rank = 0 then options else []
  have told : Broadcasts n eager _ _ _ :=
    broadcasts_table n_pos same_schema known (root ▸ shaped)
  refine ⟨options, told.congr fun rank _ => ?_⟩
  by_cases isRoot : rank = 0
  · subst isRoot
    simp only [generateProgram, generate_compression_options_distributed, selected]
    rfl
  · simp only [generateProgram, generate_compression_options_distributed, if_neg isRoot, known]
    rfl

omit n_pos same_schema in
/-- If a column is refused, the root fails at once. -/
theorem root_fails (unselectable : ¬ Selectable (input_table 0).schema) :
    generateProgram select_config n input_table 0 =
      .fail "Unsupported type for CascadedSelector" := by
  simp only [generateProgram, generate_compression_options_distributed,
    generate_auto_select_error unselectable]
  rfl

omit n_pos same_schema in
/-- A worker with a column enters a broadcast at once. -/
theorem worker_enters
    (n : Nat)
    (select_config : SelectConfig)
    {rank : Nat}
    (worker : rank ≠ 0)
    (columns : input_table rank ≠ []) :
    ∃ next, generateProgram select_config n input_table rank = .note (4 : Nat) next := by
  obtain ⟨column, rest, found⟩ := List.exists_cons_of_ne_nil columns
  have first : ∀ id options, ∃ next,
      broadcast_compression_options id options n rank = .note (4 : Nat) next := by
    intro id options
    rw [broadcast_compression_options]
    exact ⟨_, rfl⟩
  obtain ⟨next, entering⟩ := first column.type.id
    (if rank = 0 then ([] : List ColumnCompressionOptions).getD 0 .none else .none)
  have program : generateProgram select_config n input_table rank =
      broadcast_table_compression_options (column :: rest) [] n rank := by
    simp only [generateProgram, generate_compression_options_distributed, if_neg worker, found]
    rfl
  rw [program, broadcast_table_compression_options, List.length_cons, List.range_succ_eq_map,
    List.mapM_cons]
  change ∃ next, (broadcast_compression_options column.type.id _ n rank >>= _) = _
  rw [entering]
  exact ⟨_, rfl⟩

/-- If a column is refused, the first worker enters a broadcast without the root. -/
theorem not_failsTogether
    (workerBound : 1 < n)
    (unselectable : ¬ Selectable schema) :
    ¬ FailsTogether n eager (generateProgram select_config n input_table) := by
  intro together
  have columns : input_table 1 ≠ [] := by
    intro empty
    refine unselectable fun dtype member => ?_
    rw [← same_schema 1 workerBound, empty] at member
    contradiction
  obtain ⟨next, entering⟩ :=
    worker_enters n select_config Nat.one_ne_zero columns
  let start : Configuration broadcasts (List ColumnCompressionOptions) :=
    .start (generateProgram select_config n input_table)
  have taken : Configuration.step n eager ⟨1, workerBound⟩ start =
      some (Function.update start 1 ⟨next, (start 1).port, (start 1).log ++ [.noted (4 : Nat)]⟩) := by
    have process : (start 1).process = .note (4 : Nat) next := entering
    rw [Configuration.step, Configuration.advance, process]
    rfl
  have failed : (start 0).process = .fail "Unsupported type for CascadedSelector" :=
    root_fails (same_schema 0 n_pos ▸ unselectable)
  have ended : ((Function.update start 1 ⟨next, (start 1).port,
      (start 1).log ++ [.noted (4 : Nat)]⟩) 0).process.Ended := by
    rw [Function.update_of_ne Nat.zero_ne_one, failed]
    trivial
  have counts := together.entered _ (.single taken) ended 1 workerBound
  rw [Function.update_self, Function.update_of_ne Nat.zero_ne_one] at counts
  have more : 1 ≤ 0 := counts
  omega

end Outcomes

/-- The ranks return or fail together, and no rank enters a broadcast without the root,
if and only if there is no worker or all columns that would be compressed can be. -/
theorem options_fail_together_iff
    {n : Nat}
    (n_pos : 0 < n)
    (eager : Eagerness broadcasts)
    (select_config : SelectConfig)
    {schema : List DataType}
    (input_table : Nat → Table)
    (same_schema : ∀ rank, rank < n → (input_table rank).schema = schema) :
    FailsTogether n eager (generateProgram select_config n input_table) ↔
      n = 1 ∨ Selectable schema := by
  constructor
  · intro together
    by_contra! broken
    exact not_failsTogether n_pos same_schema (by omega) broken.2 together
  · intro condition
    by_cases selectable : Selectable schema
    · obtain ⟨options, told⟩ : ∃ options,
          Broadcasts n eager (generateProgram select_config n input_table) options _ :=
        broadcasts_selected n_pos same_schema selectable
      constructor
      case uniform => exact .inl ⟨_, told.returns⟩
      case entered =>
        intro state reached ended rank rankBound
        rw [(told.entered_prefix reached n_pos).2 ended]
        exact (told.entered_prefix reached rankBound).1.length_le
    · obtain rfl := condition.resolve_right selectable
      have stopped : Phase 1 eager (Arrivals.none broadcasts)
          (generateProgram select_config 1 input_table) (Arrivals.none broadcasts) _ _ :=
        (Phase.fail fun _ => "Unsupported type for CascadedSelector").congr fun rank rankBound => by
          rw [Nat.lt_one_iff.mp rankBound]
          exact root_fails (same_schema 0 n_pos ▸ selectable)
      constructor
      case uniform => exact .inr ⟨_, _, stopped.settles_error⟩
      case entered =>
        intro state _ _ rank rankBound
        rw [Nat.lt_one_iff.mp rankBound]

/-- Two ranks agree on the options for a column of integers. -/
theorem options_fail_together_two_ranks :
    FailsTogether 2 (fun _ _ _ _ => false)
      (generateProgram (fun _ _ => ⟨1, 1, 1⟩) 2
        fun _ => [{ Table.missingColumn with type := ⟨.INT32, 0⟩ }]) :=
  (options_fail_together_iff Nat.two_pos (fun _ _ _ _ => false) (fun _ _ => ⟨1, 1, 1⟩)
    (fun _ => [{ Table.missingColumn with type := ⟨.INT32, 0⟩ }]) fun _ _ => rfl).mpr
      (.inr (by decide))

/-- With a column of floating-point numbers the root fails, and the worker waits. -/
theorem options_fail_alone :
    ¬ FailsTogether 2 (fun _ _ _ _ => false)
      (generateProgram (fun _ _ => ⟨1, 1, 1⟩) 2
        fun _ => [{ Table.missingColumn with type := ⟨.FLOAT32, 0⟩ }]) :=
  not_failsTogether Nat.two_pos (fun _ _ => rfl) Nat.one_lt_two (by decide)

end DistributedJoin
