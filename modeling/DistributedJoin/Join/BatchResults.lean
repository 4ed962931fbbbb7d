import DistributedJoin.Join.Threads

/-!
# The results of the batches

Whatever the interleaving of the threads of all ranks is: the results of the batches that
a rank has joined are those of the first batches, and a call that has come to its end has
joined all of them. Every call can come to its end.
-/

namespace DistributedJoin

open Device Spmd

namespace JoinState

/-- The tables that `local_join_helper` has returned on a rank so far. -/
def local_joins (state : JoinState) (rank : Nat) : List Table :=
  match (state.calling rank).process with
  | .pure (some table) => [table]
  | _ => state.batch_join_results rank

/-- The result of one batch. -/
def batch_join_result
    (inner_join : InnerJoin)
    (left_on right_on : List Nat)
    (batches : Side → Nat → Table)
    (ibatch : Nat) : Table :=
  local_join_helper inner_join (batches .left ibatch) (batches .right ibatch) left_on right_on

/-- The number of batches that a rank has to join, if its calling thread ends with the given
outcome. -/
def batch_count (over_decom_factor : Nat) : Option Table → Nat
  | some _ => 0
  | none => over_decom_factor

/-- All tables that `local_join_helper` returns on a rank. -/
def all_local_joins
    (inner_join : InnerJoin)
    (left_on right_on : List Nat)
    (over_decom_factor : Nat)
    (batches : Side → Nat → Table) : Option Table → List Table
  | some table => [table]
  | none => (List.range over_decom_factor).map
      (batch_join_result inner_join left_on right_on batches)

/-- How the calling threads end, and what they announce to the joining threads until then. -/
structure Ends
    (n : Nat)
    (eager : Eagerness ranks)
    (program : Nat → Process ranks (Option Table))
    (over_decom_factor : Nat)
    (outcome : Nat → Option Table)
    (batches : Nat → Side → Nat → Table)
    (log : Nat → List (Event ranks)) : Prop where
  settles : Settles n eager program (fun rank => .pure (outcome rank)) log
  announced : ∀ rank, rank < n → (log rank).filter announces =
    announcements (batches rank) (batch_count over_decom_factor (outcome rank))

/-- What holds in all states of a call. -/
structure Consistent
    (cudf : Cudf)
    (n : Nat)
    (eager : Eagerness ranks)
    (left_on right_on : List Nat)
    (over_decom_factor : Nat)
    (program : Nat → Process ranks (Option Table))
    (outcome : Nat → Option Table)
    (batches : Nat → Side → Nat → Table)
    (state : JoinState) : Prop where
  calling : Reaches (Configuration.step n eager) (Configuration.start program) state.calling
  results : ∀ rank, rank < n → ∃ joined, joined ≤ batch_count over_decom_factor (outcome rank) ∧
    state.batch_join_results rank = (List.range joined).map
      (batch_join_result cudf.inner_join left_on right_on (batches rank))
  returned : ∀ rank, rank < n → state.returned rank ≠ none →
    (state.calling rank).process = .pure (outcome rank) ∧
      (state.batch_join_results rank).length = batch_count over_decom_factor (outcome rank)

section Runs

variable {cudf : Cudf} {n : Nat} {eager : Eagerness ranks} {left_on right_on : List Nat}
  {over_decom_factor : Nat} {program : Nat → Process ranks (Option Table)}
  {outcome : Nat → Option Table} {batches : Nat → Side → Nat → Table}
  {log : Nat → List (Event ranks)} {state next : JoinState}

theorem consistent_start :
    Consistent cudf n eager left_on right_on over_decom_factor program outcome batches
      (start program) where
  calling := .refl _
  results := fun _ _ => ⟨0, Nat.zero_le _, rfl⟩
  returned := fun _ _ returned => absurd rfl returned

section

variable (ends : Ends n eager program over_decom_factor outcome batches log)
include ends

/-- A batch is joined as soon as its flag is set, with the tables of the batch. -/
theorem Ends.joined_batch
    {rank joined : Nat}
    (rankBound : rank < n)
    {seen : List (Event ranks)}
    (inside : seen <+: log rank)
    {results : List Table}
    (taken : inner_join_func cudf.inner_join left_on right_on over_decom_factor seen
      ((List.range joined).map
        (batch_join_result cudf.inner_join left_on right_on (batches rank))) = some results) :
    joined < batch_count over_decom_factor (outcome rank) ∧
      results = (List.range (joined + 1)).map
        (batch_join_result cudf.inner_join left_on right_on (batches rank)) := by
  simp only [inner_join_func, List.length_map, List.length_range] at taken
  split at taken
  · rename_i ready
    have announcedInside : seen.filter announces <+:
        announcements (batches rank) (batch_count over_decom_factor (outcome rank)) :=
      ends.announced rank rankBound ▸ inside.filter announces
    have flagged : flag_is_set joined (seen.filter announces) = true :=
      (flag_is_set_filter joined seen).trans ready.2
    obtain ⟨bound, found⟩ := announced_of_flag announcedInside flagged
    have tables : ∀ side, communicated_table_of side joined seen = batches rank side joined :=
      fun side => (communicated_table_of_filter side joined seen).symm.trans (found side)
    rw [tables, tables] at taken
    refine ⟨bound, ?_⟩
    rw [← Option.some.inj taken, List.range_succ, List.map_append]
    rfl
  · contradiction

/-- A rank whose calling thread has come to an end has seen all flags. -/
theorem Ends.flag_is_set_iff
    {rank ibatch : Nat}
    (rankBound : rank < n) :
    flag_is_set ibatch (log rank) = true ↔
      ibatch < batch_count over_decom_factor (outcome rank) := by
  rw [← flag_is_set_filter, ends.announced rank rankBound, flag_is_set_announcements]

/-- A step keeps what holds in all states. -/
theorem Consistent.step
    (consistent : Consistent cudf n eager left_on right_on over_decom_factor program outcome
      batches state)
    {component : Fin n × Thread}
    (taken : step cudf n eager left_on right_on over_decom_factor component state = some next) :
    Consistent cudf n eager left_on right_on over_decom_factor program outcome batches next := by
  obtain ⟨calling, moved, rfl⟩ | ⟨ended, result, process, unreturned, joined, rfl⟩ |
      ⟨results, joined, rfl⟩ := step_cases taken
  · -- a calling thread that goes on has not returned
    refine ⟨consistent.calling.trans (.single moved), consistent.results,
      fun rank rankBound returned => ?_⟩
    obtain ⟨process, length⟩ := consistent.returned rank rankBound returned
    have ended : (state.calling rank).process.Ended := by
      rw [process]
      trivial
    have unchanged := Configuration.unchanged_of_ended (.single moved) ended
    exact ⟨(congrArg (·.process) unchanged).trans process, length⟩
  · refine ⟨consistent.calling, consistent.results, fun rank rankBound returned => ?_⟩
    by_cases same : rank = component.1
    · subst same
      have final := Process.pure.inj
        (ends.settles.returned_eq consistent.calling rankBound process)
      obtain ⟨done, bound, results⟩ := consistent.results _ rankBound
      rw [final]
      refine ⟨process, ?_⟩
      rw [final] at bound
      cases ended with
      | some table =>
          rw [results, List.length_map, List.length_range]
          exact Nat.le_zero.mp bound
      | none =>
          unfold join_result at joined
          split at joined
          · contradiction
          · split at joined
            · rename_i all
              exact all
            · contradiction
    · have unchanged : Function.update state.returned component.1 (some result) rank =
          state.returned rank := Function.update_of_ne same _ _
      exact consistent.returned rank rankBound fun none => returned (unchanged.trans none)
  · have inside := ends.settles.log_grows consistent.calling component.1.isLt
    obtain ⟨done, bound, before⟩ := consistent.results _ component.1.isLt
    rw [before] at joined
    obtain ⟨more, after⟩ := ends.joined_batch component.1.isLt inside joined
    refine ⟨consistent.calling, fun rank rankBound => ?_, fun rank rankBound returned => ?_⟩
    · by_cases same : rank = component.1
      · subst same
        exact ⟨done + 1, more, (Function.update_self _ _ _).trans after⟩
      · obtain ⟨others, othersBound, othersResults⟩ := consistent.results rank rankBound
        exact ⟨others, othersBound, (Function.update_of_ne same _ _).trans othersResults⟩
    · obtain ⟨process, length⟩ := consistent.returned rank rankBound returned
      have different : rank ≠ component.1 := by
        rintro rfl
        rw [before, List.length_map, List.length_range] at length
        omega
      exact ⟨process, (congrArg List.length (Function.update_of_ne different _ _)).trans length⟩

/-- All states of a call are consistent. -/
theorem Ends.consistent
    (reached : Reaches (step cudf n eager left_on right_on over_decom_factor) (start program)
      state) :
    Consistent cudf n eager left_on right_on over_decom_factor program outcome batches state :=
  reached.invariant consistent_start fun _ _ _ consistent taken => consistent.step ends taken

/-- A rank whose calling thread has come to an end can join all batches. -/
theorem Ends.reaches_joined
    (rank : Fin n)
    (missing : Nat)
    {state : JoinState}
    (reached : Reaches (JoinState.step cudf n eager left_on right_on over_decom_factor)
      (start program) state)
    (ended : (state.calling rank).process = .pure (outcome rank))
    (length : (state.batch_join_results rank).length + missing =
      batch_count over_decom_factor (outcome rank)) :
    ∃ finish, Reaches (JoinState.step cudf n eager left_on right_on over_decom_factor) state
        finish ∧
      finish.calling = state.calling ∧ finish.returned = state.returned ∧
        (finish.batch_join_results rank).length =
          batch_count over_decom_factor (outcome rank) := by
  induction missing generalizing state with
  | zero => exact ⟨state, .refl _, rfl, rfl, length⟩
  | succ missing inductionHypothesis =>
      have consistent := ends.consistent reached
      have complete : (state.calling rank).log = log rank :=
        (ends.settles.ended_eq consistent.calling rank.isLt (by rw [ended]; trivial)).2
      have flagged : flag_is_set (state.batch_join_results rank).length
          (state.calling rank).log = true := by
        rw [complete, ends.flag_is_set_iff rank.isLt]
        omega
      have bound : (state.batch_join_results rank).length < over_decom_factor := by
        have most : batch_count over_decom_factor (outcome rank) ≤ over_decom_factor := by
          cases outcome rank with
          | some table => exact Nat.zero_le _
          | none => exact Nat.le_refl _
        omega
      have joined : inner_join_func cudf.inner_join left_on right_on over_decom_factor
          (state.calling rank).log (state.batch_join_results rank) = some _ :=
        if_pos ⟨bound, flagged⟩
      have taken : JoinState.step cudf n eager left_on right_on over_decom_factor
          (rank, .inner_join) state = some _ := Option.map_eq_some_iff.mpr ⟨_, joined, rfl⟩
      obtain ⟨finish, further, calling, returned, full⟩ :=
        inductionHypothesis (reached.trans (.single taken)) ended (by
          change (Function.update state.batch_join_results rank _ rank).length + missing = _
          rw [Function.update_self, List.length_append, List.length_singleton]
          omega)
      exact ⟨finish, (Reaches.single taken).trans further, calling, returned, full⟩

/-- A rank whose calling thread has come to an end can return. -/
theorem Ends.reaches_returned_on
    (rank : Fin n)
    {state : JoinState}
    (reached : Reaches (JoinState.step cudf n eager left_on right_on over_decom_factor)
      (start program) state)
    (ended : (state.calling rank).process = .pure (outcome rank)) :
    ∃ finish, Reaches (JoinState.step cudf n eager left_on right_on over_decom_factor) state
        finish ∧
      finish.calling = state.calling ∧ finish.returned rank ≠ none ∧
        ∀ other, state.returned other ≠ none → finish.returned other ≠ none := by
  by_cases already : state.returned rank = none
  · obtain ⟨joined, bound, results⟩ := (ends.consistent reached).results rank rank.isLt
    have length : (state.batch_join_results rank).length +
        (batch_count over_decom_factor (outcome rank) - joined) =
          batch_count over_decom_factor (outcome rank) := by
      rw [results, List.length_map, List.length_range]
      omega
    obtain ⟨middle, further, calling, returned, full⟩ :=
      ends.reaches_joined rank _ reached ended length
    have result : ∃ result, join_result cudf.concatenate over_decom_factor
        (middle.batch_join_results rank) (outcome rank) = some result := by
      cases found : outcome rank with
      | some table => exact ⟨_, rfl⟩
      | none =>
          rw [found] at full
          exact ⟨_, if_pos full⟩
    obtain ⟨result, concatenated⟩ := result
    have process : (middle.calling rank).process = .pure (outcome rank) := calling ▸ ended
    have taken : JoinState.step cudf n eager left_on right_on over_decom_factor
        (rank, .calling) middle = some
          { middle with returned := Function.update middle.returned rank (some result) } := by
      unfold JoinState.step
      simp only [process, returned, already, concatenated, if_true, Option.map_some]
    refine ⟨_, further.trans (.single taken), calling, ?_, fun other otherReturned => ?_⟩
    · change Function.update middle.returned rank (some result) rank ≠ none
      rw [Function.update_self]
      exact Option.some_ne_none result
    · change Function.update middle.returned rank (some result) other ≠ none
      by_cases same : other = rank
      · rw [same, Function.update_self]
        exact Option.some_ne_none result
      · rw [Function.update_of_ne same, returned]
        exact otherReturned
  · exact ⟨state, .refl _, rfl, already, fun _ => id⟩

/-- From every state of a call, all ranks can return. -/
theorem Ends.reaches_returned
    {state : JoinState}
    (reached : Reaches (JoinState.step cudf n eager left_on right_on over_decom_factor)
      (start program) state) :
    ∃ finish, Reaches (JoinState.step cudf n eager left_on right_on over_decom_factor) state
        finish ∧
      ∀ rank, rank < n → finish.returned rank ≠ none := by
  obtain ⟨calling, calls, ended⟩ := ends.settles.reaches_final (ends.consistent reached).calling
  have called : Reaches (JoinState.step cudf n eager left_on right_on over_decom_factor) state
      { state with calling := calling } := reaches_of_calling calls state rfl
  suffices returned : ∀ count, count ≤ n → ∃ finish,
      Reaches (JoinState.step cudf n eager left_on right_on over_decom_factor)
          { state with calling := calling } finish ∧
        finish.calling = calling ∧ ∀ rank, rank < count → finish.returned rank ≠ none by
    obtain ⟨finish, further, _, all⟩ := returned n (Nat.le_refl n)
    exact ⟨finish, called.trans further, all⟩
  intro count
  induction count with
  | zero => exact fun _ => ⟨_, .refl _, rfl, fun _ none => absurd none (Nat.not_lt_zero _)⟩
  | succ count inductionHypothesis =>
      intro bound
      obtain ⟨middle, further, same, before⟩ := inductionHypothesis (Nat.le_of_succ_le bound)
      obtain ⟨finish, last, kept, here, others⟩ := ends.reaches_returned_on ⟨count, bound⟩
        ((reached.trans called).trans further) (by rw [same]; exact (ended count bound).1)
      refine ⟨finish, further.trans last, kept.trans same, fun rank rankBound => ?_⟩
      rcases Nat.lt_succ_iff_lt_or_eq.mp rankBound with earlier | rfl
      · exact others rank (before rank earlier)
      · exact here

omit ends in
/-- A rank that has returned has joined everything that it has to join. -/
theorem Consistent.local_joins_eq
    (consistent : Consistent cudf n eager left_on right_on over_decom_factor program outcome
      batches state)
    {rank : Nat}
    (rankBound : rank < n)
    (returned : state.returned rank ≠ none) :
    state.local_joins rank = all_local_joins cudf.inner_join left_on right_on over_decom_factor
      (batches rank) (outcome rank) := by
  obtain ⟨process, full⟩ := consistent.returned rank rankBound returned
  obtain ⟨joined, _, results⟩ := consistent.results rank rankBound
  rw [results, List.length_map, List.length_range] at full
  unfold local_joins
  rw [process]
  cases found : outcome rank with
  | some table => rfl
  | none =>
      rw [found] at full
      rw [results, full]
      rfl

end

end Runs

end JoinState

end DistributedJoin
