import DistributedJoin.Join.BatchResults
import DistributedJoin.Spmd.Continuations

/-!
# Programs that join

What a rank does after a distributed join begins while other ranks are still joining. Together
the two threads of every rank do what one thread does that knows the tables of all batches in
advance, so that the results of a program do not depend on how the threads are interleaved.
-/

namespace DistributedJoin

open Device Spmd

/-- What the calling thread of a rank has come to the end of. -/
inductive Stage (β : Type)
  /-- The communication of the join. -/
  | joined (outcome : Option Table)
  /-- The program. -/
  | ended (value : β)

/-- A state of all threads of all ranks that run a program with a join. -/
structure ProgramState (β : Type) where
  calling : Configuration ranks (Stage β)
  /-- The results of the batches that a rank has joined, in order. -/
  batch_join_results : Nat → List Table

namespace ProgramState

variable {β : Type}

/-- All programs begin. -/
def start (program : Nat → Process ranks (Option Table)) : ProgramState β where
  calling := .start fun rank => program rank >>= fun outcome => Process.pure (.joined outcome)
  batch_join_results := fun _ => []

/-- A thread of a rank takes its next step, if it has one. When the results of all batches are
there, the program goes on with the result of the join. -/
def step
    (cudf : Cudf)
    (n : Nat)
    (eager : Eagerness ranks)
    (left_on right_on : List Nat)
    (over_decom_factor : Nat)
    (goes_on : Nat → Except String Table → Process ranks β)
    (component : Fin n × Thread)
    (state : ProgramState β) : Option (ProgramState β) :=
  let rank := component.1
  match component.2 with
  | .calling =>
      match (state.calling rank).process with
      | .pure (.joined outcome) =>
          (JoinState.join_result cudf.concatenate over_decom_factor
            (state.batch_join_results rank) outcome).map fun result =>
              { state with
                calling := Function.update state.calling rank
                  { state.calling rank with
                    process := goes_on rank result >>= fun value => Process.pure (.ended value) } }
      | _ => (Configuration.step n eager rank state.calling).map fun calling =>
          { state with calling := calling }
  | .inner_join =>
      (inner_join_func cudf.inner_join left_on right_on over_decom_factor
        (state.calling rank).log (state.batch_join_results rank)).map fun results =>
          { state with
            batch_join_results := Function.update state.batch_join_results rank results }

section Steps

variable {cudf : Cudf} {n : Nat} {eager : Eagerness ranks} {left_on right_on : List Nat}
  {over_decom_factor : Nat} {goes_on : Nat → Except String Table → Process ranks β}
  {state next : ProgramState β}

/-- A step of a calling thread that has not come to the end of a stage. -/
theorem step_calling
    {rank : Fin n}
    {calling : Configuration ranks (Stage β)}
    (unreturned : ∀ stage, (state.calling rank).process ≠ .pure stage)
    (taken : Configuration.step n eager rank state.calling = some calling) :
    step cudf n eager left_on right_on over_decom_factor goes_on (rank, .calling) state =
      some { state with calling := calling } := by
  unfold step
  cases process : (state.calling rank).process with
  | pure stage => exact absurd process (unreturned stage)
  | fail reason => simp only [process, taken, Option.map_some]
  | note observation next => simp only [process, taken, Option.map_some]
  | send channel dest message next => simp only [process, taken, Option.map_some]
  | post channel source request next => simp only [process, taken, Option.map_some]
  | waitall channel next => simp only [process, taken, Option.map_some]

/-- A step of a calling thread that returns from the join. -/
theorem step_returns
    {rank : Fin n}
    {outcome : Option Table}
    {result : Except String Table}
    (process : (state.calling rank).process = .pure (.joined outcome))
    (joined : JoinState.join_result cudf.concatenate over_decom_factor
      (state.batch_join_results rank) outcome = some result) :
    step cudf n eager left_on right_on over_decom_factor goes_on (rank, .calling) state =
      some { state with
        calling := Function.update state.calling rank
          { state.calling rank with
            process := goes_on rank result >>= fun value => Process.pure (.ended value) } } := by
  unfold step
  simp only [process, joined, Option.map_some]

/-- What a step can do: a calling thread goes on, a join returns, or a batch is joined. -/
theorem step_cases
    {component : Fin n × Thread}
    (taken : step cudf n eager left_on right_on over_decom_factor goes_on component state =
      some next) :
    (∃ calling, (∀ stage, (state.calling component.1).process ≠ .pure stage) ∧
        Configuration.step n eager component.1 state.calling = some calling ∧
        next = { state with calling := calling }) ∨
      (∃ outcome result, (state.calling component.1).process = .pure (.joined outcome) ∧
        JoinState.join_result cudf.concatenate over_decom_factor
          (state.batch_join_results component.1) outcome = some result ∧
        next = { state with
          calling := Function.update state.calling component.1
            { state.calling component.1 with
              process := goes_on component.1 result >>= fun value =>
                Process.pure (.ended value) } }) ∨
      ∃ results, inner_join_func cudf.inner_join left_on right_on over_decom_factor
          (state.calling component.1).log (state.batch_join_results component.1) =
            some results ∧
        next = { state with
          batch_join_results :=
            Function.update state.batch_join_results component.1 results } := by
  obtain ⟨rank, thread⟩ := component
  cases thread with
  | calling =>
      unfold step at taken
      cases process : (state.calling rank).process with
      | pure stage =>
          cases stage with
          | joined outcome =>
              simp only [process] at taken
              obtain ⟨result, joined, rfl⟩ := Option.map_eq_some_iff.mp taken
              exact .inr (.inl ⟨outcome, result, rfl, joined, rfl⟩)
          | ended value =>
              simp only [process] at taken
              obtain ⟨calling, moved, rfl⟩ := Option.map_eq_some_iff.mp taken
              rw [Configuration.step, Configuration.advance, process] at moved
              contradiction
      | fail | note | send | post | waitall =>
          simp only [process] at taken
          obtain ⟨calling, moved, rfl⟩ := Option.map_eq_some_iff.mp taken
          refine .inl ⟨calling, fun stage process => ?_, moved, rfl⟩
          contradiction
  | inner_join =>
      obtain ⟨results, joined, rfl⟩ := Option.map_eq_some_iff.mp taken
      exact .inr (.inr ⟨results, joined, rfl⟩)

end Steps

end ProgramState

/-- A batch is joined as soon as its flag is set, with the tables of the batch. -/
theorem joined_batch
    {inner_join : InnerJoin}
    {left_on right_on : List Nat}
    {over_decom_factor joined count : Nat}
    {batches : Side → Nat → Table}
    {seen : List (Event ranks)}
    (inside : seen.filter announces <+: announcements batches count)
    {results : List Table}
    (taken : inner_join_func inner_join left_on right_on over_decom_factor seen
      ((List.range joined).map
        (JoinState.batch_join_result inner_join left_on right_on batches)) = some results) :
    joined < over_decom_factor ∧
      results = (List.range (joined + 1)).map
        (JoinState.batch_join_result inner_join left_on right_on batches) := by
  simp only [inner_join_func, List.length_map, List.length_range] at taken
  split at taken
  · rename_i ready
    have flagged : flag_is_set joined (seen.filter announces) = true :=
      (flag_is_set_filter joined seen).trans ready.2
    obtain ⟨_, found⟩ := announced_of_flag inside flagged
    have tables : ∀ side, communicated_table_of side joined seen = batches side joined :=
      fun side => (communicated_table_of_filter side joined seen).symm.trans (found side)
    rw [tables, tables] at taken
    refine ⟨ready.1, ?_⟩
    rw [← Option.some.inj taken, List.range_succ, List.map_append]
    rfl
  · contradiction

section Inlining

variable {β : Type} (cudf : Cudf) (n : Nat) (eager : Eagerness ranks) (left_on right_on : List Nat)
  (over_decom_factor : Nat) (program : Nat → Process ranks (Option Table))
  (goes_on : Nat → Except String Table → Process ranks β) (batches : Nat → Side → Nat → Table)

/-- The results of all batches of a rank. -/
def all_batch_join_results (rank : Nat) : List Table :=
  (List.range over_decom_factor).map
    (JoinState.batch_join_result cudf.inner_join left_on right_on (batches rank))

/-- What the join returns on a rank. -/
def joined_result (rank : Nat) : Option Table → Except String Table
  | some table => .ok table
  | none => cudf.concatenate
      (all_batch_join_results cudf left_on right_on over_decom_factor batches rank)

/-- How a thread that knows the tables of all batches goes on. -/
def inlined (rank : Nat) : Stage β → Process ranks β
  | .joined outcome =>
      goes_on rank (joined_result cudf left_on right_on over_decom_factor batches rank outcome)
  | .ended value => Process.pure value

/-- A program that settles if the tables of all batches are known in advance, and that announces
these tables. -/
structure Inlined
    (count : Nat → Nat)
    (value : Nat → β)
    (log : Nat → List (Event ranks)) : Prop where
  settles : Settles n eager
    (fun rank => program rank >>= fun outcome =>
      goes_on rank (joined_result cudf left_on right_on over_decom_factor batches rank outcome))
    (fun rank => Process.pure (value rank)) log
  announced : ∀ rank, rank < n →
    (log rank).filter announces = announcements (batches rank) (count rank)
  /-- If the calling thread waits for the other one, it has announced all batches. -/
  complete : ∀ rank, rank < n → (program rank).Ensures (fun _ => True) fun outcome =>
    outcome = none → count rank = over_decom_factor
  /-- What follows the join announces nothing. -/
  silent : ∀ rank result, (goes_on rank result).Ensures
    (fun note => announces (.noted note) = false) fun _ => True

end Inlining

namespace ProgramState

/-- If the calling thread waits for the other one, it has announced all batches. -/
def Complete {β : Type} (over_decom_factor count : Nat) : Stage β → Prop
  | .joined outcome => outcome = none → count = over_decom_factor
  | .ended _ => True

/-- What holds in all states of a program. -/
structure Consistent
    {β : Type}
    (cudf : Cudf)
    (n : Nat)
    (eager : Eagerness ranks)
    (left_on right_on : List Nat)
    (over_decom_factor : Nat)
    (program : Nat → Process ranks (Option Table))
    (goes_on : Nat → Except String Table → Process ranks β)
    (batches : Nat → Side → Nat → Table)
    (count : Nat → Nat)
    (state : ProgramState β) : Prop where
  inlined : Reaches (Configuration.step n eager)
    (.start fun rank => program rank >>= fun outcome =>
      goes_on rank (joined_result cudf left_on right_on over_decom_factor batches rank outcome))
    (state.calling.resume (inlined cudf left_on right_on over_decom_factor goes_on batches))
  results : ∀ rank, rank < n → ∃ joined, joined ≤ over_decom_factor ∧
    state.batch_join_results rank = (List.range joined).map
      (JoinState.batch_join_result cudf.inner_join left_on right_on (batches rank))
  complete : ∀ rank, rank < n → (state.calling rank).process.Ensures (fun _ => True)
    (Complete over_decom_factor (count rank))

end ProgramState

namespace Inlined

open ProgramState

variable {β : Type} {cudf : Cudf} {n : Nat} {eager : Eagerness ranks} {left_on right_on : List Nat}
  {over_decom_factor : Nat} {program : Nat → Process ranks (Option Table)}
  {goes_on : Nat → Except String Table → Process ranks β} {batches : Nat → Side → Nat → Table}
  {count : Nat → Nat} {value : Nat → β} {log : Nat → List (Event ranks)}
  {state next : ProgramState β}
  (inlines : Inlined cudf n eager left_on right_on over_decom_factor program goes_on batches count
    value log)
include inlines

/-- Initially the calling threads are at the beginning of their programs. -/
theorem consistent_start :
    Consistent cudf n eager left_on right_on over_decom_factor program goes_on batches count
      (ProgramState.start program) where
  inlined := by
    have same : (ProgramState.start program : ProgramState β).calling.resume
        (inlined cudf left_on right_on over_decom_factor goes_on batches) =
          .start fun rank => program rank >>= fun outcome => goes_on rank
            (joined_result cudf left_on right_on over_decom_factor batches rank outcome) := by
      funext rank
      simp only [Configuration.resume, Endpoint.resume, ProgramState.start, Configuration.start,
        Process.bind_bind]
      rfl
    rw [same]
    exact .refl _
  results := fun _ _ => ⟨0, Nat.zero_le _, rfl⟩
  complete := fun rank rankBound => (inlines.complete rank rankBound).bind fun _ complete => complete

omit inlines in
/-- The result of a join is the one that is known in advance. -/
theorem result_eq
    (consistent : Consistent cudf n eager left_on right_on over_decom_factor program goes_on
      batches count state)
    {rank : Nat}
    (rankBound : rank < n)
    {outcome : Option Table}
    {result : Except String Table}
    (joined : JoinState.join_result cudf.concatenate over_decom_factor
      (state.batch_join_results rank) outcome = some result) :
    result = joined_result cudf left_on right_on over_decom_factor batches rank outcome := by
  cases outcome with
  | some table => exact (Option.some.inj joined).symm
  | none =>
      obtain ⟨done, _, results⟩ := consistent.results rank rankBound
      simp only [JoinState.join_result] at joined
      split at joined
      · rename_i all
        rw [results, List.length_map, List.length_range] at all
        rw [← Option.some.inj joined, results, all]
        rfl
      · contradiction

omit inlines in
/-- To return from the join is no step for a thread that knows the tables of all batches. -/
theorem resume_returned
    {rank : Nat}
    {outcome : Option Table}
    (process : (state.calling rank).process = .pure (.joined outcome)) :
    Configuration.resume
        (Function.update state.calling rank
          { state.calling rank with
            process := goes_on rank (joined_result cudf left_on right_on over_decom_factor batches
              rank outcome) >>= fun value => Process.pure (.ended value) })
        (inlined cudf left_on right_on over_decom_factor goes_on batches) =
      state.calling.resume (inlined cudf left_on right_on over_decom_factor goes_on batches) := by
  rw [Configuration.resume_update, Function.update_eq_self_iff]
  simp only [Endpoint.resume, Configuration.resume, process, Process.bind_bind, Process.pure_bind]
  rw [show (fun value => inlined cudf left_on right_on over_decom_factor goes_on batches rank
    (.ended value)) = Process.pure from rfl, Process.bind_pure_self]
  rfl

/-- What a rank has announced so far are the first tables of the batches. -/
theorem announced_prefix
    (consistent : Consistent cudf n eager left_on right_on over_decom_factor program goes_on
      batches count state)
    {rank : Nat}
    (rankBound : rank < n) :
    (state.calling rank).log.filter announces <+: announcements (batches rank) (count rank) := by
  rw [← inlines.announced rank rankBound]
  exact (inlines.settles.log_grows consistent.inlined rankBound).filter announces

/-- A step keeps what holds in all states. -/
theorem consistent_step
    (consistent : Consistent cudf n eager left_on right_on over_decom_factor program goes_on
      batches count state)
    {component : Fin n × Thread}
    (taken : step cudf n eager left_on right_on over_decom_factor goes_on component state =
      some next) :
    Consistent cudf n eager left_on right_on over_decom_factor program goes_on batches count
      next := by
  obtain ⟨calling, unreturned, moved, rfl⟩ | ⟨outcome, result, process, joined, rfl⟩ |
      ⟨results, joined, rfl⟩ := step_cases taken
  · have resumed : Configuration.step n eager component.1
        (state.calling.resume
          (inlined cudf left_on right_on over_decom_factor goes_on batches)) =
          some (calling.resume
            (inlined cudf left_on right_on over_decom_factor goes_on batches)) := by
      rw [Configuration.step_resume unreturned, moved]
      rfl
    exact ⟨consistent.inlined.trans (.single resumed), consistent.results,
      fun rank rankBound => (Configuration.ensures_of_reaches (.single moved)
        (consistent.complete rank rankBound)).1⟩
  · obtain rfl := result_eq consistent component.1.isLt joined
    refine ⟨?_, consistent.results, fun rank rankBound => ?_⟩
    · rw [resume_returned process]
      exact consistent.inlined
    · by_cases same : rank = component.1
      · subst same
        dsimp only
        rw [Function.update_self]
        exact (Process.ensures_true _).bind fun _ _ => trivial
      · dsimp only
        rw [Function.update_of_ne same]
        exact consistent.complete rank rankBound
  · obtain ⟨done, bound, before⟩ := consistent.results _ component.1.isLt
    rw [before] at joined
    obtain ⟨more, after⟩ :=
      joined_batch (inlines.announced_prefix consistent component.1.isLt) joined
    refine ⟨consistent.inlined, fun rank rankBound => ?_, consistent.complete⟩
    by_cases same : rank = component.1
    · subst same
      exact ⟨done + 1, more, (Function.update_self _ _ _).trans after⟩
    · obtain ⟨others, othersBound, othersResults⟩ := consistent.results rank rankBound
      exact ⟨others, othersBound, (Function.update_of_ne same _ _).trans othersResults⟩

/-- All states of a program are consistent. -/
theorem consistent
    (reached : Reaches (step cudf n eager left_on right_on over_decom_factor goes_on)
      (ProgramState.start program) state) :
    Consistent cudf n eager left_on right_on over_decom_factor program goes_on batches count
      state :=
  reached.invariant inlines.consistent_start fun _ _ _ consistent taken =>
    inlines.consistent_step consistent taken

/-- When a calling thread begins to wait for the other one, the flags of all batches are set. -/
theorem flag_is_set_of_joined
    (consistent : Consistent cudf n eager left_on right_on over_decom_factor program goes_on
      batches count state)
    {rank ibatch : Nat}
    (rankBound : rank < n)
    (process : (state.calling rank).process = .pure (.joined none))
    (ibatchBound : ibatch < over_decom_factor) :
    flag_is_set ibatch (state.calling rank).log = true := by
  have complete := consistent.complete rank rankBound
  rw [process] at complete
  obtain ⟨finish, further, finished⟩ := inlines.settles.reaches_final consistent.inlined
  -- what follows the join announces nothing
  have silent := inlines.silent rank
    (joined_result cudf left_on right_on over_decom_factor batches rank none)
  have resumed : (state.calling.resume
      (inlined cudf left_on right_on over_decom_factor goes_on batches) rank).process =
        goes_on rank
          (joined_result cudf left_on right_on over_decom_factor batches rank none) := by
    simp only [Configuration.resume, Endpoint.resume, process]
    rfl
  obtain ⟨_, events, log_eq, quiet⟩ :=
    Configuration.ensures_of_reaches further (resumed ▸ silent)
  have nothing : events.filter announces = [] := by
    refine List.filter_eq_nil_iff.mpr fun event member => ?_
    have allowed := quiet event member
    cases event with
    | noted note => exact Bool.eq_false_iff.mp allowed
    | sent | posted | waited => exact Bool.false_ne_true
  have announced := inlines.announced rank rankBound
  rw [← (finished rank rankBound).2, log_eq, List.filter_append, nothing, List.append_nil,
    complete rfl] at announced
  have flagged := flag_is_set_filter ibatch (state.calling rank).log
  rw [← flagged]
  exact (congrArg (flag_is_set ibatch) announced).trans (flag_is_set_announcements.mpr ibatchBound)

/-- A rank whose calling thread waits for the other one can join all batches. -/
theorem reaches_joined
    (rank : Fin n)
    (missing : Nat)
    (reached : Reaches (step cudf n eager left_on right_on over_decom_factor goes_on)
      (ProgramState.start program) state)
    (process : (state.calling rank).process = .pure (.joined none))
    (length : (state.batch_join_results rank).length + missing = over_decom_factor) :
    ∃ finish, Reaches (step cudf n eager left_on right_on over_decom_factor goes_on) state finish ∧
      finish.calling = state.calling ∧
        (finish.batch_join_results rank).length = over_decom_factor := by
  induction missing generalizing state with
  | zero => exact ⟨state, .refl _, rfl, length⟩
  | succ missing inductionHypothesis =>
      have bound : (state.batch_join_results rank).length < over_decom_factor := by omega
      have flagged := inlines.flag_is_set_of_joined (inlines.consistent reached) rank.isLt process
        bound
      have joined : inner_join_func cudf.inner_join left_on right_on over_decom_factor
          (state.calling rank).log (state.batch_join_results rank) = some _ :=
        if_pos ⟨bound, flagged⟩
      have taken : step cudf n eager left_on right_on over_decom_factor goes_on
          (rank, .inner_join) state = some _ := Option.map_eq_some_iff.mpr ⟨_, joined, rfl⟩
      obtain ⟨finish, further, calling, full⟩ :=
        inductionHypothesis (reached.trans (.single taken)) process (by
          change (Function.update state.batch_join_results rank _ rank).length + missing = _
          rw [Function.update_self, List.length_append, List.length_singleton]
          omega)
      exact ⟨finish, (Reaches.single taken).trans further, calling, full⟩

/-- A rank whose calling thread has come to the end of the communication can return from the
join. -/
theorem reaches_goes_on
    (rank : Fin n)
    (reached : Reaches (step cudf n eager left_on right_on over_decom_factor goes_on)
      (ProgramState.start program) state)
    {outcome : Option Table}
    (process : (state.calling rank).process = .pure (.joined outcome)) :
    ∃ finish, Reaches (step cudf n eager left_on right_on over_decom_factor goes_on) state finish ∧
      finish.calling = Function.update state.calling rank
        { state.calling rank with
          process := goes_on rank (joined_result cudf left_on right_on over_decom_factor batches
            rank outcome) >>= fun value => Process.pure (.ended value) } := by
  have ready : ∃ middle result,
      Reaches (step cudf n eager left_on right_on over_decom_factor goes_on) state middle ∧
        middle.calling = state.calling ∧
          JoinState.join_result cudf.concatenate over_decom_factor
            (middle.batch_join_results rank) outcome = some result := by
    cases outcome with
    | some table => exact ⟨state, .ok table, .refl _, rfl, rfl⟩
    | none =>
        obtain ⟨done, bound, results⟩ := (inlines.consistent reached).results rank rank.isLt
        obtain ⟨middle, further, calling, full⟩ :=
          inlines.reaches_joined rank (over_decom_factor - done) reached process (by
            rw [results, List.length_map, List.length_range]
            omega)
        exact ⟨middle, _, further, calling, if_pos full⟩
  obtain ⟨middle, result, further, calling, joined⟩ := ready
  obtain rfl := result_eq (inlines.consistent (reached.trans further)) rank.isLt joined
  have same : (middle.calling rank).process = .pure (.joined outcome) := by
    rw [calling]
    exact process
  exact ⟨_, further.trans (.single (step_returns same joined)), by rw [calling]⟩

/-- A rank can go on until it is not between the join and what follows it. -/
theorem reaches_onward
    (rank : Fin n)
    (reached : Reaches (step cudf n eager left_on right_on over_decom_factor goes_on)
      (ProgramState.start program) state) :
    ∃ finish, Reaches (step cudf n eager left_on right_on over_decom_factor goes_on) state finish ∧
      finish.calling.resume (inlined cudf left_on right_on over_decom_factor goes_on batches) =
        state.calling.resume (inlined cudf left_on right_on over_decom_factor goes_on batches) ∧
      (∀ outcome, (finish.calling rank).process ≠ .pure (.joined outcome)) ∧
        ∀ other : Nat, other ≠ rank → finish.calling other = state.calling other := by
  by_cases onward : ∀ outcome, (state.calling rank).process ≠ .pure (.joined outcome)
  · exact ⟨state, .refl _, rfl, onward, fun _ _ => rfl⟩
  · push Not at onward
    obtain ⟨outcome, process⟩ := onward
    obtain ⟨finish, further, calling⟩ := inlines.reaches_goes_on rank reached process
    refine ⟨finish, further, ?_, fun other => ?_, fun other different => ?_⟩
    · rw [calling]
      exact resume_returned process
    · rw [calling, Function.update_self]
      dsimp only
      cases goes_on rank (joined_result cudf left_on right_on over_decom_factor batches rank
        outcome) with
      | pure | fail | note | send | post | waitall => exact nofun
    · rw [calling, Function.update_of_ne different]

/-- What a thread that knows the tables of all batches can do the two threads can do. -/
theorem reaches_inlined
    {length : Nat}
    {configuration target : Configuration ranks β}
    (run : Run (Configuration.step n eager) length configuration target)
    (reached : Reaches (step cudf n eager left_on right_on over_decom_factor goes_on)
      (ProgramState.start program) state)
    (same : state.calling.resume
      (inlined cudf left_on right_on over_decom_factor goes_on batches) = configuration) :
    ∃ finish, Reaches (step cudf n eager left_on right_on over_decom_factor goes_on) state finish ∧
      finish.calling.resume (inlined cudf left_on right_on over_decom_factor goes_on batches) =
        target := by
  induction run generalizing state with
  | refl configuration => exact ⟨state, .refl _, same⟩
  | @head length rank configuration after target taken _ inductionHypothesis =>
      obtain ⟨middle, returns, kept, onward, _⟩ := inlines.reaches_onward rank reached
      rw [← same, ← kept] at taken
      have unreturned : ∀ stage, (middle.calling rank).process ≠ .pure stage := by
        intro stage process
        cases stage with
        | joined outcome => exact onward outcome process
        | ended value =>
            have ended : (middle.calling.resume (inlined cudf left_on right_on over_decom_factor
                goes_on batches) rank).process.Ended := by
              simp only [Configuration.resume, Endpoint.resume, process]
              trivial
            rw [Configuration.step, Configuration.advance_of_ended ended] at taken
            contradiction
      rw [Configuration.step_resume unreturned] at taken
      obtain ⟨calling, moved, resumed⟩ := Option.map_eq_some_iff.mp taken
      have further := returns.trans (.single (step_calling unreturned moved))
      obtain ⟨finish, more, final⟩ := inductionHypothesis (reached.trans further) resumed
      exact ⟨finish, further.trans more, final⟩

/-- From every state of a program, all ranks can end. -/
theorem reaches_ended
    (reached : Reaches (step cudf n eager left_on right_on over_decom_factor goes_on)
      (ProgramState.start program) state) :
    ∃ finish, Reaches (step cudf n eager left_on right_on over_decom_factor goes_on) state finish ∧
      ∀ rank, rank < n → (finish.calling rank).process = .pure (.ended (value rank)) := by
  obtain ⟨target, ⟨_, run⟩, ended⟩ :=
    inlines.settles.reaches_final (inlines.consistent reached).inlined
  obtain ⟨last, reachesLast, resumed⟩ := inlines.reaches_inlined run reached rfl
  suffices onward : ∀ bound, bound ≤ n → ∃ finish,
      Reaches (step cudf n eager left_on right_on over_decom_factor goes_on) last finish ∧
        finish.calling.resume (inlined cudf left_on right_on over_decom_factor goes_on batches) =
          target ∧
        ∀ rank, rank < bound → ∀ outcome,
          (finish.calling rank).process ≠ .pure (.joined outcome) by
    obtain ⟨finish, further, final, all⟩ := onward n (Nat.le_refl n)
    refine ⟨finish, reachesLast.trans further, fun rank rankBound => ?_⟩
    have process := (ended rank rankBound).1
    have unjoined := all rank rankBound
    rw [← final] at process
    simp only [Configuration.resume, Endpoint.resume] at process
    cases found : (finish.calling rank).process with
    | pure stage =>
        cases stage with
        | joined outcome => exact absurd found (unjoined outcome)
        | ended other =>
            rw [found] at process
            rw [Process.pure.inj process]
    | fail | note | send | post | waitall =>
        rw [found] at process
        contradiction
  intro bound
  induction bound with
  | zero => exact fun _ => ⟨last, .refl _, resumed, fun _ none => absurd none (Nat.not_lt_zero _)⟩
  | succ bound inductionHypothesis =>
      intro within
      obtain ⟨middle, further, final, before⟩ := inductionHypothesis (Nat.le_of_succ_le within)
      obtain ⟨finish, returns, kept, here, others⟩ := inlines.reaches_onward ⟨bound, within⟩
        ((reached.trans reachesLast).trans further)
      refine ⟨finish, further.trans returns, kept.trans final, fun rank rankBound => ?_⟩
      rcases Nat.lt_succ_iff_lt_or_eq.mp rankBound with earlier | rfl
      · rw [others rank (Nat.ne_of_lt earlier)]
        exact before rank earlier
      · exact here

/-- A rank that has ended has ended with its value. -/
theorem ended_eq
    (reached : Reaches (step cudf n eager left_on right_on over_decom_factor goes_on)
      (ProgramState.start program) state)
    {rank : Nat}
    (rankBound : rank < n)
    {other : β}
    (process : (state.calling rank).process = .pure (.ended other)) :
    other = value rank := by
  have resumed : (state.calling.resume
      (inlined cudf left_on right_on over_decom_factor goes_on batches) rank).process =
        .pure other := by
    simp only [Configuration.resume, Endpoint.resume, process]
    rfl
  have returned :=
    inlines.settles.returned_eq (inlines.consistent reached).inlined rankBound resumed
  exact (Process.pure.inj returned).symm

/-- No rank fails. -/
theorem not_failed
    (reached : Reaches (step cudf n eager left_on right_on over_decom_factor goes_on)
      (ProgramState.start program) state)
    {rank : Nat}
    (rankBound : rank < n)
    (reason : String) :
    (state.calling rank).process ≠ .fail reason := by
  intro process
  have resumed : (state.calling.resume
      (inlined cudf left_on right_on over_decom_factor goes_on batches) rank).process =
        .fail reason := by
    simp only [Configuration.resume, Endpoint.resume, process]
    rfl
  have final := (inlines.settles.ended_eq (inlines.consistent reached).inlined rankBound (by
    rw [resumed]
    trivial)).1
  rw [resumed] at final
  contradiction

end Inlined

end DistributedJoin
