import DistributedJoin.Join.DistributedInnerJoin

/-!
# The threads of the distributed join

The thread that joins the batches only reads tables that have been received, so its
results do not depend on how the threads are interleaved, and every call can return.
-/

namespace DistributedJoin

open Device Spmd

/-- Whether an event is one that the joining thread looks for. -/
def announces : Event ranks → Bool
  | .noted (.communicated _ _ _) => true
  | .noted (.flag _) => true
  | _ => false

/-- What the calling thread announces to the joining thread: the tables of every batch, and
then its flag. -/
def announcements (batches : Side → Nat → Table) (count : Nat) : List (Event ranks) :=
  (List.range count).flatMap fun ibatch =>
    [.noted (.communicated .left ibatch (batches .left ibatch)),
      .noted (.communicated .right ibatch (batches .right ibatch)),
      .noted (.flag ibatch)]

/-- The table of a batch that an event announces. -/
def announced_table (side : Side) (ibatch : Nat) : Event ranks → Option Table
  | .noted (.communicated announced_side announced_ibatch table) =>
      if announced_side = side ∧ announced_ibatch = ibatch then some table else none
  | _ => none

/-- Elements for which nothing is found can be left out. -/
theorem findSome?_filter
    {α β : Type}
    {kept : α → Bool}
    {find : α → Option β}
    (nothing : ∀ value, kept value = false → find value = none)
    (values : List α) :
    (values.filter kept).findSome? find = values.findSome? find := by
  induction values with
  | nil => rfl
  | cons value rest inductionHypothesis =>
      cases found : kept value with
      | true =>
          rw [List.filter_cons_of_pos found, List.findSome?_cons, List.findSome?_cons,
            inductionHypothesis]
      | false =>
          rw [List.filter_cons_of_neg (by simp [found]), List.findSome?_cons,
            nothing value found, inductionHypothesis]

section Announcements

variable {batches : Side → Nat → Table} {count ibatch : Nat}

theorem communicated_table_of_eq (side : Side) (ibatch : Nat) (log : List (Event ranks)) :
    communicated_table_of side ibatch log =
      (log.findSome? (announced_table side ibatch)).getD [] :=
  rfl

/-- The joining thread finds the same table in the announcements alone. -/
theorem communicated_table_of_filter (side : Side) (ibatch : Nat) (log : List (Event ranks)) :
    communicated_table_of side ibatch (log.filter announces) =
      communicated_table_of side ibatch log := by
  rw [communicated_table_of_eq, communicated_table_of_eq, findSome?_filter]
  intro event silent
  cases event with
  | noted note => cases note <;> first | rfl | contradiction
  | _ => rfl

theorem flag_is_set_filter (ibatch : Nat) (log : List (Event ranks)) :
    flag_is_set ibatch (log.filter announces) = flag_is_set ibatch log := by
  unfold flag_is_set
  rw [List.any_filter]
  congr 1
  funext event
  cases event with
  | noted note => cases note <;> rfl
  | _ => rfl

theorem announcements_succ (batches : Side → Nat → Table) (count : Nat) :
    announcements batches (count + 1) = announcements batches count ++
      [.noted (.communicated .left count (batches .left count)),
        .noted (.communicated .right count (batches .right count)),
        .noted (.flag count)] := by
  rw [announcements, List.range_succ, List.flatMap_append, List.flatMap_singleton]
  rfl

/-- The tables of all batches are announced, and no others. -/
theorem findSome?_announcements (side : Side) :
    (announcements batches count).findSome? (announced_table side ibatch) =
      if ibatch < count then some (batches side ibatch) else none := by
  induction count with
  | zero => rfl
  | succ count inductionHypothesis =>
      rw [announcements_succ, List.findSome?_append, inductionHypothesis]
      rcases Nat.lt_trichotomy ibatch count with before | rfl | after
      · rw [if_pos before, if_pos (Nat.lt_succ_of_lt before)]
        rfl
      · rw [if_neg (Nat.lt_irrefl ibatch), if_pos (Nat.lt_succ_self ibatch)]
        cases side <;> simp [announced_table]
      · rw [if_neg (by omega), if_neg (by omega)]
        have different : count ≠ ibatch := by omega
        simp [announced_table, different]

/-- The flags of all batches are set, and no others. -/
theorem flag_is_set_announcements :
    flag_is_set ibatch (announcements batches count) = true ↔ ibatch < count := by
  induction count with
  | zero => simp [announcements, flag_is_set]
  | succ count inductionHypothesis =>
      have last : flag_is_set ibatch (announcements batches (count + 1)) =
          (flag_is_set ibatch (announcements batches count) || decide (count = ibatch)) := by
        rw [announcements_succ, flag_is_set, List.any_append]
        simp [flag_is_set]
      rw [last, Bool.or_eq_true, inductionHypothesis, decide_eq_true_iff]
      omega

/-- Whenever the flag of a batch is set, both of its tables have been announced. -/
theorem announced_of_flag
    {seen : List (Event ranks)}
    (inside : seen <+: announcements batches count)
    (flagged : flag_is_set ibatch seen = true) :
    ibatch < count ∧ ∀ side, communicated_table_of side ibatch seen = batches side ibatch := by
  induction count with
  | zero =>
      rw [List.prefix_nil.mp inside] at flagged
      contradiction
  | succ count inductionHypothesis =>
      rw [announcements_succ] at inside
      rcases List.prefix_or_prefix_of_prefix inside (List.prefix_append _ _) with
        earlier | ⟨rest, rfl⟩
      · obtain ⟨bound, found⟩ := inductionHypothesis earlier
        exact ⟨Nat.lt_succ_of_lt bound, found⟩
      · have tail := (List.prefix_append_right_inj _).mp inside
        rw [flag_is_set, List.any_append, Bool.or_eq_true] at flagged
        rcases flagged with before | here
        · have bound := flag_is_set_announcements.mp before
          refine ⟨Nat.lt_succ_of_lt bound, fun side => ?_⟩
          rw [communicated_table_of_eq, List.findSome?_append, findSome?_announcements,
            if_pos bound]
          rfl
        · -- the flag is the last of the three announcements of its batch
          obtain ⟨rfl, complete⟩ : ibatch = count ∧ rest =
              [.noted (.communicated .left count (batches .left count)),
                .noted (.communicated .right count (batches .right count)),
                .noted (.flag count)] := by
            obtain rfl | ⟨_, rfl, afterLeft⟩ := List.prefix_cons_iff.mp tail
            · contradiction
            obtain rfl | ⟨_, rfl, afterRight⟩ := List.prefix_cons_iff.mp afterLeft
            · contradiction
            obtain rfl | ⟨_, rfl, afterFlag⟩ := List.prefix_cons_iff.mp afterRight
            · contradiction
            obtain rfl := List.prefix_nil.mp afterFlag
            simp only [List.any_cons, List.any_nil, Bool.false_or, Bool.or_false,
              decide_eq_true_eq] at here
            exact ⟨here.symm, rfl⟩
          refine ⟨Nat.lt_succ_self ibatch, fun side => ?_⟩
          rw [communicated_table_of_eq, List.findSome?_append, findSome?_announcements,
            if_neg (Nat.lt_irrefl ibatch), complete]
          cases side <;> simp [announced_table]

end Announcements

namespace JoinState

section Steps

variable {cudf : Cudf} {n : Nat} {eager : Eagerness ranks} {left_on right_on : List Nat}
  {over_decom_factor : Nat}

/-- A step of a calling thread that has not ended. -/
theorem step_calling
    {state : JoinState}
    {rank : Fin n}
    {calling : Configuration ranks (Option Table)}
    (taken : Configuration.step n eager rank state.calling = some calling) :
    step cudf n eager left_on right_on over_decom_factor (rank, .calling) state =
      some { state with calling := calling } := by
  unfold step
  cases process : (state.calling rank).process with
  | pure outcome =>
      have ended : (state.calling rank).process.Ended := by
        rw [process]
        trivial
      rw [Configuration.step, Configuration.advance_of_ended ended] at taken
      contradiction
  | fail reason => simp only [process, taken, Option.map_some]
  | note observation next => simp only [process, taken, Option.map_some]
  | send channel dest message next => simp only [process, taken, Option.map_some]
  | post channel source request next => simp only [process, taken, Option.map_some]
  | waitall channel next => simp only [process, taken, Option.map_some]

/-- What a step can do: a calling thread goes on, a call returns, or a batch is joined. -/
theorem step_cases
    {state next : JoinState}
    {component : Fin n × Thread}
    (taken : step cudf n eager left_on right_on over_decom_factor component state = some next) :
    (∃ calling, Configuration.step n eager component.1 state.calling = some calling ∧
        next = { state with calling := calling }) ∨
      (∃ outcome result, (state.calling component.1).process = .pure outcome ∧
        state.returned component.1 = none ∧
        join_result cudf.concatenate over_decom_factor
          (state.batch_join_results component.1) outcome = some result ∧
        next = { state with
          returned := Function.update state.returned component.1 (some result) }) ∨
      ∃ results, inner_join_func cudf.inner_join left_on right_on over_decom_factor
          (state.calling component.1).log (state.batch_join_results component.1) =
            some results ∧
        next = { state with
          batch_join_results :=
            Function.update state.batch_join_results component.1 results } := by
  obtain ⟨rank, thread⟩ := component
  cases thread with
  | calling =>
      unfold step at taken
      cases process : (state.calling rank).process with
      | pure outcome =>
          simp only [process] at taken
          split at taken
          · rename_i unreturned
            obtain ⟨result, joined, rfl⟩ := Option.map_eq_some_iff.mp taken
            exact .inr (.inl ⟨outcome, result, rfl, unreturned, joined, rfl⟩)
          · contradiction
      | fail reason =>
          simp only [process] at taken
          obtain ⟨calling, moved, rfl⟩ := Option.map_eq_some_iff.mp taken
          exact .inl ⟨calling, moved, rfl⟩
      | note observation rest =>
          simp only [process] at taken
          obtain ⟨calling, moved, rfl⟩ := Option.map_eq_some_iff.mp taken
          exact .inl ⟨calling, moved, rfl⟩
      | send channel dest message rest =>
          simp only [process] at taken
          obtain ⟨calling, moved, rfl⟩ := Option.map_eq_some_iff.mp taken
          exact .inl ⟨calling, moved, rfl⟩
      | post channel source request rest =>
          simp only [process] at taken
          obtain ⟨calling, moved, rfl⟩ := Option.map_eq_some_iff.mp taken
          exact .inl ⟨calling, moved, rfl⟩
      | waitall channel rest =>
          simp only [process] at taken
          obtain ⟨calling, moved, rfl⟩ := Option.map_eq_some_iff.mp taken
          exact .inl ⟨calling, moved, rfl⟩
  | inner_join =>
      obtain ⟨results, joined, rfl⟩ := Option.map_eq_some_iff.mp taken
      exact .inr (.inr ⟨results, joined, rfl⟩)

/-- What the calls have returned or thrown is made of the results of their batches. -/
def Delivers (concatenate : Concatenate) (over_decom_factor : Nat) (state : JoinState) : Prop :=
  ∀ rank result, state.returned rank = some result →
    ∃ outcome, (state.calling rank).process = .pure outcome ∧
      join_result concatenate over_decom_factor (state.batch_join_results rank) outcome =
        some result

theorem Delivers.step
    {state next : JoinState}
    (delivers : state.Delivers cudf.concatenate over_decom_factor)
    {component : Fin n × Thread}
    (taken : step cudf n eager left_on right_on over_decom_factor component state = some next) :
    next.Delivers cudf.concatenate over_decom_factor := by
  intro rank result returned
  obtain ⟨calling, moved, rfl⟩ | ⟨outcome, here, process, _, joined, rfl⟩ |
      ⟨results, joined, rfl⟩ := step_cases taken
  · obtain ⟨outcome, process, joined⟩ := delivers rank result returned
    have ended : (state.calling rank).process.Ended := by
      rw [process]
      trivial
    have unchanged := Configuration.unchanged_of_ended (.single moved) ended
    exact ⟨outcome, (congrArg (·.process) unchanged).trans process, joined⟩
  · by_cases same : rank = component.1
    · subst same
      have same_result : some here = some result :=
        (Function.update_self (component.1 : Nat) (some here) state.returned).symm.trans returned
      exact ⟨outcome, process, joined.trans same_result⟩
    · exact delivers rank result ((Function.update_of_ne same _ _).symm.trans returned)
  · obtain ⟨outcome, process, before⟩ := delivers rank result returned
    refine ⟨outcome, process, ?_⟩
    by_cases same : rank = component.1
    · subst same
      cases outcome with
      | some table => exact before
      | none =>
          -- a rank that has returned has joined all its batches
          simp only [join_result, inner_join_func] at before joined
          split at before
          · rename_i all
            rw [all, if_neg fun more => absurd more.1 (lt_irrefl _)] at joined
            contradiction
          · contradiction
    · change join_result cudf.concatenate over_decom_factor
        (Function.update state.batch_join_results component.1 results rank) outcome = some result
      rw [Function.update_of_ne same]
      exact before

theorem delivers_of_reaches
    {program : Nat → Process ranks (Option Table)}
    {state : JoinState}
    (reached : Reaches (step cudf n eager left_on right_on over_decom_factor) (start program)
      state) :
    state.Delivers cudf.concatenate over_decom_factor :=
  reached.invariant (fun _ _ none => by contradiction) fun _ _ _ delivers taken =>
    delivers.step taken

/-- The calling threads do not notice the other threads. -/
theorem calling_reaches
    {start finish : JoinState}
    (reached : Reaches (step cudf n eager left_on right_on over_decom_factor) start finish) :
    Reaches (Configuration.step n eager) start.calling finish.calling := by
  refine Reaches.lift
    (fun earlier later : JoinState =>
      Reaches (Configuration.step n eager) earlier.calling later.calling)
    (fun _ => .refl _) (fun _ _ _ => .trans) ?_ reached
  intro component earlier later taken
  obtain ⟨calling, moved, rfl⟩ | ⟨_, _, _, _, _, rfl⟩ | ⟨_, _, rfl⟩ := step_cases taken
  · exact .single moved
  · exact .refl _
  · exact .refl _

/-- Whatever the calling threads can do they can do among the other threads. -/
theorem reaches_of_calling
    {start finish : Configuration ranks (Option Table)}
    (reached : Reaches (Configuration.step n eager) start finish)
    (state : JoinState)
    (atStart : state.calling = start) :
    Reaches (step cudf n eager left_on right_on over_decom_factor) state
      { state with calling := finish } := by
  obtain ⟨length, run⟩ := reached
  induction run generalizing state with
  | refl configuration =>
      subst atStart
      exact .refl state
  | @head length rank start next finish taken rest inductionHypothesis =>
      subst atStart
      exact (Reaches.single (step_calling taken)).trans
        (inductionHypothesis { state with calling := next } rfl)

/-- The calls do what other calls do, apart from the calling threads that have stopped. -/
structure Interrupts (n : Nat) (state whole : JoinState) : Prop where
  calling : state.calling.Interrupts n whole.calling
  batch_join_results : state.batch_join_results = whole.batch_join_results
  returned : state.returned = whole.returned

/-- A step of any thread is one of the other calls, too. -/
theorem Interrupts.step
    {state whole next : JoinState}
    (interrupts : state.Interrupts n whole)
    {component : Fin n × Thread}
    (taken : step cudf n eager left_on right_on over_decom_factor component state = some next) :
    ∃ other, JoinState.step cudf n eager left_on right_on over_decom_factor component whole =
      some other ∧ next.Interrupts n other := by
  obtain ⟨rank, thread⟩ := component
  obtain ⟨whole_calling, results, returned⟩ := whole
  obtain ⟨calling, rfl, rfl⟩ := interrupts
  cases thread with
  | calling =>
      unfold JoinState.step at taken
      dsimp only at taken
      split at taken
      · rename_i outcome ended
        have process := calling.process rank rank.isLt
        have same : (whole_calling rank).process = .pure outcome := by
          rw [ended] at process
          generalize (whole_calling rank).process = whole_process at process
          cases process with
          | pure => rfl
        split at taken
        · rename_i unreturned
          obtain ⟨result, joined, rfl⟩ := Option.map_eq_some_iff.mp taken
          refine ⟨⟨whole_calling, state.batch_join_results,
            Function.update state.returned rank (some result)⟩, ?_, calling, rfl, rfl⟩
          unfold JoinState.step
          simp only [same, unreturned, joined, if_true, Option.map_some]
        · contradiction
      · obtain ⟨moved, movedStep, rfl⟩ := Option.map_eq_some_iff.mp taken
        obtain ⟨other, otherStep, kept⟩ := calling.step movedStep
        exact ⟨_, step_calling otherStep, kept, rfl, rfl⟩
  | inner_join =>
      obtain ⟨joined, ready, rfl⟩ := Option.map_eq_some_iff.mp taken
      rw [calling.log] at ready
      exact ⟨_, Option.map_eq_some_iff.mpr ⟨joined, ready, rfl⟩, calling, rfl, rfl⟩

/-- Whatever order the threads run in, those of the other calls can run in it, too. -/
theorem Interrupts.reaches
    {state whole next : JoinState}
    (interrupts : state.Interrupts n whole)
    (reached : Reaches (JoinState.step cudf n eager left_on right_on over_decom_factor) state
      next) :
    ∃ other, Reaches (JoinState.step cudf n eager left_on right_on over_decom_factor) whole
      other ∧ next.Interrupts n other := by
  refine @Reaches.invariant _ _ _ (fun later => ∃ other,
    Reaches (JoinState.step cudf n eager left_on right_on over_decom_factor) whole other ∧
      later.Interrupts n other) _ _ reached ⟨whole, .refl whole, interrupts⟩ ?_
  rintro component later after ⟨other, otherReached, related⟩ taken
  obtain ⟨further, otherTaken, kept⟩ := related.step taken
  exact ⟨further, otherReached.trans (.single otherTaken), kept⟩

end Steps

end JoinState

end DistributedJoin
