import DistributedJoin.Spmd.Collective

/-!
# What every run of a program does

A program whose collective phases are known settles: from every state that any
schedule can reach, the ranks can still run to the one final state, no schedule
takes more steps than it, and what a rank has returned or logged on the way is
what it returns and logs there.
-/

namespace Spmd

variable {I : Interface} {α β : Type} {n : Nat} {eager : Eagerness I}

/-- The process has returned or failed. -/
def Process.Ended : Process I α → Prop
  | .pure _ => True
  | .fail _ => True
  | _ => False

/-- The initial configuration of a program. -/
def Configuration.start (program : Nat → Process I α) : Configuration I α :=
  fun rank => ⟨program rank, Port.empty, []⟩

/-- No messages are in flight initially. -/
theorem resolved_start (program : Nat → Process I α) :
    Resolved n (Configuration.start program) (Arrivals.none I) where
  balanced := fun _ _ _ _ _ => rfl
  sends_matched := fun _ _ _ _ member => by
    simp [Configuration.start, Port.empty] at member
  receives_matched := fun _ _ _ => rfl

namespace Configuration

/-- An endpoint whose process has ended has no step. -/
theorem advance_of_ended
    {configuration : Configuration I α}
    {rank : Nat}
    (ended : (configuration rank).process.Ended) :
    advance eager configuration rank = none := by
  unfold advance
  generalize (configuration rank).process = process at ended ⊢
  cases process with
  | pure value => rfl
  | fail reason => rfl
  | note observation next => exact ended.elim
  | send channel dest message next => exact ended.elim
  | post channel source request next => exact ended.elim
  | waitall channel next => exact ended.elim

/-- When all ranks have ended the system has halted. -/
theorem halted_of_ended
    {configuration : Configuration I α}
    (ended : ∀ rank, rank < n → (configuration rank).process.Ended) :
    Halted (step n eager) configuration := by
  intro rank
  rw [step, advance_of_ended (ended rank rank.isLt)]
  rfl

/-- A rank that has ended stays as it is. -/
theorem unchanged_of_ended
    {start finish : Configuration I α}
    {rank : Nat}
    (reaches : Reaches (step n eager) start finish)
    (ended : (start rank).process.Ended) :
    finish rank = start rank := by
  suffices kept : (start rank).process.Ended → finish rank = start rank from
    kept ended
  refine Reaches.lift
    (fun earlier later : Configuration I α =>
      (earlier rank).process.Ended → later rank = earlier rank)
    (fun _ _ => rfl) ?_ ?_ reaches
  · intro first second third left right firstEnded
    have equal := left firstEnded
    rw [← equal] at firstEnded
    exact (right firstEnded).trans equal
  · intro component earlier later taken earlierEnded
    obtain ⟨endpoint, moved, rfl⟩ := Option.map_eq_some_iff.mp taken
    by_cases same : rank = component
    · subst same
      rw [advance_of_ended earlierEnded] at moved
      contradiction
    · exact Function.update_of_ne same _ _

end Configuration

/-- A rank that has ended on one schedule can end on every other schedule, and only
in the same way. -/
theorem Configuration.ends_as
    {start middle state : Configuration I α}
    {rank : Nat}
    (reached : Reaches (step n eager) start middle)
    (ended : (middle rank).process.Ended)
    (other : Reaches (step n eager) start state) :
    (∃ finish, Reaches (step n eager) state finish ∧ finish rank = middle rank) ∧
      ((state rank).process.Ended → state rank = middle rank) := by
  obtain ⟨join, fromMiddle, fromState⟩ := reached.join (step_commutes n eager) other
  have same := unchanged_of_ended fromMiddle ended
  refine ⟨⟨join, fromState, same⟩, fun stateEnded => ?_⟩
  rw [← unchanged_of_ended fromState stateEnded, same]

/-- Every run of a program ends, and ends in the same way: on each rank with
the given process, which has returned or failed, and the given log. -/
structure Settles
    (n : Nat)
    (eager : Eagerness I)
    (program : Nat → Process I α)
    (final : Nat → Process I α)
    (log : Nat → List (Event I)) : Prop where
  ended : ∀ rank, rank < n → (final rank).Ended
  finishes : ∃ length finish,
    Run (Configuration.step n eager) length (Configuration.start program) finish ∧
    ∀ rank, rank < n →
      (finish rank).process = final rank ∧ (finish rank).log = log rank

namespace Settles

variable {program final : Nat → Process I α} {log : Nat → List (Event I)}

/-- A phase followed by the end of every rank settles. -/
theorem of_phase
    {operation : Nat → Process I β}
    {after : Arrivals I}
    {outcome : Outcome β}
    (phase : Phase n eager (Arrivals.none I) operation after outcome log)
    (continuation : Nat → β → Process I α)
    (ended : ∀ rank, rank < n → (outcome.resume continuation rank).Ended) :
    Settles n eager (fun rank => operation rank >>= continuation rank)
      (outcome.resume continuation) log where
  ended := ended
  finishes := by
    obtain ⟨finish, ⟨length, run⟩, _, finished⟩ :=
      phase α continuation (Configuration.start _) (resolved_start _)
        fun _ _ => rfl
    refine ⟨length, finish, run, fun rank rankBound => ?_⟩
    exact finished rank rankBound

/-- A program that returns on every rank settles. -/
theorem of_returning
    {operation : Nat → Process I α}
    {after : Arrivals I}
    {result : Nat → α}
    (phase : Phase n eager (Arrivals.none I) operation after (.ok result) log) :
    Settles n eager operation (fun rank => Process.pure (result rank)) log := by
  have settles := of_phase phase (fun _ => Process.pure) fun _ _ => trivial
  simp only [Process.bind_pure_self] at settles
  exact settles

/-- From every reachable state the final state can still be reached. -/
theorem reaches_final
    (settles : Settles n eager program final log)
    {state : Configuration I α}
    (reached : Reaches (Configuration.step n eager)
      (Configuration.start program) state) :
    ∃ finish, Reaches (Configuration.step n eager) state finish ∧
      ∀ rank, rank < n →
        (finish rank).process = final rank ∧ (finish rank).log = log rank := by
  obtain ⟨length, finish, run, finished⟩ := settles.finishes
  obtain ⟨_, partialRun⟩ := reached
  have halted : Halted (Configuration.step n eager) finish :=
    Configuration.halted_of_ended fun rank rankBound => by
      rw [(finished rank rankBound).1]
      exact settles.ended rank rankBound
  obtain ⟨rest, _, tail⟩ :=
    run.complete (Configuration.step_commutes n eager) halted partialRun
  exact ⟨finish, ⟨rest, tail⟩, finished⟩

/-- What a rank has logged is the beginning of its final log. -/
theorem log_grows
    (settles : Settles n eager program final log)
    {state : Configuration I α}
    (reached : Reaches (Configuration.step n eager)
      (Configuration.start program) state)
    {rank : Nat}
    (rankBound : rank < n) :
    (state rank).log <+: log rank := by
  obtain ⟨finish, tail, finished⟩ := settles.reaches_final reached
  rw [← (finished rank rankBound).2]
  exact Configuration.log_prefix_of_reaches tail rank

/-- A rank that has ended has ended as it does in the final state. -/
theorem ended_eq
    (settles : Settles n eager program final log)
    {state : Configuration I α}
    (reached : Reaches (Configuration.step n eager)
      (Configuration.start program) state)
    {rank : Nat}
    (rankBound : rank < n)
    (ended : (state rank).process.Ended) :
    (state rank).process = final rank ∧ (state rank).log = log rank := by
  obtain ⟨finish, tail, finished⟩ := settles.reaches_final reached
  have unchanged := Configuration.unchanged_of_ended tail ended
  rw [← unchanged]
  exact finished rank rankBound

/-- A rank that has returned has returned its final value. -/
theorem returned_eq
    (settles : Settles n eager program final log)
    {state : Configuration I α}
    (reached : Reaches (Configuration.step n eager)
      (Configuration.start program) state)
    {rank : Nat}
    (rankBound : rank < n)
    {value : α}
    (returned : (state rank).process = .pure value) :
    final rank = .pure value := by
  rw [← returned]
  refine (settles.ended_eq reached rankBound ?_).1.symm
  rw [returned]
  trivial

end Settles

/-- Whatever order the ranks run in, a rank that has returned has returned the
given result, and all ranks can still return. -/
structure Returns
    (n : Nat)
    (eager : Eagerness I)
    (program : Nat → Process I α)
    (result : Nat → α) : Prop where
  returned : ∀ state, Reaches (Configuration.step n eager) (Configuration.start program) state →
    ∀ rank, rank < n → ∀ value, (state rank).process = .pure value → value = result rank
  returns : ∀ state, Reaches (Configuration.step n eager) (Configuration.start program) state →
    ∃ finish, Reaches (Configuration.step n eager) state finish ∧
      ∀ rank, rank < n → (finish rank).process = .pure (result rank)

/-- Some run of a program lets a rank return a value. -/
def Produces
    (n : Nat)
    (eager : Eagerness I)
    (program : Nat → Process I α)
    (rank : Nat)
    (value : α) : Prop :=
  ∃ state, Reaches (Configuration.step n eager) (Configuration.start program) state ∧
    (state rank).process = .pure value

/-- What the ranks produce is what they return. -/
theorem Returns.produces_iff
    {program : Nat → Process I α}
    {result : Nat → α}
    (returns : Returns n eager program result)
    {rank : Nat}
    (rankBound : rank < n)
    {value : α} :
    Produces n eager program rank value ↔ result rank = value := by
  constructor
  · rintro ⟨state, reached, returned⟩
    exact (returns.returned state reached rank rankBound value returned).symm
  · rintro rfl
    obtain ⟨finish, reached, finished⟩ := returns.returns _ (.refl _)
    exact ⟨finish, reached, finished rank rankBound⟩

/-- A rank that has failed on one schedule produces no value. -/
theorem not_produces_of_failed
    {program : Nat → Process I α}
    {rank : Nat}
    {state : Configuration I α}
    {reason : String}
    (reached : Reaches (Configuration.step n eager) (Configuration.start program) state)
    (failed : (state rank).process = .fail reason)
    (value : α) :
    ¬ Produces n eager program rank value := by
  rintro ⟨other, otherReached, returned⟩
  have ended : (state rank).process.Ended := by
    rw [failed]
    trivial
  have same := (Configuration.ends_as reached ended otherReached).2 (by
    rw [returned]
    trivial)
  rw [same, failed] at returned
  contradiction

/-- The results of the ranks are unique. -/
theorem Returns.unique
    {program : Nat → Process I α}
    {first second : Nat → α}
    (left : Returns n eager program first)
    (right : Returns n eager program second)
    {rank : Nat}
    (rankBound : rank < n) :
    first rank = second rank := by
  obtain ⟨finish, reached, finished⟩ := left.returns _ (.refl _)
  exact right.returned finish reached rank rankBound _ (finished rank rankBound)

/-- A program that stops with an error on all ranks settles with it. -/
theorem Phase.settles_error
    {program : Nat → Process I α}
    {after : Arrivals I}
    {reason : Nat → String}
    {events : Nat → List (Event I)}
    (stopped : Phase n eager (Arrivals.none I) program after (.error reason) events) :
    Settles n eager program (fun rank => .fail (reason rank)) events := by
  let return_result : Nat → α → Process I α := fun _ => Process.pure
  have settles := Settles.of_phase stopped return_result fun _ _ => trivial
  simp only [return_result, Process.bind_pure_self] at settles
  exact settles

/-- A program that settles with results returns them. -/
theorem Settles.returns
    {program : Nat → Process I α}
    {result : Nat → α}
    {log : Nat → List (Event I)}
    (settles : Settles n eager program (fun rank => Process.pure (result rank)) log) :
    Returns n eager program result where
  returned := by
    intro state reached rank rankBound value returned
    exact (Process.pure.inj (settles.returned_eq reached rankBound returned)).symm
  returns := by
    intro state reached
    obtain ⟨finish, tail, finished⟩ := settles.reaches_final reached
    exact ⟨finish, tail, fun rank rankBound => (finished rank rankBound).1⟩

end Spmd
