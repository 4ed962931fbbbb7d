import DistributedJoin.Spmd.Transfers

/-!
# Continuing processes

What a process notes and returns whatever it receives, and configurations in which all
processes go on with a continuation. A configuration that is continued takes the steps that it
takes without the continuation, until a process returns.
-/

namespace Spmd

variable {I : Interface} {α β γ : Type}

namespace Process

/-- Whatever a process receives, it only makes notes that are allowed, and what it returns meets
a condition. -/
def Ensures (allowed : I.Note → Prop) (condition : α → Prop) : Process I α → Prop
  | .pure value => condition value
  | .fail _ => True
  | .note observation next => allowed observation ∧ next.Ensures allowed condition
  | .send _ _ _ next => next.Ensures allowed condition
  | .post _ _ _ next => next.Ensures allowed condition
  | .waitall _ next => ∀ arrivals, (next arrivals).Ensures allowed condition

variable {allowed : I.Note → Prop} {condition : α → Prop} {later : β → Prop}

/-- Any note is allowed, and any result meets the condition. -/
theorem ensures_true (process : Process I α) :
    process.Ensures (fun _ => True) fun _ => True := by
  induction process with
  | pure value => trivial
  | fail reason => trivial
  | note observation next inductionHypothesis => exact ⟨trivial, inductionHypothesis⟩
  | send channel dest message next inductionHypothesis => exact inductionHypothesis
  | post channel source request next inductionHypothesis => exact inductionHypothesis
  | waitall channel next inductionHypothesis => exact inductionHypothesis

/-- Sequential composition. -/
theorem Ensures.bind
    {process : Process I α}
    {continuation : α → Process I β}
    (ensures : process.Ensures allowed condition)
    (continues : ∀ value, condition value → (continuation value).Ensures allowed later) :
    (process >>= continuation).Ensures allowed later := by
  induction process with
  | pure value => exact continues value ensures
  | fail reason => trivial
  | note observation next inductionHypothesis =>
      exact ⟨ensures.1, inductionHypothesis ensures.2⟩
  | send channel dest message next inductionHypothesis => exact inductionHypothesis ensures
  | post channel source request next inductionHypothesis => exact inductionHypothesis ensures
  | waitall channel next inductionHypothesis =>
      exact fun arrivals => inductionHypothesis arrivals (ensures arrivals)

theorem Ensures.mono
    {process : Process I α}
    {weaker : α → Prop}
    (ensures : process.Ensures allowed condition)
    (follows : ∀ value, condition value → weaker value) :
    process.Ensures allowed weaker := by
  rw [← Process.bind_pure_self process]
  exact ensures.bind follows

theorem Ensures.ite
    {branch : Prop}
    [Decidable branch]
    {yes no : Process I α}
    (ensuresYes : yes.Ensures allowed condition)
    (ensuresNo : no.Ensures allowed condition) :
    (if branch then yes else no).Ensures allowed condition := by
  split
  · exact ensuresYes
  · exact ensuresNo

/-- An operation on every value of a list. -/
theorem ensures_mapM
    (values : List γ)
    {operation : γ → Process I β}
    (each : ∀ value ∈ values, (operation value).Ensures allowed fun _ => True) :
    (values.mapM operation).Ensures allowed fun _ => True := by
  induction values with
  | nil => trivial
  | cons value rest inductionHypothesis =>
      rw [List.mapM_cons]
      refine (each value List.mem_cons_self).bind fun _ _ => ?_
      refine (inductionHypothesis fun other member => ?_).bind fun _ _ => trivial
      exact each other (List.mem_cons_of_mem _ member)

theorem ensures_forM
    (values : List γ)
    {operation : γ → Process I Unit}
    (each : ∀ value ∈ values, (operation value).Ensures allowed fun _ => True) :
    (forM values operation).Ensures allowed fun _ => True := by
  induction values with
  | nil => trivial
  | cons value rest inductionHypothesis =>
      rw [List.forM_cons]
      refine (each value List.mem_cons_self).bind fun _ _ => inductionHypothesis ?_
      exact fun other member => each other (List.mem_cons_of_mem _ member)

theorem ensures_observe
    {observation : I.Note}
    (allows : allowed observation) :
    (observe observation : Process I Unit).Ensures allowed fun _ => True :=
  ⟨allows, trivial⟩

theorem ensures_await (channel : I.Channel) :
    (await channel : Process I _).Ensures allowed fun _ => True :=
  fun _ => trivial

/-- Sends and receives make no notes. -/
theorem ensures_perform
    {channel : I.Channel}
    (actions : List (Action I channel)) :
    (perform actions).Ensures allowed fun _ => True := by
  induction actions with
  | nil => trivial
  | cons action rest inductionHypothesis =>
      cases action with
      | send dest message => exact inductionHypothesis
      | post source request => exact inductionHypothesis

end Process

/-- The note of an event, if it has one, is allowed. -/
def Event.Allowed (allowed : I.Note → Prop) : Event I → Prop
  | .noted observation => allowed observation
  | _ => True

/-- An endpoint whose process goes on with a continuation. -/
def Endpoint.resume (endpoint : Endpoint I α) (continuation : α → Process I β) : Endpoint I β where
  process := endpoint.process >>= continuation
  port := endpoint.port
  log := endpoint.log

namespace Configuration

variable {n : Nat} {eager : Eagerness I} {configuration : Configuration I α} {rank : Nat}

/-- All processes go on with a continuation. -/
def resume
    (configuration : Configuration I α)
    (continuation : Nat → α → Process I β) : Configuration I β :=
  fun rank => (configuration rank).resume (continuation rank)

variable {continuation : Nat → α → Process I β}

theorem resume_update
    (configuration : Configuration I α)
    (rank : Nat)
    (endpoint : Endpoint I α) :
    resume (Function.update configuration rank endpoint) continuation =
      Function.update (configuration.resume continuation) rank
        (endpoint.resume (continuation rank)) := by
  funext other
  by_cases same : other = rank
  · subst same
    simp [resume]
  · simp [resume, same]

/-- As long as a process has not returned, its continuation does not matter. -/
theorem advance_resume (unreturned : ∀ value, (configuration rank).process ≠ .pure value) :
    advance eager (configuration.resume continuation) rank =
      (advance eager configuration rank).map fun endpoint =>
        endpoint.resume (continuation rank) := by
  have resumed : (configuration.resume continuation rank).process =
      (configuration rank).process >>= continuation rank := rfl
  unfold advance
  rw [resumed]
  generalize process : (configuration rank).process = current at unreturned
  cases current with
  | pure value => exact absurd rfl (unreturned value)
  | fail reason => rfl
  | note observation next => rfl
  | send channel dest message next => rfl
  | post channel source request next => rfl
  | waitall channel next =>
      simp only [Process.waitall_bind, Option.map_map]
      rfl

theorem step_resume
    {rank : Fin n}
    (unreturned : ∀ value, (configuration rank).process ≠ .pure value) :
    step n eager rank (configuration.resume continuation) =
      (step n eager rank configuration).map fun next => next.resume continuation := by
  rw [step, step, advance_resume unreturned, Option.map_map, Option.map_map]
  congr 1
  funext endpoint
  exact (resume_update configuration rank endpoint).symm

variable {allowed : I.Note → Prop} {condition : α → Prop}

/-- A step keeps what a process ensures, and its note is allowed. -/
theorem ensures_of_advance
    {endpoint : Endpoint I α}
    (moved : advance eager configuration rank = some endpoint)
    (ensures : (configuration rank).process.Ensures allowed condition) :
    endpoint.process.Ensures allowed condition ∧
      ∃ event, endpoint.log = (configuration rank).log ++ [event] ∧ event.Allowed allowed := by
  unfold advance at moved
  generalize (configuration rank).process = process at moved ensures
  cases process with
  | pure value => contradiction
  | fail reason => contradiction
  | note observation next =>
      cases moved
      exact ⟨ensures.2, _, rfl, ensures.1⟩
  | send channel dest message next =>
      cases moved
      exact ⟨ensures, _, rfl, trivial⟩
  | post channel source request next =>
      cases moved
      exact ⟨ensures, _, rfl, trivial⟩
  | waitall channel next =>
      obtain ⟨arrivals, _, rfl⟩ := Option.map_eq_some_iff.mp moved
      exact ⟨ensures arrivals, _, rfl, trivial⟩

/-- Along a run a process only makes notes that are allowed. -/
theorem ensures_of_reaches
    {start finish : Configuration I α}
    (reaches : Reaches (step n eager) start finish)
    (ensures : (start rank).process.Ensures allowed condition) :
    (finish rank).process.Ensures allowed condition ∧
      ∃ events, (finish rank).log = (start rank).log ++ events ∧
        ∀ event ∈ events, event.Allowed allowed := by
  refine @Reaches.invariant _ _ _ (fun state : Configuration I α =>
    (state rank).process.Ensures allowed condition ∧
      ∃ events, (state rank).log = (start rank).log ++ events ∧
        ∀ event ∈ events, event.Allowed allowed) _ _ reaches ?_ ?_
  · exact ⟨ensures, [], (List.append_nil _).symm, fun _ none => absurd none List.not_mem_nil⟩
  · rintro component state next ⟨before, events, log, all⟩ taken
    obtain ⟨endpoint, moved, rfl⟩ := Option.map_eq_some_iff.mp taken
    by_cases same : rank = component
    · subst same
      obtain ⟨after, event, more, allows⟩ := ensures_of_advance moved before
      rw [Function.update_self]
      refine ⟨after, events ++ [event], ?_, fun other member => ?_⟩
      · rw [more, log, List.append_assoc]
      · rcases List.mem_append.mp member with earlier | last
        · exact all other earlier
        · exact List.mem_singleton.mp last ▸ allows
    · rw [Function.update_of_ne same]
      exact ⟨before, events, log, all⟩

end Configuration

end Spmd
