import DistributedJoin.Spmd.Runs

/-!
# Operations that may be broken off

A process that stops with an error where another one goes on has done until then what the
other one does. So if it is known how the other processes come to their end, it is known
what such processes return and log, whichever of them stop.
-/

namespace Spmd

variable {I : Interface} {α β : Type} {n : Nat} {eager : Eagerness I}

namespace Process

/-- A process does what another one does, or stops with an error on the way. -/
inductive Interrupts : Process I α → Process I α → Prop
  | fail (reason : String) (whole : Process I α) : Interrupts (.fail reason) whole
  | pure (value : α) : Interrupts (.pure value) (.pure value)
  | note
      (observation : I.Note)
      {next whole : Process I α}
      (rest : Interrupts next whole) :
      Interrupts (.note observation next) (.note observation whole)
  | send
      (channel : I.Channel)
      (dest : Nat)
      (message : I.Message channel)
      {next whole : Process I α}
      (rest : Interrupts next whole) :
      Interrupts (.send channel dest message next) (.send channel dest message whole)
  | post
      (channel : I.Channel)
      (source : Nat)
      (request : I.Request channel)
      {next whole : Process I α}
      (rest : Interrupts next whole) :
      Interrupts (.post channel source request next) (.post channel source request whole)
  | waitall
      (channel : I.Channel)
      {next whole : List (I.Request channel × I.Message channel) → Process I α}
      (rest : ∀ arrivals, Interrupts (next arrivals) (whole arrivals)) :
      Interrupts (.waitall channel next) (.waitall channel whole)

namespace Interrupts

theorem refl (process : Process I α) : process.Interrupts process := by
  induction process with
  | pure value => exact .pure value
  | fail reason => exact .fail reason _
  | note observation next inductionHypothesis => exact .note observation inductionHypothesis
  | send channel dest message next inductionHypothesis =>
      exact .send channel dest message inductionHypothesis
  | post channel source request next inductionHypothesis =>
      exact .post channel source request inductionHypothesis
  | waitall channel next inductionHypothesis => exact .waitall channel inductionHypothesis

/-- Sequential composition. -/
theorem bind
    {process whole : Process I α}
    {continuation later : α → Process I β}
    (interrupts : process.Interrupts whole)
    (continues : ∀ value, (continuation value).Interrupts (later value)) :
    (process >>= continuation).Interrupts (whole >>= later) := by
  induction interrupts with
  | fail reason whole => exact .fail reason _
  | pure value => exact continues value
  | note observation _ inductionHypothesis => exact .note observation inductionHypothesis
  | send channel dest message _ inductionHypothesis =>
      exact .send channel dest message inductionHypothesis
  | post channel source request _ inductionHypothesis =>
      exact .post channel source request inductionHypothesis
  | waitall channel _ inductionHypothesis => exact .waitall channel inductionHypothesis

end Interrupts

end Process

namespace Configuration

/-- The processes have done what those of another configuration have done, and are to do what
those are to do, or have stopped. -/
structure Interrupts (n : Nat) (configuration whole : Configuration I α) : Prop where
  process : ∀ rank, rank < n →
    (configuration rank).process.Interrupts (whole rank).process
  port : ∀ rank, (configuration rank).port = (whole rank).port
  log : ∀ rank, (configuration rank).log = (whole rank).log

namespace Interrupts

variable {configuration whole next : Configuration I α}

theorem start
    {program other : Nat → Process I α}
    (interrupts : ∀ rank, rank < n → (program rank).Interrupts (other rank)) :
    Interrupts n (.start program) (.start other) where
  process := interrupts
  port := fun _ => rfl
  log := fun _ => rfl

/-- What has arrived is told from the ports. -/
theorem settled_eq
    (interrupts : Interrupts n configuration whole)
    (rank : Nat)
    (channel : I.Channel) :
    settled eager whole rank channel = settled eager configuration rank channel := by
  have done : ∀ pending, SendDone eager whole rank channel pending ↔
      SendDone eager configuration rank channel pending := by
    intro pending
    unfold SendDone
    rw [interrupts.port]
  have same : arrival whole rank channel = arrival configuration rank channel := by
    funext pending
    unfold arrival
    rw [interrupts.port]
  unfold settled
  rw [same, ← interrupts.port rank]
  exact if_congr (and_congr_left' (forall₂_congr fun pending _ => done pending)) rfl rfl

/-- What a process does next, the other one does next. -/
theorem advance
    (interrupts : Interrupts n configuration whole)
    {rank : Nat}
    (rankBound : rank < n)
    {endpoint : Endpoint I α}
    (moved : advance eager configuration rank = some endpoint) :
    ∃ other, Configuration.advance eager whole rank = some other ∧
      endpoint.process.Interrupts other.process ∧ endpoint.port = other.port ∧
        endpoint.log = other.log := by
  have related := interrupts.process rank rankBound
  unfold Configuration.advance at moved ⊢
  rw [← interrupts.port rank, ← interrupts.log rank]
  generalize (configuration rank).process = process at moved related
  generalize (whole rank).process = goes_on at related
  cases related with
  | fail reason _ => contradiction
  | pure value => contradiction
  | note observation rest =>
      cases moved
      exact ⟨_, rfl, rest, rfl, rfl⟩
  | send channel dest message rest =>
      cases moved
      exact ⟨_, rfl, rest, rfl, rfl⟩
  | post channel source request rest =>
      cases moved
      exact ⟨_, rfl, rest, rfl, rfl⟩
  | waitall channel rest =>
      obtain ⟨arrivals, arrived, rfl⟩ := Option.map_eq_some_iff.mp moved
      refine ⟨_, Option.map_eq_some_iff.mpr ⟨arrivals, ?_, rfl⟩, rest arrivals, rfl, rfl⟩
      exact (interrupts.settled_eq rank channel).trans arrived

theorem step
    (interrupts : Interrupts n configuration whole)
    {rank : Fin n}
    (taken : step n eager rank configuration = some next) :
    ∃ other, Configuration.step n eager rank whole = some other ∧
      Interrupts n next other := by
  obtain ⟨endpoint, moved, rfl⟩ := Option.map_eq_some_iff.mp taken
  obtain ⟨other, otherMoved, process, port, log⟩ := interrupts.advance rank.isLt moved
  refine ⟨_, Option.map_eq_some_iff.mpr ⟨other, otherMoved, rfl⟩, ?_, ?_, ?_⟩
  · intro peer peerBound
    by_cases same : peer = rank
    · subst same
      rwa [Function.update_self, Function.update_self]
    · rw [Function.update_of_ne same, Function.update_of_ne same]
      exact interrupts.process peer peerBound
  · intro peer
    by_cases same : peer = rank
    · subst same
      rwa [Function.update_self, Function.update_self]
    · rw [Function.update_of_ne same, Function.update_of_ne same]
      exact interrupts.port peer
  · intro peer
    by_cases same : peer = rank
    · subst same
      rwa [Function.update_self, Function.update_self]
    · rw [Function.update_of_ne same, Function.update_of_ne same]
      exact interrupts.log peer

/-- Whatever order the processes run in, the others can run in it, too. -/
theorem reaches
    (interrupts : Interrupts n configuration whole)
    (reached : Reaches (Configuration.step n eager) configuration next) :
    ∃ other, Reaches (Configuration.step n eager) whole other ∧ Interrupts n next other := by
  refine @Reaches.invariant _ _ _ (fun state => ∃ other,
    Reaches (Configuration.step n eager) whole other ∧ Interrupts n state other) _ _ reached
      ⟨whole, .refl whole, interrupts⟩ ?_
  rintro rank state after ⟨other, otherReached, related⟩ taken
  obtain ⟨further, otherTaken, kept⟩ := related.step taken
  exact ⟨further, otherReached.trans (.single otherTaken), kept⟩

end Interrupts

end Configuration

/-- All ranks bring an operation to an end as given, or some of them stop with an error on
the way. If the operation is complete, none of them does. -/
def Attempt
    (complete : Prop)
    (n : Nat)
    (eager : Eagerness I)
    (before : Arrivals I)
    (operation : Nat → Process I α)
    (after : Arrivals I)
    (outcome : Outcome α)
    (events : Nat → List (Event I)) : Prop :=
  ∃ whole : Nat → Process I α,
    (∀ rank, rank < n → (operation rank).Interrupts (whole rank)) ∧
      (complete → ∀ rank, rank < n → operation rank = whole rank) ∧
        Phase n eager before whole after outcome events

theorem Phase.attempt
    {complete : Prop}
    {before after : Arrivals I}
    {operation : Nat → Process I α}
    {outcome : Outcome α}
    {events : Nat → List (Event I)}
    (phase : Phase n eager before operation after outcome events) :
    Attempt complete n eager before operation after outcome events :=
  ⟨operation, fun rank _ => .refl (operation rank), fun _ _ _ => rfl, phase⟩

namespace Attempt

variable {complete : Prop} {before middle after : Arrivals I}
  {operation : Nat → Process I α} {outcome : Outcome α} {result : Nat → α}
  {events moreEvents : Nat → List (Event I)}

theorem phase
    (attempt : Attempt complete n eager before operation after outcome events)
    (holds : complete) :
    Phase n eager before operation after outcome events := by
  obtain ⟨_, _, same, phase⟩ := attempt
  exact phase.congr (same holds)

theorem mono
    {stronger : Prop}
    (attempt : Attempt complete n eager before operation after outcome events)
    (follows : stronger → complete) :
    Attempt stronger n eager before operation after outcome events := by
  obtain ⟨whole, interrupts, same, phase⟩ := attempt
  exact ⟨whole, interrupts, fun holds => same (follows holds), phase⟩

theorem congr
    {other : Nat → Process I α}
    (attempt : Attempt complete n eager before operation after outcome events)
    (equal : ∀ rank, rank < n → other rank = operation rank) :
    Attempt complete n eager before other after outcome events := by
  obtain ⟨whole, interrupts, same, phase⟩ := attempt
  exact ⟨whole, fun rank rankBound => equal rank rankBound ▸ interrupts rank rankBound,
    fun holds rank rankBound => (equal rank rankBound).trans (same holds rank rankBound), phase⟩

/-- Two operations one after the other. -/
theorem bind
    {second : Nat → α → Process I β}
    {last : Outcome β}
    (first : Attempt complete n eager before operation middle (.ok result) events)
    (next : Attempt complete n eager middle (fun rank => second rank (result rank)) after last
      moreEvents) :
    Attempt complete n eager before (fun rank => operation rank >>= second rank) after last
      (fun rank => events rank ++ moreEvents rank) := by
  classical
  obtain ⟨whole, interrupts, same, phase⟩ := first
  obtain ⟨later, nextInterrupts, nextSame, nextPhase⟩ := next
  -- only what follows the given result is known to come to an end
  let continuation : Nat → α → Process I β := fun rank value =>
    if value = result rank then later rank else second rank value
  have follows : Phase n eager middle (fun rank => continuation rank (result rank)) after last
      moreEvents := nextPhase.congr fun _ _ => if_pos rfl
  refine ⟨fun rank => whole rank >>= continuation rank, fun rank rankBound => ?_,
    fun holds rank rankBound => ?_, phase.bind follows⟩
  · refine (interrupts rank rankBound).bind fun value => ?_
    by_cases found : value = result rank
    · subst found
      simp only [continuation, if_true]
      exact nextInterrupts rank rankBound
    · simp only [continuation, if_neg found]
      exact .refl _
  · have continues : second rank = continuation rank := by
      funext value
      by_cases found : value = result rank
      · subst found
        simp only [continuation, if_true]
        exact nextSame holds rank rankBound
      · simp only [continuation, if_neg found]
    exact congrArg₂ (· >>= ·) (same holds rank rankBound) continues

/-- After an error nothing more happens. -/
theorem bind_error
    {second : Nat → α → Process I β}
    {reason : Nat → String}
    (attempt : Attempt complete n eager before operation after (.error reason) events) :
    Attempt complete n eager before (fun rank => operation rank >>= second rank) after
      (.error reason) events := by
  obtain ⟨whole, interrupts, same, phase⟩ := attempt
  exact ⟨fun rank => whole rank >>= second rank,
    fun rank rankBound => (interrupts rank rankBound).bind fun _ => .refl _,
    fun holds rank rankBound => congrArg (· >>= second rank) (same holds rank rankBound),
    phase.bind_error⟩

/-- Apply a function to the result of an operation. -/
theorem map
    (attempt : Attempt complete n eager before operation after (.ok result) events)
    (change : Nat → α → β) :
    Attempt complete n eager before
      (fun rank => operation rank >>= fun value => Process.pure (change rank value))
      after (.ok fun rank => change rank (result rank)) events := by
  obtain ⟨whole, interrupts, same, phase⟩ := attempt
  exact ⟨fun rank => whole rank >>= fun value => Process.pure (change rank value),
    fun rank rankBound => (interrupts rank rankBound).bind fun _ => .refl _,
    fun holds rank rankBound => congrArg (· >>= fun value => Process.pure (change rank value))
      (same holds rank rankBound), phase.map change⟩

/-- All ranks attempt the same list of operations. -/
theorem mapM
    {κ : Type}
    {operation : Nat → κ → Process I α}
    {result : Nat → κ → α}
    {log : κ → Nat → List (Event I)}
    (keys : List κ)
    (each : ∀ key ∈ keys, Attempt complete n eager before (fun rank => operation rank key) before
      (.ok fun rank => result rank key) (log key)) :
    Attempt complete n eager before (fun rank => keys.mapM (operation rank)) before
      (.ok fun rank => keys.map (result rank))
      (fun rank => keys.flatMap fun key => log key rank) := by
  induction keys with
  | nil => exact (Phase.pure fun _ => []).attempt
  | cons key rest inductionHypothesis =>
      have head := each key (by simp)
      have tail := inductionHypothesis fun other member => each other (by simp [member])
      have composed : Attempt complete n eager before
          (fun rank => do
            let value ← operation rank key
            let values ← rest.mapM (operation rank)
            Process.pure (value :: values))
          before (.ok fun rank => (key :: rest).map (result rank))
          (fun rank => log key rank ++ rest.flatMap fun other => log other rank) :=
        head.bind (tail.map fun rank values => result rank key :: values)
      exact composed.congr fun rank _ => List.mapM_cons

section Runs

variable {program : Nat → Process I α}

/-- What is reached is reached if no rank stops, apart from the ranks that have stopped. -/
theorem settles
    (attempt : Attempt complete n eager (.none I) program after outcome events) :
    ∃ whole : Nat → Process I α,
      Settles n eager whole (outcome.resume fun _ => (Process.pure : α → Process I α)) events ∧
        ∀ state, Reaches (Configuration.step n eager) (Configuration.start program) state →
          ∃ other, Reaches (Configuration.step n eager) (Configuration.start whole) other ∧
            state.Interrupts n other := by
  obtain ⟨whole, interrupts, _, phase⟩ := attempt
  have ended : ∀ rank, rank < n →
      (outcome.resume (fun _ => (Process.pure : α → Process I α)) rank).Ended := by
    intro rank _
    cases outcome with
    | ok value => trivial
    | error reason => trivial
  have settled := Settles.of_phase phase (fun _ => Process.pure) ended
  simp only [Process.bind_pure_self] at settled
  exact ⟨whole, settled, fun state reached =>
    (Configuration.Interrupts.start interrupts).reaches reached⟩

/-- What a rank has logged is the beginning of what it logs if no rank stops. -/
theorem log_grows
    (attempt : Attempt complete n eager (.none I) program after outcome events)
    {state : Configuration I α}
    (reached : Reaches (Configuration.step n eager) (Configuration.start program) state)
    {rank : Nat}
    (rankBound : rank < n) :
    (state rank).log <+: events rank := by
  obtain ⟨whole, settles, lifts⟩ := attempt.settles
  obtain ⟨other, otherReached, related⟩ := lifts state reached
  rw [related.log rank]
  exact settles.log_grows otherReached rankBound

/-- A rank that returns has logged everything, and returns what it does if no rank stops. -/
theorem of_returned
    (attempt : Attempt complete n eager (.none I) program after outcome events)
    {state : Configuration I α}
    (reached : Reaches (Configuration.step n eager) (Configuration.start program) state)
    {rank : Nat}
    (rankBound : rank < n)
    {value : α}
    (returned : (state rank).process = .pure value) :
    outcome.resume (fun _ => (Process.pure : α → Process I α)) rank = .pure value ∧
      (state rank).log = events rank := by
  obtain ⟨whole, settles, lifts⟩ := attempt.settles
  obtain ⟨other, otherReached, related⟩ := lifts state reached
  have process := related.process rank rankBound
  rw [returned] at process
  generalize found : (other rank).process = otherProcess at process
  cases process with
  | pure value =>
      have ended : (other rank).process.Ended := by
        rw [found]
        trivial
      obtain ⟨last, log⟩ := settles.ended_eq otherReached rankBound ended
      exact ⟨last.symm.trans found, (related.log rank).trans log⟩

end Runs

/-- A rank that returns at all returns the given result. -/
theorem eq_of_produces
    {program : Nat → Process I α}
    (attempt : Attempt complete n eager (.none I) program after (.ok result) events)
    {rank : Nat}
    (rankBound : rank < n)
    {value : α}
    (produces : Produces n eager program rank value) :
    value = result rank := by
  obtain ⟨state, reached, returned⟩ := produces
  exact (Process.pure.inj (attempt.of_returned reached rankBound returned).1).symm

/-- If all ranks stop with an error or earlier, none of them returns. -/
theorem not_produces
    {program : Nat → Process I α}
    {reason : Nat → String}
    (attempt : Attempt complete n eager (.none I) program after (.error reason) events)
    {rank : Nat}
    (rankBound : rank < n)
    (value : α) :
    ¬ Produces n eager program rank value := by
  rintro ⟨state, reached, returned⟩
  have failed := (attempt.of_returned reached rankBound returned).1
  contradiction

end Attempt

namespace Process

/-- Without waiting for another process, a process does what is logged as the given events,
and goes on as another one. -/
inductive Begins : Process I α → List (Event I) → Process I α → Prop
  | nil (process : Process I α) : Begins process [] process
  | note
      (observation : I.Note)
      {next rest : Process I α}
      {events : List (Event I)}
      (later : Begins next events rest) :
      Begins (.note observation next) (.noted observation :: events) rest
  | send
      (channel : I.Channel)
      (dest : Nat)
      (message : I.Message channel)
      {next rest : Process I α}
      {events : List (Event I)}
      (later : Begins next events rest) :
      Begins (.send channel dest message next) (.sent channel dest message :: events) rest
  | post
      (channel : I.Channel)
      (source : Nat)
      (request : I.Request channel)
      {next rest : Process I α}
      {events : List (Event I)}
      (later : Begins next events rest) :
      Begins (.post channel source request next) (.posted channel source request :: events) rest

namespace Begins

variable {process middle rest : Process I α} {events moreEvents : List (Event I)}

theorem bind
    (begins : process.Begins events rest)
    (continuation : α → Process I β) :
    (process >>= continuation).Begins events (rest >>= continuation) := by
  induction begins with
  | nil process => exact .nil _
  | note observation _ inductionHypothesis => exact .note observation inductionHypothesis
  | send channel dest message _ inductionHypothesis =>
      exact .send channel dest message inductionHypothesis
  | post channel source request _ inductionHypothesis =>
      exact .post channel source request inductionHypothesis

theorem trans
    (first : process.Begins events middle)
    (second : middle.Begins moreEvents rest) :
    process.Begins (events ++ moreEvents) rest := by
  induction first with
  | nil process => exact second
  | note observation _ inductionHypothesis => exact .note observation (inductionHypothesis second)
  | send channel dest message _ inductionHypothesis =>
      exact .send channel dest message (inductionHypothesis second)
  | post channel source request _ inductionHypothesis =>
      exact .post channel source request (inductionHypothesis second)

theorem mapM
    {κ : Type}
    {operation : κ → Process I α}
    {result : κ → α}
    {log : κ → List (Event I)}
    (keys : List κ)
    (each : ∀ key ∈ keys, (operation key).Begins (log key) (.pure (result key))) :
    (keys.mapM operation : Process I (List α)).Begins (keys.flatMap log)
      (.pure (keys.map result)) := by
  induction keys with
  | nil => exact .nil _
  | cons key rest inductionHypothesis =>
      have tail := inductionHypothesis fun other member => each other (by simp [member])
      rw [List.mapM_cons, List.flatMap_cons]
      exact ((each key (by simp)).bind _).trans
        (tail.bind fun values => .pure (result key :: values))

end Begins

theorem begins_sendEach (channel : I.Channel) (sends : List (Nat × I.Message channel)) :
    (sendEach channel sends).Begins (sends.map fun send => .sent channel send.1 send.2)
      (.pure ()) := by
  induction sends with
  | nil => exact .nil _
  | cons send rest inductionHypothesis => exact .send channel send.1 send.2 inductionHypothesis

end Process

/-- A rank can do on its own what it does without waiting. -/
theorem Configuration.drives_begins
    {process rest : Process I α}
    {events : List (Event I)}
    (begins : process.Begins events rest)
    {configuration : Configuration I α}
    {rank : Nat}
    (rankBound : rank < n)
    (atStart : (configuration rank).process = process) :
    ∃ port, Drives n eager configuration rank
      ⟨rest, port, (configuration rank).log ++ events⟩ := by
  induction begins generalizing configuration with
  | nil process =>
      refine ⟨(configuration rank).port, ?_⟩
      rw [← atStart, List.append_nil]
      exact .refl configuration rank
  | @note observation next _ _ _ inductionHypothesis =>
      let noted : Endpoint I α := ⟨next, (configuration rank).port,
        (configuration rank).log ++ [.noted observation]⟩
      have moved : advance eager configuration rank = some noted := by
        rw [advance, atStart]
      obtain ⟨port, drives⟩ := @inductionHypothesis (Function.update configuration rank noted)
        (by simp [noted])
      exact ⟨port, (Drives.of_advance rankBound moved).trans (by simpa [noted] using drives)⟩
  | @send channel dest message next _ _ _ inductionHypothesis =>
      let sent : Endpoint I α := ⟨next, (configuration rank).port.send channel dest message,
        (configuration rank).log ++ [.sent channel dest message]⟩
      have moved : advance eager configuration rank = some sent := by
        rw [advance, atStart]
      obtain ⟨port, drives⟩ := @inductionHypothesis (Function.update configuration rank sent)
        (by simp [sent])
      exact ⟨port, (Drives.of_advance rankBound moved).trans (by simpa [sent] using drives)⟩
  | @post channel source request next _ _ _ inductionHypothesis =>
      let posted : Endpoint I α := ⟨next, (configuration rank).port.post channel source request,
        (configuration rank).log ++ [.posted channel source request]⟩
      have moved : advance eager configuration rank = some posted := by
        rw [advance, atStart]
      obtain ⟨port, drives⟩ := @inductionHypothesis (Function.update configuration rank posted)
        (by simp [posted])
      exact ⟨port, (Drives.of_advance rankBound moved).trans (by simpa [posted] using drives)⟩

end Spmd
