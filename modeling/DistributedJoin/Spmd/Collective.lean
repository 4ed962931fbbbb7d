import DistributedJoin.Spmd.Process

/-!
# Collective phases

All ranks of a system call the same operation together, each with its own
arguments. A phase describes one such operation by what every rank gets back,
what it adds to its log and which messages its later waits will return. Phases
compose, so a whole program is described by running its operations one after
another on all ranks; since steps of different ranks commute, this one schedule
settles what every other schedule does.
-/

namespace Spmd

variable {I : Interface} {α β : Type}

namespace Port

/-- Record a list of sends on one channel. -/
def sendAll
    (port : Port I)
    (channel : I.Channel)
    (sends : List (Nat × I.Message channel)) : Port I :=
  sends.foldl (fun current send => current.send channel send.1 send.2) port

/-- Record a list of posted receives on one channel. -/
def postAll
    (port : Port I)
    (channel : I.Channel)
    (posts : List (Nat × I.Request channel)) : Port I :=
  posts.foldl (fun current post => current.post channel post.1 post.2) port

@[simp] theorem sendAll_posted
    (port : Port I)
    (channel : I.Channel)
    (sends : List (Nat × I.Message channel)) :
    (port.sendAll channel sends).posted = port.posted := by
  induction sends generalizing port with
  | nil => rfl
  | cons head tail inductionHypothesis => exact inductionHypothesis _

@[simp] theorem sendAll_receiving
    (port : Port I)
    (channel : I.Channel)
    (sends : List (Nat × I.Message channel)) :
    (port.sendAll channel sends).receiving = port.receiving := by
  induction sends generalizing port with
  | nil => rfl
  | cons head tail inductionHypothesis => exact inductionHypothesis _

@[simp] theorem postAll_sent
    (port : Port I)
    (channel : I.Channel)
    (posts : List (Nat × I.Request channel)) :
    (port.postAll channel posts).sent = port.sent := by
  induction posts generalizing port with
  | nil => rfl
  | cons head tail inductionHypothesis => exact inductionHypothesis _

@[simp] theorem postAll_sending
    (port : Port I)
    (channel : I.Channel)
    (posts : List (Nat × I.Request channel)) :
    (port.postAll channel posts).sending = port.sending := by
  induction posts generalizing port with
  | nil => rfl
  | cons head tail inductionHypothesis => exact inductionHypothesis _

/-- The messages sent to a peer are appended in order. -/
theorem sendAll_sent
    (port : Port I)
    (channel : I.Channel)
    (sends : List (Nat × I.Message channel))
    (dest : Nat) :
    (port.sendAll channel sends).sent channel dest =
      port.sent channel dest ++
        (sends.filter fun send => send.1 = dest).map (·.2) := by
  induction sends generalizing port with
  | nil => simp [sendAll]
  | cons head tail inductionHypothesis =>
      refine (inductionHypothesis (port.send channel head.1 head.2)).trans ?_
      by_cases same : dest = head.1
      · subst same
        simp [send]
      · simp [send, same, Ne.symm same]

theorem sendAll_sent_of_ne
    (port : Port I)
    {channel other : I.Channel}
    (different : other ≠ channel)
    (sends : List (Nat × I.Message channel)) :
    (port.sendAll channel sends).sent other = port.sent other := by
  induction sends generalizing port with
  | nil => rfl
  | cons head tail inductionHypothesis =>
      refine (inductionHypothesis (port.send channel head.1 head.2)).trans ?_
      simp [send, different]

theorem sendAll_sending_of_ne
    (port : Port I)
    {channel other : I.Channel}
    (different : other ≠ channel)
    (sends : List (Nat × I.Message channel)) :
    (port.sendAll channel sends).sending other = port.sending other := by
  induction sends generalizing port with
  | nil => rfl
  | cons head tail inductionHypothesis =>
      refine (inductionHypothesis (port.send channel head.1 head.2)).trans ?_
      simp [send, different]

/-- With at most one send to each peer, every new pending send has the number
of messages sent to its peer before. -/
theorem sendAll_sending
    (port : Port I)
    (channel : I.Channel)
    (sends : List (Nat × I.Message channel))
    (distinct : (sends.map (·.1)).Nodup) :
    (port.sendAll channel sends).sending channel =
      port.sending channel ++
        sends.map fun send => (send.1, (port.sent channel send.1).length) := by
  induction sends generalizing port with
  | nil => simp [sendAll]
  | cons head tail inductionHypothesis =>
      rw [List.map_cons, List.nodup_cons] at distinct
      refine (inductionHypothesis (port.send channel head.1 head.2)
        distinct.2).trans ?_
      have unchanged : ∀ send ∈ tail,
          (send.1, ((port.send channel head.1 head.2).sent channel
            send.1).length) =
            (send.1, (port.sent channel send.1).length) := by
        intro send member
        have different : send.1 ≠ head.1 := by
          intro equal
          apply distinct.1
          rw [← equal]
          exact List.mem_map_of_mem (f := (·.1)) member
        simp [Port.send, different]
      rw [List.map_congr_left unchanged]
      simp [Port.send]

/-- The number of receives posted for a peer grows by those in the list. -/
theorem postAll_posted
    (port : Port I)
    (channel : I.Channel)
    (posts : List (Nat × I.Request channel))
    (source : Nat) :
    (port.postAll channel posts).posted channel source =
      port.posted channel source +
        (posts.filter fun post => post.1 = source).length := by
  induction posts generalizing port with
  | nil => simp [postAll]
  | cons head tail inductionHypothesis =>
      refine (inductionHypothesis (port.post channel head.1 head.2)).trans ?_
      by_cases same : source = head.1
      · subst same
        simp [post]
        omega
      · simp [post, same, Ne.symm same]

theorem postAll_posted_of_ne
    (port : Port I)
    {channel other : I.Channel}
    (different : other ≠ channel)
    (posts : List (Nat × I.Request channel)) :
    (port.postAll channel posts).posted other = port.posted other := by
  induction posts generalizing port with
  | nil => rfl
  | cons head tail inductionHypothesis =>
      refine (inductionHypothesis (port.post channel head.1 head.2)).trans ?_
      simp [post, different]

theorem postAll_receiving_of_ne
    (port : Port I)
    {channel other : I.Channel}
    (different : other ≠ channel)
    (posts : List (Nat × I.Request channel)) :
    (port.postAll channel posts).receiving other = port.receiving other := by
  induction posts generalizing port with
  | nil => rfl
  | cons head tail inductionHypothesis =>
      refine (inductionHypothesis (port.post channel head.1 head.2)).trans ?_
      simp [post, different]

/-- With at most one receive for each peer, every new pending receive has the
number of receives posted for its peer before. -/
theorem postAll_receiving
    (port : Port I)
    (channel : I.Channel)
    (posts : List (Nat × I.Request channel))
    (distinct : (posts.map (·.1)).Nodup) :
    (port.postAll channel posts).receiving channel =
      port.receiving channel ++
        posts.map fun post => (post.1, port.posted channel post.1, post.2) := by
  induction posts generalizing port with
  | nil => simp [postAll]
  | cons head tail inductionHypothesis =>
      rw [List.map_cons, List.nodup_cons] at distinct
      refine (inductionHypothesis (port.post channel head.1 head.2)
        distinct.2).trans ?_
      have unchanged : ∀ post ∈ tail,
          (post.1, (port.post channel head.1 head.2).posted channel post.1,
            post.2) = (post.1, port.posted channel post.1, post.2) := by
        intro post member
        have different : post.1 ≠ head.1 := by
          intro equal
          apply distinct.1
          rw [← equal]
          exact List.mem_map_of_mem (f := (·.1)) member
        simp [Port.post, different]
      rw [List.map_congr_left unchanged]
      simp [Port.post]

end Port

namespace Configuration

variable {n : Nat} {eager : Eagerness I}

/-- From every later configuration in which it has not moved, a rank on its own
can bring its endpoint to the given one. -/
def Drives
    (n : Nat)
    (eager : Eagerness I)
    (configuration : Configuration I α)
    (rank : Nat)
    (endpoint : Endpoint I α) : Prop :=
  ∀ later, later rank = configuration rank → configuration.Extends later →
    Reaches (step n eager) later (Function.update later rank endpoint)

namespace Drives

theorem refl
    (configuration : Configuration I α)
    (rank : Nat) :
    Drives n eager configuration rank (configuration rank) := by
  intro later same _
  rw [← same, Function.update_eq_self]
  exact .refl later

theorem of_advance
    {configuration : Configuration I α}
    {rank : Nat}
    {endpoint : Endpoint I α}
    (rankBound : rank < n)
    (moved : advance eager configuration rank = some endpoint) :
    Drives n eager configuration rank endpoint := by
  intro later same extended
  have taken : step n eager ⟨rank, rankBound⟩ later =
      some (Function.update later rank endpoint) := by
    rw [step, advance_mono same extended moved]
    rfl
  exact .single taken

theorem trans
    {configuration : Configuration I α}
    {rank : Nat}
    {middle finish : Endpoint I α}
    (first : Drives n eager configuration rank middle)
    (second : Drives n eager (Function.update configuration rank middle)
      rank finish) :
    Drives n eager configuration rank finish := by
  intro later same extended
  have middleReached := first later same extended
  have laterExtended : Extends (Function.update configuration rank middle)
      (Function.update later rank middle) := by
    intro other
    by_cases equal : other = rank
    · subst equal
      simpa using Port.Extends.refl _
    · simpa [equal] using extended other
  have finishReached := second (Function.update later rank middle)
    (by simp) laterExtended
  rw [Function.update_idem] at finishReached
  exact middleReached.trans finishReached

end Drives

/-- When every rank can be driven on its own, all of them can be driven
together. -/
theorem reaches_all
    {configuration : Configuration I α}
    {finish : Nat → Endpoint I α}
    (drives : ∀ rank, rank < n →
      Drives n eager configuration rank (finish rank)) :
    ∃ final, Reaches (step n eager) configuration final ∧
      (∀ rank, rank < n → final rank = finish rank) ∧
      ∀ rank, n ≤ rank → final rank = configuration rank := by
  suffices prefixes : ∀ bound, bound ≤ n →
      ∃ final, Reaches (step n eager) configuration final ∧
        (∀ rank, rank < bound → final rank = finish rank) ∧
        ∀ rank, bound ≤ rank → final rank = configuration rank from
    prefixes n (Nat.le_refl n)
  intro bound
  induction bound with
  | zero =>
      intro _
      exact ⟨configuration, .refl _, by simp, by simp⟩
  | succ bound inductionHypothesis =>
      intro boundLe
      obtain ⟨middle, reached, moved, unmoved⟩ :=
        inductionHypothesis (Nat.le_of_succ_le boundLe)
      have next := drives bound boundLe middle (unmoved bound (Nat.le_refl _))
        (extends_of_reaches reached)
      refine ⟨_, reached.trans next, ?_, ?_⟩
      · intro rank rankBound
        by_cases last : rank = bound
        · subst last
          simp
        · rw [Function.update_of_ne last]
          exact moved rank (by omega)
      · intro rank rankBound
        rw [Function.update_of_ne (by omega)]
        exact unmoved rank (by omega)

/-- Matched receives stay matched with the same messages. -/
theorem arrivals_mono
    {earlier later : Configuration I α}
    {rank : Nat}
    {channel : I.Channel}
    {pending : List (Nat × Nat × I.Request channel)}
    {results : List (I.Request channel × I.Message channel)}
    (extended : earlier.Extends later)
    (matched : pending.map (earlier.arrival rank channel) = results.map some) :
    pending.map (later.arrival rank channel) = results.map some := by
  rw [← matched]
  apply List.map_congr_left
  intro receive member
  have mapped := List.mem_map_of_mem (f := earlier.arrival rank channel) member
  rw [matched] at mapped
  obtain ⟨result, _, resultEquality⟩ := List.mem_map.mp mapped
  rw [← resultEquality]
  exact arrival_mono extended resultEquality.symm

/-- A rank can send to all listed destinations on its own. -/
theorem drives_sendEach
    {rank : Nat}
    (rankBound : rank < n)
    (channel : I.Channel)
    (sends : List (Nat × I.Message channel))
    (continuation : Unit → Process I α)
    (configuration : Configuration I α)
    (atStart : (configuration rank).process =
      Process.sendEach channel sends >>= continuation) :
    Drives n eager configuration rank
      ⟨continuation (), (configuration rank).port.sendAll channel sends,
        (configuration rank).log ++
          sends.map fun send => .sent channel send.1 send.2⟩ := by
  induction sends generalizing configuration with
  | nil =>
      have finished : configuration rank =
          ⟨continuation (), (configuration rank).port.sendAll channel [],
            (configuration rank).log ++ []⟩ := by
        rw [List.append_nil]
        exact congrArg
          (Endpoint.mk · (configuration rank).port (configuration rank).log)
          atStart
      rw [List.map_nil, ← finished]
      exact .refl configuration rank
  | cons head tail inductionHypothesis =>
      have moved : advance eager configuration rank =
          some ⟨Process.sendEach channel tail >>= continuation,
            (configuration rank).port.send channel head.1 head.2,
            (configuration rank).log ++ [.sent channel head.1 head.2]⟩ := by
        unfold advance
        rw [atStart]
        rfl
      refine (Drives.of_advance rankBound moved).trans ?_
      have rest := inductionHypothesis (Function.update configuration rank
        ⟨Process.sendEach channel tail >>= continuation,
          (configuration rank).port.send channel head.1 head.2,
          (configuration rank).log ++ [.sent channel head.1 head.2]⟩) (by simp)
      simpa [Port.sendAll] using rest

/-- A rank can post receives for all listed sources on its own. -/
theorem drives_postEach
    {rank : Nat}
    (rankBound : rank < n)
    (channel : I.Channel)
    (posts : List (Nat × I.Request channel))
    (continuation : Unit → Process I α)
    (configuration : Configuration I α)
    (atStart : (configuration rank).process =
      Process.postEach channel posts >>= continuation) :
    Drives n eager configuration rank
      ⟨continuation (), (configuration rank).port.postAll channel posts,
        (configuration rank).log ++
          posts.map fun post => .posted channel post.1 post.2⟩ := by
  induction posts generalizing configuration with
  | nil =>
      have finished : configuration rank =
          ⟨continuation (), (configuration rank).port.postAll channel [],
            (configuration rank).log ++ []⟩ := by
        rw [List.append_nil]
        exact congrArg
          (Endpoint.mk · (configuration rank).port (configuration rank).log)
          atStart
      rw [List.map_nil, ← finished]
      exact .refl configuration rank
  | cons head tail inductionHypothesis =>
      have moved : advance eager configuration rank =
          some ⟨Process.postEach channel tail >>= continuation,
            (configuration rank).port.post channel head.1 head.2,
            (configuration rank).log ++ [.posted channel head.1 head.2]⟩ := by
        unfold advance
        rw [atStart]
        rfl
      refine (Drives.of_advance rankBound moved).trans ?_
      have rest := inductionHypothesis (Function.update configuration rank
        ⟨Process.postEach channel tail >>= continuation,
          (configuration rank).port.post channel head.1 head.2,
          (configuration rank).log ++ [.posted channel head.1 head.2]⟩) (by simp)
      simpa [Port.postAll] using rest

end Configuration

/-- What the next wait of every rank on every channel will return. -/
abbrev Arrivals (I : Interface) :=
  (channel : I.Channel) → Nat → List (I.Request channel × I.Message channel)

/-- Nothing is waited for. -/
def Arrivals.none (I : Interface) : Arrivals I :=
  fun _ _ => []

/-- The arrivals after more receives have been posted on one channel. -/
def Arrivals.deliver
    (arrivals : Arrivals I)
    (channel : I.Channel)
    (more : Nat → List (I.Request channel × I.Message channel)) : Arrivals I :=
  Function.update arrivals channel
    fun rank => arrivals channel rank ++ more rank

/-- The arrivals after all ranks have waited on one channel. -/
def Arrivals.settle
    (arrivals : Arrivals I)
    (channel : I.Channel) : Arrivals I :=
  Function.update arrivals channel fun _ => []

/-- What has been delivered on a quiet channel is all that arrives there. -/
theorem Arrivals.deliver_quiet
    {arrivals : Arrivals I}
    {channel : I.Channel}
    (quiet : arrivals channel = fun _ => [])
    (more : Nat → List (I.Request channel × I.Message channel)) :
    arrivals.deliver channel more channel = more := by
  rw [deliver, Function.update_self, quiet]
  rfl

/-- Waiting for what has been delivered on a quiet channel leaves it quiet. -/
theorem Arrivals.settle_deliver
    {arrivals : Arrivals I}
    {channel : I.Channel}
    (quiet : arrivals channel = fun _ => [])
    (more : Nat → List (I.Request channel × I.Message channel)) :
    (arrivals.deliver channel more).settle channel = arrivals := by
  rw [settle, deliver, Function.update_idem, ← quiet, Function.update_eq_self]

/-- Two deliveries on one channel are one. -/
theorem Arrivals.deliver_deliver
    (arrivals : Arrivals I)
    (channel : I.Channel)
    (first second : Nat → List (I.Request channel × I.Message channel)) :
    (arrivals.deliver channel first).deliver channel second =
      arrivals.deliver channel fun rank => first rank ++ second rank := by
  simp [deliver]

/-- Delivering nothing changes nothing. -/
theorem Arrivals.deliver_nil
    (arrivals : Arrivals I)
    (channel : I.Channel) :
    (arrivals.deliver channel fun _ => []) = arrivals := by
  simp [deliver]

/-- Other channels are not affected. -/
theorem Arrivals.deliver_of_ne
    (arrivals : Arrivals I)
    {channel other : I.Channel}
    (different : other ≠ channel)
    (more : Nat → List (I.Request channel × I.Message channel)) :
    arrivals.deliver channel more other = arrivals other :=
  Function.update_of_ne different _ _

/-- Every message sent between two ranks has had its receive posted, and the
pending receives are matched with the given messages. -/
structure Resolved
    (n : Nat)
    (configuration : Configuration I α)
    (arrivals : Arrivals I) : Prop where
  balanced : ∀ channel source dest, source < n → dest < n →
    ((configuration source).port.sent channel dest).length =
      (configuration dest).port.posted channel source
  sends_matched : ∀ channel rank, rank < n →
    ∀ pending ∈ (configuration rank).port.sending channel,
      pending.2 < (configuration pending.1).port.posted channel rank
  receives_matched : ∀ channel rank, rank < n →
    ((configuration rank).port.receiving channel).map
      (configuration.arrival rank channel) = (arrivals channel rank).map some

/-- How an operation ends: on every rank with a value, or on every rank with
an error. -/
abbrev Outcome (α : Type) := Except (Nat → String) (Nat → α)

/-- What a rank does after an operation. -/
def Outcome.resume
    (outcome : Outcome α)
    (continuation : Nat → α → Process I β)
    (rank : Nat) : Process I β :=
  match outcome with
  | .ok result => continuation rank (result rank)
  | .error reason => .fail (reason rank)

/-- All ranks together bring an operation to an end: whatever the ranks do
next, there is a schedule on which every rank finishes the operation with its
result and adds the given events to its log. -/
def Phase
    (n : Nat)
    (eager : Eagerness I)
    (before : Arrivals I)
    (operation : Nat → Process I α)
    (after : Arrivals I)
    (outcome : Outcome α)
    (events : Nat → List (Event I)) : Prop :=
  ∀ (β : Type) (continuation : Nat → α → Process I β)
    (configuration : Configuration I β),
    Resolved n configuration before →
    (∀ rank, rank < n →
      (configuration rank).process = operation rank >>= continuation rank) →
    ∃ final,
      Reaches (Configuration.step n eager) configuration final ∧
      Resolved n final after ∧
      ∀ rank, rank < n →
        (final rank).process = outcome.resume continuation rank ∧
          (final rank).log = (configuration rank).log ++ events rank

namespace Phase

variable {n : Nat} {eager : Eagerness I}
  {before middle after : Arrivals I}
  {events moreEvents : Nat → List (Event I)}

/-- Only what the ranks below `n` do matters. -/
theorem congr
    {operation other : Nat → Process I α}
    {outcome : Outcome α}
    (phase : Phase n eager before operation after outcome events)
    (same : ∀ rank, rank < n → other rank = operation rank) :
    Phase n eager before other after outcome events := by
  intro β continuation configuration resolved atStart
  refine phase β continuation configuration resolved ?_
  intro rank rankBound
  rw [atStart rank rankBound, same rank rankBound]

/-- Only the results of the ranks below `n` matter. -/
theorem congr_result
    {operation : Nat → Process I α}
    {result other : Nat → α}
    (phase : Phase n eager before operation after (.ok result) events)
    (same : ∀ rank, rank < n → result rank = other rank) :
    Phase n eager before operation after (.ok other) events := by
  intro β continuation configuration resolved atStart
  obtain ⟨final, reached, finalResolved, finished⟩ :=
    phase β continuation configuration resolved atStart
  refine ⟨final, reached, finalResolved, fun rank rankBound => ?_⟩
  obtain ⟨processEquality, logEquality⟩ := finished rank rankBound
  refine ⟨?_, logEquality⟩
  rw [processEquality]
  simp only [Outcome.resume, same rank rankBound]

/-- Returning a value takes no step. -/
theorem pure
    (value : Nat → α) :
    Phase n eager before (fun rank => Process.pure (value rank)) before
      (.ok value) (fun _ => []) := by
  intro β continuation configuration resolved atStart
  refine ⟨configuration, .refl _, resolved, fun rank rankBound => ⟨?_, by simp⟩⟩
  exact atStart rank rankBound

/-- An error ends the operation. -/
theorem fail
    (reason : Nat → String) :
    Phase (α := α) n eager before (fun rank => Process.fail (reason rank))
      before (.error reason) (fun _ => []) := by
  intro β continuation configuration resolved atStart
  refine ⟨configuration, .refl _, resolved, fun rank rankBound => ⟨?_, by simp⟩⟩
  exact atStart rank rankBound

/-- Two operations one after the other. -/
theorem bind
    {first : Nat → Process I α}
    {second : Nat → α → Process I β}
    {result : Nat → α}
    {outcome : Outcome β}
    (firstPhase : Phase n eager before first middle (.ok result) events)
    (secondPhase : Phase n eager middle (fun rank => second rank (result rank))
      after outcome moreEvents) :
    Phase n eager before (fun rank => first rank >>= second rank) after outcome
      (fun rank => events rank ++ moreEvents rank) := by
  intro γ continuation configuration resolved atStart
  obtain ⟨halfway, reachedHalfway, halfwayResolved, halfwayDone⟩ :=
    firstPhase γ (fun rank value => second rank value >>= continuation rank)
      configuration resolved fun rank rankBound => by
        rw [atStart rank rankBound]
        exact Process.bind_bind _ _ _
  obtain ⟨final, reachedFinal, finalResolved, finalDone⟩ :=
    secondPhase γ continuation halfway halfwayResolved
      fun rank rankBound => (halfwayDone rank rankBound).1
  refine ⟨final, reachedHalfway.trans reachedFinal, finalResolved,
    fun rank rankBound => ⟨(finalDone rank rankBound).1, ?_⟩⟩
  rw [(finalDone rank rankBound).2, (halfwayDone rank rankBound).2,
    List.append_assoc]

/-- Two operations of which the first returns nothing. -/
theorem seq
    {first : Nat → Process I Unit}
    {second : Nat → Process I β}
    {outcome : Outcome β}
    (firstPhase : Phase n eager before first middle (.ok fun _ => ()) events)
    (secondPhase : Phase n eager middle second after outcome moreEvents) :
    Phase n eager before (fun rank => first rank >>= fun _ => second rank) after outcome
      (fun rank => events rank ++ moreEvents rank) :=
  firstPhase.bind secondPhase

/-- After an error nothing more happens. -/
theorem bind_error
    {first : Nat → Process I α}
    {second : Nat → α → Process I β}
    {reason : Nat → String}
    (phase : Phase n eager before first after (.error reason) events) :
    Phase n eager before (fun rank => first rank >>= second rank) after
      (.error reason) events := by
  intro γ continuation configuration resolved atStart
  obtain ⟨final, reached, finalResolved, finished⟩ :=
    phase γ (fun rank value => second rank value >>= continuation rank)
      configuration resolved fun rank rankBound => by
        rw [atStart rank rankBound]
        exact Process.bind_bind _ _ _
  exact ⟨final, reached, finalResolved, finished⟩

/-- Apply a function to the result of an operation. -/
theorem map
    {operation : Nat → Process I α}
    {result : Nat → α}
    (phase : Phase n eager before operation after (.ok result) events)
    (change : Nat → α → β) :
    Phase n eager before
      (fun rank => operation rank >>= fun value =>
        Process.pure (change rank value))
      after (.ok fun rank => change rank (result rank)) events := by
  have composed : Phase n eager before
      (fun rank => operation rank >>= fun value =>
        Process.pure (change rank value))
      after (.ok fun rank => change rank (result rank))
      (fun rank => events rank ++ []) :=
    phase.bind (Phase.pure fun rank => change rank (result rank))
  simpa using composed

/-- An operation that every rank finishes on its own, without using its port. -/
theorem of_drives
    {operation : Nat → Process I α}
    {result : Nat → α}
    (drives : ∀ (β : Type) (continuation : Nat → α → Process I β)
      (configuration : Configuration I β) (rank : Nat), rank < n →
      (configuration rank).process = operation rank >>= continuation rank →
      Configuration.Drives n eager configuration rank
        ⟨continuation rank (result rank), (configuration rank).port,
          (configuration rank).log ++ events rank⟩) :
    Phase n eager before operation before (.ok result) events := by
  intro β continuation configuration resolved atStart
  obtain ⟨final, reached, moved, _⟩ := Configuration.reaches_all
    fun rank rankBound =>
      drives β continuation configuration rank rankBound (atStart rank rankBound)
  have extended := Configuration.extends_of_reaches reached
  refine ⟨final, reached, ⟨?_, ?_, ?_⟩, fun rank rankBound => ?_⟩
  · intro channel source dest sourceBound destBound
    rw [moved source sourceBound, moved dest destBound]
    exact resolved.balanced channel source dest sourceBound destBound
  · intro channel rank rankBound pending member
    rw [moved rank rankBound] at member
    exact (resolved.sends_matched channel rank rankBound pending member).trans_le
      ((extended pending.1).2 channel rank)
  · intro channel rank rankBound
    rw [moved rank rankBound]
    exact Configuration.arrivals_mono extended (resolved.receives_matched channel rank rankBound)
  · rw [moved rank rankBound]
    exact ⟨rfl, rfl⟩

/-- Some ranks leave a note in their log. -/
theorem observeIf
    (chosen : Nat → Prop)
    [DecidablePred chosen]
    (observation : Nat → I.Note) :
    Phase n eager before
      (fun rank => if chosen rank then Process.observe (observation rank) else .pure ())
      before (.ok fun _ => ())
      (fun rank => if chosen rank then [.noted (observation rank)] else []) := by
  refine of_drives fun β continuation configuration rank rankBound atStart => ?_
  by_cases choice : chosen rank
  · rw [if_pos choice] at atStart ⊢
    apply Configuration.Drives.of_advance rankBound
    unfold Configuration.advance
    rw [atStart]
    rfl
  · rw [if_neg choice] at atStart ⊢
    have unchanged : configuration rank =
        ⟨continuation rank (), (configuration rank).port,
          (configuration rank).log ++ []⟩ := by
      rw [List.append_nil]
      exact congrArg
        (Endpoint.mk · (configuration rank).port (configuration rank).log) atStart
    have stays : Configuration.Drives n eager configuration rank
        (configuration rank) := .refl configuration rank
    rw [unchanged] at stays
    exact stays

/-- Every rank leaves a note in its log. -/
theorem observe
    (observation : Nat → I.Note) :
    Phase n eager before (fun rank => Process.observe (observation rank)) before
      (.ok fun _ => ()) (fun rank => [.noted (observation rank)]) :=
  observeIf (fun _ => True) observation

/-- Every rank waits for what it has posted on a channel. -/
theorem await (channel : I.Channel) :
    Phase n eager before (fun _ => Process.await channel) (before.settle channel)
      (.ok (before channel)) (fun _ => [.waited channel]) := by
  intro β continuation configuration resolved atStart
  have drives : ∀ rank, rank < n →
      Configuration.Drives n eager configuration rank
        ⟨continuation rank (before channel rank),
          (configuration rank).port.settle channel,
          (configuration rank).log ++ [.waited channel]⟩ := by
    intro rank rankBound
    apply Configuration.Drives.of_advance rankBound
    have settled : Configuration.settled eager configuration rank channel =
        some (before channel rank) := Configuration.settled_eq_some
      (fun pending member =>
        .inr (resolved.sends_matched channel rank rankBound pending member))
      (resolved.receives_matched channel rank rankBound)
    unfold Configuration.advance
    rw [atStart rank rankBound]
    simp [Process.await, settled]
  obtain ⟨final, reached, moved, _⟩ := Configuration.reaches_all drives
  have extended := Configuration.extends_of_reaches reached
  refine ⟨final, reached, ⟨?_, ?_, ?_⟩, fun rank rankBound => ?_⟩
  · intro other source dest sourceBound destBound
    rw [moved source sourceBound, moved dest destBound]
    exact resolved.balanced other source dest sourceBound destBound
  · intro other rank rankBound pending member
    rw [moved rank rankBound] at member
    by_cases same : other = channel
    · subst same
      simp [Port.settle] at member
    · simp only [Port.settle, Function.update_of_ne same] at member
      exact (resolved.sends_matched other rank rankBound pending
        member).trans_le ((extended pending.1).2 other rank)
  · intro other rank rankBound
    rw [moved rank rankBound]
    by_cases same : other = channel
    · subst same
      simp [Port.settle, Arrivals.settle]
    · simp only [Port.settle, Arrivals.settle, Function.update_of_ne same]
      exact Configuration.arrivals_mono extended
        (resolved.receives_matched other rank rankBound)
  · rw [moved rank rankBound]
    exact ⟨rfl, rfl⟩

/-- All ranks run the same list of operations, which may leave messages for a
later wait on one channel. -/
theorem mapM_deliver
    {κ : Type}
    {operation : Nat → κ → Process I α}
    {result : Nat → κ → α}
    {log : κ → Nat → List (Event I)}
    {channel : I.Channel}
    {more : κ → Nat → List (I.Request channel × I.Message channel)}
    (ready : Arrivals I → Prop)
    (keeps : ∀ arrivals key, ready arrivals →
      ready (arrivals.deliver channel (more key)))
    (keys : List κ)
    (phases : ∀ key ∈ keys, ∀ arrivals, ready arrivals →
      Phase n eager arrivals (fun rank => operation rank key)
        (arrivals.deliver channel (more key))
        (.ok fun rank => result rank key) (log key))
    (holds : ready before) :
    Phase n eager before (fun rank => keys.mapM (operation rank))
      (before.deliver channel fun rank => keys.flatMap fun key => more key rank)
      (.ok fun rank => keys.map (result rank))
      (fun rank => keys.flatMap fun key => log key rank) := by
  induction keys generalizing before with
  | nil =>
      have nothing := before.deliver_nil channel
      simp only [List.flatMap_nil, nothing]
      exact Phase.pure fun _ => []
  | cons key rest inductionHypothesis =>
      have head := phases key (by simp) before holds
      have tail := inductionHypothesis
        (fun other member => phases other (by simp [member]))
        (keeps before key holds)
      rw [Arrivals.deliver_deliver] at tail
      have composed : Phase n eager before
          (fun rank => do
            let value ← operation rank key
            let values ← rest.mapM (operation rank)
            Process.pure (value :: values))
          _ (.ok fun rank => (key :: rest).map (result rank))
          (fun rank => log key rank ++ rest.flatMap fun other => log other rank) :=
        head.bind (tail.map fun rank values => result rank key :: values)
      refine composed.congr fun rank _ => ?_
      exact List.mapM_cons

/-- All ranks run the same list of operations. -/
theorem mapM
    {κ : Type}
    {operation : Nat → κ → Process I α}
    {result : Nat → κ → α}
    {log : κ → Nat → List (Event I)}
    (keys : List κ)
    (phases : ∀ key ∈ keys,
      Phase n eager before (fun rank => operation rank key) before
        (.ok fun rank => result rank key) (log key)) :
    Phase n eager before (fun rank => keys.mapM (operation rank)) before
      (.ok fun rank => keys.map (result rank))
      (fun rank => keys.flatMap fun key => log key rank) := by
  induction keys with
  | nil => exact Phase.pure fun _ => []
  | cons key rest inductionHypothesis =>
      have head := phases key (by simp)
      have tail := inductionHypothesis fun other member =>
        phases other (by simp [member])
      have composed : Phase n eager before
          (fun rank => do
            let value ← operation rank key
            let values ← rest.mapM (operation rank)
            Process.pure (value :: values))
          before (.ok fun rank => (key :: rest).map (result rank))
          (fun rank => log key rank ++ rest.flatMap fun other => log other rank) :=
        head.bind (tail.map fun rank values => result rank key :: values)
      refine composed.congr fun rank _ => ?_
      exact List.mapM_cons

end Phase

/-- Which ranks every rank exchanges messages with. -/
structure Neighbours (n : Nat) (peers : Nat → List Nat) : Prop where
  distinct : ∀ rank, rank < n → (peers rank).Nodup
  bounded : ∀ rank, rank < n → ∀ peer ∈ peers rank, peer < n
  symmetric : ∀ rank peer, rank < n → peer < n →
    (peer ∈ peers rank ↔ rank ∈ peers peer)

/-- In a list of distinct keys paired with values, filtering by a key that
occurs leaves its one pair. -/
theorem filter_map_pair_of_mem
    {κ ν : Type}
    [DecidableEq κ]
    {keys : List κ}
    (distinct : keys.Nodup)
    (value : κ → ν)
    {key : κ}
    (member : key ∈ keys) :
    (keys.map fun other => (other, value other)).filter (fun pair => pair.1 = key) =
      [(key, value key)] := by
  induction keys with
  | nil => simp at member
  | cons head tail inductionHypothesis =>
      rw [List.nodup_cons] at distinct
      by_cases same : head = key
      · subst same
        have absent : (tail.map fun other => (other, value other)).filter
            (fun pair => pair.1 = head) = [] := by
          rw [List.filter_eq_nil_iff]
          intro pair pairMember
          obtain ⟨other, otherMember, rfl⟩ := List.mem_map.mp pairMember
          simpa using fun equal : other = head =>
            distinct.1 (equal ▸ otherMember)
        simp [absent]
      · have memberTail : key ∈ tail := by
          rcases List.mem_cons.mp member with equal | rest
          · exact absurd equal.symm same
          · exact rest
        simp [same, inductionHypothesis distinct.2 memberTail]

/-- Filtering by a key that does not occur leaves nothing. -/
theorem filter_map_pair_of_notMem
    {κ ν : Type}
    [DecidableEq κ]
    {keys : List κ}
    (value : κ → ν)
    {key : κ}
    (absent : key ∉ keys) :
    (keys.map fun other => (other, value other)).filter (fun pair => pair.1 = key) =
      [] := by
  rw [List.filter_eq_nil_iff]
  intro pair pairMember
  obtain ⟨other, otherMember, rfl⟩ := List.mem_map.mp pairMember
  simpa using fun equal : other = key => absent (equal ▸ otherMember)

/-- Every rank sends one message to each of its peers and posts one receive for
each of them. -/
theorem Phase.exchange
    {n : Nat}
    {eager : Eagerness I}
    {before : Arrivals I}
    {peers : Nat → List Nat}
    (neighbours : Neighbours n peers)
    (channel : I.Channel)
    (message : Nat → Nat → I.Message channel)
    (request : Nat → Nat → I.Request channel) :
    Phase n eager before
      (fun rank => do
        Process.sendEach channel
          ((peers rank).map fun peer => (peer, message rank peer))
        Process.postEach channel
          ((peers rank).map fun peer => (peer, request rank peer)))
      (before.deliver channel fun rank =>
        (peers rank).map fun peer => (request rank peer, message peer rank))
      (.ok fun _ => ())
      (fun rank =>
        ((peers rank).map fun peer => .sent channel peer (message rank peer)) ++
          (peers rank).map fun peer =>
            .posted channel peer (request rank peer)) := by
  intro β continuation configuration resolved atStart
  let sends := fun rank => (peers rank).map fun peer => (peer, message rank peer)
  let posts := fun rank => (peers rank).map fun peer => (peer, request rank peer)
  have sendKeys : ∀ rank, (sends rank).map (·.1) = peers rank := by
    intro rank
    simp [sends, Function.comp_def]
  have postKeys : ∀ rank, (posts rank).map (·.1) = peers rank := by
    intro rank
    simp [posts, Function.comp_def]
  have drives : ∀ rank, rank < n →
      Configuration.Drives n eager configuration rank
        ⟨continuation rank (),
          ((configuration rank).port.sendAll channel (sends rank)).postAll
            channel (posts rank),
          (configuration rank).log ++
            (((peers rank).map fun peer =>
                .sent channel peer (message rank peer)) ++
              (peers rank).map fun peer =>
                .posted channel peer (request rank peer))⟩ := by
    intro rank rankBound
    have sending : Configuration.Drives n eager configuration rank _ :=
      Configuration.drives_sendEach rankBound
      channel (sends rank)
      (fun _ => Process.postEach channel (posts rank) >>= continuation rank)
      configuration (by
        rw [atStart rank rankBound]
        exact Process.bind_bind _ _ _)
    have posting : Configuration.Drives n eager _ rank _ :=
      Configuration.drives_postEach rankBound
      channel (posts rank) (continuation rank)
      (Function.update configuration rank
        ⟨Process.postEach channel (posts rank) >>= continuation rank,
          (configuration rank).port.sendAll channel (sends rank),
          (configuration rank).log ++
            (sends rank).map fun send => .sent channel send.1 send.2⟩)
      (by simp)
    have both := sending.trans posting
    simpa [sends, posts, Function.comp_def, List.append_assoc] using both
  obtain ⟨final, reached, moved, _⟩ := Configuration.reaches_all drives
  have extended := Configuration.extends_of_reaches reached
  have sentAfter : ∀ source dest, source < n →
      (final source).port.sent channel dest =
        (configuration source).port.sent channel dest ++
          ((sends source).filter fun send => send.1 = dest).map (·.2) := by
    intro source dest sourceBound
    rw [moved source sourceBound, Port.postAll_sent, Port.sendAll_sent]
  have postedAfter : ∀ dest source, dest < n →
      (final dest).port.posted channel source =
        (configuration dest).port.posted channel source +
          ((posts dest).filter fun post => post.1 = source).length := by
    intro dest source destBound
    rw [moved dest destBound, Port.postAll_posted, Port.sendAll_posted]
  refine ⟨final, reached, ⟨?_, ?_, ?_⟩, fun rank rankBound => ?_⟩
  · intro other source dest sourceBound destBound
    by_cases same : other = channel
    · subst same
      rw [sentAfter source dest sourceBound, postedAfter dest source destBound,
        List.length_append, List.length_map,
        resolved.balanced other source dest sourceBound destBound]
      by_cases adjacent : dest ∈ peers source
      · rw [filter_map_pair_of_mem (neighbours.distinct source sourceBound) _
          adjacent,
          filter_map_pair_of_mem (neighbours.distinct dest destBound) _
          ((neighbours.symmetric source dest sourceBound destBound).mp adjacent)]
        rfl
      · rw [filter_map_pair_of_notMem _ adjacent,
          filter_map_pair_of_notMem _ fun reverse => adjacent
            ((neighbours.symmetric source dest sourceBound destBound).mpr reverse)]
        rfl
    · rw [moved source sourceBound, moved dest destBound, Port.postAll_sent,
        Port.sendAll_sent_of_ne _ same, Port.postAll_posted_of_ne _ same,
        Port.sendAll_posted]
      exact resolved.balanced other source dest sourceBound destBound
  · intro other rank rankBound pending member
    rw [moved rank rankBound, Port.postAll_sending] at member
    by_cases same : other = channel
    · subst same
      rw [Port.sendAll_sending _ _ _
        (by rw [sendKeys]; exact neighbours.distinct rank rankBound)] at member
      rcases List.mem_append.mp member with earlier | fresh
      · exact (resolved.sends_matched other rank rankBound pending
          earlier).trans_le ((extended pending.1).2 other rank)
      · obtain ⟨send, sendMember, rfl⟩ := List.mem_map.mp fresh
        have adjacent : send.1 ∈ peers rank := by
          rw [← sendKeys rank]
          exact List.mem_map_of_mem sendMember
        have peerBound := neighbours.bounded rank rankBound send.1 adjacent
        rw [postedAfter send.1 rank peerBound,
          filter_map_pair_of_mem (neighbours.distinct send.1 peerBound) _
            ((neighbours.symmetric rank send.1 rankBound peerBound).mp adjacent),
          resolved.balanced other rank send.1 rankBound peerBound]
        simp
    · rw [Port.sendAll_sending_of_ne _ same] at member
      exact (resolved.sends_matched other rank rankBound pending
        member).trans_le ((extended pending.1).2 other rank)
  · intro other rank rankBound
    rw [moved rank rankBound]
    by_cases same : other = channel
    · subst same
      rw [Port.postAll_receiving _ _ _
        (by rw [postKeys]; exact neighbours.distinct rank rankBound),
        Port.sendAll_receiving, Port.sendAll_posted, List.map_append]
      simp only [Arrivals.deliver, Function.update_self, List.map_append]
      congr 1
      · exact Configuration.arrivals_mono extended
          (resolved.receives_matched other rank rankBound)
      · simp only [posts, List.map_map]
        apply List.map_congr_left
        intro peer member
        have peerBound := neighbours.bounded rank rankBound peer member
        simp only [Function.comp_apply, Configuration.arrival]
        rw [sentAfter peer rank peerBound,
          ← resolved.balanced other peer rank peerBound rankBound,
          List.getElem?_append_right (Nat.le_refl _), Nat.sub_self,
          filter_map_pair_of_mem (neighbours.distinct peer peerBound) _
            ((neighbours.symmetric rank peer rankBound peerBound).mp member)]
        rfl
    · rw [Port.postAll_receiving_of_ne _ same, Port.sendAll_receiving]
      simp only [Arrivals.deliver, Function.update_of_ne same]
      exact Configuration.arrivals_mono extended
        (resolved.receives_matched other rank rankBound)
  · rw [moved rank rankBound]
    exact ⟨rfl, rfl⟩

end Spmd
