import DistributedJoin.Spmd.Interleaving
import Mathlib.Data.List.Infix
import Mathlib.Logic.Function.Basic

/-!
# Message-passing processes

A fixed family of sequential processes that exchange messages over channels.
On every channel the messages from one process to another are matched in order:
the receive a process posts as its `k`-th from a peer gets the `k`-th message
the peer sends to it. Sends and receives are posted without blocking and
`waitall` blocks until everything posted on a channel has completed. Whether a
send completes on its own or only once its receive has been posted is left to a
parameter.

Each endpoint only ever changes its own state, and the condition it waits for
stays true once it holds. So steps of different endpoints commute.
-/

namespace Spmd

/-- What the processes of a system exchange: channels, the messages on each
channel, the local description of a posted receive, and the notes a process may
leave in its own log. -/
structure Interface where
  /-- Channels between every ordered pair of processes. -/
  Channel : Type
  /-- Messages carried by a channel. -/
  Message : Channel → Type
  /-- What a process remembers about a receive it has posted. -/
  Request : Channel → Type
  /-- Observations a process records in its log. -/
  Note : Type
  /-- Channels can be told apart. -/
  [channelEquality : DecidableEq Channel]

attribute [instance] Interface.channelEquality

/-- A sequential process that returns a value of type `α`. -/
inductive Process (I : Interface) (α : Type) : Type
  | pure (value : α)
  | fail (reason : String)
  | note (observation : I.Note) (next : Process I α)
  | send
      (channel : I.Channel)
      (dest : Nat)
      (message : I.Message channel)
      (next : Process I α)
  | post
      (channel : I.Channel)
      (source : Nat)
      (request : I.Request channel)
      (next : Process I α)
  | waitall
      (channel : I.Channel)
      (next : List (I.Request channel × I.Message channel) → Process I α)

namespace Process

variable {I : Interface} {α β γ : Type}

/-- Sequential composition. -/
def bind : Process I α → (α → Process I β) → Process I β
  | .pure value, continuation => continuation value
  | .fail reason, _ => .fail reason
  | .note observation next, continuation =>
      .note observation (next.bind continuation)
  | .send channel dest message next, continuation =>
      .send channel dest message (next.bind continuation)
  | .post channel source request next, continuation =>
      .post channel source request (next.bind continuation)
  | .waitall channel next, continuation =>
      .waitall channel fun arrivals => (next arrivals).bind continuation

instance : Monad (Process I) where
  pure := .pure
  bind := .bind

/-- Returning a value and continuing is continuing with that value. -/
@[simp] theorem pure_bind
    (value : α)
    (continuation : α → Process I β) :
    (Process.pure value >>= continuation) = continuation value := rfl

@[simp] theorem fail_bind
    (reason : String)
    (continuation : α → Process I β) :
    (Process.fail reason >>= continuation) = .fail reason := rfl

@[simp] theorem note_bind
    (observation : I.Note)
    (next : Process I α)
    (continuation : α → Process I β) :
    (Process.note observation next >>= continuation) =
      .note observation (next >>= continuation) := rfl

@[simp] theorem send_bind
    (channel : I.Channel)
    (dest : Nat)
    (message : I.Message channel)
    (next : Process I α)
    (continuation : α → Process I β) :
    (Process.send channel dest message next >>= continuation) =
      .send channel dest message (next >>= continuation) := rfl

@[simp] theorem post_bind
    (channel : I.Channel)
    (source : Nat)
    (request : I.Request channel)
    (next : Process I α)
    (continuation : α → Process I β) :
    (Process.post channel source request next >>= continuation) =
      .post channel source request (next >>= continuation) := rfl

@[simp] theorem waitall_bind
    (channel : I.Channel)
    (next : List (I.Request channel × I.Message channel) → Process I α)
    (continuation : α → Process I β) :
    (Process.waitall channel next >>= continuation) =
      .waitall channel fun arrivals => next arrivals >>= continuation := rfl

/-- Sequential composition is associative. -/
theorem bind_bind
    (process : Process I α)
    (first : α → Process I β)
    (second : β → Process I γ) :
    ((process >>= first) >>= second) =
      (process >>= fun value => first value >>= second) := by
  induction process with
  | pure value => rfl
  | fail reason => rfl
  | note observation next inductionHypothesis =>
      simp only [note_bind, inductionHypothesis]
  | send channel dest message next inductionHypothesis =>
      simp only [send_bind, inductionHypothesis]
  | post channel source request next inductionHypothesis =>
      simp only [post_bind, inductionHypothesis]
  | waitall channel next inductionHypothesis =>
      simp only [waitall_bind, inductionHypothesis]

/-- Returning the result of a process changes nothing. -/
theorem bind_pure_self (process : Process I α) :
    (process >>= Process.pure) = process := by
  induction process with
  | pure value => rfl
  | fail reason => rfl
  | note observation next inductionHypothesis =>
      simp only [note_bind, inductionHypothesis]
  | send channel dest message next inductionHypothesis =>
      simp only [send_bind, inductionHypothesis]
  | post channel source request next inductionHypothesis =>
      simp only [post_bind, inductionHypothesis]
  | waitall channel next inductionHypothesis =>
      simp only [waitall_bind, inductionHypothesis]

instance : LawfulMonad (Process I) :=
  LawfulMonad.mk' (Process I) bind_pure_self (fun _ _ => rfl) bind_bind

/-- Leave an observation in the log. -/
def observe (observation : I.Note) : Process I Unit :=
  .note observation (.pure ())

/-- Send one message to each listed destination, in order. -/
def sendEach
    (channel : I.Channel) :
    List (Nat × I.Message channel) → Process I Unit
  | [] => .pure ()
  | (dest, message) :: rest => .send channel dest message (sendEach channel rest)

/-- Post one receive for each listed source, in order. -/
def postEach
    (channel : I.Channel) :
    List (Nat × I.Request channel) → Process I Unit
  | [] => .pure ()
  | (source, request) :: rest => .post channel source request (postEach channel rest)

/-- Wait for everything posted on a channel, and return what arrived for the
posted receives in posting order. -/
def await
    (channel : I.Channel) :
    Process I (List (I.Request channel × I.Message channel)) :=
  .waitall channel .pure

end Process

/-- What an endpoint has done so far. -/
inductive Event (I : Interface) : Type
  | noted (observation : I.Note)
  | sent (channel : I.Channel) (dest : Nat) (message : I.Message channel)
  | posted (channel : I.Channel) (source : Nat) (request : I.Request channel)
  | waited (channel : I.Channel)

/-- The communication state an endpoint owns. Sends and receives are numbered
for each channel and peer. -/
structure Port (I : Interface) where
  /-- All messages sent to a peer, oldest first. -/
  sent : (channel : I.Channel) → Nat → List (I.Message channel)
  /-- How many receives have been posted for a peer. -/
  posted : I.Channel → Nat → Nat
  /-- Destination and number of the sends not yet waited for. -/
  sending : I.Channel → List (Nat × Nat)
  /-- Source, number and request of the receives not yet waited for. -/
  receiving : (channel : I.Channel) → List (Nat × Nat × I.Request channel)

namespace Port

variable {I : Interface}

/-- Nothing sent and nothing posted. -/
def empty : Port I where
  sent := fun _ _ => []
  posted := fun _ _ => 0
  sending := fun _ => []
  receiving := fun _ => []

/-- Record one send. -/
def send
    (port : Port I)
    (channel : I.Channel)
    (dest : Nat)
    (message : I.Message channel) : Port I :=
  { port with
    sent := Function.update port.sent channel
      (Function.update (port.sent channel) dest
        (port.sent channel dest ++ [message]))
    sending := Function.update port.sending channel
      (port.sending channel ++ [(dest, (port.sent channel dest).length)]) }

/-- Record one posted receive. -/
def post
    (port : Port I)
    (channel : I.Channel)
    (source : Nat)
    (request : I.Request channel) : Port I :=
  { port with
    posted := Function.update port.posted channel
      (Function.update (port.posted channel) source
        (port.posted channel source + 1))
    receiving := Function.update port.receiving channel
      (port.receiving channel ++ [(source, port.posted channel source, request)]) }

/-- Forget everything that was waited for on a channel. -/
def settle (port : Port I) (channel : I.Channel) : Port I :=
  { port with
    sending := Function.update port.sending channel []
    receiving := Function.update port.receiving channel [] }

/-- One port offers at least what another offers to its peers. -/
def Extends (earlier later : Port I) : Prop :=
  (∀ channel dest, earlier.sent channel dest <+: later.sent channel dest) ∧
    ∀ channel source, earlier.posted channel source ≤ later.posted channel source

theorem Extends.refl (port : Port I) : port.Extends port :=
  ⟨fun _ _ => List.prefix_rfl, fun _ _ => Nat.le_refl _⟩

theorem Extends.trans
    {first second third : Port I}
    (left : first.Extends second)
    (right : second.Extends third) :
    first.Extends third :=
  ⟨fun channel dest => (left.1 channel dest).trans (right.1 channel dest),
    fun channel source => (left.2 channel source).trans (right.2 channel source)⟩

theorem extends_send
    (port : Port I)
    (channel : I.Channel)
    (dest : Nat)
    (message : I.Message channel) :
    port.Extends (port.send channel dest message) := by
  refine ⟨fun other peer => ?_, fun _ _ => Nat.le_refl _⟩
  simp only [send]
  by_cases sameChannel : other = channel
  · subst sameChannel
    by_cases samePeer : peer = dest
    · subst samePeer
      simp
    · simp [samePeer]
  · simp [sameChannel]

theorem extends_post
    (port : Port I)
    (channel : I.Channel)
    (source : Nat)
    (request : I.Request channel) :
    port.Extends (port.post channel source request) := by
  refine ⟨fun _ _ => List.prefix_rfl, fun other peer => ?_⟩
  simp only [post]
  by_cases sameChannel : other = channel
  · subst sameChannel
    by_cases samePeer : peer = source
    · subst samePeer
      simp
    · simp [samePeer]
  · simp [sameChannel]

theorem extends_settle (port : Port I) (channel : I.Channel) :
    port.Extends (port.settle channel) :=
  Extends.refl port

end Port

/-- One process together with its port and its log. -/
structure Endpoint (I : Interface) (α : Type) where
  process : Process I α
  port : Port I
  log : List (Event I)

/-- A state of the whole system. -/
abbrev Configuration (I : Interface) (α : Type) := Nat → Endpoint I α

/-- Which sends complete without waiting for the matching receive: by channel,
source, destination and number of the send. -/
abbrev Eagerness (I : Interface) := I.Channel → Nat → Nat → Nat → Bool

namespace Configuration

variable {I : Interface} {α : Type}

/-- Whether a send has completed. -/
def SendDone
    (eager : Eagerness I)
    (configuration : Configuration I α)
    (rank : Nat)
    (channel : I.Channel)
    (pending : Nat × Nat) : Prop :=
  eager channel rank pending.1 pending.2 = true ∨
    pending.2 < (configuration pending.1).port.posted channel rank

instance
    (eager : Eagerness I)
    (configuration : Configuration I α)
    (rank : Nat)
    (channel : I.Channel)
    (pending : Nat × Nat) :
    Decidable (SendDone eager configuration rank channel pending) :=
  inferInstanceAs (Decidable (_ ∨ _))

/-- The message matched with a posted receive, if it has been sent. -/
def arrival
    (configuration : Configuration I α)
    (rank : Nat)
    (channel : I.Channel)
    (pending : Nat × Nat × I.Request channel) :
    Option (I.Request channel × I.Message channel) :=
  ((configuration pending.1).port.sent channel rank)[pending.2.1]?.map
    fun message => (pending.2.2, message)

/-- What a wait on a channel returns, once everything posted has completed. -/
def settled
    (eager : Eagerness I)
    (configuration : Configuration I α)
    (rank : Nat)
    (channel : I.Channel) :
    Option (List (I.Request channel × I.Message channel)) :=
  if (∀ pending ∈ (configuration rank).port.sending channel,
        SendDone eager configuration rank channel pending) ∧
      ∀ pending ∈ (configuration rank).port.receiving channel,
        (arrival configuration rank channel pending).isSome then
    some (((configuration rank).port.receiving channel).filterMap
      (arrival configuration rank channel))
  else none

/-- The endpoint after its next step, if it has one. -/
def advance
    (eager : Eagerness I)
    (configuration : Configuration I α)
    (rank : Nat) : Option (Endpoint I α) :=
  match (configuration rank).process with
  | .pure _ => none
  | .fail _ => none
  | .note observation next =>
      some ⟨next, (configuration rank).port,
        (configuration rank).log ++ [.noted observation]⟩
  | .send channel dest message next =>
      some ⟨next, (configuration rank).port.send channel dest message,
        (configuration rank).log ++ [.sent channel dest message]⟩
  | .post channel source request next =>
      some ⟨next, (configuration rank).port.post channel source request,
        (configuration rank).log ++ [.posted channel source request]⟩
  | .waitall channel next =>
      (settled eager configuration rank channel).map fun arrivals =>
        ⟨next arrivals, (configuration rank).port.settle channel,
          (configuration rank).log ++ [.waited channel]⟩

/-- One step of one rank of a system of `n` ranks. -/
def step
    (n : Nat)
    (eager : Eagerness I)
    (rank : Fin n)
    (configuration : Configuration I α) : Option (Configuration I α) :=
  (advance eager configuration rank).map (Function.update configuration rank)

/-- Every port offers at least what it offered before. -/
def Extends (earlier later : Configuration I α) : Prop :=
  ∀ rank, (earlier rank).port.Extends (later rank).port

theorem Extends.refl (configuration : Configuration I α) :
    configuration.Extends configuration :=
  fun _ => .refl _

theorem Extends.trans
    {first second third : Configuration I α}
    (left : first.Extends second)
    (right : second.Extends third) :
    first.Extends third :=
  fun rank => (left rank).trans (right rank)

/-- Replacing one endpoint by a later one extends the configuration. -/
theorem extends_update
    {configuration : Configuration I α}
    {rank : Nat}
    {endpoint : Endpoint I α}
    (later : (configuration rank).port.Extends endpoint.port) :
    configuration.Extends (Function.update configuration rank endpoint) := by
  intro other
  by_cases same : other = rank
  · subst same
    simpa using later
  · simpa [same] using Port.Extends.refl _

/-- A send that has completed stays completed. -/
theorem SendDone.mono
    {eager : Eagerness I}
    {earlier later : Configuration I α}
    {rank : Nat}
    {channel : I.Channel}
    {pending : Nat × Nat}
    (extended : earlier.Extends later)
    (done : SendDone eager earlier rank channel pending) :
    SendDone eager later rank channel pending := by
  rcases done with eagerly | matched
  · exact .inl eagerly
  · exact .inr (matched.trans_le ((extended pending.1).2 channel rank))

/-- A message that has been sent stays where it is. -/
theorem arrival_mono
    {earlier later : Configuration I α}
    {rank : Nat}
    {channel : I.Channel}
    {pending : Nat × Nat × I.Request channel}
    {result : I.Request channel × I.Message channel}
    (extended : earlier.Extends later)
    (arrived : arrival earlier rank channel pending = some result) :
    arrival later rank channel pending = some result := by
  unfold arrival at arrived ⊢
  obtain ⟨message, found, resultEquality⟩ := Option.map_eq_some_iff.mp arrived
  obtain ⟨suffix, laterEquality⟩ := (extended pending.1).1 channel rank
  have present : pending.2.1 <
      ((earlier pending.1).port.sent channel rank).length :=
    (List.getElem?_eq_some_iff.mp found).1
  rw [← laterEquality, List.getElem?_append_left present, found]
  simp [resultEquality]

/-- A wait returns once every send has completed and every receive has its
message. -/
theorem settled_eq_some
    {eager : Eagerness I}
    {configuration : Configuration I α}
    {rank : Nat}
    {channel : I.Channel}
    {arrivals : List (I.Request channel × I.Message channel)}
    (sendsDone : ∀ pending ∈ (configuration rank).port.sending channel,
      SendDone eager configuration rank channel pending)
    (receivesDone : ((configuration rank).port.receiving channel).map
      (arrival configuration rank channel) = arrivals.map some) :
    settled eager configuration rank channel = some arrivals := by
  have present : ∀ pending ∈ (configuration rank).port.receiving channel,
      (arrival configuration rank channel pending).isSome := by
    intro pending member
    have mapped := List.mem_map_of_mem
      (f := arrival configuration rank channel) member
    rw [receivesDone] at mapped
    obtain ⟨result, _, resultEquality⟩ := List.mem_map.mp mapped
    rw [← resultEquality]
    rfl
  unfold settled
  rw [if_pos ⟨sendsDone, present⟩]
  calc
    some (((configuration rank).port.receiving channel).filterMap
        (arrival configuration rank channel)) =
        some ((((configuration rank).port.receiving channel).map
          (arrival configuration rank channel)).filterMap id) := by
      simp [List.filterMap_map]
    _ = some arrivals := by
      rw [receivesDone]
      simp [List.filterMap_map]

/-- What an endpoint can do in one configuration it can do in every later
configuration in which it has not moved itself. -/
theorem advance_mono
    {eager : Eagerness I}
    {earlier later : Configuration I α}
    {rank : Nat}
    {endpoint : Endpoint I α}
    (same : later rank = earlier rank)
    (extended : earlier.Extends later)
    (moved : advance eager earlier rank = some endpoint) :
    advance eager later rank = some endpoint := by
  unfold advance at moved ⊢
  rw [same]
  generalize earlierProcess : (earlier rank).process = process at moved ⊢
  cases process with
  | pure value => exact moved
  | fail reason => exact moved
  | note observation next => exact moved
  | send channel dest message next => exact moved
  | post channel source request next => exact moved
  | waitall channel next =>
      simp only [Option.map_eq_some_iff] at moved ⊢
      obtain ⟨arrivals, settledEarlier, endpointEquality⟩ := moved
      refine ⟨arrivals, ?_, endpointEquality⟩
      unfold settled at settledEarlier ⊢
      rw [same]
      split at settledEarlier
      · rename_i complete
        obtain ⟨sendsDone, receivesDone⟩ := complete
        have unchanged : ∀ pending ∈ (earlier rank).port.receiving channel,
            arrival later rank channel pending =
              arrival earlier rank channel pending := by
          intro pending member
          obtain ⟨result, arrived⟩ :=
            Option.isSome_iff_exists.mp (receivesDone pending member)
          rw [arrived]
          exact arrival_mono extended arrived
        rw [if_pos ⟨fun pending member => (sendsDone pending member).mono extended,
          fun pending member => by
            rw [unchanged pending member]
            exact receivesDone pending member⟩]
        rw [List.filterMap_congr unchanged]
        exact settledEarlier
      · contradiction

/-- A step only adds to the port of the endpoint that takes it. -/
theorem extends_of_advance
    {eager : Eagerness I}
    {configuration : Configuration I α}
    {rank : Nat}
    {endpoint : Endpoint I α}
    (moved : advance eager configuration rank = some endpoint) :
    (configuration rank).port.Extends endpoint.port := by
  unfold advance at moved
  generalize (configuration rank).process = process at moved
  cases process with
  | pure value => contradiction
  | fail reason => contradiction
  | note observation next =>
      cases moved
      exact .refl _
  | send channel dest message next =>
      cases moved
      exact Port.extends_send _ _ _ _
  | post channel source request next =>
      cases moved
      exact Port.extends_post _ _ _ _
  | waitall channel next =>
      obtain ⟨arrivals, _, endpointEquality⟩ := Option.map_eq_some_iff.mp moved
      rw [← endpointEquality]
      exact Port.extends_settle _ _

/-- A step only adds to the log of the endpoint that takes it. -/
theorem log_prefix_of_advance
    {eager : Eagerness I}
    {configuration : Configuration I α}
    {rank : Nat}
    {endpoint : Endpoint I α}
    (moved : advance eager configuration rank = some endpoint) :
    (configuration rank).log <+: endpoint.log := by
  unfold advance at moved
  generalize (configuration rank).process = process at moved
  cases process with
  | pure value => contradiction
  | fail reason => contradiction
  | note observation next =>
      cases moved
      exact List.prefix_append _ _
  | send channel dest message next =>
      cases moved
      exact List.prefix_append _ _
  | post channel source request next =>
      cases moved
      exact List.prefix_append _ _
  | waitall channel next =>
      obtain ⟨arrivals, _, endpointEquality⟩ := Option.map_eq_some_iff.mp moved
      rw [← endpointEquality]
      exact List.prefix_append _ _

/-- Steps of different ranks commute. -/
theorem step_commutes (n : Nat) (eager : Eagerness I) :
    Commutes (step (α := α) n eager) := by
  intro first second state left right different leftTaken rightTaken
  obtain ⟨leftEndpoint, leftMoved, rfl⟩ := Option.map_eq_some_iff.mp leftTaken
  obtain ⟨rightEndpoint, rightMoved, rfl⟩ := Option.map_eq_some_iff.mp rightTaken
  have ranksDiffer : (first : Nat) ≠ second := fun equal =>
    different (Fin.ext equal)
  have rightAfterLeft :
      advance eager (Function.update state first leftEndpoint) second =
        some rightEndpoint :=
    advance_mono (Function.update_of_ne ranksDiffer.symm _ _)
      (extends_update (extends_of_advance leftMoved)) rightMoved
  have leftAfterRight :
      advance eager (Function.update state second rightEndpoint) first =
        some leftEndpoint :=
    advance_mono (Function.update_of_ne ranksDiffer _ _)
      (extends_update (extends_of_advance rightMoved)) leftMoved
  refine ⟨Function.update (Function.update state first leftEndpoint) second
    rightEndpoint, ?_, ?_⟩
  · rw [step, rightAfterLeft]
    rfl
  · rw [step, leftAfterRight, Function.update_comm ranksDiffer]
    rfl

/-- Along a run every log only grows. -/
theorem log_prefix_of_reaches
    {n : Nat}
    {eager : Eagerness I}
    {start finish : Configuration I α}
    (reaches : Reaches (step n eager) start finish)
    (rank : Nat) :
    (start rank).log <+: (finish rank).log := by
  refine Reaches.lift
    (fun earlier later : Configuration I α =>
      (earlier rank).log <+: (later rank).log)
    (fun _ => List.prefix_rfl) (fun _ _ _ => List.IsPrefix.trans) ?_ reaches
  intro component earlier later taken
  obtain ⟨endpoint, moved, rfl⟩ := Option.map_eq_some_iff.mp taken
  by_cases same : rank = component
  · subst same
    simpa using log_prefix_of_advance moved
  · simp [same]

/-- Along a run every port only grows. -/
theorem extends_of_reaches
    {n : Nat}
    {eager : Eagerness I}
    {start finish : Configuration I α}
    (reaches : Reaches (step n eager) start finish) :
    start.Extends finish := by
  refine Reaches.lift Extends Extends.refl
    (fun _ _ _ => Extends.trans) ?_ reaches
  intro component earlier later taken
  obtain ⟨endpoint, moved, rfl⟩ := Option.map_eq_some_iff.mp taken
  exact extends_update (extends_of_advance moved)

end Configuration

end Spmd
