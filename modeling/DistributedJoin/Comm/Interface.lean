import DistributedJoin.Cudf.Table
import DistributedJoin.Spmd.Attempts

/-!
# What ranks exchange and record

Ranks talk over two channels: MPI messages with the tag for exchanged sizes,
and the transfers of the communicator between `start` and `stop`. Besides the
messages, the log of a rank keeps what the join does with device memory. Read
pair by pair, a log gives the transfers that a rank sends to and expects from
each of its peers, group by group.
-/

namespace DistributedJoin

open Device Spmd

/-- A buffer that belongs to a column of a table. -/
inductive DevicePtr
  /-- The elements of a fixed-width column. -/
  | data (icol : Nat)
  /-- The sizes of all strings of a string column. -/
  | sizes (icol : Nat)
  /-- The characters of a string column. -/
  | chars (icol : Nat)
  deriving DecidableEq

/-- A buffer in device memory: that of a column, or its compressed form. -/
inductive Buffer
  | plain (ptr : DevicePtr)
  | compressed (ptr : DevicePtr)
  deriving DecidableEq

/-- What is passed to `Communicator::send`: elements of a buffer, with the bytes
found there. -/
structure Transfer where
  source : Buffer
  start : Int
  bytes : List Byte
  count : Int
  element_size : Nat
  deriving DecidableEq

/-- What is passed to `Communicator::recv`: where the elements go. -/
structure Landing where
  target : Buffer
  start : Int
  count : Int
  element_size : Nat
  deriving DecidableEq

/-- The two ways of communication between ranks. -/
inductive Channel
  /-- MPI messages that carry one size. -/
  | mpi
  /-- The communicator, for buffers in device memory. -/
  | communicator
  deriving DecidableEq

/-- The two tables of a join. -/
inductive Side
  | left
  | right
  deriving DecidableEq

/-- What a rank records besides its messages. -/
inductive Note
  /-- `Communicator::start` was called. -/
  | start
  /-- Bytes were copied from one buffer of the rank to another. -/
  | copied (target : Buffer) (target_start : Int)
      (source : Buffer) (source_start : Int) (length : Nat)
  /-- `communicate_sizes` returned. -/
  | returned (recv_offset : List Int)
  /-- The table of a batch was received. -/
  | communicated (side : Side) (ibatch : Nat) (table : Table)
  /-- The flag of a batch was set. -/
  | flag (ibatch : Nat)
  deriving DecidableEq

/-- Sizes over MPI and transfers over the communicator. A rank remembers the
slot of the array that a size is received into. -/
abbrev ranks : Interface where
  Channel := Channel
  Message
    | .mpi => Int
    | .communicator => Transfer
  Request
    | .mpi => Nat
    | .communicator => Landing
  Note := Note

/-- The communicator as seen by one rank. -/
structure Communicator where
  mpi_rank : Nat
  mpi_size : Nat
  /-- Whether all buffers of a table are sent in one group. -/
  group_by_batch : Bool

namespace Communicator

/-- Begin a group of sends and receives. -/
def start : Process ranks Unit := Process.observe Note.start

/-- Wait until the sends and receives of the group have completed. -/
def stop : Process ranks (List (Landing × Transfer)) :=
  Process.await (I := ranks) .communicator

end Communicator

/-- A range of bytes of a buffer. -/
structure Extent where
  start : Int
  length : Int
  deriving DecidableEq

namespace Extent

/-- The range has a byte in common with another, given by its ends. -/
def Meets (extent : Extent) (first last : Int) : Prop :=
  max extent.start first < min (extent.start + extent.length) last

/-- The range contains another, given by its ends. -/
def Contains (extent : Extent) (first last : Int) : Prop :=
  extent.start ≤ first ∧ last ≤ extent.start + extent.length

instance (extent : Extent) (first last : Int) : Decidable (extent.Meets first last) :=
  inferInstanceAs (Decidable (_ < _))

instance (extent : Extent) (first last : Int) :
    Decidable (extent.Contains first last) :=
  inferInstanceAs (Decidable (_ ∧ _))

end Extent

/-- The ways to access a buffer. -/
inductive Access
  | read
  | write

/-- The bytes of a buffer that an event reads or writes: sends read them,
receives write them, and copies do both. -/
def accessed (access : Access) (buffer : Buffer) : Event ranks → Option Extent
  | .sent .communicator _ transfer =>
      match access with
      | .read =>
          if transfer.source = buffer then
            some ⟨transfer.start, transfer.count * transfer.element_size⟩
          else none
      | .write => none
  | .posted .communicator _ landing =>
      match access with
      | .read => none
      | .write =>
          if landing.target = buffer then
            some ⟨landing.start, landing.count * landing.element_size⟩
          else none
  | .noted (.copied target target_start source source_start length) =>
      match access with
      | .read => if source = buffer then some ⟨source_start, length⟩ else none
      | .write => if target = buffer then some ⟨target_start, length⟩ else none
  | _ => none

/-- All accesses of a rank to a buffer. -/
def accesses
    (access : Access)
    (buffer : Buffer)
    (log : List (Event ranks)) : List Extent :=
  log.filterMap (accessed access buffer)

/-- A group of sends or receives of a rank, as seen from one peer. -/
inductive Token
  | opened
  | item (count : Int) (element_size : Nat)
  | closed
  deriving DecidableEq

/-- What a rank sends to a peer. -/
def sendToken (dest : Nat) : Event ranks → Option Token
  | .noted .start => some .opened
  | .sent .communicator peer transfer =>
      if peer = dest then some (.item transfer.count transfer.element_size) else none
  | .waited .communicator => some .closed
  | _ => none

/-- What a rank expects from a peer. -/
def recvToken (source : Nat) : Event ranks → Option Token
  | .noted .start => some .opened
  | .posted .communicator peer landing =>
      if peer = source then some (.item landing.count landing.element_size) else none
  | .waited .communicator => some .closed
  | _ => none

/-- The transfers that a rank sends to a peer, group by group. -/
def sendTape (dest : Nat) (log : List (Event ranks)) : List Token :=
  log.filterMap (sendToken dest)

/-- The transfers that a rank expects from a peer, group by group. -/
def recvTape (source : Nat) (log : List (Event ranks)) : List Token :=
  log.filterMap (recvToken source)

/-- A group with the given transfers. -/
def Token.group (items : List (Int × Nat)) : List Token :=
  .opened :: items.map (fun item => .item item.1 item.2) ++ [.closed]

/-- The tape consists of groups with at most one transfer each. -/
def Separated (tape : List Token) : Prop :=
  ∃ groups : List (List (Int × Nat)),
    tape = groups.flatMap Token.group ∧ ∀ group ∈ groups, group.length ≤ 1

theorem Separated.nil : Separated [] := ⟨[], rfl, by simp⟩

theorem Separated.append
    {first second : List Token}
    (left : Separated first)
    (right : Separated second) :
    Separated (first ++ second) := by
  obtain ⟨firstGroups, rfl, firstSmall⟩ := left
  obtain ⟨secondGroups, rfl, secondSmall⟩ := right
  refine ⟨firstGroups ++ secondGroups, by simp, fun group member => ?_⟩
  rcases List.mem_append.mp member with earlier | later
  · exact firstSmall group earlier
  · exact secondSmall group later

/-- The plans of all ranks fit together: what a rank sends to another is what
the other expects from it, in the same groups. When buffers are not grouped, a
group has at most one transfer for each pair of ranks. -/
structure Dual
    (n : Nat)
    (group_by_batch : Bool)
    (log : Nat → List (Event ranks)) : Prop where
  matching : ∀ source dest, source < n → dest < n →
    sendTape dest (log source) = recvTape source (log dest)
  separated : group_by_batch = false → ∀ source dest, source < n → dest < n →
    Separated (sendTape dest (log source))

namespace Dual

variable {n : Nat} {group_by_batch : Bool}

theorem nil : Dual n group_by_batch fun _ => [] where
  matching := fun _ _ _ _ => rfl
  separated := fun _ _ _ _ _ => .nil

theorem append
    {first second : Nat → List (Event ranks)}
    (left : Dual n group_by_batch first)
    (right : Dual n group_by_batch second) :
    Dual n group_by_batch fun rank => first rank ++ second rank where
  matching := by
    intro source dest sourceBound destBound
    unfold sendTape recvTape
    rw [List.filterMap_append, List.filterMap_append]
    congr 1
    · exact left.matching source dest sourceBound destBound
    · exact right.matching source dest sourceBound destBound
  separated := by
    intro ungrouped source dest sourceBound destBound
    unfold sendTape
    rw [List.filterMap_append]
    exact (left.separated ungrouped source dest sourceBound destBound).append
      (right.separated ungrouped source dest sourceBound destBound)

theorem flatMap
    {κ : Type}
    {keys : List κ}
    {log : κ → Nat → List (Event ranks)}
    (dual : ∀ key ∈ keys, Dual n group_by_batch (log key)) :
    Dual n group_by_batch fun rank => keys.flatMap fun key => log key rank := by
  induction keys with
  | nil => exact .nil
  | cons key rest inductionHypothesis =>
      simp only [List.flatMap_cons]
      exact (dual key (by simp)).append
        (inductionHypothesis fun other member => dual other (by simp [member]))

/-- Events that are no part of a transfer keep plans dual. -/
theorem of_silent
    {log : Nat → List (Event ranks)}
    (silent : ∀ rank, rank < n → ∀ event ∈ log rank, ∀ peer,
      sendToken peer event = none ∧ recvToken peer event = none) :
    Dual n group_by_batch log := by
  have sendNil : ∀ source dest, source < n → sendTape dest (log source) = [] :=
    fun source dest sourceBound => List.filterMap_eq_nil_iff.mpr
      fun event member => (silent source sourceBound event member dest).1
  have recvNil : ∀ source dest, dest < n → recvTape source (log dest) = [] :=
    fun source dest destBound => List.filterMap_eq_nil_iff.mpr
      fun event member => (silent dest destBound event member source).2
  constructor
  · intro source dest sourceBound destBound
    rw [sendNil source dest sourceBound, recvNil source dest destBound]
  · intro _ source dest sourceBound _
    rw [sendNil source dest sourceBound]
    exact .nil

end Dual

/-- All ranks end an operation with their results, or all with an error, and what they
plan until then is dual. Unless the operation is complete, some ranks may stop earlier. -/
def Planned
    {α : Type}
    (complete : Prop)
    (n : Nat)
    (eager : Eagerness ranks)
    (group_by_batch : Bool)
    (operation : Nat → Process ranks α)
    (result : Nat → α) : Prop :=
  ∃ after outcome events,
    Attempt complete n eager (Arrivals.none ranks) operation after outcome events ∧
      Dual n group_by_batch events ∧
      ((∃ reason, outcome = .error reason) ∨
        after = Arrivals.none ranks ∧ outcome = .ok result)

namespace Planned

variable {α β : Type} {complete : Prop} {n : Nat} {eager : Eagerness ranks}
  {group_by_batch : Bool} {first : Nat → Process ranks α} {result : Nat → α}

theorem of_attempt
    {events : Nat → List (Event ranks)}
    (attempt : Attempt complete n eager (Arrivals.none ranks) first (Arrivals.none ranks)
      (.ok result) events)
    (dual : Dual n group_by_batch events) :
    Planned complete n eager group_by_batch first result :=
  ⟨_, _, _, attempt, dual, .inr ⟨rfl, rfl⟩⟩

/-- If the first operation fails, the second one is not begun. -/
theorem bind
    {second : Nat → α → Process ranks β}
    {final : Nat → β}
    (left : Planned complete n eager group_by_batch first result)
    (right : Planned complete n eager group_by_batch (fun rank => second rank (result rank))
      final) :
    Planned complete n eager group_by_batch (fun rank => first rank >>= second rank) final := by
  obtain ⟨_, _, _, attempt, dual, ⟨reason, rfl⟩ | ⟨rfl, rfl⟩⟩ := left
  · exact ⟨_, _, _, attempt.bind_error, dual, .inl ⟨reason, rfl⟩⟩
  · obtain ⟨_, _, _, next, nextDual, ends⟩ := right
    exact ⟨_, _, _, attempt.bind next, dual.append nextDual, ends⟩

theorem pure (value : Nat → α) :
    Planned complete n eager group_by_batch (fun rank => Process.pure (value rank)) value :=
  .of_attempt (Phase.pure value).attempt .nil

theorem map
    (planned : Planned complete n eager group_by_batch first result)
    (change : Nat → α → β) :
    Planned complete n eager group_by_batch
      (fun rank => first rank >>= fun value => Process.pure (change rank value))
      (fun rank => change rank (result rank)) :=
  planned.bind (Planned.pure fun rank => change rank (result rank))

theorem congr
    {other : Nat → Process ranks α}
    (planned : Planned complete n eager group_by_batch first result)
    (same : ∀ rank, rank < n → other rank = first rank) :
    Planned complete n eager group_by_batch other result := by
  obtain ⟨_, _, _, attempt, dual, ends⟩ := planned
  exact ⟨_, _, _, attempt.congr same, dual, ends⟩

theorem mono
    {stronger : Prop}
    (planned : Planned complete n eager group_by_batch first result)
    (follows : stronger → complete) :
    Planned stronger n eager group_by_batch first result := by
  obtain ⟨_, _, _, attempt, dual, ends⟩ := planned
  exact ⟨_, _, _, attempt.mono follows, dual, ends⟩

/-- What the ranks do is the beginning of dual plans. Ranks that return do all of it, and so
do all ranks if none of them stops. -/
theorem settles (planned : Planned complete n eager group_by_batch first result) :
    ∃ log, Dual n group_by_batch log ∧
      (∀ state, Reaches (Configuration.step n eager) (Configuration.start first) state →
        ∀ rank, rank < n → (state rank).log <+: log rank ∧
          ∀ value, (state rank).process = .pure value → (state rank).log = log rank) ∧
      (complete → ∃ final, Settles n eager first final log) := by
  obtain ⟨_, outcome, events, attempt, dual, _⟩ := planned
  refine ⟨events, dual, fun state reached rank rankBound =>
    ⟨attempt.log_grows reached rankBound, fun value returned =>
      (attempt.of_returned reached rankBound returned).2⟩, fun holds => ?_⟩
  let return_result : Nat → α → Process ranks α := fun _ => Process.pure
  have ended : ∀ rank, rank < n → (outcome.resume return_result rank).Ended := by
    intro rank _
    cases outcome with
    | ok value => trivial
    | error reason => trivial
  have settled := Settles.of_phase (attempt.phase holds) return_result ended
  simp only [return_result, Process.bind_pure_self] at settled
  exact ⟨_, settled⟩

end Planned

end DistributedJoin
