import DistributedJoin.Device.Heap
import DistributedJoin.Device.Items
import DistributedJoin.Ucx.Batches

/-!
# Ranks and tagged messages

The state of a rank that uses the buffered communicator, and what UCX does with
its sends and receives. Messages with one tag from one rank to another are
matched in order with the receives of that tag. A send completes either at once
or when its request is called back; a receive always has a request, and its
callback may already run inside the post.
-/

namespace DistributedJoin

namespace Ucx

open Device

/-- Variables outside device memory: those from `malloc` and those of the caller. -/
inductive Cell
  | malloced (index : Nat)
  | declared (index : Nat)
  deriving DecidableEq

/-- Communication handles: requests of UCX, and handles from `malloc`. -/
inductive Handle
  | request (index : Nat)
  | custom (index : Nat)
  deriving DecidableEq

/-- Tags are unsigned integers of 64 bits. -/
abbrev Tag := BitVec 64

/-- What an operation of UCX reads or writes: an `int64_t` variable, or a range of
device memory. -/
inductive Place
  | counter (cell : Cell)
  | device (start : Int) (size : Nat)
  deriving DecidableEq

/-- A message that has not been received: its bytes, or the place that UCX is going
to read them from together with the request of the send. -/
inductive Payload
  | taken (bytes : List Byte)
  | pending (place : Place) (request : Handle)
  deriving DecidableEq

structure Message where
  tag : Tag
  payload : Payload
  deriving DecidableEq

/-- A receive that has not been matched. -/
structure Posted where
  tag : Tag
  place : Place
  request : Handle
  deriving DecidableEq

/-- The callback of a completed operation. -/
inductive Callback
  | send_handler (request : Handle)
  | recv_handler (request : Handle)
  deriving DecidableEq

/-- The pointer `orig_info`. -/
inductive OrigInfo
  | null
  /-- The value `0x1`: the callback has run before the handle was filled in. -/
  | called
  | handle (handle : Handle)
  deriving DecidableEq

inductive CommInfoTypes
  | SEND
  | RECV
  deriving DecidableEq

/-- `SendInfo` and `RecvInfo`, which have the same layout. The field `buffer` is
`send_buffer`, `recv_buffer` is a variable that holds a pointer. -/
structure CommInfo where
  types : CommInfoTypes
  completed : Bool
  /-- Whether the pointer to the communicator is set. -/
  comm : Bool
  orig_info : OrigInfo
  comm_buffer : Option Int
  custom_allocated : Bool
  send_buffer : Int
  recv_buffer : Cell
  count : Cell
  element_size : Int
  /-- `dest` or `source` -/
  peer : Nat
  user_tag : Int
  ibatch : Int
  deriving DecidableEq

namespace CommInfo

/-- The fields that a request has between uses. -/
def release (info : CommInfo) : CommInfo :=
  { info with
    completed := false
    comm := false
    orig_info := .null
    custom_allocated := false }

/-- A request after `request_init`. -/
def init : CommInfo where
  types := .SEND
  completed := false
  comm := false
  orig_info := .null
  comm_buffer := none
  custom_allocated := false
  send_buffer := 0
  recv_buffer := .malloced 0
  count := .malloced 0
  element_size := 0
  peer := 0
  user_tag := 0
  ibatch := 0

end CommInfo

/-- What a rank is executing. -/
inductive Control
  /-- The program, outside of callbacks. -/
  | user
  /-- The loop of `send_handler`. -/
  | sending (handle : Handle) (loop : SendLoop)
  /-- The beginning of `recv_handler`, called from within itself for the outer
  handles. -/
  | receiving (handle : Handle) (outer : List Handle)
  /-- A null pointer has been dereferenced. -/
  | crashed
  deriving DecidableEq

/-- One rank. -/
structure Rank where
  mpi_rank : Nat
  comm_buffer_size : Int
  /-- The queue of communication buffers, front first. -/
  buffer_cache : List Int
  heap : Heap
  counters : Cell → Int
  pointers : Cell → Option Int
  /-- The number of variables from `malloc`. -/
  malloced : Nat
  info : Handle → CommInfo
  allocated : Handle → Bool
  /-- The handles that have been returned to the caller and not waited for. -/
  returned : List Handle
  control : Control
  /-- The messages to every rank that have not been received, oldest first. -/
  outgoing : Nat → List Message
  posted : List Posted
  /-- Operations that have completed and are to be called back. -/
  due : List Callback

/-- All ranks. -/
abbrev World := Nat → Rank

namespace Rank

/-- The bytes of a place. -/
def read (rank : Rank) : Place → List Byte
  | .counter cell => encode 8 (rank.counters cell)
  | .device start size => rank.heap.read start size

/-- Write a message to a place. What does not fit is cut off. -/
def write (rank : Rank) (bytes : List Byte) : Place → Rank
  | .counter cell =>
      { rank with
        counters := Function.update rank.counters cell (decode (bytes.take 8)) }
  | .device start size =>
      { rank with heap := rank.heap.write ⟨start, bytes.take size⟩ }

/-- Change the information of a handle. -/
def setInfo (rank : Rank) (handle : Handle) (info : CommInfo) : Rank :=
  { rank with info := Function.update rank.info handle info }

/-- Take a handle into use. -/
def allocate (rank : Rank) (handle : Handle) : Rank :=
  { rank with allocated := Function.update rank.allocated handle true }

/-- Give a handle back. -/
def free (rank : Rank) (handle : Handle) : Rank :=
  { rank with allocated := Function.update rank.allocated handle false }

/-- Append a message to those for a rank. -/
def push (rank : Rank) (dest : Nat) (message : Message) : Rank :=
  { rank with
    outgoing := Function.update rank.outgoing dest (rank.outgoing dest ++ [message]) }

/-- `ucp_tag_send_nb`: the send completes at once, or gets a free request. -/
def ucp_tag_send_nb
    (rank : Rank)
    (dest : Nat)
    (place : Place)
    (tag : Tag) : Option Nat → Option Rank
  | none => some (rank.push dest ⟨tag, .taken (rank.read place)⟩)
  | some index =>
      if rank.allocated (.request index) then none
      else some ((rank.allocate (.request index)).push dest
        ⟨tag, .pending place (.request index)⟩)

/-- The callback of a receive inside its post: the handle has not been filled in, so
`recv_handler` only leaves a mark. -/
def call_inside (rank : Rank) (request : Handle) : Rank :=
  match (rank.info request).orig_info with
  | .null => rank.setInfo request { rank.info request with orig_info := .called }
  | _ => { rank with control := .crashed }

/-- Writing a message changes memory only. -/
theorem write_eq (rank : Rank) (bytes : List Byte) (place : Place) :
    ∃ heap counters, rank.write bytes place =
      { rank with heap := heap, counters := counters } := by
  cases place with
  | counter cell => exact ⟨rank.heap, _, rfl⟩
  | device start size => exact ⟨_, rank.counters, rfl⟩

/-- The early callback of a receive changes its information and possibly the control. -/
theorem call_inside_eq (rank : Rank) (request : Handle) :
    ∃ info control, rank.call_inside request =
      { rank with info := info, control := control } := by
  unfold call_inside
  split
  · exact ⟨_, rank.control, rfl⟩
  · exact ⟨rank.info, _, rfl⟩

end Rank

/-- The first message with a tag, if its bytes have been taken, and the others. -/
def takeMessage (tag : Tag) : List Message → Option (List Byte × List Message)
  | [] => none
  | message :: rest =>
      if message.tag = tag then
        match message.payload with
        | .taken bytes => some (bytes, rest)
        | .pending _ _ => none
      else (takeMessage tag rest).map fun found => (found.1, message :: found.2)

/-- The first receive with a tag, and the others. -/
def takePosted (tag : Tag) : List Posted → Option (Posted × List Posted)
  | [] => none
  | posted :: rest =>
      if posted.tag = tag then some (posted, rest)
      else (takePosted tag rest).map fun found => (found.1, posted :: found.2)

/-- Take over the bytes of a pending message at a position. -/
def takeOver (read : Place → List Byte) :
    Nat → List Message → Option (Handle × List Message)
  | _, [] => none
  | 0, message :: rest =>
      match message.payload with
      | .taken _ => none
      | .pending place request => some (request, ⟨message.tag, .taken (read place)⟩ :: rest)
  | position + 1, message :: rest =>
      (takeOver read position rest).map fun found => (found.1, message :: found.2)

namespace World

/-- Change one rank. -/
def set (world : World) (self : Nat) (rank : Rank) : World :=
  Function.update world self rank

@[simp] theorem set_self (world : World) (self : Nat) (rank : Rank) :
    world.set self rank self = rank := Function.update_self _ _ _

theorem set_of_ne
    (world : World)
    {self other : Nat}
    (different : other ≠ self)
    (rank : Rank) :
    world.set self rank other = world other := Function.update_of_ne different _ _

/-- Remove the first message with a tag from those between two ranks. -/
def receive
    (world : World)
    (source dest : Nat)
    (tag : Tag) : Option (List Byte × World) :=
  (takeMessage tag ((world source).outgoing dest)).map fun found =>
    (found.1, world.set source
      { world source with
        outgoing := Function.update (world source).outgoing dest found.2 })

/-- `ucp_tag_recv_nb`: the receive gets a free request. It is matched later, or inside
the post with a message that has arrived from some rank. -/
def ucp_tag_recv_nb
    (world : World)
    (self : Nat)
    (place : Place)
    (tag : Tag)
    (index : Nat)
    (inside : Option Nat) : Option World :=
  if (world self).allocated (.request index) then none
  else
    match inside with
    | none =>
        let rank := (world self).allocate (.request index)
        some (world.set self
          { rank with posted := rank.posted ++ [⟨tag, place, .request index⟩] })
    | some source =>
        if (takePosted tag (world self).posted).isSome then none
        else
          (world.receive source self tag).map fun received =>
            received.2.set self
              ((((received.2 self).allocate (.request index)).write received.1 place).call_inside
                (.request index))

/-- What removing a message does. -/
theorem receive_cases
    {world received : World}
    {source dest : Nat}
    {tag : Tag}
    {bytes : List Byte}
    (taken : world.receive source dest tag = some (bytes, received)) :
    ∃ rest, takeMessage tag ((world source).outgoing dest) = some (bytes, rest) ∧
      received = world.set source
        { world source with
          outgoing := Function.update (world source).outgoing dest rest } := by
  obtain ⟨⟨found, rest⟩, message, same⟩ := Option.map_eq_some_iff.mp taken
  obtain ⟨rfl, rfl⟩ := Prod.mk.inj same
  exact ⟨rest, message, rfl⟩

/-- What posting a receive does. -/
theorem ucp_tag_recv_nb_cases
    {world posted : World}
    {self index : Nat}
    {place : Place}
    {tag : Tag}
    {inside : Option Nat}
    (receives : world.ucp_tag_recv_nb self place tag index inside = some posted) :
    (world self).allocated (.request index) = false ∧
      ((inside = none ∧ posted = world.set self
          { (world self).allocate (.request index) with
            posted := (world self).posted ++ [⟨tag, place, .request index⟩] }) ∨
        ∃ source bytes received, inside = some source ∧
          takePosted tag (world self).posted = none ∧
          world.receive source self tag = some (bytes, received) ∧
          posted = received.set self
            ((((received self).allocate (.request index)).write bytes place).call_inside
              (.request index))) := by
  unfold ucp_tag_recv_nb at receives
  split at receives
  · contradiction
  · rename_i unused
    refine ⟨(Bool.not_eq_true _).mp unused, ?_⟩
    cases inside with
    | none => exact .inl ⟨rfl, (Option.some.inj receives).symm⟩
    | some source =>
        simp only [Option.ite_none_left_eq_some, Option.map_eq_some_iff] at receives
        obtain ⟨first, ⟨bytes, received⟩, taken, same⟩ := receives
        exact .inr ⟨source, bytes, received, rfl, by simpa using first, taken, same.symm⟩

/-- UCX reads the bytes of a pending message; its send has then completed. -/
def transmit (world : World) (source dest position : Nat) : Option World :=
  (takeOver (world source).read position ((world source).outgoing dest)).map fun found =>
    world.set source
      { world source with
        outgoing := Function.update (world source).outgoing dest found.2
        due := (world source).due ++ [.send_handler found.1] }

/-- UCX matches the first message and the first receive with a tag. -/
def deliver (world : World) (source dest : Nat) (tag : Tag) : Option World := do
  let (posted, rest) ← takePosted tag (world dest).posted
  let (bytes, received) ← world.receive source dest tag
  let rank := (received dest).write bytes posted.place
  some (received.set dest
    { rank with
      posted := rest
      due := rank.due ++ [.recv_handler posted.request] })

end World

end Ucx

end DistributedJoin
