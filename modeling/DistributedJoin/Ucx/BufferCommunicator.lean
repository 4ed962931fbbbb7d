import DistributedJoin.Ucx.Worker

/-!
# The buffered communicator

`UCXBufferCommunicator`: every transfer announces its number of elements in a
header and then moves the elements in batches through one communication buffer.
The callbacks `send_handler` and `recv_handler` go from batch to batch; the handle
that was returned to the caller is marked as completed by the last of them.

A step of a rank ends at its next call of UCX, so that steps of other ranks and
the transport of messages can come between.
-/

namespace DistributedJoin

open Device

namespace Ucx

namespace Rank

/-- A rank on which nothing has been communicated, with the given memory. -/
def initial (mpi_rank : Nat) (heap : Heap) : Rank where
  mpi_rank := mpi_rank
  comm_buffer_size := 0
  buffer_cache := []
  heap := heap
  counters := fun _ => 0
  pointers := fun _ => none
  malloced := 0
  info := fun _ => .init
  allocated := fun _ => false
  returned := []
  control := .user
  outgoing := fun _ => []
  posted := []
  due := []

/-- `UCXBufferCommunicator::setup_cache`, when the memory is allocated at the given
address. -/
def setup_cache (rank : Rank) (cache_start_addr : Int) (ncaches : Nat) (buffer_size : Int) :
    Rank :=
  { rank with
    comm_buffer_size := buffer_size
    buffer_cache := rank.buffer_cache ++
      (List.range ncaches).map fun icache : Nat => cache_start_addr + icache * buffer_size }

end Rank

/-- `get_comm_tag` -/
def get_comm_tag (user_tag : Int) (source_rank : Nat) : Tag :=
  (BitVec.ofInt 64 user_tag <<< 32) ||| BitVec.ofNat 64 source_rank

namespace Rank

/-- `nelements_per_batch` for a handle. -/
def per_batch (rank : Rank) (info : CommInfo) : Int :=
  nelements_per_batch rank.comm_buffer_size info.element_size

/-- `*(info->count)` -/
def total (rank : Rank) (info : CommInfo) : Int := rank.counters info.count

/-- Free a handle that has not been returned to the caller. -/
def free_internal (rank : Rank) (handle : Handle) : Rank :=
  if (rank.info handle).orig_info = .handle handle then rank
  else (rank.setInfo handle (rank.info handle).release).free handle

/-- `info->orig_info->completed = true` -/
def complete (rank : Rank) (handle : Handle) : Rank :=
  match (rank.info handle).orig_info with
  | .handle orig => rank.setInfo orig { rank.info orig with completed := true }
  | _ => { rank with control := .crashed }

/-- The beginning of `send_handler`. -/
def enter_send_handler (rank : Rank) (handle : Handle) : Rank :=
  let info := rank.info handle
  if info.comm then
    { rank with
      control := .sending handle
        (.enter (rank.per_batch info) (rank.total info) info.ibatch) }
  else { rank with control := .crashed }

/-- One iteration of the loop in `send_handler`, and what follows the last one. The
send of the batch completes at once, or gets a request to which the information of the
handle is copied. -/
def send_handler
    (rank : Rank)
    (handle : Handle)
    (loop : SendLoop)
    (request : Option Nat) : Option Rank :=
  let info := rank.info handle
  if 0 < loop.nelements_remaining then do
    let length :=
      nelements_current_batch (rank.per_batch info) loop.nelements_remaining
    let start_addr :=
      info.send_buffer + loop.ibatch * rank.per_batch info * info.element_size
    let size := (length * info.element_size).toNat
    let comm_buffer ← info.comm_buffer
    let copied := rank.write (rank.heap.read start_addr size) (.device comm_buffer size)
    let sent ← copied.ucp_tag_send_nb info.peer (.device comm_buffer size)
      (get_comm_tag info.user_tag rank.mpi_rank) request
    match request with
    | none =>
        some { sent with control := .sending handle (loop.advance (rank.per_batch info)) }
    | some index =>
        some { (sent.setInfo (.request index)
            { info with ibatch := toInt (loop.ibatch + 1), custom_allocated := false }
          ).free_internal handle with control := .user }
  else
    some (({ rank with control := .user }.complete handle).free_internal handle)

/-- Wait for handles that have completed: their buffers go back into the queue and
the handles are freed. -/
def release_handle (rank : Rank) (handle : Handle) : Rank :=
  let info := rank.info handle
  { (rank.setInfo handle
        { info with completed := false, comm := false, orig_info := .null, comm_buffer := none }
      ).free handle with
    buffer_cache := rank.buffer_cache ++ info.comm_buffer.toList
    returned := rank.returned.erase handle }

/-- `UCXBufferCommunicator::waitall`, once all handles have completed. -/
def waitall (rank : Rank) (handles : List Handle) : Option Rank :=
  if rank.control = .user ∧ ∀ handle ∈ handles, (rank.info handle).completed then
    some (handles.foldl release_handle rank)
  else none

/-- Get a variable for a number from `malloc`. -/
def malloc_counter (rank : Rank) (count : Int) : Rank :=
  { rank with
    counters := Function.update rank.counters (.malloced rank.malloced) count
    malloced := rank.malloced + 1 }

/-- Get a variable for a pointer from `malloc`. -/
def malloc_pointer (rank : Rank) (buf : Int) : Rank :=
  { rank with
    pointers := Function.update rank.pointers (.malloced rank.malloced) (some buf)
    malloced := rank.malloced + 1 }

/-- What a call returns or throws. -/
inductive Outcome
  | returned (handle : Handle)
  | threw (what : String)
  deriving DecidableEq

/-- The first part of `send`: the header with the number of elements is posted. When
it is sent at once there is no request, and the handle comes from `malloc`. -/
def post_count
    (rank : Rank)
    (count : Int)
    (dest : Nat)
    (tag : Int)
    (custom : Nat) :
    Option Nat → Option (Handle × Rank)
  | none => do
      let counted := rank.malloc_counter count
      let sent ← counted.ucp_tag_send_nb dest (.counter (.malloced rank.malloced))
        (get_comm_tag tag rank.mpi_rank) none
      some (.custom custom,
        (sent.allocate (.custom custom)).setInfo (.custom custom)
          { sent.info (.custom custom) with custom_allocated := true, completed := false })
  | some index => do
      let counted := rank.malloc_counter count
      let sent ← counted.ucp_tag_send_nb dest (.counter (.malloced rank.malloced))
        (get_comm_tag tag rank.mpi_rank) (some index)
      some (.request index, sent)

/-- `UCXBufferCommunicator::send` -/
def send
    (rank : Rank)
    (buf count element_size : Int)
    (dest : Nat)
    (tag : Int)
    (custom : Nat)
    (request : Option Nat) : Option (Outcome × Rank) :=
  if rank.control = .user ∧ rank.allocated (.custom custom) = false then do
    let (handle, ready) ← rank.post_count count dest tag custom request
    match ready.buffer_cache with
    | [] => some (.threw "No buffered cache available", ready)
    | comm_buffer :: rest =>
        let info :=
          { ready.info handle with
            types := .SEND
            send_buffer := buf
            comm_buffer := some comm_buffer
            count := .malloced rank.malloced
            element_size := element_size
            peer := dest
            user_tag := tag
            ibatch := 0
            comm := true
            orig_info := .handle handle }
        let filled :=
          { ready.setInfo handle info with
            buffer_cache := rest
            returned := ready.returned ++ [handle] }
        some (.returned handle,
          if info.custom_allocated then filled.enter_send_handler handle else filled)
  else none

end Rank

/-- The buffer of a receive: a non-null buffer of the caller, or one that is allocated
once the number of elements is known, which both go into variables of the caller. -/
inductive RecvBuffer
  | given (buf : Int)
  | unknown (buf count : Cell)
  deriving DecidableEq

namespace RecvBuffer

/-- The variable for the number of elements, if the next one comes from `malloc`. -/
def counter (malloced : Nat) : RecvBuffer → Cell
  | .given _ => .malloced malloced
  | .unknown _ count => count

/-- The variable for the pointer to the buffer, if the next one comes from `malloc`. -/
def pointer (malloced : Nat) : RecvBuffer → Cell
  | .given _ => .malloced malloced
  | .unknown buf _ => buf

/-- The number of variables that come from `malloc`. -/
def mallocs : RecvBuffer → Nat
  | .given _ => 2
  | .unknown _ _ => 0

/-- The address of the buffer, if it is known before the header has come. -/
def start : RecvBuffer → Option Int
  | .given buf => some buf
  | .unknown _ _ => none

/-- A rank with the variable for the number of elements. -/
def counted (rank : Rank) : RecvBuffer → Rank
  | .given _ => { rank with malloced := rank.malloced + 1 }
  | .unknown buf _ => { rank with pointers := Function.update rank.pointers buf none }

/-- A rank with the variable for the pointer to the buffer. -/
def pointed (rank : Rank) : RecvBuffer → Rank
  | .given buf => rank.malloc_pointer buf
  | .unknown _ _ => rank

/-- Only variables change before the header is posted. -/
theorem counted_eq (buffer : RecvBuffer) (rank : Rank) :
    buffer.counted rank =
      { rank with
        pointers := (buffer.counted rank).pointers
        malloced := (buffer.counted rank).malloced } := by
  cases buffer <;> rfl

/-- Only variables change before the handle is filled in. -/
theorem pointed_eq (buffer : RecvBuffer) (rank : Rank) :
    buffer.pointed rank =
      { rank with
        pointers := (buffer.pointed rank).pointers
        malloced := (buffer.pointed rank).malloced } := by
  cases buffer <;> rfl

/-- The variables of a receive once its handle is filled in. -/
theorem pointed_counted
    (buffer : RecvBuffer)
    (rank ready : Rank)
    (pointers : ready.pointers = (buffer.counted rank).pointers)
    (malloced : ready.malloced = (buffer.counted rank).malloced) :
    buffer.pointer ready.malloced = buffer.pointer (rank.malloced + 1) ∧
      (buffer.pointed ready).pointers =
        Function.update rank.pointers (buffer.pointer (rank.malloced + 1)) buffer.start ∧
      (buffer.pointed ready).malloced = rank.malloced + buffer.mallocs := by
  cases buffer with
  | given buf =>
      refine ⟨congrArg Cell.malloced malloced, ?_, congrArg (· + 1) malloced⟩
      change Function.update ready.pointers (.malloced ready.malloced) (some buf) = _
      rw [pointers, malloced]
      rfl
  | unknown buf count => exact ⟨rfl, pointers, malloced⟩

end RecvBuffer

namespace World

/-- The first part of `recv_helper`: the receive of the header is posted. -/
def post_count
    (world : World)
    (self : Nat)
    (buffer : RecvBuffer)
    (source : Nat)
    (tag : Int)
    (request : Nat)
    (inside : Option Nat) : Option (Cell × World) :=
  match buffer with
  | .given _ =>
      let counted := { world self with malloced := (world self).malloced + 1 }
      ((world.set self counted).ucp_tag_recv_nb self (.counter (.malloced (world self).malloced))
        (get_comm_tag tag source) request inside).map fun posted =>
          (.malloced (world self).malloced, posted)
  | .unknown buf count =>
      let cleared :=
        { world self with pointers := Function.update (world self).pointers buf none }
      ((world.set self cleared).ucp_tag_recv_nb self (.counter count)
        (get_comm_tag tag source) request inside).map fun posted => (count, posted)

/-- Before the header of a receive is posted only variables change. -/
theorem post_count_eq
    {world posted : World}
    {self source request : Nat}
    {buffer : RecvBuffer}
    {tag : Int}
    {inside : Option Nat}
    {recved_count : Cell}
    (header : world.post_count self buffer source tag request inside =
      some (recved_count, posted)) :
    recved_count = buffer.counter (world self).malloced ∧
      (world.set self (buffer.counted (world self))).ucp_tag_recv_nb self
          (.counter (buffer.counter (world self).malloced)) (get_comm_tag tag source) request
          inside = some posted := by
  cases buffer with
  | given buf =>
      obtain ⟨_, receives, same⟩ := Option.map_eq_some_iff.mp header
      obtain ⟨rfl, rfl⟩ := Prod.mk.inj same
      exact ⟨rfl, receives⟩
  | unknown buf count =>
      obtain ⟨_, receives, same⟩ := Option.map_eq_some_iff.mp header
      obtain ⟨rfl, rfl⟩ := Prod.mk.inj same
      exact ⟨rfl, receives⟩

/-- `UCXBufferCommunicator::recv_helper`, as called by the two versions of `recv`. -/
def recv
    (world : World)
    (self : Nat)
    (buffer : RecvBuffer)
    (element_size : Int)
    (source : Nat)
    (tag : Int)
    (request : Nat)
    (inside : Option Nat) : Option (Rank.Outcome × World) :=
  if (world self).control = .user then do
    let (recved_count, posted) ← world.post_count self buffer source tag request inside
    let handle := Handle.request request
    let rank := posted self
    match rank.buffer_cache with
    | [] => some (.threw "No buffered cache available", posted)
    | comm_buffer :: rest =>
        let callback_called := (rank.info handle).orig_info ≠ .null
        let (recv_buffer, pointed) :=
          match buffer with
          | .given buf => (Cell.malloced rank.malloced, rank.malloc_pointer buf)
          | .unknown buf _ => (buf, rank)
        let filled :=
          { pointed.setInfo handle
              { rank.info handle with
                types := .RECV
                recv_buffer := recv_buffer
                comm_buffer := some comm_buffer
                custom_allocated := false
                count := recved_count
                element_size := element_size
                peer := source
                user_tag := tag
                ibatch := 0
                comm := true
                orig_info := .handle handle } with
            buffer_cache := rest
            returned := rank.returned ++ [handle] }
        some (.returned handle,
          posted.set self
            (if callback_called then { filled with control := .receiving handle [] }
            else filled))
  else none

/-- `recv_handler`, called from within itself for the outer handles. If a buffer has
to be allocated it gets the given address. The receive of the next batch, if any, gets a
request and may be matched inside the post. -/
def recv_handler
    (world : World)
    (self : Nat)
    (handle : Handle)
    (outer : List Handle)
    (address : Int)
    (request : Nat)
    (inside : Option Nat) : Option World :=
  let rank := world self
  let info := rank.info handle
  let finish (rank : Rank) : Rank :=
    (handle :: outer).foldl Rank.free_internal { rank with control := .user }
  if info.orig_info = .null then
    some (world.set self
      (outer.foldl Rank.free_internal
        { rank.setInfo handle { info with orig_info := .called } with control := .user }))
  else if info.comm = false then some (world.set self { rank with control := .crashed })
  else do
    let pointers :=
      if rank.pointers info.recv_buffer = none ∧ 0 < rank.total info then
        Function.update rank.pointers info.recv_buffer (some address)
      else rank.pointers
    let allocated := { rank with pointers := pointers }
    let copied ←
      if 0 < info.ibatch then do
        let last_batch := info.ibatch - 1
        let nelement_copied := rank.per_batch info * last_batch
        let nelements_uncopied := rank.total info - nelement_copied
        let nelements_copy_batch :=
          nelements_current_batch (rank.per_batch info) nelements_uncopied
        let size := (nelements_copy_batch * info.element_size).toNat
        let buf ← pointers info.recv_buffer
        let comm_buffer ← info.comm_buffer
        some (allocated.write (rank.heap.read comm_buffer size)
          (.device (buf + nelement_copied * info.element_size) size))
      else some allocated
    let length := nelements_current_batch (rank.per_batch info)
      (nelements_remaining (rank.per_batch info) (rank.total info) info.ibatch)
    if 0 < length then do
      let comm_buffer ← info.comm_buffer
      let posted ← (world.set self copied).ucp_tag_recv_nb self
        (.device comm_buffer (length * info.element_size).toNat)
        (get_comm_tag info.user_tag info.peer) request inside
      let callback_called := ((posted self).info (.request request)).orig_info ≠ .null
      let next := { info with ibatch := toInt (info.ibatch + 1) }
      let filled := ((posted self).setInfo handle next).setInfo (.request request) next
      some (posted.set self
        (if callback_called then
          { filled with control := .receiving (.request request) (handle :: outer) }
        else finish filled))
    else some (world.set self (finish (copied.complete handle)))

/-- Everything that can happen in a system of ranks. Choices that are left to UCX, to
memory allocation and to the caller are part of an event. -/
inductive Event
  | send (self : Nat) (buf count element_size : Int) (dest : Nat) (tag : Int)
      (custom : Nat) (request : Option Nat)
  | recv (self : Nat) (buffer : RecvBuffer) (element_size : Int) (source : Nat) (tag : Int)
      (request : Nat) (inside : Option Nat)
  | waitall (self : Nat) (handles : List Handle)
  /-- The caller changes its own memory. -/
  | compute (self : Nat) (heap : Heap)
  /-- `ucp_worker_progress` calls one of the callbacks that are due. -/
  | progress (self position : Nat)
  | send_handler (self : Nat) (request : Option Nat)
  | recv_handler (self : Nat) (address : Int) (request : Nat) (inside : Option Nat)
  | transmit (source dest position : Nat)
  | deliver (source dest : Nat) (tag : Tag)

/-- `ucp_worker_progress` begins a callback. -/
def progress (world : World) (self position : Nat) : Option World :=
  if (world self).control = .user then
    let rest := (world self).due.eraseIdx position
    match (world self).due[position]? with
    | none => none
    | some (.send_handler handle) =>
        some (world.set self ({ world self with due := rest }.enter_send_handler handle))
    | some (.recv_handler handle) =>
        some (world.set self
          { world self with due := rest, control := .receiving handle [] })
  else none

/-- The state after an event, if it can happen. -/
def step (world : World) : Event → Option World
  | .send self buf count element_size dest tag custom request =>
      ((world self).send buf count element_size dest tag custom request).map fun result =>
        world.set self result.2
  | .recv self buffer element_size source tag request inside =>
      (world.recv self buffer element_size source tag request inside).map (·.2)
  | .waitall self handles => ((world self).waitall handles).map (world.set self)
  | .compute self heap =>
      if (world self).control = .user then
        some (world.set self { world self with heap := heap })
      else none
  | .progress self position => world.progress self position
  | .send_handler self request =>
      match (world self).control with
      | .sending handle loop =>
          ((world self).send_handler handle loop request).map (world.set self)
      | _ => none
  | .recv_handler self address request inside =>
      match (world self).control with
      | .receiving handle outer =>
          world.recv_handler self handle outer address request inside
      | _ => none
  | .transmit source dest position => world.transmit source dest position
  | .deliver source dest tag => world.deliver source dest tag

/-- The state after a sequence of events. -/
def run (world : World) (events : List Event) : Option World :=
  events.foldlM step world

end World

end Ucx

end DistributedJoin
