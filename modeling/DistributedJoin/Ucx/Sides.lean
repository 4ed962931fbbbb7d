import DistributedJoin.Ucx.Ledger

/-!
# Both sides of a channel

What a sender has still to send, and what a receiver has received. An event acts for one
transfer of a rank and changes memory of this transfer only, so that the sides of all other
channels stay as they are.
-/

namespace DistributedJoin

namespace Ucx

open Device

/-- The loop of `send_handler` for a handle. -/
def Rank.loop (rank : Rank) (handle : Handle) : Option SendLoop :=
  match rank.control with
  | .sending running loop => if running = handle then some loop else none
  | _ => none

/-- The information of a handle is that of a send. -/
structure Sending.Describes (channel : Channel) (sending : Sending) (info : CommInfo) : Prop where
  types : info.types = .SEND
  send_buffer : info.send_buffer = sending.buf
  count : info.count = sending.counter
  element_size : info.element_size = sending.round.element_size
  peer : info.peer = channel.dest
  user_tag : info.user_tag = channel.tag

/-- A batch is the next one of a send: for a loop, and otherwise for the information of its
handle. -/
def Stands (comm_buffer_size : Int) (extent : Extent) (index : Nat) (ibatch : Int) :
    Option SendLoop → Prop
  | some loop => loop.Before (extent.per_batch comm_buffer_size) extent.count index
  | none => ibatch = index

/-- A handle goes on with a send, before a batch. -/
structure Sending.GoesOn
    (n : Nat)
    (comm_buffer_size : Int)
    (rank : Rank)
    (channel : Channel)
    (sending : Sending)
    (handle : Handle)
    (index : Nat) : Prop where
  active : handle ∈ rank.active n
  origin : (rank.info handle).orig_info = .handle sending.handle
  describes : sending.Describes channel (rank.info handle)
  fits : sending.round.Fits comm_buffer_size
  bound : index ≤ sending.round.number comm_buffer_size
  stands : Stands comm_buffer_size sending.round.toExtent index (rank.info handle).ibatch
    (rank.loop handle)
  counter : rank.counters sending.counter = sending.round.count
  stored : rank.heap.read sending.buf sending.round.bytes.length = sending.round.bytes

/-- What a sender has still to send. -/
inductive SenderSide (n : Nat) (comm_buffer_size : Int) (rank : Rank) (channel : Channel) :
    Option Sending → List (List Byte) → Prop
  | idle : SenderSide n comm_buffer_size rank channel none []
  | active
      {sending : Sending}
      {handle : Handle}
      {index : Nat}
      (goes_on : sending.GoesOn n comm_buffer_size rank channel handle index) :
      SenderSide n comm_buffer_size rank channel (some sending)
        (sending.round.rest comm_buffer_size index)
  | completed
      {sending : Sending}
      (completed : (rank.info sending.handle).completed = true) :
      SenderSide n comm_buffer_size rank channel (some sending) []

namespace Receiving

/-- The information of a handle is that of a receive. -/
structure Describes
    (channel : Channel)
    (element_size : Int)
    (receiving : Receiving)
    (info : CommInfo) : Prop where
  types : info.types = .RECV
  recv_buffer : info.recv_buffer = receiving.pointer
  count : info.count = receiving.counter
  element_size : info.element_size = element_size
  peer : info.peer = channel.source
  user_tag : info.user_tag = channel.tag

/-- A handle goes on with a receive, before a batch. -/
structure GoesOn
    (channel : Channel)
    (element_size : Int)
    (rank : Rank)
    (receiving : Receiving)
    (handle : Handle)
    (index : Nat) : Prop where
  origin : (rank.info handle).orig_info = .handle receiving.handle
  describes : receiving.Describes channel element_size (rank.info handle)
  ibatch : (rank.info handle).ibatch = index

/-- The number of elements has been received, and the first batches are in the buffer. -/
structure Collected
    (comm_buffer_size : Int)
    (rank : Rank)
    (receiving : Receiving)
    (round : Round)
    (index : Nat) : Prop where
  counter : rank.counters receiving.counter = round.count
  buffer : 0 < index → ∃ start, rank.pointers receiving.pointer = some start ∧
    rank.heap.read start (round.before comm_buffer_size index) =
      round.bytes.take (index * round.width comm_buffer_size)

end Receiving

/-- What a receiver has received. -/
inductive ReceiverSide
    (comm_buffer_size : Int)
    (rank : Rank)
    (channel : Channel)
    (sent : List Round)
    (received : Nat) : Option Receiving → List (List Byte) → Prop
  | idle (le : received ≤ sent.length) :
      ReceiverSide comm_buffer_size rank channel sent received none
        (Round.streams comm_buffer_size (sent.take received))
  /-- The receive of the header is posted. -/
  | announced
      {receiving : Receiving}
      {element_size : Int}
      (le : receiving.round ≤ sent.length)
      (goes_on : receiving.GoesOn channel element_size rank receiving.handle 0)
      (posted : ⟨channel.comm_tag, .counter receiving.counter, receiving.handle⟩ ∈ rank.posted) :
      ReceiverSide comm_buffer_size rank channel sent received (some receiving)
        (Round.streams comm_buffer_size (sent.take receiving.round))
  /-- The receive of a batch is posted. -/
  | posted
      {receiving : Receiving}
      {round : Round}
      {handle : Handle}
      {index : Nat}
      {comm_buffer : Int}
      (found : sent[receiving.round]? = some round)
      (bound : index < round.number comm_buffer_size)
      (goes_on : receiving.GoesOn channel round.element_size rank handle (index + 1))
      (buffer : (rank.info handle).comm_buffer = some comm_buffer)
      (posted : ⟨channel.comm_tag,
        .device comm_buffer (round.batch comm_buffer_size index).length, handle⟩ ∈ rank.posted)
      (collected : receiving.Collected comm_buffer_size rank round index) :
      ReceiverSide comm_buffer_size rank channel sent received (some receiving)
        (Round.streams comm_buffer_size (sent.take receiving.round) ++
          (round.stream comm_buffer_size).take (index + 1))
  /-- The header or a batch has come. -/
  | arrived
      {receiving : Receiving}
      {round : Round}
      {handle : Handle}
      {index : Nat}
      (found : sent[receiving.round]? = some round)
      (bound : index ≤ round.number comm_buffer_size)
      (goes_on : receiving.GoesOn channel round.element_size rank handle index)
      (pending : handle ∈ rank.pending)
      (stored : ∀ last, index = last + 1 → ∃ comm_buffer,
        (rank.info handle).comm_buffer = some comm_buffer ∧
          rank.heap.read comm_buffer (round.batch comm_buffer_size last).length =
            round.batch comm_buffer_size last)
      (collected : receiving.Collected comm_buffer_size rank round (index - 1)) :
      ReceiverSide comm_buffer_size rank channel sent received (some receiving)
        (Round.streams comm_buffer_size (sent.take receiving.round) ++
          (round.stream comm_buffer_size).take (index + 1))
  | completed
      {receiving : Receiving}
      {round : Round}
      (found : sent[receiving.round]? = some round)
      (completed : (rank.info receiving.handle).completed = true)
      (collected : receiving.Collected comm_buffer_size rank round
        (round.number comm_buffer_size)) :
      ReceiverSide comm_buffer_size rank channel sent received (some receiving)
        (Round.streams comm_buffer_size (sent.take (receiving.round + 1)))

/-- The transfers that an event acts for, and the memory that it changes. -/
structure Footprint where
  acting : Handle → Prop
  addresses : Int → Prop
  counters : Cell → Prop
  pointers : Cell → Prop

/-- The transfer of a handle is not one of those that an event acts for. -/
def Footprint.Spares (footprint : Footprint) (info : CommInfo) : Prop :=
  ∃ orig, info.orig_info = .handle orig ∧ ¬ footprint.acting orig

/-- An event leaves everything alone that is outside its footprint. -/
structure Frame (n : Nat) (footprint : Footprint) (before after : Rank) : Prop where
  mpi_rank : after.mpi_rank = before.mpi_rank
  info : ∀ handle, handle ∈ before.active n ∨ handle ∈ before.returned →
    footprint.Spares (before.info handle) → after.info handle = before.info handle
  returned : ∀ handle ∈ before.returned, ¬ footprint.acting handle → handle ∈ after.returned
  active : ∀ handle ∈ before.active n, footprint.Spares (before.info handle) →
    handle ∈ after.active n
  pending : ∀ handle ∈ before.pending, footprint.Spares (before.info handle) →
    handle ∈ after.pending
  posted : ∀ receive ∈ before.posted, footprint.Spares (before.info receive.request) →
    receive ∈ after.posted
  loop : ∀ handle ∈ before.active n, footprint.Spares (before.info handle) →
    after.loop handle = before.loop handle
  heap : ∀ address, ¬ footprint.addresses address →
    after.heap address = before.heap address
  counters : ∀ cell, ¬ footprint.counters cell → after.counters cell = before.counters cell
  pointers : ∀ cell, ¬ footprint.pointers cell → after.pointers cell = before.pointers cell

namespace Rank

variable {n : Nat} {rank : Rank}

theorem mem_active_of_pending {handle : Handle} (member : handle ∈ rank.pending) :
    handle ∈ rank.active n := by
  rw [active_eq]
  exact Multiset.mem_add.mpr (.inr member)

theorem mem_active_of_posted {receive : Posted} (member : receive ∈ rank.posted) :
    receive.request ∈ rank.active n := by
  have listed : (receive.place, receive.request) ∈ rank.operations n :=
    Multiset.mem_add.mpr (.inr (Multiset.mem_coe.mpr (List.mem_map.mpr ⟨receive, member, rfl⟩)))
  exact mem_active_of_operation listed

/-- An operation in flight has not completed. -/
theorem Sound.not_pending
    {carved : List Int}
    {spare : List Handle}
    (sound : rank.Sound n carved spare)
    {operation : Place × Handle}
    (member : operation ∈ rank.operations n) :
    operation.2 ∉ rank.pending := by
  have distinct := sound.active_nodup
  rw [active_eq] at distinct
  exact Multiset.disjoint_left.mp (Multiset.disjoint_of_nodup_add distinct)
    (Multiset.mem_map_of_mem _ member)

/-- What goes on apart from the callback that is executed. -/
theorem active_cases {handle : Handle} (member : handle ∈ rank.active n) :
    (∃ place, (place, handle) ∈ rank.operations n) ∨
      (∃ callback ∈ rank.due, callback.handle = handle) ∨ handle ∈ rank.control.running := by
  rcases Multiset.mem_add.mp member with before | running
  · rcases Multiset.mem_add.mp before with operation | due
    · obtain ⟨⟨place, request⟩, inside, rfl⟩ := Multiset.mem_map.mp operation
      exact .inl ⟨place, inside⟩
    · obtain ⟨callback, inside, same⟩ := List.mem_map.mp (Multiset.mem_coe.mp due)
      exact .inr (.inl ⟨callback, inside, same⟩)
  · exact .inr (.inr running)

theorem mem_active_of_due {callback : Callback} (member : callback ∈ rank.due) :
    callback.handle ∈ rank.active n :=
  mem_active_of_pending (Multiset.mem_add.mpr (.inl (Multiset.mem_coe.mpr
    (List.mem_map_of_mem member))))

end Rank

variable {n : Nat} {comm_buffer_size : Int} {rank after : Rank} {channel : Channel}
  {footprint : Footprint}

/-- The sizes that the callbacks of a send compute with. -/
theorem Sending.GoesOn.sizes
    {sending : Sending}
    {handle : Handle}
    {index : Nat}
    (goes_on : sending.GoesOn n comm_buffer_size rank channel handle index)
    (same : rank.comm_buffer_size = comm_buffer_size) :
    rank.per_batch (rank.info handle) = sending.round.per_batch comm_buffer_size ∧
      rank.total (rank.info handle) = sending.round.count := by
  constructor
  · rw [Rank.per_batch, goes_on.describes.element_size, same]
    rfl
  · rw [Rank.total, goes_on.describes.count, goes_on.counter]

/-- The side of a sender stays as it is, if its transfer is left alone. -/
theorem SenderSide.frame
    {sending : Option Sending}
    {unsent : List (List Byte)}
    (side : SenderSide n comm_buffer_size rank channel sending unsent)
    (frame : Frame n footprint rank after)
    (held : ∀ outstanding, sending = some outstanding → outstanding.handle ∈ rank.returned ∧
      (rank.info outstanding.handle).orig_info = .handle outstanding.handle)
    (spared : ∀ outstanding, sending = some outstanding →
      ¬ footprint.acting outstanding.handle ∧ ¬ footprint.counters outstanding.counter ∧
        ∀ address, outstanding.region.Covers address → ¬ footprint.addresses address) :
    SenderSide n comm_buffer_size after channel sending unsent := by
  cases side with
  | idle => exact .idle
  | active goes_on =>
      obtain ⟨apart, cell, region⟩ := spared _ rfl
      have spares : footprint.Spares (rank.info _) := ⟨_, goes_on.origin, apart⟩
      have same := frame.info _ (.inl goes_on.active) spares
      exact .active {
        active := frame.active _ goes_on.active spares
        origin := same ▸ goes_on.origin
        describes := same ▸ goes_on.describes
        fits := goes_on.fits
        bound := goes_on.bound
        stands := by
          rw [same, frame.loop _ goes_on.active spares]
          exact goes_on.stands
        counter := (frame.counters _ cell).trans goes_on.counter
        stored := (Heap.read_congr fun address covers =>
          frame.heap address (region address covers)).trans goes_on.stored }
  | completed completed =>
      obtain ⟨returned, origin⟩ := held _ rfl
      refine .completed ?_
      rw [frame.info _ (.inr returned) ⟨_, origin, (spared _ rfl).1⟩]
      exact completed

/-- A send that has completed has nothing left to send. -/
theorem SenderSide.unsent_of_completed
    {sending : Sending}
    {unsent : List (List Byte)}
    (side : SenderSide n comm_buffer_size rank channel (some sending) unsent)
    (passive : ∀ handle ∈ rank.active n,
      (rank.info handle).orig_info ≠ .handle sending.handle) :
    unsent = [] := by
  cases side with
  | active goes_on => exact absurd goes_on.origin (passive _ goes_on.active)
  | completed => rfl

/-- A receive that has completed has taken all messages of its round. -/
theorem ReceiverSide.of_completed
    {sent : List Round}
    {received : Nat}
    {receiving : Receiving}
    {taken : List (List Byte)}
    (side : ReceiverSide comm_buffer_size rank channel sent received (some receiving) taken)
    (passive : ∀ handle ∈ rank.active n,
      (rank.info handle).orig_info ≠ .handle receiving.handle) :
    ∃ round, sent[receiving.round]? = some round ∧
      receiving.Collected comm_buffer_size rank round (round.number comm_buffer_size) ∧
      taken = Round.streams comm_buffer_size (sent.take (receiving.round + 1)) := by
  cases side with
  | announced le goes_on posted =>
      exact absurd goes_on.origin (passive _ (Rank.mem_active_of_posted posted))
  | posted found bound goes_on buffer posted collected =>
      exact absurd goes_on.origin (passive _ (Rank.mem_active_of_posted posted))
  | arrived found bound goes_on pending stored collected =>
      exact absurd goes_on.origin (passive _ (Rank.mem_active_of_pending pending))
  | completed found completed collected => exact ⟨_, found, collected, rfl⟩

/-- What has been collected stays, if the buffer and the variables are left alone. -/
theorem Receiving.Collected.frame
    {receiving : Receiving}
    {round : Round}
    {index : Nat}
    (collected : receiving.Collected comm_buffer_size rank round index)
    (frame : Frame n footprint rank after)
    (counter : ¬ footprint.counters receiving.counter)
    (pointer : ¬ footprint.pointers receiving.pointer)
    (region : ∀ address, receiving.Covers rank round.bytes.length address →
      ¬ footprint.addresses address) :
    receiving.Collected comm_buffer_size after round index where
  counter := (frame.counters _ counter).trans collected.counter
  buffer := by
    intro positive
    obtain ⟨start, pointed, stored⟩ := collected.buffer positive
    refine ⟨start, (frame.pointers _ pointer).trans pointed, ?_⟩
    rw [← stored]
    refine Heap.read_congr fun address covers => frame.heap address (region address ?_)
    exact ⟨start, pointed, covers.mono (List.length_take_le' _ _)⟩

/-- The handle that goes on with a receive stays as it is. -/
theorem Receiving.GoesOn.frame
    {receiving : Receiving}
    {element_size : Int}
    {handle : Handle}
    {index : Nat}
    (goes_on : receiving.GoesOn channel element_size rank handle index)
    (same : after.info handle = rank.info handle) :
    receiving.GoesOn channel element_size after handle index where
  origin := same ▸ goes_on.origin
  describes := same ▸ goes_on.describes
  ibatch := same ▸ goes_on.ibatch

/-- The side of a receiver stays as it is, if its transfer is left alone. -/
theorem ReceiverSide.frame
    {sent : List Round}
    {received : Nat}
    {receiving : Option Receiving}
    {taken : List (List Byte)}
    (side : ReceiverSide comm_buffer_size rank channel sent received receiving taken)
    (frame : Frame n footprint rank after)
    (held : ∀ outstanding, receiving = some outstanding → outstanding.handle ∈ rank.returned ∧
      (rank.info outstanding.handle).orig_info = .handle outstanding.handle)
    (spared : ∀ outstanding, receiving = some outstanding →
      ¬ footprint.acting outstanding.handle ∧ ¬ footprint.counters outstanding.counter ∧
        ¬ footprint.pointers outstanding.pointer ∧
        (∀ round address, sent[outstanding.round]? = some round →
          outstanding.Covers rank round.bytes.length address → ¬ footprint.addresses address) ∧
        ∀ handle comm_buffer address,
          (rank.info handle).orig_info = .handle outstanding.handle →
          handle ∈ rank.active n →
          (rank.info handle).comm_buffer = some comm_buffer →
          InBuffer comm_buffer_size comm_buffer address → ¬ footprint.addresses address)
    (fits : ∀ round ∈ sent, round.Fits comm_buffer_size) :
    ReceiverSide comm_buffer_size after channel sent received receiving taken := by
  cases side with
  | idle le => exact .idle le
  | announced le goes_on posted =>
      obtain ⟨apart, _⟩ := spared _ rfl
      have spares : footprint.Spares (rank.info _) := ⟨_, goes_on.origin, apart⟩
      have active := Rank.mem_active_of_posted (n := n) posted
      exact .announced le (goes_on.frame (frame.info _ (.inl active) spares))
        (frame.posted _ posted spares)
  | posted found bound goes_on buffer posted collected =>
      obtain ⟨apart, counter, pointer, region, _⟩ := spared _ rfl
      have spares : footprint.Spares (rank.info _) := ⟨_, goes_on.origin, apart⟩
      have active := Rank.mem_active_of_posted (n := n) posted
      have same := frame.info _ (.inl active) spares
      exact .posted found bound (goes_on.frame same) (same ▸ buffer)
        (frame.posted _ posted spares)
        (collected.frame frame counter pointer fun address => region _ address found)
  | arrived found bound goes_on pending stored collected =>
      obtain ⟨apart, counter, pointer, region, buffers⟩ := spared _ rfl
      have spares : footprint.Spares (rank.info _) := ⟨_, goes_on.origin, apart⟩
      have active := Rank.mem_active_of_pending (n := n) pending
      have same := frame.info _ (.inl active) spares
      refine .arrived found bound (goes_on.frame same) (frame.pending _ pending spares) ?_
        (collected.frame frame counter pointer fun address => region _ address found)
      intro last equal
      obtain ⟨comm_buffer, buffer, content⟩ := stored last equal
      refine ⟨comm_buffer, same ▸ buffer, ?_⟩
      have round_fits := fits _ (List.mem_of_getElem? found)
      have nonneg := round_fits.comm_buffer_size_nonneg
      have small := round_fits.batch_fits (show last < _ by omega)
      refine (Heap.read_congr fun address covers => ?_).trans content
      refine frame.heap address (buffers _ comm_buffer address goes_on.origin active buffer ?_)
      obtain ⟨lower, upper⟩ := covers
      dsimp only at lower upper
      exact ⟨lower, by omega⟩
  | completed found completed collected =>
      obtain ⟨returned, origin⟩ := held _ rfl
      obtain ⟨apart, counter, pointer, region, _⟩ := spared _ rfl
      refine .completed found ?_
        (collected.frame frame counter pointer fun address => region _ address found)
      rw [frame.info _ (.inr returned) ⟨_, origin, apart⟩]
      exact completed

/-- What a receiver has received does not depend on rounds that are sent later. -/
theorem ReceiverSide.append
    {sent : List Round}
    {received : Nat}
    {receiving : Option Receiving}
    {taken : List (List Byte)}
    (side : ReceiverSide comm_buffer_size rank channel sent received receiving taken)
    (later : List Round) :
    ReceiverSide comm_buffer_size rank channel (sent ++ later) received receiving taken := by
  have longer : ∀ {index : Nat} {round : Round}, sent[index]? = some round →
      (sent ++ later)[index]? = some round := by
    intro index round found
    rw [List.getElem?_append_left (List.getElem?_eq_some_iff.mp found).1, found]
  have shorter : ∀ {count}, count ≤ sent.length → (sent ++ later).take count = sent.take count :=
    fun le => List.take_append_of_le_length le
  have inside : ∀ {index : Nat} {round : Round}, sent[index]? = some round →
      index < sent.length :=
    fun found => (List.getElem?_eq_some_iff.mp found).1
  have total : (sent ++ later).length = sent.length + later.length := List.length_append
  cases side with
  | idle le =>
      rw [← shorter le]
      exact .idle (by omega)
  | announced le goes_on posted =>
      rw [← shorter le]
      exact .announced (by omega) goes_on posted
  | posted found bound goes_on buffer posted collected =>
      rw [← shorter (inside found).le]
      exact .posted (longer found) bound goes_on buffer posted collected
  | arrived found bound goes_on pending stored collected =>
      rw [← shorter (inside found).le]
      exact .arrived (longer found) bound goes_on pending stored collected
  | completed found completed collected =>
      rw [← shorter (inside found)]
      exact .completed (longer found) completed collected

end Ucx

end DistributedJoin
