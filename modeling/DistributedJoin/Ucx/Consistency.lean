import DistributedJoin.Ucx.Bookings

/-!
# Consistent transfers

On every channel the messages that have been received, those that are on the way and those
that the sender has still to send are the messages of all rounds that have been sent. This is
the invariant of ranks that transfer data.
-/

namespace DistributedJoin

namespace Ucx

open Device

namespace Rank

/-- A message of a rank is one of a channel, and its operation is one of a send to its
destination. -/
structure Carries (n mpi_rank : Nat) (rank : Rank) (dest : Nat) (message : Message) : Prop where
  tag : ∃ channel : Channel, channel.Valid n ∧ channel.source = mpi_rank ∧ channel.dest = dest ∧
    message.tag = channel.comm_tag
  peer : ∀ place request, message.payload = .pending place request →
    (rank.info request).peer = dest
  user_tag : ∀ place request, message.payload = .pending place request →
    message.tag = get_comm_tag (rank.info request).user_tag mpi_rank
  types : ∀ place request, message.payload = .pending place request →
    (rank.info request).types = .SEND
  count : ∀ cell request, message.payload = .pending (.counter cell) request →
    (rank.info request).count = cell

/-- What a rank has posted and what it executes is of the kind of its handles. -/
structure Located (n mpi_rank : Nat) (rank : Rank) : Prop where
  outgoing : ∀ dest, ∀ message ∈ rank.outgoing dest, rank.Carries n mpi_rank dest message
  posted : ∀ receive ∈ rank.posted, (rank.info receive.request).types = .RECV
  sends : ∀ handle, .send_handler handle ∈ rank.due → (rank.info handle).types = .SEND
  receives : ∀ handle, .recv_handler handle ∈ rank.due → (rank.info handle).types = .RECV
  sending : ∀ handle loop, rank.control = .sending handle loop →
    (rank.info handle).types = .SEND
  receiving : ∀ handle outer, rank.control = .receiving handle outer →
    (rank.info handle).types = .RECV
  alive : rank.control ≠ .crashed

end Rank

namespace World

/-- The messages of a channel that have not been received. -/
def queue (world : World) (channel : Channel) : List (List Byte) :=
  (world channel.source).queue channel.dest channel.comm_tag

end World

/-- Communication buffers are different, and have no address in common. -/
structure Separate (comm_buffer_size : Int) (buffers : List Int) : Prop where
  nodup : buffers.Nodup
  apart : ∀ first ∈ buffers, ∀ second ∈ buffers, first ≠ second → ∀ address,
    InBuffer comm_buffer_size first address → ¬ InBuffer comm_buffer_size second address

namespace Traffic

section Invariant

variable
  (n : Nat)
  (comm_buffer_size : Int)
  (buffers : Nat → List Int)
  (agreed : Agreement)
  (traffic : Traffic)

/-- The messages of a channel are those of its rounds. -/
def Flows (channel : Channel) : Prop :=
  ∃ taken unsent,
    taken ++ (traffic.world.queue channel ++ unsent) =
        Round.streams comm_buffer_size (traffic.ledger.sent channel) ∧
      SenderSide n comm_buffer_size (traffic.world channel.source) channel
        (traffic.ledger.sending channel) unsent ∧
      ReceiverSide comm_buffer_size (traffic.world channel.dest) channel
        (traffic.ledger.sent channel) (traffic.ledger.received channel)
        (traffic.ledger.receiving channel) taken

/-- The invariant of ranks that transfer data. -/
structure Consistent : Prop where
  separate : ∀ rank, Separate comm_buffer_size (buffers rank)
  sound : traffic.world.Sound n buffers
  mpi_rank : ∀ rank, (traffic.world rank).mpi_rank = rank
  located : ∀ rank, (traffic.world rank).Located n rank
  booked : traffic.Booked n comm_buffer_size buffers agreed
  fits : ∀ channel, ∀ round ∈ traffic.ledger.sent channel, round.Fits comm_buffer_size
  agree : ∀ channel index round, (traffic.ledger.sent channel)[index]? = some round →
    agreed channel index = round.toExtent
  flows : ∀ channel, channel.Valid n → traffic.Flows n comm_buffer_size channel
  comm_buffer_size : ∀ rank, (traffic.world rank).comm_buffer_size = comm_buffer_size

end Invariant

namespace Consistent

variable {n : Nat} {comm_buffer_size : Int} {buffers : Nat → List Int} {agreed : Agreement}
  {traffic : Traffic} (consistent : traffic.Consistent n comm_buffer_size buffers agreed)
include consistent

/-- The bytes of a round fill the size that has been agreed on. -/
theorem size_eq
    {channel : Channel}
    {index : Nat}
    {round : Round}
    (found : (traffic.ledger.sent channel)[index]? = some round) :
    (agreed channel index).size = round.bytes.length := by
  have length := (consistent.fits channel round (List.mem_of_getElem? found)).length
  rw [consistent.agree channel index round found, Extent.size, ← length]
  rfl

/-- A communication buffer that a transfer uses is one of those of its rank. -/
theorem comm_buffer_mem
    {rank : Nat}
    {handle : Handle}
    {comm_buffer : Int}
    (active : handle ∈ (traffic.world rank).active n)
    (buffer : ((traffic.world rank).info handle).comm_buffer = some comm_buffer) :
    comm_buffer ∈ buffers rank := by
  have sound := consistent.sound rank
  obtain ⟨orig, returned, _, same, _⟩ := (sound.engaged handle active).origin
  have held : comm_buffer ∈ (traffic.world rank).held_buffers :=
    List.mem_filterMap.mpr ⟨orig, returned, same.symm.trans buffer⟩
  exact sound.conserved.mem_iff.mp (List.mem_append_right _ held)

/-- Transfers use different communication buffers. -/
theorem buffers_apart
    {rank : Nat}
    {first second : Handle}
    {one other address : Int}
    (active : first ∈ (traffic.world rank).active n)
    (again : second ∈ (traffic.world rank).active n)
    (buffer : ((traffic.world rank).info first).comm_buffer = some one)
    (another : ((traffic.world rank).info second).comm_buffer = some other)
    (different : ((traffic.world rank).info first).orig_info ≠
      ((traffic.world rank).info second).orig_info)
    (inside : InBuffer comm_buffer_size one address) :
    ¬ InBuffer comm_buffer_size other address := by
  have sound := consistent.sound rank
  obtain ⟨orig, returned, origin, same, _⟩ := (sound.engaged first active).origin
  obtain ⟨found, foundReturned, foundOrigin, foundSame, _⟩ := (sound.engaged second again).origin
  refine (consistent.separate rank).apart one (consistent.comm_buffer_mem active buffer) other
    (consistent.comm_buffer_mem again another) (fun equal => different ?_) address inside
  have shared : orig = found :=
    sound.buffers_distinct (consistent.separate rank).nodup returned foundReturned (by
      rw [← same, ← foundSame, buffer, another, equal])
  rw [origin, foundOrigin, shared]

/-- A handle that has been returned is its own origin. -/
theorem origin_self
    {rank : Nat}
    {handle : Handle}
    (member : handle ∈ (traffic.world rank).returned) :
    ((traffic.world rank).info handle).orig_info = .handle handle :=
  ((consistent.sound rank).held handle member).2.1

/-- A handle whose transfer goes on belongs to an outstanding transfer. -/
theorem transfer_of_active
    {rank : Nat}
    {handle : Handle}
    (active : handle ∈ (traffic.world rank).active n) :
    (∃ channel sending index, channel.source = rank ∧ channel.Valid n ∧
      traffic.ledger.sending channel = some sending ∧
      sending.GoesOn n comm_buffer_size (traffic.world rank) channel handle index ∧
      ∃ taken,
        taken ++ (traffic.world.queue channel ++ sending.round.rest comm_buffer_size index) =
            Round.streams comm_buffer_size (traffic.ledger.sent channel) ∧
          ReceiverSide comm_buffer_size (traffic.world channel.dest) channel
            (traffic.ledger.sent channel) (traffic.ledger.received channel)
            (traffic.ledger.receiving channel) taken) ∨
    ∃ channel receiving, channel.dest = rank ∧ channel.Valid n ∧
      traffic.ledger.receiving channel = some receiving ∧
      ((traffic.world rank).info handle).orig_info = .handle receiving.handle ∧
      ((traffic.world rank).info receiving.handle).completed = false ∧
      receiving.Describes channel (agreed channel receiving.round).element_size
        ((traffic.world rank).info handle) := by
  have sound := consistent.sound rank
  obtain ⟨orig, returned, origin, _, incomplete⟩ := (sound.engaged handle active).origin
  rcases consistent.booked.covered rank orig returned with
    ⟨channel, sending, rfl, outstanding, rfl⟩ | ⟨channel, receiving, rfl, outstanding, rfl⟩
  · have valid := (consistent.booked.sending channel sending outstanding).valid
    obtain ⟨taken, unsent, flow, sends, receives⟩ := consistent.flows channel valid
    rw [outstanding] at sends
    cases sends with
    | active goes_on =>
        obtain rfl := sound.active_inj goes_on.active active (goes_on.origin.trans origin.symm)
        exact .inl ⟨channel, sending, _, rfl, valid, outstanding, goes_on, taken, flow, receives⟩
    | completed completed =>
        rw [completed] at incomplete
        contradiction
  · have booked := consistent.booked.receiving channel receiving outstanding
    have valid := booked.valid
    refine .inr ⟨channel, receiving, rfl, valid, outstanding, origin, incomplete, ?_⟩
    obtain ⟨taken, unsent, flow, sends, receives⟩ := consistent.flows channel valid
    rw [outstanding] at receives
    cases receives with
    | announced le goes_on posted =>
        obtain rfl := sound.active_inj (Rank.mem_active_of_posted posted) active
          (goes_on.origin.trans origin.symm)
        exact booked.describes
    | posted found bound goes_on buffer posted collected =>
        obtain rfl := sound.active_inj (Rank.mem_active_of_posted posted) active
          (goes_on.origin.trans origin.symm)
        rw [consistent.agree channel _ _ found]
        exact goes_on.describes
    | arrived found bound goes_on pending stored collected =>
        obtain rfl := sound.active_inj (Rank.mem_active_of_pending pending) active
          (goes_on.origin.trans origin.symm)
        rw [consistent.agree channel _ _ found]
        exact goes_on.describes
    | completed found completed collected =>
        rw [completed] at incomplete
        contradiction

end Consistent

end Traffic

end Ucx

end DistributedJoin
