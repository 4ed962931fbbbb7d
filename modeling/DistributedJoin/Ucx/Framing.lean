import DistributedJoin.Ucx.Consistency

/-!
# Events and the transfers they do not act for

An event of a rank acts for one of its transfers at most. The sides of all other channels and
the messages that are on the way stay as they are.
-/

namespace DistributedJoin

namespace Ucx

open Device

namespace Footprint

/-- No transfer, and no memory. -/
def nothing : Footprint := ⟨fun _ => False, fun _ => False, fun _ => False, fun _ => False⟩

/-- One transfer, and no memory. -/
def only (handle : Handle) : Footprint :=
  ⟨fun other => other = handle, fun _ => False, fun _ => False, fun _ => False⟩

end Footprint

variable {n : Nat} {rank : Rank}

/-- A message whose bytes have not been read is an operation in flight. -/
theorem Rank.operation_of_outgoing
    (within : ∀ dest, n ≤ dest → rank.outgoing dest = [])
    {dest : Nat}
    {message : Message}
    {place : Place}
    {request : Handle}
    (member : message ∈ rank.outgoing dest)
    (payload : message.payload = .pending place request) :
    (place, request) ∈ rank.operations n := by
  have bound : dest < n := by
    by_contra outside
    rw [within dest (not_lt.mp outside)] at member
    exact absurd member List.not_mem_nil
  refine Multiset.mem_add.mpr (.inl (Multiset.mem_sum.mpr ⟨dest, Finset.mem_range.mpr bound, ?_⟩))
  refine Multiset.mem_coe.mpr (List.mem_filterMap.mpr ⟨message, member, ?_⟩)
  rw [Message.operation, payload]

/-- Which messages are on the way does not matter to a frame. -/
theorem Frame.of_outgoing
    (footprint : Footprint)
    {outgoing : Nat → List Message}
    (sends : sendsOf n outgoing = sendsOf n rank.outgoing) :
    Frame n footprint rank { rank with outgoing := outgoing } where
  mpi_rank := rfl
  info := fun _ _ _ => rfl
  returned := fun _ member _ => member
  active := by
    intro handle member _
    have same : Rank.active n { rank with outgoing := outgoing } = rank.active n :=
      Rank.active_congr (congrArg (· + _) sends) rfl
    exact same ▸ member
  pending := fun _ member _ => member
  posted := fun _ member _ => member
  loop := fun _ _ _ => rfl
  heap := fun _ _ => rfl
  counters := fun _ _ => rfl
  pointers := fun _ _ => rfl

/-- Handles that are freed change, and nothing else does. A handle that has been returned is
not freed. -/
theorem Rank.free_all_eq (rank : Rank) (handles : List Handle) :
    ∃ info allocated,
      handles.foldl Rank.free_internal rank =
          { rank with info := info, allocated := allocated } ∧
        (∀ other, (rank.info other).Alike (info other)) ∧
        ∀ other, other ∉ handles ∨ (rank.info other).orig_info = .handle other →
          info other = rank.info other := by
  induction handles generalizing rank with
  | nil => exact ⟨_, _, rfl, fun _ => .of_eq rfl, fun _ _ => rfl⟩
  | cons handle handles inductionHypothesis =>
      have freed : ∃ info allocated,
          rank.free_internal handle = { rank with info := info, allocated := allocated } ∧
            (∀ other, (rank.info other).Alike (info other)) ∧
            ∀ other, other ≠ handle ∨ (rank.info other).orig_info = .handle other →
              info other = rank.info other := by
        unfold Rank.free_internal
        split
        · exact ⟨_, _, rfl, fun _ => .of_eq rfl, fun _ _ => rfl⟩
        · rename_i internal
          refine ⟨_, _, rfl, fun other => ?_, fun other kept => ?_⟩
          · by_cases same : other = handle
            · subst same
              have released : (rank.setInfo other (rank.info other).release).info other =
                  (rank.info other).release := Function.update_self _ _ _
              rw [released]
              exact ⟨rfl, rfl, rfl, rfl, rfl, rfl, rfl⟩
            · exact .of_eq (Function.update_of_ne same _ _)
          · refine Function.update_of_ne ?_ _ _
            rcases kept with different | origin
            · exact different
            · rintro rfl
              exact internal origin
      obtain ⟨first, firstAllocated, same, alike, kept⟩ := freed
      obtain ⟨info, allocated, again, later, unchanged⟩ :=
        inductionHypothesis (rank.free_internal handle)
      rw [same] at again later unchanged
      refine ⟨info, allocated, ?_, fun other => (alike other).trans (later other),
        fun other spared => ?_⟩
      · rw [List.foldl_cons, same]
        exact again
      · have earlier : first other = rank.info other :=
          kept other (spared.imp_left fun outside => (not_or.mp (List.mem_cons.not.mp outside)).1)
        refine (unchanged other ?_).trans earlier
        rcases spared with outside | origin
        · exact .inl (not_or.mp (List.mem_cons.not.mp outside)).2
        · exact .inr ((congrArg CommInfo.orig_info earlier).trans origin)

/-- Freeing handles that are spare does not change the frame. -/
theorem Frame.free_all
    {carved : List Int}
    {handles : List Handle}
    {footprint : Footprint}
    {ready : Rank}
    (frame : Frame n footprint rank ready)
    (held : ∀ handle ∈ rank.returned, (rank.info handle).orig_info = .handle handle)
    (sound : ready.Sound n carved handles) :
    Frame n footprint rank (handles.foldl Rank.free_internal ready) := by
  induction handles generalizing ready with
  | nil => exact frame
  | cons handle handles inductionHypothesis =>
      refine inductionHypothesis ?_ sound.free_internal
      unfold Rank.free_internal
      split
      · exact frame
      · rename_i internal
        have passive := (sound.spare_allocated handle List.mem_cons_self).2
        refine ⟨frame.mpi_rank, ?_, frame.returned, frame.active, frame.pending, frame.posted, frame.loop,
          frame.heap, frame.counters, frame.pointers⟩
        intro other used spares
        refine (Function.update_of_ne ?_ _ _).trans (frame.info other used spares)
        rintro rfl
        rcases used with active | returned
        · exact passive (frame.active other active spares)
        · refine internal ?_
          rw [frame.info other (.inr returned) spares]
          exact held other returned

namespace World

/-- Of all ranks but one at most the messages change. -/
structure Frames
    (n caller : Nat)
    (footprint : Footprint)
    (world after : World) : Prop where
  here : Frame n footprint (world caller) (after caller)
  others : ∀ other, other ≠ caller → ∃ outgoing,
    after other = { world other with outgoing := outgoing } ∧
      sendsOf n outgoing = sendsOf n (world other).outgoing

/-- A rank is the one that changes, or one of which at most the messages change. -/
theorem Frames.cases
    {caller : Nat}
    {footprint : Footprint}
    {world after : World}
    (frames : Frames n caller footprint world after)
    (rank : Nat) :
    rank = caller ∨ ∃ outgoing, after rank = { world rank with outgoing := outgoing } := by
  by_cases here : rank = caller
  · exact .inl here
  · obtain ⟨outgoing, same, _⟩ := frames.others rank here
    exact .inr ⟨outgoing, same⟩

/-- Only one rank changes. -/
theorem Frames.of_set
    {caller : Nat}
    {footprint : Footprint}
    {world : World}
    (frame : Frame n footprint (world caller) rank) :
    Frames n caller footprint world (world.set caller rank) where
  here := by
    rw [set_self]
    exact frame
  others := fun other different => ⟨(world other).outgoing, set_of_ne _ different _, rfl⟩

end World

namespace Traffic

/-- A footprint is clear of the transfers that an event does not act for. -/
structure Clear
    (n : Nat)
    (comm_buffer_size : Int)
    (agreed : Agreement)
    (traffic : Traffic)
    (caller : Nat)
    (footprint : Footprint) : Prop where
  sending : ∀ channel sending, channel.source = caller →
    traffic.ledger.sending channel = some sending → ¬ footprint.acting sending.handle →
    ¬ footprint.counters sending.counter ∧
      ∀ address, sending.region.Covers address → ¬ footprint.addresses address
  receiving : ∀ channel receiving, channel.dest = caller →
    traffic.ledger.receiving channel = some receiving →
    ¬ footprint.acting receiving.handle →
    ¬ footprint.counters receiving.counter ∧ ¬ footprint.pointers receiving.pointer ∧
      ∀ address, receiving.Covers (traffic.world caller) (agreed channel receiving.round).size
        address → ¬ footprint.addresses address
  buffers : ∀ handle ∈ (traffic.world caller).active n,
    footprint.Spares ((traffic.world caller).info handle) →
    ∀ comm_buffer address, ((traffic.world caller).info handle).comm_buffer = some comm_buffer →
      InBuffer comm_buffer_size comm_buffer address → ¬ footprint.addresses address

/-- An address of a rank belongs to a transfer that an event acts for, or to none. -/
inductive Owned
    (n : Nat)
    (comm_buffer_size : Int)
    (buffers : Nat → List Int)
    (agreed : Agreement)
    (traffic : Traffic)
    (caller : Nat)
    (footprint : Footprint)
    (address : Int) : Prop
  | buffer
      {handle orig : Handle}
      {comm_buffer : Int}
      (active : handle ∈ (traffic.world caller).active n)
      (origin : ((traffic.world caller).info handle).orig_info = .handle orig)
      (acting : footprint.acting orig)
      (buffer : ((traffic.world caller).info handle).comm_buffer = some comm_buffer)
      (inside : InBuffer comm_buffer_size comm_buffer address)
  | region
      {channel : Channel}
      {receiving : Receiving}
      (dest : channel.dest = caller)
      (outstanding : traffic.ledger.receiving channel = some receiving)
      (acting : footprint.acting receiving.handle)
      (covers : receiving.Covers (traffic.world caller) (agreed channel receiving.round).size
        address)
  | unused (unused : ¬ traffic.InUse agreed caller address (buffers caller) comm_buffer_size)

/-- The messages on the way from a rank are not sent by the event. -/
def SparesMessages (traffic : Traffic) (caller : Nat) (footprint : Footprint) : Prop :=
  ∀ dest, ∀ message ∈ (traffic.world caller).outgoing dest, ∀ place request,
    message.payload = .pending place request →
      footprint.Spares ((traffic.world caller).info request)

/-- A footprint with addresses that no other transfer uses is clear. -/
theorem Consistent.clear_of
    {comm_buffer_size : Int}
    {buffers : Nat → List Int}
    {agreed : Agreement}
    {traffic : Traffic}
    {caller : Nat}
    {footprint : Footprint}
    (consistent : traffic.Consistent n comm_buffer_size buffers agreed)
    (addresses : ∀ address, footprint.addresses address →
      traffic.Owned n comm_buffer_size buffers agreed caller footprint address)
    (counters : ∀ channel sending, channel.source = caller →
      traffic.ledger.sending channel = some sending → ¬ footprint.acting sending.handle →
      ¬ footprint.counters sending.counter)
    (cells : ∀ channel receiving, channel.dest = caller →
      traffic.ledger.receiving channel = some receiving →
      ¬ footprint.acting receiving.handle →
      ¬ footprint.counters receiving.counter ∧ ¬ footprint.pointers receiving.pointer) :
    traffic.Clear n comm_buffer_size agreed caller footprint where
  sending := by
    intro channel sending source outstanding apart
    refine ⟨counters channel sending source outstanding apart, fun address covers written => ?_⟩
    have reads : traffic.Reads caller address := ⟨channel, sending, source, outstanding, covers⟩
    obtain ⟨outside, unwritten⟩ := consistent.booked.reads caller address reads
    cases addresses address written with
    | buffer active _ _ buffer inside =>
        exact outside _ (consistent.comm_buffer_mem active buffer) inside
    | region dest outstanding _ covers =>
        exact unwritten ⟨_, _, dest, outstanding, covers⟩
    | unused unused => exact unused (.inr (.inl reads))
  receiving := by
    intro channel receiving dest outstanding apart
    obtain ⟨counter, pointer⟩ := cells channel receiving dest outstanding apart
    refine ⟨counter, pointer, fun address covers written => ?_⟩
    have writes : traffic.Writes agreed caller address :=
      ⟨channel, receiving, dest, outstanding, covers⟩
    cases addresses address written with
    | buffer active _ _ buffer inside =>
        exact consistent.booked.writes caller address writes _
          (consistent.comm_buffer_mem active buffer) inside
    | @region other found otherDest others acting overlap =>
        have different : channel ≠ other := by
          rintro rfl
          obtain rfl := Option.some.inj (outstanding.symm.trans others)
          exact apart acting
        subst dest
        exact (consistent.booked.distinct channel other receiving found otherDest.symm different
          outstanding others).2.2 address covers overlap
    | unused unused => exact unused (.inr (.inr writes))
  buffers := by
    rintro handle active ⟨orig, origin, apart⟩ comm_buffer address buffer inside written
    have member := consistent.comm_buffer_mem active buffer
    cases addresses address written with
    | buffer again found acting another overlap =>
        refine consistent.buffers_apart active again buffer another (fun same => ?_) inside overlap
        obtain rfl := OrigInfo.handle.inj (origin.symm.trans (same.trans found))
        exact apart acting
    | region dest outstanding _ covers =>
        exact consistent.booked.writes caller address ⟨_, _, dest, outstanding, covers⟩ _ member
          inside
    | unused unused => exact unused (.inl ⟨comm_buffer, member, inside⟩)

namespace Consistent

variable {comm_buffer_size : Int} {buffers : Nat → List Int} {agreed : Agreement}
  {traffic : Traffic} {caller : Nat} {footprint : Footprint} {after : World}
  (consistent : traffic.Consistent n comm_buffer_size buffers agreed)
  (frames : World.Frames n caller footprint traffic.world after)
  (clear : traffic.Clear n comm_buffer_size agreed caller footprint)
include consistent frames clear

/-- The side of a sender that an event does not act for. -/
theorem sender_kept
    {channel : Channel}
    {unsent : List (List Byte)}
    (apart : ∀ sending, traffic.ledger.sending channel = some sending →
      channel.source = caller → ¬ footprint.acting sending.handle)
    (side : SenderSide n comm_buffer_size (traffic.world channel.source) channel
      (traffic.ledger.sending channel) unsent) :
    SenderSide n comm_buffer_size (after channel.source) channel
      (traffic.ledger.sending channel) unsent := by
  have held : ∀ outstanding, traffic.ledger.sending channel = some outstanding →
      outstanding.handle ∈ (traffic.world channel.source).returned ∧
        ((traffic.world channel.source).info outstanding.handle).orig_info =
          .handle outstanding.handle := by
    intro outstanding found
    have returned := (consistent.booked.sending channel outstanding found).returned
    exact ⟨returned, consistent.origin_self returned⟩
  by_cases here : channel.source = caller
  · subst here
    exact side.frame frames.here held fun outstanding found =>
      ⟨apart outstanding found rfl, clear.sending channel outstanding rfl found
        (apart outstanding found rfl)⟩
  · obtain ⟨outgoing, same, sends⟩ := frames.others channel.source here
    rw [same]
    exact side.frame (.of_outgoing .nothing sends) held fun outstanding found =>
      ⟨id, id, fun _ _ => id⟩

/-- The side of a receiver that an event does not act for. -/
theorem receiver_kept
    {channel : Channel}
    {taken : List (List Byte)}
    (apart : ∀ receiving, traffic.ledger.receiving channel = some receiving →
      channel.dest = caller → ¬ footprint.acting receiving.handle)
    (side : ReceiverSide comm_buffer_size (traffic.world channel.dest) channel
      (traffic.ledger.sent channel) (traffic.ledger.received channel)
      (traffic.ledger.receiving channel) taken) :
    ReceiverSide comm_buffer_size (after channel.dest) channel
      (traffic.ledger.sent channel) (traffic.ledger.received channel)
      (traffic.ledger.receiving channel) taken := by
  have held : ∀ outstanding, traffic.ledger.receiving channel = some outstanding →
      outstanding.handle ∈ (traffic.world channel.dest).returned ∧
        ((traffic.world channel.dest).info outstanding.handle).orig_info =
          .handle outstanding.handle := by
    intro outstanding found
    have returned := (consistent.booked.receiving channel outstanding found).returned
    exact ⟨returned, consistent.origin_self returned⟩
  by_cases here : channel.dest = caller
  · subst here
    refine side.frame frames.here held (fun outstanding found => ?_) (consistent.fits channel)
    have different := apart outstanding found rfl
    obtain ⟨counter, pointer, region⟩ := clear.receiving channel outstanding rfl found different
    refine ⟨different, counter, pointer, fun round address sent covers => ?_,
      fun handle comm_buffer address origin active buffer => ?_⟩
    · exact region address (consistent.size_eq sent ▸ covers)
    · exact clear.buffers handle active ⟨_, origin, different⟩ comm_buffer address buffer
  · obtain ⟨outgoing, same, sends⟩ := frames.others channel.dest here
    rw [same]
    exact side.frame (.of_outgoing .nothing sends) held (fun outstanding found =>
      ⟨id, id, id, fun _ _ _ _ => id, fun _ _ _ _ _ _ _ => id⟩) (consistent.fits channel)

/-- The bytes of the messages on the way, unless it is the event that sends them. -/
theorem content_kept
    (quiet : traffic.SparesMessages caller footprint)
    {rank dest : Nat}
    {messages : List Message}
    (listed : ∀ message ∈ messages, message ∈ (traffic.world rank).outgoing dest)
    (tag : Tag) :
    (after rank).contents tag messages = (traffic.world rank).contents tag messages := by
  apply Rank.contents_congr
  intro message member place request payload
  by_cases here : rank = caller
  · subst here
    have sound := consistent.sound rank
    have sent := listed message member
    have operation := Rank.operation_of_outgoing sound.within sent payload
    have active := Rank.mem_active_of_operation operation
    have spares := quiet dest message sent place request payload
    have carries := (consistent.located rank).outgoing dest message sent
    cases place with
    | counter cell =>
        rcases consistent.transfer_of_active active with
          ⟨channel, sending, _, source, _, outstanding, goes_on, _⟩ |
          ⟨channel, receiving, _, _, _, _, _, describes⟩
        · obtain ⟨orig, origin, apart⟩ := spares
          obtain rfl := OrigInfo.handle.inj (origin.symm.trans goes_on.origin)
          have cells := (clear.sending channel sending source outstanding apart).1
          have counter := carries.count cell request payload
          rw [goes_on.describes.count] at counter
          change encode 8 ((after rank).counters cell) = encode 8 ((traffic.world rank).counters cell)
          rw [frames.here.counters cell (counter ▸ cells)]
        · have types := (carries.types _ request payload).symm.trans describes.types
          contradiction
    | device start size =>
        obtain ⟨buffer, fits⟩ := sound.placed _ operation start size rfl
        rw [consistent.comm_buffer_size rank] at fits
        refine Heap.read_congr fun address covers => frames.here.heap address ?_
        refine clear.buffers request active spares start address buffer ?_
        obtain ⟨lower, upper⟩ := covers
        dsimp only at lower upper
        exact ⟨lower, by omega⟩
  · obtain ⟨outgoing, same, _⟩ := frames.others rank here
    rw [same]
    cases place <;> rfl

/-- The messages of a channel stay the same if none is sent or received. -/
theorem queue_kept
    (quiet : traffic.SparesMessages caller footprint)
    {channel : Channel}
    (same : (after channel.source).outgoing channel.dest =
      (traffic.world channel.source).outgoing channel.dest) :
    after.queue channel = traffic.world.queue channel := by
  rw [World.queue, Rank.queue, same]
  exact consistent.content_kept frames clear quiet (fun _ member => member) _

/-- A message that has been sent is on its channel, and on no other. -/
theorem queue_push
    (quiet : traffic.SparesMessages caller footprint)
    (ranks : n ≤ 2 ^ 31)
    {channel : Channel}
    {message : Message}
    (valid : channel.Valid n)
    (tag : message.tag = channel.comm_tag)
    (source : channel.source = caller)
    (pushed : (after caller).outgoing = Function.update (traffic.world caller).outgoing channel.dest
      ((traffic.world caller).outgoing channel.dest ++ [message]))
    (others : ∀ other, other ≠ caller → after other = traffic.world other) :
    after.queue channel =
        traffic.world.queue channel ++ [(after caller).content message] ∧
      ∀ other, other.Valid n → other ≠ channel →
        after.queue other = traffic.world.queue other := by
  subst source
  have same : ∀ tag, (after channel.source).contents tag
        ((traffic.world channel.source).outgoing channel.dest) =
      (traffic.world channel.source).contents tag
        ((traffic.world channel.source).outgoing channel.dest) :=
    consistent.content_kept frames clear quiet fun _ member => member
  constructor
  · rw [World.queue, Rank.queue, pushed, Function.update_self, Rank.contents_append, ← tag,
      Rank.contents_single, tag, same]
    rfl
  · intro other otherValid different
    by_cases here : other.source = channel.source ∧ other.dest = channel.dest
    · have apart : message.tag ≠ other.comm_tag := by
        intro same
        exact different (Channel.eq_of_comm_tag ranks otherValid valid here.2
          (same.symm.trans tag))
      rw [World.queue, Rank.queue, here.1, here.2, pushed, Function.update_self,
        Rank.contents_append, Rank.contents_single_of_ne _ apart, List.append_nil, same,
        World.queue, Rank.queue, here.1, here.2]
    · refine consistent.queue_kept frames clear quiet ?_
      by_cases source : other.source = channel.source
      · rw [source, pushed, Function.update_of_ne fun dest => here ⟨source, dest⟩]
      · rw [others other.source source]

omit clear in
/-- What follows an event that keeps the bookkeeping. -/
theorem of_keeps
    {ledger : Ledger}
    {returned : Nat → List Handle}
    {record : Nat → Record}
    (kept : World.Keeps n buffers traffic.world after returned record)
    (located : ∀ rank, (after rank).Located n rank)
    (booked : Booked n comm_buffer_size buffers agreed ⟨after, ledger⟩)
    (fits : ∀ channel, ∀ round ∈ ledger.sent channel, round.Fits comm_buffer_size)
    (agree : ∀ channel index round, (ledger.sent channel)[index]? = some round →
      agreed channel index = round.toExtent)
    (flows : ∀ channel, channel.Valid n →
      Flows n comm_buffer_size ⟨after, ledger⟩ channel) :
    Consistent n comm_buffer_size buffers agreed ⟨after, ledger⟩ where
  separate := consistent.separate
  sound := fun rank => (kept rank).sound
  mpi_rank := by
    intro rank
    refine Eq.trans ?_ (consistent.mpi_rank rank)
    by_cases here : rank = caller
    · subst here
      exact frames.here.mpi_rank
    · obtain ⟨outgoing, same, _⟩ := frames.others rank here
      change (after rank).mpi_rank = _
      rw [same]
  located := located
  booked := booked
  fits := fits
  agree := agree
  flows := flows
  comm_buffer_size := fun rank =>
    (kept rank).comm_buffer_size.trans (consistent.comm_buffer_size rank)

/-- The flow of the channels that an event does not act for. -/
theorem flows_kept
    {ledger : Ledger}
    (Acts : Channel → Prop)
    (apart : ∀ channel, ¬ Acts channel →
      (∀ sending, traffic.ledger.sending channel = some sending → channel.source = caller →
        ¬ footprint.acting sending.handle) ∧
      ∀ receiving, traffic.ledger.receiving channel = some receiving → channel.dest = caller →
        ¬ footprint.acting receiving.handle)
    (same : ∀ channel, ¬ Acts channel →
      ledger.sent channel = traffic.ledger.sent channel ∧
        ledger.sending channel = traffic.ledger.sending channel ∧
        ledger.received channel = traffic.ledger.received channel ∧
        ledger.receiving channel = traffic.ledger.receiving channel)
    (queue : ∀ channel, channel.Valid n → ¬ Acts channel →
      after.queue channel = traffic.world.queue channel)
    (flows : ∀ channel, channel.Valid n → Acts channel →
      Flows n comm_buffer_size ⟨after, ledger⟩ channel) :
    ∀ channel, channel.Valid n → Flows n comm_buffer_size ⟨after, ledger⟩ channel := by
  intro channel valid
  by_cases acts : Acts channel
  · exact flows channel valid acts
  · obtain ⟨taken, unsent, flow, sends, receives⟩ := consistent.flows channel valid
    obtain ⟨sender, receiver⟩ := apart channel acts
    obtain ⟨sent, sending, received, receiving⟩ := same channel acts
    refine ⟨taken, unsent, ?_, ?_, ?_⟩
    · change taken ++ (after.queue channel ++ unsent) = Round.streams _ (ledger.sent channel)
      rw [queue channel valid acts, sent]
      exact flow
    · change SenderSide _ _ _ _ (ledger.sending channel) _
      rw [sending]
      exact consistent.sender_kept frames clear sender sends
    · change ReceiverSide _ _ _ (ledger.sent channel) (ledger.received channel)
        (ledger.receiving channel) _
      rw [sent, received, receiving]
      exact consistent.receiver_kept frames clear receiver receives

end Consistent

end Traffic

namespace Traffic.Booked

variable {comm_buffer_size : Int} {buffers : Nat → List Int} {agreed : Agreement}
  {traffic : Traffic} (booked : traffic.Booked n comm_buffer_size buffers agreed)
include booked

/-- Transfers stay as they are booked while the handles, variables and pointers of the rank do
that an event belongs to. -/
theorem of_frames
    {caller : Nat}
    {footprint : Footprint}
    {after : World}
    (frames : World.Frames n caller footprint traffic.world after)
    (returned : (after caller).returned = (traffic.world caller).returned)
    (alike : ∀ handle ∈ (traffic.world caller).returned,
      ((traffic.world caller).info handle).Alike ((after caller).info handle))
    (malloced : (after caller).malloced = (traffic.world caller).malloced)
    (pointers : (after caller).pointers = (traffic.world caller).pointers) :
    Booked n comm_buffer_size buffers agreed ⟨after, traffic.ledger⟩ := by
  have cases := frames.cases
  refine booked.congr ?_ ?_ ?_ ?_
  · intro rank
    obtain rfl | ⟨outgoing, same⟩ := cases rank
    · exact returned
    · rw [same]
  · intro rank handle member
    obtain rfl | ⟨outgoing, same⟩ := cases rank
    · exact alike handle member
    · exact .of_eq (by rw [same])
  · intro rank
    obtain rfl | ⟨outgoing, same⟩ := cases rank
    · exact malloced
    · rw [same]
  · intro rank
    obtain rfl | ⟨outgoing, same⟩ := cases rank
    · exact pointers
    · rw [same]

/-- An event that acts for a send does not act for other transfers. -/
theorem apart_of_sending
    {channel : Channel}
    {sending : Sending}
    (outstanding : traffic.ledger.sending channel = some sending)
    (other : Channel) :
    (other ≠ channel → ∀ found, traffic.ledger.sending other = some found →
      other.source = channel.source → found.handle ≠ sending.handle) ∧
    ∀ found, traffic.ledger.receiving other = some found →
      other.dest = channel.source → found.handle ≠ sending.handle :=
  ⟨fun different _ sends source same =>
      different (booked.sending_inj source sends outstanding same),
    fun _ receives dest same =>
      booked.handles_ne dest.symm outstanding receives same.symm⟩

/-- An event that acts for a receive does not act for other transfers. -/
theorem apart_of_receiving
    {channel : Channel}
    {receiving : Receiving}
    (outstanding : traffic.ledger.receiving channel = some receiving)
    (other : Channel) :
    (other ≠ channel → ∀ found, traffic.ledger.receiving other = some found →
      other.dest = channel.dest → found.handle ≠ receiving.handle) ∧
    ∀ found, traffic.ledger.sending other = some found →
      other.source = channel.dest → found.handle ≠ receiving.handle :=
  ⟨fun different _ receives dest same =>
      different (booked.receiving_inj dest receives outstanding same),
    fun _ sends source same => booked.handles_ne source sends outstanding same⟩

end Traffic.Booked

/-- What is posted and executed stays of the kind of its handles. -/
theorem Rank.Located.of_alike
    {mpi_rank : Nat}
    {after : Rank}
    (located : rank.Located n mpi_rank)
    (within : ∀ dest, n ≤ dest → rank.outgoing dest = [])
    (alike : ∀ handle ∈ rank.active n, (rank.info handle).Alike (after.info handle))
    (outgoing : ∀ dest, ∀ message ∈ after.outgoing dest,
      message ∈ rank.outgoing dest ∨ after.Carries n mpi_rank dest message)
    (posted : ∀ receive ∈ after.posted,
      receive ∈ rank.posted ∨ (after.info receive.request).types = .RECV)
    (sends : ∀ handle, .send_handler handle ∈ after.due →
      .send_handler handle ∈ rank.due ∨ (after.info handle).types = .SEND)
    (receives : ∀ handle, .recv_handler handle ∈ after.due →
      .recv_handler handle ∈ rank.due ∨ (after.info handle).types = .RECV)
    (sending : ∀ handle loop, after.control = .sending handle loop →
      (after.info handle).types = .SEND)
    (receiving : ∀ handle outer, after.control = .receiving handle outer →
      (after.info handle).types = .RECV)
    (alive : after.control ≠ .crashed) :
    after.Located n mpi_rank where
  outgoing := by
    intro dest message member
    rcases outgoing dest message member with before | carries
    · have earlier := located.outgoing dest message before
      have active : ∀ {place request}, message.payload = .pending place request →
          request ∈ rank.active n := fun payload =>
        Rank.mem_active_of_operation (Rank.operation_of_outgoing within before payload)
      exact {
        tag := earlier.tag
        peer := fun place request payload =>
          (alike request (active payload)).peer.trans (earlier.peer place request payload)
        user_tag := fun place request payload => by
          rw [(alike request (active payload)).user_tag]
          exact earlier.user_tag place request payload
        types := fun place request payload =>
          (alike request (active payload)).types.trans (earlier.types place request payload)
        count := fun cell request payload =>
          (alike request (active payload)).count.trans (earlier.count cell request payload) }
    · exact carries
  posted := by
    intro receive member
    rcases posted receive member with before | kind
    · exact (alike _ (mem_active_of_posted before)).types.trans (located.posted receive before)
    · exact kind
  sends := by
    intro handle member
    rcases sends handle member with before | kind
    · exact (alike _ (mem_active_of_due before)).types.trans (located.sends handle before)
    · exact kind
  receives := by
    intro handle member
    rcases receives handle member with before | kind
    · exact (alike _ (mem_active_of_due before)).types.trans (located.receives handle before)
    · exact kind
  sending := sending
  receiving := receiving
  alive := alive

end Ucx

end DistributedJoin
