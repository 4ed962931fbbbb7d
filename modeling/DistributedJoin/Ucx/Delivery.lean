import DistributedJoin.Ucx.Collecting

/-!
# Data is delivered

Every event of programs that keep to the rules of a ledger keeps transfers consistent, and
writes to communication buffers and to the buffers of receives only. So a receive that has
completed has the elements of the send that it belongs to, whatever the order of events was,
and no message is lost, repeated or out of order. A send that throws, however, has posted its
header already, which the receive takes for that of the next send.
-/

namespace DistributedJoin

namespace Ucx

open Device

/-- Entering `send_handler` leaves memory as it is. -/
theorem Rank.enter_send_handler_heap (rank : Rank) (handle : Handle) :
    (rank.enter_send_handler handle).heap = rank.heap := by
  unfold enter_send_handler
  dsimp only
  split <;> rfl

/-- `send_handler` writes to the communication buffer of its handle only. -/
theorem Rank.heap_of_send_handler
    {rank later : Rank}
    {handle : Handle}
    {loop : SendLoop}
    {request : Option Nat}
    (sent : rank.send_handler handle loop request = some later)
    {address : Int}
    (changed : later.heap address ≠ rank.heap address) :
    ∃ comm_buffer, (rank.info handle).comm_buffer = some comm_buffer ∧
      InBuffer rank.comm_buffer_size comm_buffer address := by
  by_cases remaining : 0 < loop.nelements_remaining
  · obtain ⟨comm_buffer, buffer, cases⟩ := send_handler_eq remaining sent
    have heap : later.heap = (rank.copy_batch handle loop comm_buffer).heap := by
      rcases cases with ⟨_, rfl⟩ | ⟨index, _, _, rfl⟩
      · rfl
      · unfold free_internal
        split <;> rfl
    refine ⟨comm_buffer, buffer, ?_⟩
    by_contra outside
    rw [heap] at changed
    refine changed (copy_batch_apply fun covers => outside ?_)
    have fits := nelements_current_batch_fits remaining rank.comm_buffer_size
      (rank.info handle).element_size
    change rank.batch_size handle loop ≤ rank.comm_buffer_size.toNat at fits
    obtain ⟨lower, upper⟩ := covers
    dsimp only at lower upper
    exact ⟨lower, by omega⟩
  · unfold send_handler at sent
    rw [if_neg remaining] at sent
    obtain rfl := Option.some.inj sent
    refine absurd (congrFun ?_ address) changed
    unfold free_internal complete
    split <;> split <;> rfl

namespace Traffic

section Results

variable
  (n : Nat)
  (comm_buffer_size : Int)
  (buffers : Nat → List Int)
  (agreed : Agreement)
  (traffic : Traffic)

/-- Events of programs that keep to the rules, and do not run out of buffers. -/
def Permits (event : World.Event) : Prop :=
  traffic.Obeys n comm_buffer_size buffers agreed event ∧
    traffic.Meets comm_buffer_size event

/-- An address that is written to: of a communication buffer, or of the buffer of an outstanding
receive whose round has been sent. -/
def Written (rank : Nat) (address : Int) : Prop :=
  (∃ buffer ∈ buffers rank, InBuffer comm_buffer_size buffer address) ∨
    ∃ channel receiving round, channel.dest = rank ∧
      traffic.ledger.receiving channel = some receiving ∧
      (traffic.ledger.sent channel)[receiving.round]? = some round ∧
      receiving.Covers (traffic.world rank) round.bytes.length address

end Results

/-- All sends that have been called on a channel have completed. -/
def AllSent (traffic : Traffic) (channel : Channel) : Prop :=
  ∀ sending, traffic.ledger.sending channel = some sending →
    ((traffic.world channel.source).info sending.handle).completed = true

/-- All receives that have been called on a channel have completed. -/
def AllReceived (traffic : Traffic) (channel : Channel) : Prop :=
  ∀ receiving, traffic.ledger.receiving channel = some receiving →
    ((traffic.world channel.dest).info receiving.handle).completed = true

/-- A receive has what has been sent in its round: the number of elements, and all bytes in the
buffer that has been given or allocated. -/
structure Delivered (traffic : Traffic) (channel : Channel) (receiving : Receiving) (round : Round) :
    Prop where
  sent : (traffic.ledger.sent channel)[receiving.round]? = some round
  counter : (traffic.world channel.dest).counters receiving.counter = round.count
  given : ∀ buf, receiving.buffer = .given buf →
    (traffic.world channel.dest).pointers receiving.pointer = some buf
  buffer : round.bytes ≠ [] → ∃ start,
    (traffic.world channel.dest).pointers receiving.pointer = some start ∧
      (traffic.world channel.dest).heap.read start round.bytes.length = round.bytes

namespace Consistent

variable {n : Nat} {comm_buffer_size : Int} {buffers : Nat → List Int} {agreed : Agreement}
  {traffic : Traffic} {world : World}
  (consistent : traffic.Consistent n comm_buffer_size buffers agreed)
include consistent

/-- A receive that has completed has its data. -/
theorem delivered
    {channel : Channel}
    {receiving : Receiving}
    (outstanding : traffic.ledger.receiving channel = some receiving)
    (completed : ((traffic.world channel.dest).info receiving.handle).completed = true) :
    ∃ round, traffic.Delivered channel receiving round := by
  have booked := consistent.booked.receiving channel receiving outstanding
  obtain ⟨_, _, _, _, receives⟩ := consistent.flows channel booked.valid
  rw [outstanding] at receives
  obtain ⟨round, found, collected, _⟩ :=
    receives.of_completed ((consistent.sound channel.dest).passive_of_completed completed)
  refine ⟨round, found, collected.counter, booked.given, fun filled => ?_⟩
  have fits := consistent.fits channel round (List.mem_of_getElem? found)
  have whole := fits.take_number
  obtain ⟨start, pointer, stored⟩ := collected.buffer (Nat.pos_of_ne_zero fun none => by
    rw [none, Nat.zero_mul, List.take_zero] at whole
    exact filled whole.symm)
  rw [Round.before, whole] at stored
  exact ⟨start, pointer, stored⟩

/-- What the receiver of a channel has taken, what is on the way and what is left to be sent
are the messages of the rounds that have been sent, in their order. -/
theorem in_order
    {channel : Channel}
    (valid : channel.Valid n) :
    ∃ taken unsent,
      taken ++ (traffic.world.queue channel ++ unsent) =
          Round.streams comm_buffer_size (traffic.ledger.sent channel) ∧
        (traffic.AllSent channel → unsent = []) ∧
        (traffic.AllReceived channel →
          traffic.ledger.received channel ≤ (traffic.ledger.sent channel).length ∧
            taken = Round.streams comm_buffer_size
              ((traffic.ledger.sent channel).take (traffic.ledger.received channel))) := by
  obtain ⟨taken, unsent, flow, sends, receives⟩ := consistent.flows channel valid
  refine ⟨taken, unsent, flow, fun all_sent => ?_, fun all_received => ?_⟩
  · cases outstanding : traffic.ledger.sending channel with
    | none =>
        rw [outstanding] at sends
        cases sends
        rfl
    | some sending =>
        rw [outstanding] at sends
        exact sends.unsent_of_completed ((consistent.sound channel.source).passive_of_completed
          (all_sent sending outstanding))
  · cases outstanding : traffic.ledger.receiving channel with
    | none =>
        rw [outstanding] at receives
        cases receives with
        | idle le => exact ⟨le, rfl⟩
    | some receiving =>
        rw [outstanding] at receives
        obtain ⟨round, found, _, whole⟩ := receives.of_completed
          ((consistent.sound channel.dest).passive_of_completed
            (all_received receiving outstanding))
        rw [← consistent.booked.received channel receiving outstanding]
        exact ⟨(List.getElem?_eq_some_iff.mp found).1, whole⟩

/-- `recv_handler` is executed. -/
theorem recv_handler
    {self request : Nat}
    {address : Int}
    {inside : Option Nat}
    {after : World}
    (ranks : n ≤ 2 ^ 31)
    (obeys : traffic.Obeys n comm_buffer_size buffers agreed
      (.recv_handler self address request inside))
    (stepped : traffic.world.step (.recv_handler self address request inside) = some after) :
    Consistent n comm_buffer_size buffers agreed ⟨after, traffic.ledger⟩ ∧
      ∀ rank written, (after rank).heap written ≠ (traffic.world rank).heap written →
        Written comm_buffer_size buffers ⟨after, traffic.ledger⟩ rank written := by
  dsimp only [World.step] at stepped
  split at stepped
  · rename_i handle outer control
    obtain ⟨channel, receiving, round, index, unsent, rfl, handling⟩ :=
      consistent.handling control
    have sound := consistent.sound channel.dest
    have kept := consistent.sound.recv_handler control stepped
    obtain ⟨heap, copies, cases⟩ := World.recv_handler_cases
      (by rw [handling.arrived.goes_on.origin]; simp)
      (sound.engaged handle handling.active).comm stepped
    have found := handling.arrived.found
    have size := consistent.size_eq found
    split at cases
    · rename_i more
      obtain ⟨comm_buffer, posted, buffer, receives, same⟩ := cases
      obtain ⟨after_consistent, writes⟩ := consistent.recv_batch handling control obeys ranks copies
        more buffer receives rfl same kept
      refine ⟨after_consistent, fun rank written changed => ?_⟩
      by_cases here : rank = channel.dest
      · subst here
        rcases writes written changed with within | covers
        · exact .inl within
        · exact .inr ⟨channel, receiving, round, rfl, handling.outstanding, found, size ▸ covers⟩
      · obtain ⟨outgoing, kept_rank, _⟩ := World.of_recv_nb here
          (by rw [World.set_of_ne _ here]; exact (consistent.sound rank).within) receives
        rw [World.set_of_ne _ here] at kept_rank
        rw [same, World.set_of_ne _ here, kept_rank] at changed
        contradiction
    · rename_i ended
      obtain ⟨after_consistent, writes⟩ := consistent.recv_last handling control obeys copies ended
        cases kept
      refine ⟨after_consistent, fun rank written changed => ?_⟩
      by_cases here : rank = channel.dest
      · subst here
        exact .inr ⟨channel, receiving, round, rfl, handling.outstanding, found,
          size ▸ writes written changed⟩
      · rw [cases, World.set_of_ne _ here] at changed
        contradiction
  · contradiction

/-- `send_handler` is executed. -/
theorem send_handler
    {self : Nat}
    {request : Option Nat}
    {after : World}
    (ranks : n ≤ 2 ^ 31)
    (stepped : traffic.world.step (.send_handler self request) = some after) :
    Consistent n comm_buffer_size buffers agreed ⟨after, traffic.ledger⟩ := by
  dsimp only [World.step] at stepped
  split at stepped
  · rename_i handle loop control
    obtain ⟨later, sent, rfl⟩ := Option.map_eq_some_iff.mp stepped
    have running : (traffic.world self).control.running = {handle} := by
      rw [control]
      rfl
    have types := (consistent.located self).sending handle loop control
    rcases consistent.transfer_of_active (Rank.mem_active_of_running running) with
      ⟨channel, sending, index, rfl, valid, outstanding, goes_on, taken, flow, receives⟩ |
      ⟨_, _, _, _, _, _, _, describes⟩
    · by_cases remaining : 0 < loop.nelements_remaining
      · exact consistent.send_batch ranks control valid outstanding goes_on flow receives remaining
          sent
      · exact consistent.send_last control outstanding goes_on flow receives remaining sent
    · have receives := types.symm.trans describes.types
      contradiction
  · contradiction

/-- A callback begins. -/
theorem progress
    {self position : Nat}
    {after : World}
    (stepped : traffic.world.step (.progress self position) = some after) :
    Consistent n comm_buffer_size buffers agreed ⟨after, traffic.ledger⟩ := by
  have begun := stepped
  dsimp only [World.step, World.progress] at begun
  split at begun
  · rename_i idle
    split at begun
    · contradiction
    · rename_i due
      exact consistent.progress_send idle due stepped
    · rename_i due
      exact consistent.progress_recv idle due stepped
  · contradiction

/-- Every event keeps transfers consistent. -/
theorem step
    {event : World.Event}
    {after : Traffic}
    (ranks : n ≤ 2 ^ 31)
    (memory : comm_buffer_size ≤ 2 ^ 57)
    (permitted : traffic.Permits n comm_buffer_size buffers agreed event)
    (stepped : traffic.step event = some after) :
    after.Consistent n comm_buffer_size buffers agreed := by
  obtain ⟨obeys, meets⟩ := permitted
  obtain ⟨world, happened, rfl⟩ := Option.map_eq_some_iff.mp stepped
  cases event with
  | send self buf count element_size dest tag custom request =>
      obtain ⟨⟨outcome, later⟩, sent, rfl⟩ := Option.map_eq_some_iff.mp happened
      rcases (consistent.sound self).send obeys.1.2.1 sent with ⟨empty, _⟩ | ⟨handle, rfl, _⟩
      · exact absurd empty meets.1
      · have begun := consistent.send_call ranks memory obeys meets.2 sent
        simpa only [record, sent] using begun
  | recv self buffer element_size source tag request inside =>
      obtain ⟨⟨outcome, later⟩, received, rfl⟩ := Option.map_eq_some_iff.mp happened
      rcases consistent.sound.recv obeys.1.1 received with ⟨empty, _⟩ | ⟨handle, rfl, _⟩
      · exact absurd empty meets
      · have begun := consistent.recv_call ranks obeys received
        simpa only [record, received] using begun
  | waitall self handles => exact consistent.waitall obeys happened
  | compute self heap => exact consistent.compute obeys happened
  | progress self position => exact consistent.progress happened
  | send_handler self request => exact consistent.send_handler ranks happened
  | recv_handler self address request inside =>
      exact (consistent.recv_handler ranks obeys happened).1
  | transmit source dest position => exact consistent.transmit happened
  | deliver source dest tag => exact consistent.deliver ranks happened

/-- Events write to communication buffers and to the buffers of receives only. -/
theorem written
    {event : World.Event}
    {after : Traffic}
    (ranks : n ≤ 2 ^ 31)
    (permitted : traffic.Permits n comm_buffer_size buffers agreed event)
    (communicates : ∀ self heap, event ≠ .compute self heap)
    (stepped : traffic.step event = some after)
    {rank : Nat}
    {address : Int}
    (changed : (after.world rank).heap address ≠ (traffic.world rank).heap address) :
    after.Written comm_buffer_size buffers rank address := by
  obtain ⟨obeys, meets⟩ := permitted
  obtain ⟨world, happened, rfl⟩ := Option.map_eq_some_iff.mp stepped
  have sound := consistent.sound rank
  replace changed : (world rank).heap address ≠ (traffic.world rank).heap address := changed
  -- Most events change the memory of one rank only.
  have of_set : ∀ {self later}, world = traffic.world.set self later →
      rank = self ∧ later.heap address ≠ (traffic.world self).heap address := by
    rintro self later rfl
    by_cases here : rank = self
    · subst here
      rw [World.set_self] at changed
      exact ⟨rfl, changed⟩
    · rw [World.set_of_ne _ here] at changed
      contradiction
  cases event with
  | send self buf count element_size dest tag custom request =>
      obtain ⟨⟨outcome, later⟩, sent, same⟩ := Option.map_eq_some_iff.mp happened
      obtain ⟨rfl, differs⟩ := of_set same.symm
      rcases sound.send obeys.1.2.1 sent with ⟨empty, _⟩ | ⟨handle, rfl, _⟩
      · exact absurd empty meets.1
      · rw [(sound.send_begins obeys.1.2.1 sent).heap] at differs
        contradiction
  | recv self buffer element_size source tag request inside =>
      obtain ⟨⟨outcome, later⟩, received, rfl⟩ := Option.map_eq_some_iff.mp happened
      rcases consistent.sound.recv obeys.1.1 received with ⟨empty, _⟩ | ⟨handle, rfl, _⟩
      · exact absurd empty meets
      · obtain ⟨begins, _, _, others⟩ := consistent.sound.recv_begins received 0
        by_cases here : rank = self
        · subst here
          exact absurd (begins.frame.heap address id) changed
        · obtain ⟨outgoing, same, _⟩ := others rank here
          exact absurd (congrFun (congrArg Rank.heap same) address) changed
  | waitall self handles =>
      obtain ⟨later, waited, same⟩ := Option.map_eq_some_iff.mp happened
      obtain ⟨rfl, differs⟩ := of_set same.symm
      unfold Rank.waitall at waited
      split at waited
      · obtain rfl := Option.some.inj waited
        obtain ⟨_, _, _, _, released, _⟩ := (traffic.world rank).release_all_eq handles
        rw [released] at differs
        contradiction
      · contradiction
  | compute self heap => exact absurd rfl (communicates self heap)
  | progress self position =>
      dsimp only [World.step, World.progress] at happened
      split at happened
      · split at happened
        · contradiction
        · obtain ⟨rfl, differs⟩ := of_set (Option.some.inj happened).symm
          rw [Rank.enter_send_handler_heap] at differs
          contradiction
        · exact absurd rfl (of_set (Option.some.inj happened).symm).2
      · contradiction
  | send_handler self request =>
      dsimp only [World.step] at happened
      split at happened
      · rename_i handle loop control
        obtain ⟨later, sent, same⟩ := Option.map_eq_some_iff.mp happened
        obtain ⟨rfl, differs⟩ := of_set same.symm
        have active := Rank.mem_active_of_running (n := n)
          (show (traffic.world rank).control.running = {handle} by rw [control]; rfl)
        obtain ⟨comm_buffer, buffer, covers⟩ := Rank.heap_of_send_handler sent differs
        refine .inl ⟨comm_buffer, consistent.comm_buffer_mem active buffer, ?_⟩
        rwa [consistent.comm_buffer_size rank] at covers
      · contradiction
  | recv_handler self heap request inside =>
      exact (consistent.recv_handler ranks obeys happened).2 rank address changed
  | transmit source dest position =>
      obtain ⟨⟨request, rest⟩, taken, same⟩ := Option.map_eq_some_iff.mp happened
      exact absurd rfl (of_set same.symm).2
  | deliver source dest tag =>
      obtain ⟨receive, rest, bytes, received, posts, message, rfl⟩ := World.deliver_cases happened
      obtain ⟨outgoing, same, _⟩ := World.receive_same sound.within message
      by_cases here : rank = dest
      · subst here
        rw [World.set_self, same] at changed
        obtain ⟨heap, counters, wrote, outside, _⟩ :=
          Rank.write_same { traffic.world rank with outgoing := outgoing } bytes receive.place
        have covers : receive.place.Covers address := by
          by_contra apart
          rw [wrote] at changed
          exact changed (outside address apart)
        have member : receive ∈ (traffic.world rank).posted :=
          (perm_takePosted posts).mem_iff.mpr List.mem_cons_self
        obtain ⟨comm_buffer, buffer, within⟩ :=
          consistent.place_inside (Rank.operation_of_posted member) covers
        exact .inl ⟨comm_buffer,
          consistent.comm_buffer_mem (Rank.mem_active_of_posted member) buffer, within⟩
      · rw [World.set_of_ne _ here, same] at changed
        contradiction

end Consistent

/-- Ranks that have set up their communication buffers and have transferred nothing. -/
def set_up
    (heap : Nat → Heap)
    (cache_start_addr : Nat → Int)
    (ncaches : Nat)
    (buffer_size : Int) : Traffic where
  world := World.set_up heap cache_start_addr ncaches buffer_size
  ledger := .empty

section Runs

variable {n : Nat} {agreed : Agreement} {heap : Nat → Heap} {cache_start_addr : Nat → Int}
  {ncaches : Nat} {buffer_size : Int}

/-- The communication buffers of ranks that have been set up. -/
abbrev set_up_buffers (cache_start_addr : Nat → Int) (ncaches : Nat) (buffer_size : Int) :
    Nat → List Int :=
  fun rank => carved (cache_start_addr rank) ncaches buffer_size

/-- Communication buffers that have been carved are separate. -/
theorem separate_carved (positive : 0 < buffer_size) (start : Int) :
    Separate buffer_size (carved start ncaches buffer_size) where
  nodup := carved_nodup positive start ncaches
  apart := by
    have symmetric : Std.Symm fun first second : Int => ∀ address,
        InBuffer buffer_size first address → ¬ InBuffer buffer_size second address :=
      ⟨fun _ _ apart address inside within => apart address within inside⟩
    exact (carved_disjoint positive start ncaches).forall

/-- Ranks that have transferred nothing are consistent. -/
theorem consistent_set_up (positive : 0 < buffer_size) :
    (set_up heap cache_start_addr ncaches buffer_size).Consistent n buffer_size
      (set_up_buffers cache_start_addr ncaches buffer_size) agreed where
  separate := fun rank => separate_carved positive (cache_start_addr rank)
  sound := World.sound_set_up heap cache_start_addr ncaches buffer_size
  mpi_rank := fun _ => rfl
  located := fun _ => {
    outgoing := fun _ _ member => absurd member List.not_mem_nil
    posted := fun _ member => absurd member List.not_mem_nil
    sends := fun _ member => absurd member List.not_mem_nil
    receives := fun _ member => absurd member List.not_mem_nil
    sending := fun _ _ control => Control.noConfusion control
    receiving := fun _ _ control => Control.noConfusion control
    alive := Control.noConfusion }
  booked := by
    constructor
    case covered => exact fun _ _ member => absurd member List.not_mem_nil
    case reads =>
      rintro _ _ ⟨_, _, _, outstanding, _⟩
      contradiction
    case writes =>
      rintro _ _ ⟨_, _, _, outstanding, _⟩
      contradiction
    all_goals
      intros
      contradiction
  fits := fun _ _ member => absurd member List.not_mem_nil
  agree := by
    intro _ _ _ found
    contradiction
  flows := fun _ _ => ⟨[], [], rfl, .idle, .idle le_rfl⟩
  comm_buffer_size := fun _ => rfl

/-- Transfers are consistent in every state that is reached. -/
theorem Reaches.consistent
    {comm_buffer_size : Int}
    {buffers : Nat → List Int}
    {start traffic : Traffic}
    (ranks : n ≤ 2 ^ 31)
    (memory : comm_buffer_size ≤ 2 ^ 57)
    (begun : start.Consistent n comm_buffer_size buffers agreed)
    (reached : Reaches (Permits n comm_buffer_size buffers agreed) start traffic) :
    traffic.Consistent n comm_buffer_size buffers agreed := by
  induction reached with
  | start => exact begun
  | step _ permitted stepped inductionHypothesis =>
      exact inductionHypothesis.step ranks memory permitted stepped

/-- In every run, a receive that has completed has what has been sent in its round, and events
write to communication buffers and to the buffers of such rounds only. -/
theorem delivers
    (ranks : n ≤ 2 ^ 31)
    (positive : 0 < buffer_size)
    (memory : buffer_size ≤ 2 ^ 57)
    {traffic : Traffic}
    (reached : Reaches (Permits n buffer_size
        (set_up_buffers cache_start_addr ncaches buffer_size) agreed)
      (set_up heap cache_start_addr ncaches buffer_size) traffic) :
    (∀ channel receiving, traffic.ledger.receiving channel = some receiving →
      ((traffic.world channel.dest).info receiving.handle).completed = true →
      ∃ round, traffic.Delivered channel receiving round) ∧
    ∀ event after,
      traffic.Permits n buffer_size (set_up_buffers cache_start_addr ncaches buffer_size) agreed
        event →
      (∀ self heap, event ≠ .compute self heap) →
      traffic.step event = some after →
      ∀ rank address, (after.world rank).heap address ≠ (traffic.world rank).heap address →
        after.Written buffer_size (set_up_buffers cache_start_addr ncaches buffer_size) rank
          address := by
  have consistent := reached.consistent ranks memory (consistent_set_up positive)
  constructor
  · intro channel receiving outstanding completed
    exact consistent.delivered outstanding completed
  · intro event after permitted communicates stepped rank address changed
    exact consistent.written ranks permitted communicates stepped changed

/-- In every run, no message of a channel is lost, repeated or out of order: what its receives
have taken, what is on the way and what its sends have still to send are the messages of the
rounds sent. Once all transfers have completed, the rounds that have not been received are on
the way. -/
theorem channels_in_order
    (ranks : n ≤ 2 ^ 31)
    (positive : 0 < buffer_size)
    (memory : buffer_size ≤ 2 ^ 57)
    {traffic : Traffic}
    (reached : Reaches (Permits n buffer_size
        (set_up_buffers cache_start_addr ncaches buffer_size) agreed)
      (set_up heap cache_start_addr ncaches buffer_size) traffic)
    {channel : Channel}
    (valid : channel.Valid n) :
    (∃ taken unsent,
      taken ++ (traffic.world.queue channel ++ unsent) =
          Round.streams buffer_size (traffic.ledger.sent channel) ∧
        (traffic.AllSent channel → unsent = []) ∧
        (traffic.AllReceived channel →
          traffic.ledger.received channel ≤ (traffic.ledger.sent channel).length ∧
            taken = Round.streams buffer_size
              ((traffic.ledger.sent channel).take (traffic.ledger.received channel)))) ∧
      (traffic.AllSent channel → traffic.AllReceived channel →
        traffic.world.queue channel = Round.streams buffer_size
          ((traffic.ledger.sent channel).drop (traffic.ledger.received channel))) := by
  have consistent := reached.consistent ranks memory (consistent_set_up positive)
  have ordered := consistent.in_order valid
  refine ⟨ordered, fun all_sent all_received => ?_⟩
  obtain ⟨taken, unsent, flow, sends, receives⟩ := ordered
  obtain ⟨_, whole⟩ := receives all_received
  rw [sends all_sent, List.append_nil, whole,
    ← List.take_append_drop (traffic.ledger.received channel) (traffic.ledger.sent channel),
    Round.streams_append, List.take_append_drop] at flow
  exact List.append_cancel_left flow

end Runs

/-- `recv_handler` does not allocate the buffer of a receive that has been given or allocated. -/
theorem obeys_of_pointed
    {n : Nat}
    {comm_buffer_size : Int}
    {buffers : Nat → List Int}
    {agreed : Agreement}
    {traffic : Traffic}
    {self request : Nat}
    {handle : Handle}
    {outer : List Handle}
    {start address : Int}
    {inside : Option Nat}
    (control : (traffic.world self).control = .receiving handle outer)
    (pointed : (traffic.world self).pointers ((traffic.world self).info handle).recv_buffer =
      some start) :
    traffic.Obeys n comm_buffer_size buffers agreed
      (.recv_handler self address request inside) := by
  intro executed spare executes allocates
  obtain ⟨rfl, rfl⟩ := Control.receiving.inj (control.symm.trans executes)
  rw [Rank.Allocates, pointed] at allocates
  exact absurd allocates.1 (Option.some_ne_none _)

/-- One rank with two communication buffers, whose memory holds its addresses. -/
def alone : Traffic :=
  set_up (fun _ address => UInt8.ofNat address.toNat) (fun _ => 0) 2 64

/-- Nothing is on the way, and all ranks execute their programs. -/
def Idle (traffic : Traffic) : Prop :=
  ∀ rank, (traffic.world rank).control = .user ∧ (traffic.world rank).due = [] ∧
    (traffic.world rank).posted = [] ∧ ∀ dest, (traffic.world rank).outgoing dest = []

/-- The buffers of the rank end before its other memory. -/
theorem not_in_carved
    {address : Int}
    (lower : 128 ≤ address) :
    ∀ buffer ∈ carved 0 2 64, ¬ InBuffer 64 buffer address := by
  rintro buffer member ⟨_, upper⟩
  obtain ⟨icache, range, rfl⟩ := List.mem_map.mp member
  have bound := List.mem_range.mp range
  omega

theorem valid_loopback : Channel.Valid 1 ⟨0, 0, 1⟩ :=
  ⟨by decide, by decide, by decide, by decide⟩

/-- The rank may send memory after its communication buffers, while it receives nothing. -/
theorem obeys_send_alone
    {traffic : Traffic}
    {extent : Extent}
    {tag : Int}
    {custom : Nat}
    {request : Option Nat}
    (sized : extent.Sized 64)
    (valid : Channel.Valid 1 ⟨0, 0, tag⟩)
    (ended : traffic.ledger.sending ⟨0, 0, tag⟩ = none)
    (idle : ∀ channel, traffic.ledger.receiving channel = none) :
    traffic.Obeys 1 64 (set_up_buffers (fun _ => 0) 2 64) (fun _ _ => extent)
      (.send 0 512 extent.count extent.element_size 0 tag custom request) := by
  refine ⟨valid, ended, rfl, sized, fun address covers => ⟨?_, ?_⟩⟩
  · exact not_in_carved ((by decide : (128 : Int) ≤ 512).trans covers.1)
  · rintro ⟨channel, _, _, outstanding, _⟩
    rw [idle channel] at outstanding
    contradiction

/-- The rank may receive at an address after all that it sends. -/
theorem obeys_recv_alone
    {traffic : Traffic}
    {extent : Extent}
    {tag : Int}
    {request : Nat}
    {inside : Option Nat}
    (valid : Channel.Valid 1 ⟨0, 0, tag⟩)
    (sends : ∀ channel sending, traffic.ledger.sending channel = some sending →
      ∀ address, sending.region.Covers address → address < 1024)
    (idle : ∀ channel, traffic.ledger.receiving channel = none) :
    traffic.Obeys 1 64 (set_up_buffers (fun _ => 0) 2 64) (fun _ _ => extent)
      (.recv 0 (.given 1024) extent.element_size 0 tag request inside) := by
  refine ⟨valid, idle _, rfl, fun address covers => ?_⟩
  have lower : 1024 ≤ address := covers.1
  rintro (⟨buffer, member, within⟩ | ⟨channel, sending, _, outstanding, covered⟩ |
    ⟨channel, _, _, outstanding, _⟩)
  · exact not_in_carved (by omega) buffer member within
  · exact absurd (sends channel sending outstanding address covered) (by omega)
  · rw [idle channel] at outstanding
    contradiction

/-- What the rank sends ends where its memory has been read. -/
theorem begun_lt
    {rank : Rank}
    {handle : Handle}
    {count element_size address : Int}
    (fits : (count * element_size).toNat ≤ 512)
    (covers : (begun rank handle 512 count element_size).region.Covers address) :
    address < 1024 := by
  have upper : address < 512 + ((rank.heap.read 512 (count * element_size).toNat).length : Int) :=
    covers.2
  rw [Heap.length_read] at upper
  omega

/-- The rank once it has called `send` for two elements. -/
def sent_alone : Traffic := (alone.step (.send 0 512 2 40 0 1 0 none)).getD alone

theorem reaches_sent_alone :
    Reaches (Permits 1 64 (set_up_buffers (fun _ => 0) 2 64) fun _ _ => ⟨2, 40⟩) alone
      sent_alone := by
  have sized : (Extent.mk 2 40).Sized 64 := ⟨by decide, by decide, by decide, by decide⟩
  exact @Reaches.step _ _ _ _ (.send 0 512 2 40 0 1 0 none) .start
    ⟨obeys_send_alone sized valid_loopback rfl fun _ => rfl, List.cons_ne_nil _ _, by decide⟩ rfl

/-- The rank once `send_handler` has sent both batches. -/
def streamed_alone : Traffic :=
  ((List.replicate 3 (World.Event.send_handler 0 none)).foldlM step sent_alone).getD sent_alone

theorem reaches_streamed_alone :
    Reaches (Permits 1 64 (set_up_buffers (fun _ => 0) 2 64) fun _ _ => ⟨2, 40⟩) alone
      streamed_alone := by
  have first := @Reaches.step _ _ _ _ (.send_handler 0 none) reaches_sent_alone
    ⟨trivial, trivial⟩ rfl
  have second := @Reaches.step _ _ _ _ (.send_handler 0 none) first ⟨trivial, trivial⟩ rfl
  exact @Reaches.step _ _ _ _ (.send_handler 0 none) second ⟨trivial, trivial⟩ rfl

/-- The rank sends two elements to itself in two batches, and receives them. -/
theorem reaches_loopback :
    ∃ traffic receiving,
      Reaches (Permits 1 64 (set_up_buffers (fun _ => 0) 2 64) fun _ _ => ⟨2, 40⟩) alone traffic ∧
        traffic.ledger.receiving ⟨0, 0, 1⟩ = some receiving ∧
        ((traffic.world 0).info receiving.handle).completed = true ∧
        receiving.round < (traffic.ledger.sent ⟨0, 0, 1⟩).length ∧ traffic.Idle := by
  have announced := @Reaches.step _ _ _ _ (.recv 0 (.given 1024) 40 0 1 0 (some 0))
    reaches_streamed_alone ⟨obeys_recv_alone valid_loopback
      (fun channel sending outstanding address covers => by
        rcases Ledger.sending_send_iff.mp outstanding with ⟨_, rfl⟩ | ⟨_, before⟩
        · exact begun_lt (by decide) covers
        · contradiction)
      fun _ => rfl, List.cons_ne_nil _ _⟩ rfl
  have posted := @Reaches.step _ _ _ _ (.recv_handler 0 0 1 (some 0)) announced
    ⟨obeys_of_pointed rfl rfl, trivial⟩ rfl
  have copied := @Reaches.step _ _ _ _ (.recv_handler 0 0 2 (some 0)) posted
    ⟨obeys_of_pointed rfl rfl, trivial⟩ rfl
  have completed := @Reaches.step _ _ _ _ (.recv_handler 0 0 3 none) copied
    ⟨obeys_of_pointed rfl rfl, trivial⟩ rfl
  refine ⟨_, _, completed, rfl, rfl, Nat.one_pos, fun rank => ?_⟩
  cases rank with
  | zero => exact ⟨rfl, rfl, rfl, fun dest => by cases dest <;> rfl⟩
  | succ rank => exact ⟨rfl, rfl, rfl, fun _ => rfl⟩

theorem delivers_loopback :
    ∃ traffic receiving round,
      Reaches (Permits 1 64 (set_up_buffers (fun _ => 0) 2 64) fun _ _ => ⟨2, 40⟩) alone traffic ∧
        traffic.ledger.receiving ⟨0, 0, 1⟩ = some receiving ∧
        traffic.Delivered ⟨0, 0, 1⟩ receiving round ∧
        ∀ event after,
          traffic.Permits 1 64 (set_up_buffers (fun _ => 0) 2 64) (fun _ _ => ⟨2, 40⟩) event →
          (∀ self heap, event ≠ .compute self heap) →
          traffic.step event = some after →
          ∀ rank address, (after.world rank).heap address ≠ (traffic.world rank).heap address →
            after.Written 64 (set_up_buffers (fun _ => 0) 2 64) rank address := by
  obtain ⟨traffic, receiving, reached, outstanding, completed, _⟩ := reaches_loopback
  obtain ⟨has_data, writes⟩ := delivers (by decide) (by decide) (by decide) reached
  obtain ⟨round, delivered⟩ := has_data ⟨0, 0, 1⟩ receiving outstanding completed
  exact ⟨traffic, receiving, round, reached, outstanding, delivered, writes⟩

/-- The two batches follow the header on a channel on which nothing has been received. -/
theorem channels_in_order_streamed :
    ∃ traffic,
      Reaches (Permits 1 64 (set_up_buffers (fun _ => 0) 2 64) fun _ _ => ⟨2, 40⟩) alone traffic ∧
        traffic.AllSent ⟨0, 0, 1⟩ ∧ traffic.AllReceived ⟨0, 0, 1⟩ ∧
        (traffic.world.queue ⟨0, 0, 1⟩).length = 3 ∧
        traffic.world.queue ⟨0, 0, 1⟩ = Round.streams 64
          ((traffic.ledger.sent ⟨0, 0, 1⟩).drop (traffic.ledger.received ⟨0, 0, 1⟩)) ∧
        ∃ taken unsent, taken ++ (traffic.world.queue ⟨0, 0, 1⟩ ++ unsent) =
          Round.streams 64 (traffic.ledger.sent ⟨0, 0, 1⟩) ∧ unsent = [] ∧ taken = [] := by
  have all_sent : streamed_alone.AllSent ⟨0, 0, 1⟩ := by
    intro sending outstanding
    obtain rfl := Option.some.inj outstanding
    rfl
  have all_received : streamed_alone.AllReceived ⟨0, 0, 1⟩ := by
    intro receiving outstanding
    contradiction
  obtain ⟨⟨taken, unsent, flow, sends, receives⟩, queued⟩ :=
    channels_in_order (by decide) (by decide) (by decide) reaches_streamed_alone valid_loopback
  exact ⟨streamed_alone, reaches_streamed_alone, all_sent, all_received, rfl,
    queued all_sent all_received, taken, unsent, flow, sends all_sent, (receives all_received).2⟩

/-- A send that throws leaves its header on the way. Once the rank has called it again, the
receive completes with the second header in place of the data. -/
theorem retried_send_garbles :
    ∃ traffic receiving round,
      Reaches (Obeys 1 64 (set_up_buffers (fun _ => 0) 2 64) fun _ _ => ⟨1, 8⟩) alone traffic ∧
        traffic.ledger.sent ⟨0, 0, 3⟩ = [round] ∧
        traffic.ledger.receiving ⟨0, 0, 3⟩ = some receiving ∧
        ((traffic.world 0).info receiving.handle).completed = true ∧
        (traffic.world 0).heap.read 1024 8 = round.header ∧
        ¬ ∃ other, traffic.Delivered ⟨0, 0, 3⟩ receiving other := by
  have sized : (Extent.mk 1 8).Sized 64 := ⟨by decide, by decide, by decide, by decide⟩
  have valid : ∀ {tag : Int}, 1 ≤ tag → tag ≤ 3 → Channel.Valid 1 ⟨0, 0, tag⟩ :=
    fun lower upper => ⟨Nat.one_pos, Nat.one_pos, by dsimp only; omega, by dsimp only; omega⟩
  have first := @Reaches.step (Obeys 1 64 (set_up_buffers (fun _ => 0) 2 64) fun _ _ => ⟨1, 8⟩)
    alone _ _ (.send 0 512 1 8 0 1 0 none) .start
    (obeys_send_alone sized (valid (by decide) (by decide)) rfl fun _ => rfl) rfl
  have first_batch := @Reaches.step _ _ _ _ (.send_handler 0 none) first trivial rfl
  have first_ended := @Reaches.step _ _ _ _ (.send_handler 0 none) first_batch trivial rfl
  have second := @Reaches.step _ _ _ _ (.send 0 512 1 8 0 2 1 none) first_ended
    (obeys_send_alone sized (valid (by decide) (by decide)) rfl fun _ => rfl) rfl
  have second_batch := @Reaches.step _ _ _ _ (.send_handler 0 none) second trivial rfl
  have second_ended := @Reaches.step _ _ _ _ (.send_handler 0 none) second_batch trivial rfl
  -- Both buffers are taken, so that this send throws.
  have threw := @Reaches.step _ _ _ _ (.send 0 512 1 8 0 3 2 none) second_ended
    (obeys_send_alone sized (valid (by decide) (by decide)) rfl fun _ => rfl) rfl
  have waited := @Reaches.step _ _ _ _ (.waitall 0 [.custom 0, .custom 1]) threw
    ⟨by decide, by decide⟩ rfl
  have third := @Reaches.step _ _ _ _ (.send 0 512 1 8 0 3 3 none) waited
    (obeys_send_alone sized (valid (by decide) (by decide)) rfl fun _ => rfl) rfl
  have third_batch := @Reaches.step _ _ _ _ (.send_handler 0 none) third trivial rfl
  have third_ended := @Reaches.step _ _ _ _ (.send_handler 0 none) third_batch trivial rfl
  have announced := @Reaches.step _ _ _ _ (.recv 0 (.given 1024) 8 0 3 0 (some 0)) third_ended
    (obeys_recv_alone (valid (by decide) (by decide))
      (fun channel sending outstanding address covers => by
        rcases Ledger.sending_send_iff.mp outstanding with ⟨_, rfl⟩ | ⟨_, before⟩
        · exact begun_lt (by decide) covers
        · rcases Ledger.sending_send_iff.mp (Ledger.sending_waitall_iff.mp before).1 with
            ⟨_, rfl⟩ | ⟨_, before⟩
          · exact begun_lt (by decide) covers
          · rcases Ledger.sending_send_iff.mp before with ⟨_, rfl⟩ | ⟨_, before⟩
            · exact begun_lt (by decide) covers
            · contradiction)
      fun _ => rfl) rfl
  have posted := @Reaches.step _ _ _ _ (.recv_handler 0 0 1 (some 0)) announced
    (obeys_of_pointed rfl rfl) rfl
  have completed := @Reaches.step _ _ _ _ (.recv_handler 0 0 2 none) posted
    (obeys_of_pointed rfl rfl) rfl
  refine ⟨_, _, _, completed, rfl, rfl, rfl, rfl, ?_⟩
  rintro ⟨other, delivered⟩
  obtain rfl := Option.some.inj delivered.sent
  obtain ⟨start, pointed, stored⟩ := delivered.buffer (by decide)
  obtain rfl := Option.some.inj pointed
  revert stored
  decide

end Traffic

end Ucx

end DistributedJoin
