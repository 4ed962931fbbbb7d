import DistributedJoin.Ucx.Delivery

/-!
# Transfers that cannot go on

When neither UCX nor a callback can go on, all ranks have returned to their programs, and the
transfers that have begun on both sides of their channels have completed. It is enough that UCX
reads the bytes of a message once a receive for it has been posted.
-/

namespace DistributedJoin

namespace Ucx

open Device

/-- What finitely many entries use is limited, if what each of them uses is. -/
theorem exists_limit_of_list
    {Entry Value : Type}
    [LinearOrder Value]
    [Inhabited Value]
    (Uses : Entry → Value → Prop)
    (entries : List Entry)
    (bounded : ∀ entry ∈ entries, ∃ limit, ∀ value, Uses entry value → value < limit) :
    ∃ limit, ∀ entry ∈ entries, ∀ value, Uses entry value → value < limit := by
  induction entries with
  | nil => exact ⟨default, fun _ member => absurd member List.not_mem_nil⟩
  | cons entry entries inductionHypothesis =>
      obtain ⟨first, below⟩ := bounded entry List.mem_cons_self
      obtain ⟨rest, others⟩ := inductionHypothesis fun other member =>
        bounded other (List.mem_cons_of_mem _ member)
      refine ⟨max first rest, fun other member value uses => ?_⟩
      rcases List.mem_cons.mp member with rfl | later
      · exact lt_max_of_lt_left (below value uses)
      · exact lt_max_of_lt_right (others other later value uses)

/-- A message with a tag can be received, or the first such message can be read by UCX. -/
theorem moves_of_tag
    {tag : Tag}
    {messages : List Message}
    (read : Place → List Byte)
    {message : Message}
    (member : message ∈ messages)
    (tagged : message.tag = tag) :
    (∃ bytes rest, takeMessage tag messages = some (bytes, rest)) ∨
      ∃ position first found, messages[position]? = some first ∧ first.tag = tag ∧
        takeOver read position messages = some found := by
  induction messages with
  | nil => contradiction
  | cons head tail inductionHypothesis =>
      by_cases same : head.tag = tag
      · cases payload : head.payload with
        | taken bytes =>
            refine .inl ⟨bytes, tail, ?_⟩
            rw [takeMessage, if_pos same, payload]
        | pending place request =>
            refine .inr ⟨0, head, (request, ⟨head.tag, .taken (read place)⟩ :: tail), rfl, same, ?_⟩
            rw [takeOver, payload]
      · have later : message ∈ tail := by
          rcases List.mem_cons.mp member with rfl | later
          · exact absurd tagged same
          · exact later
        rcases inductionHypothesis later with ⟨bytes, rest, taken⟩ |
          ⟨position, first, found, listed, first_tag, taken⟩
        · refine .inl ⟨bytes, head :: rest, ?_⟩
          rw [takeMessage, if_neg same, taken]
          rfl
        · refine .inr ⟨position + 1, first, (found.1, head :: found.2), listed, first_tag, ?_⟩
          rw [takeOver, taken]
          rfl

/-- A receive with a tag is found among those that have been posted. -/
theorem takePosted_of_mem
    {tag : Tag}
    {posted : List Posted}
    {receive : Posted}
    (member : receive ∈ posted)
    (tagged : receive.tag = tag) :
    ∃ found, takePosted tag posted = some found := by
  induction posted with
  | nil => contradiction
  | cons head tail inductionHypothesis =>
      by_cases same : head.tag = tag
      · exact ⟨(head, tail), if_pos same⟩
      · have later : receive ∈ tail := by
          rcases List.mem_cons.mp member with rfl | later
          · exact absurd tagged same
          · exact later
        obtain ⟨found, taken⟩ := inductionHypothesis later
        refine ⟨(found.1, head :: found.2), ?_⟩
        rw [takePosted, if_neg same, taken]
        rfl

/-- An operation in flight is that of a message or of a receive that has been posted. -/
theorem Rank.operations_cases
    {n : Nat}
    {rank : Rank}
    {place : Place}
    {handle : Handle}
    (member : (place, handle) ∈ rank.operations n) :
    (∃ dest, ∃ message ∈ rank.outgoing dest, message.payload = .pending place handle) ∨
      ∃ receive ∈ rank.posted, receive.place = place ∧ receive.request = handle := by
  rcases Multiset.mem_add.mp member with sent | posted
  · obtain ⟨dest, _, inside⟩ := Multiset.mem_sum.mp sent
    obtain ⟨message, listed, operation⟩ := List.mem_filterMap.mp (Multiset.mem_coe.mp inside)
    refine .inl ⟨dest, message, listed, ?_⟩
    unfold Message.operation at operation
    split at operation
    · contradiction
    · rename_i payload
      obtain ⟨rfl, rfl⟩ := Prod.mk.inj (Option.some.inj operation)
      exact payload
  · obtain ⟨receive, listed, same⟩ := List.mem_map.mp (Multiset.mem_coe.mp posted)
    obtain ⟨rfl, rfl⟩ := Prod.mk.inj same
    exact .inr ⟨receive, listed, rfl, rfl⟩

namespace World

/-- An event that UCX or a callback brings about. UCX reads the bytes of a message at the latest
when a receive for it has been posted. -/
def Advances (world : World) : Event → Prop
  | .progress _ _ => True
  | .send_handler _ _ => True
  | .recv_handler _ _ _ _ => True
  | .deliver _ _ _ => True
  | .transmit source dest position => ∃ message receive,
      ((world source).outgoing dest)[position]? = some message ∧
        receive ∈ (world dest).posted ∧ receive.tag = message.tag
  | _ => False

end World

namespace Traffic

/-- Nothing is left to do for UCX and the callbacks. -/
def Quiet
    (n : Nat)
    (comm_buffer_size : Int)
    (buffers : Nat → List Int)
    (agreed : Agreement)
    (traffic : Traffic) : Prop :=
  ∀ event, traffic.world.Advances event →
    traffic.Obeys n comm_buffer_size buffers agreed event → traffic.step event = none

namespace Consistent

variable {n : Nat} {comm_buffer_size : Int} {buffers : Nat → List Int} {agreed : Agreement}
  {traffic : Traffic}
  (consistent : traffic.Consistent n comm_buffer_size buffers agreed)
include consistent

/-- UCX always has a request that is free. -/
theorem exists_free (rank : Nat) :
    ∃ index, (traffic.world rank).allocated (.request index) = false := by
  have sound := consistent.sound rank
  obtain ⟨limit, below⟩ := exists_limit_of_list (fun handle index => handle = Handle.request index)
    ((traffic.world rank).returned ++ ((traffic.world rank).active n).toList ++
      (traffic.world rank).control.outer) fun handle _ => by
        cases handle with
        | request index => exact ⟨index + 1, fun other same => by
            rw [Handle.request.inj same]
            exact Nat.lt_succ_self other⟩
        | custom index => exact ⟨0, fun _ same => Handle.noConfusion same⟩
  refine ⟨limit, (Bool.not_eq_true _).mp fun allocated => ?_⟩
  refine Nat.lt_irrefl limit (below (.request limit) ?_ limit rfl)
  rcases sound.accounted _ allocated with returned | active | spare
  · exact List.mem_append_left _ (List.mem_append_left _ returned)
  · exact List.mem_append_left _ (List.mem_append_right _ (Multiset.mem_toList.mpr active))
  · exact List.mem_append_right _ spare

/-- The memory in use ends somewhere. -/
theorem exists_limit (rank : Nat) :
    ∃ limit, ∀ address,
      traffic.InUse agreed rank address (buffers rank) comm_buffer_size → address < limit := by
  obtain ⟨carved, in_buffers⟩ := exists_limit_of_list (InBuffer comm_buffer_size) (buffers rank)
    fun buffer _ => ⟨buffer + comm_buffer_size, fun _ within => within.2⟩
  obtain ⟨sends, in_sends⟩ := exists_limit_of_list (fun handle address =>
      ∃ channel sending, channel.source = rank ∧ traffic.ledger.sending channel = some sending ∧
        sending.handle = handle ∧ sending.region.Covers address)
    (traffic.world rank).returned fun handle _ => by
      by_cases used : ∃ channel sending, channel.source = rank ∧
          traffic.ledger.sending channel = some sending ∧ sending.handle = handle
      · obtain ⟨channel, sending, source, outstanding, same⟩ := used
        refine ⟨sending.region.start + sending.region.size, ?_⟩
        rintro address ⟨other, found, again, others, equal, covers⟩
        obtain rfl := consistent.booked.sending_inj (source.trans again.symm) outstanding others
          (same.trans equal.symm)
        obtain rfl := Option.some.inj (outstanding.symm.trans others)
        exact covers.2
      · refine ⟨0, ?_⟩
        rintro address ⟨channel, sending, source, outstanding, same, _⟩
        exact absurd ⟨channel, sending, source, outstanding, same⟩ used
  obtain ⟨receives, in_receives⟩ := exists_limit_of_list (fun handle address =>
      ∃ channel receiving, channel.dest = rank ∧
        traffic.ledger.receiving channel = some receiving ∧ receiving.handle = handle ∧
        receiving.Covers (traffic.world rank) (agreed channel receiving.round).size address)
    (traffic.world rank).returned fun handle _ => by
      by_cases used : ∃ channel receiving start, channel.dest = rank ∧
          traffic.ledger.receiving channel = some receiving ∧ receiving.handle = handle ∧
          (traffic.world rank).pointers receiving.pointer = some start
      · obtain ⟨channel, receiving, start, dest, outstanding, same, pointer⟩ := used
        refine ⟨start + (agreed channel receiving.round).size, ?_⟩
        rintro address ⟨other, found, again, others, equal, begun, pointed, covers⟩
        obtain rfl := consistent.booked.receiving_inj (dest.trans again.symm) outstanding others
          (same.trans equal.symm)
        obtain rfl := Option.some.inj (outstanding.symm.trans others)
        obtain rfl := Option.some.inj (pointer.symm.trans pointed)
        exact covers.2
      · refine ⟨0, ?_⟩
        rintro address ⟨channel, receiving, dest, outstanding, same, start, pointer, _⟩
        exact absurd ⟨channel, receiving, start, dest, outstanding, same, pointer⟩ used
  refine ⟨max carved (max sends receives), fun address used => ?_⟩
  rcases used with ⟨buffer, member, within⟩ | ⟨channel, sending, rfl, outstanding, covers⟩ |
    ⟨channel, receiving, rfl, outstanding, covers⟩
  · exact lt_max_of_lt_left (in_buffers buffer member address within)
  · have returned := (consistent.booked.sending channel sending outstanding).returned
    exact lt_max_of_lt_right (lt_max_of_lt_left (in_sends sending.handle returned address
      ⟨channel, sending, rfl, outstanding, rfl, covers⟩))
  · have returned := (consistent.booked.receiving channel receiving outstanding).returned
    exact lt_max_of_lt_right (lt_max_of_lt_right (in_receives receiving.handle returned address
      ⟨channel, receiving, rfl, outstanding, rfl, covers⟩))

/-- `send_handler` can always go on. -/
theorem sending_steps
    {rank : Nat}
    {handle : Handle}
    {loop : SendLoop}
    (control : (traffic.world rank).control = .sending handle loop) :
    ∃ after, traffic.step (.send_handler rank none) = some after := by
  have sound := consistent.sound rank
  have running : (traffic.world rank).control.running = {handle} := by
    rw [control]
    rfl
  obtain ⟨orig, returned, _, buffer, _⟩ :=
    (sound.engaged handle (Rank.mem_active_of_running running)).origin
  obtain ⟨comm_buffer, found⟩ := Option.isSome_iff_exists.mp (sound.held orig returned).2.2
  rw [found] at buffer
  have steps : ∃ later, (traffic.world rank).send_handler handle loop none = some later := by
    unfold Rank.send_handler
    split
    · simp only [buffer, Option.bind_eq_bind, Option.bind_some, Rank.ucp_tag_send_nb]
      exact ⟨_, rfl⟩
    · exact ⟨_, rfl⟩
  obtain ⟨later, sent⟩ := steps
  have happened : traffic.world.step (.send_handler rank none) =
      some (traffic.world.set rank later) := by
    simp only [World.step, control, sent, Option.map_some]
  exact ⟨_, Option.map_eq_some_iff.mpr ⟨_, happened, rfl⟩⟩

/-- `recv_handler` can always go on, if there is memory for the buffer of its receive. -/
theorem receiving_steps
    {rank : Nat}
    {handle : Handle}
    {outer : List Handle}
    (control : (traffic.world rank).control = .receiving handle outer) :
    ∃ address request after,
      traffic.Obeys n comm_buffer_size buffers agreed (.recv_handler rank address request none) ∧
        traffic.step (.recv_handler rank address request none) = some after := by
  obtain ⟨request, free⟩ := consistent.exists_free rank
  obtain ⟨limit, below⟩ := consistent.exists_limit rank
  refine ⟨limit, request, ?_⟩
  have obeys : traffic.Obeys n comm_buffer_size buffers agreed
      (.recv_handler rank limit request none) := by
    rintro _ _ _ _ inside ⟨lower, _⟩ used
    exact absurd (below inside used) (not_lt.mpr lower)
  obtain ⟨channel, receiving, round, index, unsent, rfl, handling⟩ := consistent.handling control
  have sound := consistent.sound channel.dest
  have arrived := handling.arrived
  have origin := arrived.goes_on.origin
  have describes := arrived.goes_on.describes
  have comm := (sound.engaged handle handling.active).comm
  obtain ⟨orig, returned, _, buffer, _⟩ := (sound.engaged handle handling.active).origin
  obtain ⟨comm_buffer, found⟩ := Option.isSome_iff_exists.mp (sound.held orig returned).2.2
  rw [found] at buffer
  have steps : traffic.world.recv_handler channel.dest handle outer limit request none ≠ none := by
    intro received
    unfold World.recv_handler at received
    rw [if_neg (by rw [origin]; simp), if_neg (by rw [comm]; decide)] at received
    extract_lets pointers allocated length next go_on at received
    have goes : ∀ copied : Rank, copied.allocated (.request request) = false →
        go_on copied ≠ none := by
      intro copied unused gone
      simp only [go_on] at gone
      split at gone
      · simp only [buffer, Option.bind_eq_bind, Option.bind_some, World.ucp_tag_recv_nb,
          World.set_self, unused] at gone
        contradiction
      · contradiction
    split at received
    · rename_i batch
      obtain ⟨buf, pointed⟩ : ∃ buf,
          pointers ((traffic.world channel.dest).info handle).recv_buffer = some buf := by
        by_cases allocates : (traffic.world channel.dest).Allocates
            ((traffic.world channel.dest).info handle)
        · refine ⟨limit, ?_⟩
          have moved : pointers = Function.update (traffic.world channel.dest).pointers
              ((traffic.world channel.dest).info handle).recv_buffer (some limit) :=
            if_pos allocates
          rw [moved, Function.update_self]
        · have kept : pointers = (traffic.world channel.dest).pointers := if_neg allocates
          rw [kept]
          refine Option.ne_none_iff_exists'.mp fun none => allocates ⟨none, ?_⟩
          -- A round with a batch has elements.
          have fits := consistent.fits channel round (List.mem_of_getElem? arrived.found)
          have bound := arrived.bound
          have inside := lt_batches_iff fits.per_batch_pos round.count 0
          have total : (traffic.world channel.dest).total
              ((traffic.world channel.dest).info handle) = round.count := by
            rw [Rank.total, describes.count, arrived.collected.counter]
          rw [arrived.goes_on.ibatch] at batch
          change 0 < round.number comm_buffer_size ↔ _ at inside
          rw [total]
          omega
      obtain ⟨heap, counters, written⟩ := allocated.write_eq
        ((traffic.world channel.dest).heap.read comm_buffer _) (.device _ _)
      simp only [pointed, buffer, Option.bind_eq_bind, Option.bind_some] at received
      exact goes _ (by rw [written]; exact free) received
    · exact goes allocated free received
  obtain ⟨later, received⟩ := Option.ne_none_iff_exists'.mp steps
  have happened : traffic.world.step (.recv_handler channel.dest limit request none) = some later := by
    simp only [World.step, control, received]
  exact ⟨_, obeys, Option.map_eq_some_iff.mpr ⟨_, happened, rfl⟩⟩

section Quiet

variable (quiet : traffic.Quiet n comm_buffer_size buffers agreed)
include quiet

/-- No callback is executed. -/
theorem control_user (rank : Nat) : (traffic.world rank).control = .user := by
  cases control : (traffic.world rank).control with
  | user => rfl
  | sending handle loop =>
      obtain ⟨after, stepped⟩ := consistent.sending_steps control
      have stuck := quiet (.send_handler rank none) trivial trivial
      rw [stuck] at stepped
      contradiction
  | receiving handle outer =>
      obtain ⟨address, request, after, obeys, stepped⟩ := consistent.receiving_steps control
      have stuck := quiet (.recv_handler rank address request none) trivial obeys
      rw [stuck] at stepped
      contradiction
  | crashed => exact absurd control (consistent.located rank).alive

/-- No callback is due. -/
theorem due_nil (rank : Nat) : (traffic.world rank).due = [] := by
  have idle := consistent.control_user quiet rank
  have stuck := quiet (.progress rank 0) trivial trivial
  have waits := Option.map_eq_none_iff.mp stuck
  dsimp only [World.step, World.progress] at waits
  rw [if_pos idle] at waits
  split at waits
  · rename_i none_due
    exact List.eq_nil_of_length_eq_zero (Nat.le_zero.mp (List.getElem?_eq_none_iff.mp none_due))
  · contradiction
  · contradiction

/-- Transfers wait for UCX. -/
theorem pending_eq_zero (rank : Nat) : (traffic.world rank).pending = 0 := by
  rw [Rank.pending, consistent.due_nil quiet rank, consistent.control_user quiet rank]
  rfl

/-- A send that goes on has a message that has not been received. -/
theorem queue_ne_nil
    {channel : Channel}
    {sending : Sending}
    {handle : Handle}
    {index : Nat}
    (goes_on : sending.GoesOn n comm_buffer_size (traffic.world channel.source) channel handle
      index) :
    traffic.world.queue channel ≠ [] := by
  have located := consistent.located channel.source
  have active := goes_on.active
  rw [Rank.active_eq, consistent.pending_eq_zero quiet, add_zero] at active
  obtain ⟨⟨place, request⟩, operation, rfl⟩ := Multiset.mem_map.mp active
  rcases Rank.operations_cases operation with ⟨dest, message, listed, payload⟩ |
    ⟨receive, listed, rfl, rfl⟩
  · have carries := located.outgoing dest message listed
    obtain rfl := (carries.peer place request payload).symm.trans goes_on.describes.peer
    have tagged : message.tag = channel.comm_tag := by
      rw [carries.user_tag place request payload, goes_on.describes.user_tag]
      rfl
    intro empty
    have inside : message ∈ ((traffic.world channel.source).outgoing channel.dest).filter
        fun message => message.tag = channel.comm_tag :=
      List.mem_filter.mpr ⟨listed, decide_eq_true tagged⟩
    rw [List.map_eq_nil_iff.mp empty] at inside
    contradiction
  · have types := (located.posted receive listed).symm.trans goes_on.describes.types
    contradiction

omit consistent in
/-- No message is left for a receive that has been posted. -/
theorem queue_nil
    {channel : Channel}
    {receive : Posted}
    (posted : receive ∈ (traffic.world channel.dest).posted)
    (tagged : receive.tag = channel.comm_tag) :
    traffic.world.queue channel = [] := by
  by_contra waiting
  obtain ⟨bytes, content⟩ := List.exists_mem_of_ne_nil _ waiting
  obtain ⟨message, inside, _⟩ := List.mem_map.mp content
  obtain ⟨listed, same⟩ := List.mem_filter.mp inside
  rcases moves_of_tag (traffic.world channel.source).read listed (of_decide_eq_true same) with
    ⟨first, rest, taken⟩ | ⟨position, first, found, located, first_tag, taken⟩
  · obtain ⟨⟨matched, others⟩, takes⟩ := takePosted_of_mem posted tagged
    have stuck := Option.map_eq_none_iff.mp
      (quiet (.deliver channel.source channel.dest channel.comm_tag) trivial trivial)
    simp only [World.step, World.deliver, World.receive, takes, taken, Option.bind_eq_bind,
      Option.bind_some, Option.map_some] at stuck
    contradiction
  · have stuck := Option.map_eq_none_iff.mp
      (quiet (.transmit channel.source channel.dest position)
        ⟨first, receive, located, posted, tagged.trans first_tag.symm⟩ trivial)
    simp only [World.step, World.transmit, taken, Option.map_some] at stuck
    contradiction

/-- What has been received is all that has been sent, if a receive is posted. -/
theorem eq_streams
    {channel : Channel}
    {receive : Posted}
    {taken unsent : List (List Byte)}
    (posted : receive ∈ (traffic.world channel.dest).posted)
    (tagged : receive.tag = channel.comm_tag)
    (flow : taken ++ (traffic.world.queue channel ++ unsent) =
      Round.streams comm_buffer_size (traffic.ledger.sent channel))
    (sends : SenderSide n comm_buffer_size (traffic.world channel.source) channel
      (traffic.ledger.sending channel) unsent) :
    taken = Round.streams comm_buffer_size (traffic.ledger.sent channel) := by
  have none := queue_nil quiet posted tagged
  rw [none, List.nil_append] at flow
  generalize traffic.ledger.sending channel = sending at sends
  cases sends with
  | idle => rwa [List.append_nil] at flow
  | active goes_on => exact absurd none (consistent.queue_ne_nil quiet goes_on)
  | completed => rwa [List.append_nil] at flow

/-- A receive has completed, if its round has been sent. -/
theorem receive_completed
    {channel : Channel}
    {receiving : Receiving}
    (outstanding : traffic.ledger.receiving channel = some receiving)
    (sent : receiving.round < (traffic.ledger.sent channel).length) :
    ((traffic.world channel.dest).info receiving.handle).completed = true := by
  have valid := (consistent.booked.receiving channel receiving outstanding).valid
  obtain ⟨taken, unsent, flow, sends, receives⟩ := consistent.flows channel valid
  rw [outstanding] at receives
  cases receives with
  | announced le goes_on posted =>
      have whole := consistent.eq_streams quiet posted rfl flow sends
      rw [← List.append_nil (Round.streams _ (List.take _ _))] at whole
      exact absurd whole (Round.streams_take_ne (List.getElem?_eq_getElem sent) (Nat.succ_pos _))
  | posted found bound goes_on buffer posted collected =>
      have whole := consistent.eq_streams quiet posted rfl flow sends
      refine absurd whole (Round.streams_take_ne found ?_)
      rw [List.length_take, Round.length_stream]
      omega
  | arrived found bound goes_on pending stored collected =>
      rw [consistent.pending_eq_zero quiet] at pending
      exact absurd pending (Multiset.notMem_zero _)
  | completed found completed collected => exact completed

/-- A send has completed, if receives have been posted for all rounds. -/
theorem send_completed
    {channel : Channel}
    {sending : Sending}
    (outstanding : traffic.ledger.sending channel = some sending)
    (received : (traffic.ledger.sent channel).length ≤ traffic.ledger.received channel) :
    ((traffic.world channel.source).info sending.handle).completed = true := by
  have valid := (consistent.booked.sending channel sending outstanding).valid
  obtain ⟨taken, unsent, flow, sends, receives⟩ := consistent.flows channel valid
  have posted_rounds := consistent.booked.received channel
  rw [outstanding] at sends
  cases sends with
  | completed completed => exact completed
  | @active _ handle index goes_on =>
      have waiting := consistent.queue_ne_nil quiet goes_on
      -- Nothing is left of the messages if the receiver has taken all of them.
      have all : taken ≠ Round.streams comm_buffer_size (traffic.ledger.sent channel) := by
        intro whole
        rw [whole] at flow
        exact waiting (List.append_eq_nil_iff.mp (List.append_right_eq_self.mp flow)).1
      generalize traffic.ledger.receiving channel = receiving at receives posted_rounds
      cases receives with
      | idle => exact absurd (by rw [List.take_of_length_le received]) all
      | announced le goes_on posted => exact absurd (queue_nil quiet posted rfl) waiting
      | posted found bound goes_on buffer posted collected =>
          exact absurd (queue_nil quiet posted rfl) waiting
      | arrived found bound goes_on pending stored collected =>
          rw [consistent.pending_eq_zero quiet] at pending
          exact absurd pending (Multiset.notMem_zero _)
      | completed found completed collected =>
          rw [← posted_rounds _ rfl] at received
          exact absurd (by rw [List.take_of_length_le received]) all

end Quiet

end Consistent

/-- UCX and the callbacks cannot go on if nothing is on the way. -/
theorem Idle.quiet
    {n : Nat}
    {comm_buffer_size : Int}
    {buffers : Nat → List Int}
    {agreed : Agreement}
    {traffic : Traffic}
    (idle : traffic.Idle) :
    traffic.Quiet n comm_buffer_size buffers agreed := by
  intro event advances _
  refine Option.map_eq_none_iff.mpr ?_
  cases event with
  | progress self position =>
      obtain ⟨control, due, _⟩ := idle self
      simp [World.step, World.progress, control, due]
  | send_handler self request =>
      obtain ⟨control, _⟩ := idle self
      simp [World.step, control]
  | recv_handler self address request inside =>
      obtain ⟨control, _⟩ := idle self
      simp [World.step, control]
  | transmit source dest position =>
      obtain ⟨_, _, _, outgoing⟩ := idle source
      simp [World.step, World.transmit, outgoing, takeOver]
  | deliver source dest tag =>
      obtain ⟨_, _, posted, _⟩ := idle dest
      simp [World.step, World.deliver, posted, takePosted]
  | send self buf count element_size dest tag custom request => contradiction
  | recv self buffer element_size source tag request inside => contradiction
  | waitall self handles => contradiction
  | compute self heap => contradiction

section Runs

variable {n : Nat} {agreed : Agreement} {heap : Nat → Heap} {cache_start_addr : Nat → Int}
  {ncaches : Nat} {buffer_size : Int}

/-- In every state that is reached and in which UCX and the callbacks cannot go on, all ranks
execute their programs, receives whose rounds have been sent have their data, and sends have
completed if receives have been posted for all rounds. -/
theorem quiet_completes
    (ranks : n ≤ 2 ^ 31)
    (positive : 0 < buffer_size)
    (memory : buffer_size ≤ 2 ^ 57)
    {traffic : Traffic}
    (reached : Reaches (Permits n buffer_size
        (set_up_buffers cache_start_addr ncaches buffer_size) agreed)
      (set_up heap cache_start_addr ncaches buffer_size) traffic)
    (quiet : traffic.Quiet n buffer_size (set_up_buffers cache_start_addr ncaches buffer_size)
      agreed) :
    (∀ rank, (traffic.world rank).control = .user) ∧
      (∀ channel receiving, traffic.ledger.receiving channel = some receiving →
        receiving.round < (traffic.ledger.sent channel).length →
        ((traffic.world channel.dest).info receiving.handle).completed = true ∧
          ∃ round, traffic.Delivered channel receiving round) ∧
      ∀ channel sending, traffic.ledger.sending channel = some sending →
        (traffic.ledger.sent channel).length ≤ traffic.ledger.received channel →
        ((traffic.world channel.source).info sending.handle).completed = true := by
  have consistent := reached.consistent ranks memory (consistent_set_up positive)
  refine ⟨consistent.control_user quiet, ?_, ?_⟩
  · intro channel receiving outstanding sent
    have completed := consistent.receive_completed quiet outstanding sent
    exact ⟨completed, consistent.delivered outstanding completed⟩
  · intro channel sending outstanding received
    exact consistent.send_completed quiet outstanding received

end Runs

/-- A rank that has sent two elements to itself in two batches has received them once UCX and
the callbacks cannot go on. -/
theorem quiet_completes_loopback :
    ∃ (traffic : Traffic) (receiving : Receiving) (round : Round),
      traffic.Quiet 1 64 (set_up_buffers (fun _ => 0) 2 64) (fun _ _ => ⟨2, 40⟩) ∧
        traffic.ledger.receiving ⟨0, 0, 1⟩ = some receiving ∧
        traffic.Delivered ⟨0, 0, 1⟩ receiving round := by
  obtain ⟨traffic, receiving, reached, outstanding, _, sent, idle⟩ := reaches_loopback
  obtain ⟨_, receives, _⟩ :=
    quiet_completes (by decide) (by decide) (by decide) reached idle.quiet
  obtain ⟨_, round, delivered⟩ := receives ⟨0, 0, 1⟩ receiving outstanding sent
  exact ⟨traffic, receiving, round, idle.quiet, outstanding, delivered⟩

end Traffic

end Ucx

end DistributedJoin
