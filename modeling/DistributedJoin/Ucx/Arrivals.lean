import DistributedJoin.Ucx.Completions

/-!
# Messages that arrive

UCX matches the first message of a channel with a receive that is posted on it. This message is
the one that the receiver waits for: the header of the next round, or the next batch.
-/

namespace DistributedJoin

namespace Ucx

open Device

namespace Place

/-- The addresses that a message is written to. -/
def Covers : Place → Int → Prop
  | .counter _, _ => False
  | .device start size, address => (Region.mk start size).Covers address

/-- The variable that a message is written to. -/
def Holds : Place → Cell → Prop
  | .counter cell, other => other = cell
  | .device _ _, _ => False

end Place

namespace Rank

variable {n : Nat} {rank : Rank}

/-- Writing a message changes its place only. -/
theorem write_same (rank : Rank) (bytes : List Byte) (place : Place) :
    ∃ heap counters, rank.write bytes place = { rank with heap := heap, counters := counters } ∧
      (∀ address, ¬ place.Covers address → heap address = rank.heap address) ∧
      ∀ cell, ¬ place.Holds cell → counters cell = rank.counters cell := by
  cases place with
  | counter cell =>
      exact ⟨rank.heap, _, rfl, fun _ _ => rfl, fun other different =>
        Function.update_of_ne different _ _⟩
  | device start size =>
      refine ⟨_, rank.counters, rfl, fun address outside => ?_, fun _ _ => rfl⟩
      exact Heap.write_of_not_covers rank.heap fun covers =>
        outside (Region.covers_of_write covers (List.length_take_le size bytes))

/-- What is written depends on memory only. -/
theorem write_congr
    (rank other : Rank)
    (heap : rank.heap = other.heap)
    (counters : rank.counters = other.counters)
    (bytes : List Byte)
    (place : Place) :
    (rank.write bytes place).heap = (other.write bytes place).heap ∧
      (rank.write bytes place).counters = (other.write bytes place).counters := by
  cases place with
  | counter cell => exact ⟨heap, congrArg (Function.update · cell _) counters⟩
  | device start size => exact ⟨congrArg (Heap.write · _) heap, counters⟩

/-- A message is read back from its place. -/
theorem read_write (bytes : List Byte) (start : Int) :
    (rank.write bytes (.device start bytes.length)).heap.read start bytes.length = bytes := by
  rw [write, List.take_length]
  exact (Heap.read_write rank.heap start le_rfl).trans List.take_length

/-- A receive that is posted is an operation in flight. -/
theorem operation_of_posted {receive : Posted} (member : receive ∈ rank.posted) :
    (receive.place, receive.request) ∈ rank.operations n :=
  Multiset.mem_add.mpr (.inr (Multiset.mem_coe.mpr (List.mem_map.mpr ⟨receive, member, rfl⟩)))

/-- A receive is posted once with its request. -/
theorem Sound.posted_inj
    {carved : List Int}
    {spare : List Handle}
    (sound : rank.Sound n carved spare)
    {first second : Posted}
    (member : first ∈ rank.posted)
    (again : second ∈ rank.posted)
    (same : first.request = second.request) :
    first = second := by
  have distinct := sound.active_nodup
  rw [active_eq, operations, Multiset.map_add] at distinct
  have posted := (Multiset.nodup_add.mp (Multiset.nodup_add.mp distinct).1).2.1
  rw [Multiset.map_coe, Multiset.coe_nodup, List.map_map] at posted
  exact List.inj_on_of_nodup_map posted member again same

end Rank

/-- UCX writes a message to the place of a receive, and the callback is due. -/
theorem Frame.deliver
    {n : Nat}
    {rank : Rank}
    {tag : Tag}
    {receive : Posted}
    {rest : List Posted}
    {outgoing : Nat → List Message}
    {orig : Handle}
    (taken : takePosted tag rank.posted = some (receive, rest))
    (sends : sendsOf n outgoing = sendsOf n rank.outgoing)
    (origin : (rank.info receive.request).orig_info = .handle orig)
    (bytes : List Byte) :
    Frame n ⟨(· = orig), receive.place.Covers, receive.place.Holds, fun _ => False⟩ rank
      { Rank.write { rank with outgoing := outgoing } bytes receive.place with
        posted := rest
        due := rank.due ++ [.recv_handler receive.request] } := by
  obtain ⟨heap, counters, written, heap_same, counters_same⟩ :=
    Rank.write_same { rank with outgoing := outgoing } bytes receive.place
  rw [written]
  have posted : (rank.posted.map fun posted => (posted.place, posted.request) : Multiset _) =
      (receive.place, receive.request) ::ₘ
        (rest.map fun posted => (posted.place, posted.request) : List _) :=
    Multiset.coe_eq_coe.mpr ((perm_takePosted taken).map _)
  have operations : rank.operations n =
      (receive.place, receive.request) ::ₘ Rank.operations n
        { rank with outgoing := outgoing, posted := rest } := by
    rw [Rank.operations, posted, Multiset.add_cons, ← sends]
    rfl
  have pending := rank.pending_due (.recv_handler receive.request)
  have active : Rank.active n
      { rank with
        outgoing := outgoing
        heap := heap
        counters := counters
        posted := rest
        due := rank.due ++ [.recv_handler receive.request] } = rank.active n := by
    rw [Rank.active_eq, Rank.active_eq, operations, Multiset.map_cons, Multiset.cons_add,
      ← Multiset.add_cons]
    exact congrArg _ pending
  exact {
    mpi_rank := rfl
    info := fun _ _ _ => rfl
    returned := fun _ member _ => member
    active := fun _ member _ => active ▸ member
    pending := fun handle member _ => by
      have more : handle ∈ receive.request ::ₘ rank.pending := Multiset.mem_cons_of_mem member
      exact (show Rank.pending _ = receive.request ::ₘ rank.pending from pending) ▸ more
    posted := by
      rintro other member ⟨found, same, apart⟩
      rcases List.mem_cons.mp ((perm_takePosted taken).mem_iff.mp member) with rfl | remains
      · exact absurd (OrigInfo.handle.inj (same.symm.trans origin)) apart
      · exact remains
    loop := fun _ _ _ => rfl
    heap := heap_same
    counters := counters_same
    pointers := fun _ _ => rfl }

/-- Receiving a message leaves the others. -/
theorem World.outgoing_of_receive
    {world received : World}
    {source dest : Nat}
    {tag : Tag}
    {bytes : List Byte}
    (taken : world.receive source dest tag = some (bytes, received))
    (rank other : Nat) :
    ∀ message ∈ (received rank).outgoing other, message ∈ (world rank).outgoing other := by
  obtain ⟨rest, found, rfl⟩ := World.receive_cases taken
  intro message member
  by_cases here : rank = source
  · subst here
    rw [World.set_self] at member
    change message ∈ Function.update (world rank).outgoing dest rest other at member
    by_cases there : other = dest
    · subst there
      rw [Function.update_self] at member
      exact (mem_takeMessage found).2 message member
    · rwa [Function.update_of_ne there] at member
  · rwa [World.set_of_ne _ here] at member

/-- A receiver waits for a message that is to be written to a place: for a header, or for a
batch. -/
inductive Waits
    (comm_buffer_size : Int)
    (rank : Rank)
    (channel : Channel)
    (sent : List Round)
    (receiving : Receiving) : List (List Byte) → Place → Handle → Prop
  | header
      {element_size : Int}
      (le : receiving.round ≤ sent.length)
      (goes_on : receiving.GoesOn channel element_size rank receiving.handle 0) :
      Waits comm_buffer_size rank channel sent receiving
        (Round.streams comm_buffer_size (sent.take receiving.round))
        (.counter receiving.counter) receiving.handle
  | batch
      {round : Round}
      {handle : Handle}
      {index : Nat}
      {comm_buffer : Int}
      (found : sent[receiving.round]? = some round)
      (bound : index < round.number comm_buffer_size)
      (goes_on : receiving.GoesOn channel round.element_size rank handle (index + 1))
      (buffer : (rank.info handle).comm_buffer = some comm_buffer)
      (collected : receiving.Collected comm_buffer_size rank round index) :
      Waits comm_buffer_size rank channel sent receiving
        (Round.streams comm_buffer_size (sent.take receiving.round) ++
          (round.stream comm_buffer_size).take (index + 1))
        (.device comm_buffer (round.batch comm_buffer_size index).length) handle

section Waits

variable {n : Nat} {comm_buffer_size : Int} {rank : Rank} {channel : Channel}
  {sent : List Round} {received : Nat} {receiving : Receiving} {taken : List (List Byte)}
  {place : Place} {handle : Handle}

/-- A receive that is posted is one that the receiver waits for. -/
theorem ReceiverSide.waits
    {carved : List Int}
    {spare : List Handle}
    {receive : Posted}
    (side : ReceiverSide comm_buffer_size rank channel sent received (some receiving) taken)
    (sound : rank.Sound n carved spare)
    (member : receive ∈ rank.posted)
    (origin : (rank.info receive.request).orig_info = .handle receiving.handle)
    (incomplete : (rank.info receiving.handle).completed = false) :
    receive.tag = channel.comm_tag ∧
      Waits comm_buffer_size rank channel sent receiving taken receive.place receive.request := by
  have active : receive.request ∈ rank.active n := Rank.mem_active_of_posted member
  cases side with
  | announced le goes_on posted =>
      have same := sound.active_inj (Rank.mem_active_of_posted posted) active
        (goes_on.origin.trans origin.symm)
      obtain rfl := sound.posted_inj posted member same
      exact ⟨rfl, .header le goes_on⟩
  | posted found bound goes_on buffer posted collected =>
      have same := sound.active_inj (Rank.mem_active_of_posted posted) active
        (goes_on.origin.trans origin.symm)
      obtain rfl := sound.posted_inj posted member same
      exact ⟨rfl, .batch found bound goes_on buffer collected⟩
  | arrived found bound goes_on pending stored collected =>
      have same := sound.active_inj (Rank.mem_active_of_pending pending) active
        (goes_on.origin.trans origin.symm)
      exact absurd (same ▸ pending) (sound.not_pending (Rank.operation_of_posted member))
  | completed found completed collected =>
      rw [completed] at incomplete
      contradiction

/-- The variable that a receiver waits for is that of its receive. -/
theorem Waits.holds
    {cell : Cell}
    (waits : Waits comm_buffer_size rank channel sent receiving taken place handle)
    (holds : place.Holds cell) :
    cell = receiving.counter := by
  cases waits with
  | header le goes_on => exact holds
  | batch found bound goes_on buffer collected => exact holds.elim

/-- A receive that the receiver waits for has been posted. -/
theorem Waits.posted
    (waits : Waits comm_buffer_size rank channel sent receiving taken place handle)
    (posted : ⟨channel.comm_tag, place, handle⟩ ∈ rank.posted) :
    ReceiverSide comm_buffer_size rank channel sent received (some receiving) taken := by
  cases waits with
  | header le goes_on => exact .announced le goes_on posted
  | batch found bound goes_on buffer collected =>
      exact .posted found bound goes_on buffer posted collected

/-- The message that a receiver waits for has been written to its place. -/
theorem Waits.arrives
    {after : Rank}
    {bytes : List Byte}
    {later : List (List Byte)}
    (waits : Waits comm_buffer_size rank channel sent receiving taken place handle)
    (flow : taken ++ bytes :: later = Round.streams comm_buffer_size sent)
    (fits : ∀ round ∈ sent, round.Fits comm_buffer_size)
    (sizes : ∀ round, sent[receiving.round]? = some round →
      (rank.info receiving.handle).element_size = round.element_size)
    (info : after.info handle = rank.info handle)
    (pending : handle ∈ after.pending)
    (pointers : after.pointers = rank.pointers)
    (counters : after.counters = (rank.write bytes place).counters)
    (heap : after.heap = (rank.write bytes place).heap)
    (apart : ∀ round address, sent[receiving.round]? = some round →
      receiving.Covers rank round.bytes.length address → ¬ place.Covers address) :
    ReceiverSide comm_buffer_size after channel sent received (some receiving)
      (taken ++ [bytes]) := by
  cases waits with
  | header le goes_on =>
      obtain ⟨round, found, rfl⟩ := Round.header_next flow
      have round_fits := fits round (List.mem_of_getElem? found)
      have kept := goes_on.frame info
      refine .arrived found (Nat.zero_le _)
        { kept with
          describes := { kept.describes with
            element_size := by rw [info, sizes round found] } }
        pending (fun _ same => by contradiction) ⟨?_, fun positive => by contradiction⟩
      rw [counters]
      exact (Function.update_self _ _ _).trans round_fits.decode_header
  | @batch round _ index comm_buffer found bound goes_on buffer collected =>
      obtain rfl := Round.batch_next found bound flow
      rw [List.append_assoc, ← Round.take_stream_succ bound]
      refine .arrived found bound (goes_on.frame info) pending ?_ ?_
      · rintro last same
        obtain rfl : index = last := Nat.succ.inj same
        refine ⟨comm_buffer, info ▸ buffer, ?_⟩
        rw [heap]
        exact Rank.read_write _ _
      · refine ⟨(congrFun counters _).trans collected.counter, fun positive => ?_⟩
        obtain ⟨start, pointed, stored⟩ := collected.buffer positive
        refine ⟨start, (congrFun pointers _).trans pointed, ?_⟩
        rw [Nat.add_sub_cancel, ← stored, heap]
        refine Heap.read_congr fun address covers => Heap.write_of_not_covers _ fun written => ?_
        refine apart round address found
          ⟨start, pointed, covers.mono (List.length_take_le' _ _)⟩ ?_
        exact Region.covers_of_write written (List.length_take_le _ _)

end Waits

namespace Traffic.Consistent

variable {n : Nat} {comm_buffer_size : Int} {buffers : Nat → List Int} {agreed : Agreement}
  {traffic : Traffic} {after : World}
  (consistent : traffic.Consistent n comm_buffer_size buffers agreed)
include consistent

/-- A message of a channel comes from its source. -/
theorem source_of_message
    (ranks : n ≤ 2 ^ 31)
    {channel : Channel}
    {source dest : Nat}
    {bytes : List Byte}
    {rest : List Message}
    (valid : channel.Valid n)
    (taken : takeMessage channel.comm_tag ((traffic.world source).outgoing dest) =
      some (bytes, rest)) :
    source = channel.source := by
  obtain ⟨⟨message, member, tagged⟩, _⟩ := mem_takeMessage taken
  obtain ⟨other, otherValid, rfl, _, same⟩ :=
    ((consistent.located source).outgoing dest message member).tag
  obtain ⟨bound, _, lower, upper⟩ := valid
  obtain ⟨otherBound, _, otherLower, otherUpper⟩ := otherValid
  exact (get_comm_tag_inj otherLower otherUpper lower upper (by omega) (by omega)
    (same.symm.trans tagged)).2

/-- An event that acts for a receive sends no messages. -/
theorem spares_of_receiving
    {channel : Channel}
    {receiving : Receiving}
    {footprint : Footprint}
    (outstanding : traffic.ledger.receiving channel = some receiving)
    (acting : ∀ handle, footprint.acting handle → handle = receiving.handle) :
    traffic.SparesMessages channel.dest footprint := by
  intro dest message member place request pending
  have sound := consistent.sound channel.dest
  have active := Rank.mem_active_of_operation
    (Rank.operation_of_outgoing sound.within member pending)
  have carries := (consistent.located channel.dest).outgoing dest message member
  rcases consistent.transfer_of_active active with
    ⟨other, sending, _, source, _, others, goes_on, _⟩ | ⟨_, _, _, _, _, _, _, describes⟩
  · exact ⟨sending.handle, goes_on.origin, fun acts =>
      consistent.booked.handles_ne source others outstanding (acting _ acts)⟩
  · have types := (carries.types _ request pending).symm.trans describes.types
    contradiction

/-- The first message of a channel has been received, and no other channel changes. -/
theorem queue_take
    {caller : Nat}
    {footprint : Footprint}
    (frames : World.Frames n caller footprint traffic.world after)
    (clear : traffic.Clear n comm_buffer_size agreed caller footprint)
    (quiet : traffic.SparesMessages caller footprint)
    (ranks : n ≤ 2 ^ 31)
    {channel : Channel}
    {bytes : List Byte}
    {rest : List Message}
    (valid : channel.Valid n)
    (taken : takeMessage channel.comm_tag
      ((traffic.world channel.source).outgoing channel.dest) = some (bytes, rest))
    (removed : (after channel.source).outgoing =
      Function.update (traffic.world channel.source).outgoing channel.dest rest)
    (others : ∀ other, other ≠ channel.source →
      (after other).outgoing = (traffic.world other).outgoing) :
    traffic.world.queue channel = bytes :: after.queue channel ∧
      ∀ other, other.Valid n → other ≠ channel →
        after.queue other = traffic.world.queue other := by
  obtain ⟨first, kept⟩ := (traffic.world channel.source).contents_takeMessage taken
  have same : ∀ tag, (after channel.source).contents tag rest =
      (traffic.world channel.source).contents tag rest :=
    consistent.content_kept frames clear quiet (mem_takeMessage taken).2
  constructor
  · rw [World.queue, World.queue, Rank.queue, Rank.queue, first, removed, Function.update_self,
      same]
  · intro other otherValid different
    by_cases here : other.source = channel.source ∧ other.dest = channel.dest
    · have apart : other.comm_tag ≠ channel.comm_tag := fun same =>
        different (Channel.eq_of_comm_tag ranks otherValid valid here.2 same)
      rw [World.queue, World.queue, Rank.queue, Rank.queue, here.1, here.2, removed,
        Function.update_self, same, kept _ apart]
    · refine consistent.queue_kept frames clear quiet ?_
      by_cases source : other.source = channel.source
      · rw [source, removed, Function.update_of_ne fun dest => here ⟨source, dest⟩]
      · rw [others other.source source]

/-- An operation in flight writes to the communication buffer of its handle. -/
theorem place_inside
    {rank : Nat}
    {place : Place}
    {request : Handle}
    {address : Int}
    (operation : (place, request) ∈ (traffic.world rank).operations n)
    (covers : place.Covers address) :
    ∃ comm_buffer, ((traffic.world rank).info request).comm_buffer = some comm_buffer ∧
      InBuffer comm_buffer_size comm_buffer address := by
  cases place with
  | counter cell => exact covers.elim
  | device start size =>
      obtain ⟨buffer, fits⟩ := (consistent.sound rank).placed _ operation start size rfl
      rw [consistent.comm_buffer_size rank] at fits
      obtain ⟨lower, upper⟩ := covers
      dsimp only at lower upper
      exact ⟨start, buffer, lower, by omega⟩

/-- Ranks from which a message has been received. -/
theorem located_receive
    {source dest : Nat}
    {tag : Tag}
    {bytes : List Byte}
    {received : World}
    (taken : traffic.world.receive source dest tag = some (bytes, received))
    (rank : Nat) :
    (received rank).Located n rank := by
  have sound := consistent.sound rank
  have located := consistent.located rank
  obtain ⟨outgoing, same, _⟩ := World.receive_same sound.within taken
  have remaining := World.outgoing_of_receive taken rank
  rw [same] at remaining ⊢
  exact located.of_alike sound.within (fun _ _ => .of_eq rfl)
    (fun other message member => .inl (remaining other message member)) (fun _ => .inl)
    (fun _ => .inl) (fun _ => .inl) located.sending located.receiving located.alive

/-- UCX matches a message and a receive. -/
theorem deliver
    {source dest : Nat}
    {tag : Tag}
    (ranks : n ≤ 2 ^ 31)
    (stepped : traffic.world.step (.deliver source dest tag) = some after) :
    Consistent n comm_buffer_size buffers agreed ⟨after, traffic.ledger⟩ := by
  have kept := consistent.sound.deliver stepped
  obtain ⟨receive, rest, bytes, received, posts, message, rfl⟩ := World.deliver_cases stepped
  have sound := consistent.sound dest
  have located := consistent.located dest
  have member : receive ∈ (traffic.world dest).posted :=
    (perm_takePosted posts).mem_iff.mpr List.mem_cons_self
  have active : receive.request ∈ (traffic.world dest).active n := Rank.mem_active_of_posted member
  rcases consistent.transfer_of_active active with
    ⟨channel, sending, _, _, _, _, goes_on, _⟩ |
    ⟨channel, receiving, rfl, valid, outstanding, origin, incomplete, describes⟩
  · have types := (located.posted receive member).symm.trans goes_on.describes.types
    contradiction
  · obtain ⟨taken, unsent, flow, sends, receives⟩ := consistent.flows channel valid
    rw [outstanding] at receives
    obtain ⟨tagged, waits⟩ := receives.waits sound member origin incomplete
    obtain rfl := (tag_of_takePosted posts).symm.trans tagged
    obtain ⟨queue, first, same⟩ := World.receive_cases message
    obtain rfl := consistent.source_of_message ranks valid first
    obtain ⟨outgoing, here, operations, _⟩ := World.receive_same sound.within message
    obtain ⟨heap, counters, written, _, _⟩ :=
      Rank.write_same { traffic.world channel.dest with outgoing := outgoing } bytes receive.place
    obtain ⟨heap_written, counters_written⟩ :=
      Rank.write_congr { traffic.world channel.dest with outgoing := outgoing }
        (traffic.world channel.dest) rfl rfl bytes receive.place
    have frame := Frame.deliver posts operations origin bytes
    rw [here, written] at kept ⊢
    rw [written] at heap_written counters_written frame
    let footprint : Footprint :=
      ⟨(· = receiving.handle), receive.place.Covers, receive.place.Holds, fun _ => False⟩
    let later : Rank :=
      { traffic.world channel.dest with
        outgoing := outgoing
        heap := heap
        counters := counters
        posted := rest
        due := (traffic.world channel.dest).due ++ [.recv_handler receive.request] }
    change World.Keeps n buffers traffic.world (received.set channel.dest later) _ _ at kept
    change Consistent n comm_buffer_size buffers agreed
      ⟨received.set channel.dest later, traffic.ledger⟩
    have frames : World.Frames n channel.dest footprint traffic.world
        (received.set channel.dest later) := {
      here := by
        rw [World.set_self]
        exact frame
      others := by
        intro other different
        obtain ⟨found, same, sends, _⟩ :=
          World.receive_same (consistent.sound other).within message
        exact ⟨found, (World.set_of_ne _ different _).trans same, sends⟩ }
    -- A batch is written to the communication buffer of its receive.
    have inside : ∀ address, receive.place.Covers address → ∃ comm_buffer,
        ((traffic.world channel.dest).info receive.request).comm_buffer = some comm_buffer ∧
          InBuffer comm_buffer_size comm_buffer address :=
      fun address covers => consistent.place_inside (Rank.operation_of_posted member) covers
    have clear : traffic.Clear n comm_buffer_size agreed channel.dest footprint := by
      refine consistent.clear_of ?_ ?_ ?_
      · intro address covers
        obtain ⟨comm_buffer, buffer, within⟩ := inside address covers
        exact .buffer active origin rfl buffer within
      · intro other found source others _ holds
        exact consistent.booked.counters other found channel receiving source others outstanding
          (waits.holds holds)
      · intro other found dest others apart
        refine ⟨fun holds => ?_, id⟩
        have different : other ≠ channel := by
          rintro rfl
          exact apart (congrArg Receiving.handle (Option.some.inj (others.symm.trans outstanding)))
        exact (consistent.booked.distinct other channel found receiving dest different others
          outstanding).1 (waits.holds holds)
    have quiet : traffic.SparesMessages channel.dest footprint :=
      consistent.spares_of_receiving outstanding fun _ => id
    have messages : ∀ rank, (received.set channel.dest later rank).outgoing =
        (received rank).outgoing := by
      intro rank
      by_cases at_dest : rank = channel.dest
      · subst at_dest
        rw [World.set_self, here]
      · rw [World.set_of_ne _ at_dest]
    obtain ⟨next, others⟩ := consistent.queue_take frames clear quiet ranks valid first
      ((messages _).trans (by rw [same, World.set_self]))
      fun other different => (messages other).trans (by rw [same, World.set_of_ne _ different])
    have apart := consistent.booked.apart_of_receiving outstanding
    refine consistent.of_keeps frames kept ?located ?booked consistent.fits consistent.agree ?flows
    case located =>
      intro rank
      by_cases at_dest : rank = channel.dest
      · subst at_dest
        rw [World.set_self]
        refine located.of_alike sound.within (fun _ _ => .of_eq rfl) ?_ ?_ ?_ ?_
          located.sending located.receiving located.alive
        · intro other sent present
          refine .inl (World.outgoing_of_receive message channel.dest other sent ?_)
          rw [here]
          exact present
        · exact fun other present =>
            .inl ((perm_takePosted posts).mem_iff.mpr (List.mem_cons_of_mem _ present))
        · intro handle present
          rcases List.mem_append.mp present with before | last
          · exact .inl before
          · exact Callback.noConfusion (List.mem_singleton.mp last)
        · intro handle present
          rcases List.mem_append.mp present with before | last
          · exact .inl before
          · obtain rfl := Callback.recv_handler.inj (List.mem_singleton.mp last)
            exact .inr describes.types
      · rw [World.set_of_ne _ at_dest]
        exact consistent.located_receive message rank
    case booked =>
      exact consistent.booked.of_frames frames (by rw [World.set_self])
        (fun _ _ => .of_eq (by rw [World.set_self])) (by rw [World.set_self])
        (by rw [World.set_self])
    case flows =>
      refine consistent.flows_kept frames clear (· = channel)
        (fun other different => ⟨(apart other).2, (apart other).1 different⟩)
        (fun _ _ => ⟨rfl, rfl, rfl, rfl⟩) others ?_
      rintro other _ rfl
      rw [next] at flow
      refine ⟨taken ++ [bytes], unsent, ?_,
        consistent.sender_kept frames clear (apart other).2 sends, ?_⟩
      · rw [List.append_assoc]
        exact flow
      · change ReceiverSide comm_buffer_size (received.set other.dest later other.dest) other
          (traffic.ledger.sent other) (traffic.ledger.received other)
          (traffic.ledger.receiving other) _
        rw [outstanding, World.set_self]
        refine waits.arrives flow (consistent.fits other) ?_ rfl ?_ rfl counters_written
          heap_written ?_
        · intro round found
          have agree := congrArg Extent.element_size (consistent.agree other _ round found)
          exact (consistent.booked.receiving other receiving outstanding).describes.element_size.trans
            agree
        · have pending := (traffic.world other.dest).pending_due (.recv_handler receive.request)
          exact (show later.pending = _ from pending) ▸ Multiset.mem_cons_self _ _
        · intro round address found covers written
          obtain ⟨comm_buffer, buffer, within⟩ := inside address written
          refine consistent.booked.writes other.dest address
            ⟨other, receiving, rfl, outstanding, ?_⟩ comm_buffer
            (consistent.comm_buffer_mem active buffer) within
          rw [consistent.size_eq found]
          exact covers

end Traffic.Consistent

end Ucx

end DistributedJoin
