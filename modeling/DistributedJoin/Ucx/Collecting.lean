import DistributedJoin.Ucx.Receipts

/-!
# Batches that are collected

`recv_handler` copies the batch that has come to the buffer of the receive, and waits for the
next one. Behind the last one it marks the handle of the receive as completed.
-/

namespace DistributedJoin

namespace Ucx

open Device

section Arrived

variable {n : Nat} {comm_buffer_size : Int} {rank : Rank} {channel : Channel}
  {sent : List Round} {received : Nat} {receiving : Receiving} {taken : List (List Byte)}
  {handle : Handle}

/-- The header or a batch has come, for a handle that is to go on. -/
structure Arrived
    (comm_buffer_size : Int)
    (rank : Rank)
    (channel : Channel)
    (sent : List Round)
    (receiving : Receiving)
    (handle : Handle)
    (round : Round)
    (index : Nat) : Prop where
  found : sent[receiving.round]? = some round
  bound : index ≤ round.number comm_buffer_size
  goes_on : receiving.GoesOn channel round.element_size rank handle index
  stored : ∀ last, index = last + 1 → ∃ comm_buffer,
    (rank.info handle).comm_buffer = some comm_buffer ∧
      rank.heap.read comm_buffer (round.batch comm_buffer_size last).length =
        round.batch comm_buffer_size last
  collected : receiving.Collected comm_buffer_size rank round (index - 1)

/-- The transfer of a handle that is executed has got a message. -/
theorem ReceiverSide.arrived_of_pending
    {carved : List Int}
    {spare : List Handle}
    (side : ReceiverSide comm_buffer_size rank channel sent received (some receiving) taken)
    (sound : rank.Sound n carved spare)
    (pending : handle ∈ rank.pending)
    (origin : (rank.info handle).orig_info = .handle receiving.handle)
    (incomplete : (rank.info receiving.handle).completed = false) :
    ∃ round index, Arrived comm_buffer_size rank channel sent receiving handle round index ∧
      taken = Round.streams comm_buffer_size (sent.take receiving.round) ++
        (round.stream comm_buffer_size).take (index + 1) := by
  have active : handle ∈ rank.active n := Rank.mem_active_of_pending pending
  cases side with
  | announced le goes_on posted =>
      have same := sound.active_inj (Rank.mem_active_of_posted posted) active
        (goes_on.origin.trans origin.symm)
      exact absurd (same ▸ pending) (sound.not_pending (Rank.operation_of_posted posted))
  | posted found bound goes_on buffer posted collected =>
      have same := sound.active_inj (Rank.mem_active_of_posted posted) active
        (goes_on.origin.trans origin.symm)
      exact absurd (same ▸ pending) (sound.not_pending (Rank.operation_of_posted posted))
  | arrived found bound goes_on waits stored collected =>
      obtain rfl := sound.active_inj (Rank.mem_active_of_pending waits) active
        (goes_on.origin.trans origin.symm)
      exact ⟨_, _, ⟨found, bound, goes_on, stored, collected⟩, rfl⟩
  | completed found completed collected =>
      rw [completed] at incomplete
      contradiction

/-- A pointer that is set is not changed by an allocation. -/
theorem Rank.pointed_of_some
    {info : CommInfo}
    {start : Int}
    (pointer : rank.pointers info.recv_buffer = some start)
    (address : Int) :
    rank.pointed info address = rank.pointers := by
  refine if_neg fun allocates => ?_
  rw [pointer] at allocates
  exact Option.some_ne_none _ allocates.1

/-- The batch that has come is behind those before it in the buffer of the receive. -/
theorem Arrived.copies
    {round : Round}
    {index : Nat}
    {address : Int}
    {heap : Heap}
    (arrived : Arrived comm_buffer_size rank channel sent receiving handle round index)
    (fits : round.Fits comm_buffer_size)
    (size : rank.comm_buffer_size = comm_buffer_size)
    (copies : rank.Copies (rank.info handle) address heap) :
    receiving.Collected comm_buffer_size
        { rank with heap := heap, pointers := rank.pointed (rank.info handle) address } round
        index ∧
      ∀ inside, heap inside ≠ rank.heap inside →
        receiving.Covers { rank with pointers := rank.pointed (rank.info handle) address }
          round.bytes.length inside := by
  have describes := arrived.goes_on.describes
  have ibatch := arrived.goes_on.ibatch
  have per_batch : rank.per_batch (rank.info handle) = round.per_batch comm_buffer_size := by
    rw [Rank.per_batch, describes.element_size, size]
    rfl
  have total : rank.total (rank.info handle) = round.count := by
    rw [Rank.total, describes.count, arrived.collected.counter]
  cases copies with
  | header first same =>
      obtain rfl : index = 0 := by omega
      subst same
      exact ⟨⟨arrived.collected.counter, fun positive => absurd positive (Nat.lt_irrefl 0)⟩,
        fun inside changed => absurd rfl changed⟩
  | @batch buf comm_buffer later pointer buffer same =>
      obtain ⟨last, rfl⟩ : ∃ last, index = last + 1 := ⟨index - 1, by omega⟩
      have bound : last < round.number comm_buffer_size := arrived.bound
      obtain ⟨found, present, content⟩ := arrived.stored last rfl
      obtain rfl := Option.some.inj (present.symm.trans buffer)
      have copied : rank.nelement_copied (rank.info handle) =
          round.per_batch comm_buffer_size * last := by
        rw [Rank.nelement_copied, per_batch, ibatch]
        push_cast
        rw [add_sub_cancel_right]
      have copy_size : rank.copy_size (rank.info handle) =
          (round.batch comm_buffer_size last).length := by
        rw [Rank.copy_size, copied, per_batch, total, describes.element_size]
        exact fits.length_batch bound
      rw [copied, copy_size, content, describes.element_size, ← (fits.before_eq bound).1] at same
      rw [describes.recv_buffer] at pointer
      subst same
      refine ⟨⟨arrived.collected.counter, fun _ => ⟨buf, pointer, Round.write_batch ?_⟩⟩,
        fun inside changed => ⟨buf, pointer, ?_⟩⟩
      · -- The batches before it have been collected, if there are any.
        cases last with
        | zero => simp [Round.before, Heap.read]
        | succ last =>
            obtain ⟨start, pointed, stored⟩ := arrived.collected.buffer (Nat.succ_pos last)
            rw [← describes.recv_buffer] at pointed
            rw [Rank.pointed_of_some pointed, ← describes.recv_buffer, pointed] at pointer
            obtain rfl := Option.some.inj pointer
            exact stored
      · by_contra outside
        refine changed (Heap.write_of_not_covers rank.heap fun covers => outside ?_)
        have shorter : round.before comm_buffer_size (last + 1) ≤ round.bytes.length :=
          List.length_take_le' _ _
        rw [Round.before_succ] at shorter
        obtain ⟨lower, upper⟩ := covers
        dsimp only at lower upper
        refine ⟨?_, ?_⟩
        · change buf ≤ inside
          omega
        · change inside < buf + (round.bytes.length : Int)
          omega

/-- Whether there is another batch, and its size. -/
theorem Arrived.next_batch
    {round : Round}
    {index : Nat}
    (arrived : Arrived comm_buffer_size rank channel sent receiving handle round index)
    (fits : round.Fits comm_buffer_size)
    (size : rank.comm_buffer_size = comm_buffer_size) :
    (0 < rank.next_batch (rank.info handle) ↔ index < round.number comm_buffer_size) ∧
      (index < round.number comm_buffer_size →
        (rank.next_batch (rank.info handle) * (rank.info handle).element_size).toNat =
          (round.batch comm_buffer_size index).length) := by
  have describes := arrived.goes_on.describes
  have per_batch : rank.per_batch (rank.info handle) = round.per_batch comm_buffer_size := by
    rw [Rank.per_batch, describes.element_size, size]
    rfl
  have total : rank.total (rank.info handle) = round.count := by
    rw [Rank.total, describes.count, arrived.collected.counter]
  have next : rank.next_batch (rank.info handle) =
      nelements_current_batch (round.per_batch comm_buffer_size)
        (round.count - round.per_batch comm_buffer_size * index) := by
    rw [Rank.next_batch, per_batch, total, arrived.goes_on.ibatch,
      fits.addressable.nelements_remaining_eq fits.per_batch_pos arrived.bound]
  have positive := fits.per_batch_pos
  have inside : index < round.number comm_buffer_size ↔ _ :=
    lt_batches_iff positive round.count index
  constructor
  · rw [next, inside]
    unfold nelements_current_batch
    split <;> omega
  · intro bound
    rw [next, describes.element_size]
    exact fits.length_batch bound

end Arrived

/-- The receive of the next batch has been posted, and its request goes on. -/
structure RecvAdvances
    (n : Nat)
    (footprint : Footprint)
    (rank later ready : Rank)
    (handle next : Handle) : Prop where
  frame : Frame n footprint rank later
  returned : later.returned = rank.returned
  alike : ∀ other, other ∈ rank.active n ∨ other ∈ rank.returned →
    (rank.info other).Alike (later.info other)
  info : later.info next = (rank.info handle).next
  counters : later.counters = rank.counters
  pointers : later.pointers = ready.pointers
  malloced : later.malloced = rank.malloced
  due : later.due = rank.due
  sends : ∀ other loop, later.control ≠ .sending other loop
  receives : ∀ other outer, later.control = .receiving other outer → other = next
  alive : later.control ≠ .crashed

/-- Two handles are described alike, and the rank goes on. -/
def Rank.hand_on
    (rank : Rank)
    (handle next : Handle)
    (info : CommInfo)
    (control : Control) : Rank :=
  { (rank.setInfo handle info).setInfo next info with control := control }

section HandOn

variable {rank : Rank} {handle next : Handle} (info : CommInfo) (control : Control)

theorem Rank.info_hand_on_next : (rank.hand_on handle next info control).info next = info :=
  Function.update_self _ _ _

theorem Rank.info_hand_on (apart : handle ≠ next) :
    (rank.hand_on handle next info control).info handle = info :=
  (Function.update_of_ne apart _ _).trans (Function.update_self _ _ _)

theorem Rank.info_hand_on_of_ne
    {other : Handle}
    (first : other ≠ handle)
    (second : other ≠ next) :
    (rank.hand_on handle next info control).info other = rank.info other :=
  (Function.update_of_ne second _ _).trans (Function.update_of_ne first _ _)

end HandOn

section Reposts

variable
  {n : Nat}
  {carved : Nat → List Int}
  {world posted : World}
  {self request : Nat}
  {handle orig : Handle}
  {outer : List Handle}
  {inside : Option Nat}
  {heap : Heap}
  {pointers : Cell → Option Int}
  {comm_buffer : Int}
  {size : Nat}
  {tag : Tag}
  (sound : world.Sound n carved)
  (control_self : (world self).control = .receiving handle outer)
  (receives : (world.set self { world self with heap := heap, pointers := pointers }
    ).ucp_tag_recv_nb self (.device comm_buffer size) tag request inside = some posted)

include sound

/-- The other ranks only lose the message that is received. -/
theorem World.Sound.reposts_elsewhere
    (receives : (world.set self { world self with heap := heap, pointers := pointers }
      ).ucp_tag_recv_nb self (.device comm_buffer size) tag request inside = some posted)
    (other : Nat)
    (different : other ≠ self) :
    ∃ outgoing, posted other = { world other with outgoing := outgoing } ∧
      sendsOf n outgoing = sendsOf n (world other).outgoing := by
  obtain ⟨messages, kept, sends, _⟩ := World.of_recv_nb different
    (by rw [World.set_of_ne _ different]; exact (sound other).within) receives
  rw [World.set_of_ne _ different] at kept sends
  exact ⟨messages, kept, sends⟩

include control_self

theorem World.Sound.remembers :
    ({ world self with heap := heap, pointers := pointers } : Rank).Sound n (carved self)
      outer := by
  have here := sound self
  rw [control_self] at here
  exact here.remember heap (world self).counters pointers (world self).malloced

include receives

/-- The receive of the next batch is posted with a request that is not in use. -/
theorem World.Sound.reposts :
    Posts n { world self with heap := heap, pointers := pointers } (posted self)
        (.device comm_buffer size) request inside ∧
      World.Receives world posted self tag (.device comm_buffer size) (.request request)
        { world self with heap := heap, pointers := pointers } inside ∧
      (posted self).mpi_rank = (world self).mpi_rank ∧ (posted self).pointers = pointers ∧
        (posted self).malloced = (world self).malloced := by
  have remembered : ({ world self with heap := heap, pointers := pointers } : Rank).Sound n
      (carved self) outer := sound.remembers control_self
  have posts := World.posts_of_recv_nb (by rw [World.set_self]; exact remembered) receives
  rw [World.set_self] at posts
  obtain ⟨⟨_, _, _, _, _, _, same⟩, takes⟩ :=
    World.recv_nb_eq receives rfl rfl (remembered.idle request posts.free).1
  rw [same]
  exact ⟨same ▸ posts, takes, rfl, rfl, rfl⟩

/-- The new request is no handle of the rank. -/
theorem World.Sound.fresh_request :
    .request request ∉ (world self).active n ∧ .request request ∉ (world self).returned ∧
      .request request ∉ outer ∧ handle ≠ .request request := by
  have here := sound self
  rw [control_self] at here
  obtain ⟨posts, _⟩ := sound.reposts control_self receives
  obtain ⟨inactive, unreturned, unspared⟩ := here.fresh posts.free
  refine ⟨inactive, unreturned, unspared, fun equal => inactive (equal ▸ ?_)⟩
  refine Rank.mem_active_of_running ?_
  rw [control_self]
  rfl

variable (control : Control)

/-- The rank hands the description of its receive on to the new request. -/
theorem World.Sound.hand_on_receives (info : CommInfo) :
    World.Receives world
      (posted.set self ((posted self).hand_on handle (.request request) info control)) self tag
      (.device comm_buffer size) (.request request)
      { world self with heap := heap, pointers := pointers } inside := by
  obtain ⟨_, takes, _⟩ := sound.reposts control_self receives
  exact takes.set _ rfl rfl rfl rfl

theorem World.Sound.hand_on_counters (info : CommInfo) :
    ((posted self).hand_on handle (.request request) info control).counters =
      (world self).counters := by
  obtain ⟨_, _, same⟩ := (sound.hand_on_receives control_self receives control info).memory
  rw [World.set_self] at same
  exact funext fun cell => same cell id

/-- All handles that are in use still describe their operations. -/
theorem World.Sound.hand_on_alike
    (other : Handle)
    (used : other ∈ (world self).active n ∨ other ∈ (world self).returned) :
    ((world self).info other).Alike (((posted self).hand_on handle (.request request)
      ((world self).info handle).next control).info other) := by
  obtain ⟨posts, _⟩ := sound.reposts control_self receives
  obtain ⟨inactive, unreturned, _, apart⟩ := sound.fresh_request control_self receives
  by_cases equal : other = handle
  · subst equal
    rw [Rank.info_hand_on _ _ apart]
    exact ⟨rfl, rfl, rfl, rfl, rfl, rfl, rfl⟩
  · have different : other ≠ .request request := by
      rintro rfl
      exact used.elim inactive unreturned
    exact .of_eq ((Rank.info_hand_on_of_ne _ _ equal different).trans (posts.info other different))

/-- The other operations of the rank are left alone. -/
theorem World.Sound.hand_on_frame
    {footprint : Footprint}
    (origin : ((world self).info handle).orig_info = .handle orig)
    (acting : footprint.acting orig)
    (addresses : ∀ address, ¬ footprint.addresses address →
      heap address = (world self).heap address ∧
        ¬ (Place.device comm_buffer size).Covers address)
    (cells : ∀ cell, ¬ footprint.pointers cell → pointers cell = (world self).pointers cell)
    (sends : ∀ other loop, control ≠ .sending other loop)
    (info : CommInfo) :
    Frame n footprint (world self)
      ((posted self).hand_on handle (.request request) info control) := by
  obtain ⟨posts, _, mpi_rank, same_pointers, _⟩ := sound.reposts control_self receives
  obtain ⟨inactive, unreturned, _, _⟩ := sound.fresh_request control_self receives
  obtain ⟨remains, heap_same, counters_same⟩ :=
    (sound.hand_on_receives control_self receives control info).memory
  rw [World.set_self] at remains heap_same counters_same
  have running : (world self).control.running = {handle} := by
    rw [control_self]
    rfl
  have executed : ∀ other ∈ (world self).control.running,
      ¬ footprint.Spares ((world self).info other) := by
    rintro other member ⟨found, equal, spared⟩
    rw [running, Multiset.mem_singleton] at member
    subst member
    obtain rfl := OrigInfo.handle.inj (equal.symm.trans origin)
    exact spared acting
  have operations : ∀ operation ∈ (world self).operations n,
      operation ∈ ((posted self).hand_on handle (.request request) info control).operations n := by
    intro operation member
    change operation ∈ (posted self).operations n
    rw [posts.operations]
    split
    · exact Multiset.mem_cons_of_mem member
    · exact member
  have due : ((posted self).hand_on handle (.request request) info control).due =
      (world self).due := posts.due
  exact {
    mpi_rank := mpi_rank
    info := by
      intro other used spares
      have different : other ≠ .request request := by
        rintro rfl
        exact used.elim inactive unreturned
      refine (Rank.info_hand_on_of_ne _ _ ?_ different).trans (posts.info other different)
      rintro rfl
      exact executed other (running ▸ Multiset.mem_singleton_self _) spares
    returned := by
      intro other member _
      change other ∈ (posted self).returned
      rw [posts.returned]
      exact member
    active := by
      intro other member spares
      rcases Rank.active_cases member with ⟨place, before⟩ | ⟨callback, before, rfl⟩ | running
      · exact Rank.mem_active_of_operation (operations _ before)
      · exact Rank.mem_active_of_due (due ▸ before)
      · exact absurd spares (executed other running)
    pending := by
      intro other member spares
      rcases Multiset.mem_add.mp member with before | running
      · exact Multiset.mem_add.mpr (.inl (due ▸ before))
      · exact absurd spares (executed other running)
    posted := fun receive before _ => remains receive before
    loop := by
      intro other _ _
      refine (Rank.loop_of_not_sending sends other).trans (Eq.symm ?_)
      exact Rank.loop_of_not_sending
        (by rw [control_self]; exact fun _ _ => Control.noConfusion) other
    heap := fun address outside =>
      (heap_same address (addresses address outside).2).trans (addresses address outside).1
    counters := fun cell _ => counters_same cell id
    pointers := by
      intro cell outside
      change (posted self).pointers cell = _
      rw [same_pointers]
      exact cells cell outside }

end Reposts

/-- `recv_handler` goes on to the next batch. -/
theorem World.Sound.recv_advances
    {n : Nat}
    {carved : Nat → List Int}
    {world posted : World}
    {self request : Nat}
    {handle orig : Handle}
    {outer : List Handle}
    {inside : Option Nat}
    {heap : Heap}
    {pointers : Cell → Option Int}
    {comm_buffer : Int}
    {size : Nat}
    {tag : Tag}
    (sound : world.Sound n carved)
    (footprint : Footprint)
    (control_self : (world self).control = .receiving handle outer)
    (origin : ((world self).info handle).orig_info = .handle orig)
    (buffer : ((world self).info handle).comm_buffer = some comm_buffer)
    (fits : size ≤ (world self).comm_buffer_size.toNat)
    (receives : (world.set self { world self with heap := heap, pointers := pointers }
      ).ucp_tag_recv_nb self (.device comm_buffer size) tag request inside = some posted)
    (acting : footprint.acting orig)
    (addresses : ∀ address, ¬ footprint.addresses address →
      heap address = (world self).heap address ∧
        ¬ (Place.device comm_buffer size).Covers address)
    (cells : ∀ cell, ¬ footprint.pointers cell → pointers cell = (world self).pointers cell) :
    let next := ((world self).info handle).next
    let later := if ((posted self).info (.request request)).orig_info ≠ .null then
        (posted self).hand_on handle (.request request) next
          (.receiving (.request request) (handle :: outer))
      else (handle :: outer).foldl Rank.free_internal
        ((posted self).hand_on handle (.request request) next .user)
    RecvAdvances n footprint (world self) later
        { world self with heap := heap, pointers := pointers } handle (.request request) ∧
      World.Receives world (posted.set self later) self tag (.device comm_buffer size)
        (.request request) { world self with heap := heap, pointers := pointers } inside ∧
      (inside ≠ none → .request request ∈ later.pending) ∧
      ∀ other, other ≠ self → ∃ outgoing, posted other = { world other with outgoing := outgoing } ∧
        sendsOf n outgoing = sendsOf n (world other).outgoing := by
  intro next later
  obtain ⟨posts, takes, _, same_pointers, malloced⟩ := sound.reposts control_self receives
  obtain ⟨_, _, unspared, apart⟩ := sound.fresh_request control_self receives
  have elsewhere := sound.reposts_elsewhere receives
  by_cases waits : inside = none
  case neg =>
    -- the callback has run inside the post, so that the new request is executed
    let control := Control.receiving (.request request) (handle :: outer)
    have later_eq : later = (posted self).hand_on handle (.request request) next control :=
      if_pos fun null => waits (posts.called.mp null)
    have called : .request request ∈
        ((posted self).hand_on handle (.request request) next control).pending :=
      Multiset.mem_add.mpr (.inr (Multiset.mem_singleton_self _))
    rw [later_eq]
    refine ⟨?_, sound.hand_on_receives control_self receives control next, fun _ => called,
      elsewhere⟩
    exact {
      frame := sound.hand_on_frame control_self receives control origin acting addresses cells
        (fun _ _ => Control.noConfusion) next
      returned := posts.returned
      alike := sound.hand_on_alike control_self receives control
      info := Rank.info_hand_on_next next control
      counters := sound.hand_on_counters control_self receives control next
      pointers := same_pointers
      malloced := malloced
      due := posts.due
      sends := fun _ _ => Control.noConfusion
      receives := fun _ _ equal => (Control.receiving.inj equal).1.symm
      alive := Control.noConfusion }
  case pos =>
    -- the requests before the new one are freed
    let filled := (posted self).hand_on handle (.request request) next .user
    have later_eq : later = (handle :: outer).foldl Rank.free_internal filled :=
      if_neg (not_not.mpr (posts.called.mpr waits))
    obtain ⟨info_freed, allocated_freed, shape, alike, kept⟩ := filled.free_all_eq (handle :: outer)
    have running : (world self).control.running = {handle} := by
      rw [control_self]
      rfl
    have passed := passed_on_of_posts posts buffer fits apart (sound.unmanaged control_self)
      (toInt (((world self).info handle).ibatch + 1))
    have held : ∀ other ∈ (world self).returned,
        ((world self).info other).orig_info = .handle other := by
      have here := sound self
      exact fun other member => (here.held other member).2.1
    have frame : Frame n footprint (world self) filled := sound.hand_on_frame control_self receives
      .user origin acting addresses cells (fun _ _ => Control.noConfusion) next
    have freed := frame.free_all held ((passed .user).sound running (if_pos waits).symm
      (sound.remembers control_self))
    have frame_later : Frame n footprint (world self) later := later_eq ▸ freed
    have shape_later : later = { filled with
        info := info_freed, allocated := allocated_freed } := later_eq.trans shape
    refine ⟨?_, takes.set later (by rw [shape_later]; rfl) (by rw [shape_later]; rfl)
      (by rw [shape_later]; rfl) (by rw [shape_later]; rfl), fun called => absurd waits called,
      elsewhere⟩
    rw [shape_later] at frame_later ⊢
    exact {
      frame := frame_later
      returned := posts.returned
      alike := fun other used =>
        (sound.hand_on_alike control_self receives .user other used).trans (alike other)
      info := (kept _ (.inl (by
        rw [List.mem_cons, not_or]
        exact ⟨apart.symm, unspared⟩))).trans (Rank.info_hand_on_next next .user)
      counters := sound.hand_on_counters control_self receives .user next
      pointers := same_pointers
      malloced := malloced
      due := posts.due
      sends := fun _ _ => Control.noConfusion
      receives := fun _ _ => Control.noConfusion
      alive := Control.noConfusion }

namespace Traffic

/-- A rank executes `recv_handler` for a receive that has got a message. -/
structure Handling
    (n : Nat)
    (comm_buffer_size : Int)
    (traffic : Traffic)
    (channel : Channel)
    (receiving : Receiving)
    (handle : Handle)
    (round : Round)
    (index : Nat)
    (unsent : List (List Byte)) : Prop where
  valid : channel.Valid n
  outstanding : traffic.ledger.receiving channel = some receiving
  active : handle ∈ (traffic.world channel.dest).active n
  arrived : Arrived comm_buffer_size (traffic.world channel.dest) channel
    (traffic.ledger.sent channel) receiving handle round index
  flow : Round.streams comm_buffer_size ((traffic.ledger.sent channel).take receiving.round) ++
      (round.stream comm_buffer_size).take (index + 1) ++
        (traffic.world.queue channel ++ unsent) =
    Round.streams comm_buffer_size (traffic.ledger.sent channel)
  sends : SenderSide n comm_buffer_size (traffic.world channel.source) channel
    (traffic.ledger.sending channel) unsent

namespace Consistent

variable {n : Nat} {comm_buffer_size : Int} {buffers : Nat → List Int} {agreed : Agreement}
  {traffic : Traffic} {after : World}
  (consistent : traffic.Consistent n comm_buffer_size buffers agreed)
include consistent

/-- `recv_handler` is executed for a receive of the rank. -/
theorem handling
    {self : Nat}
    {handle : Handle}
    {outer : List Handle}
    (control : (traffic.world self).control = .receiving handle outer) :
    ∃ channel receiving round index unsent, channel.dest = self ∧
      traffic.Handling n comm_buffer_size channel receiving handle round index unsent := by
  have sound := consistent.sound self
  have running : (traffic.world self).control.running = {handle} := by
    rw [control]
    rfl
  have active := Rank.mem_active_of_running (n := n) running
  have types := (consistent.located self).receiving handle outer control
  rcases consistent.transfer_of_active active with
    ⟨_, _, _, _, _, _, goes_on, _⟩ |
    ⟨channel, receiving, rfl, valid, outstanding, origin, incomplete, _⟩
  · have sends := types.symm.trans goes_on.describes.types
    contradiction
  · obtain ⟨taken, unsent, flow, sends, receives⟩ := consistent.flows channel valid
    rw [outstanding] at receives
    have pending : handle ∈ (traffic.world channel.dest).pending := by
      rw [Rank.pending_of_running running]
      exact Multiset.mem_cons_self _ _
    obtain ⟨round, index, arrived, rfl⟩ :=
      receives.arrived_of_pending sound pending origin incomplete
    exact ⟨channel, receiving, round, index, unsent, rfl, valid, outstanding, active, arrived, flow,
      sends⟩

section Handling

variable {channel : Channel} {receiving : Receiving} {handle : Handle} {round : Round}
  {index : Nat} {unsent : List (List Byte)} {outer : List Handle} {address : Int}
  {request : Nat} {inside : Option Nat}
  (handling : traffic.Handling n comm_buffer_size channel receiving handle round index unsent)
  (control : (traffic.world channel.dest).control = .receiving handle outer)
  (obeys : traffic.Obeys n comm_buffer_size buffers agreed
    (.recv_handler channel.dest address request inside))
include handling control obeys

/-- The buffer of a receive has been given or allocated before, or it is allocated now where
nothing else is. -/
theorem pointed_cases :
    (traffic.world channel.dest).pointed ((traffic.world channel.dest).info handle) address =
        (traffic.world channel.dest).pointers ∨
      (traffic.world channel.dest).pointers receiving.pointer = none ∧
        (traffic.world channel.dest).pointed ((traffic.world channel.dest).info handle) address =
          Function.update (traffic.world channel.dest).pointers receiving.pointer (some address) ∧
        ∀ inside, (Region.mk address (agreed channel receiving.round).size).Covers inside →
          ¬ traffic.InUse agreed channel.dest inside (buffers channel.dest) comm_buffer_size := by
  have describes := handling.arrived.goes_on.describes
  have counter := handling.arrived.collected.counter
  by_cases allocates : (traffic.world channel.dest).Allocates
      ((traffic.world channel.dest).info handle)
  · have size : ((traffic.world channel.dest).total ((traffic.world channel.dest).info handle) *
        ((traffic.world channel.dest).info handle).element_size).toNat =
          (agreed channel receiving.round).size := by
      rw [Rank.total, describes.count, counter, describes.element_size,
        consistent.agree channel _ round handling.arrived.found]
      rfl
    have unused := obeys handle outer control allocates
    rw [size] at unused
    have none := allocates.1
    rw [describes.recv_buffer] at none
    refine .inr ⟨none, ?_, unused⟩
    rw [← describes.recv_buffer]
    exact if_pos allocates
  · exact .inl (if_neg allocates)

/-- The buffer of the receive is not used by any other transfer. -/
theorem region_owned
    (footprint : Footprint)
    (acting : footprint.acting receiving.handle)
    {inside : Int}
    (covers : receiving.Covers
      { traffic.world channel.dest with
        pointers := (traffic.world channel.dest).pointed
          ((traffic.world channel.dest).info handle) address }
      (agreed channel receiving.round).size inside) :
    traffic.Owned n comm_buffer_size buffers agreed channel.dest footprint inside ∧
      ∀ buffer ∈ buffers channel.dest, ¬ InBuffer comm_buffer_size buffer inside := by
  rcases consistent.pointed_cases handling control obeys with same | ⟨_, same, unused⟩
  · have before := (Receiving.covers_congr (congrFun same _)).mp covers
    exact ⟨.region rfl handling.outstanding acting before,
      consistent.booked.writes channel.dest inside
        ⟨channel, receiving, rfl, handling.outstanding, before⟩⟩
  · obtain ⟨start, pointer, covers⟩ := covers
    have address_eq : start = address := by
      have found := (congrFun same receiving.pointer).symm.trans pointer
      rw [Function.update_self] at found
      exact (Option.some.inj found).symm
    subst address_eq
    exact ⟨.unused (unused inside covers), fun buffer member within =>
      unused inside covers (.inl ⟨buffer, member, within⟩)⟩

/-- Transfers stay as they are booked when the buffer of a receive is allocated. -/
theorem booked_of_pointed
    {footprint : Footprint}
    (frames : World.Frames n channel.dest footprint traffic.world after)
    (returned : (after channel.dest).returned = (traffic.world channel.dest).returned)
    (alike : ∀ other ∈ (traffic.world channel.dest).returned,
      ((traffic.world channel.dest).info other).Alike ((after channel.dest).info other))
    (malloced : (after channel.dest).malloced = (traffic.world channel.dest).malloced)
    (pointers : (after channel.dest).pointers = (traffic.world channel.dest).pointed
      ((traffic.world channel.dest).info handle) address) :
    Booked n comm_buffer_size buffers agreed ⟨after, traffic.ledger⟩ := by
  rcases consistent.pointed_cases handling control obeys with same | ⟨unknown, same, unused⟩
  · exact consistent.booked.of_frames frames returned alike malloced (pointers.trans same)
  · have cases := frames.cases
    refine consistent.booked.allocate handling.outstanding ?_ ?_ ?_ ?_ unknown ?_
    · intro rank
      obtain rfl | ⟨outgoing, other⟩ := cases rank
      · exact returned
      · rw [other]
    · intro rank found member
      obtain rfl | ⟨outgoing, other⟩ := cases rank
      · exact alike found member
      · exact .of_eq (by rw [other])
    · intro rank
      obtain rfl | ⟨outgoing, other⟩ := cases rank
      · exact malloced
      · rw [other]
    · intro rank cell apart
      obtain rfl | ⟨outgoing, other⟩ := cases rank
      · rw [pointers, same]
        exact Function.update_of_ne (fun equal => apart ⟨rfl, equal⟩) _ _
      · rw [other]
    · rintro inside ⟨start, pointer, covers⟩
      rw [pointers, same, Function.update_self] at pointer
      obtain rfl := Option.some.inj pointer
      exact unused inside covers

omit control obeys in
/-- The memory that `recv_handler` changes, apart from its communication buffer. -/
theorem collects
    {heap : Heap}
    (copies : (traffic.world channel.dest).Copies ((traffic.world channel.dest).info handle) address
      heap) :
    receiving.Collected comm_buffer_size
        { traffic.world channel.dest with
          heap := heap
          pointers := (traffic.world channel.dest).pointed
            ((traffic.world channel.dest).info handle) address } round index ∧
      ∀ inside, heap inside ≠ (traffic.world channel.dest).heap inside →
        receiving.Covers
          { traffic.world channel.dest with
            pointers := (traffic.world channel.dest).pointed
              ((traffic.world channel.dest).info handle) address }
          (agreed channel receiving.round).size inside := by
  have found := handling.arrived.found
  have fits := consistent.fits channel round (List.mem_of_getElem? found)
  rw [consistent.size_eq found]
  exact handling.arrived.copies fits (consistent.comm_buffer_size channel.dest) copies

/-- `recv_handler` waits for the next batch. -/
theorem recv_batch
    {heap : Heap}
    {comm_buffer : Int}
    {posted : World}
    {later : Rank}
    {record : Nat → Record}
    (ranks : n ≤ 2 ^ 31)
    (copies : (traffic.world channel.dest).Copies ((traffic.world channel.dest).info handle) address
      heap)
    (more : 0 < (traffic.world channel.dest).next_batch
      ((traffic.world channel.dest).info handle))
    (buffer : ((traffic.world channel.dest).info handle).comm_buffer = some comm_buffer)
    (receives : (traffic.world.set channel.dest
        { traffic.world channel.dest with
          heap := heap
          pointers := (traffic.world channel.dest).pointed
            ((traffic.world channel.dest).info handle) address }).ucp_tag_recv_nb channel.dest
      (.device comm_buffer ((traffic.world channel.dest).next_batch
        ((traffic.world channel.dest).info handle) *
          ((traffic.world channel.dest).info handle).element_size).toNat)
      (get_comm_tag ((traffic.world channel.dest).info handle).user_tag
        ((traffic.world channel.dest).info handle).peer) request inside = some posted)
    (chosen : later =
      if ((posted channel.dest).info (.request request)).orig_info ≠ .null then
        (posted channel.dest).hand_on handle (.request request)
          ((traffic.world channel.dest).info handle).next
          (.receiving (.request request) (handle :: outer))
      else (handle :: outer).foldl Rank.free_internal
        ((posted channel.dest).hand_on handle (.request request)
          ((traffic.world channel.dest).info handle).next .user))
    (same : after = posted.set channel.dest later)
    (kept : World.Keeps n buffers traffic.world after (fun rank => (traffic.world rank).returned)
      record) :
    Consistent n comm_buffer_size buffers agreed ⟨after, traffic.ledger⟩ ∧
      ∀ inside, (after channel.dest).heap inside ≠ (traffic.world channel.dest).heap inside →
        (∃ buffer ∈ buffers channel.dest, InBuffer comm_buffer_size buffer inside) ∨
          receiving.Covers (after channel.dest) (agreed channel receiving.round).size inside := by
  have sound := consistent.sound channel.dest
  have located := consistent.located channel.dest
  have describes := handling.arrived.goes_on.describes
  have origin := handling.arrived.goes_on.origin
  have found := handling.arrived.found
  have fits := consistent.fits channel round (List.mem_of_getElem? found)
  have buffer_size := consistent.comm_buffer_size channel.dest
  obtain ⟨enters, sizes⟩ := handling.arrived.next_batch fits buffer_size
  have bound := enters.mp more
  obtain ⟨collected, region⟩ := consistent.collects handling copies
  have member := consistent.comm_buffer_mem handling.active buffer
  rw [sizes bound, describes.user_tag, describes.peer] at receives
  let place : Place := .device comm_buffer (round.batch comm_buffer_size index).length
  let pointers := (traffic.world channel.dest).pointed
    ((traffic.world channel.dest).info handle) address
  let footprint : Footprint :=
    { Footprint.only receiving.handle with
      addresses := fun inside =>
        receiving.Covers { traffic.world channel.dest with pointers := pointers }
          (agreed channel receiving.round).size inside ∨ place.Covers inside
      pointers := (· = receiving.pointer) }
  have pointers_same : ∀ cell, cell ≠ receiving.pointer →
      pointers cell = (traffic.world channel.dest).pointers cell := by
    intro cell different
    rcases consistent.pointed_cases handling control obeys with equal | ⟨_, equal, _⟩
    · exact congrFun equal cell
    · exact (congrFun equal cell).trans (Function.update_of_ne different _ _)
  have heap_same : ∀ inside, ¬ footprint.addresses inside →
      heap inside = (traffic.world channel.dest).heap inside ∧ ¬ place.Covers inside := by
    intro inside outside
    obtain ⟨beyond, apart⟩ := not_or.mp outside
    exact ⟨not_not.mp fun changed => beyond (region inside changed), apart⟩
  have batch_fits := fits.batch_fits bound
  have within : ∀ inside, place.Covers inside → InBuffer comm_buffer_size comm_buffer inside := by
    rintro inside ⟨lower, upper⟩
    have nonneg := fits.comm_buffer_size_nonneg
    dsimp only at lower upper
    exact ⟨lower, by omega⟩
  obtain ⟨advances, posts, pending, others⟩ := consistent.sound.recv_advances footprint control
    origin buffer (by rw [buffer_size]; exact batch_fits) receives rfl heap_same pointers_same
  rw [← chosen] at advances posts pending
  have here : after channel.dest = later := by
    rw [same, World.set_self]
  rw [← same] at posts
  rw [← here] at advances pending
  have frames : World.Frames n channel.dest footprint traffic.world after := {
    here := advances.frame
    others := by
      intro other different
      rw [same, World.set_of_ne _ different]
      exact others other different }
  have clear : traffic.Clear n comm_buffer_size agreed channel.dest footprint := by
    refine consistent.clear_of ?_ (fun _ _ _ _ _ => id) ?_
    · rintro inside (covers | written)
      · exact (consistent.region_owned handling control obeys footprint rfl covers).1
      · exact .buffer handling.active origin rfl buffer (within inside written)
    · intro other found dest outstanding apart
      refine ⟨id, ?_⟩
      have different : other ≠ channel := by
        rintro rfl
        exact apart (congrArg Receiving.handle
          (Option.some.inj (outstanding.symm.trans handling.outstanding)))
      exact (consistent.booked.distinct other channel found receiving dest different outstanding
        handling.outstanding).2.1
  have quiet : traffic.SparesMessages channel.dest footprint :=
    consistent.spares_of_receiving handling.outstanding fun _ => id
  have types : ((after channel.dest).info (.request request)).types = .RECV := by
    rw [advances.info]
    exact describes.types
  have covers_after : ∀ inside, receiving.Covers (after channel.dest)
      (agreed channel receiving.round).size inside → receiving.Covers
        { traffic.world channel.dest with pointers := pointers }
        (agreed channel receiving.round).size inside :=
    fun inside covers => (Receiving.covers_congr (congrFun advances.pointers _)).mp covers
  have waits : Waits comm_buffer_size
      { after channel.dest with heap := heap, counters := (traffic.world channel.dest).counters }
      channel (traffic.ledger.sent channel) receiving
      (Round.streams comm_buffer_size ((traffic.ledger.sent channel).take receiving.round) ++
        (round.stream comm_buffer_size).take (index + 1)) place (.request request) := by
    refine .batch found bound ⟨?_, ?_, ?_⟩ ?_ ⟨collected.counter, fun positive => ?_⟩
    · change ((after channel.dest).info _).orig_info = _
      rw [advances.info]
      exact origin
    · change receiving.Describes _ _ ((after channel.dest).info _)
      rw [advances.info]
      exact describes.of_alike ⟨rfl, rfl, rfl, rfl, rfl, rfl, rfl⟩
    · change ((after channel.dest).info _).ibatch = _
      rw [advances.info]
      change toInt (((traffic.world channel.dest).info handle).ibatch + 1) = _
      rw [handling.arrived.goes_on.ibatch]
      exact toInt_succ_eq (Nat.lt_of_le_of_lt bound fits.countable)
    · change ((after channel.dest).info _).comm_buffer = _
      rw [advances.info]
      exact buffer
    · obtain ⟨start, pointer, stored⟩ := collected.buffer positive
      exact ⟨start, (congrFun advances.pointers _).trans pointer, stored⟩
  have booked := consistent.booked.receiving channel receiving handling.outstanding
  obtain ⟨⟨taken, flow, side⟩, queue⟩ := consistent.received frames clear quiet ranks handling.valid
    posts waits handling.flow ((advances.alike _ (.inr booked.returned)).element_size.trans
      booked.describes.element_size) pending fun inside covers written =>
        (consistent.region_owned handling control obeys footprint rfl
          (covers_after inside covers)).2 comm_buffer member (within inside written)
  refine ⟨consistent.of_keeps frames kept ?located ?booked consistent.fits consistent.agree ?flows,
    ?written⟩
  case located =>
    intro rank
    by_cases at_dest : rank = channel.dest
    · subst at_dest
      refine located.of_alike sound.within
        ?alike ?outgoing ?posted ?sends ?receives ?sending ?receiving advances.alive
      case alike =>
        exact fun other active => advances.alike other (.inl active)
      case outgoing =>
        exact fun other message present =>
          .inl (posts.messages channel.dest other message present)
      case posted =>
        intro receive present
        rcases posts.listed receive present with before | equal
        · exact .inl before
        · exact .inr (equal ▸ types)
      case sends =>
        exact fun other present => .inl (advances.due ▸ present)
      case receives =>
        exact fun other present => .inl (advances.due ▸ present)
      case sending =>
        exact fun other loop sends => absurd sends (advances.sends other loop)
      case receiving =>
        intro other outers receiving_control
        rw [advances.receives other outers receiving_control]
        exact types
    · obtain ⟨outgoing, equal, _⟩ := frames.others rank at_dest
      exact consistent.located_other posts ⟨outgoing, equal⟩
  case booked =>
    exact consistent.booked_of_pointed handling control obeys frames advances.returned
      (fun other present => advances.alike other (.inr present)) advances.malloced
      advances.pointers
  case flows =>
    have apart := consistent.booked.apart_of_receiving handling.outstanding
    refine consistent.flows_kept frames clear (· = channel)
      (fun other different => ⟨(apart other).2, (apart other).1 different⟩)
      (fun _ _ => ⟨rfl, rfl, rfl, rfl⟩) queue ?_
    intro other _ equal
    rw [equal]
    refine ⟨taken, unsent, flow,
      consistent.sender_kept frames clear (apart channel).2 handling.sends, ?_⟩
    change ReceiverSide _ _ _ _ _ (traffic.ledger.receiving channel) _
    rw [handling.outstanding]
    exact side
  case written =>
    intro inside changed
    by_contra outside
    obtain ⟨apart, beyond⟩ := not_or.mp outside
    refine changed (frames.here.heap inside ?_)
    rintro (covers | written)
    · exact beyond ((Receiving.covers_congr (congrFun advances.pointers _)).mpr covers)
    · exact apart ⟨comm_buffer, member, within inside written⟩

/-- `recv_handler` has copied the last batch. -/
theorem recv_last
    {heap : Heap}
    {record : Nat → Record}
    (copies : (traffic.world channel.dest).Copies ((traffic.world channel.dest).info handle) address
      heap)
    (ended : ¬ 0 < (traffic.world channel.dest).next_batch
      ((traffic.world channel.dest).info handle))
    (same : after = traffic.world.set channel.dest ((handle :: outer).foldl Rank.free_internal
      { Rank.complete
          { traffic.world channel.dest with
            heap := heap
            pointers := (traffic.world channel.dest).pointed
              ((traffic.world channel.dest).info handle) address } handle with
        control := .user }))
    (kept : World.Keeps n buffers traffic.world after (fun rank => (traffic.world rank).returned)
      record) :
    Consistent n comm_buffer_size buffers agreed ⟨after, traffic.ledger⟩ ∧
      ∀ inside, (after channel.dest).heap inside ≠ (traffic.world channel.dest).heap inside →
        receiving.Covers (after channel.dest) (agreed channel receiving.round).size inside := by
  have sound := consistent.sound channel.dest
  have located := consistent.located channel.dest
  have origin := handling.arrived.goes_on.origin
  have found := handling.arrived.found
  have fits := consistent.fits channel round (List.mem_of_getElem? found)
  have returned := (consistent.booked.receiving channel receiving handling.outstanding).returned
  have held : ∀ other ∈ (traffic.world channel.dest).returned,
      ((traffic.world channel.dest).info other).orig_info = .handle other :=
    fun other member => (sound.held other member).2.1
  have last : index = round.number comm_buffer_size := by
    have enters := (handling.arrived.next_batch fits (consistent.comm_buffer_size channel.dest)).1
    exact le_antisymm handling.arrived.bound (not_lt.mp fun bound => ended (enters.mpr bound))
  obtain ⟨collected, region⟩ := consistent.collects handling copies
  let ready : Rank :=
    { traffic.world channel.dest with
      heap := heap
      pointers := (traffic.world channel.dest).pointed
        ((traffic.world channel.dest).info handle) address }
  let later : Rank := (handle :: outer).foldl Rank.free_internal
    (Rank.complete { ready with control := .user } handle)
  let footprint : Footprint :=
    { Footprint.only receiving.handle with
      addresses := receiving.Covers ready (agreed channel receiving.round).size
      pointers := (· = receiving.pointer) }
  have pointers_same : ∀ cell, cell ≠ receiving.pointer →
      ready.pointers cell = (traffic.world channel.dest).pointers cell := by
    intro cell different
    rcases consistent.pointed_cases handling control obeys with equal | ⟨_, equal, _⟩
    · exact congrFun equal cell
    · exact (congrFun equal cell).trans (Function.update_of_ne different _ _)
  have copied : Frame n footprint (traffic.world channel.dest) ready := {
    mpi_rank := rfl
    info := fun _ _ _ => rfl
    returned := fun _ member _ => member
    active := fun _ member _ => member
    pending := fun _ member _ => member
    posted := fun _ member _ => member
    loop := fun _ _ _ => rfl
    heap := fun inside outside => not_not.mp fun changed => outside (region inside changed)
    counters := fun _ _ => rfl
    pointers := pointers_same }
  have completes : Rank.Completes n ready later receiving.handle := by
    have executing := sound
    rw [control] at executing
    have running : ready.control.running = {handle} := by
      change (traffic.world channel.dest).control.running = _
      rw [control]
      rfl
    exact (executing.remember heap (traffic.world channel.dest).counters ready.pointers
      (traffic.world channel.dest).malloced).transfer_completes running origin returned
  have here : after = traffic.world.set channel.dest later := by
    rw [same]
    have left := @Rank.complete_leave ready handle receiving.handle origin
    exact congrArg (fun rank => traffic.world.set channel.dest
      ((handle :: outer).foldl Rank.free_internal rank)) left
  obtain ⟨info, allocated, shape⟩ := completes.same
  have frame : Frame n footprint (traffic.world channel.dest) later :=
    copied.trans (completes.frame.mono (fun _ => id) (fun _ => False.elim) (fun _ => id)
      fun _ => False.elim) held
  have at_dest : after channel.dest = later := by
    rw [here, World.set_self]
  have frames : World.Frames n channel.dest footprint traffic.world after := here ▸ .of_set frame
  have clear : traffic.Clear n comm_buffer_size agreed channel.dest footprint := by
    refine consistent.clear_of (fun inside covers => ?_) (fun _ _ _ _ _ => id) ?_
    · exact (consistent.region_owned handling control obeys footprint rfl covers).1
    · intro other found dest outstanding apart
      refine ⟨id, ?_⟩
      have different : other ≠ channel := by
        intro equal
        subst equal
        exact apart (congrArg Receiving.handle
          (Option.some.inj (outstanding.symm.trans handling.outstanding)))
      exact (consistent.booked.distinct other channel found receiving dest different outstanding
        handling.outstanding).2.1
  have quiet : traffic.SparesMessages channel.dest footprint :=
    consistent.spares_of_receiving handling.outstanding fun _ => id
  have queue : ∀ other, after.queue other = traffic.world.queue other := by
    intro other
    refine consistent.queue_kept frames clear quiet ?_
    by_cases equal : other.source = channel.dest
    · rw [equal, at_dest, shape]
    · rw [here, World.set_of_ne _ equal]
  refine ⟨consistent.of_keeps frames kept ?located ?booked consistent.fits consistent.agree ?flows,
    ?written⟩
  case located =>
    rw [here]
    refine consistent.located_set (located.of_alike sound.within
      (fun other _ => completes.alike other) ?_ ?_ ?_ ?_ ?_ ?_
      (by rw [shape]; exact Control.noConfusion))
    · rw [shape]
      exact fun _ _ => .inl
    · rw [shape]
      exact fun _ => .inl
    · rw [shape]
      exact fun _ => .inl
    · rw [shape]
      exact fun _ => .inl
    · rw [shape]
      exact fun _ _ sends => Control.noConfusion sends
    · rw [shape]
      exact fun _ _ receives => Control.noConfusion receives
  case booked =>
    refine consistent.booked_of_pointed handling control obeys frames ?_ ?_ ?_ ?_
    · rw [at_dest, shape]
    · intro other _
      rw [at_dest]
      exact completes.alike other
    · rw [at_dest, shape]
    · rw [at_dest, shape]
  case flows =>
    have apart := consistent.booked.apart_of_receiving handling.outstanding
    refine consistent.flows_kept frames clear (· = channel)
      (fun other different => ⟨(apart other).2, (apart other).1 different⟩)
      (fun _ _ => ⟨rfl, rfl, rfl, rfl⟩) (fun other _ _ => queue other) ?_
    intro other _ equal
    rw [equal]
    refine ⟨Round.streams comm_buffer_size
      ((traffic.ledger.sent channel).take (receiving.round + 1)), unsent, ?_,
      consistent.sender_kept frames clear (apart channel).2 handling.sends, ?_⟩
    · have flow := handling.flow
      rw [last, Round.take_stream_number, ← Round.streams_take_succ found, ← queue] at flow
      exact flow
    · change ReceiverSide _ _ _ _ _ (traffic.ledger.receiving channel) _
      rw [handling.outstanding]
      change ReceiverSide _ (after channel.dest) _ _ _ _ _
      rw [at_dest]
      refine .completed found completes.completed ?_
      rw [shape, ← last]
      exact ⟨collected.counter, collected.buffer⟩
  case written =>
    intro inside changed
    by_contra outside
    refine changed (frames.here.heap inside fun covers => outside ?_)
    exact (Receiving.covers_congr (by rw [at_dest, shape])).mpr covers

end Handling

end Consistent

end Traffic

end Ucx

end DistributedJoin
