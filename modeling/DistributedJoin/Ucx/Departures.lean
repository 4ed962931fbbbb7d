import DistributedJoin.Ucx.QuietSteps

/-!
# Steps of senders

A call of `send` puts the header of a round on its channel, and `send_handler` the next batch.
What a sender has still to send gets shorter by the message that is on the way.
-/

namespace DistributedJoin

namespace Ucx

open Device

namespace Rank

/-- What posting the header of a send does. -/
theorem post_count_eq
    {rank ready : Rank}
    {count tag : Int}
    {dest custom : Nat}
    {request : Option Nat}
    {handle : Handle}
    (posted : rank.post_count count dest tag custom request = some (handle, ready)) :
    ∃ payload info allocated,
      (payload = .taken (encode 8 count) ∨
        payload = .pending (.counter (.malloced rank.malloced)) handle) ∧
      ready =
        { rank with
          counters := Function.update rank.counters (.malloced rank.malloced) count
          malloced := rank.malloced + 1
          info := info
          allocated := allocated
          outgoing := Function.update rank.outgoing dest
            (rank.outgoing dest ++ [⟨get_comm_tag tag rank.mpi_rank, payload⟩]) } := by
  cases request with
  | none =>
      obtain ⟨rfl, rfl⟩ := by simpa only [post_count, ucp_tag_send_nb, Option.bind_eq_bind,
        Option.bind_some, Option.some.injEq, Prod.mk.injEq] using posted
      have content : (rank.malloc_counter count).read (.counter (.malloced rank.malloced)) =
          encode 8 count := by
        simp [read, malloc_counter]
      exact ⟨_, _, _, .inl (congrArg Payload.taken content), rfl⟩
  | some index =>
      obtain ⟨sent, header, same⟩ := Option.bind_eq_some_iff.mp posted
      obtain ⟨rfl, rfl⟩ := by simpa only [Option.some.injEq, Prod.mk.injEq] using same
      obtain ⟨_, rfl⟩ := by simpa only [ucp_tag_send_nb, Option.ite_none_left_eq_some,
        Option.some.injEq] using header
      exact ⟨_, _, _, .inr rfl, rfl⟩

/-- A send has put its header on the way and has returned its handle. -/
structure SendBegins
    (n : Nat)
    (rank later : Rank)
    (handle : Handle)
    (buf count element_size : Int)
    (dest : Nat)
    (tag : Int) : Prop where
  inactive : handle ∉ rank.active n
  unreturned : handle ∉ rank.returned
  frame : Frame n
    { Footprint.only handle with counters := (· = .malloced rank.malloced) } rank later
  returned : later.returned = rank.returned ++ [handle]
  info : ∀ other, other ≠ handle → later.info other = rank.info other
  active : handle ∈ later.active n
  origin : (later.info handle).orig_info = .handle handle
  describes : (Traffic.begun rank handle buf count element_size).Describes
    ⟨rank.mpi_rank, dest, tag⟩ (later.info handle)
  loop : later.loop handle = none ∧ (later.info handle).ibatch = 0 ∨
    later.loop handle = some (.enter (later.per_batch (later.info handle))
      (later.total (later.info handle)) 0)
  counter : later.counters (.malloced rank.malloced) = count
  malloced : later.malloced = rank.malloced + 1
  pointers : later.pointers = rank.pointers
  heap : later.heap = rank.heap
  posted : later.posted = rank.posted
  due : later.due = rank.due
  sends : ∀ other loop, later.control = .sending other loop → other = handle
  receives : ∀ other outer, later.control ≠ .receiving other outer
  alive : later.control ≠ .crashed
  outgoing : ∃ payload,
    (payload = .taken (encode 8 count) ∨
      payload = .pending (.counter (.malloced rank.malloced)) handle) ∧
    later.outgoing = Function.update rank.outgoing dest
      (rank.outgoing dest ++ [⟨get_comm_tag tag rank.mpi_rank, payload⟩])

theorem Sound.send_begins
    {n : Nat}
    {carved : List Int}
    {rank later : Rank}
    (sound : rank.Sound n carved rank.control.outer)
    {buf count element_size tag : Int}
    {dest custom : Nat}
    {request : Option Nat}
    {handle : Handle}
    (destBound : dest < n)
    (sent : rank.send buf count element_size dest tag custom request =
      some (.returned handle, later)) :
    SendBegins n rank later handle buf count element_size dest tag := by
  obtain ⟨idle, free, found, ready, posted, cases⟩ := send_cases sent
  have header := sound.post_count free destBound posted
  obtain ⟨payload, info, allocated, kinds, same⟩ := post_count_eq posted
  rcases cases with ⟨_, threw⟩ |
    ⟨comm_buffer, rest, filled, control, queue, same_outcome, rfl, filled_eq, onward⟩
  · contradiction
  obtain rfl := Outcome.returned.inj same_outcome
  obtain ⟨inactive, unreturned, _⟩ := sound.fresh header.free
  have custom_allocated : filled.custom_allocated = request.isNone := by
    rw [filled_eq]
    exact header.custom_allocated
  have info_handle : (ready.fill handle filled rest control).info handle = filled :=
    Function.update_self _ _ _
  have info_other : ∀ other, other ≠ handle →
      (ready.fill handle filled rest control).info other = rank.info other :=
    fun other different =>
      (Function.update_of_ne different _ _).trans (header.info other different)
  have next : (ready.fill handle filled rest control).control = if request.isNone then
      .sending handle (.enter (ready.per_batch filled) (ready.total filled) 0)
      else .user := by
    change control = _
    rw [onward, custom_allocated, header.control, idle, filled_eq]
  have loop : ∀ other, (ready.fill handle filled rest control).loop other =
      if request.isNone = true ∧ handle = other then
        some (.enter (ready.per_batch filled) (ready.total filled) 0)
      else none := by
    intro other
    rw [Rank.loop, next]
    cases request with
    | none => simp
    | some index => simp
  have operations : ∀ operation ∈ rank.operations n,
      operation ∈ (ready.fill handle filled rest control).operations n := by
    intro operation member
    have change := header.operations
    change operation ∈ ready.operations n
    cases request with
    | none => exact change ▸ member
    | some index =>
        obtain ⟨cell, more⟩ := change
        exact more ▸ Multiset.mem_cons_of_mem member
  have running : rank.control.running = 0 := by rw [idle]; rfl
  have active : ∀ other ∈ rank.active n,
      other ∈ (ready.fill handle filled rest control).active n := by
    intro other member
    rcases active_cases member with ⟨place, inside⟩ | ⟨callback, inside, rfl⟩ | executed
    · exact mem_active_of_operation (operations _ inside)
    · exact mem_active_of_due (header.due ▸ inside)
    · rw [running] at executed
      exact absurd executed (Multiset.notMem_zero _)
  constructor
  case inactive => exact inactive
  case unreturned => exact unreturned
  case frame =>
    subst same
    exact {
      mpi_rank := rfl
      info := by
        rintro other (before | before) _
        · exact info_other other fun same => inactive (same ▸ before)
        · exact info_other other fun same => unreturned (same ▸ before)
      returned := fun other before _ => List.mem_append_left _ before
      active := fun other before _ => active other before
      pending := by
        intro other before _
        rw [Rank.pending, running, add_zero] at before
        exact Multiset.mem_add.mpr (.inl before)
      posted := fun _ before _ => before
      loop := by
        intro other before _
        have different : handle ≠ other := fun same => inactive (same ▸ before)
        have quiet : rank.loop other = none := by rw [Rank.loop, idle]
        rw [quiet, loop]
        exact if_neg fun same => different same.2
      heap := fun _ _ => rfl
      counters := fun cell different => Function.update_of_ne different _ _
      pointers := fun _ _ => rfl }
  case returned => exact congrArg (· ++ [handle]) header.returned
  case info => exact info_other
  case active =>
    have change := header.operations
    cases request with
    | none =>
        refine mem_active_of_running ?_
        rw [next]
        rfl
    | some index =>
        obtain ⟨cell, more⟩ := change
        have member : (Place.counter cell, handle) ∈
            (ready.fill handle filled rest control).operations n :=
          more ▸ Multiset.mem_cons_self _ _
        exact mem_active_of_operation member
  case origin =>
    rw [info_handle, filled_eq]
  case describes =>
    rw [info_handle, filled_eq]
    exact ⟨rfl, rfl, rfl, rfl, rfl, rfl⟩
  case loop =>
    rw [info_handle, loop]
    split
    · exact .inr rfl
    · exact .inl ⟨rfl, by rw [filled_eq]⟩
  case counter =>
    subst same
    exact Function.update_self _ _ _
  case malloced =>
    subst same
    rfl
  case pointers =>
    subst same
    rfl
  case heap =>
    subst same
    rfl
  case posted =>
    subst same
    rfl
  case due => exact header.due
  case sends =>
    intro other loop sends
    rw [next] at sends
    split at sends
    · exact (Control.sending.inj sends).1.symm
    · contradiction
  case receives =>
    intro other outer receives
    rw [next] at receives
    split at receives <;> contradiction
  case alive =>
    rw [next]
    split <;> exact Control.noConfusion
  case outgoing =>
    subst same
    exact ⟨payload, kinds, rfl⟩

/-- A batch is on the way, and a handle goes on with the next one. -/
structure SendAdvances
    (n : Nat)
    (rank later : Rank)
    (handle orig next : Handle)
    (loop : SendLoop)
    (comm_buffer : Int) : Prop where
  frame : Frame n
    { Footprint.only orig with
      addresses := (Region.mk comm_buffer (rank.batch_size handle loop)).Covers } rank later
  alike : ∀ other, other ∈ rank.active n ∨ other ∈ rank.returned →
    (rank.info other).Alike (later.info other)
  active : next ∈ later.active n
  origin : (later.info next).orig_info = (rank.info handle).orig_info
  describes : (rank.info handle).Alike (later.info next)
  advanced : later.loop next = some (loop.advance (rank.per_batch (rank.info handle))) ∨
    later.loop next = none ∧ (later.info next).ibatch = toInt (loop.ibatch + 1)
  stored : later.heap.read comm_buffer (rank.batch_size handle loop) = rank.batch_bytes handle loop
  counters : later.counters = rank.counters
  pointers : later.pointers = rank.pointers
  malloced : later.malloced = rank.malloced
  posted : later.posted = rank.posted
  due : later.due = rank.due
  sends : ∀ other loop, later.control = .sending other loop → other = next
  receives : ∀ other outer, later.control ≠ .receiving other outer
  alive : later.control ≠ .crashed
  outgoing : ∃ payload,
    (payload = .taken (rank.batch_bytes handle loop) ∨
      payload = .pending (.device comm_buffer (rank.batch_size handle loop)) next) ∧
    later.outgoing = Function.update rank.outgoing (rank.info handle).peer
      (rank.outgoing (rank.info handle).peer ++
        [⟨get_comm_tag (rank.info handle).user_tag rank.mpi_rank, payload⟩])

section Advances

variable {n : Nat} {carved : List Int} {rank : Rank} {handle orig : Handle} {loop : SendLoop}
  {comm_buffer : Int}

/-- The bytes of a batch are in the communication buffer once they have been copied. -/
theorem read_copy_batch :
    (rank.copy_batch handle loop comm_buffer).heap.read comm_buffer
      (rank.batch_size handle loop) = rank.batch_bytes handle loop := by
  have length : (rank.batch_bytes handle loop).length = rank.batch_size handle loop :=
    Heap.length_read _ _ _
  refine (Heap.read_write rank.heap comm_buffer length.symm.le).trans ?_
  exact List.take_of_length_le length.le

/-- Addresses outside a communication buffer keep their bytes. -/
theorem copy_batch_apply
    {address : Int}
    (outside : ¬ (Region.mk comm_buffer (rank.batch_size handle loop)).Covers address) :
    (rank.copy_batch handle loop comm_buffer).heap address = rank.heap address :=
  Heap.write_of_not_covers rank.heap fun covers =>
    outside (Region.covers_of_write covers (Heap.length_read _ _ _).le)

/-- `send_handler` goes on in its loop. -/
theorem advances_at_once
    (control : rank.control = .sending handle loop)
    (destBound : (rank.info handle).peer < n)
    (origin : (rank.info handle).orig_info = .handle orig) :
    SendAdvances n rank (rank.send_at_once handle loop comm_buffer) handle orig handle loop
      comm_buffer := by
  have running : rank.control.running = {handle} := by rw [control]; rfl
  have operations : (rank.send_at_once handle loop comm_buffer).operations n =
      rank.operations n :=
    operations_push_taken (rank.copy_batch handle loop comm_buffer) destBound _ _
  have pending : (rank.send_at_once handle loop comm_buffer).pending = rank.pending :=
    (pending_of_running rfl).trans (pending_of_running running).symm
  have active : (rank.send_at_once handle loop comm_buffer).active n = rank.active n :=
    active_congr operations pending
  constructor
  case frame =>
    exact {
      mpi_rank := rfl
      info := fun _ _ _ => rfl
      returned := fun _ member _ => member
      active := fun _ member _ => active ▸ member
      pending := fun _ member _ => pending ▸ member
      posted := fun _ member _ => member
      loop := by
        rintro other _ ⟨found, same, apart⟩
        have different : handle ≠ other := by
          rintro rfl
          exact apart (OrigInfo.handle.inj (same.symm.trans origin))
        rw [Rank.loop, Rank.loop, control]
        exact (if_neg different).trans (if_neg different).symm
      heap := fun address outside => copy_batch_apply outside
      counters := fun _ _ => rfl
      pointers := fun _ _ => rfl }
  case alike => exact fun _ _ => .of_eq rfl
  case active => exact active ▸ mem_active_of_running running
  case origin => rfl
  case describes => exact .of_eq rfl
  case advanced => exact .inl (if_pos rfl)
  case stored => exact read_copy_batch
  case counters => rfl
  case pointers => rfl
  case malloced => rfl
  case posted => rfl
  case due => rfl
  case sends => exact fun _ _ same => (Control.sending.inj same).1.symm
  case receives => exact fun _ _ same => Control.noConfusion same
  case alive => exact Control.noConfusion
  case outgoing => exact ⟨_, .inl rfl, rfl⟩

/-- `send_handler` is left, and a request goes on. -/
theorem Sound.advances_later
    {index : Nat}
    (sound : rank.Sound n carved rank.control.outer)
    (control : rank.control = .sending handle loop)
    (remaining : 0 < loop.nelements_remaining)
    (destBound : (rank.info handle).peer < n)
    (buffer : (rank.info handle).comm_buffer = some comm_buffer)
    (free : rank.allocated (.request index) = false)
    (origin : (rank.info handle).orig_info = .handle orig) :
    SendAdvances n rank ((rank.send_later handle loop comm_buffer index).free_internal handle)
      handle orig (.request index) loop comm_buffer := by
  have running : rank.control.running = {handle} := by rw [control]; rfl
  rw [control] at sound
  have passed := passed_on_send_later sound destBound remaining buffer free
  have ready := passed.sound running rfl sound
  obtain ⟨inactive, unreturned, _⟩ := sound.fresh free
  have apart : handle ≠ .request index := fun same =>
    inactive (same ▸ mem_active_of_running running)
  have info_other : ∀ other, other ≠ .request index →
      (rank.send_later handle loop comm_buffer index).info other = rank.info other :=
    fun other different => Function.update_of_ne different _ _
  have info_next : (rank.send_later handle loop comm_buffer index).info (.request index) =
      { rank.info handle with
        ibatch := toInt (loop.ibatch + 1)
        custom_allocated := false } :=
    Function.update_self _ _ _
  have operations : (rank.send_later handle loop comm_buffer index).operations n =
      (.device comm_buffer (rank.batch_size handle loop), .request index) ::ₘ rank.operations n :=
    operations_push_pending ((rank.copy_batch handle loop comm_buffer).allocate (.request index))
      destBound _ _ _
  have framed : Frame n
      { Footprint.only orig with
        addresses := (Region.mk comm_buffer (rank.batch_size handle loop)).Covers } rank
      (rank.send_later handle loop comm_buffer index) := {
    mpi_rank := rfl
    info := by
      rintro other (before | before) _
      · exact info_other other fun same => inactive (same ▸ before)
      · exact info_other other fun same => unreturned (same ▸ before)
    returned := fun _ member _ => member
    active := by
      rintro other member ⟨found, same, spared⟩
      rcases active_cases member with ⟨place, inside⟩ | ⟨callback, inside, rfl⟩ | executed
      · have more : (place, other) ∈ (rank.send_later handle loop comm_buffer index).operations n :=
          operations ▸ Multiset.mem_cons_of_mem inside
        exact mem_active_of_operation more
      · have more : callback ∈ (rank.send_later handle loop comm_buffer index).due := inside
        exact mem_active_of_due more
      · rw [running, Multiset.mem_singleton] at executed
        subst executed
        exact absurd (OrigInfo.handle.inj (same.symm.trans origin)) spared
    pending := by
      rintro other member ⟨found, same, spared⟩
      rw [pending_of_running running] at member
      rcases Multiset.mem_cons.mp member with rfl | before
      · exact absurd (OrigInfo.handle.inj (same.symm.trans origin)) spared
      · exact Multiset.mem_add.mpr (.inl before)
    posted := fun _ member _ => member
    loop := by
      rintro other _ ⟨found, same, spared⟩
      have different : handle ≠ other := by
        rintro rfl
        exact spared (OrigInfo.handle.inj (same.symm.trans origin))
      rw [Rank.loop, Rank.loop, control]
      exact (if_neg different).symm
    heap := fun address outside => copy_batch_apply outside
    counters := fun _ _ => rfl
    pointers := fun _ _ => rfl }
  have held : ∀ other ∈ rank.returned, (rank.info other).orig_info = .handle other :=
    fun other member => (sound.held other member).2.1
  have frame := framed.free_all held ready
  obtain ⟨info, allocated, same, alike, kept⟩ :=
    (rank.send_later handle loop comm_buffer index).free_all_eq [handle]
  have next : info (.request index) = { rank.info handle with
      ibatch := toInt (loop.ibatch + 1)
      custom_allocated := false } :=
    (kept _ (.inl fun member => apart (List.mem_singleton.mp member).symm)).trans info_next
  change (rank.send_later handle loop comm_buffer index).free_internal handle = _ at same
  change Frame n _ rank ((rank.send_later handle loop comm_buffer index).free_internal handle)
    at frame
  rw [same] at frame ⊢
  constructor
  case frame => exact frame
  case alike =>
    intro other used
    have before : (rank.send_later handle loop comm_buffer index).info other = rank.info other := by
      rcases used with active | returned
      · exact info_other other fun same => inactive (same ▸ active)
      · exact info_other other fun same => unreturned (same ▸ returned)
    exact (CommInfo.Alike.of_eq before).trans (alike other)
  case active =>
    have member : (.device comm_buffer (rank.batch_size handle loop), .request index) ∈
        (rank.send_later handle loop comm_buffer index).operations n :=
      operations ▸ Multiset.mem_cons_self _ _
    exact mem_active_of_operation member
  case origin =>
    change (info (.request index)).orig_info = _
    rw [next]
  case describes =>
    change (rank.info handle).Alike (info (.request index))
    rw [next]
    exact ⟨rfl, rfl, rfl, rfl, rfl, rfl, rfl⟩
  case advanced =>
    refine .inr ⟨rfl, ?_⟩
    change (info (.request index)).ibatch = _
    rw [next]
  case stored => exact read_copy_batch
  case counters => rfl
  case pointers => rfl
  case malloced => rfl
  case posted => rfl
  case due => rfl
  case sends => exact fun _ _ same => Control.noConfusion same
  case receives => exact fun _ _ same => Control.noConfusion same
  case alive => exact Control.noConfusion
  case outgoing => exact ⟨_, .inr rfl, rfl⟩

end Advances

end Rank

/-- The batch that a loop stands before is the next one of the round. -/
theorem Sending.GoesOn.batch
    {n : Nat}
    {comm_buffer_size : Int}
    {rank : Rank}
    {channel : Channel}
    {sending : Sending}
    {handle : Handle}
    {index : Nat}
    {loop : SendLoop}
    (goes_on : sending.GoesOn n comm_buffer_size rank channel handle index)
    (control : rank.control = .sending handle loop)
    (same : rank.comm_buffer_size = comm_buffer_size)
    (remaining : 0 < loop.nelements_remaining) :
    index < sending.round.number comm_buffer_size ∧
      rank.batch_size handle loop = (sending.round.batch comm_buffer_size index).length ∧
      rank.batch_bytes handle loop = sending.round.batch comm_buffer_size index ∧
      loop.Before (sending.round.per_batch comm_buffer_size) sending.round.count index := by
  have fits := goes_on.fits
  have stands := goes_on.stands
  have found : rank.loop handle = some loop := by
    rw [Rank.loop, control]
    exact if_pos rfl
  rw [found] at stands
  obtain ⟨position, left⟩ := stands
  obtain ⟨per_batch, total⟩ := goes_on.sizes same
  have left : loop.nelements_remaining =
      sending.round.count - sending.round.per_batch comm_buffer_size * index := by
    rcases left with left | stopped
    · exact left
    · omega
  have bound : index < sending.round.number comm_buffer_size :=
    (lt_batches_iff fits.per_batch_pos sending.round.count index).mpr (by omega)
  have size : rank.batch_size handle loop =
      (sending.round.batch comm_buffer_size index).length := by
    rw [Rank.batch_size, per_batch, left, goes_on.describes.element_size]
    exact fits.length_batch bound
  refine ⟨bound, size, ?_, position, .inl left⟩
  have start : (rank.info handle).send_buffer +
        loop.ibatch * rank.per_batch (rank.info handle) * (rank.info handle).element_size =
      sending.buf + sending.round.before comm_buffer_size index := by
    rw [goes_on.describes.send_buffer, position, per_batch, goes_on.describes.element_size,
      (fits.before_eq bound).1]
    ring
  rw [Rank.batch_bytes, start, size]
  exact fits.read_batch bound goes_on.stored

namespace Traffic

/-- The bytes of a send that begins fill the round. -/
theorem fits_begun
    {comm_buffer_size : Int}
    {rank : Rank}
    {handle : Handle}
    {buf count element_size : Int}
    (sized : (Extent.mk count element_size).Sized comm_buffer_size)
    (memory : comm_buffer_size ≤ 2 ^ 57)
    (countable : (Extent.mk count element_size).number comm_buffer_size < 2 ^ 31) :
    (begun rank handle buf count element_size).round.Fits comm_buffer_size where
  element_size_pos := sized.element_size_pos
  element_size_le := sized.element_size_le
  count_nonneg := sized.count_nonneg
  count_le := sized.count_le
  comm_buffer_size_le := memory
  countable := countable
  length := by
    have positive := sized.element_size_pos
    have nonneg : 0 ≤ count * element_size :=
      Int.mul_nonneg sized.count_nonneg (by dsimp only at positive; omega)
    change ((rank.heap.read buf (count * element_size).toNat).length : Int) = _
    rw [Heap.length_read, Int.toNat_of_nonneg nonneg]
    rfl

namespace Consistent

variable {n : Nat} {comm_buffer_size : Int} {buffers : Nat → List Int} {agreed : Agreement}
  {traffic : Traffic} (consistent : traffic.Consistent n comm_buffer_size buffers agreed)
include consistent

/-- The rounds on the channels fit when one that fits is sent. -/
theorem fits_sent
    {channel : Channel}
    {sending : Sending}
    (fits : sending.round.Fits comm_buffer_size)
    (other : Channel) :
    ∀ round ∈ (traffic.ledger.send channel sending).sent other, round.Fits comm_buffer_size := by
  intro round member
  by_cases here : other = channel
  · subst here
    rw [Ledger.sent_send] at member
    rcases List.mem_append.mp member with before | last
    · exact consistent.fits other round before
    · rw [List.mem_singleton.mp last]
      exact fits
  · rw [Ledger.sent_send_of_ne here] at member
    exact consistent.fits other round member

/-- The rounds on the channels are as agreed when one as agreed is sent. -/
theorem agree_sent
    {channel : Channel}
    {sending : Sending}
    (agreement : agreed channel (traffic.ledger.sent channel).length = sending.round.toExtent)
    (other : Channel)
    (index : Nat)
    (round : Round)
    (found : ((traffic.ledger.send channel sending).sent other)[index]? = some round) :
    agreed other index = round.toExtent := by
  by_cases here : other = channel
  · subst here
    rw [Ledger.sent_send] at found
    by_cases before : index < (traffic.ledger.sent other).length
    · rw [List.getElem?_append_left before] at found
      exact consistent.agree other index round found
    · rw [List.getElem?_append_right (not_lt.mp before)] at found
      obtain ⟨position, same⟩ := List.getElem?_eq_some_iff.mp found
      have last : index = (traffic.ledger.sent other).length := by
        rw [List.length_singleton] at position
        omega
      subst last
      obtain rfl : sending.round = round := by simpa using same
      exact agreement
  · rw [Ledger.sent_send_of_ne here] at found
    exact consistent.agree other index round found

section Begins

variable
  {self dest : Nat}
  {buf count element_size tag : Int}
  {handle : Handle}
  {later : Rank}
  (begins : Rank.SendBegins n (traffic.world self) later handle buf count element_size dest tag)

include begins

theorem describes_begun :
    (begun (traffic.world self) handle buf count element_size).Describes ⟨self, dest, tag⟩
      (later.info handle) := by
  have described := begins.describes
  rwa [consistent.mpi_rank self] at described

/-- The handle of the send belongs to no operation of the rank. -/
theorem apart_begun (other : Channel) :
    (∀ sending, traffic.ledger.sending other = some sending → other.source = self →
      sending.handle ≠ handle) ∧
    ∀ receiving, traffic.ledger.receiving other = some receiving → other.dest = self →
      receiving.handle ≠ handle := by
  constructor
  · intro sending outstanding source same
    have returned := (consistent.booked.sending other sending outstanding).returned
    rw [source, same] at returned
    exact begins.unreturned returned
  · intro receiving outstanding dest same
    have returned := (consistent.booked.receiving other receiving outstanding).returned
    rw [dest, same] at returned
    exact begins.unreturned returned

/-- The variable for the number of elements is a new one. -/
theorem clear_begun :
    traffic.Clear n comm_buffer_size agreed self
      { Footprint.only handle with counters := (· = .malloced (traffic.world self).malloced) } := by
  refine consistent.clear_of (fun _ => False.elim) ?_ ?_
  · rintro other found rfl outstanding _ same
    obtain ⟨index, bound, counter⟩ :=
      (consistent.booked.sending other found outstanding).counter
    rw [← Cell.malloced.inj (counter.symm.trans same)] at bound
    exact absurd bound (Nat.lt_irrefl _)
  · rintro other found rfl outstanding _
    refine ⟨fun same => ?_, id⟩
    have bound := (consistent.booked.receiving other found outstanding).counter _ same
    exact absurd bound (Nat.lt_irrefl _)

/-- No message that is on the way belongs to the send. -/
theorem spares_begun :
    traffic.SparesMessages self
      { Footprint.only handle with counters := (· = .malloced (traffic.world self).malloced) } := by
  have sound := consistent.sound self
  intro other message member place request pending
  have active := Rank.mem_active_of_operation
    (Rank.operation_of_outgoing sound.within member pending)
  obtain ⟨orig, returned, origin, _⟩ := (sound.engaged request active).origin
  exact ⟨orig, origin, fun same => begins.unreturned (same ▸ returned)⟩

/-- The header of the send is a message of its channel. -/
theorem located_begun
    (valid : Channel.Valid n ⟨self, dest, tag⟩)
    (rank : Nat) :
    (traffic.world.set self later rank).Located n rank := by
  let sending := begun (traffic.world self) handle buf count element_size
  have describes := consistent.describes_begun begins
  obtain ⟨payload, kinds, outgoing⟩ := begins.outgoing
  refine consistent.located_set ((consistent.located self).of_alike (consistent.sound self).within
    ?_ ?_ ?_ ?_ ?_ ?_ ?_ begins.alive) rank
  · exact fun other active =>
      .of_eq (begins.info other fun same => begins.inactive (same ▸ active))
  · intro other message member
    rw [outgoing] at member
    by_cases there : other = dest
    · subst there
      rw [Function.update_self] at member
      rcases List.mem_append.mp member with before | last
      · exact .inl before
      · obtain rfl := List.mem_singleton.mp last
        have waits : ∀ place request, payload = .pending place request →
            place = .counter sending.counter ∧ request = handle := by
          rintro place request rfl
          obtain ⟨rfl, rfl⟩ := Payload.pending.inj (kinds.resolve_left Payload.noConfusion)
          exact ⟨rfl, rfl⟩
        refine .inr ⟨⟨⟨self, other, tag⟩, valid, rfl, rfl, ?_⟩, ?_, ?_, ?_, ?_⟩
        · rw [consistent.mpi_rank self]
          rfl
        · intro place request pending
          rw [(waits place request pending).2]
          exact describes.peer
        · intro place request pending
          rw [(waits place request pending).2, describes.user_tag, consistent.mpi_rank self]
        · intro place request pending
          rw [(waits place request pending).2]
          exact describes.types
        · intro cell request pending
          obtain ⟨same, rfl⟩ := waits _ request pending
          exact describes.count.trans (Place.counter.inj same).symm
    · rw [Function.update_of_ne there] at member
      exact .inl member
  · exact fun receive member => .inl (begins.posted ▸ member)
  · exact fun other member => .inl (begins.due ▸ member)
  · exact fun other member => .inl (begins.due ▸ member)
  · intro other loop sends
    rw [begins.sends other loop sends]
    exact describes.types
  · exact fun other outer receives => absurd receives (begins.receives other outer)

/-- The send is booked for its channel. -/
theorem booked_begun
    (valid : Channel.Valid n ⟨self, dest, tag⟩)
    (vacant : traffic.ledger.sending ⟨self, dest, tag⟩ = none)
    (region : ∀ address, (Region.mk buf (Extent.mk count element_size).size).Covers address →
      (∀ buffer ∈ buffers self, ¬ InBuffer comm_buffer_size buffer address) ∧
        ¬ traffic.Writes agreed self address) :
    Booked n comm_buffer_size buffers agreed
      ⟨traffic.world.set self later, traffic.ledger.send ⟨self, dest, tag⟩
        (begun (traffic.world self) handle buf count element_size)⟩ := by
  let sending := begun (traffic.world self) handle buf count element_size
  have size : sending.region = ⟨buf, (Extent.mk count element_size).size⟩ :=
    congrArg (Region.mk buf) (Heap.length_read _ _ _)
  refine consistent.booked.send ?_ valid vacant ?_ rfl ?_ ?_ fun address covers =>
    region address (size ▸ covers)
  · exact {
      returned := by
        rw [World.set_self]
        exact begins.returned
      info := by
        intro other member
        rw [World.set_self]
        exact begins.info other fun same => begins.unreturned (same ▸ member)
      malloced := by
        rw [World.set_self, begins.malloced]
        exact Nat.le_succ _
      others := fun other different => ⟨_, World.set_of_ne _ different _⟩ }
  · change sending.Describes _ ((traffic.world.set self later self).info handle)
    rw [World.set_self]
    exact consistent.describes_begun begins
  · change _ < (traffic.world.set self later self).malloced
    rw [World.set_self, begins.malloced]
    exact Nat.lt_succ_self _
  · change (traffic.world.set self later self).pointers = _
    rw [World.set_self, begins.pointers]

/-- The whole round of the send, except its header, is still to be sent. -/
theorem sender_begun
    (fits : (begun (traffic.world self) handle buf count element_size).round.Fits
      comm_buffer_size)
    (same_size : later.comm_buffer_size = comm_buffer_size) :
    SenderSide n comm_buffer_size later ⟨self, dest, tag⟩
      (some (begun (traffic.world self) handle buf count element_size))
      ((begun (traffic.world self) handle buf count element_size).round.rest
        comm_buffer_size 0) := by
  let sending := begun (traffic.world self) handle buf count element_size
  have describes := consistent.describes_begun begins
  refine .active {
    active := begins.active
    origin := begins.origin
    describes := describes
    fits := fits
    bound := Nat.zero_le _
    stands := ?_
    counter := begins.counter
    stored := ?_ }
  · rcases begins.loop with ⟨none, ibatch⟩ | loop
    · rw [none]
      exact ibatch
    · have per_batch : later.per_batch (later.info handle) =
          sending.round.per_batch comm_buffer_size := by
        rw [Rank.per_batch, describes.element_size, same_size]
        rfl
      have total : later.total (later.info handle) = sending.round.count := by
        rw [Rank.total, describes.count]
        exact begins.counter
      rw [loop, per_batch, total]
      exact SendLoop.before_enter fits.addressable fits.per_batch_pos (Nat.zero_le _)
  · rw [begins.heap]
    exact congrArg ((traffic.world self).heap.read buf) (Heap.length_read _ _ _)

/-- The header of the send is the last message on its channel. -/
theorem flows_begun
    (ranks : n ≤ 2 ^ 31)
    (valid : Channel.Valid n ⟨self, dest, tag⟩)
    (vacant : traffic.ledger.sending ⟨self, dest, tag⟩ = none)
    (fits : (begun (traffic.world self) handle buf count element_size).round.Fits
      comm_buffer_size)
    (same_size : later.comm_buffer_size = comm_buffer_size)
    (channel : Channel)
    (channelValid : channel.Valid n) :
    Flows n comm_buffer_size
      ⟨traffic.world.set self later, traffic.ledger.send ⟨self, dest, tag⟩
        (begun (traffic.world self) handle buf count element_size)⟩ channel := by
  let sending := begun (traffic.world self) handle buf count element_size
  obtain ⟨payload, kinds, outgoing⟩ := begins.outgoing
  have clear := consistent.clear_begun begins
  have frames : World.Frames n self _ traffic.world (traffic.world.set self later) :=
    .of_set begins.frame
  have tagged : get_comm_tag tag (traffic.world self).mpi_rank =
      Channel.comm_tag ⟨self, dest, tag⟩ := by
    rw [consistent.mpi_rank self]
    rfl
  have set_outgoing : (traffic.world.set self later self).outgoing =
      Function.update (traffic.world self).outgoing dest
        ((traffic.world self).outgoing dest ++
          [⟨get_comm_tag tag (traffic.world self).mpi_rank, payload⟩]) := by
    rw [World.set_self, outgoing]
  obtain ⟨pushed, others⟩ := consistent.queue_push frames clear (consistent.spares_begun begins)
    ranks valid tagged rfl set_outgoing fun other different => World.set_of_ne _ different _
  refine consistent.flows_kept frames clear (· = ⟨self, dest, tag⟩)
    (fun other _ => consistent.apart_begun begins other) ?_ others ?_ channel channelValid
  · exact fun other different => ⟨Ledger.sent_send_of_ne different _,
      Ledger.sending_send_of_ne different _, rfl, rfl⟩
  · rintro other _ rfl
    obtain ⟨taken, unsent, flow, sends, receives⟩ := consistent.flows ⟨self, dest, tag⟩ valid
    rw [vacant] at sends
    cases sends
    have content : (traffic.world.set self later self).content
        ⟨get_comm_tag tag (traffic.world self).mpi_rank, payload⟩ = sending.round.header := by
      rw [World.set_self]
      rcases kinds with rfl | rfl
      · rfl
      · exact congrArg (encode 8) begins.counter
    refine ⟨taken, sending.round.rest comm_buffer_size 0, ?_, ?_, ?_⟩
    · rw [pushed, content, Ledger.sent_send, Round.streams_append, Round.streams_single]
      simp only [List.append_nil] at flow
      rw [← flow, Round.stream, List.append_assoc, List.append_assoc]
      rfl
    · change SenderSide n comm_buffer_size (traffic.world.set self later self) _
        (Ledger.sending _ _) _
      rw [Ledger.sending_send, World.set_self]
      exact consistent.sender_begun begins fits same_size
    · change ReceiverSide comm_buffer_size (traffic.world.set self later dest) _
        (Ledger.sent _ _) (traffic.ledger.received _) (traffic.ledger.receiving _) taken
      rw [Ledger.sent_send]
      exact (consistent.receiver_kept frames clear
        (consistent.apart_begun begins ⟨self, dest, tag⟩).2 receives).append _

end Begins

/-- A send begins. -/
theorem send_call
    {self dest custom : Nat}
    {buf count element_size tag : Int}
    {request : Option Nat}
    {handle : Handle}
    {later : Rank}
    (ranks : n ≤ 2 ^ 31)
    (memory : comm_buffer_size ≤ 2 ^ 57)
    (obeys : traffic.Obeys n comm_buffer_size buffers agreed
      (.send self buf count element_size dest tag custom request))
    (countable : (Extent.mk count element_size).number comm_buffer_size < 2 ^ 31)
    (sent : (traffic.world self).send buf count element_size dest tag custom request =
      some (.returned handle, later)) :
    Consistent n comm_buffer_size buffers agreed
      ⟨traffic.world.set self later, traffic.ledger.send ⟨self, dest, tag⟩
        (begun (traffic.world self) handle buf count element_size)⟩ := by
  obtain ⟨valid, vacant, agreement, sized, region⟩ := obeys
  have fits : (begun (traffic.world self) handle buf count element_size).round.Fits
      comm_buffer_size := fits_begun sized memory countable
  have begins := (consistent.sound self).send_begins valid.2.1 sent
  have frames : World.Frames n self _ traffic.world (traffic.world.set self later) :=
    .of_set begins.frame
  obtain ⟨returned, record, kept⟩ : ∃ returned record, World.Keeps n buffers traffic.world
      (traffic.world.set self later) returned record := by
    rcases (consistent.sound self).send valid.2.1 sent with ⟨_, threw⟩ | ⟨found, same, kept⟩
    · contradiction
    · exact ⟨_, _, .of_set consistent.sound kept⟩
  have same_size : later.comm_buffer_size = comm_buffer_size := by
    have same := (kept self).comm_buffer_size
    rw [World.set_self] at same
    exact same.trans (consistent.comm_buffer_size self)
  exact consistent.of_keeps frames kept (consistent.located_begun begins valid)
    (consistent.booked_begun begins valid vacant region) (consistent.fits_sent fits)
    (consistent.agree_sent agreement)
    (consistent.flows_begun begins ranks valid vacant fits same_size)

/-- `send_handler` sends a batch. -/
theorem send_batch
    {channel : Channel}
    {sending : Sending}
    {handle : Handle}
    {index : Nat}
    {loop : SendLoop}
    {request : Option Nat}
    {later : Rank}
    {taken : List (List Byte)}
    (ranks : n ≤ 2 ^ 31)
    (control : (traffic.world channel.source).control = .sending handle loop)
    (valid : channel.Valid n)
    (outstanding : traffic.ledger.sending channel = some sending)
    (goes_on : sending.GoesOn n comm_buffer_size (traffic.world channel.source) channel handle
      index)
    (flow : taken ++ (traffic.world.queue channel ++ sending.round.rest comm_buffer_size index) =
      Round.streams comm_buffer_size (traffic.ledger.sent channel))
    (receives : ReceiverSide comm_buffer_size (traffic.world channel.dest) channel
      (traffic.ledger.sent channel) (traffic.ledger.received channel)
      (traffic.ledger.receiving channel) taken)
    (remaining : 0 < loop.nelements_remaining)
    (sent : (traffic.world channel.source).send_handler handle loop request = some later) :
    Consistent n comm_buffer_size buffers agreed
      ⟨traffic.world.set channel.source later, traffic.ledger⟩ := by
  have sound := consistent.sound channel.source
  have located := consistent.located channel.source
  have kept := (World.Keeps.of_set consistent.sound (sound.send_handler control sent)).quiet
  have running : (traffic.world channel.source).control.running = {handle} := by
    rw [control]
    rfl
  have destBound : ((traffic.world channel.source).info handle).peer < n := by
    rw [goes_on.describes.peer]
    exact valid.2.1
  obtain ⟨next, comm_buffer, buffer, advances⟩ : ∃ next comm_buffer,
      ((traffic.world channel.source).info handle).comm_buffer = some comm_buffer ∧
        Rank.SendAdvances n (traffic.world channel.source) later handle sending.handle next loop
          comm_buffer := by
    obtain ⟨comm_buffer, buffer, ⟨rfl, rfl⟩ | ⟨index, rfl, free, rfl⟩⟩ :=
      Rank.send_handler_eq remaining sent
    · exact ⟨_, _, buffer, Rank.advances_at_once control destBound goes_on.origin⟩
    · exact ⟨_, _, buffer,
        sound.advances_later control remaining destBound buffer free goes_on.origin⟩
  obtain ⟨bound, size, bytes, before⟩ :=
    goes_on.batch control (consistent.comm_buffer_size channel.source) remaining
  obtain ⟨payload, kinds, outgoing⟩ := advances.outgoing
  have fits := goes_on.fits
  have describes := goes_on.describes.of_alike advances.describes
  let footprint : Footprint :=
    { Footprint.only sending.handle with
      addresses :=
        (Region.mk comm_buffer ((traffic.world channel.source).batch_size handle loop)).Covers }
  have frames : World.Frames n channel.source footprint traffic.world
      (traffic.world.set channel.source later) := .of_set advances.frame
  -- Only the communication buffer of the transfer is written to.
  have inside : ∀ address, footprint.addresses address →
      InBuffer comm_buffer_size comm_buffer address := by
    rintro address ⟨lower, upper⟩
    have small := fits.batch_fits bound
    have nonneg := fits.comm_buffer_size_nonneg
    dsimp only at lower upper
    rw [size] at upper
    exact ⟨lower, by omega⟩
  have clear : traffic.Clear n comm_buffer_size agreed channel.source footprint :=
    consistent.clear_of
      (fun address written => .buffer goes_on.active goes_on.origin rfl buffer
        (inside address written))
      (fun _ _ _ _ _ => id) fun _ _ _ _ _ => ⟨id, id⟩
  have quiet : traffic.SparesMessages channel.source footprint := by
    intro dest message listed place request pending
    have operation := Rank.operation_of_outgoing sound.within listed pending
    have active := Rank.mem_active_of_operation operation
    obtain ⟨orig, _, origin, _⟩ := (sound.engaged request active).origin
    refine ⟨orig, origin, ?_⟩
    rintro rfl
    obtain rfl := sound.active_inj goes_on.active active (goes_on.origin.trans origin.symm)
    refine sound.not_pending operation ?_
    rw [Rank.pending_of_running running]
    exact Multiset.mem_cons_self _ _
  have tagged : get_comm_tag ((traffic.world channel.source).info handle).user_tag
      (traffic.world channel.source).mpi_rank = channel.comm_tag := by
    rw [goes_on.describes.user_tag, consistent.mpi_rank channel.source]
    rfl
  have content : later.content ⟨get_comm_tag
        ((traffic.world channel.source).info handle).user_tag
        (traffic.world channel.source).mpi_rank, payload⟩ =
      sending.round.batch comm_buffer_size index := by
    rcases kinds with rfl | rfl
    · exact bytes
    · exact advances.stored.trans bytes
  refine consistent.of_keeps frames kept ?located ?booked consistent.fits consistent.agree ?flows
  case located =>
    refine consistent.located_set (located.of_alike sound.within
      ?alike ?outgoing ?posted ?sends ?receives ?sending ?receiving
      advances.alive)
    case alike =>
      exact fun other active => advances.alike other (.inl active)
    case outgoing =>
      intro other message present
      rw [outgoing] at present
      by_cases there : other = ((traffic.world channel.source).info handle).peer
      · subst there
        rw [Function.update_self] at present
        rcases List.mem_append.mp present with earlier | last
        · exact .inl earlier
        · obtain rfl := List.mem_singleton.mp last
          have waits : ∀ place request, payload = .pending place request →
              (∀ cell, place ≠ .counter cell) ∧ request = next := by
            rintro place request rfl
            obtain ⟨rfl, rfl⟩ := Payload.pending.inj (kinds.resolve_left Payload.noConfusion)
            exact ⟨fun _ => Place.noConfusion, rfl⟩
          refine .inr ⟨⟨channel, valid, rfl, goes_on.describes.peer.symm, tagged⟩, ?_, ?_, ?_, ?_⟩
          · intro place request pending
            rw [(waits place request pending).2]
            exact advances.describes.peer
          · intro place request pending
            rw [(waits place request pending).2, advances.describes.user_tag,
              consistent.mpi_rank channel.source]
          · intro place request pending
            rw [(waits place request pending).2]
            exact describes.types
          · intro cell request pending
            exact absurd rfl ((waits _ request pending).1 cell)
      · rw [Function.update_of_ne there] at present
        exact .inl present
    case posted =>
      exact fun receive present => .inl (advances.posted ▸ present)
    case sends =>
      exact fun other present => .inl (advances.due ▸ present)
    case receives =>
      exact fun other present => .inl (advances.due ▸ present)
    case sending =>
      intro other running_loop sends
      rw [advances.sends other running_loop sends]
      exact describes.types
    case receiving =>
      exact fun other outer receives => absurd receives (advances.receives other outer)
  case booked =>
    refine consistent.booked.of_frames frames (kept channel.source).returned ?_ ?_ ?_
    · intro other returned
      rw [World.set_self]
      exact advances.alike other (.inr returned)
    · rw [World.set_self, advances.malloced]
    · rw [World.set_self, advances.pointers]
  case flows =>
    have set_outgoing : (traffic.world.set channel.source later channel.source).outgoing =
        Function.update (traffic.world channel.source).outgoing channel.dest
          ((traffic.world channel.source).outgoing channel.dest ++
            [⟨get_comm_tag ((traffic.world channel.source).info handle).user_tag
              (traffic.world channel.source).mpi_rank, payload⟩]) := by
      rw [World.set_self, outgoing, goes_on.describes.peer]
    obtain ⟨pushed, others⟩ := consistent.queue_push frames clear quiet ranks valid tagged rfl
      set_outgoing fun other different => World.set_of_ne _ different _
    have apart := consistent.booked.apart_of_sending outstanding
    refine consistent.flows_kept frames clear (· = channel)
      (fun other different => ⟨(apart other).1 different, (apart other).2⟩)
      (fun _ _ => ⟨rfl, rfl, rfl, rfl⟩) others ?_
    rintro other _ rfl
    refine ⟨taken, sending.round.rest comm_buffer_size (index + 1), ?_, ?_,
      consistent.receiver_kept frames clear (apart other).2 receives⟩
    · rw [pushed, World.set_self, content]
      rw [Round.rest_of_lt bound] at flow
      rw [List.append_assoc]
      exact flow
    · change SenderSide n comm_buffer_size (traffic.world.set other.source later other.source)
        other (traffic.ledger.sending other) _
      rw [outstanding, World.set_self]
      exact .active {
        active := advances.active
        origin := advances.origin.trans goes_on.origin
        describes := describes
        fits := fits
        bound := bound
        stands := by
          obtain ⟨per_batch, _⟩ := goes_on.sizes (consistent.comm_buffer_size other.source)
          rcases advances.advanced with advanced | ⟨ended, ibatch⟩
          · rw [advanced, per_batch]
            exact before.next fits.addressable fits.per_batch_pos fits.countable bound true
          · rw [ended, ibatch, before.1]
            exact toInt_succ_eq (Nat.lt_of_le_of_lt bound fits.countable)
        counter := by
          rw [advances.counters]
          exact goes_on.counter
        stored := by
          refine (Heap.read_congr fun address covers => ?_).trans goes_on.stored
          refine advances.frame.heap address fun written => ?_
          exact (consistent.booked.reads _ address
            ⟨other, sending, rfl, outstanding, covers⟩).1 comm_buffer
              (consistent.comm_buffer_mem goes_on.active buffer) (inside address written) }

end Consistent

end Traffic

end Ucx

end DistributedJoin
