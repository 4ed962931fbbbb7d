import DistributedJoin.Ucx.Receiving

/-!
# Callbacks and the buffers

A callback takes over the transfer of its handle. It passes the transfer on to the request
of the next batch, or completes the handle that has been returned, and then frees handles
that are not needed any more.
-/

namespace DistributedJoin

namespace Ucx

open Device

/-- The information of a receive that waits for the next batch. -/
def CommInfo.next (info : CommInfo) : CommInfo := { info with ibatch := toInt (info.ibatch + 1) }

namespace Rank

variable {n : Nat} {carved : List Int} {spare : List Handle} {rank after : Rank}

section Free

variable (rank) (handle : Handle) (handles : List Handle)

@[simp] theorem free_internal_control : (rank.free_internal handle).control = rank.control := by
  unfold free_internal
  split <;> rfl

@[simp] theorem free_internal_returned :
    (rank.free_internal handle).returned = rank.returned := by
  unfold free_internal
  split <;> rfl

@[simp] theorem free_internal_comm_buffer_size :
    (rank.free_internal handle).comm_buffer_size = rank.comm_buffer_size := by
  unfold free_internal
  split <;> rfl

@[simp] theorem free_all_control :
    (handles.foldl free_internal rank).control = rank.control := by
  induction handles generalizing rank with
  | nil => rfl
  | cons handle handles inductionHypothesis =>
      exact (inductionHypothesis _).trans (rank.free_internal_control handle)

@[simp] theorem free_all_returned :
    (handles.foldl free_internal rank).returned = rank.returned := by
  induction handles generalizing rank with
  | nil => rfl
  | cons handle handles inductionHypothesis =>
      exact (inductionHypothesis _).trans (rank.free_internal_returned handle)

@[simp] theorem free_all_comm_buffer_size :
    (handles.foldl free_internal rank).comm_buffer_size = rank.comm_buffer_size := by
  induction handles generalizing rank with
  | nil => rfl
  | cons handle handles inductionHypothesis =>
      exact (inductionHypothesis _).trans (rank.free_internal_comm_buffer_size handle)

/-- Freeing a handle does not depend on what the rank is executing. -/
theorem free_internal_leave (control : Control) :
    { rank.free_internal handle with control := control } =
      Rank.free_internal { rank with control := control } handle := by
  unfold free_internal
  split <;> rfl

end Free

/-- What goes on apart from the callback that is executed. -/
theorem active_erase
    {handle : Handle}
    (running : rank.control.running = {handle}) :
    (rank.active n).erase handle =
      (rank.operations n).map Prod.snd + (rank.due.map Callback.handle : List Handle) := by
  rw [active, running, add_comm, Multiset.singleton_add, Multiset.erase_cons_head]

/-- The handle that has been returned for a transfer is marked as completed. -/
theorem complete_eq
    {handle orig : Handle}
    (origin : (rank.info handle).orig_info = .handle orig) :
    rank.complete handle =
      rank.setInfo orig { rank.info orig with completed := true } := by
  unfold complete
  rw [origin]

/-- Marking a handle as completed does not depend on what the rank is executing. -/
theorem complete_leave
    {handle orig : Handle}
    (origin : (rank.info handle).orig_info = .handle orig) :
    { rank.complete handle with control := .user } =
      Rank.complete { rank with control := .user } handle := by
  have same : Rank.complete { rank with control := .user } handle =
      Rank.setInfo { rank with control := .user } orig
        { rank.info orig with completed := true } := complete_eq origin
  rw [complete_eq origin, same]
  rfl

/-- The operation that a callback is executed for is pending until the callback goes on. -/
theorem pending_of_running
    {handle : Handle}
    (running : rank.control.running = {handle}) :
    rank.pending = handle ::ₘ (rank.due.map Callback.handle : List Handle) := by
  rw [pending, running, add_comm, Multiset.singleton_add]

/-- The callback of the last batch marks the handle as completed. -/
theorem Sound.complete
    {handle : Handle}
    (sound : rank.Sound n carved spare)
    (running : rank.control.running = {handle}) :
    ∃ orig info, Rank.complete { rank with control := .user } handle =
        Rank.setInfo { rank with control := .user } orig info ∧
      (∀ other, ((Rank.setInfo { rank with control := .user } orig info).info other).orig_info =
        (rank.info other).orig_info) ∧
      (Rank.setInfo { rank with control := .user } orig info).Sound n carved (handle :: spare) := by
  have active := mem_active_of_running (n := n) running
  obtain ⟨orig, _, origin, _⟩ := (sound.engaged handle active).origin
  refine ⟨orig, _, complete_eq origin, fun other => ?_,
    sound.finish running origin rfl rfl rfl rfl rfl ?_ (fun _ member => member) sound.within⟩
  · by_cases same : other = orig
    · simp [setInfo, same]
    · simp [setInfo, same]
  · rw [active_erase running]
    exact add_zero _

/-- Handles whose callbacks have gone on are requests, unless they have been returned. -/
theorem Sound.spare_request
    {handle : Handle}
    (sound : rank.Sound n carved spare)
    (member : handle ∈ spare)
    (internal : (rank.info handle).orig_info ≠ .handle handle) :
    ∃ index, handle = .request index := by
  cases handle with
  | request index => exact ⟨index, rfl⟩
  | custom index =>
      have used := (sound.spare_allocated _ member).1
      exact absurd (sound.held _ (sound.customs index used).1).2.1 internal

/-- A callback is left: the handles that are not needed any more are freed. -/
theorem Keeps.leave
    {ready : Rank}
    {handles : List Handle}
    {record : Record}
    (sound : ready.Sound n carved handles)
    (idle : ready.control = .user)
    (comm_buffer_size : ready.comm_buffer_size = rank.comm_buffer_size)
    (returned : ready.returned = rank.returned)
    (balanced : Balanced rank ready record)
    (origins : ∀ handle ∈ handles, (ready.info handle).orig_info = (rank.info handle).orig_info) :
    rank.Keeps n carved (handles.foldl free_internal ready) rank.returned
      (record ++ rank.frees_internal handles) where
  sound := by
    rw [free_all_control, idle]
    exact sound.free_all
  comm_buffer_size := (free_all_comm_buffer_size ready handles).trans comm_buffer_size
  returned := (free_all_returned ready handles).trans returned
  balanced := by
    rw [← frees_internal_congr origins]
    exact balanced.append (.free_all sound.spare_distinct
      (fun handle member => (sound.spare_allocated handle member).1)
      fun handle member => sound.spare_request member)

/-- The transfer of a handle has been passed on to a request that has been free, for which an
operation has been posted that uses the buffer of the handle. -/
structure PassedOn
    (n : Nat)
    (before after : Rank)
    (handle : Handle)
    (index : Nat)
    (inside : Option Nat) : Prop where
  free : before.allocated (.request index) = false
  buffer_cache : after.buffer_cache = before.buffer_cache
  comm_buffer_size : after.comm_buffer_size = before.comm_buffer_size
  returned : after.returned = before.returned
  due : after.due = before.due
  allocated : after.allocated = Function.update before.allocated (.request index) true
  info : ∀ other, other ≠ .request index → (before.info other).Keeps (after.info other)
  comm : (after.info (.request index)).comm = (before.info handle).comm
  orig_info : (after.info (.request index)).orig_info = (before.info handle).orig_info
  comm_buffer : (after.info (.request index)).comm_buffer = (before.info handle).comm_buffer
  custom_allocated : (after.info (.request index)).custom_allocated = false
  peer : (after.info (.request index)).peer = (before.info handle).peer
  operations : ∃ start size, (before.info handle).comm_buffer = some start ∧
    size ≤ before.comm_buffer_size.toNat ∧ after.operations n =
      if inside = none then (.device start size, .request index) ::ₘ before.operations n
      else before.operations n
  within : ∀ dest, n ≤ dest → after.outgoing dest = []

namespace PassedOn

variable {handle : Handle} {index : Nat} {inside : Option Nat}
  (passed : PassedOn n rank after handle index inside)
  (running : rank.control.running = {handle})
  (onward : after.control.running = if inside = none then 0 else {.request index})
include passed running onward

/-- The request goes on instead of the handle. -/
theorem active : after.active n = .request index ::ₘ (rank.active n).erase handle := by
  obtain ⟨start, size, _, _, operations⟩ := passed.operations
  rw [active_erase running, Rank.active, passed.due, onward, operations]
  split
  · rw [Multiset.map_cons, Multiset.cons_add, add_zero]
  · rw [add_comm, Multiset.singleton_add]

/-- The handle that has passed on its transfer is spare. -/
theorem sound (sound : rank.Sound n carved spare) : after.Sound n carved (handle :: spare) := by
  obtain ⟨start, size, buffer, fits, operations⟩ := passed.operations
  apply sound.hand_over passed.free running passed.buffer_cache
    passed.comm_buffer_size passed.returned passed.info passed.comm passed.orig_info passed.comm_buffer
    passed.custom_allocated passed.peer passed.allocated
  case active => exact passed.active running onward
  case operations =>
    intro operation member
    rw [operations] at member
    split at member
    · rcases Multiset.mem_cons.mp member with rfl | before
      · exact .inr ⟨start, size, rfl, buffer, fits⟩
      · exact .inl before
    · exact .inl member
  case within => exact passed.within

/-- The callback has gone on, and a request has been taken into use. -/
theorem balanced :
    Balanced rank after ((handle, .continued) :: receives index inside) := by
  have went_on : Balanced rank { rank with control := .user } [(handle, .continued)] :=
    .go_on rfl ((pending_of_running running).trans (congrArg _ (add_zero _).symm))
  have acquired : Balanced { rank with control := .user } { after with control := .user }
      [(.request index, .acquired)] := by
    refine .acquire passed.free passed.allocated ?_
    rw [Rank.pending, Rank.pending, passed.due]
  have last : Balanced { after with control := .user } after
      (if inside.isSome then [(.request index, .completed)] else []) := by
    cases inside with
    | none =>
        refine .of_same ?_ rfl
        rw [Rank.pending, onward]
        rfl
    | some source =>
        refine .complete rfl ?_
        rw [pending_of_running onward]
        exact congrArg _ (add_zero _).symm
  exact went_on.append (acquired.append last)

end PassedOn

section Batches

variable (rank) (handle : Handle) (loop : SendLoop)

/-- The number of bytes of the next batch of `send_handler`. -/
def batch_size : Nat :=
  (nelements_current_batch (rank.per_batch (rank.info handle)) loop.nelements_remaining *
    (rank.info handle).element_size).toNat

/-- The bytes of the next batch of `send_handler`. -/
def batch_bytes : List Byte :=
  rank.heap.read
    ((rank.info handle).send_buffer +
      loop.ibatch * rank.per_batch (rank.info handle) * (rank.info handle).element_size)
    (rank.batch_size handle loop)

/-- The next batch is in the communication buffer. -/
def copy_batch (comm_buffer : Int) : Rank :=
  { rank with heap := rank.heap.write ⟨comm_buffer, rank.batch_bytes handle loop⟩ }

/-- The next batch has been sent at once. -/
def send_at_once (comm_buffer : Int) : Rank :=
  { (rank.copy_batch handle loop comm_buffer).push (rank.info handle).peer
      ⟨get_comm_tag (rank.info handle).user_tag rank.mpi_rank,
        .taken (rank.batch_bytes handle loop)⟩ with
    control := .sending handle (loop.advance (rank.per_batch (rank.info handle))) }

/-- A request goes on when the next batch has been sent. -/
def send_later (comm_buffer : Int) (index : Nat) : Rank :=
  { (((rank.copy_batch handle loop comm_buffer).allocate (.request index)).push
      (rank.info handle).peer
      ⟨get_comm_tag (rank.info handle).user_tag rank.mpi_rank,
        .pending (.device comm_buffer (rank.batch_size handle loop)) (.request index)⟩
      ).setInfo (.request index)
        { rank.info handle with
          ibatch := toInt (loop.ibatch + 1)
          custom_allocated := false } with
    control := .user }

variable {rank handle loop}

/-- What `send_handler` does with a batch. -/
theorem send_handler_eq
    {later : Rank}
    {request : Option Nat}
    (remaining : 0 < loop.nelements_remaining)
    (sent : rank.send_handler handle loop request = some later) :
    ∃ comm_buffer, (rank.info handle).comm_buffer = some comm_buffer ∧
      (request = none ∧ later = rank.send_at_once handle loop comm_buffer ∨
        ∃ index, request = some index ∧ rank.allocated (.request index) = false ∧
          later = (rank.send_later handle loop comm_buffer index).free_internal handle) := by
  unfold Rank.send_handler at sent
  rw [if_pos remaining] at sent
  obtain ⟨comm_buffer, buffer, sent⟩ := Option.bind_eq_some_iff.mp sent
  obtain ⟨pushed, posted, sent⟩ := Option.bind_eq_some_iff.mp sent
  have whole : (rank.batch_bytes handle loop).take (rank.batch_size handle loop) =
      rank.batch_bytes handle loop :=
    List.take_of_length_le (Heap.length_read _ _ _).le
  have copied : rank.write (rank.batch_bytes handle loop)
      (.device comm_buffer (rank.batch_size handle loop)) =
        rank.copy_batch handle loop comm_buffer := by
    rw [write, whole]
    rfl
  have content : (rank.copy_batch handle loop comm_buffer).read
      (.device comm_buffer (rank.batch_size handle loop)) = rank.batch_bytes handle loop := by
    refine (Heap.read_write rank.heap comm_buffer ?_).trans whole
    exact (Heap.length_read _ _ _).symm.le
  refine ⟨comm_buffer, buffer, ?_⟩
  cases request with
  | none =>
      obtain rfl := Option.some.inj posted
      refine .inl ⟨rfl, (Option.some.inj sent).symm.trans ?_⟩
      change { (rank.write (rank.batch_bytes handle loop)
          (.device comm_buffer (rank.batch_size handle loop))).push (rank.info handle).peer
            ⟨get_comm_tag (rank.info handle).user_tag rank.mpi_rank, .taken (Rank.read
              (rank.write (rank.batch_bytes handle loop)
                (.device comm_buffer (rank.batch_size handle loop)))
              (.device comm_buffer (rank.batch_size handle loop)))⟩ with
        control := .sending handle (loop.advance (rank.per_batch (rank.info handle))) } = _
      rw [copied, content]
      rfl
  | some index =>
      obtain ⟨unused, rfl⟩ := by simpa only [ucp_tag_send_nb, Option.ite_none_left_eq_some,
        Option.some.injEq] using posted
      refine .inr ⟨index, rfl, (Bool.not_eq_true _).mp unused,
        (Option.some.inj sent).symm.trans ?_⟩
      rw [free_internal_leave]
      change Rank.free_internal
        { (((rank.write (rank.batch_bytes handle loop)
            (.device comm_buffer (rank.batch_size handle loop))).allocate (.request index)).push
              (rank.info handle).peer
              ⟨get_comm_tag (rank.info handle).user_tag rank.mpi_rank,
                .pending (.device comm_buffer (rank.batch_size handle loop)) (.request index)⟩
            ).setInfo (.request index) _ with
          control := .user } handle = _
      rw [copied]
      rfl

/-- A request takes over from the handle when the next batch has been sent. -/
theorem passed_on_send_later
    {comm_buffer : Int}
    {index : Nat}
    (sound : rank.Sound n carved spare)
    (destBound : (rank.info handle).peer < n)
    (remaining : 0 < loop.nelements_remaining)
    (buffer : (rank.info handle).comm_buffer = some comm_buffer)
    (free : rank.allocated (.request index) = false) :
    PassedOn n rank (rank.send_later handle loop comm_buffer index) handle index none where
  free := free
  buffer_cache := rfl
  comm_buffer_size := rfl
  returned := rfl
  due := rfl
  allocated := rfl
  info := fun other different => .of_eq (Function.update_of_ne different _ _)
  comm := by simp [send_later, copy_batch, setInfo, push, allocate]
  orig_info := by simp [send_later, copy_batch, setInfo, push, allocate]
  comm_buffer := by simp [send_later, copy_batch, setInfo, push, allocate]
  custom_allocated := by simp [send_later, copy_batch, setInfo, push, allocate]
  peer := by simp [send_later, copy_batch, setInfo, push, allocate]
  operations := ⟨comm_buffer, _, buffer, nelements_current_batch_fits remaining _ _,
    operations_push_pending ((rank.copy_batch handle loop comm_buffer).allocate (.request index))
      destBound _ _ _⟩
  within := within_push ((rank.copy_batch handle loop comm_buffer).allocate (.request index))
    destBound sound.within _

end Batches

section Copies

variable (rank) (info : CommInfo) (address : Int)

/-- The pointers once `recv_handler` has allocated a buffer at an address, if it has to. -/
def pointed : Cell → Option Int :=
  if rank.pointers info.recv_buffer = none ∧ 0 < rank.total info then
    Function.update rank.pointers info.recv_buffer (some address)
  else rank.pointers

/-- The number of elements before the batch that has come. -/
def nelement_copied : Int := rank.per_batch info * (info.ibatch - 1)

/-- The number of bytes of the batch that has come. -/
def copy_size : Nat :=
  (nelements_current_batch (rank.per_batch info) (rank.total info - rank.nelement_copied info) *
    info.element_size).toNat

/-- The memory once `recv_handler` has copied the batch that has come. After the header there
is none. -/
inductive Copies (heap : Heap) : Prop
  | header (first : info.ibatch ≤ 0) (same : heap = rank.heap)
  | batch
      {buf comm_buffer : Int}
      (later : 0 < info.ibatch)
      (pointer : rank.pointed info address info.recv_buffer = some buf)
      (buffer : info.comm_buffer = some comm_buffer)
      (same : heap = rank.heap.write
        ⟨buf + rank.nelement_copied info * info.element_size,
          rank.heap.read comm_buffer (rank.copy_size info)⟩)

end Copies

/-- What a call of `send_handler` does with handles. -/
theorem Sound.send_handler
    {handle : Handle}
    {loop : SendLoop}
    {request : Option Nat}
    (sound : rank.Sound n carved rank.control.outer)
    (control : rank.control = .sending handle loop)
    (sent : rank.send_handler handle loop request = some after) :
    rank.Keeps n carved after rank.returned ((handle, .continued) ::
      if 0 < loop.nelements_remaining then rank.sends_batch handle request
      else rank.frees_internal [handle]) := by
  have running : rank.control.running = {handle} := by rw [control]; rfl
  have active := mem_active_of_running (n := n) running
  have destBound := (sound.engaged handle active).peer
  have went_on : Balanced rank { rank with control := .user } [(handle, .continued)] :=
    .go_on rfl ((pending_of_running running).trans (congrArg _ (add_zero _).symm))
  rw [control] at sound
  by_cases remaining : 0 < loop.nelements_remaining
  · rw [if_pos remaining]
    obtain ⟨comm_buffer, buffer, ⟨rfl, rfl⟩ | ⟨index, rfl, free, rfl⟩⟩ :=
      send_handler_eq remaining sent
    · have operations : (rank.send_at_once handle loop comm_buffer).operations n =
          rank.operations n :=
        operations_push_taken (rank.copy_batch handle loop comm_buffer) destBound _ _
      refine ⟨sound.of_same rfl rfl rfl rfl rfl ?_ ?_ ?_ ?_, rfl, rfl,
        went_on.append (.complete rfl ?_)⟩
      · exact active_congr operations
          ((pending_of_running rfl).trans (pending_of_running running).symm)
      · exact fun operation member => operations ▸ member
      · rw [control]
        exact fun _ same => same
      · exact within_push (rank.copy_batch handle loop comm_buffer) destBound sound.within _
      · exact (pending_of_running rfl).trans (congrArg _ (add_zero _).symm)
    · have passed := passed_on_send_later sound destBound remaining buffer free
      have apart : handle ≠ .request index := fun same =>
        (sound.fresh free).1 (same ▸ active)
      have left : rank.Keeps n carved ([handle].foldl Rank.free_internal
          (rank.send_later handle loop comm_buffer index)) rank.returned
          (((handle, .continued) :: receives index none) ++ rank.frees_internal [handle]) :=
        .leave (passed.sound running rfl sound) rfl passed.comm_buffer_size passed.returned
          (passed.balanced running rfl) fun other member => by
            rw [List.mem_singleton.mp member]
            exact (passed.info handle apart).orig_info
      exact left
  · obtain ⟨orig, info, completed, origins, finished⟩ := sound.complete running
    unfold Rank.send_handler at sent
    rw [if_neg remaining] at sent
    obtain rfl := Option.some.inj sent
    rw [if_neg remaining, completed]
    have left : rank.Keeps n carved ([handle].foldl Rank.free_internal
        (Rank.setInfo { rank with control := .user } orig info)) rank.returned
          ([(handle, .continued)] ++ rank.frees_internal [handle]) :=
      .leave finished rfl rfl rfl ⟨went_on.pending, went_on.in_use, went_on.proper⟩
        fun other _ => origins other
    exact left

end Rank

namespace World

variable {n : Nat} {carved : Nat → List Int} {world after : World}

/-- What `recv_handler` does with a handle that has been filled in: it copies the batch that
has come, and then it posts the receive of the next batch and passes the transfer on, or
marks the handle as completed. -/
theorem recv_handler_cases
    {self request : Nat}
    {handle : Handle}
    {outer : List Handle}
    {address : Int}
    {inside : Option Nat}
    (filled : ((world self).info handle).orig_info ≠ .null)
    (comm : ((world self).info handle).comm = true)
    (received : world.recv_handler self handle outer address request inside = some after) :
    ∃ heap, (world self).Copies ((world self).info handle) address heap ∧
      if 0 < (world self).next_batch ((world self).info handle) then
        ∃ comm_buffer posted,
          ((world self).info handle).comm_buffer = some comm_buffer ∧
          (world.set self
              { world self with
                heap := heap
                pointers := (world self).pointed ((world self).info handle) address }
            ).ucp_tag_recv_nb self
              (.device comm_buffer ((world self).next_batch ((world self).info handle) *
                ((world self).info handle).element_size).toNat)
              (get_comm_tag ((world self).info handle).user_tag ((world self).info handle).peer)
              request inside = some posted ∧
          after = posted.set self
            (if ((posted self).info (.request request)).orig_info ≠ .null then
              { ((posted self).setInfo handle ((world self).info handle).next).setInfo
                  (.request request) ((world self).info handle).next
                with control := .receiving (.request request) (handle :: outer) }
            else (handle :: outer).foldl Rank.free_internal
              { ((posted self).setInfo handle ((world self).info handle).next).setInfo
                  (.request request) ((world self).info handle).next
                with control := .user })
      else after = world.set self ((handle :: outer).foldl Rank.free_internal
        { Rank.complete
            { world self with
              heap := heap
              pointers := (world self).pointed ((world self).info handle) address } handle with
          control := .user }) := by
  unfold World.recv_handler at received
  rw [if_neg filled, if_neg (by rw [comm]; decide)] at received
  extract_lets pointers allocated length next go_on at received
  -- The copy of the batch to the buffer of the receive changes memory only.
  obtain ⟨copied, ⟨heap, copies, rfl⟩, received⟩ : ∃ copied,
      (∃ heap, (world self).Copies ((world self).info handle) address heap ∧
        copied = { world self with heap := heap, pointers := pointers }) ∧
      go_on copied = some after := by
    split at received
    · rename_i batch
      obtain ⟨buf, pointed, received⟩ := Option.bind_eq_some_iff.mp received
      obtain ⟨comm_buffer, buffer, received⟩ := Option.bind_eq_some_iff.mp received
      have whole := @List.take_of_length_le _ _ _ (Heap.length_read (world self).heap comm_buffer
        ((world self).copy_size ((world self).info handle))).le
      refine ⟨_, ⟨_, .batch batch pointed buffer rfl, ?_⟩, received⟩
      exact congrArg (fun bytes : List Byte => ({ allocated with
        heap := (world self).heap.write
          ⟨buf + (world self).nelement_copied ((world self).info handle) *
            ((world self).info handle).element_size, bytes⟩ } : Rank)) whole
    · rename_i header
      exact ⟨allocated, ⟨_, .header (not_lt.mp header) rfl, rfl⟩, received⟩
  refine ⟨heap, copies, ?_⟩
  split
  · rename_i more
    replace received := (if_pos (show 0 < length from more)).symm.trans received
    obtain ⟨comm_buffer, buffer, received⟩ := Option.bind_eq_some_iff.mp received
    obtain ⟨posted, posts, received⟩ := Option.bind_eq_some_iff.mp received
    exact ⟨comm_buffer, posted, buffer, posts, (Option.some.inj received).symm⟩
  · rename_i last
    replace received := (if_neg (show ¬ 0 < length from last)).symm.trans received
    exact (Option.some.inj received).symm

/-- The transfer of a receive is passed on to the request of the next batch. -/
theorem passed_on_of_posts
    {rank posted : Rank}
    {handle : Handle}
    {index : Nat}
    {inside : Option Nat}
    {comm_buffer : Int}
    {size : Nat}
    (posts : Posts n rank posted (.device comm_buffer size) index inside)
    (buffer : (rank.info handle).comm_buffer = some comm_buffer)
    (fits : size ≤ rank.comm_buffer_size.toNat)
    (apart : handle ≠ .request index)
    (unmanaged : (rank.info handle).custom_allocated = false)
    (ibatch : Int)
    (control : Control) :
    Rank.PassedOn n rank
      { (posted.setInfo handle { rank.info handle with ibatch := ibatch }).setInfo (.request index)
          { rank.info handle with ibatch := ibatch } with
        control := control }
      handle index inside where
  free := posts.free
  buffer_cache := posts.buffer_cache
  comm_buffer_size := posts.comm_buffer_size
  returned := posts.returned
  due := posts.due
  allocated := posts.allocated
  info := by
    intro other different
    by_cases same : other = handle
    · subst same
      have next : (({ (posted.setInfo other { rank.info other with ibatch := ibatch }).setInfo
            (.request index) { rank.info other with ibatch := ibatch } with
          control := control } : Rank).info other) =
            { rank.info other with ibatch := ibatch } := by
        simp [Rank.setInfo, apart]
      rw [next]
      exact ⟨rfl, rfl, rfl, rfl, rfl, rfl⟩
    · refine .of_eq ?_
      simp [Rank.setInfo, same, different, posts.info other different]
  comm := by simp [Rank.setInfo]
  orig_info := by simp [Rank.setInfo]
  comm_buffer := by simp [Rank.setInfo]
  custom_allocated := by simp [Rank.setInfo, unmanaged]
  peer := by simp [Rank.setInfo]
  operations := ⟨comm_buffer, size, buffer, fits, posts.operations⟩
  within := posts.within

/-- A handle of a receive is a request. -/
theorem Sound.unmanaged
    {self : Nat}
    {handle : Handle}
    {outer : List Handle}
    (sound : world.Sound n carved)
    (control : (world self).control = .receiving handle outer) :
    ((world self).info handle).custom_allocated = false := by
  have active : handle ∈ (world self).active n :=
    Rank.mem_active_of_running (by rw [control]; rfl)
  cases handle with
  | request index => exact (sound self).requests index
  | custom index =>
      have sends := (sound self).sender index active
      rw [control] at sends
      contradiction

/-- The handles of an event are those of one rank, which has returned none. -/
theorem Keeps.quiet
    {self : Nat}
    {record : Record}
    (kept : Keeps n carved world after
      (Function.update (fun rank => (world rank).returned) self (world self).returned)
      (only self record)) :
    Keeps n carved world after (fun rank => (world rank).returned) (only self record) := by
  rw [Function.update_eq_self] at kept
  exact kept

/-- What a call of `recv_handler` does with handles. -/
theorem Sound.recv_handler
    {self request : Nat}
    {handle : Handle}
    {outer : List Handle}
    {address : Int}
    {inside : Option Nat}
    (sound : world.Sound n carved)
    (control : (world self).control = .receiving handle outer)
    (received : world.recv_handler self handle outer address request inside = some after) :
    Keeps n carved world after (fun rank => (world rank).returned)
      (only self (((handle, .continued) ::
        if 0 < (world self).next_batch ((world self).info handle) then
          Rank.receives request inside
        else []) ++
          if (after self).control = .user then (world self).frees_internal (handle :: outer)
          else [])) := by
  have running : (world self).control.running = {handle} := by rw [control]; rfl
  have active := Rank.mem_active_of_running (n := n) running
  have here := sound self
  rw [control] at here
  obtain ⟨orig, _, origin, _⟩ := (here.engaged handle active).origin
  obtain ⟨heap, _, cases⟩ := recv_handler_cases (by rw [origin]; simp)
    (here.engaged handle active).comm received
  have remembered := here.remember heap (world self).counters
    ((world self).pointed ((world self).info handle) address) (world self).malloced
  split at cases
  · rename_i more
    obtain ⟨comm_buffer, posted, buffer, receives, rfl⟩ := cases
    have posts := posts_of_recv_nb (by rw [set_self]; exact remembered) receives
    rw [set_self] at posts
    have apart : handle ≠ .request request := fun same =>
      (here.fresh posts.free).1 (same ▸ active)
    have fits := nelements_current_batch_fits (remaining_pos_of_batch more)
      (world self).comm_buffer_size ((world self).info handle).element_size
    have passed := passed_on_of_posts posts buffer fits apart (sound.unmanaged control)
      (toInt (((world self).info handle).ibatch + 1))
    have others : ∀ other, other ≠ self →
        ∃ outgoing, posted other = { world other with outgoing := outgoing } ∧
          sendsOf n outgoing = sendsOf n (world other).outgoing ∧
          ∀ dest, n ≤ dest → outgoing dest = [] := by
      intro other different
      have same := of_recv_nb different
        (by rw [set_of_ne _ different]; exact (sound other).within) receives
      rw [set_of_ne _ different] at same
      exact same
    have origins : ∀ control, ∀ other ∈ handle :: outer,
        ((({ ((posted self).setInfo handle ((world self).info handle).next).setInfo
              (.request request) ((world self).info handle).next with
            control := control } : Rank).info other).orig_info =
          ((world self).info other).orig_info) := by
      intro control other member
      refine ((passed control).info other ?_).orig_info
      rcases List.mem_cons.mp member with rfl | spared
      · exact apart
      · exact fun same => (here.fresh posts.free).2.2 (same ▸ spared)
    rw [if_pos more]
    cases inside with
    | none =>
        have null := posts.called.mpr rfl
        have balanced := (passed .user).balanced running rfl
        have left : (world self).Keeps n (carved self) _ (world self).returned
            (((handle, .continued) :: Rank.receives request none) ++
              (world self).frees_internal (handle :: outer)) :=
          .leave ((passed .user).sound running rfl remembered) rfl posts.comm_buffer_size
            posts.returned ⟨balanced.pending, balanced.in_use, balanced.proper⟩ (origins .user)
        rw [if_neg (not_not.mpr null), set_self, Rank.free_all_control, if_pos rfl]
        exact (Keeps.of_others sound others left).quiet
    | some source =>
        have called := posts.called.not.mpr (Option.some_ne_none source)
        have balanced := (passed (.receiving (.request request) (handle :: outer))).balanced
          running rfl
        rw [if_pos called, set_self, if_neg (by simp), List.append_nil]
        apply Keeps.quiet
        apply Keeps.of_others sound others
        exact ⟨(passed _).sound running rfl remembered, posts.comm_buffer_size, posts.returned,
          ⟨balanced.pending, balanced.in_use, balanced.proper⟩⟩
  · rename_i last
    obtain rfl := cases
    obtain ⟨last_orig, info, completed, origins, finished⟩ := remembered.complete running
    have went_on : Rank.Balanced (world self) { world self with control := .user }
        [(handle, .continued)] :=
      .go_on rfl ((Rank.pending_of_running running).trans (congrArg _ (add_zero _).symm))
    have left : (world self).Keeps n (carved self) _ (world self).returned
        ([(handle, .continued)] ++ (world self).frees_internal (handle :: outer)) :=
      .leave finished rfl rfl rfl ⟨went_on.pending, went_on.in_use, went_on.proper⟩
        fun other _ => origins other
    have leave := @Rank.complete_leave
      { world self with
        heap := heap
        pointers := (world self).pointed ((world self).info handle) address } handle orig
    rw [if_neg last, leave origin, completed, set_self, Rank.free_all_control, if_pos]
    · exact (Keeps.of_set sound left).quiet
    · rfl

end World

end Ucx

end DistributedJoin
