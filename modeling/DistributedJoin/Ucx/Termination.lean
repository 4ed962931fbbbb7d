import DistributedJoin.Ucx.Quiescence

/-!
# UCX and callbacks come to an end

The work that is left at all ranks: batches that have not been sent, messages that have not been
received, and callbacks that are due or executed. Every event that UCX or a callback brings about
leaves less of it, so that transfers cannot go on forever without new calls.
-/

namespace DistributedJoin

namespace Ucx

open Device

/-- One summand changes. -/
theorem sum_update
    {Value : Type}
    {n index : Nat}
    (bound : index < n)
    (values : Nat → Value)
    (value : Value)
    (weight : Value → Nat) :
    ∑ other ∈ Finset.range n, weight (Function.update values index value other) +
        weight (values index) =
      ∑ other ∈ Finset.range n, weight (values other) + weight value := by
  have member : index ∈ Finset.range n := Finset.mem_range.mpr bound
  have others : ∑ other ∈ (Finset.range n).erase index,
        weight (Function.update values index value other) =
      ∑ other ∈ (Finset.range n).erase index, weight (values other) :=
    Finset.sum_congr rfl fun other range => by
      rw [Function.update_of_ne (Finset.ne_of_mem_erase range)]
  rw [← Finset.add_sum_erase _ _ member,
    ← Finset.add_sum_erase _ (fun other => weight (values other)) member, others,
    Function.update_self]
  omega

/-- A message is to be received, and its bytes to be read before. -/
def Message.work (message : Message) : Nat :=
  match message.payload with
  | .taken _ => 3
  | .pending _ _ => 6

/-- The work that is left for messages. -/
def workOf (messages : List Message) : Nat := (messages.map Message.work).sum

theorem workOf_append (messages others : List Message) :
    workOf (messages ++ others) = workOf messages + workOf others := by
  rw [workOf, List.map_append, List.sum_append]
  rfl

/-- A message has been received. -/
theorem workOf_takeMessage
    {tag : Tag}
    {messages rest : List Message}
    {bytes : List Byte}
    (taken : takeMessage tag messages = some (bytes, rest)) :
    workOf messages = workOf rest + 3 := by
  induction messages generalizing rest with
  | nil => contradiction
  | cons message messages inductionHypothesis =>
      unfold takeMessage at taken
      split at taken
      · split at taken
        · rename_i payload
          obtain ⟨_, rfl⟩ := Prod.mk.inj (Option.some.inj taken)
          simp [workOf, Message.work, payload, Nat.add_comm]
        · contradiction
      · obtain ⟨⟨found, others⟩, inner, same⟩ := Option.map_eq_some_iff.mp taken
        obtain ⟨rfl, rfl⟩ := Prod.mk.inj same
        have fewer := inductionHypothesis inner
        simp only [workOf, List.map_cons, List.sum_cons] at fewer ⊢
        omega

/-- The bytes of a message have been read. -/
theorem workOf_takeOver
    {read : Place → List Byte}
    {position : Nat}
    {messages rest : List Message}
    {request : Handle}
    (taken : takeOver read position messages = some (request, rest)) :
    workOf messages = workOf rest + 3 := by
  induction messages generalizing position rest with
  | nil => cases position <;> contradiction
  | cons message messages inductionHypothesis =>
      cases position with
      | zero =>
          unfold takeOver at taken
          split at taken
          · contradiction
          · rename_i payload
            obtain ⟨_, rfl⟩ := Prod.mk.inj (Option.some.inj taken)
            simp only [workOf, List.map_cons, List.sum_cons, Message.work, payload]
            omega
      | succ position =>
          obtain ⟨⟨found, others⟩, inner, same⟩ := Option.map_eq_some_iff.mp taken
          obtain ⟨rfl, rfl⟩ := Prod.mk.inj same
          have fewer := inductionHypothesis inner
          simp only [workOf, List.map_cons, List.sum_cons] at fewer ⊢
          omega

namespace Rank

/-- The batch that a handle stands before. -/
def position (rank : Rank) (handle : Handle) : Int :=
  match rank.loop handle with
  | some loop => loop.ibatch
  | none => (rank.info handle).ibatch

/-- The number of batches that are still to be sent for a handle. -/
def unsent (rank : Rank) (handle : Handle) : Nat :=
  match (rank.info handle).types with
  | .SEND =>
      batches (rank.per_batch (rank.info handle)) (rank.total (rank.info handle)) -
        (rank.position handle).toNat
  | .RECV => 0

/-- The number of batches that are still to be sent for handles. -/
def batches_unsent (rank : Rank) (handles : Multiset Handle) : Nat :=
  (handles.map rank.unsent).sum

/-- Whether a callback is executed. -/
def busy (rank : Rank) : Nat := if rank.control = .user then 0 else 1

/-- The work that is left for the messages of a rank. -/
def message_work (n : Nat) (rank : Rank) : Nat :=
  ∑ dest ∈ Finset.range n, workOf (rank.outgoing dest)

/-- The work that is left at a rank: a batch is to be copied and to be read by UCX, and the
callbacks for messages and receives are to be begun and to be executed. -/
def work (n : Nat) (rank : Rank) : Nat :=
  6 * rank.batches_unsent (rank.active n) + rank.message_work n + 2 * rank.due.length + rank.busy

theorem unsent_of_recv
    {rank : Rank}
    {handle : Handle}
    (types : (rank.info handle).types = .RECV) :
    rank.unsent handle = 0 := by
  rw [unsent, types]

theorem busy_of_user {rank : Rank} (control : rank.control = .user) : rank.busy = 0 :=
  if_pos control

theorem busy_le (rank : Rank) : rank.busy ≤ 1 := by
  unfold busy
  split
  · exact Nat.zero_le 1
  · exact Nat.le_refl 1

theorem busy_of_running
    {rank : Rank}
    {handle : Handle}
    (running : rank.control.running = {handle}) :
    rank.busy = 1 := by
  refine if_neg fun control => ?_
  rw [control] at running
  exact Multiset.singleton_ne_zero handle running.symm

/-- A loop is that of the handle which is executed. -/
theorem control_of_loop
    {rank : Rank}
    {handle : Handle}
    {loop : SendLoop}
    (found : rank.loop handle = some loop) :
    rank.control = .sending handle loop := by
  unfold Rank.loop at found
  split at found
  · rename_i executed stored control
    split at found
    · rename_i same
      rw [control, same, Option.some.inj found]
    · contradiction
  · contradiction

variable {n dest : Nat} {rank : Rank}

theorem active_free_internal (rank : Rank) (handle : Handle) :
    (rank.free_internal handle).active n = rank.active n := by
  unfold free_internal
  split <;> rfl

theorem active_free_all (rank : Rank) (handles : List Handle) :
    (handles.foldl free_internal rank).active n = rank.active n := by
  induction handles generalizing rank with
  | nil => rfl
  | cons handle handles inductionHypothesis =>
      exact (inductionHypothesis _).trans (rank.active_free_internal handle)

theorem message_work_free_internal (rank : Rank) (handle : Handle) :
    (rank.free_internal handle).message_work n = rank.message_work n := by
  unfold free_internal
  split <;> rfl

/-- The messages to one rank change. -/
theorem message_work_update
    (bound : dest < n)
    (messages : List Message) :
    message_work n { rank with outgoing := Function.update rank.outgoing dest messages } +
        workOf (rank.outgoing dest) =
      rank.message_work n + workOf messages :=
  sum_update bound rank.outgoing messages workOf

/-- One more message is on the way. -/
theorem message_work_push (bound : dest < n) (message : Message) :
    (rank.push dest message).message_work n = rank.message_work n + message.work := by
  have update := rank.message_work_update bound (rank.outgoing dest ++ [message])
  have single : workOf [message] = message.work := rfl
  rw [workOf_append, single] at update
  change message_work n { rank with
    outgoing := Function.update rank.outgoing dest (rank.outgoing dest ++ [message]) } = _
  omega

theorem message_work_send_at_once
    {handle : Handle}
    {loop : SendLoop}
    {comm_buffer : Int}
    (bound : (rank.info handle).peer < n) :
    (rank.send_at_once handle loop comm_buffer).message_work n = rank.message_work n + 3 :=
  @message_work_push n _ (rank.copy_batch handle loop comm_buffer) bound _

theorem message_work_send_later
    {handle : Handle}
    {loop : SendLoop}
    {comm_buffer : Int}
    {index : Nat}
    (bound : (rank.info handle).peer < n) :
    (rank.send_later handle loop comm_buffer index).message_work n = rank.message_work n + 6 :=
  @message_work_push n _ ((rank.copy_batch handle loop comm_buffer).allocate (.request index)) bound _

/-- The transfer of one handle goes on, and the others stay as they are. -/
theorem batches_unsent_eq
    {later : Rank}
    {handle : Handle}
    {next : Multiset Handle}
    (active : handle ∈ rank.active n)
    (others : ∀ other ∈ (rank.active n).erase handle, later.unsent other = rank.unsent other)
    (passed : later.active n = next + (rank.active n).erase handle) :
    later.batches_unsent (later.active n) + rank.unsent handle =
      later.batches_unsent next + rank.batches_unsent (rank.active n) := by
  have split : rank.batches_unsent (rank.active n) =
      rank.unsent handle + rank.batches_unsent ((rank.active n).erase handle) := by
    conv_lhs => rw [← Multiset.cons_erase active]
    rw [batches_unsent, Multiset.map_cons, Multiset.sum_cons]
    rfl
  have kept : later.batches_unsent ((rank.active n).erase handle) =
      rank.batches_unsent ((rank.active n).erase handle) :=
    congrArg Multiset.sum (Multiset.map_congr rfl others)
  have joined : later.batches_unsent (later.active n) = later.batches_unsent next +
      later.batches_unsent ((rank.active n).erase handle) := by
    rw [passed, batches_unsent, Multiset.map_add, Multiset.sum_add]
    rfl
  omega

end Rank

namespace World

/-- The work that is left at all ranks. -/
def work (n : Nat) (world : World) : Nat := ∑ rank ∈ Finset.range n, (world rank).work n

/-- One rank changes. -/
theorem work_set
    {n self : Nat}
    (bound : self < n)
    (world : World)
    (rank : Rank) :
    (world.set self rank).work n + (world self).work n = world.work n + rank.work n :=
  sum_update bound world rank (Rank.work n)

/-- A message has been received. -/
theorem work_receive
    {n source dest : Nat}
    {world received : World}
    {tag : Tag}
    {bytes : List Byte}
    (bound : source < n)
    (within : ∀ dest, n ≤ dest → (world source).outgoing dest = [])
    (taken : world.receive source dest tag = some (bytes, received)) :
    received.work n + 3 = world.work n := by
  obtain ⟨rest, message, rfl⟩ := receive_cases taken
  have inside : dest < n := by
    by_contra outside
    rw [within dest (not_lt.mp outside)] at message
    contradiction
  let later : Rank :=
    { world source with outgoing := Function.update (world source).outgoing dest rest }
  have operations : later.operations n = (world source).operations n :=
    congrArg (· + _) (Rank.operations_takeMessage within message).1
  have active : later.active n = (world source).active n := Rank.active_congr operations rfl
  have messages : later.message_work n + workOf ((world source).outgoing dest) =
      (world source).message_work n + workOf rest :=
    Rank.message_work_update inside rest
  have kept : later.work n = 6 * (world source).batches_unsent ((world source).active n) +
      later.message_work n + 2 * (world source).due.length + (world source).busy := by
    rw [Rank.work, active]
    rfl
  have before : (world source).work n =
      6 * (world source).batches_unsent ((world source).active n) +
        (world source).message_work n + 2 * (world source).due.length + (world source).busy :=
    rfl
  have changed : (world.set source later).work n + (world source).work n =
      world.work n + later.work n :=
    world.work_set bound later
  rw [workOf_takeMessage message] at messages
  change (world.set source later).work n + 3 = _
  omega

end World

namespace Traffic.Consistent

variable {n : Nat} {comm_buffer_size : Int} {buffers : Nat → List Int} {agreed : Agreement}
  {traffic : Traffic} {after : World}
  (consistent : traffic.Consistent n comm_buffer_size buffers agreed)
include consistent

/-- What is left of a send. -/
theorem unsent_eq
    {channel : Channel}
    {sending : Sending}
    {handle : Handle}
    {index : Nat}
    (goes_on : sending.GoesOn n comm_buffer_size (traffic.world channel.source) channel handle
      index) :
    (traffic.world channel.source).position handle = index ∧
      (traffic.world channel.source).unsent handle =
        sending.round.number comm_buffer_size - index := by
  obtain ⟨per_batch, total⟩ := goes_on.sizes (consistent.comm_buffer_size channel.source)
  have position : (traffic.world channel.source).position handle = index := by
    have stands := goes_on.stands
    rw [Rank.position]
    split
    · rename_i loop found
      rw [found] at stands
      exact stands.1
    · rename_i none
      rw [none] at stands
      exact stands
  refine ⟨position, ?_⟩
  rw [Rank.unsent, goes_on.describes.types, per_batch, total, position]
  rfl

/-- A send goes on for a handle whose information is that of a send. -/
theorem goes_on_of_active
    {rank : Nat}
    {handle : Handle}
    (active : handle ∈ (traffic.world rank).active n)
    (types : ((traffic.world rank).info handle).types = .SEND) :
    ∃ channel sending index, channel.source = rank ∧
      traffic.ledger.sending channel = some sending ∧
      sending.GoesOn n comm_buffer_size (traffic.world rank) channel handle index := by
  rcases consistent.transfer_of_active active with
    ⟨channel, sending, index, source, _, outstanding, goes_on, _⟩ |
    ⟨_, _, _, _, _, _, _, describes⟩
  · exact ⟨channel, sending, index, source, outstanding, goes_on⟩
  · have receives := types.symm.trans describes.types
    contradiction

/-- Before and after an event a handle goes on with the same send. -/
theorem goes_on_again
    {channel : Channel}
    {sending : Sending}
    {handle next : Handle}
    {index : Nat}
    (outstanding : traffic.ledger.sending channel = some sending)
    (goes_on : sending.GoesOn n comm_buffer_size (traffic.world channel.source) channel handle
      index)
    (later : Consistent n comm_buffer_size buffers agreed ⟨after, traffic.ledger⟩)
    (active : next ∈ (after channel.source).active n)
    (types : ((after channel.source).info next).types = .SEND)
    (origin : ((after channel.source).info next).orig_info =
      ((traffic.world channel.source).info handle).orig_info) :
    ∃ position, sending.GoesOn n comm_buffer_size (after channel.source) channel next
      position := by
  obtain ⟨other, found, position, source, others, again⟩ := later.goes_on_of_active active types
  have same : sending.handle = found.handle := OrigInfo.handle.inj
    (goes_on.origin.symm.trans (origin.symm.trans again.origin))
  obtain rfl := consistent.booked.sending_inj source.symm outstanding others same
  obtain rfl := Option.some.inj (outstanding.symm.trans others)
  exact ⟨position, again⟩

/-- What is left of a transfer stays as it is while its handle and its position do. -/
theorem unsent_kept
    {rank : Nat}
    {handle : Handle}
    (later : Consistent n comm_buffer_size buffers agreed ⟨after, traffic.ledger⟩)
    (active : handle ∈ (traffic.world rank).active n)
    (remains : handle ∈ (after rank).active n)
    (info : (after rank).info handle = (traffic.world rank).info handle)
    (position : (after rank).position handle = (traffic.world rank).position handle) :
    (after rank).unsent handle = (traffic.world rank).unsent handle := by
  cases types : ((traffic.world rank).info handle).types with
  | RECV => rw [Rank.unsent_of_recv types, Rank.unsent_of_recv (info ▸ types)]
  | SEND =>
      obtain ⟨channel, sending, index, rfl, outstanding, goes_on⟩ :=
        consistent.goes_on_of_active active types
      obtain ⟨found, again⟩ := consistent.goes_on_again outstanding goes_on later remains
        (info ▸ types) (congrArg CommInfo.orig_info info)
      obtain ⟨stands, left⟩ := consistent.unsent_eq goes_on
      obtain ⟨stands_again, left_again⟩ := later.unsent_eq again
      have equal : (found : Int) = index := stands_again.symm.trans (position.trans stands)
      rw [left]
      refine left_again.trans ?_
      omega

/-- What is left of all transfers of a rank stays as it is. -/
theorem batches_unsent_kept
    {rank : Nat}
    (later : Consistent n comm_buffer_size buffers agreed ⟨after, traffic.ledger⟩)
    (active : (after rank).active n = (traffic.world rank).active n)
    (info : (after rank).info = (traffic.world rank).info)
    (position : ∀ handle,
      (after rank).position handle = (traffic.world rank).position handle) :
    (after rank).batches_unsent ((after rank).active n) =
      (traffic.world rank).batches_unsent ((traffic.world rank).active n) := by
  rw [active]
  refine congrArg Multiset.sum (Multiset.map_congr rfl fun handle member => ?_)
  exact consistent.unsent_kept later member (active ▸ member) (congrFun info handle)
    (position handle)

/-- Only ranks that take part have transfers. -/
theorem bound_of_active
    {rank : Nat}
    {handle : Handle}
    (active : handle ∈ (traffic.world rank).active n) :
    rank < n := by
  rcases consistent.transfer_of_active active with
    ⟨channel, _, _, rfl, valid, _⟩ | ⟨channel, _, rfl, valid, _⟩
  · exact valid.1
  · exact valid.2.1

/-- Only ranks that take part have sent messages. -/
theorem source_bound
    {source dest : Nat}
    {tag : Tag}
    {bytes : List Byte}
    {received : World}
    (taken : traffic.world.receive source dest tag = some (bytes, received)) :
    source < n := by
  obtain ⟨rest, message, _⟩ := World.receive_cases taken
  obtain ⟨⟨first, member, _⟩, _⟩ := mem_takeMessage message
  obtain ⟨channel, valid, rfl, _⟩ := ((consistent.located source).outgoing dest first member).tag
  exact valid.1

/-- A callback is begun. -/
theorem progress_work
    {self position : Nat}
    (later : Consistent n comm_buffer_size buffers agreed ⟨after, traffic.ledger⟩)
    (stepped : traffic.world.progress self position = some after) :
    after.work n < traffic.world.work n := by
  obtain ⟨callback, control, idle, due, running, loop, rfl⟩ : ∃ callback control,
      (traffic.world self).control = .user ∧
        (traffic.world self).due[position]? = some callback ∧
        control.running = {callback.handle} ∧
        (∀ handle loop, control = .sending handle loop →
          loop.ibatch = ((traffic.world self).info handle).ibatch) ∧
        after = traffic.world.set self
          { traffic.world self with
            due := (traffic.world self).due.eraseIdx position
            control := control } := by
    unfold World.progress at stepped
    split at stepped
    · rename_i idle
      split at stepped
      · contradiction
      · rename_i handle due
        have active := Rank.mem_active_of_due (n := n) (List.mem_of_getElem? due)
        have comm := ((consistent.sound self).engaged handle active).comm
        have entered := @Rank.enter_send_handler_eq
          { traffic.world self with due := (traffic.world self).due.eraseIdx position } handle comm
        refine ⟨.send_handler handle, _, idle, due, rfl, ?_,
          (Option.some.inj stepped).symm.trans (congrArg (traffic.world.set self) entered)⟩
        intro other loop same
        obtain ⟨rfl, rfl⟩ := Control.sending.inj same
        rfl
      · rename_i handle due
        exact ⟨.recv_handler handle, .receiving handle [], idle, due, rfl,
          fun _ _ => Control.noConfusion, (Option.some.inj stepped).symm⟩
    · contradiction
  let rank : Rank :=
    { traffic.world self with
      due := (traffic.world self).due.eraseIdx position
      control := control }
  have member := List.mem_of_getElem? due
  have bound := consistent.bound_of_active (Rank.mem_active_of_due member)
  have pending : rank.pending = (traffic.world self).pending := by
    rw [Rank.pending_of_running running, Rank.pending, Rank.due_progress due, idle]
    exact (add_zero _).symm
  have active : rank.active n = (traffic.world self).active n := Rank.active_congr rfl pending
  have positions : ∀ handle, rank.position handle = (traffic.world self).position handle := by
    intro handle
    have none : (traffic.world self).loop handle = none := by
      rw [Rank.loop, idle]
    rw [Rank.position, Rank.position, none]
    split
    · rename_i executed found
      exact loop handle executed (Rank.control_of_loop found)
    · rfl
  have left : rank.batches_unsent (rank.active n) =
      (traffic.world self).batches_unsent ((traffic.world self).active n) := by
    have kept := @batches_unsent_kept _ _ _ _ _ _ consistent self later
    rw [World.set_self] at kept
    exact kept active rfl positions
  have fewer : rank.due.length + 1 = (traffic.world self).due.length := by
    obtain ⟨inside, _⟩ := List.getElem?_eq_some_iff.mp due
    have length := List.length_eraseIdx_add_one inside
    exact length
  have total : rank.work n + 1 = (traffic.world self).work n := by
    have busy := @Rank.busy_of_running rank callback.handle running
    have before := Rank.busy_of_user idle
    have messages : rank.message_work n = (traffic.world self).message_work n := rfl
    rw [Rank.work, Rank.work]
    omega
  have changed : (traffic.world.set self rank).work n + (traffic.world self).work n =
      traffic.world.work n + rank.work n :=
    traffic.world.work_set bound rank
  change (traffic.world.set self rank).work n < _
  omega

/-- UCX reads the bytes of a message. -/
theorem transmit_work
    {source dest position : Nat}
    (stepped : traffic.world.transmit source dest position = some after) :
    after.work n < traffic.world.work n := by
  obtain ⟨⟨request, rest⟩, taken, rfl⟩ := Option.map_eq_some_iff.mp stepped
  obtain ⟨inside, place, ended⟩ :=
    Rank.operations_takeOver (consistent.sound source).within taken
  have bound := consistent.bound_of_active
    (Rank.mem_active_of_operation (ended ▸ Multiset.mem_cons_self _ _))
  let rank : Rank :=
    { traffic.world source with
      outgoing := Function.update (traffic.world source).outgoing dest rest
      due := (traffic.world source).due ++ [.send_handler request] }
  have operations : (traffic.world source).operations n = (place, request) ::ₘ rank.operations n :=
    ended
  have pending : rank.pending = request ::ₘ (traffic.world source).pending :=
    (traffic.world source).pending_due (.send_handler request)
  have active : rank.active n = (traffic.world source).active n := by
    rw [Rank.active_eq, Rank.active_eq, operations, pending, Multiset.map_cons,
      Multiset.cons_add, Multiset.add_cons]
  have left : rank.batches_unsent (rank.active n) =
      (traffic.world source).batches_unsent ((traffic.world source).active n) :=
    congrArg rank.batches_unsent active
  have messages : rank.message_work n + workOf ((traffic.world source).outgoing dest) =
      (traffic.world source).message_work n + workOf rest :=
    Rank.message_work_update inside rest
  rw [workOf_takeOver taken] at messages
  have more : rank.due.length = (traffic.world source).due.length + 1 := List.length_append
  have busy : rank.busy = (traffic.world source).busy := rfl
  have total : rank.work n + 1 = (traffic.world source).work n := by
    rw [Rank.work, Rank.work]
    omega
  have changed : (traffic.world.set source rank).work n + (traffic.world source).work n =
      traffic.world.work n + rank.work n :=
    traffic.world.work_set bound rank
  change (traffic.world.set source rank).work n < _
  omega

/-- UCX matches a message and a receive. -/
theorem deliver_work
    {source dest : Nat}
    {tag : Tag}
    (later : Consistent n comm_buffer_size buffers agreed ⟨after, traffic.ledger⟩)
    (stepped : traffic.world.deliver source dest tag = some after) :
    after.work n < traffic.world.work n := by
  obtain ⟨receive, rest, bytes, received, posts, message, happened⟩ := World.deliver_cases stepped
  obtain ⟨outgoing, same, sends, _⟩ := World.receive_same (consistent.sound dest).within message
  have listed : receive ∈ (traffic.world dest).posted :=
    (perm_takePosted posts).mem_iff.mpr List.mem_cons_self
  have bound := consistent.bound_of_active (Rank.mem_active_of_posted listed)
  have fewer := World.work_receive (consistent.source_bound message)
    (consistent.sound source).within message
  obtain ⟨heap, counters, written⟩ := (received dest).write_eq bytes receive.place
  obtain ⟨rank, shape, rfl⟩ : ∃ rank : Rank, rank =
      { traffic.world dest with
        outgoing := outgoing
        heap := heap
        counters := counters
        posted := rest
        due := (traffic.world dest).due ++ [.recv_handler receive.request] } ∧
      after = received.set dest rank := by
    refine ⟨_, rfl, ?_⟩
    rw [happened, written, same]
  have posted : ((traffic.world dest).posted.map fun posted => (posted.place, posted.request) :
      Multiset _) = (receive.place, receive.request) ::ₘ
        (rest.map fun posted => (posted.place, posted.request) : List _) :=
    Multiset.coe_eq_coe.mpr ((perm_takePosted posts).map _)
  have active : rank.active n = (traffic.world dest).active n := by
    have pending : rank.pending = receive.request ::ₘ (traffic.world dest).pending := by
      rw [shape]
      exact (traffic.world dest).pending_due (.recv_handler receive.request)
    have operations : (traffic.world dest).operations n =
        (receive.place, receive.request) ::ₘ rank.operations n := by
      rw [shape, Rank.operations, posted, Multiset.add_cons, ← sends]
      rfl
    rw [Rank.active_eq, Rank.active_eq, operations, pending, Multiset.map_cons,
      Multiset.cons_add, Multiset.add_cons]
  have active_received : (received dest).active n = (traffic.world dest).active n := by
    rw [same]
    exact Rank.active_congr (congrArg (· + _) sends) rfl
  have left : rank.batches_unsent (rank.active n) =
      (received dest).batches_unsent ((received dest).active n) := by
    have kept := @batches_unsent_kept _ _ _ _ _ _ consistent dest later
    rw [World.set_self] at kept
    refine (kept active (by rw [shape]) fun handle => by rw [shape]; rfl).trans ?_
    rw [active_received, same]
    rfl
  have total : rank.work n = (received dest).work n + 2 := by
    rw [Rank.work, left, Rank.work, shape, same]
    have more := @List.length_append _ (traffic.world dest).due [.recv_handler receive.request]
    dsimp only [Rank.message_work, Rank.busy]
    rw [more, List.length_singleton]
    omega
  have changed := received.work_set bound rank
  omega

/-- The transfers that an event does not act for stay as they are. -/
theorem others_kept
    {rank : Nat}
    {handle orig : Handle}
    {footprint : Footprint}
    (later : Consistent n comm_buffer_size buffers agreed ⟨after, traffic.ledger⟩)
    (frame : Frame n footprint (traffic.world rank) (after rank))
    (acting : ∀ other, footprint.acting other → other = orig)
    (active : handle ∈ (traffic.world rank).active n)
    (origin : ((traffic.world rank).info handle).orig_info = .handle orig) :
    ∀ other ∈ ((traffic.world rank).active n).erase handle,
      (after rank).unsent other = (traffic.world rank).unsent other := by
  intro other member
  have sound := consistent.sound rank
  obtain ⟨different, used⟩ := sound.active_nodup.mem_erase_iff.mp member
  obtain ⟨found, _, other_origin, _⟩ := (sound.engaged other used).origin
  have spares : footprint.Spares ((traffic.world rank).info other) := by
    refine ⟨found, other_origin, fun acts => different ?_⟩
    obtain rfl := acting found acts
    exact sound.active_inj used active (other_origin.trans origin.symm)
  have info := frame.info other (.inl used) spares
  refine consistent.unsent_kept later used (frame.active other used spares) info ?_
  rw [Rank.position, Rank.position, frame.loop other used spares, info]

/-- A transfer has completed. -/
theorem completes_work
    {self : Nat}
    {handle orig : Handle}
    {rank : Rank}
    (later : Consistent n comm_buffer_size buffers agreed
      ⟨traffic.world.set self rank, traffic.ledger⟩)
    (running : (traffic.world self).control.running = {handle})
    (origin : ((traffic.world self).info handle).orig_info = .handle orig)
    (heap : Heap)
    (pointers : Cell → Option Int)
    (completes : Rank.Completes n
      { traffic.world self with heap := heap, pointers := pointers } rank orig) :
    World.work n (traffic.world.set self rank) < traffic.world.work n := by
  have active := Rank.mem_active_of_running (n := n) running
  obtain ⟨info, allocated, same⟩ := completes.same
  have kept := completes.frame
  have frame : Frame n ⟨(· = orig), fun _ => True, fun _ => True, fun _ => True⟩
      (traffic.world self) (traffic.world.set self rank self) := by
    rw [World.set_self]
    exact {
      mpi_rank := kept.mpi_rank
      info := kept.info
      returned := kept.returned
      active := kept.active
      pending := kept.pending
      posted := kept.posted
      loop := kept.loop
      heap := fun _ outside => absurd trivial outside
      counters := fun _ outside => absurd trivial outside
      pointers := fun _ outside => absurd trivial outside }
  have others := consistent.others_kept later frame (fun _ => id) active origin
  rw [World.set_self] at others
  have passed : rank.active n = 0 + ((traffic.world self).active n).erase handle := by
    rw [zero_add, Rank.active_erase running, same]
    exact add_zero _
  have left := Rank.batches_unsent_eq active others passed
  have none : rank.batches_unsent 0 = 0 := rfl
  have messages : rank.message_work n = (traffic.world self).message_work n := by
    rw [same]
    rfl
  have due : rank.due = (traffic.world self).due := by rw [same]
  have idle : rank.busy = 0 := Rank.busy_of_user (by rw [same])
  have busy := Rank.busy_of_running running
  have changed := traffic.world.work_set (consistent.bound_of_active active) rank
  have less : rank.work n < (traffic.world self).work n := by
    rw [Rank.work, Rank.work, due]
    omega
  omega

/-- One batch less is left of a send that has advanced. -/
theorem advances_unsent
    {channel : Channel}
    {sending : Sending}
    {handle next : Handle}
    {index : Nat}
    {loop : SendLoop}
    {comm_buffer : Int}
    (later : Consistent n comm_buffer_size buffers agreed ⟨after, traffic.ledger⟩)
    (control : (traffic.world channel.source).control = .sending handle loop)
    (remaining : 0 < loop.nelements_remaining)
    (outstanding : traffic.ledger.sending channel = some sending)
    (goes_on : sending.GoesOn n comm_buffer_size (traffic.world channel.source) channel handle
      index)
    (advances : Rank.SendAdvances n (traffic.world channel.source) (after channel.source) handle
      sending.handle next loop comm_buffer) :
    (after channel.source).unsent next + 1 = (traffic.world channel.source).unsent handle := by
  obtain ⟨bound, _, _, before⟩ :=
    goes_on.batch control (consistent.comm_buffer_size channel.source) remaining
  obtain ⟨found, again⟩ := consistent.goes_on_again outstanding goes_on later advances.active
    (advances.describes.types.trans goes_on.describes.types) advances.origin
  obtain ⟨position, left⟩ := later.unsent_eq again
  have increment : toInt (loop.ibatch + 1) = ((index + 1 : Nat) : Int) := by
    rw [before.1]
    exact toInt_succ_eq (by have countable := goes_on.fits.countable; omega)
  have advanced : (after channel.source).position next = ((index + 1 : Nat) : Int) := by
    rw [Rank.position]
    rcases advances.advanced with stays | ⟨leaves, ibatch⟩
    · rw [stays]
      exact increment
    · rw [leaves]
      exact ibatch.trans increment
  have same : (found : Int) = ((index + 1 : Nat) : Int) := position.symm.trans advanced
  rw [(consistent.unsent_eq goes_on).2]
  change (after channel.source).unsent next = _ at left
  omega

/-- `send_handler` is executed. -/
theorem send_handler_work
    {self : Nat}
    {handle : Handle}
    {loop : SendLoop}
    {request : Option Nat}
    {rank : Rank}
    (later : Consistent n comm_buffer_size buffers agreed
      ⟨traffic.world.set self rank, traffic.ledger⟩)
    (control : (traffic.world self).control = .sending handle loop)
    (sent : (traffic.world self).send_handler handle loop request = some rank) :
    World.work n (traffic.world.set self rank) < traffic.world.work n := by
  have sound := consistent.sound self
  have running : (traffic.world self).control.running = {handle} := by
    rw [control]
    rfl
  have active := Rank.mem_active_of_running (n := n) running
  have busy := Rank.busy_of_running running
  obtain ⟨channel, sending, index, rfl, outstanding, goes_on⟩ :=
    consistent.goes_on_of_active active ((consistent.located self).sending handle loop control)
  have destBound := (sound.engaged handle active).peer
  by_cases remaining : 0 < loop.nelements_remaining
  · obtain ⟨next, comm_buffer, advances, passed, messages⟩ : ∃ next comm_buffer,
        Rank.SendAdvances n (traffic.world channel.source) rank handle sending.handle next loop
            comm_buffer ∧
          rank.active n = {next} + ((traffic.world channel.source).active n).erase handle ∧
          rank.message_work n + rank.busy ≤ (traffic.world channel.source).message_work n + 6 := by
      obtain ⟨comm_buffer, buffer, ⟨_, rfl⟩ | ⟨request, _, free, rfl⟩⟩ :=
        Rank.send_handler_eq remaining sent
      · refine ⟨handle, comm_buffer, Rank.advances_at_once control destBound goes_on.origin, ?_, ?_⟩
        · rw [Multiset.singleton_add, Multiset.cons_erase active]
          exact Rank.active_congr
            (Rank.operations_push_taken
              ((traffic.world channel.source).copy_batch handle loop comm_buffer) destBound _ _)
            ((Rank.pending_of_running rfl).trans (Rank.pending_of_running running).symm)
        · have messages := @Rank.message_work_send_at_once n _ handle loop comm_buffer destBound
          have executing : ((traffic.world channel.source).send_at_once handle loop
              comm_buffer).busy = 1 := Rank.busy_of_running rfl
          omega
      · refine ⟨.request request, comm_buffer,
          sound.advances_later control remaining destBound buffer free goes_on.origin, ?_, ?_⟩
        · rw [Rank.active_free_internal, Multiset.singleton_add]
          exact (Rank.passed_on_send_later sound destBound remaining buffer free).active running rfl
        · rw [Rank.message_work_free_internal, Rank.message_work_send_later destBound,
            Rank.busy_of_user (Rank.free_internal_control _ _)]
    have here : traffic.world.set channel.source rank channel.source = rank := World.set_self _ _ _
    rw [← here] at advances
    have less := consistent.advances_unsent later control remaining outstanding goes_on advances
    have others := consistent.others_kept later advances.frame (fun _ => id) active goes_on.origin
    have due := advances.due
    rw [here] at less others due
    have left := Rank.batches_unsent_eq active others passed
    have single : rank.batches_unsent {next} = rank.unsent next := Multiset.sum_singleton _
    have changed := traffic.world.work_set (consistent.bound_of_active active) rank
    have fewer : rank.work n < (traffic.world channel.source).work n := by
      rw [Rank.work, Rank.work, due]
      omega
    omega
  · have completes : Rank.Completes n (traffic.world channel.source) rank sending.handle := by
      have returned := (consistent.booked.sending channel sending outstanding).returned
      unfold Rank.send_handler at sent
      rw [if_neg remaining] at sent
      obtain rfl := Option.some.inj sent
      rw [control] at sound
      exact sound.transfer_completes running goes_on.origin returned
    exact consistent.completes_work later running goes_on.origin
      (traffic.world channel.source).heap (traffic.world channel.source).pointers completes

/-- `recv_handler` is executed before the last batch has come. -/
theorem recv_batch_work
    {self request : Nat}
    {handle orig : Handle}
    {outer : List Handle}
    {inside : Option Nat}
    {heap : Heap}
    {pointers : Cell → Option Int}
    {comm_buffer : Int}
    {size : Nat}
    {tag : Tag}
    {posted : World}
    {rank : Rank}
    (later : Consistent n comm_buffer_size buffers agreed
      ⟨posted.set self rank, traffic.ledger⟩)
    (control : (traffic.world self).control = .receiving handle outer)
    (origin : ((traffic.world self).info handle).orig_info = .handle orig)
    (buffer : ((traffic.world self).info handle).comm_buffer = some comm_buffer)
    (fits : size ≤ (traffic.world self).comm_buffer_size.toNat)
    (receives : (traffic.world.set self
      { traffic.world self with heap := heap, pointers := pointers }).ucp_tag_recv_nb self
        (.device comm_buffer size) tag request inside = some posted)
    (same : rank =
      if ((posted self).info (.request request)).orig_info ≠ .null then
        (posted self).hand_on handle (.request request) ((traffic.world self).info handle).next
          (.receiving (.request request) (handle :: outer))
      else (handle :: outer).foldl Rank.free_internal
        ((posted self).hand_on handle (.request request) ((traffic.world self).info handle).next
          .user)) :
    World.work n (posted.set self rank) < traffic.world.work n := by
  have sound := consistent.sound self
  have running : (traffic.world self).control.running = {handle} := by
    rw [control]
    rfl
  have active := Rank.mem_active_of_running (n := n) running
  have bound := consistent.bound_of_active active
  have types := (consistent.located self).receiving handle outer control
  obtain ⟨advances, takes, _, others⟩ := consistent.sound.recv_advances
    ⟨(· = orig), fun _ => True, fun _ => True, fun _ => True⟩ control origin buffer fits receives
    rfl (fun _ outside => absurd trivial outside) (fun _ outside => absurd trivial outside)
  rw [← same] at advances takes
  obtain ⟨passed, waits⟩ : rank.active n =
      {.request request} + ((traffic.world self).active n).erase handle ∧
        (inside = none → rank.control = .user) := by
    have executing := sound
    rw [control] at executing
    have remembered := executing.remember heap (traffic.world self).counters pointers
      (traffic.world self).malloced
    have posts := World.posts_of_recv_nb (by rw [World.set_self]; exact remembered) receives
    rw [World.set_self] at posts
    have apart : handle ≠ .request request := fun equal =>
      (executing.fresh posts.free).1 (equal ▸ active)
    have passed := World.passed_on_of_posts posts buffer fits apart
      (consistent.sound.unmanaged control) (toInt (((traffic.world self).info handle).ibatch + 1))
    by_cases waits : inside = none
    · rw [same, if_neg (not_not.mpr (posts.called.mpr waits))]
      refine ⟨?_, fun _ => Rank.free_all_control _ _⟩
      rw [Rank.active_free_all, Multiset.singleton_add]
      exact (passed .user).active running (if_pos waits).symm
    · rw [same, if_pos (posts.called.not.mpr waits)]
      refine ⟨?_, fun null => absurd null waits⟩
      rw [Multiset.singleton_add]
      exact (passed (.receiving (.request request) (handle :: outer))).active running
        (if_neg waits).symm
  have here : posted.set self rank self = rank := World.set_self _ _ _
  have spared : rank.batches_unsent (rank.active n) =
      (traffic.world self).batches_unsent ((traffic.world self).active n) := by
    have frame := advances.frame
    rw [← here] at frame
    have kept := consistent.others_kept later frame (fun _ => id) active origin
    rw [here] at kept
    have left := Rank.batches_unsent_eq active kept passed
    have single : rank.batches_unsent {.request request} = rank.unsent (.request request) :=
      Multiset.sum_singleton _
    have next_types : (rank.info (.request request)).types = .RECV := by
      rw [advances.info]
      exact types
    have none_left := Rank.unsent_of_recv next_types
    have none_before := Rank.unsent_of_recv types
    omega
  have busy := Rank.busy_of_running running
  have due := advances.due
  -- Of other ranks at most the messages change.
  have replaced : ∀ base : World,
      (∀ other, (posted.set self rank other).outgoing = (base other).outgoing) →
      (∀ other, ∃ outgoing, base other = { traffic.world other with outgoing := outgoing }) →
      posted.set self rank = base.set self rank := by
    intro base messages alike
    funext other
    by_cases equal : other = self
    · subst equal
      rw [here, World.set_self]
    · obtain ⟨outgoing, kept, _⟩ := others other equal
      obtain ⟨found, base_other⟩ := alike other
      have message := messages other
      rw [World.set_of_ne _ equal, kept, base_other] at message
      rw [World.set_of_ne _ equal, World.set_of_ne _ equal, kept, base_other]
      exact congrArg (fun outgoing => { traffic.world other with outgoing := outgoing }) message
  cases takes with
  | later listed heap_same counters_same outgoing =>
      have messages : rank.message_work n = (traffic.world self).message_work n := by
        have equal := outgoing self
        rw [here] at equal
        rw [Rank.message_work, equal]
        rfl
      have idle := Rank.busy_of_user (waits rfl)
      have changed := traffic.world.work_set bound rank
      have less : rank.work n < (traffic.world self).work n := by
        rw [Rank.work, Rank.work, due]
        omega
      rw [replaced traffic.world outgoing fun _ => ⟨_, rfl⟩]
      omega
  | @at_once source bytes received listed taken heap_same counters_same outgoing =>
      obtain ⟨kept_outgoing, kept, sends, _⟩ := World.receive_same sound.within taken
      have active_received : (received self).active n = (traffic.world self).active n := by
        rw [kept]
        exact Rank.active_congr (congrArg (· + _) sends) rfl
      have messages : rank.message_work n = (received self).message_work n := by
        have equal := outgoing self
        rw [here] at equal
        rw [Rank.message_work, equal]
        rfl
      have fewer := World.work_receive (consistent.source_bound taken)
        (consistent.sound source).within taken
      have changed := received.work_set bound rank
      have less : rank.work n ≤ (received self).work n := by
        have left : (received self).batches_unsent ((received self).active n) =
            (traffic.world self).batches_unsent ((traffic.world self).active n) := by
          rw [active_received, kept]
          rfl
        have due_received : (received self).due = (traffic.world self).due := by rw [kept]
        have busy_received : (received self).busy = (traffic.world self).busy := by
          rw [kept]
          rfl
        have executing := rank.busy_le
        rw [Rank.work, Rank.work, left, due, due_received, busy_received]
        omega
      rw [replaced received outgoing fun other => ?_]
      · omega
      · obtain ⟨messages, equal, _⟩ := World.receive_same (consistent.sound other).within taken
        exact ⟨messages, equal⟩

/-- `recv_handler` is executed. -/
theorem recv_handler_work
    {self request : Nat}
    {handle : Handle}
    {outer : List Handle}
    {address : Int}
    {inside : Option Nat}
    (later : Consistent n comm_buffer_size buffers agreed ⟨after, traffic.ledger⟩)
    (control : (traffic.world self).control = .receiving handle outer)
    (received : traffic.world.recv_handler self handle outer address request inside =
      some after) :
    after.work n < traffic.world.work n := by
  have sound := consistent.sound self
  have running : (traffic.world self).control.running = {handle} := by
    rw [control]
    rfl
  have active := Rank.mem_active_of_running (n := n) running
  obtain ⟨orig, returned, origin, _⟩ := (sound.engaged handle active).origin
  obtain ⟨heap, _, cases⟩ := World.recv_handler_cases (by rw [origin]; simp)
    (sound.engaged handle active).comm received
  split at cases
  · rename_i more
    obtain ⟨comm_buffer, posted, buffer, receives, rfl⟩ := cases
    have fits := nelements_current_batch_fits (remaining_pos_of_batch more)
      (traffic.world self).comm_buffer_size ((traffic.world self).info handle).element_size
    exact consistent.recv_batch_work later control origin buffer fits receives rfl
  · let ready : Rank :=
      { traffic.world self with
        heap := heap
        pointers := (traffic.world self).pointed ((traffic.world self).info handle) address }
    obtain ⟨rank, finished, rfl⟩ : ∃ rank, rank = (handle :: outer).foldl Rank.free_internal
        (Rank.complete { ready with control := .user } handle) ∧
        after = traffic.world.set self rank := by
      refine ⟨_, rfl, cases.trans ?_⟩
      have left := @Rank.complete_leave ready handle orig origin
      exact congrArg (fun rank => traffic.world.set self
        ((handle :: outer).foldl Rank.free_internal rank)) left
    have completes : Rank.Completes n ready rank orig := by
      have executing := sound
      rw [control] at executing
      rw [finished]
      exact (executing.remember heap (traffic.world self).counters ready.pointers
        (traffic.world self).malloced).transfer_completes running origin returned
    exact consistent.completes_work later running origin heap ready.pointers completes

/-- Every event that UCX or a callback brings about leaves less work. -/
theorem advances_work
    {event : World.Event}
    (advances : traffic.world.Advances event)
    (later : Consistent n comm_buffer_size buffers agreed ⟨after, traffic.ledger⟩)
    (stepped : traffic.world.step event = some after) :
    after.work n < traffic.world.work n := by
  cases event with
  | progress self position => exact consistent.progress_work later stepped
  | send_handler self request =>
      dsimp only [World.step] at stepped
      split at stepped
      · rename_i control
        obtain ⟨rank, sent, rfl⟩ := Option.map_eq_some_iff.mp stepped
        exact consistent.send_handler_work later control sent
      · contradiction
  | recv_handler self address request inside =>
      dsimp only [World.step] at stepped
      split at stepped
      · rename_i control
        exact consistent.recv_handler_work later control stepped
      · contradiction
  | transmit source dest position => exact consistent.transmit_work stepped
  | deliver source dest tag => exact consistent.deliver_work later stepped
  | send self buf count element_size dest tag custom request => contradiction
  | recv self buffer element_size source tag request inside => contradiction
  | waitall self handles => contradiction
  | compute self heap => contradiction

end Traffic.Consistent

namespace Traffic

/-- The states that are reached by a number of events that UCX or callbacks bring about. -/
inductive Settles
    (n : Nat)
    (comm_buffer_size : Int)
    (buffers : Nat → List Int)
    (agreed : Agreement)
    (start : Traffic) : Nat → Traffic → Prop
  | start : Settles n comm_buffer_size buffers agreed start 0 start
  | step
      {count : Nat}
      {traffic after : Traffic}
      {event : World.Event}
      (settled : Settles n comm_buffer_size buffers agreed start count traffic)
      (advances : traffic.world.Advances event)
      (obeys : traffic.Obeys n comm_buffer_size buffers agreed event)
      (stepped : traffic.step event = some after) :
      Settles n comm_buffer_size buffers agreed start (count + 1) after

namespace Settles

variable {n : Nat} {comm_buffer_size : Int} {buffers : Nat → List Int} {agreed : Agreement}
  {start traffic : Traffic} {count : Nat}

/-- Events of UCX and of callbacks are permitted, and they leave the ledger as it is. -/
theorem permits
    {event : World.Event}
    {after : Traffic}
    (advances : traffic.world.Advances event)
    (obeys : traffic.Obeys n comm_buffer_size buffers agreed event)
    (stepped : traffic.step event = some after) :
    traffic.Permits n comm_buffer_size buffers agreed event ∧
      after.ledger = traffic.ledger := by
  obtain ⟨world, _, rfl⟩ := Option.map_eq_some_iff.mp stepped
  cases event with
  | progress | send_handler | recv_handler | transmit | deliver => exact ⟨⟨obeys, trivial⟩, rfl⟩
  | send | recv | waitall | compute => contradiction

/-- No transfer begins, and none is waited for. -/
theorem ledger_eq
    (settles : Settles n comm_buffer_size buffers agreed start count traffic) :
    traffic.ledger = start.ledger := by
  induction settles with
  | start => rfl
  | step settled advances obeys stepped inductionHypothesis =>
      exact (permits advances obeys stepped).2.trans inductionHypothesis

/-- The states that are reached are those of a run. -/
theorem reaches
    {origin : Traffic}
    (reached : Reaches (Permits n comm_buffer_size buffers agreed) origin start)
    (settles : Settles n comm_buffer_size buffers agreed start count traffic) :
    Reaches (Permits n comm_buffer_size buffers agreed) origin traffic := by
  induction settles with
  | start => exact reached
  | step settled advances obeys stepped inductionHypothesis =>
      exact inductionHypothesis.step (permits advances obeys stepped).1 stepped

/-- Every event leaves less work. -/
theorem work_le
    (ranks : n ≤ 2 ^ 31)
    (memory : comm_buffer_size ≤ 2 ^ 57)
    (consistent : start.Consistent n comm_buffer_size buffers agreed)
    (settles : Settles n comm_buffer_size buffers agreed start count traffic) :
    count + traffic.world.work n ≤ start.world.work n := by
  induction settles with
  | start => exact (Nat.zero_add _).le
  | step settled advances obeys stepped inductionHypothesis =>
      have before := (settled.reaches .start).consistent ranks memory consistent
      obtain ⟨permitted, ledger⟩ := permits advances obeys stepped
      have after := before.step ranks memory permitted stepped
      obtain ⟨world, happened, rfl⟩ := Option.map_eq_some_iff.mp stepped
      have less := before.advances_work advances (ledger ▸ after) happened
      dsimp only
      omega

/-- Events can be continued until nothing is left to do. -/
theorem exists_quiet
    (ranks : n ≤ 2 ^ 31)
    (memory : comm_buffer_size ≤ 2 ^ 57)
    (consistent : start.Consistent n comm_buffer_size buffers agreed)
    (settles : Settles n comm_buffer_size buffers agreed start count traffic) :
    ∃ more after, Settles n comm_buffer_size buffers agreed start more after ∧
      after.Quiet n comm_buffer_size buffers agreed := by
  -- A run that has used up all work has ended.
  generalize rest : start.world.work n - count = fuel
  induction fuel generalizing count traffic with
  | zero =>
      refine ⟨count, traffic, settles, fun event advances obeys => ?_⟩
      by_contra stepped
      obtain ⟨after, stepped⟩ := Option.ne_none_iff_exists'.mp stepped
      have bound := (settles.step advances obeys stepped).work_le ranks memory consistent
      omega
  | succ fuel inductionHypothesis =>
      by_cases quiet : traffic.Quiet n comm_buffer_size buffers agreed
      · exact ⟨count, traffic, settles, quiet⟩
      · simp only [Quiet, not_forall] at quiet
        obtain ⟨event, advances, obeys, stepped⟩ := quiet
        obtain ⟨after, stepped⟩ := Option.ne_none_iff_exists'.mp stepped
        exact inductionHypothesis (settles.step advances obeys stepped) (by omega)

end Settles

section Runs

variable {n : Nat} {agreed : Agreement} {heap : Nat → Heap} {cache_start_addr : Nat → Int}
  {ncaches : Nat} {buffer_size : Int}

/-- From every state that is reached, UCX and the callbacks go on for as many events at most as
there is work left, and can go on until nothing is left to do. -/
theorem callbacks_terminate
    (ranks : n ≤ 2 ^ 31)
    (positive : 0 < buffer_size)
    (memory : buffer_size ≤ 2 ^ 57)
    {traffic : Traffic}
    (reached : Reaches (Permits n buffer_size
        (set_up_buffers cache_start_addr ncaches buffer_size) agreed)
      (set_up heap cache_start_addr ncaches buffer_size) traffic) :
    (∀ count after,
      Settles n buffer_size (set_up_buffers cache_start_addr ncaches buffer_size) agreed traffic
        count after →
      count ≤ traffic.world.work n) ∧
    ∃ count after,
      Settles n buffer_size (set_up_buffers cache_start_addr ncaches buffer_size) agreed traffic
        count after ∧
      after.Quiet n buffer_size (set_up_buffers cache_start_addr ncaches buffer_size) agreed := by
  have consistent := reached.consistent ranks memory (consistent_set_up positive)
  constructor
  · intro count after settles
    exact (Nat.le_add_right _ _).trans (settles.work_le ranks memory consistent)
  · exact Settles.exists_quiet ranks memory consistent .start

end Runs

/-- The rank that has called `send` ends outside of callbacks. -/
theorem callbacks_terminate_loopback :
    (sent_alone.world 0).control ≠ .user ∧
      ∃ count after,
        Settles 1 64 (set_up_buffers (fun _ => 0) 2 64) (fun _ _ => ⟨2, 40⟩) sent_alone count
            after ∧
          (after.world 0).control = .user := by
  obtain ⟨_, count, after, ended, quiet⟩ :=
    callbacks_terminate (by decide) (by decide) (by decide) reaches_sent_alone
  have consistent := (ended.reaches reaches_sent_alone).consistent (by decide) (by decide)
    (consistent_set_up (by decide))
  exact ⟨Control.noConfusion, count, after, ended, consistent.control_user quiet 0⟩

end Traffic

end Ucx

end DistributedJoin
