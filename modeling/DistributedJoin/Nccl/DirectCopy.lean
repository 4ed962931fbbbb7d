import DistributedJoin.Nccl.Staging
import Mathlib.Algebra.Order.BigOperators.Group.Multiset
import Mathlib.Tactic.IntervalCases

/-!
# NCCL groups as direct copies

Seen from the memory of its callers, a group copies the buffer of every send
directly into the buffer of the matching receive. The communication buffers in
between do not show: no padding is copied out of them, each is used by one call
only, and each is freed with the size it was allocated with.
-/

namespace DistributedJoin

open Device Spmd

variable {n : Nat}

/-- The message or receive of a call when buffers are copied directly. -/
def Call.direct (heap : Heap) (call : Call) : Action (.single (List Byte) Int) () :=
  match call with
  | .send buf _ _ dest => .send dest (heap.read buf call.bytes)
  | .recv buf _ _ source => .post source buf

/-- The writes of direct copying on a rank, in the order of its receives: the
buffer of every send is copied into the buffer of the matching receive. -/
def incoming (rounds : Nat → Round) (heap : Nat → Heap) (rank : Nat) : List Write :=
  (deliveries (fun peer => (rounds peer).calls.map (Call.direct (heap peer))) rank).map
    fun pair => ⟨pair.1, pair.2⟩

/-- How a rank uses its communication buffers in a group: one for every call,
apart from all other memory in use, filled before a send and emptied after a
receive, and freed as it was allocated. -/
structure Conserved
    (round : Round)
    (placed : List Placement)
    (operations : List Operation)
    (issued : List Command) : Prop where
  calls : placed.map Placement.call = round.calls
  operations : operations = placed.map Placement.operation
  allocated : issued.filterMap Command.allocated = placed.map Placement.region
  apart : (placed.map Placement.region).Pairwise Region.Apart
  fresh : ∀ region ∈ placed.map Placement.region, ∀ other ∈ round.live, region.Apart other
  copied : issued.filterMap Command.copied =
    placed.filterMap Placement.copyIn ++ placed.filterMap Placement.copyOut
  deallocated : issued.filterMap Command.deallocated = placed.map Placement.region

/-- A group has had the effect of direct copying on a rank. -/
structure DirectCopy
    (n : Nat)
    (rounds : Nat → Round)
    (before after : Nat → NCCLCommunicator)
    (rank : Nat) : Prop where
  /-- The caller's memory is as after direct copying. -/
  heap : ∀ region ∈ (rounds rank).live, ∀ address, region.Covers address →
    (after rank).device.heap address =
      contentAt (before rank).device.heap
        (incoming rounds (fun peer => (before peer).device.heap) rank) address
  /-- The bytes written are exactly those of the buffers passed to `recv`. -/
  exact : (incoming rounds (fun peer => (before peer).device.heap) rank).map
      (fun write => (write.start, write.bytes.length)) =
    ((rounds rank).calls.filter Call.receives).map fun call => (call.buf, call.bytes)
  /-- Both sides of every transfer use the same padded size. -/
  padded : ∀ peer, peer < n →
    (after rank).operations.filterMap (Operation.sizeTo peer) =
      (after peer).operations.filterMap (Operation.sizeFrom rank)
  live : (after rank).device.live = (rounds rank).live
  conserved : ∃ placed issued,
    (after rank).device.commands = (before rank).device.commands ++ issued ∧
      Conserved (rounds rank) placed (after rank).operations issued

/-- The states after successive groups: each group has had the effect of direct
copying on every rank. -/
def DirectCopies (n : Nat) :
    List (Nat → Round) → (Nat → NCCLCommunicator) → (Nat → List NCCLCommunicator) → Prop
  | [], _, results => ∀ rank, rank < n → results rank = []
  | rounds :: rest, self, results =>
      ∃ after later, (∀ rank, rank < n → results rank = after rank :: later rank) ∧
        (∀ rank, rank < n →
          DirectCopy n rounds (fun peer => (rounds peer).prepare (self peer)) after rank) ∧
        DirectCopies n rest after later

/-- A loop over the indices of a list that looks up its items. -/
theorem foldlM_range_getElem?
    {σ α : Type}
    (items : List α)
    {byIndex : σ → Nat → Option σ}
    {byItem : σ → α → Option σ}
    (agree : ∀ index item, items[index]? = some item → ∀ state,
      byIndex state index = byItem state item)
    (state : σ) :
    (List.range items.length).foldlM byIndex state = items.foldlM byItem state := by
  induction items using List.reverseRecOn generalizing state with
  | nil => rfl
  | append_singleton items last inductionHypothesis =>
      have earlier := inductionHypothesis (fun index item found state =>
        agree index item (by
          rw [List.getElem?_append_left (List.getElem?_eq_some_iff.mp found).1]
          exact found) state) state
      have final : ∀ state, byIndex state items.length = byItem state last :=
        agree items.length last (by simp)
      rw [List.length_append, List.length_singleton, List.range_succ, List.foldlM_append,
        List.foldlM_append, earlier]
      simp only [List.foldlM_cons, List.foldlM_nil, final]

namespace Staged

variable {before state : NCCLCommunicator} {placed : List Placement}

/-- The first loop of `stop` copies every receive out of its own buffer. -/
theorem copy_received
    (staged : Staged before placed state)
    (cuda : Cuda) :
    NCCLCommunicator.copy_received { state with device := cuda } =
      some (cuda.copyAll ((placed.filter fun placement => placement.call.receives).map
        fun placement =>
          (placement.call.buf, placement.buffer, placement.call.bytes))) := by
  have counted : state.recv_buffers.length = (recvs placed).length := by
    rw [staged.recv_buffers, List.length_map]
  have loop : NCCLCommunicator.copy_received { state with device := cuda } =
      (recvs placed).foldlM (fun (device : Cuda) entry => some
        (device.memcpy entry.1.call.buf entry.1.buffer entry.1.call.bytes)) cuda := by
    unfold NCCLCommunicator.copy_received
    change (List.range state.recv_buffers.length).foldlM _ cuda = _
    rw [counted]
    apply foldlM_range_getElem?
    intro index entry found device
    obtain ⟨place, _⟩ := getElem?_of_mem_recvs (List.mem_of_getElem? found)
    simp only [staged.recv_buffer_idx, staged.recv_buffers, staged.comm_buffers,
      staged.comm_buffer_sizes, List.getElem?_map, found, place, Option.map_some,
      Option.bind_eq_bind, Option.bind_some]
  rw [loop, ← map_fst_recvs, List.map_map, Cuda.copyAll, List.foldl_map]
  exact List.foldlM_pure

/-- The second loop of `stop` frees every communication buffer. -/
theorem deallocate_buffers
    (staged : Staged before placed state)
    (sizes : ∀ placement ∈ placed,
      aligned_buffer_size placement.call.bytes = padded placement.call.bytes)
    (device cuda : Cuda)
    (used : cuda.live = state.device.live) :
    NCCLCommunicator.deallocate_buffers { state with device := device } cuda =
      some
        { cuda with
          live := before.device.live
          commands := cuda.commands ++ (placed.map Placement.region).map .deallocate } := by
  have counted : state.comm_buffers.length = placed.length := by
    rw [staged.comm_buffers, List.length_map]
  have loop : NCCLCommunicator.deallocate_buffers { state with device := device } cuda =
      placed.foldlM (fun (device : Cuda) placement => device.deallocate placement.region)
        cuda := by
    unfold NCCLCommunicator.deallocate_buffers
    change (List.range state.comm_buffers.length).foldlM _ cuda = _
    rw [counted]
    apply foldlM_range_getElem?
    intro index placement found device
    have size := sizes placement (List.mem_of_getElem? found)
    simp only [staged.comm_buffers, staged.comm_buffer_sizes, List.getElem?_map, found,
      Option.map_some, Option.bind_eq_bind, Option.bind_some, size]
    rfl
  rw [loop, ← Cuda.foldlM_deallocate (placed.map Placement.region) cuda
    (used.trans staged.live), List.foldlM_map]

/-- What `stop` does once the messages have arrived in memory. -/
theorem settle
    (staged : Staged before placed state)
    (heap : Heap)
    (sizes : ∀ placement ∈ placed,
      aligned_buffer_size placement.call.bytes = padded placement.call.bytes)
    (within : ∀ placement ∈ placed,
      (Region.mk placement.call.buf placement.call.bytes).Within before.device.live) :
    NCCLCommunicator.settle { state with device := { state.device with heap := heap } } =
      some { state with
        device :=
          { heap := heap.writeAll
              ((placed.filter fun placement => placement.call.receives).map fun placement =>
                ⟨placement.call.buf, heap.read placement.buffer placement.call.bytes⟩)
            live := before.device.live
            commands := state.device.commands ++
              (placed.filter fun placement => placement.call.receives).map (fun placement =>
                .memcpy placement.call.buf placement.buffer placement.call.bytes) ++
              (placed.map Placement.region).map .deallocate } } := by
  let cuda : Cuda := { state.device with heap := heap }
  have untouched : ∀ copy ∈ (placed.filter fun placement => placement.call.receives).map
        (fun placement => (placement.call.buf, placement.buffer, placement.call.bytes)),
      ∀ other ∈ (placed.filter fun placement => placement.call.receives).map
        (fun placement => (placement.call.buf, placement.buffer, placement.call.bytes)),
      (Region.mk copy.2.1 copy.2.2).Apart ⟨other.1, other.2.2⟩ := by
    intro copy copyMember other otherMember address covers target
    obtain ⟨placement, member, rfl⟩ := List.mem_map.mp copyMember
    obtain ⟨peer, peerMember, rfl⟩ := List.mem_map.mp otherMember
    obtain ⟨region, regionMember, owns⟩ :=
      within peer (List.mem_of_mem_filter peerMember) address target
    exact staged.fresh placement (List.mem_of_mem_filter member) region regionMember address
      (covers.mono (le_padded placement.call.bytes)) owns
  have performed := cuda.copyAll_eq untouched
  rw [List.map_map, List.map_map] at performed
  have freed := staged.deallocate_buffers sizes cuda _ (by rw [performed] :
    (cuda.copyAll _).live = state.device.live)
  unfold NCCLCommunicator.settle
  rw [staged.copy_received cuda, Option.bind_eq_bind, Option.bind_some, freed, performed]
  rfl

end Staged

/-- A call with its communication buffer as a message or a receive. A message
names the rank it comes from. -/
def Placement.action
    (rank : Nat)
    (placement : Placement) : Action (.single (Nat × Placement) Placement) () :=
  match placement.call with
  | .send _ _ _ dest => .send dest (rank, placement)
  | .recv _ _ _ source => .post source placement

/-- The receives of a rank are those among its calls. -/
theorem receives_map_action (rank : Nat) (placed : List Placement) :
    (receives (placed.map (Placement.action rank))).map (·.2) =
      placed.filter fun placement => placement.call.receives := by
  induction placed with
  | nil => rfl
  | cons placement rest inductionHypothesis =>
      obtain ⟨call, buffer⟩ := placement
      cases call with
      | send buf count element_size dest => exact inductionHypothesis
      | recv buf count element_size source =>
          exact congrArg _ inductionHypothesis

/-- All ranks have made the calls of a group. -/
structure Enqueued
    (n : Nat)
    (rounds : Nat → Round)
    (before state : Nat → NCCLCommunicator)
    (placed : Nat → List Placement) : Prop where
  owned : ∀ rank, (before rank).device.live = (rounds rank).live
  calls : ∀ rank, (placed rank).map Placement.call = (rounds rank).calls
  staged : ∀ rank, Staged (before rank) (placed rank) (state rank)
  agrees : Agrees n Call.bytes Call.bytes fun rank => (rounds rank).calls.map Call.action

namespace Enqueued

variable {rounds : Nat → Round} {before state : Nat → NCCLCommunicator}
  {placed : Nat → List Placement}

/-- The calls of all ranks with their communication buffers. -/
def exchange
    (placed : Nat → List Placement)
    (rank : Nat) : List (Action (.single (Nat × Placement) Placement) ()) :=
  (placed rank).map (Placement.action rank)

/-- The actions of all ranks when the group ends. -/
def launched
    (state : Nat → NCCLCommunicator)
    (rank : Nat) : List (Action nccl ()) :=
  (state rank).operations.map (Operation.action (state rank).device.heap)

/-- The memory of a rank once its messages have arrived. -/
def landing (state : Nat → NCCLCommunicator) (rank : Nat) : Heap :=
  (state rank).device.heap.writeAll ((deliveries (launched state) rank).map landed)

/-- The bytes that a communication buffer sends. -/
def payload (state : Nat → NCCLCommunicator) (message : Nat × Placement) : List Byte :=
  (state message.1).device.heap.read message.2.buffer (padded message.2.call.bytes)

theorem mem_calls
    (enqueued : Enqueued n rounds before state placed)
    {rank : Nat}
    {placement : Placement}
    (member : placement ∈ placed rank) :
    placement.call ∈ (rounds rank).calls := by
  rw [← enqueued.calls rank]
  exact List.mem_map_of_mem member

theorem exchange_agrees (enqueued : Enqueued n rounds before state placed) :
    Agrees n (fun message : Nat × Placement => message.2.call.bytes)
      (fun placement : Placement => placement.call.bytes) (exchange placed) := by
  let plain : Action (.single (Nat × Placement) Placement) () →
      Action (.single Call Call) () :=
    Action.map (fun message => message.2.call) Placement.call
  have renamed : (fun rank => (rounds rank).calls.map Call.action) =
      fun rank => (exchange placed rank).map plain := by
    funext rank
    rw [← enqueued.calls rank, exchange, List.map_map, List.map_map]
    apply List.map_congr_left
    rintro ⟨call, buffer⟩ _
    cases call <;> rfl
  have agrees := enqueued.agrees
  rw [renamed] at agrees
  exact agrees.of_map

theorem launched_eq (enqueued : Enqueued n rounds before state placed) :
    launched state = fun rank => (exchange placed rank).map
      (Action.map (payload state) Placement.region) := by
  funext rank
  rw [launched, (enqueued.staged rank).operations, exchange, List.map_map, List.map_map]
  apply List.map_congr_left
  rintro ⟨call, buffer⟩ _
  cases call <;> rfl

theorem matched (enqueued : Enqueued n rounds before state placed) :
    Matched n (launched state) := by
  rw [enqueued.launched_eq]
  exact enqueued.exchange_agrees.matched.map _ _

/-- The writes of direct copying, by the calls with their communication buffers. -/
theorem incoming_eq
    (enqueued : Enqueued n rounds before state placed)
    (heap : Nat → Heap)
    (rank : Nat) :
    incoming rounds heap rank =
      (deliveries (exchange placed) rank).map fun pair =>
        ⟨pair.1.call.buf, (heap pair.2.1).read pair.2.2.call.buf pair.2.2.call.bytes⟩ := by
  let direct : Action (.single (Nat × Placement) Placement) () →
      Action (.single (List Byte) Int) () :=
    Action.map
      (fun message => (heap message.1).read message.2.call.buf message.2.call.bytes)
      (fun placement => placement.call.buf)
  have renamed : (fun peer => (rounds peer).calls.map (Call.direct (heap peer))) =
      fun peer => (exchange placed peer).map direct := by
    funext peer
    rw [← enqueued.calls peer, exchange, List.map_map, List.map_map]
    apply List.map_congr_left
    rintro ⟨call, buffer⟩ _
    cases call <;> rfl
  rw [incoming, renamed, deliveries_map, List.map_map]
  rfl

/-- The receives of a rank that get a message are all of them. -/
theorem deliveries_receives
    (enqueued : Enqueued n rounds before state placed)
    {rank : Nat}
    (rankBound : rank < n) :
    (deliveries (exchange placed) rank).map (·.1) =
      (placed rank).filter fun placement => placement.call.receives := by
  rw [enqueued.exchange_agrees.matched.deliveries_fst rankBound]
  exact receives_map_action rank (placed rank)

/-- What is written when the messages of a rank arrive. -/
theorem landed_writes
    (enqueued : Enqueued n rounds before state placed)
    (rank : Nat) :
    (deliveries (launched state) rank).map landed =
      (deliveries (exchange placed) rank).map fun pair =>
        ⟨pair.1.buffer, (payload state pair.2).take (padded pair.1.call.bytes)⟩ := by
  rw [enqueued.launched_eq, deliveries_map, List.map_map]
  rfl

/-- A receive with a matching message. -/
theorem of_mem_deliveries
    (enqueued : Enqueued n rounds before state placed)
    {rank : Nat}
    (rankBound : rank < n)
    {pair : Placement × Nat × Placement}
    (member : pair ∈ deliveries (exchange placed) rank) :
    pair.1 ∈ placed rank ∧ pair.2.2 ∈ placed pair.2.1 ∧ pair.2.2.call.receives = false ∧
      pair.2.2.call.bytes = pair.1.call.bytes := by
  have same := enqueued.exchange_agrees.expected_eq rankBound member
  obtain ⟨source, posted, sent⟩ := mem_deliveries member
  obtain ⟨placement, placedMember, posts⟩ := List.mem_map.mp posted
  obtain ⟨message, messageMember, sends⟩ := List.mem_map.mp sent
  obtain ⟨call, buffer⟩ := placement
  obtain ⟨other, otherBuffer⟩ := message
  cases call with
  | send buf count element_size dest => simp [Placement.action] at posts
  | recv buf count element_size peer =>
      cases other with
      | recv otherBuf otherCount otherSize otherPeer => simp [Placement.action] at sends
      | send otherBuf otherCount otherSize dest =>
          simp only [Placement.action, Action.post.injEq, Action.send.injEq] at posts sends
          rw [← posts.2, ← sends.2] at same ⊢
          exact ⟨placedMember, messageMember, rfl, same⟩

/-- Arriving messages do not meet. -/
theorem landed_apart
    (enqueued : Enqueued n rounds before state placed)
    {rank : Nat}
    (rankBound : rank < n) :
    ((deliveries (launched state) rank).map landed).Pairwise fun write other =>
      ∀ address, write.Covers address → ¬ other.Covers address := by
  have apart := (enqueued.staged rank).apart.sublist
    (List.filter_sublist (p := fun placement : Placement => placement.call.receives))
  rw [← enqueued.deliveries_receives rankBound, List.pairwise_map] at apart
  rw [enqueued.landed_writes, List.pairwise_map]
  refine apart.imp fun {pair other} regions address covers meets => ?_
  have inside : ∀ entry : Placement × Nat × Placement,
      (Write.mk entry.1.buffer
        ((payload state entry.2).take (padded entry.1.call.bytes))).Covers address →
      entry.1.region.Covers address := by
    intro entry covered
    exact Region.covers_of_write covered (List.length_take_le _ _)
  exact regions address (inside pair covers) (inside other meets)

/-- Once the messages have arrived, the communication buffer of a receive has the
bytes of the matching send. -/
theorem read_landing
    (enqueued : Enqueued n rounds before state placed)
    {rank : Nat}
    (rankBound : rank < n)
    {pair : Placement × Nat × Placement}
    (member : pair ∈ deliveries (exchange placed) rank) :
    (landing state rank).read pair.1.buffer pair.1.call.bytes =
      (before pair.2.1).device.heap.read pair.2.2.call.buf pair.2.2.call.bytes := by
  obtain ⟨_, placedMember, sends, same⟩ := enqueued.of_mem_deliveries rankBound member
  have written : (⟨pair.1.buffer, (payload state pair.2).take (padded pair.1.call.bytes)⟩ :
      Write) ∈ (deliveries (launched state) rank).map landed := by
    rw [enqueued.landed_writes]
    exact List.mem_map_of_mem member
  have larger := le_padded pair.1.call.bytes
  have size : (payload state pair.2).length = padded pair.1.call.bytes := by
    rw [payload, Heap.length_read, same]
  have enough : pair.1.call.bytes ≤
      ((payload state pair.2).take (padded pair.1.call.bytes)).length := by
    rw [List.length_take, size, Nat.min_self]
    exact larger
  calc
    (landing state rank).read pair.1.buffer pair.1.call.bytes =
        ((payload state pair.2).take (padded pair.1.call.bytes)).take pair.1.call.bytes :=
      Heap.read_writeAll _ (enqueued.landed_apart rankBound) written enough
    _ = (payload state pair.2).take pair.2.2.call.bytes := by
      rw [List.take_take, Nat.min_eq_left larger, same]
    _ = (state pair.2.1).device.heap.read pair.2.2.buffer pair.2.2.call.bytes :=
      Heap.take_read _ _ (le_padded pair.2.2.call.bytes)
    _ = (before pair.2.1).device.heap.read pair.2.2.call.buf pair.2.2.call.bytes :=
      (enqueued.staged pair.2.1).copied pair.2.2 placedMember sends

/-- Arriving messages do not touch the memory of the caller. -/
theorem landing_owned
    (enqueued : Enqueued n rounds before state placed)
    {rank : Nat}
    (rankBound : rank < n)
    {region : Region}
    (member : region ∈ (rounds rank).live)
    {address : Int}
    (covers : region.Covers address) :
    landing state rank address = (before rank).device.heap address := by
  rw [← enqueued.owned rank] at member
  rw [← (enqueued.staged rank).owned member covers]
  apply Heap.writeAll_of_not_covers
  intro write writeMember meets
  rw [enqueued.landed_writes] at writeMember
  obtain ⟨pair, pairMember, rfl⟩ := List.mem_map.mp writeMember
  obtain ⟨receives, _⟩ := enqueued.of_mem_deliveries rankBound pairMember
  exact (enqueued.staged rank).fresh pair.1 receives region member address
    (Region.covers_of_write meets (List.length_take_le _ _)) covers

/-- The state of a rank after `stop`. -/
def after
    (before state : Nat → NCCLCommunicator)
    (placed : Nat → List Placement)
    (rank : Nat) : NCCLCommunicator :=
  { state rank with
    device :=
      { heap := (landing state rank).writeAll
          (((placed rank).filter fun placement => placement.call.receives).map fun placement =>
            ⟨placement.call.buf,
              (landing state rank).read placement.buffer placement.call.bytes⟩)
        live := (before rank).device.live
        commands := (state rank).device.commands ++
          ((placed rank).filter fun placement => placement.call.receives).map (fun placement =>
            .memcpy placement.call.buf placement.buffer placement.call.bytes) ++
          ((placed rank).map Placement.region).map .deallocate } }

/-- All ranks stop. -/
theorem stop_phase
    {eager : Eagerness nccl}
    (enqueued : Enqueued n rounds before state placed) :
    ∃ events, Phase n eager (Arrivals.none nccl) (fun rank => (state rank).stop)
      (Arrivals.none nccl) (.ok (after before state placed)) events := by
  have transferred : Phase n eager (Arrivals.none nccl) _ (Arrivals.none nccl)
      (.ok (deliveries (launched state))) _ := Phase.perform_await enqueued.matched rfl
  have arrived := transferred.map fun rank (arrivals : List (Region × List Byte)) =>
    { state rank with
      device := { (state rank).device with
        heap := (state rank).device.heap.writeAll (arrivals.map landed) } }
  have settled : ∀ rank, NCCLCommunicator.settle
      { state rank with
        device := { (state rank).device with heap := landing state rank } } =
      some (after before state placed rank) := by
    intro rank
    apply (enqueued.staged rank).settle
    · intro placement member
      obtain ⟨nonneg, small⟩ := (rounds rank).bytes_le (enqueued.mem_calls member)
      exact (sizes_eq nonneg small).2.2
    · intro placement member
      rw [enqueued.owned]
      exact ((rounds rank).valid placement.call (enqueued.mem_calls member)).within
  refine ⟨_, arrived.bind (?_ : Phase n eager (Arrivals.none nccl) _ (Arrivals.none nccl)
    (.ok (after before state placed)) fun _ => [])⟩
  unfold landing at settled
  simp only [settled]
  exact Phase.pure _

/-- The copies out of the communication buffers are those of direct copying. -/
theorem writes_eq_incoming
    (enqueued : Enqueued n rounds before state placed)
    {rank : Nat}
    (rankBound : rank < n) :
    (((placed rank).filter fun placement => placement.call.receives).map fun placement =>
        (⟨placement.call.buf,
          (landing state rank).read placement.buffer placement.call.bytes⟩ : Write)) =
      incoming rounds (fun peer => (before peer).device.heap) rank := by
  rw [enqueued.incoming_eq, ← enqueued.deliveries_receives rankBound, List.map_map]
  apply List.map_congr_left
  intro pair member
  rw [Function.comp_apply, enqueued.read_landing rankBound member]

/-- The sizes that a rank passes to NCCL for a peer. -/
theorem filterMap_sizeTo (rank peer : Nat) (placed : List Placement) :
    (placed.map Placement.operation).filterMap (Operation.sizeTo peer) =
      (messagesTo peer (placed.map (Placement.action rank))).map
        fun message => padded message.2.call.bytes := by
  unfold messagesTo
  rw [List.filterMap_map, List.filterMap_map, List.map_filterMap]
  apply List.filterMap_congr
  rintro ⟨call, buffer⟩ _
  cases call with
  | recv buf count element_size source => rfl
  | send buf count element_size dest =>
      by_cases same : dest = peer
      · simp [same, Placement.operation, Call.operation, Operation.sizeTo, Placement.action,
          Action.messageTo]
      · simp [same, Placement.operation, Call.operation, Operation.sizeTo, Placement.action,
          Action.messageTo]

/-- The sizes that a rank expects through NCCL from a peer. -/
theorem filterMap_sizeFrom (rank peer : Nat) (placed : List Placement) :
    (placed.map Placement.operation).filterMap (Operation.sizeFrom peer) =
      ((receives (placed.map (Placement.action rank))).filter
        fun item => item.1 = peer).map fun item => padded item.2.call.bytes := by
  induction placed with
  | nil => rfl
  | cons placement rest inductionHypothesis =>
      obtain ⟨call, buffer⟩ := placement
      cases call with
      | send buf count element_size dest => exact inductionHypothesis
      | recv buf count element_size source =>
          by_cases same : source = peer
          · simpa [same, Placement.operation, Call.operation, Operation.sizeFrom,
              Placement.action] using inductionHypothesis
          · simpa [same, Placement.operation, Call.operation, Operation.sizeFrom,
              Placement.action] using inductionHypothesis

/-- What the calls of a group ask of the device. -/
theorem filterMap_commands (placed : List Placement) :
    (placed.flatMap Placement.commands).filterMap Command.allocated =
        placed.map Placement.region ∧
      (placed.flatMap Placement.commands).filterMap Command.copied =
        placed.filterMap Placement.copyIn ∧
      (placed.flatMap Placement.commands).filterMap Command.deallocated = [] := by
  induction placed with
  | nil => exact ⟨rfl, rfl, rfl⟩
  | cons placement rest inductionHypothesis =>
      obtain ⟨allocated, copied, deallocated⟩ := inductionHypothesis
      simp only [List.flatMap_cons, List.filterMap_append, allocated, copied, deallocated]
      unfold Placement.commands
      cases found : placement.copyIn with
      | none =>
          rw [List.filterMap_cons_none found]
          exact ⟨rfl, rfl, rfl⟩
      | some copy =>
          rw [List.filterMap_cons_some found]
          exact ⟨rfl, rfl, rfl⟩

/-- What `stop` asks of the device. -/
theorem filterMap_stop_commands (placed : List Placement) :
    let copies : List Command :=
      (placed.filter fun placement => placement.call.receives).map fun placement =>
        .memcpy placement.call.buf placement.buffer placement.call.bytes
    let frees : List Command := (placed.map Placement.region).map .deallocate
    (copies.filterMap Command.allocated = [] ∧ copies.filterMap Command.deallocated = [] ∧
      copies.filterMap Command.copied =
        placed.filterMap Placement.copyOut) ∧
      frees.filterMap Command.allocated = [] ∧ frees.filterMap Command.copied = [] ∧
      frees.filterMap Command.deallocated = placed.map Placement.region := by
  refine ⟨⟨?_, ?_, ?_⟩, ?_, ?_, ?_⟩
  · simp [List.filterMap_map, Function.comp_def, Command.allocated]
  · simp [List.filterMap_map, Function.comp_def, Command.deallocated]
  · rw [List.filterMap_map, List.filterMap_filter]
    apply List.filterMap_congr
    intro placement _
    rfl
  · simp [List.filterMap_map, Function.comp_def, Command.allocated]
  · simp [List.filterMap_map, Function.comp_def, Command.copied]
  · simp [List.filterMap_map, Function.comp_def, Command.deallocated]

/-- The communication buffers of a rank are used as they should be. -/
theorem conserved
    (enqueued : Enqueued n rounds before state placed)
    (rank : Nat) :
    Conserved (rounds rank) (placed rank) (state rank).operations
      ((placed rank).flatMap Placement.commands ++
        ((placed rank).filter fun placement => placement.call.receives).map (fun placement =>
          .memcpy placement.call.buf placement.buffer placement.call.bytes) ++
        ((placed rank).map Placement.region).map .deallocate) where
  calls := enqueued.calls rank
  operations := (enqueued.staged rank).operations
  allocated := by
    obtain ⟨⟨copies, _, _⟩, frees, _, _⟩ := filterMap_stop_commands (placed rank)
    rw [List.filterMap_append, List.filterMap_append, (filterMap_commands (placed rank)).1,
      copies, frees, List.append_nil, List.append_nil]
  apart := List.pairwise_map.mpr (enqueued.staged rank).apart
  fresh := by
    intro region member other otherMember
    obtain ⟨placement, placedMember, rfl⟩ := List.mem_map.mp member
    rw [← enqueued.owned rank] at otherMember
    exact (enqueued.staged rank).fresh placement placedMember other otherMember
  copied := by
    obtain ⟨⟨_, _, copies⟩, _, frees, _⟩ := filterMap_stop_commands (placed rank)
    rw [List.filterMap_append, List.filterMap_append, (filterMap_commands (placed rank)).2.1,
      copies, frees, List.append_nil]
  deallocated := by
    obtain ⟨⟨_, copies, _⟩, _, _, frees⟩ := filterMap_stop_commands (placed rank)
    rw [List.filterMap_append, List.filterMap_append, (filterMap_commands (placed rank)).2.2,
      copies, frees, List.append_nil, List.nil_append]

/-- The group has had the effect of direct copying. -/
theorem directCopy
    (enqueued : Enqueued n rounds before state placed)
    {rank : Nat}
    (rankBound : rank < n) :
    DirectCopy n rounds before (after before state placed) rank where
  heap := by
    intro region member address covers
    have unread := enqueued.landing_owned rankBound member covers
    change (landing state rank).writeAll _ address = _
    rw [enqueued.writes_eq_incoming rankBound, Heap.writeAll_apply, contentAt, unread]
    rfl
  exact := by
    rw [enqueued.incoming_eq, ← enqueued.calls rank, List.filter_map, List.map_map,
      List.map_map]
    change _ = ((placed rank).filter fun placement => placement.call.receives).map _
    rw [← enqueued.deliveries_receives rankBound, List.map_map]
    apply List.map_congr_left
    intro pair member
    obtain ⟨_, _, _, same⟩ := enqueued.of_mem_deliveries rankBound member
    simp only [Function.comp_apply, Heap.length_read, same]
  padded := by
    intro peer peerBound
    change (state rank).operations.filterMap _ = (state peer).operations.filterMap _
    rw [(enqueued.staged rank).operations, (enqueued.staged peer).operations,
      filterMap_sizeTo rank, filterMap_sizeFrom peer]
    have agree := congrArg (List.map padded)
      (enqueued.exchange_agrees.agree rank peer rankBound peerBound)
    rw [List.map_map, List.map_map] at agree
    exact agree
  live := enqueued.owned rank
  conserved := by
    refine ⟨placed rank, _, ?_, enqueued.conserved rank⟩
    change (state rank).device.commands ++ _ ++ _ = _
    rw [(enqueued.staged rank).commands]
    simp only [List.append_assoc]

end Enqueued

/-- A group of all ranks has the effect of direct copying. -/
theorem Round.group_phase
    {eager : Eagerness nccl}
    (rounds : Nat → Round)
    (allocator : Nat → Allocator)
    {before : Nat → NCCLCommunicator}
    (owned : ∀ rank, (before rank).device.live = (rounds rank).live)
    (agrees : Agrees n Call.bytes Call.bytes fun rank =>
      (rounds rank).calls.map Call.action) :
    ∃ after events, Phase n eager (Arrivals.none nccl)
        (fun rank => (rounds rank).group (allocator rank) (before rank))
        (Arrivals.none nccl) (.ok after) events ∧
      ∀ rank, rank < n → DirectCopy n rounds before after rank := by
  have calls := fun rank => (rounds rank).staged (allocator rank) (owned rank)
  choose placed same staged using calls
  have enqueued : Enqueued n rounds before
      (fun rank => (rounds rank).calls.foldl (Call.perform (allocator rank)) (before rank).start)
      placed := ⟨owned, same, staged, agrees⟩
  obtain ⟨events, phase⟩ : ∃ events, Phase n eager _ _ _ _ events := enqueued.stop_phase
  exact ⟨_, events, phase, fun rank rankBound => enqueued.directCopy rankBound⟩

/-- Any number of successive groups have the effect of direct copying. -/
theorem groups_phase
    {eager : Eagerness nccl}
    (allocator : Nat → Allocator)
    {rounds : List (Nat → Round)}
    (agrees : ∀ round ∈ rounds, Agrees n Call.bytes Call.bytes fun rank =>
      (round rank).calls.map Call.action)
    (self : Nat → NCCLCommunicator) :
    ∃ results events, Phase n eager (Arrivals.none nccl)
        (fun rank => groups (allocator rank) (rounds.map fun round => round rank) (self rank))
        (Arrivals.none nccl) (.ok results) events ∧
      DirectCopies n rounds self results := by
  induction rounds generalizing self with
  | nil => exact ⟨fun _ => [], _, Phase.pure _, fun _ _ => rfl⟩
  | cons round rest inductionHypothesis =>
      have groupPhase : ∃ after events, Phase n eager (Arrivals.none nccl)
          (fun rank => (round rank).group (allocator rank) ((round rank).prepare (self rank)))
          (Arrivals.none nccl) (.ok after) events ∧ _ :=
        Round.group_phase round allocator (fun _ => rfl) (agrees round (by simp))
      obtain ⟨after, events, first, copied⟩ := groupPhase
      obtain ⟨later, laterEvents, second, copies⟩ :=
        inductionHypothesis (fun other member => agrees other (by simp [member])) after
      refine ⟨fun rank => after rank :: later rank, _,
        first.bind (second.map fun rank tail => after rank :: tail), ?_⟩
      exact ⟨after, later, fun _ _ => rfl, copied, copies⟩

/-- The NCCL communicator refines direct copying: for any number of successive
groups, whatever order the ranks run in, all groups complete, and each leaves the
memory of the callers as copying every sent buffer into the buffer of the matching
receive does. -/
theorem nccl_refines_direct_copying
    (eager : Eagerness nccl)
    (allocator : Nat → Allocator)
    (rounds : List (Nat → Round))
    (agrees : ∀ round ∈ rounds, Agrees n Call.bytes Call.bytes fun rank =>
      (round rank).calls.map Call.action)
    (self : Nat → NCCLCommunicator) :
    ∃ results,
      Returns n eager
        (fun rank => groups (allocator rank) (rounds.map fun round => round rank) (self rank))
        results ∧
      DirectCopies n rounds self results := by
  obtain ⟨results, events, phase, copies⟩ : ∃ results events,
      Phase n eager _ _ _ (.ok results) events ∧ DirectCopies n rounds self results :=
    groups_phase allocator agrees self
  exact ⟨results, (Settles.of_returning phase).returns, copies⟩

/-- An allocator that places every region beyond those in use. -/
def bumpAllocator : Allocator where
  place := fun _ live _ =>
    ((live.map fun region => region.start.toNat + region.size).sum : Nat)
  fresh := by
    intro _ live size region member address covers used
    have bound : region.start.toNat + region.size ≤
        (live.map fun region => region.start.toNat + region.size).sum :=
      Multiset.single_le_sum (fun _ _ => Nat.zero_le _) _ (Multiset.mem_map_of_mem _ member)
    have above := covers.1
    have below := used.2
    simp only at above
    omega

/-- Rank 0 sends three elements of four bytes to rank 1, which receives them as
twelve elements of one byte, and two bytes to itself. -/
def twoSends (rank : Nat) : Round where
  compute := id
  live := {⟨0, 64⟩}
  calls :=
    if rank = 0 then [.send 0 3 4 1, .send 0 1 2 0, .recv 20 2 1 0]
    else if rank = 1 then [.recv 4 12 1 0]
    else []
  addressable := by
    intro region member
    obtain rfl := Multiset.mem_singleton.mp member
    decide
  valid := by
    intro call member
    have inside : 0 ≤ call.count ∧ 0 ≤ call.element_size ∧ 0 ≤ call.buf ∧
        call.buf + call.bytes ≤ 64 := by
      split at member
      · revert call
        decide
      · split at member
        · revert call
          decide
        · simp at member
    obtain ⟨count_nonneg, element_size_nonneg, above, below⟩ := inside
    refine ⟨count_nonneg, element_size_nonneg, fun address covers => ?_⟩
    exact ⟨⟨0, 64⟩, Multiset.mem_singleton_self _, above.trans covers.1,
      covers.2.trans_le below⟩

theorem agrees_twoSends :
    Agrees 2 Call.bytes Call.bytes fun rank => (twoSends rank).calls.map Call.action where
  bounded := by
    intro rank rankBound action member
    interval_cases rank
    · simp only [twoSends, if_true, List.map_cons, List.map_nil, List.mem_cons, List.not_mem_nil,
        or_false] at member
      obtain rfl | rfl | rfl := member <;> decide
    · obtain rfl := List.mem_singleton.mp member
      exact Nat.two_pos
  agree := by
    intro source dest sourceBound destBound
    interval_cases source <;> interval_cases dest <;> rfl

/-- A communicator that has not been used, on a device with cleared memory. -/
def idleNccl : NCCLCommunicator where
  comm_buffers := []
  comm_buffer_sizes := []
  recv_buffers := []
  recv_buffer_idx := []
  operations := []
  device := { heap := fun _ => 0, live := 0, commands := [] }

theorem nccl_refines_direct_copying_twice :
    ∃ results,
      Returns 2 (fun _ _ _ _ => false)
        (fun rank => groups bumpAllocator [twoSends rank, twoSends rank] idleNccl)
        results ∧
      DirectCopies 2 [twoSends, twoSends] (fun _ => idleNccl) results :=
  nccl_refines_direct_copying (fun _ _ _ _ => false) (fun _ => bumpAllocator)
    [twoSends, twoSends]
    (by
      intro round member
      have same : round = twoSends := by simpa using member
      rw [same]
      exact agrees_twoSends)
    fun _ => idleNccl

end DistributedJoin
