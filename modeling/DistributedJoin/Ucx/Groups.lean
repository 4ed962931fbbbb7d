import DistributedJoin.Ucx.Exhaustion
import DistributedJoin.Ucx.Recycling

/-!
# Groups of sends and receives

`start` and `stop` of `MPILikeCommunicator` on the buffered communicator. In a group a rank
sends to different ranks and receives from different ranks. With two buffers for every rank no
call runs out of buffers, and when the group has stopped all buffers are back in the queue.
-/

namespace DistributedJoin

namespace Ucx

open Device

namespace Call

/-- The rank that makes a call. -/
def self : Call → Nat
  | .send self _ _ _ _ _ _ _ => self
  | .recv self _ _ _ _ _ _ => self

/-- The rank that is sent to or received from. -/
def peer : Call → Nat
  | .send _ _ _ _ dest _ _ _ => dest
  | .recv _ _ _ source _ _ _ => source

end Call

/-- What a rank knows of its group. -/
structure Group where
  in_group : Bool
  pending_requests : List Handle
  /-- The ranks that have been sent to in the group. -/
  dests : List Nat
  /-- The ranks that have been received from in the group. -/
  sources : List Nat

namespace Group

/-- `MPILikeCommunicator::start` -/
def started : Group := ⟨true, [], [], []⟩

/-- `MPILikeCommunicator::send` and `recv`: what the call returns is to be waited for. -/
def push (group : Group) (call : Call) (outcome : Rank.Outcome) : Group where
  in_group := group.in_group
  pending_requests := group.pending_requests ++
    match outcome with
    | .returned handle => [handle]
    | .threw _ => []
  dests := group.dests ++
    match call with
    | .send _ _ _ _ dest _ _ _ => [dest]
    | .recv .. => []
  sources := group.sources ++
    match call with
    | .send .. => []
    | .recv _ _ _ source _ _ _ => [source]

/-- In a group a rank sends to different ranks and receives from different ranks. -/
def Allows (n : Nat) (group : Group) (call : Call) : Prop :=
  group.in_group = true ∧ call.peer < n ∧
    match call with
    | .send _ _ _ _ dest _ _ _ => dest ∉ group.dests
    | .recv _ _ _ source _ _ _ => source ∉ group.sources

end Group

/-- Ranks that communicate in groups. -/
structure Groups where
  world : World
  group : Nat → Group

namespace Groups

inductive Event
  | start (self : Nat)
  | call (call : Call)
  | stop (self : Nat)
  /-- Callbacks, progress of UCX, and changes of the caller's own memory. -/
  | other (event : World.Event)

/-- The state after an event, if it can happen. -/
def step (groups : Groups) : Event → Option Groups
  | .start self =>
      if (groups.world self).control = .user then
        some { groups with group := Function.update groups.group self .started }
      else none
  | .call call =>
      (groups.world.call call).map fun result =>
        { world := result.2
          group := Function.update groups.group call.self
            ((groups.group call.self).push call result.1) }
  | .stop self =>
      ((groups.world self).waitall (groups.group self).pending_requests).map fun rank =>
        { world := groups.world.set self rank
          group := Function.update groups.group self
            { groups.group self with in_group := false } }
  | .other event => (groups.world.step event).map fun world => { groups with world := world }

/-- Groups are started and stopped in turn, and waiting is left to `stop`. -/
def Permits (n : Nat) (groups : Groups) : Event → Prop
  | .start self => (groups.group self).in_group = false
  | .call call => (groups.group call.self).Allows n call
  | .stop self => (groups.group self).in_group = true
  | .other event => event.Internal

/-- The states that can be reached. -/
inductive Reaches (n : Nat) (start : Groups) : Groups → Prop
  | start : Reaches n start start
  | step
      {groups after : Groups}
      {event : Event}
      (reached : Reaches n start groups)
      (permitted : groups.Permits n event)
      (stepped : groups.step event = some after) :
      Reaches n start after

/-- Ranks that have set up two communication buffers for every rank. -/
def set_up
    (n : Nat)
    (heap : Nat → Heap)
    (cache_start_addr : Nat → Int)
    (buffer_size : Int) : Groups where
  world := World.set_up heap cache_start_addr (2 * n) buffer_size
  group := fun _ => ⟨false, [], [], []⟩

end Groups

/-- The communication buffers that `setup_cache` carves from its memory. -/
def carved (cache_start_addr : Int) (ncaches : Nat) (buffer_size : Int) : List Int :=
  (List.range ncaches).map fun icache : Nat => cache_start_addr + icache * buffer_size

/-- The addresses of a communication buffer. -/
def InBuffer (buffer_size buffer address : Int) : Prop :=
  buffer ≤ address ∧ address < buffer + buffer_size

/-- The number of bytes that `setup_cache` allocates and registers. -/
def allocated_size (buffer_size : Int) (ncaches : Nat) : Nat :=
  toSizeT (toInt64 (buffer_size * ncaches))

namespace Rank

/-- The number of bytes that `finalize` deallocates. -/
def finalize_size (rank : Rank) : Nat :=
  toSizeT (rank.comm_buffer_size * rank.buffer_cache.length)

/-- The buffers that operations in flight use. -/
def used_buffers (n : Nat) (rank : Rank) : Multiset Int :=
  (rank.operations n).filterMap fun operation =>
    match operation.1 with
    | .counter _ => none
    | .device start _ => some start

end Rank

section Carved

variable {buffer_size : Int} (positive : 0 < buffer_size) (cache_start_addr : Int) (ncaches : Nat)
include positive

/-- A buffer ends before the next one begins. -/
theorem carved_separate :
    (carved cache_start_addr ncaches buffer_size).Pairwise fun first second =>
      first + buffer_size ≤ second := by
  refine List.pairwise_map.mpr (List.pairwise_lt_range.imp fun {first second} before => ?_)
  have next : ((first : Int) + 1) * buffer_size ≤ second * buffer_size :=
    Int.mul_le_mul_of_nonneg_right (by omega) positive.le
  rw [Int.add_mul, one_mul] at next
  omega

theorem carved_nodup : (carved cache_start_addr ncaches buffer_size).Nodup :=
  (carved_separate positive cache_start_addr ncaches).imp fun {first second} separate same => by
    omega

/-- No address is in two buffers. -/
theorem carved_disjoint :
    (carved cache_start_addr ncaches buffer_size).Pairwise fun first second =>
      ∀ address, InBuffer buffer_size first address → ¬ InBuffer buffer_size second address := by
  refine (carved_separate positive cache_start_addr ncaches).imp fun {first second} separate => ?_
  intro address inFirst inSecond
  exact absurd (inFirst.2.trans_le separate) (not_lt.mpr inSecond.1)

/-- The buffers are inside the memory that has been registered. -/
theorem carved_inside
    {buffer : Int}
    (member : buffer ∈ carved cache_start_addr ncaches buffer_size)
    {address : Int}
    (inBuffer : InBuffer buffer_size buffer address) :
    cache_start_addr ≤ address ∧ address < cache_start_addr + buffer_size * ncaches := by
  obtain ⟨icache, range, rfl⟩ := List.mem_map.mp member
  obtain ⟨lower, upper⟩ := inBuffer
  have bound : icache < ncaches := List.mem_range.mp range
  have below : 0 ≤ (icache : Int) * buffer_size := Int.mul_nonneg (by omega) positive.le
  have above : ((icache : Int) + 1) * buffer_size ≤ ncaches * buffer_size :=
    Int.mul_le_mul_of_nonneg_right (by omega) positive.le
  rw [Int.add_mul, one_mul] at above
  rw [Int.mul_comm buffer_size]
  omega

end Carved

namespace Rank

variable {n : Nat} {buffers : List Int} {spare : List Handle} {rank : Rank}

/-- Every handle that has been returned holds a buffer, and the others are in the queue. -/
theorem Sound.length_buffer_cache (sound : rank.Sound n buffers spare) :
    rank.buffer_cache.length + rank.returned.length = buffers.length := by
  rw [← sound.conserved.length_eq, List.length_append, sound.held_buffers_eq, List.length_map]

/-- An operation in flight uses one of the carved buffers, and stays inside it. -/
theorem Sound.operation_inside
    (sound : rank.Sound n buffers spare)
    {operation : Place × Handle}
    (member : operation ∈ rank.operations n)
    {start : Int}
    {size : Nat}
    (place : operation.1 = .device start size) :
    start ∈ buffers ∧ size ≤ rank.comm_buffer_size.toNat := by
  obtain ⟨buffer, fits⟩ := sound.placed operation member start size place
  obtain ⟨orig, returned, _, same, _⟩ :=
    (sound.engaged _ (mem_active_of_operation member)).origin
  have held : start ∈ rank.held_buffers :=
    List.mem_filterMap.mpr ⟨orig, returned, same.symm.trans buffer⟩
  exact ⟨sound.conserved.mem_iff.mp (List.mem_append_right _ held), fits⟩

/-- No buffer is used by two operations in flight. -/
theorem Sound.nodup_used_buffers
    (sound : rank.Sound n buffers spare)
    (nodup : buffers.Nodup) :
    (rank.used_buffers n).Nodup := by
  have distinct : (rank.operations n).Nodup := sound.nodup_operations.of_map _
  obtain ⟨operations, same⟩ := Quot.exists_rep (rank.operations n)
  have listed : (operations : Multiset (Place × Handle)) = rank.operations n := same
  have member : ∀ operation ∈ operations, operation ∈ rank.operations n :=
    fun operation here => listed ▸ Multiset.mem_coe.mpr here
  rw [used_buffers, ← listed, Multiset.filterMap_coe, Multiset.coe_nodup]
  rw [← listed, Multiset.coe_nodup] at distinct
  refine List.pairwise_filterMap.mpr (distinct.imp_of_mem ?_)
  intro first second firstMember secondMember different start firstUses other secondUses shared
  subst shared
  apply different
  obtain ⟨firstPlace, firstHandle⟩ := first
  obtain ⟨secondPlace, secondHandle⟩ := second
  cases firstPlace with
  | counter _ => contradiction
  | device firstStart firstSize =>
      cases secondPlace with
      | counter _ => contradiction
      | device secondStart secondSize =>
          have firstStarts : firstStart = start := Option.some.inj firstUses
          have secondStarts : secondStart = start := Option.some.inj secondUses
          subst firstStarts secondStarts
          exact sound.operation_unique nodup (member _ firstMember) (member _ secondMember) rfl rfl

end Rank

/-- A call keeps the bookkeeping. It throws only without buffers. -/
theorem World.Sound.call
    {n : Nat}
    {buffers : Nat → List Int}
    {world after : World}
    {call : Call}
    {outcome : Rank.Outcome}
    (sound : world.Sound n buffers)
    (bound : call.peer < n)
    (called : world.call call = some (outcome, after)) :
    ((world call.self).buffer_cache = [] ∧ outcome = .threw "No buffered cache available") ∨
      ∃ handle record, outcome = .returned handle ∧
        World.Keeps n buffers world after (Function.update (fun rank => (world rank).returned)
          call.self ((world call.self).returned ++ [handle])) record := by
  cases call with
  | send self buf count element_size dest tag custom request =>
      obtain ⟨⟨found, rank⟩, sent, same⟩ := Option.map_eq_some_iff.mp called
      obtain ⟨rfl, rfl⟩ := Prod.mk.inj same
      rcases (sound self).send bound sent with threw | ⟨handle, returned, kept⟩
      · exact .inl threw
      · exact .inr ⟨handle, _, returned, .of_set sound kept⟩
  | recv self buffer element_size source tag request inside =>
      rcases sound.recv bound called with threw | ⟨handle, returned, kept⟩
      · exact .inl threw
      · exact .inr ⟨handle, _, returned, kept⟩

/-- Different ranks out of a number of ranks. -/
def Distinct (n : Nat) (ranks : List Nat) : Prop :=
  ranks.Nodup ∧ ∀ rank ∈ ranks, rank < n

namespace Distinct

variable {n : Nat} {ranks : List Nat} (distinct : Distinct n ranks)
include distinct

theorem length_le : ranks.length ≤ n := by
  have fewer := (distinct.1.subperm fun rank member =>
    List.mem_range.mpr (distinct.2 rank member)).length_le
  rwa [List.length_range] at fewer

variable {rank : Nat} (bound : rank < n) (fresh : rank ∉ ranks)
include bound fresh

theorem append : Distinct n (ranks ++ [rank]) := by
  refine ⟨(List.perm_append_singleton rank ranks).nodup_iff.mpr
    (List.nodup_cons.mpr ⟨fresh, distinct.1⟩), fun other member => ?_⟩
  rcases List.mem_append.mp member with before | last
  · exact distinct.2 other before
  · rw [List.mem_singleton.mp last]
    exact bound

/-- One of the ranks is missing. -/
theorem length_lt : ranks.length < n := by
  have more := (distinct.append bound fresh).length_le
  rw [List.length_append, List.length_singleton] at more
  omega

end Distinct

namespace Group

/-- The handles that a rank has returned in its group. -/
structure Sound (n : Nat) (rank : Rank) (group : Group) : Prop where
  inside : group.in_group = true → rank.returned = group.pending_requests ∧
    group.pending_requests.length = group.dests.length + group.sources.length
  outside : group.in_group = false → rank.returned = []
  dests : Distinct n group.dests
  sources : Distinct n group.sources

variable {n : Nat} {rank after : Rank} {group : Group}

/-- A group goes on when no handle is returned. -/
theorem Sound.of_returned
    (sound : group.Sound n rank)
    (returned : after.returned = rank.returned) :
    group.Sound n after where
  inside := returned ▸ sound.inside
  outside := returned ▸ sound.outside
  dests := sound.dests
  sources := sound.sources

/-- In a group that allows another call fewer than two handles for every rank are in use. -/
theorem Sound.length_returned_lt
    {call : Call}
    (sound : group.Sound n rank)
    (allowed : group.Allows n call) :
    rank.returned.length < 2 * n := by
  obtain ⟨in_group, bound, fresh⟩ := allowed
  obtain ⟨returned, counted⟩ := sound.inside in_group
  have dests := sound.dests.length_le
  have sources := sound.sources.length_le
  rw [returned, counted]
  cases call with
  | send self buf count element_size dest tag custom request =>
      have fewer := sound.dests.length_lt bound fresh
      omega
  | recv self buffer element_size source tag request inside =>
      have fewer := sound.sources.length_lt bound fresh
      omega

/-- A call that returns a handle adds it to the group. -/
theorem Sound.push
    {call : Call}
    {handle : Handle}
    (sound : group.Sound n rank)
    (allowed : group.Allows n call)
    (returned : after.returned = rank.returned ++ [handle]) :
    (group.push call (.returned handle)).Sound n after := by
  obtain ⟨in_group, bound, fresh⟩ := allowed
  obtain ⟨pending, counted⟩ := sound.inside in_group
  have waited : after.returned = group.pending_requests ++ [handle] := by rw [returned, pending]
  have outside : group.in_group = false → after.returned = [] := fun out =>
    absurd (in_group.symm.trans out) (by decide)
  cases call with
  | send self buf count element_size dest tag custom request =>
      constructor
      case inside =>
        refine fun _ => ⟨waited, ?_⟩
        simp only [Group.push, List.length_append, List.length_singleton, List.length_nil, counted]
        omega
      case outside => exact outside
      case dests => exact sound.dests.append bound fresh
      case sources => simpa only [Group.push, List.append_nil] using sound.sources
  | recv self buffer element_size source tag request inside =>
      constructor
      case inside =>
        refine fun _ => ⟨waited, ?_⟩
        simp only [Group.push, List.length_append, List.length_singleton, List.length_nil, counted]
        omega
      case outside => exact outside
      case dests => simpa only [Group.push, List.append_nil] using sound.dests
      case sources => exact sound.sources.append bound fresh

end Group

namespace Groups

/-- Ranks with the given communication buffers, all of one size, that communicate in groups. -/
structure Sound
    (n : Nat)
    (buffers : Nat → List Int)
    (buffer_size : Int)
    (groups : Groups) : Prop where
  world : groups.world.Sound n buffers
  comm_buffer_size : ∀ rank, (groups.world rank).comm_buffer_size = buffer_size
  group : ∀ rank, (groups.group rank).Sound n (groups.world rank)

variable {n : Nat} {buffers : Nat → List Int} {buffer_size : Int} {groups after : Groups}

/-- An allowed call finds a buffer and returns a handle. -/
theorem Sound.returns
    {call : Call}
    {outcome : Rank.Outcome}
    {world : World}
    (sound : groups.Sound n buffers buffer_size)
    (enough : ∀ rank, (buffers rank).length = 2 * n)
    (allowed : (groups.group call.self).Allows n call)
    (called : groups.world.call call = some (outcome, world)) :
    ∃ handle record, outcome = .returned handle ∧
      World.Keeps n buffers groups.world world
        (Function.update (fun rank => (groups.world rank).returned) call.self
          ((groups.world call.self).returned ++ [handle])) record := by
  rcases sound.world.call allowed.2.1 called with ⟨empty, _⟩ | returns
  · have fewer := (sound.group call.self).length_returned_lt allowed
    have total := (sound.world call.self).length_buffer_cache
    rw [empty, List.length_nil, enough call.self] at total
    omega
  · exact returns

/-- One rank changes its group. -/
theorem update_group
    {self : Nat}
    {group : Group}
    {world : World}
    (here : group.Sound n (world self))
    (others : ∀ rank, rank ≠ self → (groups.group rank).Sound n (world rank))
    (rank : Nat) :
    (Function.update groups.group self group rank).Sound n (world rank) :=
  (Function.forall_update_iff groups.group fun rank group => group.Sound n (world rank)).mpr
    ⟨here, others⟩ rank

/-- Every event of a program that communicates in groups keeps the bookkeeping. -/
theorem Sound.step
    {event : Event}
    (sound : groups.Sound n buffers buffer_size)
    (enough : ∀ rank, (buffers rank).length = 2 * n)
    (permitted : groups.Permits n event)
    (stepped : groups.step event = some after) :
    after.Sound n buffers buffer_size := by
  cases event with
  | start self =>
      dsimp only [Groups.step] at stepped
      split at stepped
      · obtain rfl := Option.some.inj stepped
        have none := (sound.group self).outside permitted
        have empty : Distinct n [] := ⟨List.nodup_nil, fun _ member => absurd member List.not_mem_nil⟩
        refine ⟨sound.world, sound.comm_buffer_size, update_group ?_ fun rank _ => sound.group rank⟩
        exact ⟨fun _ => ⟨none, rfl⟩, fun _ => none, empty, empty⟩
      · contradiction
  | call call =>
      obtain ⟨⟨outcome, world⟩, called, rfl⟩ := Option.map_eq_some_iff.mp stepped
      obtain ⟨handle, record, rfl, kept⟩ := sound.returns enough permitted called
      refine ⟨fun rank => (kept rank).sound,
        fun rank => (kept rank).comm_buffer_size.trans (sound.comm_buffer_size rank),
        update_group ?_ fun rank other => ?_⟩
      · have returned := (kept call.self).returned
        rw [Function.update_self] at returned
        exact (sound.group call.self).push permitted returned
      · have returned := (kept rank).returned
        rw [Function.update_of_ne other] at returned
        exact (sound.group rank).of_returned returned
  | stop self =>
      obtain ⟨rank, waited, rfl⟩ := Option.map_eq_some_iff.mp stepped
      obtain ⟨pending, _⟩ := (sound.group self).inside permitted
      have distinct := (sound.world self).distinct
      rw [← pending] at waited
      have kept := World.Keeps.of_set sound.world
        ((sound.world self).waitall distinct (fun _ member => member) waited)
      refine ⟨fun rank => (kept rank).sound,
        fun rank => (kept rank).comm_buffer_size.trans (sound.comm_buffer_size rank),
        update_group ?_ fun rank other => ?_⟩
      · have returned := (kept self).returned
        rw [Function.update_self] at returned
        have none : (groups.world self).returned.diff (groups.world self).returned = [] :=
          List.eq_nil_iff_forall_not_mem.mpr fun handle member =>
            (distinct.mem_sdiff_iff.mp member).2 (distinct.mem_sdiff_iff.mp member).1
        exact ⟨fun inside => absurd inside Bool.false_ne_true, fun _ => returned.trans none,
          (sound.group self).dests, (sound.group self).sources⟩
      · have returned := (kept rank).returned
        rw [Function.update_of_ne other] at returned
        exact (sound.group rank).of_returned returned
  | other event =>
      obtain ⟨world, happened, rfl⟩ := Option.map_eq_some_iff.mp stepped
      have kept := sound.world.internal permitted happened
      exact ⟨fun rank => (kept rank).sound,
        fun rank => (kept rank).comm_buffer_size.trans (sound.comm_buffer_size rank),
        fun rank => (sound.group rank).of_returned (kept rank).returned⟩

/-- A reached state keeps the bookkeeping. -/
theorem Reaches.sound
    {start : Groups}
    (sound : start.Sound n buffers buffer_size)
    (enough : ∀ rank, (buffers rank).length = 2 * n)
    (reached : Reaches n start groups) :
    groups.Sound n buffers buffer_size := by
  induction reached with
  | start => exact sound
  | step reached permitted stepped inductionHypothesis =>
      exact inductionHypothesis.step enough permitted stepped

/-- The communication buffers of a rank are conserved and never run out. -/
structure Conserved
    (n : Nat)
    (cache_start_addr buffer_size : Int)
    (groups : Groups)
    (rank : Nat) : Prop where
  /-- The buffers are disjoint intervals. -/
  disjoint : (carved cache_start_addr (2 * n) buffer_size).Pairwise fun first second =>
    ∀ address, InBuffer buffer_size first address → ¬ InBuffer buffer_size second address
  /-- The buffers are inside the memory that has been registered. -/
  inside : ∀ buffer ∈ carved cache_start_addr (2 * n) buffer_size,
    ∀ address, InBuffer buffer_size buffer address →
      cache_start_addr ≤ address ∧ address < cache_start_addr + buffer_size * (2 * n : Nat)
  /-- Every buffer is in the queue or belongs to a handle that has been returned. -/
  conserved : ((groups.world rank).buffer_cache ++ (groups.world rank).held_buffers).Perm
    (carved cache_start_addr (2 * n) buffer_size)
  /-- No buffer occurs twice. -/
  distinct : ((groups.world rank).buffer_cache ++ (groups.world rank).held_buffers).Nodup
  /-- Every handle that has been returned has a buffer. -/
  held : ∀ handle ∈ (groups.world rank).returned,
    ((groups.world rank).info handle).comm_buffer.isSome
  /-- No call throws. -/
  returns : ∀ call outcome world, call.self = rank → (groups.group rank).Allows n call →
    groups.world.call call = some (outcome, world) → ∃ handle, outcome = .returned handle
  /-- No buffer is used by two operations in flight. -/
  used_once : ((groups.world rank).used_buffers n).Nodup
  /-- An operation in flight uses one of the buffers, and stays inside it. -/
  used_inside : ∀ operation ∈ (groups.world rank).operations n, ∀ start size,
    operation.1 = .device start size →
      start ∈ carved cache_start_addr (2 * n) buffer_size ∧ (size : Int) ≤ buffer_size
  /-- Outside of groups, also after `stop`, all buffers are in the queue, and `finalize`
  deallocates what has been allocated. -/
  full : (groups.group rank).in_group = false →
    (groups.world rank).buffer_cache.Perm (carved cache_start_addr (2 * n) buffer_size) ∧
      (groups.world rank).finalize_size = allocated_size buffer_size (2 * n) ∧
      (buffer_size * (2 * n : Nat) < 2 ^ 63 →
        ((groups.world rank).finalize_size : Int) = buffer_size * (2 * n : Nat))

/-- Ranks that have set up their buffers keep the bookkeeping. -/
theorem sound_set_up
    (heap : Nat → Heap)
    (cache_start_addr : Nat → Int)
    (buffer_size : Int) :
    (set_up n heap cache_start_addr buffer_size).Sound n
      (fun rank => carved (cache_start_addr rank) (2 * n) buffer_size) buffer_size where
  world := World.sound_set_up heap cache_start_addr (2 * n) buffer_size
  comm_buffer_size := fun _ => rfl
  group := fun _ =>
    have empty : Distinct n [] := ⟨List.nodup_nil, fun _ member => absurd member List.not_mem_nil⟩
    ⟨fun inside => absurd inside Bool.false_ne_true, fun _ => rfl, empty, empty⟩

/-- In every state that ranks reach by communicating in groups, communication buffers are
conserved and have not run out. -/
theorem buffers_conserved
    {heap : Nat → Heap}
    {cache_start_addr : Nat → Int}
    (positive : 0 < buffer_size)
    (reached : Reaches n (set_up n heap cache_start_addr buffer_size) groups)
    (rank : Nat) :
    Conserved n (cache_start_addr rank) buffer_size groups rank := by
  have enough : ∀ rank, (carved (cache_start_addr rank) (2 * n) buffer_size).length = 2 * n :=
    fun rank => by rw [carved, List.length_map, List.length_range]
  have sound := reached.sound (sound_set_up heap cache_start_addr buffer_size) enough
  have nodup := carved_nodup positive (cache_start_addr rank) (2 * n)
  have here := sound.world rank
  constructor
  case disjoint => exact carved_disjoint positive _ _
  case inside => exact fun buffer member address => carved_inside positive _ _ member
  case conserved => exact here.conserved
  case distinct => exact here.conserved.nodup_iff.mpr nodup
  case held => exact fun handle member => (here.held handle member).2.2
  case returns =>
    rintro call outcome world rfl allowed called
    obtain ⟨handle, _, returned, _⟩ := sound.returns enough allowed called
    exact ⟨handle, returned⟩
  case used_once => exact here.nodup_used_buffers nodup
  case used_inside =>
    intro operation member start size place
    obtain ⟨buffer, fits⟩ := here.operation_inside member place
    rw [sound.comm_buffer_size] at fits
    exact ⟨buffer, by omega⟩
  case full =>
    intro outside
    have none := (sound.group rank).outside outside
    have queue := here.conserved
    rw [Rank.held_buffers, none, List.filterMap_nil, List.append_nil] at queue
    have size : (groups.world rank).finalize_size = toSizeT (buffer_size * (2 * n : Nat)) := by
      rw [Rank.finalize_size, sound.comm_buffer_size, queue.length_eq, enough]
    refine ⟨queue, size.trans (toSizeT_toInt64 _).symm, fun fits => ?_⟩
    rw [size]
    exact toSizeT_eq (Int.mul_nonneg positive.le (Int.natCast_nonneg _)) (by omega)

/-- One rank sends an element to itself in a group. -/
theorem buffers_conserved_loopback :
    ∃ groups, Reaches 1 (set_up 1 (fun _ _ => 0) (fun _ => 0) 64) groups ∧
      (groups.group 0).in_group = false ∧ (groups.world 0).buffer_cache = [0, 64] ∧
      Conserved 1 0 64 groups 0 := by
  have started := @Reaches.step 1 (set_up 1 (fun _ _ => 0) (fun _ => 0) 64) _ _
    (.start 0) .start rfl rfl
  have counted := @Reaches.step _ _ _ _
    (.call (.send 0 512 1 8 0 1 0 none)) started ⟨rfl, by decide, by decide⟩ rfl
  have sent := @Reaches.step _ _ _ _ (.other (.send_handler 0 none)) counted trivial rfl
  have ended := @Reaches.step _ _ _ _ (.other (.send_handler 0 none)) sent trivial rfl
  have announced := @Reaches.step _ _ _ _
    (.call (.recv 0 (.given 1024) 8 0 1 0 (some 0))) ended ⟨rfl, by decide, by decide⟩ rfl
  have posted := @Reaches.step _ _ _ _
    (.other (.recv_handler 0 0 1 (some 0))) announced trivial rfl
  have received := @Reaches.step _ _ _ _ (.other (.recv_handler 0 0 2 none)) posted trivial rfl
  have stopped := @Reaches.step _ _ _ _ (.stop 0) received rfl rfl
  exact ⟨_, stopped, rfl, rfl, buffers_conserved (by decide) stopped 0⟩

end Groups

end Ucx

end DistributedJoin
