import DistributedJoin.Ucx.Activity

/-!
# Conservation of communication buffers

Every communication buffer is in the queue or belongs to one handle that has been returned
to the caller. Of every such handle at most one transfer goes on, and only that one uses the
buffer of the handle. Every handle in use has been returned, or its transfer goes on, or it
is about to be freed; requests that are free are as they have been created.
-/

namespace DistributedJoin

namespace Ucx

open Device

/-- The information of a handle is the same, apart from its progress. -/
structure CommInfo.Keeps (before after : CommInfo) : Prop where
  comm : after.comm = before.comm
  orig_info : after.orig_info = before.orig_info
  comm_buffer : after.comm_buffer = before.comm_buffer
  completed : after.completed = before.completed
  custom_allocated : after.custom_allocated = before.custom_allocated
  peer : after.peer = before.peer

theorem CommInfo.Keeps.of_eq {before after : CommInfo} (same : after = before) :
    before.Keeps after := by
  subst same
  exact ⟨rfl, rfl, rfl, rfl, rfl, rfl⟩

namespace Rank

/-- The communication buffers of the handles that have been returned. -/
def held_buffers (rank : Rank) : List Int :=
  rank.returned.filterMap fun handle => (rank.info handle).comm_buffer

/-- The transfer of a handle goes on for a handle that has been returned. -/
structure Engaged (n : Nat) (rank : Rank) (handle : Handle) : Prop where
  allocated : rank.allocated handle = true
  comm : (rank.info handle).comm = true
  peer : (rank.info handle).peer < n
  origin : ∃ orig ∈ rank.returned, (rank.info handle).orig_info = .handle orig ∧
    (rank.info handle).comm_buffer = (rank.info orig).comm_buffer ∧
    (rank.info orig).completed = false

/-- A rank with the given buffers. The spare handles are those that have passed on their
transfers and are to be freed, unless they have been returned to the caller. -/
structure Sound (n : Nat) (carved : List Int) (spare : List Handle) (rank : Rank) : Prop where
  conserved : (rank.buffer_cache ++ rank.held_buffers).Perm carved
  distinct : rank.returned.Nodup
  held : ∀ handle ∈ rank.returned, rank.allocated handle = true ∧
    (rank.info handle).orig_info = .handle handle ∧ (rank.info handle).comm_buffer.isSome
  requests : ∀ index, (rank.info (.request index)).custom_allocated = false
  idle : ∀ index, rank.allocated (.request index) = false →
    (rank.info (.request index)).orig_info = .null ∧
      (rank.info (.request index)).completed = false
  customs : ∀ index, rank.allocated (.custom index) = true →
    .custom index ∈ rank.returned ∧ (rank.info (.custom index)).custom_allocated = true
  accounted : ∀ handle, rank.allocated handle = true →
    handle ∈ rank.returned ∨ handle ∈ rank.active n ∨ handle ∈ spare
  engaged : ∀ handle ∈ rank.active n, Engaged n rank handle
  single : ((rank.active n).map fun handle => (rank.info handle).orig_info).Nodup
  sender : ∀ index, .custom index ∈ rank.active n → rank.control.sender = some (.custom index)
  placed : ∀ operation ∈ rank.operations n, ∀ start size, operation.1 = .device start size →
    (rank.info operation.2).comm_buffer = some start ∧ size ≤ rank.comm_buffer_size.toNat
  spare_distinct : spare.Nodup
  spare_allocated : ∀ handle ∈ spare, rank.allocated handle = true ∧ handle ∉ rank.active n
  spare_returned : ∀ handle ∈ spare, (rank.info handle).orig_info = .handle handle →
    handle ∈ rank.returned
  within : ∀ dest, n ≤ dest → rank.outgoing dest = []

/-- The handle whose callback is executed is active. -/
theorem mem_active_of_running
    {n : Nat}
    {rank : Rank}
    {handle : Handle}
    (running : rank.control.running = {handle}) :
    handle ∈ rank.active n := by
  rw [active, running]
  exact Multiset.mem_add.mpr (.inr (Multiset.mem_singleton_self handle))

/-- The requests of operations in flight are active. -/
theorem mem_active_of_operation
    {n : Nat}
    {rank : Rank}
    {operation : Place × Handle}
    (member : operation ∈ rank.operations n) :
    operation.2 ∈ rank.active n :=
  Multiset.mem_add.mpr (.inl (Multiset.mem_add.mpr (.inl (Multiset.mem_map_of_mem _ member))))

namespace Sound

variable {n : Nat} {carved : List Int} {spare : List Handle} {rank after : Rank}
  (sound : rank.Sound n carved spare)
include sound

/-- A handle that is free is not active, has not been returned and is not spare. -/
theorem fresh {handle : Handle} (free : rank.allocated handle = false) :
    handle ∉ rank.active n ∧ handle ∉ rank.returned ∧ handle ∉ spare := by
  refine ⟨fun member => ?_, fun member => ?_, fun member => ?_⟩
  · have used := (sound.engaged handle member).allocated
    rw [free] at used
    contradiction
  · have used := (sound.held handle member).1
    rw [free] at used
    contradiction
  · have used := (sound.spare_allocated handle member).1
    rw [free] at used
    contradiction

/-- Active handles of one origin are the same. -/
theorem active_inj
    {first second : Handle}
    (firstActive : first ∈ rank.active n)
    (secondActive : second ∈ rank.active n)
    (same : (rank.info first).orig_info = (rank.info second).orig_info) :
    first = second :=
  Multiset.inj_on_of_nodup_map sound.single first firstActive second secondActive same

theorem active_nodup : (rank.active n).Nodup := sound.single.of_map _

/-- Apart from the callback that is executed, the transfers of requests go on. -/
theorem requests_of_erase
    {handle : Handle}
    (running : rank.control.running = {handle})
    (index : Nat) :
    .custom index ∉ (rank.active n).erase handle := by
  intro member
  have sends := Control.running_of_sender
    (sound.sender index (Multiset.mem_of_mem_erase member))
  rw [running] at sends
  exact (sound.active_nodup.mem_erase_iff.mp member).1 (Multiset.singleton_inj.mp sends).symm

/-- The bookkeeping of handles and buffers stays, and so do the transfers. -/
theorem of_same
    (buffer_cache : after.buffer_cache = rank.buffer_cache)
    (comm_buffer_size : after.comm_buffer_size = rank.comm_buffer_size)
    (returned : after.returned = rank.returned)
    (info : after.info = rank.info)
    (allocated : after.allocated = rank.allocated)
    (active : after.active n = rank.active n)
    (operations : ∀ operation ∈ after.operations n, operation ∈ rank.operations n)
    (sender : ∀ handle, rank.control.sender = some handle → after.control.sender = some handle)
    (within : ∀ dest, n ≤ dest → after.outgoing dest = []) :
    after.Sound n carved spare where
  conserved := by
    rw [held_buffers, returned, info, buffer_cache]
    exact sound.conserved
  distinct := returned ▸ sound.distinct
  held := by
    rw [returned, info, allocated]
    exact sound.held
  requests := info ▸ sound.requests
  idle := by
    rw [info, allocated]
    exact sound.idle
  customs := by
    rw [info, allocated, returned]
    exact sound.customs
  accounted := by
    rw [allocated, returned, active]
    exact sound.accounted
  engaged := by
    intro handle member
    have before := sound.engaged handle (active ▸ member)
    constructor
    · rw [allocated]
      exact before.allocated
    · rw [info]
      exact before.comm
    · rw [info]
      exact before.peer
    · rw [info, returned]
      exact before.origin
  single := by
    rw [info, active]
    exact sound.single
  sender := by
    rw [active]
    exact fun index member => sender _ (sound.sender index member)
  placed := by
    rw [info, comm_buffer_size]
    exact fun operation member => sound.placed operation (operations operation member)
  spare_distinct := sound.spare_distinct
  spare_allocated := by
    intro handle member
    obtain ⟨used, passive⟩ := sound.spare_allocated handle member
    exact ⟨(congrFun allocated handle).trans used, fun here => passive (active ▸ here)⟩
  spare_returned := by
    rw [info, returned]
    exact sound.spare_returned
  within := within

/-- A transfer is passed on to a request that has been free. -/
theorem hand_over
    {handle : Handle}
    {index : Nat}
    (free : rank.allocated (.request index) = false)
    (executed : rank.control.running = {handle})
    (buffer_cache : after.buffer_cache = rank.buffer_cache)
    (comm_buffer_size : after.comm_buffer_size = rank.comm_buffer_size)
    (returned : after.returned = rank.returned)
    (info : ∀ other, other ≠ .request index → (rank.info other).Keeps (after.info other))
    (comm : (after.info (.request index)).comm = (rank.info handle).comm)
    (orig_info : (after.info (.request index)).orig_info = (rank.info handle).orig_info)
    (comm_buffer : (after.info (.request index)).comm_buffer = (rank.info handle).comm_buffer)
    (custom_allocated : (after.info (.request index)).custom_allocated = false)
    (peer : (after.info (.request index)).peer = (rank.info handle).peer)
    (allocated : after.allocated = Function.update rank.allocated (.request index) true)
    (active : after.active n = .request index ::ₘ (rank.active n).erase handle)
    (operations : ∀ operation ∈ after.operations n, operation ∈ rank.operations n ∨
      ∃ start size, operation = (.device start size, .request index) ∧
        (rank.info handle).comm_buffer = some start ∧ size ≤ rank.comm_buffer_size.toNat)
    (within : ∀ dest, n ≤ dest → after.outgoing dest = []) :
    after.Sound n carved (handle :: spare) := by
  have running : handle ∈ rank.active n := mem_active_of_running executed
  obtain ⟨inactive, unreturned, unspare⟩ := sound.fresh free
  have kept : ∀ other, other ≠ .request index → after.allocated other = rank.allocated other :=
    fun other different => by rw [allocated, Function.update_of_ne different]
  have others : ∀ {other}, other ∈ (rank.active n).erase handle →
      other ∈ rank.active n ∧ other ≠ .request index := fun member =>
    have before := Multiset.mem_of_mem_erase member
    ⟨before, fun same => inactive (same ▸ before)⟩
  have origins : ∀ orig ∈ rank.returned, orig ≠ .request index := fun orig member same =>
    unreturned (same ▸ member)
  constructor
  case conserved =>
    have held : after.held_buffers = rank.held_buffers := by
      rw [held_buffers, held_buffers, returned]
      exact List.filterMap_congr fun orig member => (info orig (origins orig member)).comm_buffer
    rw [held, buffer_cache]
    exact sound.conserved
  case distinct => exact returned ▸ sound.distinct
  case held =>
    intro orig member
    rw [returned] at member
    obtain ⟨used, origin, buffer⟩ := sound.held orig member
    have same := info orig (origins orig member)
    rw [kept orig (origins orig member), same.orig_info, same.comm_buffer]
    exact ⟨used, origin, buffer⟩
  case requests =>
    intro other
    by_cases same : other = index
    · rw [same, custom_allocated]
    · rw [(info (.request other) (by simpa using same)).custom_allocated]
      exact sound.requests other
  case idle =>
    intro other unused
    have different : Handle.request other ≠ .request index := by
      intro same
      rw [same, allocated, Function.update_self] at unused
      contradiction
    rw [kept _ different] at unused
    rw [(info _ different).orig_info, (info _ different).completed]
    exact sound.idle other unused
  case customs =>
    intro other used
    have different : Handle.custom other ≠ .request index := by simp
    rw [kept _ different] at used
    rw [returned, (info _ different).custom_allocated]
    exact sound.customs other used
  case accounted =>
    intro other used
    rw [returned, active]
    by_cases same : other = .request index
    · exact .inr (.inl (Multiset.mem_cons.mpr (.inl same)))
    · rw [kept other same] at used
      rcases sound.accounted other used with before | before | before
      · exact .inl before
      · by_cases here : other = handle
        · exact .inr (.inr (List.mem_cons.mpr (.inl here)))
        · exact .inr (.inl (Multiset.mem_cons_of_mem
            ((Multiset.mem_erase_of_ne here).mpr before)))
      · exact .inr (.inr (List.mem_cons_of_mem _ before))
  case engaged =>
    intro other member
    rw [active] at member
    have origin : ∀ {first : Handle}, Engaged n rank first → ∀ {second : Handle},
        (after.info second).orig_info = (rank.info first).orig_info →
        (after.info second).comm_buffer = (rank.info first).comm_buffer →
        ∃ orig ∈ after.returned, (after.info second).orig_info = .handle orig ∧
          (after.info second).comm_buffer = (after.info orig).comm_buffer ∧
          (after.info orig).completed = false := by
      intro first before second same_origin same_buffer
      obtain ⟨orig, origReturned, origin, buffer, incomplete⟩ := before.origin
      have same := info orig (origins orig origReturned)
      refine ⟨orig, returned.symm ▸ origReturned, same_origin.trans origin, ?_, ?_⟩
      · rw [same_buffer, buffer, same.comm_buffer]
      · rw [same.completed, incomplete]
    rcases Multiset.mem_cons.mp member with rfl | before
    · have engaged := sound.engaged handle running
      exact ⟨by rw [allocated, Function.update_self], comm.trans engaged.comm,
        peer.trans_lt engaged.peer, origin engaged orig_info comm_buffer⟩
    · obtain ⟨before, different⟩ := others before
      have engaged := sound.engaged other before
      exact ⟨(kept other different).trans engaged.allocated,
        (info other different).comm.trans engaged.comm,
        (info other different).peer.trans_lt engaged.peer,
        origin engaged (info other different).orig_info (info other different).comm_buffer⟩
  case single =>
    have same : (after.active n).map (fun handle => (after.info handle).orig_info) =
        (rank.active n).map fun handle => (rank.info handle).orig_info := by
      rw [active, Multiset.map_cons, orig_info, Multiset.map_congr rfl fun other member =>
        (info other (others member).2).orig_info]
      exact (Multiset.map_cons _ _ _).symm.trans (congrArg _ (Multiset.cons_erase running))
    rw [same]
    exact sound.single
  case sender =>
    intro other member
    rw [active] at member
    rcases Multiset.mem_cons.mp member with same | before
    · contradiction
    · exact absurd before (sound.requests_of_erase executed other)
  case placed =>
    intro operation member start size device
    rw [comm_buffer_size]
    rcases operations operation member with before | ⟨address, length, rfl, buffer, fits⟩
    · have different : operation.2 ≠ .request index := fun same =>
        inactive (same ▸ mem_active_of_operation before)
      rw [(info _ different).comm_buffer]
      exact sound.placed operation before start size device
    · obtain ⟨rfl, rfl⟩ := Place.device.inj device
      rw [comm_buffer, buffer]
      exact ⟨rfl, fits⟩
  case spare_distinct =>
    exact List.nodup_cons.mpr ⟨fun member => (sound.spare_allocated handle member).2 running,
      sound.spare_distinct⟩
  case spare_allocated =>
    intro other member
    have before : rank.allocated other = true ∧ other ≠ .request index ∧
        other ∉ (rank.active n).erase handle := by
      rcases List.mem_cons.mp member with rfl | spared
      · exact ⟨(sound.engaged other running).allocated, fun same => inactive (same ▸ running),
          fun again => (sound.active_nodup.mem_erase_iff.mp again).1 rfl⟩
      · obtain ⟨used, passive⟩ := sound.spare_allocated other spared
        exact ⟨used, fun same => unspare (same ▸ spared),
          fun again => passive (Multiset.mem_of_mem_erase again)⟩
    obtain ⟨used, different, passive⟩ := before
    refine ⟨(kept other different).trans used, fun again => ?_⟩
    rw [active] at again
    rcases Multiset.mem_cons.mp again with same | again
    · exact different same
    · exact passive again
  case spare_returned =>
    intro other member origin
    rw [returned]
    rcases List.mem_cons.mp member with rfl | spared
    · have different : other ≠ .request index := fun same => inactive (same ▸ running)
      rw [(info other different).orig_info] at origin
      obtain ⟨orig, origReturned, same, _⟩ := (sound.engaged other running).origin
      rw [origin] at same
      exact OrigInfo.handle.inj same ▸ origReturned
    · have different : other ≠ .request index := fun same => unspare (same ▸ spared)
      rw [(info other different).orig_info] at origin
      exact sound.spare_returned other spared origin
  case within => exact within

/-- The last transfer of a handle marks it as completed. -/
theorem finish
    {handle orig : Handle}
    (executed : rank.control.running = {handle})
    (origin : (rank.info handle).orig_info = .handle orig)
    (buffer_cache : after.buffer_cache = rank.buffer_cache)
    (comm_buffer_size : after.comm_buffer_size = rank.comm_buffer_size)
    (returned : after.returned = rank.returned)
    (info : after.info =
      Function.update rank.info orig { rank.info orig with completed := true })
    (allocated : after.allocated = rank.allocated)
    (active : after.active n = (rank.active n).erase handle)
    (operations : ∀ operation ∈ after.operations n, operation ∈ rank.operations n)
    (within : ∀ dest, n ≤ dest → after.outgoing dest = []) :
    after.Sound n carved (handle :: spare) := by
  have running : handle ∈ rank.active n := mem_active_of_running executed
  have orig_info : ∀ other, (after.info other).orig_info = (rank.info other).orig_info := by
    intro other
    rw [info]
    by_cases same : other = orig
    · rw [same, Function.update_self]
    · rw [Function.update_of_ne same]
  have comm_buffer : ∀ other, (after.info other).comm_buffer = (rank.info other).comm_buffer := by
    intro other
    rw [info]
    by_cases same : other = orig
    · rw [same, Function.update_self]
    · rw [Function.update_of_ne same]
  have peer : ∀ other, (after.info other).peer = (rank.info other).peer := by
    intro other
    rw [info]
    by_cases same : other = orig
    · rw [same, Function.update_self]
    · rw [Function.update_of_ne same]
  have comm : ∀ other, (after.info other).comm = (rank.info other).comm := by
    intro other
    rw [info]
    by_cases same : other = orig
    · rw [same, Function.update_self]
    · rw [Function.update_of_ne same]
  have custom_allocated : ∀ other,
      (after.info other).custom_allocated = (rank.info other).custom_allocated := by
    intro other
    rw [info]
    by_cases same : other = orig
    · rw [same, Function.update_self]
    · rw [Function.update_of_ne same]
  have completed : ∀ other, other ≠ orig →
      (after.info other).completed = (rank.info other).completed := by
    intro other different
    rw [info, Function.update_of_ne different]
  have origReturned : orig ∈ rank.returned := by
    obtain ⟨found, member, here, _⟩ := (sound.engaged handle running).origin
    rw [origin] at here
    exact OrigInfo.handle.inj here ▸ member
  have before : ∀ {other}, other ∈ (rank.active n).erase handle → other ∈ rank.active n :=
    Multiset.mem_of_mem_erase
  constructor
  case conserved =>
    have held : after.held_buffers = rank.held_buffers := by
      rw [held_buffers, held_buffers, returned]
      exact List.filterMap_congr fun other _ => comm_buffer other
    rw [held, buffer_cache]
    exact sound.conserved
  case distinct => exact returned ▸ sound.distinct
  case held =>
    intro other member
    rw [returned] at member
    rw [allocated, orig_info, comm_buffer]
    exact sound.held other member
  case requests => exact fun index => (custom_allocated _).trans (sound.requests index)
  case idle =>
    intro index unused
    rw [allocated] at unused
    have different : Handle.request index ≠ orig := fun same =>
      (sound.fresh unused).2.1 (same ▸ origReturned)
    rw [orig_info, completed _ different]
    exact sound.idle index unused
  case customs =>
    intro index used
    rw [allocated] at used
    rw [returned, custom_allocated]
    exact sound.customs index used
  case accounted =>
    intro other used
    rw [allocated] at used
    rw [returned, active]
    rcases sound.accounted other used with before | before | before
    · exact .inl before
    · by_cases here : other = handle
      · exact .inr (.inr (List.mem_cons.mpr (.inl here)))
      · exact .inr (.inl ((Multiset.mem_erase_of_ne here).mpr before))
    · exact .inr (.inr (List.mem_cons_of_mem _ before))
  case engaged =>
    intro other member
    rw [active] at member
    have engaged := sound.engaged other (before member)
    obtain ⟨found, foundReturned, here, buffer, incomplete⟩ := engaged.origin
    have different : found ≠ orig := by
      rintro rfl
      have same := sound.active_inj (before member) running (here.trans origin.symm)
      exact (sound.active_nodup.mem_erase_iff.mp member).1 same
    refine ⟨(congrFun allocated other).trans engaged.allocated,
      (comm other).trans engaged.comm, (peer other).trans_lt engaged.peer, found, ?_, ?_, ?_, ?_⟩
    · rw [returned]
      exact foundReturned
    · rw [orig_info, here]
    · rw [comm_buffer, comm_buffer, buffer]
    · rw [completed found different, incomplete]
  case single =>
    rw [active, Multiset.map_congr rfl fun other _ => orig_info other]
    exact Multiset.nodup_of_le (Multiset.map_le_map (Multiset.erase_le _ _)) sound.single
  case sender =>
    intro other member
    rw [active] at member
    exact absurd member (sound.requests_of_erase executed other)
  case placed =>
    intro operation member start size device
    rw [comm_buffer, comm_buffer_size]
    exact sound.placed operation (operations operation member) start size device
  case spare_distinct =>
    exact List.nodup_cons.mpr ⟨fun member => (sound.spare_allocated handle member).2 running,
      sound.spare_distinct⟩
  case spare_allocated =>
    intro other member
    rw [allocated, active]
    rcases List.mem_cons.mp member with rfl | spared
    · exact ⟨(sound.engaged other running).allocated, fun again =>
        (sound.active_nodup.mem_erase_iff.mp again).1 rfl⟩
    · obtain ⟨used, passive⟩ := sound.spare_allocated other spared
      exact ⟨used, fun again => passive (before again)⟩
  case spare_returned =>
    intro other member same
    rw [orig_info] at same
    rw [returned]
    rcases List.mem_cons.mp member with rfl | spared
    · rw [origin] at same
      exact OrigInfo.handle.inj same ▸ origReturned
    · exact sound.spare_returned other spared same
  case within => exact within

omit sound

/-- A spare handle is freed, unless it has been returned to the caller. -/
theorem free_internal
    {handle : Handle}
    (sound : rank.Sound n carved (handle :: spare)) :
    (rank.free_internal handle).Sound n carved spare := by
  obtain ⟨used, passive⟩ := sound.spare_allocated handle List.mem_cons_self
  obtain ⟨unspare, distinct⟩ := List.nodup_cons.mp sound.spare_distinct
  have spare_allocated : ∀ other ∈ spare, rank.allocated other = true ∧ other ∉ rank.active n :=
    fun other member => sound.spare_allocated other (List.mem_cons_of_mem _ member)
  have spare_returned : ∀ other ∈ spare, (rank.info other).orig_info = .handle other →
      other ∈ rank.returned :=
    fun other member => sound.spare_returned other (List.mem_cons_of_mem _ member)
  unfold Rank.free_internal
  split
  · rename_i origin
    have returned := sound.spare_returned handle List.mem_cons_self origin
    refine { sound with
      accounted := fun other used => ?_
      spare_distinct := distinct
      spare_allocated := spare_allocated
      spare_returned := spare_returned }
    rcases sound.accounted other used with before | before | before
    · exact .inl before
    · exact .inr (.inl before)
    · rcases List.mem_cons.mp before with rfl | spared
      · exact .inl returned
      · exact .inr (.inr spared)
  · rename_i internal
    have unreturned : ∀ orig ∈ rank.returned, orig ≠ handle := by
      rintro orig member rfl
      exact internal (sound.held orig member).2.1
    have others : ∀ other ∈ rank.active n, other ≠ handle := fun other member same =>
      passive (same ▸ member)
    have info : ∀ {other}, other ≠ handle →
        Function.update rank.info handle (rank.info handle).release other = rank.info other :=
      fun different => Function.update_of_ne different _ _
    have allocated : ∀ {other}, other ≠ handle →
        Function.update rank.allocated handle false other = rank.allocated other :=
      fun different => Function.update_of_ne different _ _
    constructor
    case conserved =>
      have held : ((rank.setInfo handle (rank.info handle).release).free handle).held_buffers =
          rank.held_buffers :=
        List.filterMap_congr fun orig member =>
          congrArg CommInfo.comm_buffer (info (unreturned orig member))
      rw [held]
      exact sound.conserved
    case distinct => exact sound.distinct
    case held =>
      intro orig member
      change Function.update rank.allocated handle false orig = true ∧
        (Function.update rank.info handle _ orig).orig_info = .handle orig ∧
          (Function.update rank.info handle _ orig).comm_buffer.isSome
      rw [info (unreturned orig member), allocated (unreturned orig member)]
      exact sound.held orig member
    case requests =>
      intro index
      change (Function.update rank.info handle _ (.request index)).custom_allocated = false
      by_cases same : Handle.request index = handle
      · rw [same, Function.update_self]
        rfl
      · rw [info same]
        exact sound.requests index
    case idle =>
      intro index unused
      change (Function.update rank.info handle _ (.request index)).orig_info = .null ∧
        (Function.update rank.info handle _ (.request index)).completed = false
      by_cases same : Handle.request index = handle
      · rw [same, Function.update_self]
        exact ⟨rfl, rfl⟩
      · rw [info same]
        exact sound.idle index ((allocated same).symm.trans unused)
    case customs =>
      intro index used
      change Function.update rank.allocated handle false (.custom index) = true at used
      change _ ∧ (Function.update rank.info handle _ (.custom index)).custom_allocated = true
      have different : Handle.custom index ≠ handle := by
        intro same
        rw [same, Function.update_self] at used
        contradiction
      rw [allocated different] at used
      rw [info different]
      exact sound.customs index used
    case accounted =>
      intro other used
      change Function.update rank.allocated handle false other = true at used
      have different : other ≠ handle := by
        intro same
        rw [same, Function.update_self] at used
        contradiction
      rw [allocated different] at used
      rcases sound.accounted other used with before | before | before
      · exact .inl before
      · exact .inr (.inl before)
      · exact .inr (.inr ((List.mem_cons.mp before).resolve_left different))
    case engaged =>
      intro other member
      have different := others other member
      obtain ⟨orig, origReturned, origin⟩ := (sound.engaged other member).origin
      refine ⟨(allocated different).trans (sound.engaged other member).allocated,
        (congrArg CommInfo.comm (info different)).trans (sound.engaged other member).comm,
        (congrArg CommInfo.peer (info different)).trans_lt (sound.engaged other member).peer, orig,
        origReturned, ?_⟩
      change (Function.update rank.info handle _ other).orig_info = .handle orig ∧
        (Function.update rank.info handle _ other).comm_buffer =
          (Function.update rank.info handle _ orig).comm_buffer ∧
        (Function.update rank.info handle _ orig).completed = false
      rw [info different, info (unreturned orig origReturned)]
      exact origin
    case single =>
      have same : (rank.active n).map (fun other =>
            (Function.update rank.info handle (rank.info handle).release other).orig_info) =
          (rank.active n).map fun other => (rank.info other).orig_info :=
        Multiset.map_congr rfl fun other member => by rw [info (others other member)]
      exact (congrArg Multiset.Nodup same).mpr sound.single
    case sender => exact sound.sender
    case placed =>
      intro operation member start size device
      change (Function.update rank.info handle _ operation.2).comm_buffer = some start ∧ _
      rw [info (others _ (mem_active_of_operation member))]
      exact sound.placed operation member start size device
    case spare_distinct => exact distinct
    case spare_allocated =>
      intro other member
      have different : other ≠ handle := fun same => unspare (same ▸ member)
      exact ⟨(allocated different).trans (spare_allocated other member).1,
        (spare_allocated other member).2⟩
    case spare_returned =>
      intro other member origin
      have different : other ≠ handle := fun same => unspare (same ▸ member)
      change (Function.update rank.info handle _ other).orig_info = .handle other at origin
      rw [info different] at origin
      exact spare_returned other member origin
    case within => exact sound.within

/-- All spare handles are freed. -/
theorem free_all
    (sound : rank.Sound n carved spare) :
    (spare.foldl Rank.free_internal rank).Sound n carved [] := by
  induction spare generalizing rank with
  | nil => exact sound
  | cons handle spare inductionHypothesis => exact inductionHypothesis sound.free_internal

/-- A call takes a buffer and returns a handle that has been free. -/
theorem acquire
    {handle : Handle}
    {comm_buffer : Int}
    {rest : List Int}
    (sound : rank.Sound n carved [])
    (free : rank.allocated handle = false)
    (queue : rank.buffer_cache = comm_buffer :: rest)
    (buffer_cache : after.buffer_cache = rest)
    (returned : after.returned = rank.returned ++ [handle])
    (comm_buffer_size : after.comm_buffer_size = rank.comm_buffer_size)
    (info : ∀ other, other ≠ handle → after.info other = rank.info other)
    (comm : (after.info handle).comm = true)
    (orig_info : (after.info handle).orig_info = .handle handle)
    (buffer : (after.info handle).comm_buffer = some comm_buffer)
    (incomplete : (after.info handle).completed = false)
    (requests : ∀ index, handle = .request index → (after.info handle).custom_allocated = false)
    (customs : ∀ index, handle = .custom index → (after.info handle).custom_allocated = true)
    (peer : (after.info handle).peer < n)
    (allocated : after.allocated = Function.update rank.allocated handle true)
    (active : after.active n = handle ::ₘ rank.active n)
    (idle : rank.control.sender = none)
    (sender : ∀ index, handle = .custom index → after.control.sender = some handle)
    (operations : ∀ operation ∈ after.operations n, operation ∈ rank.operations n ∨
      ∃ cell, operation.1 = .counter cell)
    (within : ∀ dest, n ≤ dest → after.outgoing dest = []) :
    after.Sound n carved [] := by
  have inactive : ∀ other ∈ rank.active n, other ≠ handle := fun other member same => by
    have used := (sound.engaged other member).allocated
    rw [same, free] at used
    contradiction
  have unreturned : ∀ other ∈ rank.returned, other ≠ handle := fun other member same => by
    have used := (sound.held other member).1
    rw [same, free] at used
    contradiction
  have kept : ∀ other, other ≠ handle → after.allocated other = rank.allocated other :=
    fun other different => by rw [allocated, Function.update_of_ne different]
  constructor
  case conserved =>
    have held : after.held_buffers = rank.held_buffers ++ [comm_buffer] := by
      rw [held_buffers, held_buffers, returned, List.filterMap_append,
        List.filterMap_congr fun other member =>
          congrArg CommInfo.comm_buffer (info other (unreturned other member))]
      simp [buffer]
    have moved : (rest ++ (rank.held_buffers ++ [comm_buffer])).Perm
        (comm_buffer :: rest ++ rank.held_buffers) := by
      rw [← List.append_assoc]
      exact List.perm_append_singleton comm_buffer (rest ++ rank.held_buffers)
    rw [held, buffer_cache]
    rw [← queue] at moved
    exact moved.trans sound.conserved
  case distinct =>
    rw [returned]
    refine List.nodup_append.mpr ⟨sound.distinct, List.nodup_singleton handle, ?_⟩
    intro other member last lastMember
    rw [List.mem_singleton.mp lastMember]
    exact unreturned other member
  case held =>
    intro other member
    rw [returned] at member
    rcases List.mem_append.mp member with before | last
    · rw [info other (unreturned other before), kept other (unreturned other before)]
      exact sound.held other before
    · rw [List.mem_singleton.mp last]
      exact ⟨by rw [allocated, Function.update_self], orig_info, by rw [buffer]; rfl⟩
  case requests =>
    intro index
    by_cases same : Handle.request index = handle
    · rw [same]
      exact requests index same.symm
    · rw [info _ same]
      exact sound.requests index
  case idle =>
    intro index unused
    have different : Handle.request index ≠ handle := by
      intro same
      rw [same, allocated, Function.update_self] at unused
      contradiction
    rw [info _ different]
    exact sound.idle index ((kept _ different).symm.trans unused)
  case customs =>
    intro index used
    rw [returned]
    by_cases same : Handle.custom index = handle
    · rw [same]
      exact ⟨List.mem_append_right _ (List.mem_singleton_self handle), customs index same.symm⟩
    · rw [kept _ same] at used
      rw [info _ same]
      obtain ⟨before, custom⟩ := sound.customs index used
      exact ⟨List.mem_append_left _ before, custom⟩
  case accounted =>
    intro other used
    rw [returned, active]
    by_cases same : other = handle
    · exact .inl (List.mem_append_right _ (List.mem_singleton.mpr same))
    · rw [kept other same] at used
      rcases sound.accounted other used with before | before | before
      · exact .inl (List.mem_append_left _ before)
      · exact .inr (.inl (Multiset.mem_cons_of_mem before))
      · exact absurd before List.not_mem_nil
  case engaged =>
    intro other member
    rw [active] at member
    rcases Multiset.mem_cons.mp member with rfl | before
    · refine ⟨by rw [allocated, Function.update_self], comm, peer, other, ?_, orig_info, rfl,
        incomplete⟩
      rw [returned]
      exact List.mem_append_right _ (List.mem_singleton_self other)
    · have different := inactive other before
      obtain ⟨orig, origReturned, origin⟩ := (sound.engaged other before).origin
      refine ⟨(kept other different).trans (sound.engaged other before).allocated,
        (congrArg CommInfo.comm (info other different)).trans (sound.engaged other before).comm,
        (congrArg CommInfo.peer (info other different)).trans_lt (sound.engaged other before).peer,
        orig, ?_, ?_⟩
      · rw [returned]
        exact List.mem_append_left _ origReturned
      · rw [info other different, info orig (unreturned orig origReturned)]
        exact origin
  case single =>
    rw [active, Multiset.map_cons, orig_info, Multiset.map_congr rfl fun other member =>
      congrArg CommInfo.orig_info (info other (inactive other member))]
    refine Multiset.nodup_cons.mpr ⟨fun member => ?_, sound.single⟩
    obtain ⟨other, before, same⟩ := Multiset.mem_map.mp member
    obtain ⟨orig, origReturned, origin, _⟩ := (sound.engaged other before).origin
    rw [origin] at same
    exact unreturned orig origReturned (OrigInfo.handle.inj same)
  case sender =>
    intro index member
    rw [active] at member
    rcases Multiset.mem_cons.mp member with same | before
    · exact same.symm ▸ sender index same.symm
    · have sends := sound.sender index before
      rw [idle] at sends
      contradiction
  case placed =>
    intro operation member start size device
    rcases operations operation member with before | ⟨cell, counter⟩
    · rw [info _ (inactive _ (mem_active_of_operation before)), comm_buffer_size]
      exact sound.placed operation before start size device
    · rw [counter] at device
      contradiction
  case spare_distinct => exact List.nodup_nil
  case spare_allocated => exact fun other member => absurd member List.not_mem_nil
  case spare_returned => exact fun other member => absurd member List.not_mem_nil
  case within => exact within

/-- The transfers of a handle that has completed have ended. -/
theorem passive_of_completed
    {handle : Handle}
    (sound : rank.Sound n carved spare)
    (completed : (rank.info handle).completed = true) :
    ∀ other ∈ rank.active n, (rank.info other).orig_info ≠ .handle handle := by
  intro other member same
  obtain ⟨orig, _, origin, _, incomplete⟩ := (sound.engaged other member).origin
  rw [same] at origin
  rw [← OrigInfo.handle.inj origin, completed] at incomplete
  contradiction

/-- A handle that has been waited for gives its buffer back. -/
theorem release_handle
    {handle : Handle}
    (sound : rank.Sound n carved [])
    (returned : handle ∈ rank.returned)
    (completed : (rank.info handle).completed = true) :
    (rank.release_handle handle).Sound n carved [] := by
  have passive := sound.passive_of_completed completed
  have different : ∀ other ∈ rank.active n, other ≠ handle := by
    rintro other member rfl
    exact passive other member (sound.held other returned).2.1
  have incomplete : ∀ other ∈ rank.active n, ∀ orig, (rank.info other).orig_info = .handle orig →
      orig ≠ handle := by
    rintro other member orig origin rfl
    exact passive other member origin
  have others : ∀ {other}, other ∈ rank.returned.erase handle → other ∈ rank.returned ∧
      other ≠ handle := fun member =>
    have found := (sound.distinct.mem_erase_iff).mp member
    ⟨found.2, found.1⟩
  have info : ∀ {other}, other ≠ handle →
      (rank.release_handle handle).info other = rank.info other :=
    fun different => Function.update_of_ne different _ _
  have info_handle : (rank.release_handle handle).info handle =
      { rank.info handle with
        completed := false, comm := false, orig_info := .null, comm_buffer := none } :=
    Function.update_self _ _ _
  have allocated : ∀ {other}, other ≠ handle →
      (rank.release_handle handle).allocated other = rank.allocated other :=
    fun different => Function.update_of_ne different _ _
  have allocated_handle : (rank.release_handle handle).allocated handle = false :=
    Function.update_self _ _ _
  have in_use : ∀ {other}, (rank.release_handle handle).allocated other = true →
      other ≠ handle := by
    rintro other used rfl
    rw [allocated_handle] at used
    contradiction
  constructor
  case conserved =>
    have held : rank.held_buffers.Perm
        ((rank.info handle).comm_buffer.toList ++ (rank.release_handle handle).held_buffers) := by
      have first := (List.perm_cons_erase returned).filterMap fun other =>
        (rank.info other).comm_buffer
      have kept : (rank.returned.erase handle).filterMap
            (fun other => (rank.info other).comm_buffer) =
          (rank.release_handle handle).held_buffers :=
        List.filterMap_congr fun other member =>
          congrArg CommInfo.comm_buffer (info (others member).2).symm
      rw [List.filterMap_cons, kept] at first
      cases buffer : (rank.info handle).comm_buffer with
      | none =>
          rw [buffer] at first
          exact first
      | some comm_buffer =>
          rw [buffer] at first
          exact first
    change (rank.buffer_cache ++ (rank.info handle).comm_buffer.toList ++ _).Perm carved
    rw [List.append_assoc]
    exact (held.symm.append_left _).trans sound.conserved
  case distinct => exact sound.distinct.erase handle
  case held =>
    intro other member
    obtain ⟨before, different⟩ := others member
    rw [info different, allocated different]
    exact sound.held other before
  case requests =>
    intro index
    by_cases same : Handle.request index = handle
    · rw [same, info_handle]
      exact same ▸ sound.requests index
    · rw [info same]
      exact sound.requests index
  case idle =>
    intro index unused
    by_cases same : Handle.request index = handle
    · rw [same, info_handle]
      exact ⟨rfl, rfl⟩
    · rw [info same]
      exact sound.idle index ((allocated same).symm.trans unused)
  case customs =>
    intro index used
    have different := in_use used
    rw [allocated different] at used
    obtain ⟨before, custom⟩ := sound.customs index used
    rw [info different]
    exact ⟨(List.mem_erase_of_ne different).mpr before, custom⟩
  case accounted =>
    intro other used
    have different := in_use used
    rw [allocated different] at used
    rcases sound.accounted other used with before | before | before
    · exact .inl ((List.mem_erase_of_ne different).mpr before)
    · exact .inr (.inl before)
    · exact absurd before List.not_mem_nil
  case engaged =>
    intro other member
    have engaged := sound.engaged other member
    have apart := different other member
    obtain ⟨orig, origReturned, origin, buffer, unfinished⟩ := engaged.origin
    have origApart := incomplete other member orig origin
    refine ⟨(allocated apart).trans engaged.allocated,
      (congrArg CommInfo.comm (info apart)).trans engaged.comm,
      (congrArg CommInfo.peer (info apart)).trans_lt engaged.peer, orig,
      (List.mem_erase_of_ne origApart).mpr origReturned, ?_⟩
    rw [info apart, info origApart]
    exact ⟨origin, buffer, unfinished⟩
  case single =>
    have same : (rank.active n).map (fun other =>
          ((rank.release_handle handle).info other).orig_info) =
        (rank.active n).map fun other => (rank.info other).orig_info :=
      Multiset.map_congr rfl fun other member => by rw [info (different other member)]
    exact (congrArg Multiset.Nodup same).mpr sound.single
  case sender => exact sound.sender
  case placed =>
    intro operation member start size device
    rw [info (different _ (mem_active_of_operation member))]
    exact sound.placed operation member start size device
  case spare_distinct => exact List.nodup_nil
  case spare_allocated => exact fun other member => absurd member List.not_mem_nil
  case spare_returned => exact fun other member => absurd member List.not_mem_nil
  case within => exact sound.within

/-- All handles that have been waited for give their buffers back. -/
theorem release_all
    {handles : List Handle}
    (sound : rank.Sound n carved [])
    (nodup : handles.Nodup)
    (returned : ∀ handle ∈ handles, handle ∈ rank.returned)
    (completed : ∀ handle ∈ handles, (rank.info handle).completed = true) :
    (handles.foldl Rank.release_handle rank).Sound n carved [] := by
  induction handles generalizing rank with
  | nil => exact sound
  | cons handle rest inductionHypothesis =>
      obtain ⟨first, distinct⟩ := List.nodup_cons.mp nodup
      have apart : ∀ other ∈ rest, other ≠ handle := fun other member same =>
        first (same ▸ member)
      refine inductionHypothesis (sound.release_handle (returned handle List.mem_cons_self)
        (completed handle List.mem_cons_self)) distinct ?_ ?_
      · intro other member
        exact (List.mem_erase_of_ne (apart other member)).mpr
          (returned other (List.mem_cons_of_mem _ member))
      · intro other member
        have info : (rank.release_handle handle).info other = rank.info other :=
          Function.update_of_ne (apart other member) _ _
        rw [info]
        exact completed other (List.mem_cons_of_mem _ member)

/-- Every handle that has been returned has a buffer. -/
theorem held_buffers_eq
    (sound : rank.Sound n carved spare) :
    rank.held_buffers =
      rank.returned.map fun handle => ((rank.info handle).comm_buffer).getD 0 := by
  refine List.filterMap_eq_map_iff_forall_eq_some.mpr fun handle member => ?_
  obtain ⟨comm_buffer, buffer⟩ := Option.isSome_iff_exists.mp (sound.held handle member).2.2
  rw [buffer]
  rfl

/-- Every handle that has been returned has a buffer of its own. -/
theorem buffers_distinct
    (sound : rank.Sound n carved spare)
    (nodup : carved.Nodup)
    {first second : Handle}
    (firstReturned : first ∈ rank.returned)
    (secondReturned : second ∈ rank.returned)
    (same : (rank.info first).comm_buffer = (rank.info second).comm_buffer) :
    first = second := by
  have distinct : rank.held_buffers.Nodup :=
    (List.nodup_append.mp (sound.conserved.nodup_iff.mpr nodup)).2.1
  rw [sound.held_buffers_eq] at distinct
  exact List.inj_on_of_nodup_map distinct firstReturned secondReturned (by rw [same])

/-- Operations in flight have different requests. -/
theorem nodup_operations
    (sound : rank.Sound n carved spare) :
    ((rank.operations n).map Prod.snd).Nodup :=
  Multiset.nodup_of_le (Multiset.le_add_right _ _)
    (Multiset.nodup_of_le (Multiset.le_add_right _ _) sound.active_nodup)

/-- At most one operation in flight uses a buffer. -/
theorem operation_unique
    (sound : rank.Sound n carved spare)
    (nodup : carved.Nodup)
    {first second : Place × Handle}
    (firstInFlight : first ∈ rank.operations n)
    (secondInFlight : second ∈ rank.operations n)
    {start : Int}
    {firstSize secondSize : Nat}
    (firstPlace : first.1 = .device start firstSize)
    (secondPlace : second.1 = .device start secondSize) :
    first = second := by
  have firstActive := mem_active_of_operation firstInFlight
  have secondActive := mem_active_of_operation secondInFlight
  obtain ⟨orig, origReturned, origin, buffer, _⟩ := (sound.engaged _ firstActive).origin
  obtain ⟨other, otherReturned, otherOrigin, otherBuffer, _⟩ :=
    (sound.engaged _ secondActive).origin
  have same : orig = other := by
    refine sound.buffers_distinct nodup origReturned otherReturned ?_
    rw [← buffer, ← otherBuffer, (sound.placed first firstInFlight start firstSize firstPlace).1,
      (sound.placed second secondInFlight start secondSize secondPlace).1]
  have handles : first.2 = second.2 :=
    sound.active_inj firstActive secondActive (by rw [origin, otherOrigin, same])
  exact Multiset.inj_on_of_nodup_map sound.nodup_operations first firstInFlight second secondInFlight handles

end Sound

end Rank

end Ucx

end DistributedJoin
