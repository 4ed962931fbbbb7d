import DistributedJoin.Ucx.Departures

/-!
# Transfers that complete

The callback of the last batch marks the handle that has been returned for its transfer as
completed, and frees handles that are not needed any more.
-/

namespace DistributedJoin

namespace Ucx

open Device

variable {n : Nat} {rank : Rank}

/-- One event after the other. -/
theorem Frame.trans
    {footprint : Footprint}
    {middle after : Rank}
    (first : Frame n footprint rank middle)
    (second : Frame n footprint middle after)
    (held : ∀ handle ∈ rank.returned, (rank.info handle).orig_info = .handle handle) :
    Frame n footprint rank after := by
  have info : ∀ handle ∈ rank.active n, footprint.Spares (rank.info handle) →
      middle.info handle = rank.info handle :=
    fun handle member => first.info handle (.inl member)
  constructor
  case mpi_rank => exact second.mpi_rank.trans first.mpi_rank
  case info =>
    intro handle used spares
    have same := first.info handle used spares
    refine (second.info handle ?_ (same ▸ spares)).trans same
    rcases used with active | returned
    · exact .inl (first.active handle active spares)
    · obtain ⟨orig, origin, apart⟩ := spares
      obtain rfl := OrigInfo.handle.inj ((held handle returned).symm.trans origin)
      exact .inr (first.returned handle returned apart)
  case returned =>
    exact fun handle member apart =>
      second.returned handle (first.returned handle member apart) apart
  case active =>
    intro handle member spares
    exact second.active handle (first.active handle member spares)
      ((info handle member spares).symm ▸ spares)
  case pending =>
    intro handle member spares
    exact second.pending handle (first.pending handle member spares)
      ((info handle (Rank.mem_active_of_pending member) spares).symm ▸ spares)
  case posted =>
    intro receive member spares
    exact second.posted receive (first.posted receive member spares)
      ((info _ (Rank.mem_active_of_posted member) spares).symm ▸ spares)
  case loop =>
    intro handle member spares
    exact (second.loop handle (first.active handle member spares)
      ((info handle member spares).symm ▸ spares)).trans (first.loop handle member spares)
  case heap =>
    exact fun address outside => (second.heap address outside).trans (first.heap address outside)
  case counters =>
    exact fun cell outside => (second.counters cell outside).trans (first.counters cell outside)
  case pointers =>
    exact fun cell outside => (second.pointers cell outside).trans (first.pointers cell outside)

/-- A larger footprint leaves less alone. -/
theorem Frame.mono
    {small large : Footprint}
    {after : Rank}
    (frame : Frame n small rank after)
    (acting : ∀ handle, small.acting handle → large.acting handle)
    (addresses : ∀ address, small.addresses address → large.addresses address)
    (counters : ∀ cell, small.counters cell → large.counters cell)
    (pointers : ∀ cell, small.pointers cell → large.pointers cell) :
    Frame n large rank after := by
  have spares : ∀ {info}, large.Spares info → small.Spares info := by
    rintro info ⟨orig, origin, apart⟩
    exact ⟨orig, origin, fun acts => apart (acting orig acts)⟩
  exact {
    mpi_rank := frame.mpi_rank
    info := fun handle used spared => frame.info handle used (spares spared)
    returned := fun handle member apart =>
      frame.returned handle member fun acts => apart (acting handle acts)
    active := fun handle member spared => frame.active handle member (spares spared)
    pending := fun handle member spared => frame.pending handle member (spares spared)
    posted := fun receive member spared => frame.posted receive member (spares spared)
    loop := fun handle member spared => frame.loop handle member (spares spared)
    heap := fun address outside => frame.heap address fun inside =>
      outside (addresses address inside)
    counters := fun cell outside => frame.counters cell fun inside =>
      outside (counters cell inside)
    pointers := fun cell outside => frame.pointers cell fun inside =>
      outside (pointers cell inside) }

namespace Rank

/-- Outside of `send_handler` there is no loop. -/
theorem loop_of_not_sending
    (sends : ∀ handle loop, rank.control ≠ .sending handle loop)
    (other : Handle) :
    rank.loop other = none := by
  unfold Rank.loop
  split
  · rename_i executed loop control
    exact absurd control (sends executed loop)
  · rfl

/-- The loop of `send_handler` is that of the handle which is executed. -/
theorem loop_of_running
    {handle other : Handle}
    (running : rank.control.running = {handle})
    (different : handle ≠ other) :
    rank.loop other = none := by
  unfold Rank.loop
  split
  · rename_i executed loop control
    rw [control] at running
    obtain rfl : executed = handle := Multiset.singleton_inj.mp running
    exact if_neg different
  · rfl

/-- A transfer has completed: the handle that has been returned for it is marked, and memory
stays as it is. -/
structure Completes (n : Nat) (rank later : Rank) (orig : Handle) : Prop where
  frame : Frame n (.only orig) rank later
  alike : ∀ other, (rank.info other).Alike (later.info other)
  completed : (later.info orig).completed = true
  same : ∃ info allocated,
    later = { rank with info := info, allocated := allocated, control := .user }

theorem Sound.transfer_completes
    {carved : List Int}
    {handle orig : Handle}
    {outer : List Handle}
    (sound : rank.Sound n carved outer)
    (running : rank.control.running = {handle})
    (origin : (rank.info handle).orig_info = .handle orig)
    (returned : orig ∈ rank.returned) :
    Completes n rank
      ((handle :: outer).foldl Rank.free_internal
        (Rank.complete { rank with control := .user } handle)) orig := by
  have held : ∀ other ∈ rank.returned, (rank.info other).orig_info = .handle other :=
    fun other member => (sound.held other member).2.1
  have completed : Rank.complete { rank with control := .user } handle =
      Rank.setInfo { rank with control := .user } orig
        { rank.info orig with completed := true } :=
    @complete_eq { rank with control := .user } handle orig origin
  have ready : (Rank.complete { rank with control := .user } handle).Sound n carved
      (handle :: outer) := by
    obtain ⟨_, _, same, _, finished⟩ := sound.complete running
    exact same ▸ finished
  rw [completed] at ready ⊢
  have info_orig : (Rank.setInfo { rank with control := .user } orig
      { rank.info orig with completed := true }).info orig =
        { rank.info orig with completed := true } := Function.update_self _ _ _
  have info_other : ∀ other, other ≠ orig → (Rank.setInfo { rank with control := .user } orig
      { rank.info orig with completed := true }).info other = rank.info other :=
    fun other different => Function.update_of_ne different _ _
  have executed : ∀ other ∈ rank.control.running,
      ¬ (Footprint.only orig).Spares (rank.info other) := by
    rintro other member ⟨found, same, apart⟩
    rw [running, Multiset.mem_singleton] at member
    subst member
    exact apart (OrigInfo.handle.inj (same.symm.trans origin))
  have frame : Frame n (.only orig) rank (Rank.setInfo { rank with control := .user } orig
      { rank.info orig with completed := true }) := {
    mpi_rank := rfl
    info := by
      rintro other _ ⟨found, same, apart⟩
      refine info_other other ?_
      rintro rfl
      exact apart (OrigInfo.handle.inj (same.symm.trans (held other returned)))
    returned := fun _ member _ => member
    active := by
      intro other member spares
      rcases Multiset.mem_add.mp member with before | inside
      · exact Multiset.mem_add.mpr (.inl before)
      · exact absurd spares (executed other inside)
    pending := by
      intro other member spares
      rcases Multiset.mem_add.mp member with before | inside
      · exact Multiset.mem_add.mpr (.inl before)
      · exact absurd spares (executed other inside)
    posted := fun _ member _ => member
    loop := by
      rintro other _ spares
      refine (loop_of_running running ?_).symm
      rintro rfl
      exact executed handle (by rw [running]; exact Multiset.mem_singleton_self _) spares
    heap := fun _ _ => rfl
    counters := fun _ _ => rfl
    pointers := fun _ _ => rfl }
  obtain ⟨info, allocated, same, alike, kept⟩ := (Rank.setInfo { rank with control := .user } orig
    { rank.info orig with completed := true }).free_all_eq (handle :: outer)
  constructor
  case frame => exact frame.free_all held ready
  case alike =>
    intro other
    rw [same]
    refine CommInfo.Alike.trans ?_ (alike other)
    by_cases here : other = orig
    · subst here
      rw [info_orig]
      exact ⟨rfl, rfl, rfl, rfl, rfl, rfl, rfl⟩
    · exact .of_eq (info_other other here)
  case completed =>
    rw [same]
    change (info orig).completed = true
    rw [kept orig (.inr ?_), info_orig]
    rw [info_orig]
    exact held orig returned
  case same => exact ⟨info, allocated, same⟩

end Rank

namespace Traffic.Consistent

variable {comm_buffer_size : Int} {buffers : Nat → List Int} {agreed : Agreement}
  {traffic : Traffic} (consistent : traffic.Consistent n comm_buffer_size buffers agreed)
include consistent

/-- `send_handler` has sent the last batch. -/
theorem send_last
    {channel : Channel}
    {sending : Sending}
    {handle : Handle}
    {index : Nat}
    {loop : SendLoop}
    {request : Option Nat}
    {later : Rank}
    {taken : List (List Byte)}
    (control : (traffic.world channel.source).control = .sending handle loop)
    (outstanding : traffic.ledger.sending channel = some sending)
    (goes_on : sending.GoesOn n comm_buffer_size (traffic.world channel.source) channel handle
      index)
    (flow : taken ++ (traffic.world.queue channel ++ sending.round.rest comm_buffer_size index) =
      Round.streams comm_buffer_size (traffic.ledger.sent channel))
    (receives : ReceiverSide comm_buffer_size (traffic.world channel.dest) channel
      (traffic.ledger.sent channel) (traffic.ledger.received channel)
      (traffic.ledger.receiving channel) taken)
    (ended : ¬ 0 < loop.nelements_remaining)
    (sent : (traffic.world channel.source).send_handler handle loop request = some later) :
    Consistent n comm_buffer_size buffers agreed
      ⟨traffic.world.set channel.source later, traffic.ledger⟩ := by
  have sound := consistent.sound channel.source
  have located := consistent.located channel.source
  have kept := (World.Keeps.of_set consistent.sound (sound.send_handler control sent)).quiet
  have returned := (consistent.booked.sending channel sending outstanding).returned
  have completes : Rank.Completes n (traffic.world channel.source) later sending.handle := by
    unfold Rank.send_handler at sent
    rw [if_neg ended] at sent
    obtain rfl := Option.some.inj sent
    rw [control] at sound
    exact sound.transfer_completes (by rw [control]; rfl) goes_on.origin returned
  obtain ⟨info, allocated, same⟩ := completes.same
  -- The loop stands behind the last batch, so that nothing has to be sent any more.
  have last : index = sending.round.number comm_buffer_size := by
    have fits := goes_on.fits
    have bound := goes_on.bound
    have stands := goes_on.stands
    have found : (traffic.world channel.source).loop handle = some loop := by
      rw [Rank.loop, control]
      exact if_pos rfl
    rw [found] at stands
    have inside := lt_batches_iff fits.per_batch_pos sending.round.count index
    change index < sending.round.number comm_buffer_size ↔ _ at inside
    rcases stands.2 with left | ⟨_, beyond⟩ <;> omega
  have frames : World.Frames n channel.source (.only sending.handle) traffic.world
      (traffic.world.set channel.source later) := .of_set completes.frame
  have clear : traffic.Clear n comm_buffer_size agreed channel.source (.only sending.handle) := {
    sending := fun _ _ _ _ _ => ⟨id, fun _ _ => id⟩
    receiving := fun _ _ _ _ _ => ⟨id, id, fun _ _ => id⟩
    buffers := fun _ _ _ _ _ _ _ => id }
  have world : ∀ other, traffic.world.set channel.source later other =
      { traffic.world other with
        info := (traffic.world.set channel.source later other).info
        allocated := (traffic.world.set channel.source later other).allocated
        control := (traffic.world.set channel.source later other).control } := by
    intro other
    by_cases here : other = channel.source
    · subst here
      rw [World.set_self, same]
    · rw [World.set_of_ne _ here]
  have queue : ∀ other, (traffic.world.set channel.source later).queue other =
      traffic.world.queue other := by
    intro other
    rw [World.queue, World.queue, world other.source]
    refine Rank.contents_congr (fun _ _ place _ _ => ?_) _
    cases place <;> rfl
  refine consistent.of_keeps frames kept ?located ?booked consistent.fits consistent.agree ?flows
  case located =>
    refine consistent.located_set (located.of_alike sound.within
      (fun other _ => completes.alike other) ?_ ?_ ?_ ?_ ?_ ?_
      (by rw [same]; exact Control.noConfusion))
    · rw [same]
      exact fun _ _ => .inl
    · rw [same]
      exact fun _ => .inl
    · rw [same]
      exact fun _ => .inl
    · rw [same]
      exact fun _ => .inl
    · rw [same]
      exact fun _ _ sends => Control.noConfusion sends
    · rw [same]
      exact fun _ _ receives => Control.noConfusion receives
  case booked =>
    refine consistent.booked.of_frames frames (kept channel.source).returned ?_ ?_ ?_
    · intro other _
      rw [World.set_self]
      exact completes.alike other
    · rw [World.set_self, same]
    · rw [World.set_self, same]
  case flows =>
    have apart := consistent.booked.apart_of_sending outstanding
    refine consistent.flows_kept frames clear (· = channel)
      (fun other different => ⟨(apart other).1 different, (apart other).2⟩)
      (fun _ _ => ⟨rfl, rfl, rfl, rfl⟩) (fun other _ _ => queue other) ?_
    rintro other _ rfl
    rw [last, Round.rest_number] at flow
    refine ⟨taken, [], ?_, ?_, consistent.receiver_kept frames clear (apart other).2 receives⟩
    · rw [queue]
      exact flow
    · change SenderSide n comm_buffer_size (traffic.world.set other.source later other.source)
        other (traffic.ledger.sending other) _
      rw [outstanding, World.set_self]
      exact .completed completes.completed

end Traffic.Consistent

end Ucx

end DistributedJoin
