import DistributedJoin.Ucx.Framing

/-!
# Steps that no transfer goes on with

Changes of the caller's own memory, the beginning of callbacks, the transport of bytes and
waiting. They keep what has been sent and received on every channel.
-/

namespace DistributedJoin

namespace Ucx

open Device

/-- Handles that are released change, and nothing else does. -/
theorem Rank.release_all_eq (rank : Rank) (handles : List Handle) :
    ∃ buffer_cache info allocated returned,
      handles.foldl Rank.release_handle rank =
          { rank with
            buffer_cache := buffer_cache
            info := info
            allocated := allocated
            returned := returned } ∧
        ∀ handle, handle ∉ handles → info handle = rank.info handle := by
  induction handles generalizing rank with
  | nil => exact ⟨_, _, _, _, rfl, fun _ _ => rfl⟩
  | cons first rest inductionHypothesis =>
      obtain ⟨buffer_cache, info, allocated, returned, same, kept⟩ :=
        inductionHypothesis (rank.release_handle first)
      refine ⟨buffer_cache, info, allocated, returned, same, fun handle outside => ?_⟩
      obtain ⟨different, later⟩ := not_or.mp (List.mem_cons.not.mp outside)
      exact (kept handle later).trans (Function.update_of_ne different _ _)

namespace Traffic

namespace Consistent

variable {n : Nat} {comm_buffer_size : Int} {buffers : Nat → List Int} {agreed : Agreement}
  {traffic : Traffic} {after : World}
  (consistent : traffic.Consistent n comm_buffer_size buffers agreed)
include consistent

/-- An event that acts for no transfer spares all messages. -/
theorem spares_messages
    {caller : Nat}
    {footprint : Footprint}
    (idle : ∀ handle, ¬ footprint.acting handle) :
    traffic.SparesMessages caller footprint := by
  intro dest message member place request payload
  have sound := consistent.sound caller
  have active := Rank.mem_active_of_operation
    (Rank.operation_of_outgoing sound.within member payload)
  obtain ⟨orig, _, origin, _⟩ := (sound.engaged request active).origin
  exact ⟨orig, origin, idle orig⟩

/-- A step that acts for no transfer. -/
theorem quiet_step
    {caller : Nat}
    {footprint : Footprint}
    {record : Nat → Record}
    (frames : World.Frames n caller footprint traffic.world after)
    (clear : traffic.Clear n comm_buffer_size agreed caller footprint)
    (idle : ∀ handle, ¬ footprint.acting handle)
    (kept : World.Keeps n buffers traffic.world after (fun rank => (traffic.world rank).returned)
      record)
    (info : ∀ rank, (after rank).info = (traffic.world rank).info)
    (malloced : ∀ rank, (after rank).malloced = (traffic.world rank).malloced)
    (pointers : ∀ rank, (after rank).pointers = (traffic.world rank).pointers)
    (located : ∀ rank, (after rank).Located n rank)
    (queue : ∀ channel, channel.Valid n →
      after.queue channel = traffic.world.queue channel) :
    Consistent n comm_buffer_size buffers agreed ⟨after, traffic.ledger⟩ := by
  refine consistent.of_keeps frames kept located ?booked consistent.fits consistent.agree ?flows
  case booked =>
    exact consistent.booked.congr (fun rank => (kept rank).returned)
      (fun rank handle _ => .of_eq (by rw [info rank])) malloced pointers
  case flows =>
    exact consistent.flows_kept frames clear (fun _ => False)
      (fun _ _ => ⟨fun _ _ _ => idle _, fun _ _ _ => idle _⟩)
      (fun _ _ => ⟨rfl, rfl, rfl, rfl⟩) (fun channel valid _ => queue channel valid)
      fun _ _ => False.elim

/-- Only one rank changes. -/
theorem located_set
    {caller : Nat}
    {later : Rank}
    (located : later.Located n caller) :
    ∀ rank, (traffic.world.set caller later rank).Located n rank := by
  intro rank
  by_cases here : rank = caller
  · subst here
    rw [World.set_self]
    exact located
  · rw [World.set_of_ne _ here]
    exact consistent.located rank

/-- The caller changes its own memory. -/
theorem compute
    {self : Nat}
    {heap : Heap}
    (obeys : traffic.Obeys n comm_buffer_size buffers agreed (.compute self heap))
    (stepped : traffic.world.step (.compute self heap) = some after) :
    Consistent n comm_buffer_size buffers agreed ⟨after, traffic.ledger⟩ := by
  have internal : World.Event.Internal (.compute self heap) := trivial
  have kept := consistent.sound.internal internal stepped
  dsimp only [World.step] at stepped
  split at stepped
  · obtain rfl := Option.some.inj stepped
    let footprint : Footprint :=
      { Footprint.nothing with
        addresses := fun address =>
          ¬ traffic.InUse agreed self address (buffers self) comm_buffer_size }
    have frames : World.Frames n self footprint traffic.world
        (traffic.world.set self { traffic.world self with heap := heap }) :=
      .of_set {
        mpi_rank := rfl
        info := fun _ _ _ => rfl
        returned := fun _ member _ => member
        active := fun _ member _ => member
        pending := fun _ member _ => member
        posted := fun _ member _ => member
        loop := fun _ _ _ => rfl
        heap := fun address used => obeys address (not_not.mp used)
        counters := fun _ _ => rfl
        pointers := fun _ _ => rfl }
    have clear : traffic.Clear n comm_buffer_size agreed self footprint :=
      consistent.clear_of (fun _ => .unused) (fun _ _ _ _ _ => id) fun _ _ _ _ _ => ⟨id, id⟩
    have same : ∀ rank, traffic.world.set self { traffic.world self with heap := heap } rank =
        { traffic.world rank with
          heap := (traffic.world.set self { traffic.world self with heap := heap } rank).heap } := by
      intro rank
      by_cases here : rank = self
      · subst here
        rw [World.set_self]
      · rw [World.set_of_ne _ here]
    refine consistent.quiet_step frames clear (fun _ => id) kept ?_ ?_ ?_ ?_ ?_
    · exact fun rank => by rw [same rank]
    · exact fun rank => by rw [same rank]
    · exact fun rank => by rw [same rank]
    · have located := consistent.located self
      exact consistent.located_set (located.of_alike (consistent.sound self).within
        (fun _ _ => .of_eq rfl) (fun _ _ => .inl) (fun _ => .inl) (fun _ => .inl) (fun _ => .inl)
        located.sending located.receiving located.alive)
    · intro channel valid
      exact consistent.queue_kept frames clear (consistent.spares_messages fun _ => id)
        (by rw [same channel.source])
  · contradiction

/-- UCX reads the bytes of a message. -/
theorem transmit
    {source dest position : Nat}
    (stepped : traffic.world.step (.transmit source dest position) = some after) :
    Consistent n comm_buffer_size buffers agreed ⟨after, traffic.ledger⟩ := by
  have internal : World.Event.Internal (.transmit source dest position) := trivial
  have kept := consistent.sound.internal internal stepped
  obtain ⟨⟨request, rest⟩, taken, rfl⟩ := Option.map_eq_some_iff.mp stepped
  have sound := consistent.sound source
  have located := consistent.located source
  obtain ⟨_, place, ended⟩ := Rank.operations_takeOver sound.within taken
  obtain ⟨⟨sent, member, sent_place, payload⟩, remaining⟩ := mem_takeOver taken
  let later : Rank :=
    { traffic.world source with
      outgoing := Function.update (traffic.world source).outgoing dest rest
      due := (traffic.world source).due ++ [.send_handler request] }
  have pending : later.pending = request ::ₘ (traffic.world source).pending :=
    (traffic.world source).pending_due (.send_handler request)
  have active : later.active n = (traffic.world source).active n := by
    rw [Rank.active_eq, Rank.active_eq, pending, ended, Multiset.map_cons, Multiset.cons_add,
      Multiset.add_cons]
    rfl
  have frames : World.Frames n source .nothing traffic.world (traffic.world.set source later) :=
    .of_set {
      mpi_rank := rfl
      info := fun _ _ _ => rfl
      returned := fun _ member _ => member
      active := fun handle member _ => active ▸ member
      pending := fun handle member _ => pending ▸ Multiset.mem_cons_of_mem member
      posted := fun _ member _ => member
      loop := fun _ _ _ => rfl
      heap := fun _ _ => rfl
      counters := fun _ _ => rfl
      pointers := fun _ _ => rfl }
  have clear : traffic.Clear n comm_buffer_size agreed source .nothing := {
    sending := fun _ _ _ _ _ => ⟨id, fun _ _ => id⟩
    receiving := fun _ _ _ _ _ => ⟨id, id, fun _ _ => id⟩
    buffers := fun _ _ _ _ _ _ _ => id }
  have same : ∀ rank, traffic.world.set source later rank =
      { traffic.world rank with
        outgoing := (traffic.world.set source later rank).outgoing
        due := (traffic.world.set source later rank).due } := by
    intro rank
    by_cases here : rank = source
    · subst here
      rw [World.set_self]
    · rw [World.set_of_ne _ here]
  refine consistent.quiet_step frames clear (fun _ => id) kept ?_ ?_ ?_ ?_ ?_
  · exact fun rank => by rw [same rank]
  · exact fun rank => by rw [same rank]
  · exact fun rank => by rw [same rank]
  · refine consistent.located_set (located.of_alike sound.within (fun _ _ => .of_eq rfl) ?_
      (fun _ => .inl) ?_ ?_ located.sending located.receiving located.alive)
    · intro other message present
      by_cases there : other = dest
      · subst there
        have listed : message ∈ rest := by
          have here : message ∈ Function.update (traffic.world source).outgoing other rest other :=
            present
          rwa [Function.update_self] at here
        rcases remaining message listed with before | ⟨old, before, bytes, rfl⟩
        · exact .inl before
        · exact .inr {
            tag := (located.outgoing other old before).tag
            peer := fun _ _ pending => by contradiction
            user_tag := fun _ _ pending => by contradiction
            types := fun _ _ pending => by contradiction
            count := fun _ _ pending => by contradiction }
      · refine .inl ?_
        have here : message ∈ Function.update (traffic.world source).outgoing dest rest other :=
          present
        rwa [Function.update_of_ne there] at here
    · intro handle present
      rcases List.mem_append.mp present with before | last
      · exact .inl before
      · obtain rfl := Callback.send_handler.inj (List.mem_singleton.mp last)
        exact .inr ((located.outgoing dest sent member).types sent_place handle payload)
    · intro handle present
      rcases List.mem_append.mp present with before | last
      · exact .inl before
      · exact Callback.noConfusion (List.mem_singleton.mp last)
  · intro channel valid
    by_cases here : channel.source = source
    · rw [World.queue, World.queue, here, World.set_self]
      have contents : ∀ messages, later.contents channel.comm_tag messages =
          (traffic.world source).contents channel.comm_tag messages := by
        intro messages
        refine Rank.contents_congr (fun _ _ place _ _ => ?_) _
        cases place <;> rfl
      rw [Rank.queue, contents, Rank.queue]
      change (traffic.world source).contents channel.comm_tag
        (Function.update (traffic.world source).outgoing dest rest channel.dest) = _
      by_cases there : channel.dest = dest
      · rw [there, Function.update_self]
        exact (traffic.world source).contents_takeOver taken channel.comm_tag
      · rw [Function.update_of_ne there]
    · rw [World.queue, World.queue, World.set_of_ne _ here]

/-- A rank begins `recv_handler`. -/
theorem progress_recv
    {self position : Nat}
    {handle : Handle}
    (idle : (traffic.world self).control = .user)
    (due : (traffic.world self).due[position]? = some (.recv_handler handle))
    (stepped : traffic.world.step (.progress self position) = some after) :
    Consistent n comm_buffer_size buffers agreed ⟨after, traffic.ledger⟩ := by
  have internal : World.Event.Internal (.progress self position) := trivial
  have kept := consistent.sound.internal internal stepped
  let later : Rank :=
    { traffic.world self with
      due := (traffic.world self).due.eraseIdx position
      control := .receiving handle [] }
  obtain rfl : traffic.world.set self later = after := by
    dsimp only [World.step, World.progress] at stepped
    rw [if_pos idle, due] at stepped
    exact Option.some.inj stepped
  have located := consistent.located self
  have pending : later.pending = (traffic.world self).pending := by
    have running : later.control.running = {handle} := rfl
    rw [Rank.pending_of_running running, Rank.pending, Rank.due_progress due, idle]
    exact (add_zero _).symm
  have active : later.active n = (traffic.world self).active n := Rank.active_congr rfl pending
  have frames : World.Frames n self .nothing traffic.world (traffic.world.set self later) :=
    .of_set {
      mpi_rank := rfl
      info := fun _ _ _ => rfl
      returned := fun _ member _ => member
      active := fun handle member _ => active ▸ member
      pending := fun handle member _ => pending ▸ member
      posted := fun _ member _ => member
      loop := by
        intro other _ _
        rw [Rank.loop, Rank.loop, idle]
      heap := fun _ _ => rfl
      counters := fun _ _ => rfl
      pointers := fun _ _ => rfl }
  have clear : traffic.Clear n comm_buffer_size agreed self .nothing := {
    sending := fun _ _ _ _ _ => ⟨id, fun _ _ => id⟩
    receiving := fun _ _ _ _ _ => ⟨id, id, fun _ _ => id⟩
    buffers := fun _ _ _ _ _ _ _ => id }
  have same : ∀ rank, traffic.world.set self later rank =
      { traffic.world rank with
        due := (traffic.world.set self later rank).due
        control := (traffic.world.set self later rank).control } := by
    intro rank
    by_cases here : rank = self
    · subst here
      rw [World.set_self]
    · rw [World.set_of_ne _ here]
  refine consistent.quiet_step frames clear (fun _ => id) kept ?_ ?_ ?_ ?_ ?_
  · exact fun rank => by rw [same rank]
  · exact fun rank => by rw [same rank]
  · exact fun rank => by rw [same rank]
  · refine consistent.located_set (located.of_alike (consistent.sound self).within
      (fun _ _ => .of_eq rfl) (fun _ _ => .inl) (fun _ => .inl) ?_ ?_ ?_ ?_ Control.noConfusion)
    · exact fun other member => .inl (List.mem_of_mem_eraseIdx member)
    · exact fun other member => .inl (List.mem_of_mem_eraseIdx member)
    · exact fun other loop sends => by contradiction
    · intro other outer receives
      obtain ⟨rfl, _⟩ := Control.receiving.inj receives
      exact located.receives handle (List.mem_of_getElem? due)
  · intro channel valid
    exact consistent.queue_kept frames clear (consistent.spares_messages fun _ => id)
      (by rw [same channel.source])

/-- A rank begins `send_handler`. -/
theorem progress_send
    {self position : Nat}
    {handle : Handle}
    (idle : (traffic.world self).control = .user)
    (due : (traffic.world self).due[position]? = some (.send_handler handle))
    (stepped : traffic.world.step (.progress self position) = some after) :
    Consistent n comm_buffer_size buffers agreed ⟨after, traffic.ledger⟩ := by
  have internal : World.Event.Internal (.progress self position) := trivial
  have kept := consistent.sound.internal internal stepped
  have located := consistent.located self
  have sound := consistent.sound self
  have listed := List.mem_of_getElem? due
  have active : handle ∈ (traffic.world self).active n := Rank.mem_active_of_due listed
  rcases consistent.transfer_of_active active with
    ⟨channel, sending, index, rfl, valid, outstanding, goes_on, taken, flow, receives⟩ |
    ⟨channel, receiving, _, _, _, _, _, describes⟩
  · let rank := traffic.world channel.source
    let loop : SendLoop := .enter (rank.per_batch (rank.info handle))
      (rank.total (rank.info handle)) (rank.info handle).ibatch
    let later : Rank :=
      { rank with
        due := rank.due.eraseIdx position
        control := .sending handle loop }
    obtain rfl : traffic.world.set channel.source later = after := by
      dsimp only [World.step, World.progress] at stepped
      have entered := @Rank.enter_send_handler_eq
        { traffic.world channel.source with
          due := (traffic.world channel.source).due.eraseIdx position } handle
        (sound.engaged handle active).comm
      rw [if_pos idle, due] at stepped
      dsimp only at stepped
      rw [entered] at stepped
      exact Option.some.inj stepped
    have pending : later.pending = rank.pending := by
      have running : later.control.running = {handle} := rfl
      rw [Rank.pending_of_running running, Rank.pending, Rank.due_progress due, idle]
      exact (add_zero _).symm
    have same_active : later.active n = rank.active n := Rank.active_congr rfl pending
    have frames : World.Frames n channel.source (.only sending.handle) traffic.world
        (traffic.world.set channel.source later) :=
      .of_set {
        mpi_rank := rfl
        info := fun _ _ _ => rfl
        returned := fun _ member _ => member
        active := fun handle member _ => same_active ▸ member
        pending := fun handle member _ => pending ▸ member
        posted := fun _ member _ => member
        loop := by
          rintro other _ ⟨orig, origin, apart⟩
          have different : handle ≠ other := by
            rintro rfl
            exact apart (OrigInfo.handle.inj (origin.symm.trans goes_on.origin))
          rw [Rank.loop, Rank.loop, idle]
          exact if_neg different
        heap := fun _ _ => rfl
        counters := fun _ _ => rfl
        pointers := fun _ _ => rfl }
    have clear : traffic.Clear n comm_buffer_size agreed channel.source (.only sending.handle) := {
      sending := fun _ _ _ _ _ => ⟨id, fun _ _ => id⟩
      receiving := fun _ _ _ _ _ => ⟨id, id, fun _ _ => id⟩
      buffers := fun _ _ _ _ _ _ _ => id }
    have same : ∀ other, traffic.world.set channel.source later other =
        { traffic.world other with
          due := (traffic.world.set channel.source later other).due
          control := (traffic.world.set channel.source later other).control } := by
      intro other
      by_cases here : other = channel.source
      · subst here
        rw [World.set_self]
      · rw [World.set_of_ne _ here]
    have queue : ∀ other, (traffic.world.set channel.source later).queue other =
        traffic.world.queue other := by
      intro other
      rw [World.queue, World.queue, same other.source]
      refine Rank.contents_congr (fun _ _ place _ _ => ?_) _
      cases place <;> rfl
    refine consistent.of_keeps frames kept ?located ?booked consistent.fits consistent.agree ?flows
    case located =>
      refine consistent.located_set (located.of_alike sound.within (fun _ _ => .of_eq rfl)
        (fun _ _ => .inl) (fun _ => .inl) ?_ ?_ ?_ ?_ Control.noConfusion)
      · exact fun other member => .inl (List.mem_of_mem_eraseIdx member)
      · exact fun other member => .inl (List.mem_of_mem_eraseIdx member)
      · intro other other_loop sends
        obtain ⟨rfl, _⟩ := Control.sending.inj sends
        exact located.sends handle listed
      · exact fun other outer receives => by contradiction
    case booked =>
      exact consistent.booked.congr (fun rank => (kept rank).returned)
        (fun rank _ _ => .of_eq (by rw [same rank])) (fun rank => by rw [same rank])
        fun rank => by rw [same rank]
    case flows =>
      have apart := consistent.booked.apart_of_sending outstanding
      refine consistent.flows_kept frames clear (· = channel)
        (fun other different => ⟨(apart other).1 different, (apart other).2⟩)
        (fun _ _ => ⟨rfl, rfl, rfl, rfl⟩) (fun other _ _ => queue other) ?_
      rintro other _ rfl
      refine ⟨taken, sending.round.rest comm_buffer_size index, ?_, ?_,
        consistent.receiver_kept frames clear (apart other).2 receives⟩
      · rw [queue]
        exact flow
      · change SenderSide n comm_buffer_size (traffic.world.set other.source later other.source)
          other (traffic.ledger.sending other) _
        rw [outstanding, World.set_self]
        refine .active { goes_on with
          active := same_active ▸ goes_on.active
          stands := ?_ }
        have stands := goes_on.stands
        have none : rank.loop handle = none := by
          rw [Rank.loop, idle]
        have some : later.loop handle = some loop := if_pos rfl
        rw [none] at stands
        rw [some]
        obtain ⟨per_batch, total⟩ := goes_on.sizes (consistent.comm_buffer_size other.source)
        change SendLoop.Before _ _ _ (.enter (rank.per_batch (rank.info handle))
          (rank.total (rank.info handle)) (rank.info handle).ibatch)
        rw [per_batch, total, stands]
        exact SendLoop.before_enter goes_on.fits.addressable goes_on.fits.per_batch_pos
          goes_on.bound
  · have types := (located.sends handle listed).symm.trans describes.types
    contradiction

/-- Handles that have completed are waited for. -/
theorem waitall
    {self : Nat}
    {handles : List Handle}
    (obeys : traffic.Obeys n comm_buffer_size buffers agreed (.waitall self handles))
    (stepped : traffic.world.step (.waitall self handles) = some after) :
    Consistent n comm_buffer_size buffers agreed
      ⟨after, traffic.ledger.waitall self handles⟩ := by
  obtain ⟨nodup, listed⟩ := obeys
  obtain ⟨rank, waited, rfl⟩ := Option.map_eq_some_iff.mp stepped
  have sound := consistent.sound self
  have located := consistent.located self
  have here := sound.waitall nodup listed waited
  have kept := World.Keeps.of_set consistent.sound here
  have enabled : (traffic.world self).control = .user ∧
      (∀ handle ∈ handles, ((traffic.world self).info handle).completed) ∧
      rank = handles.foldl Rank.release_handle (traffic.world self) := by
    unfold Rank.waitall at waited
    split at waited
    · rename_i enabled
      exact ⟨enabled.1, enabled.2, (Option.some.inj waited).symm⟩
    · contradiction
  obtain ⟨idle, completed, released⟩ := enabled
  have returned := here.returned
  obtain ⟨buffer_cache, info, allocated, remaining, same, unchanged⟩ :=
    (traffic.world self).release_all_eq handles
  let later : Rank :=
    { traffic.world self with
      buffer_cache := buffer_cache
      info := info
      allocated := allocated
      returned := remaining }
  obtain rfl : rank = later := released.trans same
  -- No transfer of a handle that has completed goes on.
  have passive : ∀ handle ∈ (traffic.world self).active n, handle ∉ handles := by
    intro handle active member
    exact sound.passive_of_completed (completed handle member) handle active
      (consistent.origin_self (listed handle member))
  have remains : ∀ handle, handle ∈ remaining ↔
      handle ∈ (traffic.world self).returned ∧ handle ∉ handles := by
    intro handle
    rw [show remaining = (traffic.world self).returned.diff handles from returned]
    exact sound.distinct.mem_sdiff_iff
  let footprint : Footprint := { Footprint.nothing with acting := (· ∈ handles) }
  have frames : World.Frames n self footprint traffic.world (traffic.world.set self later) :=
    .of_set {
      mpi_rank := rfl
      info := by
        rintro handle (active | member) ⟨orig, origin, apart⟩
        · exact unchanged handle (passive handle active)
        · obtain rfl := OrigInfo.handle.inj ((consistent.origin_self member).symm.trans origin)
          exact unchanged handle apart
      returned := fun handle member apart => (remains handle).mpr ⟨member, apart⟩
      active := fun _ member _ => member
      pending := fun _ member _ => member
      posted := fun _ member _ => member
      loop := fun _ _ _ => rfl
      heap := fun _ _ => rfl
      counters := fun _ _ => rfl
      pointers := fun _ _ => rfl }
  have clear : traffic.Clear n comm_buffer_size agreed self footprint := {
    sending := fun _ _ _ _ _ => ⟨id, fun _ _ => id⟩
    receiving := fun _ _ _ _ _ => ⟨id, id, fun _ _ => id⟩
    buffers := fun _ _ _ _ _ _ _ => id }
  have same : ∀ rank, traffic.world.set self later rank =
      { traffic.world rank with
        buffer_cache := (traffic.world.set self later rank).buffer_cache
        info := (traffic.world.set self later rank).info
        allocated := (traffic.world.set self later rank).allocated
        returned := (traffic.world.set self later rank).returned } := by
    intro rank
    by_cases here : rank = self
    · subst here
      rw [World.set_self]
    · rw [World.set_of_ne _ here]
  have queue : ∀ channel, (traffic.world.set self later).queue channel =
      traffic.world.queue channel := by
    intro channel
    rw [World.queue, World.queue, same channel.source]
    refine Rank.contents_congr (fun _ _ place _ _ => ?_) _
    cases place <;> rfl
  refine consistent.of_keeps frames kept ?located ?booked consistent.fits consistent.agree ?flows
  case located =>
    exact consistent.located_set (located.of_alike sound.within
      (fun handle active => .of_eq (unchanged handle (passive handle active)))
      (fun _ _ => .inl) (fun _ => .inl) (fun _ => .inl) (fun _ => .inl)
      (fun _ _ sends => by rw [idle] at sends; contradiction)
      (fun _ _ receives => by rw [idle] at receives; contradiction) located.alive)
  case booked =>
    refine consistent.booked.waitall ?_ ?_ (fun rank => by rw [same rank])
      fun rank => by rw [same rank]
    · intro rank handle
      by_cases here : rank = self
      · subst here
        rw [World.set_self, remains]
        simp
      · rw [World.set_of_ne _ here]
        simp [here]
    · intro rank handle member
      by_cases here : rank = self
      · subst here
        rw [World.set_self] at member ⊢
        exact unchanged handle ((remains handle).mp member).2
      · rw [World.set_of_ne _ here]
  case flows =>
    intro channel valid
    obtain ⟨taken, unsent, flow, sends, receives⟩ := consistent.flows channel valid
    refine ⟨taken, unsent, ?_, ?_, ?_⟩
    · rw [queue]
      exact flow
    · change SenderSide n comm_buffer_size (traffic.world.set self later channel.source) channel
        ((traffic.ledger.waitall self handles).sending channel) unsent
      by_cases ended : ∃ sending, traffic.ledger.sending channel = some sending ∧
          channel.source = self ∧ sending.handle ∈ handles
      · obtain ⟨sending, outstanding, rfl, member⟩ := ended
        have none : (traffic.ledger.waitall channel.source handles).sending channel = none := by
          simp [Ledger.waitall, outstanding, member]
        rw [none]
        rw [outstanding] at sends
        cases sends with
        | active goes_on =>
            exact absurd goes_on.origin (sound.passive_of_completed
              (completed sending.handle member) _ goes_on.active)
        | completed completed => exact .idle
      · have remains : ∀ sending, traffic.ledger.sending channel = some sending →
            channel.source = self → sending.handle ∉ handles :=
          fun sending outstanding source member => ended ⟨sending, outstanding, source, member⟩
        rw [Ledger.sending_waitall remains]
        exact consistent.sender_kept frames clear remains sends
    · change ReceiverSide comm_buffer_size (traffic.world.set self later channel.dest) channel
        (traffic.ledger.sent channel) (traffic.ledger.received channel)
        ((traffic.ledger.waitall self handles).receiving channel) taken
      by_cases ended : ∃ receiving, traffic.ledger.receiving channel = some receiving ∧
          channel.dest = self ∧ receiving.handle ∈ handles
      · obtain ⟨receiving, outstanding, rfl, member⟩ := ended
        have none : (traffic.ledger.waitall channel.dest handles).receiving channel = none := by
          simp [Ledger.waitall, outstanding, member]
        have received := consistent.booked.received channel receiving outstanding
        have passive_origin := sound.passive_of_completed (completed receiving.handle member)
        rw [none]
        rw [outstanding] at receives
        cases receives with
        | announced le goes_on posted =>
            exact absurd goes_on.origin (passive_origin _ (Rank.mem_active_of_posted posted))
        | posted found bound goes_on buffer posted collected =>
            exact absurd goes_on.origin (passive_origin _ (Rank.mem_active_of_posted posted))
        | arrived found bound goes_on pending stored collected =>
            exact absurd goes_on.origin (passive_origin _ (Rank.mem_active_of_pending pending))
        | completed found completed collected =>
            rw [received]
            refine .idle ?_
            rw [← received]
            exact (List.getElem?_eq_some_iff.mp found).1
      · have remains : ∀ receiving, traffic.ledger.receiving channel = some receiving →
            channel.dest = self → receiving.handle ∉ handles :=
          fun receiving outstanding dest member => ended ⟨receiving, outstanding, dest, member⟩
        rw [Ledger.receiving_waitall remains]
        exact consistent.receiver_kept frames clear remains receives

end Consistent

end Traffic

end Ucx

end DistributedJoin
