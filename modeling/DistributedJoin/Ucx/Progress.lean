import DistributedJoin.Ucx.Callbacks

/-!
# Steps that keep the bookkeeping

The steps of UCX and of waiting. Together with calls and callbacks these are all events, so
that every event keeps the bookkeeping of all ranks.
-/

namespace DistributedJoin

namespace Ucx

open Device

namespace Rank

variable {n : Nat} {carved : List Int} {rank after : Rank}

section Release

variable (rank) (handles : List Handle)

@[simp] theorem release_all_control :
    (handles.foldl release_handle rank).control = rank.control := by
  induction handles generalizing rank with
  | nil => rfl
  | cons handle handles inductionHypothesis => exact inductionHypothesis (rank.release_handle handle)

@[simp] theorem release_all_comm_buffer_size :
    (handles.foldl release_handle rank).comm_buffer_size = rank.comm_buffer_size := by
  induction handles generalizing rank with
  | nil => rfl
  | cons handle handles inductionHypothesis => exact inductionHypothesis (rank.release_handle handle)

theorem release_all_returned :
    (handles.foldl release_handle rank).returned = rank.returned.diff handles := by
  induction handles generalizing rank with
  | nil => rfl
  | cons handle handles inductionHypothesis =>
      rw [List.diff_cons]
      exact inductionHypothesis (rank.release_handle handle)

end Release

/-- `UCXBufferCommunicator::wait`, once the handle has completed. -/
def wait (rank : Rank) (handle : Handle) : Option Rank :=
  if rank.control = .user ∧ (rank.info handle).completed then some (rank.release_handle handle)
  else none

/-- Waiting for one handle is waiting for a list of one. -/
theorem wait_eq (rank : Rank) (handle : Handle) : rank.wait handle = rank.waitall [handle] := by
  simp [wait, waitall]

/-- Waiting for handles that have been returned. -/
theorem Sound.waitall
    {handles : List Handle}
    (sound : rank.Sound n carved rank.control.outer)
    (nodup : handles.Nodup)
    (returned : ∀ handle ∈ handles, handle ∈ rank.returned)
    (waited : rank.waitall handles = some after) :
    rank.Keeps n carved after (rank.returned.diff handles) (rank.releases handles) := by
  unfold Rank.waitall at waited
  split at waited
  · rename_i enabled
    obtain ⟨idle, completed⟩ := enabled
    obtain rfl := Option.some.inj waited
    rw [idle] at sound
    have allocated : ∀ handle ∈ handles, rank.allocated handle = true := fun handle member =>
      (sound.held handle (returned handle member)).1
    refine ⟨?_, rank.release_all_comm_buffer_size handles, rank.release_all_returned handles,
      .release_all nodup allocated ?_⟩
    · rw [release_all_control, idle]
      exact sound.release_all nodup returned completed
    · intro handle member
      cases handle with
      | request index => simp [sound.requests index]
      | custom index => simp [(sound.customs index (allocated _ member)).2]
  · contradiction

/-- A callback that is due has been taken from the list. -/
theorem due_progress
    {position : Nat}
    {callback : Callback}
    (due : rank.due[position]? = some callback) :
    (rank.due.map Callback.handle : Multiset Handle) =
      callback.handle ::ₘ ((rank.due.eraseIdx position).map Callback.handle : List Handle) := by
  obtain ⟨bound, rfl⟩ := List.getElem?_eq_some_iff.mp due
  exact Multiset.coe_eq_coe.mpr ((List.getElem_cons_eraseIdx_perm bound).map _).symm

/-- A rank begins the callback of an operation that has completed. -/
theorem Sound.progress
    {position : Nat}
    {callback : Callback}
    {control : Control}
    (sound : rank.Sound n carved rank.control.outer)
    (idle : rank.control = .user)
    (due : rank.due[position]? = some callback)
    (running : control.running = {callback.handle})
    (outer : control.outer = []) :
    rank.Keeps n carved { rank with due := rank.due.eraseIdx position, control := control }
      rank.returned [] := by
  have pending : Rank.pending { rank with due := rank.due.eraseIdx position, control := control } =
      rank.pending := by
    rw [pending_of_running running, Rank.pending, due_progress due, idle]
    exact (add_zero _).symm
  refine ⟨?_, rfl, rfl, .of_same pending rfl⟩
  rw [idle] at sound
  change Rank.Sound n carved control.outer _
  rw [outer]
  refine sound.of_same rfl rfl rfl rfl rfl (active_congr rfl pending) (fun _ member => member) ?_
    sound.within
  rw [idle]
  exact fun _ sends => absurd sends (by simp [Control.sender])

/-- A callback that becomes due is pending. -/
theorem pending_due (rank : Rank) (callback : Callback) :
    Rank.pending { rank with due := rank.due ++ [callback] } = callback.handle ::ₘ rank.pending := by
  rw [Rank.pending, Rank.pending, List.map_append, ← Multiset.coe_add, add_right_comm, add_comm]
  exact Multiset.singleton_add _ _

/-- An operation in flight completes. -/
theorem Sound.completes
    {request : Handle}
    (sound : rank.Sound n carved rank.control.outer)
    (place : Place)
    (buffer_cache : after.buffer_cache = rank.buffer_cache)
    (comm_buffer_size : after.comm_buffer_size = rank.comm_buffer_size)
    (returned : after.returned = rank.returned)
    (info : after.info = rank.info)
    (allocated : after.allocated = rank.allocated)
    (control : after.control = rank.control)
    (operations : rank.operations n = (place, request) ::ₘ after.operations n)
    (pending : after.pending = request ::ₘ rank.pending)
    (within : ∀ dest, n ≤ dest → after.outgoing dest = []) :
    rank.Keeps n carved after rank.returned [(request, .completed)] := by
  refine ⟨?_, comm_buffer_size, returned, .complete allocated pending⟩
  rw [control]
  refine sound.of_same buffer_cache comm_buffer_size returned info allocated ?_ ?_ ?_ within
  · rw [active_eq, active_eq, operations, pending, Multiset.map_cons, Multiset.cons_add,
      Multiset.add_cons]
  · intro operation member
    rw [operations]
    exact Multiset.mem_cons_of_mem member
  · rw [control]
    exact fun _ same => same

/-- The operation of a message ends when its bytes are read. -/
theorem operations_takeOver
    {dest position : Nat}
    {request : Handle}
    {rest : List Message}
    (within : ∀ dest, n ≤ dest → rank.outgoing dest = [])
    (taken : takeOver rank.read position (rank.outgoing dest) = some (request, rest)) :
    dest < n ∧ ∃ place, rank.operations n = (place, request) ::ₘ
      Rank.operations n { rank with outgoing := Function.update rank.outgoing dest rest } := by
  have destBound : dest < n := by
    by_contra outside
    rw [within dest (not_lt.mp outside)] at taken
    cases position <;> contradiction
  obtain ⟨place, ended⟩ := operationsOf_takeOver taken
  have sends : sendsOf n rank.outgoing =
      (place, request) ::ₘ sendsOf n (Function.update rank.outgoing dest rest) := by
    have update := sendsOf_update destBound rank.outgoing rest
    rw [ended, Multiset.add_cons] at update
    refine add_right_cancel (b := operationsOf rest) ?_
    rw [Multiset.cons_add]
    exact update.symm
  refine ⟨destBound, place, ?_⟩
  rw [operations, sends, Multiset.cons_add]
  rfl

/-- The bytes of a message have been read. -/
theorem Sound.transmit
    {dest position : Nat}
    {request : Handle}
    {rest : List Message}
    (sound : rank.Sound n carved rank.control.outer)
    (taken : takeOver rank.read position (rank.outgoing dest) = some (request, rest)) :
    rank.Keeps n carved
      { rank with
        outgoing := Function.update rank.outgoing dest rest
        due := rank.due ++ [.send_handler request] }
      rank.returned [(request, .completed)] := by
  obtain ⟨destBound, place, ended⟩ := operations_takeOver sound.within taken
  refine sound.completes place rfl rfl rfl rfl rfl rfl ?operations ?pending ?within
  case operations => exact ended
  case pending => exact rank.pending_due (.send_handler request)
  case within =>
    intro other bound
    exact (Function.update_of_ne (Nat.ne_of_gt (destBound.trans_le bound)) _ _).trans
      (sound.within other bound)

/-- A receive that has been posted has been matched. -/
theorem Sound.deliver
    {tag : Tag}
    {receive : Posted}
    {rest : List Posted}
    {outgoing : Nat → List Message}
    (sound : rank.Sound n carved rank.control.outer)
    (taken : takePosted tag rank.posted = some (receive, rest))
    (sends : sendsOf n outgoing = sendsOf n rank.outgoing)
    (within : ∀ dest, n ≤ dest → outgoing dest = [])
    (heap : Heap)
    (counters : Cell → Int) :
    rank.Keeps n carved
      { rank with
        outgoing := outgoing
        heap := heap
        counters := counters
        posted := rest
        due := rank.due ++ [.recv_handler receive.request] }
      rank.returned [(receive.request, .completed)] := by
  have posted : (rank.posted.map fun posted => (posted.place, posted.request) : Multiset _) =
      (receive.place, receive.request) ::ₘ
        (rest.map fun posted => (posted.place, posted.request) : List _) :=
    Multiset.coe_eq_coe.mpr ((perm_takePosted taken).map _)
  refine sound.completes receive.place rfl rfl rfl rfl rfl rfl ?operations ?pending ?within
  case operations =>
    rw [operations, posted, Multiset.add_cons, ← sends]
    rfl
  case pending => exact rank.pending_due (.recv_handler receive.request)
  case within => exact within

end Rank

namespace World

variable {n : Nat} {carved : Nat → List Int} {world after : World}

/-- Events of UCX, of callbacks and of the caller on its own memory. -/
def Event.Internal : Event → Prop
  | .send .. => False
  | .recv .. => False
  | .waitall .. => False
  | _ => True

/-- UCX matches a message and a receive. -/
theorem deliver_cases
    {source dest : Nat}
    {tag : Tag}
    (delivered : world.deliver source dest tag = some after) :
    ∃ receive rest bytes received, takePosted tag (world dest).posted = some (receive, rest) ∧
      world.receive source dest tag = some (bytes, received) ∧
      after = received.set dest
        { (received dest).write bytes receive.place with
          posted := rest
          due := ((received dest).write bytes receive.place).due ++
            [.recv_handler receive.request] } := by
  obtain ⟨⟨receive, rest⟩, taken, delivered⟩ := Option.bind_eq_some_iff.mp delivered
  obtain ⟨⟨bytes, received⟩, message, same⟩ := Option.bind_eq_some_iff.mp delivered
  exact ⟨receive, rest, bytes, received, taken, message, (Option.some.inj same).symm⟩

/-- UCX matches a message and a receive, which completes. -/
theorem Sound.deliver
    {source dest : Nat}
    {tag : Tag}
    (sound : world.Sound n carved)
    (delivered : world.deliver source dest tag = some after) :
    Keeps n carved world after (fun rank => (world rank).returned)
      (world.record after (.deliver source dest tag)) := by
  obtain ⟨receive, rest, bytes, received, taken, message, rfl⟩ := deliver_cases delivered
  obtain ⟨outgoing, same, sends, within⟩ := receive_same (sound dest).within message
  obtain ⟨heap, counters, written⟩ := (received dest).write_eq bytes receive.place
  rw [record, taken, written, same]
  exact (Keeps.of_others sound (fun other _ => receive_same (sound other).within message)
    ((sound dest).deliver taken sends within heap counters)).quiet

/-- A rank begins a callback. -/
theorem Sound.progress
    {self position : Nat}
    (sound : world.Sound n carved)
    (progressed : world.progress self position = some after) :
    Keeps n carved world after (fun rank => (world rank).returned)
      (world.record after (.progress self position)) := by
  unfold World.progress at progressed
  split at progressed
  · rename_i idle
    split at progressed
    · contradiction
    · rename_i handle due
      obtain rfl := Option.some.inj progressed
      have active : handle ∈ (world self).active n := by
        rw [Rank.active_eq, Rank.pending, Rank.due_progress due]
        exact Multiset.mem_add.mpr (.inr (Multiset.mem_add.mpr (.inl (Multiset.mem_cons_self _ _))))
      have comm := ((sound self).engaged handle active).comm
      have entered := @Rank.enter_send_handler_eq
        { world self with due := (world self).due.eraseIdx position } handle comm
      rw [entered]
      exact (Keeps.of_set sound ((sound self).progress idle due rfl rfl)).quiet
    · rename_i handle due
      obtain rfl := Option.some.inj progressed
      exact (Keeps.of_set sound ((sound self).progress idle due rfl rfl)).quiet
  · contradiction

/-- Internal events keep the bookkeeping. -/
theorem Sound.internal
    {event : Event}
    (sound : world.Sound n carved)
    (internal : event.Internal)
    (stepped : world.step event = some after) :
    Keeps n carved world after (fun rank => (world rank).returned) (world.record after event) := by
  cases event with
  | send => contradiction
  | recv => contradiction
  | waitall => contradiction
  | compute self heap =>
      dsimp only [step] at stepped
      split at stepped
      · obtain rfl := Option.some.inj stepped
        apply Keeps.quiet
        apply Keeps.of_set sound
        exact ⟨(sound self).remember heap _ _ _, rfl, rfl, .of_same rfl rfl⟩
      · contradiction
  | progress self position => exact sound.progress stepped
  | send_handler self request =>
      dsimp only [step] at stepped
      split at stepped
      · rename_i handle loop control
        obtain ⟨rank, sent, rfl⟩ := Option.map_eq_some_iff.mp stepped
        rw [record, control]
        exact (Keeps.of_set sound ((sound self).send_handler control sent)).quiet
      · contradiction
  | recv_handler self address request inside =>
      dsimp only [step] at stepped
      split at stepped
      · rename_i handle outer control
        have kept := sound.recv_handler control stepped
        have active : handle ∈ (world self).active n :=
          Rank.mem_active_of_running (by rw [control]; rfl)
        have engaged := (sound self).engaged handle active
        obtain ⟨orig, _, origin, _⟩ := engaged.origin
        rw [record, control]
        dsimp only
        rw [if_neg (by rw [origin]; simp), if_neg (by rw [engaged.comm]; simp)]
        exact kept
      · contradiction
  | transmit source dest position =>
      obtain ⟨⟨request, rest⟩, taken, rfl⟩ := Option.map_eq_some_iff.mp stepped
      rw [record, taken]
      exact (Keeps.of_set sound ((sound source).transmit taken)).quiet
  | deliver source dest tag => exact sound.deliver stepped

end World

end Ucx

end DistributedJoin
