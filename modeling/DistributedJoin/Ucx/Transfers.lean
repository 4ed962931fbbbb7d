import DistributedJoin.Ucx.Actions
import DistributedJoin.Ucx.Conservation

/-!
# Sends and the buffers

A call of `send` posts its header, takes a buffer and fills in its handle. If the header has
been sent at once, the callback is executed within the call.
-/

namespace DistributedJoin

namespace Ucx

open Device

namespace Rank

/-- A rank keeps its bookkeeping in an event. The handles that it has returned, and what is
done with handles, are as given. -/
structure Keeps
    (n : Nat)
    (carved : List Int)
    (before after : Rank)
    (returned : List Handle)
    (record : Record) : Prop where
  sound : after.Sound n carved after.control.outer
  comm_buffer_size : after.comm_buffer_size = before.comm_buffer_size
  returned : after.returned = returned
  balanced : Balanced before after record

variable {n : Nat} {carved : List Int} {rank after : Rank}

section Push

variable (rank) {dest : Nat} (destBound : dest < n) (tag : Tag)
include destBound

theorem sendsOf_push (message : Message) :
    sendsOf n (rank.push dest message).outgoing =
      sendsOf n rank.outgoing + operationsOf [message] := by
  have update := sendsOf_update destBound rank.outgoing (rank.outgoing dest ++ [message])
  rw [operationsOf_append, add_comm (operationsOf _), ← add_assoc] at update
  exact add_right_cancel update

theorem operations_push_taken (bytes : List Byte) :
    (rank.push dest ⟨tag, .taken bytes⟩).operations n = rank.operations n := by
  rw [operations, rank.sendsOf_push destBound, operationsOf_taken, add_zero]
  rfl

theorem operations_push_pending (place : Place) (request : Handle) :
    (rank.push dest ⟨tag, .pending place request⟩).operations n =
      (place, request) ::ₘ rank.operations n := by
  rw [operations, rank.sendsOf_push destBound, operationsOf_pending, operations,
    ← Multiset.singleton_add]
  ac_rfl

theorem within_push
    (within : ∀ dest, n ≤ dest → rank.outgoing dest = [])
    (message : Message) :
    ∀ other, n ≤ other → (rank.push dest message).outgoing other = [] := by
  intro other bound
  exact (Function.update_of_ne (Nat.ne_of_gt (destBound.trans_le bound)) _ _).trans
    (within other bound)

end Push

/-- The header of a send is on its way, for a handle that has been free. -/
structure HeaderSent
    (n : Nat)
    (before after : Rank)
    (custom : Nat)
    (request : Option Nat)
    (handle : Handle) : Prop where
  handle_eq : handle = sent_handle custom request
  free : before.allocated handle = false
  buffer_cache : after.buffer_cache = before.buffer_cache
  comm_buffer_size : after.comm_buffer_size = before.comm_buffer_size
  returned : after.returned = before.returned
  control : after.control = before.control
  due : after.due = before.due
  allocated : after.allocated = Function.update before.allocated handle true
  info : ∀ other, other ≠ handle → after.info other = before.info other
  incomplete : (after.info handle).completed = false
  custom_allocated : (after.info handle).custom_allocated = request.isNone
  /-- The header has an operation of its own, unless it has been sent at once. -/
  operations : match request with
    | none => after.operations n = before.operations n
    | some _ => ∃ cell, after.operations n = (.counter cell, handle) ::ₘ before.operations n
  within : ∀ dest, n ≤ dest → after.outgoing dest = []

theorem Sound.post_count
    {spare : List Handle}
    (sound : rank.Sound n carved spare)
    {count tag : Int}
    {dest custom : Nat}
    {request : Option Nat}
    {handle : Handle}
    (free : rank.allocated (.custom custom) = false)
    (destBound : dest < n)
    (posted : rank.post_count count dest tag custom request = some (handle, after)) :
    HeaderSent n rank after custom request handle := by
  cases request with
  | none =>
      obtain ⟨rfl, rfl⟩ := by simpa only [Rank.post_count, ucp_tag_send_nb, Option.bind_eq_bind,
        Option.bind_some, Option.some.injEq, Prod.mk.injEq] using posted
      exact {
        handle_eq := rfl
        free := free
        buffer_cache := rfl
        comm_buffer_size := rfl
        returned := rfl
        control := rfl
        due := rfl
        allocated := rfl
        info := fun other different => Function.update_of_ne different _ _
        incomplete := by simp [setInfo]
        custom_allocated := by simp [setInfo]
        operations := operations_push_taken (rank.malloc_counter count) destBound _ _
        within := within_push (rank.malloc_counter count) destBound sound.within _ }
  | some index =>
      obtain ⟨sent, header, same⟩ := Option.bind_eq_some_iff.mp posted
      obtain ⟨rfl, rfl⟩ := by simpa only [Option.some.injEq, Prod.mk.injEq] using same
      obtain ⟨unused, rfl⟩ := by simpa only [ucp_tag_send_nb, Option.ite_none_left_eq_some,
        Option.some.injEq] using header
      have free : rank.allocated (.request index) = false := (Bool.not_eq_true _).mp unused
      exact {
        handle_eq := rfl
        free := free
        buffer_cache := rfl
        comm_buffer_size := rfl
        returned := rfl
        control := rfl
        due := rfl
        allocated := rfl
        info := fun _ _ => rfl
        incomplete := (sound.idle index free).2
        custom_allocated := sound.requests index
        operations := ⟨_, operations_push_pending
          ((rank.malloc_counter count).allocate (.request index)) destBound _ _ _⟩
        within := within_push ((rank.malloc_counter count).allocate (.request index)) destBound
          sound.within _ }

/-- Fill in a handle that is returned to the caller. -/
def fill
    (rank : Rank)
    (handle : Handle)
    (info : CommInfo)
    (rest : List Int)
    (control : Control) : Rank :=
  { rank.setInfo handle info with
    buffer_cache := rest
    returned := rank.returned ++ [handle]
    control := control }

/-- The handle of a header is filled in and takes a buffer. -/
theorem HeaderSent.acquire
    {ready : Rank}
    {custom : Nat}
    {request : Option Nat}
    {handle : Handle}
    (header : HeaderSent n rank ready custom request handle)
    (sound : rank.Sound n carved rank.control.outer)
    (idle : rank.control = .user)
    {comm_buffer : Int}
    {rest : List Int}
    (queue : ready.buffer_cache = comm_buffer :: rest)
    {info : CommInfo}
    (comm : info.comm = true)
    (orig_info : info.orig_info = .handle handle)
    (buffer : info.comm_buffer = some comm_buffer)
    (completed : info.completed = (ready.info handle).completed)
    (custom_allocated : info.custom_allocated = request.isNone)
    (peer : info.peer < n)
    {control : Control}
    (running : control.running = if request.isNone then {handle} else 0)
    (sender : control.sender = if request.isNone then some handle else none)
    (outer : control.outer = []) :
    (ready.fill handle info rest control).Sound n carved control.outer := by
  have user : rank.control.sender = none := by rw [idle]; rfl
  rw [idle] at sound
  rw [outer]
  have info_handle : (ready.fill handle info rest control).info handle = info :=
    Function.update_self _ _ _
  apply sound.acquire header.free (header.buffer_cache.symm.trans queue) rfl
    (congrArg (· ++ [handle]) header.returned)
  case comm_buffer_size => exact header.comm_buffer_size
  case info =>
    intro other different
    exact (Function.update_of_ne different _ _).trans (header.info other different)
  case comm => exact (congrArg CommInfo.comm info_handle).trans comm
  case orig_info => exact (congrArg CommInfo.orig_info info_handle).trans orig_info
  case buffer => exact (congrArg CommInfo.comm_buffer info_handle).trans buffer
  case incomplete =>
    exact (congrArg CommInfo.completed info_handle).trans (completed.trans header.incomplete)
  case requests =>
    intro index same
    rw [info_handle, custom_allocated]
    cases request with
    | none => exact Handle.noConfusion (same.symm.trans header.handle_eq)
    | some _ => rfl
  case customs =>
    intro index same
    rw [info_handle, custom_allocated]
    cases request with
    | none => rfl
    | some _ => exact Handle.noConfusion (same.symm.trans header.handle_eq)
  case peer => exact (congrArg CommInfo.peer info_handle).trans_lt peer
  case allocated => exact header.allocated
  case active =>
    change (ready.operations n).map Prod.snd + (ready.due.map Callback.handle : List Handle) +
      control.running = handle ::ₘ rank.active n
    have operations := header.operations
    rw [running, header.due, active, idle]
    cases request with
    | none =>
        rw [operations, Multiset.add_comm _ (ite _ _ _)]
        exact congrArg (handle ::ₘ ·) (add_zero _).symm
    | some index =>
        obtain ⟨cell, sent⟩ := operations
        rw [sent, Multiset.map_cons, Multiset.cons_add, Multiset.cons_add]
        rfl
  case idle => exact user
  case sender =>
    intro index same
    cases request with
    | none => exact sender
    | some _ => exact Handle.noConfusion (same.symm.trans header.handle_eq)
  case operations =>
    intro operation member
    have here : operation ∈ ready.operations n := member
    have operations := header.operations
    cases request with
    | none => exact .inl (operations ▸ here)
    | some index =>
        obtain ⟨cell, sent⟩ := operations
        rw [sent] at here
        rcases Multiset.mem_cons.mp here with rfl | before
        · exact .inr ⟨cell, rfl⟩
        · exact .inl before
  case within => exact header.within

/-- The handle of a header is taken into use. A header without a request has completed. -/
theorem HeaderSent.balanced
    {ready : Rank}
    {custom : Nat}
    {request : Option Nat}
    {handle : Handle}
    (header : HeaderSent n rank ready custom request handle)
    (idle : rank.control = .user)
    {info : CommInfo}
    {rest : List Int}
    {control : Control}
    (running : control.running = if request.isNone then {handle} else 0) :
    Balanced rank (ready.fill handle info rest control) (sends custom request) := by
  have ready_pending : ready.pending = rank.pending := by
    rw [Rank.pending, Rank.pending, header.due, header.control]
  have pending : (ready.fill handle info rest control).pending =
      (if request.isNone then {handle} else 0) + ready.pending := by
    change (ready.due.map Callback.handle : List Handle) + control.running =
      _ + ((ready.due.map Callback.handle : List Handle) + ready.control.running)
    rw [running, header.control, idle, add_comm]
    exact congrArg _ (add_zero _).symm
  have handle_eq := header.handle_eq
  cases request with
  | none =>
      obtain rfl : handle = .custom custom := handle_eq
      have acquired : Balanced rank ready [(.custom custom, .acquired)] :=
        .acquire header.free header.allocated ready_pending
      exact acquired.append (.complete rfl (pending.trans (Multiset.singleton_add _ _)))
  | some index =>
      obtain rfl : handle = .request index := handle_eq
      exact .acquire header.free header.allocated
        (pending.trans ((zero_add _).trans ready_pending))

/-- `send_handler` begins with the information that its handle has been filled in with. -/
theorem enter_send_handler_eq
    {handle : Handle}
    (comm : (rank.info handle).comm = true) :
    rank.enter_send_handler handle =
      { rank with
        control := .sending handle (.enter (rank.per_batch (rank.info handle))
          (rank.total (rank.info handle)) (rank.info handle).ibatch) } :=
  if_pos comm

/-- What a call of `send` does after its header: it finds no buffer, or fills in its handle.
A handle from `malloc` goes on at once. -/
theorem send_cases
    {buf count element_size tag : Int}
    {dest custom : Nat}
    {request : Option Nat}
    {outcome : Outcome}
    (sent : rank.send buf count element_size dest tag custom request = some (outcome, after)) :
    rank.control = .user ∧ rank.allocated (.custom custom) = false ∧
      ∃ handle ready, rank.post_count count dest tag custom request = some (handle, ready) ∧
        ((ready.buffer_cache = [] ∧ outcome = .threw "No buffered cache available") ∨
          ∃ comm_buffer rest info control, ready.buffer_cache = comm_buffer :: rest ∧
            outcome = .returned handle ∧ after = ready.fill handle info rest control ∧
            info = { ready.info handle with
              types := .SEND
              send_buffer := buf
              comm_buffer := some comm_buffer
              count := .malloced rank.malloced
              element_size := element_size
              peer := dest
              user_tag := tag
              ibatch := 0
              comm := true
              orig_info := .handle handle } ∧
            control = if info.custom_allocated then
                .sending handle (.enter (ready.per_batch info) (ready.total info) info.ibatch)
              else ready.control) := by
  unfold Rank.send at sent
  split at sent
  · rename_i enabled
    obtain ⟨⟨handle, ready⟩, posted, filled⟩ := Option.bind_eq_some_iff.mp sent
    refine ⟨enabled.1, enabled.2, handle, ready, posted, ?_⟩
    dsimp only at filled
    split at filled
    · rename_i none
      exact .inl ⟨none, (Prod.mk.inj (Option.some.inj filled)).1.symm⟩
    · rename_i comm_buffer rest queue
      obtain ⟨rfl, same⟩ := Prod.mk.inj (Option.some.inj filled)
      split at same
      · rename_i managed
        rw [enter_send_handler_eq (by simp [setInfo])] at same
        refine .inr ⟨comm_buffer, rest, _, _, queue, rfl, same.symm, rfl, ?_⟩
        rw [if_pos managed]
        simp only [setInfo, Function.update_self]
        rfl
      · rename_i unmanaged
        refine .inr ⟨comm_buffer, rest, _, _, queue, rfl, same.symm, rfl, ?_⟩
        rw [if_neg unmanaged]
        rfl
  · contradiction

/-- A call of `send` keeps the bookkeeping. It throws only without buffers, and otherwise
takes the first buffer for the handle that it returns. -/
theorem Sound.send
    (sound : rank.Sound n carved rank.control.outer)
    {buf count element_size tag : Int}
    {dest custom : Nat}
    {request : Option Nat}
    {outcome : Outcome}
    (destBound : dest < n)
    (sent : rank.send buf count element_size dest tag custom request = some (outcome, after)) :
    (rank.buffer_cache = [] ∧ outcome = .threw "No buffered cache available") ∨
      ∃ handle, outcome = .returned handle ∧
        rank.Keeps n carved after (rank.returned ++ [handle]) (sends custom request) := by
  obtain ⟨idle, free, handle, ready, posted, filled⟩ := send_cases sent
  have header := sound.post_count free destBound posted
  rcases filled with ⟨none, threw⟩ |
    ⟨comm_buffer, rest, info, control, queue, rfl, rfl, filled, onward⟩
  · exact .inl ⟨header.buffer_cache.symm.trans none, threw⟩
  · have managed : info.custom_allocated = request.isNone := by
      rw [filled]
      exact header.custom_allocated
    have next : control.running = (if request.isNone then {handle} else 0) ∧
        control.sender = (if request.isNone then some handle else none) ∧
        control.outer = [] := by
      rw [managed] at onward
      split at onward
      · rename_i at_once
        rw [onward]
        exact ⟨(if_pos at_once).symm, (if_pos at_once).symm, rfl⟩
      · rename_i later
        rw [onward, header.control, idle]
        exact ⟨(if_neg later).symm, (if_neg later).symm, rfl⟩
    refine .inr ⟨handle, rfl, ?_, header.comm_buffer_size,
      congrArg (· ++ [handle]) header.returned, header.balanced idle next.1⟩
    apply header.acquire sound idle queue
    case comm => rw [filled]
    case orig_info => rw [filled]
    case buffer => rw [filled]
    case completed => rw [filled]
    case custom_allocated => exact managed
    case peer =>
      rw [filled]
      exact destBound
    case running => exact next.1
    case sender => exact next.2.1
    case outer => exact next.2.2

end Rank

end Ucx

end DistributedJoin
