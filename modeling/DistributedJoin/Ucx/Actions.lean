import DistributedJoin.Ucx.Activity

/-!
# What is done with handles

A record of the handles that are taken into use and released, of the operations that
complete for them, and of the callbacks that go on with their transfers.
-/

namespace DistributedJoin

namespace Ucx

open Device

/-- What can be done with a handle. -/
inductive Action
  /-- It is taken from the requests of UCX, or comes from `malloc`. -/
  | acquired
  /-- An operation of UCX has completed for it, inside its post or later. -/
  | completed
  /-- A callback goes on with its transfer after an operation has completed. -/
  | continued
  | free
  | ucp_request_free
  deriving DecidableEq

/-- What a rank does with handles, in order. -/
abbrev Record := List (Handle × Action)

namespace Rank

/-- The header of a send: without a request it has completed, and its handle is from
`malloc`. -/
def sends (custom : Nat) : Option Nat → Record
  | none => [(.custom custom, .acquired), (.custom custom, .completed)]
  | some index => [(.request index, .acquired)]

/-- The handle of a send. -/
def sent_handle (custom : Nat) : Option Nat → Handle
  | none => .custom custom
  | some index => .request index

/-- The post of a receive, which may complete inside the post. -/
def receives (request : Nat) (inside : Option Nat) : Record :=
  (.request request, .acquired) ::
    if inside.isSome then [(.request request, .completed)] else []

/-- The handles among those of finished callbacks that have not been returned to the caller. -/
def frees_internal (rank : Rank) (handles : List Handle) : Record :=
  (handles.filter fun handle => (rank.info handle).orig_info ≠ .handle handle).map fun handle =>
    (handle, .ucp_request_free)

/-- The send of a batch: it completes at once, or a request takes over from the handle. -/
def sends_batch (rank : Rank) (handle : Handle) : Option Nat → Record
  | none => [(handle, .completed)]
  | some index => (.request index, .acquired) :: rank.frees_internal [handle]

/-- The release of handles that have been waited for: those from `malloc` are freed, the
others are given back to UCX. -/
def releases (rank : Rank) (handles : List Handle) : Record :=
  handles.map fun handle =>
    (handle, if (rank.info handle).custom_allocated then .free else .ucp_request_free)

/-- The number of elements of the next batch of a receive. -/
def next_batch (rank : Rank) (info : CommInfo) : Int :=
  nelements_current_batch (rank.per_batch info)
    (nelements_remaining (rank.per_batch info) (rank.total info) info.ibatch)

end Rank

namespace World

/-- A record of one rank only. -/
def only (self : Nat) (record : Record) : Nat → Record :=
  Function.update (fun _ => []) self record

/-- What the ranks do with handles in an event that leads to another state. -/
def record (world after : World) : Event → Nat → Record
  | .send self _ _ _ _ _ custom request => only self (Rank.sends custom request)
  | .recv self _ _ _ _ request inside => only self (Rank.receives request inside)
  | .waitall self handles => only self ((world self).releases handles)
  | .compute self _ => only self []
  | .progress self _ => only self []
  | .send_handler self request =>
      match (world self).control with
      | .sending handle loop =>
          only self ((handle, .continued) ::
            if 0 < loop.nelements_remaining then (world self).sends_batch handle request
            else (world self).frees_internal [handle])
      | _ => only self []
  | .recv_handler self _ request inside =>
      match (world self).control with
      | .receiving handle outer =>
          let info := (world self).info handle
          only self (
            if info.orig_info = .null then (world self).frees_internal outer
            else if info.comm = false then []
            else (handle, .continued) ::
              (if 0 < (world self).next_batch info then Rank.receives request inside else []) ++
              -- The handles are freed unless the callback calls itself.
              if (after self).control = .user then (world self).frees_internal (handle :: outer)
              else [])
      | _ => only self []
  | .transmit source dest position =>
      match takeOver (world source).read position ((world source).outgoing dest) with
      | some (request, _) => only source [(request, .completed)]
      | none => only source []
  | .deliver _ dest tag =>
      match takePosted tag (world dest).posted with
      | some (posted, _) => only dest [(posted.request, .completed)]
      | none => only dest []

end World

namespace Rank

/-- The handles with an operation that has completed, whose callback has not gone on. -/
def pending (rank : Rank) : Multiset Handle :=
  (rank.due.map Callback.handle : List Handle) + rank.control.running

/-- A handle counts while it is in use. -/
def in_use (rank : Rank) (handle : Handle) : Nat := if rank.allocated handle then 1 else 0

/-- Handles from `malloc` are released by `free`, and requests by `ucp_request_free`. -/
def Proper : Handle × Action → Prop
  | (.request _, .free) => False
  | (.custom _, .ucp_request_free) => False
  | _ => True

/-- A record accounts for the change of a rank: a completed operation is pending until a
callback goes on, and a handle is in use until it is released. -/
structure Balanced (before after : Rank) (record : Record) : Prop where
  pending : ∀ handle, after.pending.count handle + record.count (handle, .continued) =
    before.pending.count handle + record.count (handle, .completed)
  in_use : ∀ handle, after.in_use handle + record.count (handle, .free) +
      record.count (handle, .ucp_request_free) =
    before.in_use handle + record.count (handle, .acquired)
  proper : ∀ entry ∈ record, Proper entry

theorem active_eq (n : Nat) (rank : Rank) :
    rank.active n = (rank.operations n).map Prod.snd + rank.pending := by
  rw [active, pending, add_assoc]

theorem active_congr
    {n : Nat}
    {rank after : Rank}
    (operations : after.operations n = rank.operations n)
    (pending : after.pending = rank.pending) :
    after.active n = rank.active n := by
  rw [active_eq, active_eq, operations, pending]

/-- Nothing is done with handles. -/
theorem Balanced.of_same
    {before after : Rank}
    (pending : after.pending = before.pending)
    (allocated : after.allocated = before.allocated) :
    Balanced before after [] where
  pending := by simp [pending]
  in_use := by simp [Rank.in_use, allocated]
  proper := by simp

/-- Records follow each other. -/
theorem Balanced.append
    {before between after : Rank}
    {first second : Record}
    (early : Balanced before between first)
    (late : Balanced between after second) :
    Balanced before after (first ++ second) where
  pending := by
    intro handle
    have start := early.pending handle
    have rest := late.pending handle
    rw [List.count_append, List.count_append]
    omega
  in_use := by
    intro handle
    have start := early.in_use handle
    have rest := late.in_use handle
    rw [List.count_append, List.count_append, List.count_append]
    omega
  proper := fun entry member =>
    (List.mem_append.mp member).elim (early.proper entry) (late.proper entry)

section Steps

variable {before after : Rank} {handle : Handle}

/-- A handle is taken into use. -/
theorem Balanced.acquire
    (free : before.allocated handle = false)
    (allocated : after.allocated = Function.update before.allocated handle true)
    (pending : after.pending = before.pending) :
    Balanced before after [(handle, .acquired)] where
  pending := by simp [pending]
  in_use := by
    intro other
    by_cases same : other = handle
    · subst same
      simp [Rank.in_use, allocated, free]
    · simp [Rank.in_use, allocated, same, Ne.symm same]
  proper := by simp [Proper]

/-- An operation completes. -/
theorem Balanced.complete
    (allocated : after.allocated = before.allocated)
    (pending : after.pending = handle ::ₘ before.pending) :
    Balanced before after [(handle, .completed)] where
  pending := by
    intro other
    rw [pending, Multiset.count_cons]
    by_cases same : other = handle
    · subst same
      simp
    · simp [same, Ne.symm same]
  in_use := by simp [Rank.in_use, allocated]
  proper := by simp [Proper]

/-- A callback goes on after an operation that has completed. -/
theorem Balanced.go_on
    (allocated : after.allocated = before.allocated)
    (pending : before.pending = handle ::ₘ after.pending) :
    Balanced before after [(handle, .continued)] where
  pending := by
    intro other
    rw [pending, Multiset.count_cons]
    by_cases same : other = handle
    · subst same
      simp
    · simp [same, Ne.symm same]
  in_use := by simp [Rank.in_use, allocated]
  proper := by simp [Proper]

/-- A handle is released, in the way that it has been acquired. -/
theorem Balanced.release
    {action : Action}
    (used : before.allocated handle = true)
    (allocated : after.allocated = Function.update before.allocated handle false)
    (pending : after.pending = before.pending)
    (kind : (∃ index, handle = .custom index) ∧ action = .free ∨
      (∃ index, handle = .request index) ∧ action = .ucp_request_free) :
    Balanced before after [(handle, action)] := by
  rcases kind with ⟨⟨index, rfl⟩, rfl⟩ | ⟨⟨index, rfl⟩, rfl⟩
  all_goals
    refine ⟨fun other => by simp [pending], fun other => ?_, by simp [Proper]⟩
    rw [Rank.in_use, Rank.in_use, allocated]
  · by_cases same : other = .custom index
    · simp [same, used]
    · simp [same, Ne.symm same]
  · by_cases same : other = .request index
    · simp [same, used]
    · simp [same, Ne.symm same]

end Steps

section Releases

/-- Only the origins of transfers decide which handles are freed. -/
theorem frees_internal_congr
    {rank other : Rank}
    {handles : List Handle}
    (same : ∀ handle ∈ handles,
      (other.info handle).orig_info = (rank.info handle).orig_info) :
    other.frees_internal handles = rank.frees_internal handles := by
  unfold frees_internal
  rw [List.filter_congr fun handle member => by rw [same handle member]]

/-- Freeing handles that have not been returned: all of these are requests in use. -/
theorem Balanced.free_all
    {rank : Rank}
    {handles : List Handle}
    (distinct : handles.Nodup)
    (allocated : ∀ handle ∈ handles, rank.allocated handle = true)
    (requests : ∀ handle ∈ handles, (rank.info handle).orig_info ≠ .handle handle →
      ∃ index, handle = .request index) :
    Balanced rank (handles.foldl free_internal rank) (rank.frees_internal handles) := by
  induction handles generalizing rank with
  | nil => exact .of_same rfl rfl
  | cons handle handles inductionHypothesis =>
      obtain ⟨first, rest⟩ := List.nodup_cons.mp distinct
      have apart : ∀ other ∈ handles, other ≠ handle := fun other member same =>
        first (same ▸ member)
      have others : ∀ other ∈ handles, other ∈ handle :: handles := fun other member =>
        List.mem_cons_of_mem _ member
      by_cases internal : (rank.info handle).orig_info = .handle handle
      · have freed : rank.free_internal handle = rank := if_pos internal
        have record : rank.frees_internal (handle :: handles) = rank.frees_internal handles := by
          simp [frees_internal, internal]
        rw [record, List.foldl_cons, freed]
        exact inductionHypothesis rest (fun other member => allocated other (others other member))
          fun other member => requests other (others other member)
      · have freed : rank.free_internal handle =
            (rank.setInfo handle (rank.info handle).release).free handle := if_neg internal
        have info : ∀ other ∈ handles, (rank.free_internal handle).info other =
            rank.info other := by
          intro other member
          rw [freed]
          exact Function.update_of_ne (apart other member) _ _
        have record : rank.frees_internal (handle :: handles) =
            [(handle, .ucp_request_free)] ++ (rank.free_internal handle).frees_internal handles := by
          rw [frees_internal_congr fun other member => congrArg CommInfo.orig_info
            (info other member)]
          simp [frees_internal, internal]
        rw [record, List.foldl_cons]
        refine .append (.release (allocated handle List.mem_cons_self) ?_ ?_
          (.inr ⟨requests handle List.mem_cons_self internal, rfl⟩)) (inductionHypothesis rest ?_ ?_)
        · rw [freed]
          rfl
        · rw [freed]
          rfl
        · intro other member
          rw [freed]
          exact (Function.update_of_ne (apart other member) _ _).trans
            (allocated other (others other member))
        · intro other member
          rw [info other member]
          exact requests other (others other member)

/-- Releasing handles that have been waited for. -/
theorem Balanced.release_all
    {rank : Rank}
    {handles : List Handle}
    (distinct : handles.Nodup)
    (allocated : ∀ handle ∈ handles, rank.allocated handle = true)
    (managed : ∀ handle ∈ handles,
      (rank.info handle).custom_allocated = true ↔ ∃ index, handle = .custom index) :
    Balanced rank (handles.foldl release_handle rank) (rank.releases handles) := by
  induction handles generalizing rank with
  | nil => exact .of_same rfl rfl
  | cons handle handles inductionHypothesis =>
      obtain ⟨first, rest⟩ := List.nodup_cons.mp distinct
      have apart : ∀ other ∈ handles, other ≠ handle := fun other member same =>
        first (same ▸ member)
      have others : ∀ other ∈ handles, other ∈ handle :: handles := fun other member =>
        List.mem_cons_of_mem _ member
      have info : ∀ other ∈ handles, (rank.release_handle handle).info other =
          rank.info other := fun other member =>
        Function.update_of_ne (apart other member) _ _
      have record : rank.releases (handle :: handles) =
          rank.releases [handle] ++ (rank.release_handle handle).releases handles := by
        have later : (rank.release_handle handle).releases handles = rank.releases handles :=
          List.map_congr_left fun other member => by rw [info other member]
        rw [later]
        rfl
      rw [record, List.foldl_cons]
      have kind := managed handle List.mem_cons_self
      have released : Balanced rank (rank.release_handle handle) (rank.releases [handle]) := by
        refine .release (allocated handle List.mem_cons_self) rfl rfl ?_
        cases handle with
        | request index =>
            exact .inr ⟨⟨index, rfl⟩, if_neg fun custom => by simpa using kind.mp custom⟩
        | custom index => exact .inl ⟨⟨index, rfl⟩, if_pos (kind.mpr ⟨index, rfl⟩)⟩
      refine released.append (inductionHypothesis rest ?_ ?_)
      · intro other member
        exact (Function.update_of_ne (apart other member) _ _).trans
          (allocated other (others other member))
      · intro other member
        rw [info other member]
        exact managed other (others other member)

end Releases

end Rank

end Ucx

end DistributedJoin
