import DistributedJoin.Ucx.Transfers

/-!
# Receives and the buffers

Posting a receive takes a request and possibly a message of some rank. The handle of a
receive is filled in afterwards, by the call of `recv` or by `recv_handler`.
-/

namespace DistributedJoin

namespace Ucx

open Device

namespace Rank

variable {n : Nat} {carved : List Int} {spare : List Handle} {rank : Rank}

/-- Memory is not a part of the bookkeeping. -/
theorem Sound.remember
    (sound : rank.Sound n carved spare)
    (heap : Heap)
    (counters : Cell → Int)
    (pointers : Cell → Option Int)
    (malloced : Nat) :
    Rank.Sound n carved spare { rank with
      heap := heap, counters := counters, pointers := pointers, malloced := malloced } :=
  sound.of_same rfl rfl rfl rfl rfl rfl (fun _ member => member) (fun _ same => same) sound.within

/-- A rank loses messages whose bytes have been read. -/
theorem operations_takeMessage
    {dest : Nat}
    {tag : Tag}
    {bytes : List Byte}
    {rest : List Message}
    (within : ∀ dest, n ≤ dest → rank.outgoing dest = [])
    (taken : takeMessage tag (rank.outgoing dest) = some (bytes, rest)) :
    sendsOf n (Function.update rank.outgoing dest rest) = sendsOf n rank.outgoing ∧
      ∀ other, n ≤ other → Function.update rank.outgoing dest rest other = [] := by
  have destBound : dest < n := by
    by_contra outside
    rw [within dest (not_lt.mp outside)] at taken
    contradiction
  constructor
  · have update := sendsOf_update destBound rank.outgoing rest
    rw [operationsOf_takeMessage taken] at update
    exact add_right_cancel update
  · intro other bound
    rw [Function.update_of_ne (Nat.ne_of_gt (destBound.trans_le bound))]
    exact within other bound

/-- The messages change, but not the operations. -/
theorem Sound.of_outgoing
    (sound : rank.Sound n carved spare)
    {outgoing : Nat → List Message}
    (sends : sendsOf n outgoing = sendsOf n rank.outgoing)
    (within : ∀ dest, n ≤ dest → outgoing dest = []) :
    Rank.Sound n carved spare { rank with outgoing := outgoing } := by
  have operations : Rank.operations n { rank with outgoing := outgoing } = rank.operations n :=
    congrArg (· + _) sends
  refine sound.of_same rfl rfl rfl rfl rfl ?_ ?_ (fun _ same => same) within
  · rw [active, operations]
    rfl
  · intro operation member
    rw [operations] at member
    exact member

/-- A receive that is posted is one more operation. -/
theorem operations_post (rank : Rank) (tag : Tag) (place : Place) (request : Handle) :
    Rank.operations n { rank with posted := rank.posted ++ [⟨tag, place, request⟩] } =
      (place, request) ::ₘ rank.operations n := by
  rw [operations, operations, List.map_append, ← Multiset.coe_add, ← add_assoc, add_comm]
  exact Multiset.singleton_add _ _

end Rank

namespace World

variable {n : Nat} {carved : List Int} {spare : List Handle} {world : World}

/-- Of every rank at most the messages change when a message is received. -/
theorem receive_same
    {received : World}
    {source dest rank : Nat}
    {tag : Tag}
    {bytes : List Byte}
    (within : ∀ dest, n ≤ dest → (world rank).outgoing dest = [])
    (taken : world.receive source dest tag = some (bytes, received)) :
    ∃ outgoing, received rank = { world rank with outgoing := outgoing } ∧
      sendsOf n outgoing = sendsOf n (world rank).outgoing ∧
      ∀ other, n ≤ other → outgoing other = [] := by
  obtain ⟨rest, message, rfl⟩ := receive_cases taken
  by_cases same : rank = source
  · subst same
    exact ⟨_, set_self _ _ _, Rank.operations_takeMessage within message⟩
  · exact ⟨(world rank).outgoing, set_of_ne _ same _, rfl, within⟩

end World

/-- A receive has been posted with a request that has been free, and has possibly been
matched inside the post. -/
structure Posts
    (n : Nat)
    (before after : Rank)
    (place : Place)
    (index : Nat)
    (inside : Option Nat) : Prop where
  free : before.allocated (.request index) = false
  buffer_cache : after.buffer_cache = before.buffer_cache
  comm_buffer_size : after.comm_buffer_size = before.comm_buffer_size
  returned : after.returned = before.returned
  control : after.control = before.control
  due : after.due = before.due
  allocated : after.allocated = Function.update before.allocated (.request index) true
  info : ∀ other, other ≠ .request index → after.info other = before.info other
  incomplete : (after.info (.request index)).completed = false
  custom_allocated : (after.info (.request index)).custom_allocated = false
  /-- The callback has left its mark exactly if it has run inside the post. -/
  called : (after.info (.request index)).orig_info = .null ↔ inside = none
  operations : after.operations n =
    if inside = none then (place, .request index) ::ₘ before.operations n
    else before.operations n
  within : ∀ dest, n ≤ dest → after.outgoing dest = []

namespace World

variable {n : Nat} {carved : List Int} {spare : List Handle} {world posted : World}

/-- The rank that posts a receive. -/
theorem posts_of_recv_nb
    {self index : Nat}
    {place : Place}
    {tag : Tag}
    {inside : Option Nat}
    (sound : (world self).Sound n carved spare)
    (receives : world.ucp_tag_recv_nb self place tag index inside = some posted) :
    Posts n (world self) (posted self) place index inside := by
  obtain ⟨free, ⟨rfl, rfl⟩ | ⟨source, bytes, received, rfl, _, taken, rfl⟩⟩ :=
    ucp_tag_recv_nb_cases receives
  · rw [set_self]
    exact {
      free := free
      buffer_cache := rfl
      comm_buffer_size := rfl
      returned := rfl
      control := rfl
      due := rfl
      allocated := rfl
      info := fun _ _ => rfl
      incomplete := (sound.idle index free).2
      custom_allocated := sound.requests index
      called := ⟨fun _ => rfl, fun _ => (sound.idle index free).1⟩
      operations := ((world self).allocate (.request index)).operations_post tag place
        (.request index)
      within := sound.within }
  · obtain ⟨outgoing, same, sends, within⟩ := receive_same sound.within taken
    obtain ⟨heap, counters, written⟩ := Rank.write_eq
      ((received self).allocate (.request index)) bytes place
    have called : (((received self).allocate (.request index)).write bytes place).call_inside
        (.request index) =
          (((received self).allocate (.request index)).write bytes place).setInfo
            (.request index) { (world self).info (.request index) with orig_info := .called } := by
      rw [written, same]
      simp [Rank.call_inside, Rank.allocate, (sound.idle index free).1]
    rw [set_self, called, written, same]
    exact {
      free := free
      buffer_cache := rfl
      comm_buffer_size := rfl
      returned := rfl
      control := rfl
      due := rfl
      allocated := rfl
      info := fun other different => Function.update_of_ne different _ _
      incomplete := by simp [Rank.setInfo, (sound.idle index free).2]
      custom_allocated := by simp [Rank.setInfo, sound.requests index]
      called := by simp [Rank.setInfo]
      operations := congrArg (· + _) sends
      within := within }

/-- Of any other rank at most the messages change. -/
theorem of_recv_nb
    {self other index : Nat}
    {place : Place}
    {tag : Tag}
    {inside : Option Nat}
    (different : other ≠ self)
    (within : ∀ dest, n ≤ dest → (world other).outgoing dest = [])
    (receives : world.ucp_tag_recv_nb self place tag index inside = some posted) :
    ∃ outgoing, posted other = { world other with outgoing := outgoing } ∧
      sendsOf n outgoing = sendsOf n (world other).outgoing ∧
      ∀ dest, n ≤ dest → outgoing dest = [] := by
  obtain ⟨free, ⟨_, rfl⟩ | ⟨source, bytes, received, _, _, taken, rfl⟩⟩ :=
    ucp_tag_recv_nb_cases receives
  · exact ⟨(world other).outgoing, set_of_ne _ different _, rfl, within⟩
  · rw [set_of_ne _ different]
    exact receive_same within taken

/-- What a call of `recv` does after its header: it finds no buffer, or fills in its
handle. If the callback has run inside the post, it runs again. -/
theorem recv_cases
    {after : World}
    {self source request : Nat}
    {buffer : RecvBuffer}
    {element_size tag : Int}
    {inside : Option Nat}
    {outcome : Rank.Outcome}
    (received : world.recv self buffer element_size source tag request inside =
      some (outcome, after)) :
    (world self).control = .user ∧
      ∃ recved_count posted,
        world.post_count self buffer source tag request inside = some (recved_count, posted) ∧
        (((posted self).buffer_cache = [] ∧ outcome = .threw "No buffered cache available") ∨
          ∃ comm_buffer rest info control,
            (posted self).buffer_cache = comm_buffer :: rest ∧
            outcome = .returned (.request request) ∧
            after = posted.set self
              ((buffer.pointed (posted self)).fill (.request request) info rest control) ∧
            info = { (posted self).info (.request request) with
              types := .RECV
              recv_buffer := buffer.pointer (posted self).malloced
              comm_buffer := some comm_buffer
              custom_allocated := false
              count := recved_count
              element_size := element_size
              peer := source
              user_tag := tag
              ibatch := 0
              comm := true
              orig_info := .handle (.request request) } ∧
            control = if ((posted self).info (.request request)).orig_info = .null then
                (posted self).control
              else .receiving (.request request) []) := by
  unfold World.recv at received
  split at received
  · rename_i idle
    obtain ⟨⟨recved_count, posted⟩, header, filled⟩ := Option.bind_eq_some_iff.mp received
    refine ⟨idle, recved_count, posted, header, ?_⟩
    dsimp only at filled
    split at filled
    · rename_i none
      exact .inl ⟨none, (Prod.mk.inj (Option.some.inj filled)).1.symm⟩
    · rename_i comm_buffer rest queue
      obtain ⟨rfl, rfl⟩ := Prod.mk.inj (Option.some.inj filled)
      refine .inr ?_
      cases buffer with
      | given buf =>
          refine ⟨comm_buffer, rest, _, _, queue, rfl, ?_, rfl, rfl⟩
          by_cases null : ((posted self).info (.request request)).orig_info = .null
          · rw [if_neg (not_not.mpr null), if_pos null]
            rfl
          · rw [if_pos null, if_neg null]
            rfl
      | unknown buf count =>
          refine ⟨comm_buffer, rest, _, _, queue, rfl, ?_, rfl, rfl⟩
          by_cases null : ((posted self).info (.request request)).orig_info = .null
          · rw [if_neg (not_not.mpr null), if_pos null]
            rfl
          · rw [if_pos null, if_neg null]
            rfl
  · contradiction

end World

/-- The handle of a header that has been posted is filled in and takes a buffer. -/
theorem Posts.acquire
    {n index : Nat}
    {carved rest : List Int}
    {before ready : Rank}
    {cell : Cell}
    {inside : Option Nat}
    (posts : Posts n before ready (.counter cell) index inside)
    (sound : before.Sound n carved before.control.outer)
    (idle : before.control = .user)
    {comm_buffer : Int}
    (queue : ready.buffer_cache = comm_buffer :: rest)
    {info : CommInfo}
    (comm : info.comm = true)
    (orig_info : info.orig_info = .handle (.request index))
    (buffer : info.comm_buffer = some comm_buffer)
    (completed : info.completed = (ready.info (.request index)).completed)
    (custom_allocated : info.custom_allocated = false)
    (peer : info.peer < n)
    {control : Control}
    (onward : control = if inside = none then .user else .receiving (.request index) []) :
    (ready.fill (.request index) info rest control).Sound n carved control.outer := by
  have user : before.control.sender = none := by rw [idle]; rfl
  rw [idle] at sound
  have next : control.outer = [] ∧ (ready.operations n).map Prod.snd + control.running =
      .request index ::ₘ (before.operations n).map Prod.snd := by
    rw [posts.operations]
    split at onward
    · rename_i later
      rw [onward, if_pos later, Multiset.map_cons]
      exact ⟨rfl, add_zero _⟩
    · rename_i called
      rw [onward, if_neg called, add_comm]
      exact ⟨rfl, Multiset.singleton_add _ _⟩
  have info_request : (ready.fill (.request index) info rest control).info (.request index) = info :=
    Function.update_self _ _ _
  rw [next.1]
  apply sound.acquire posts.free (posts.buffer_cache.symm.trans queue) rfl
    (congrArg (· ++ [Handle.request index]) posts.returned)
  case comm_buffer_size => exact posts.comm_buffer_size
  case info =>
    intro other different
    exact (Function.update_of_ne different _ _).trans (posts.info other different)
  case comm => exact (congrArg CommInfo.comm info_request).trans comm
  case orig_info => exact (congrArg CommInfo.orig_info info_request).trans orig_info
  case buffer => exact (congrArg CommInfo.comm_buffer info_request).trans buffer
  case incomplete =>
    exact (congrArg CommInfo.completed info_request).trans (completed.trans posts.incomplete)
  case requests =>
    exact fun _ _ => (congrArg CommInfo.custom_allocated info_request).trans custom_allocated
  case customs => exact fun _ same => Handle.noConfusion same
  case peer => exact (congrArg CommInfo.peer info_request).trans_lt peer
  case allocated => exact posts.allocated
  case active =>
    change (ready.operations n).map Prod.snd + (ready.due.map Callback.handle : List Handle) +
      control.running = .request index ::ₘ before.active n
    rw [add_right_comm, next.2, posts.due, Rank.active, idle, Multiset.cons_add]
    exact congrArg _ (add_zero _).symm
  case idle => exact user
  case sender => exact fun _ same => Handle.noConfusion same
  case operations =>
    intro operation member
    have here : operation ∈ ready.operations n := member
    rw [posts.operations] at here
    split at here
    · rcases Multiset.mem_cons.mp here with rfl | before
      · exact .inr ⟨cell, rfl⟩
      · exact .inl before
    · exact .inl here
  case within => exact posts.within

/-- The request of a receive is taken into use. A receive that has been matched inside the
post has completed, and its callback is still to go on. -/
theorem Posts.balanced
    {n index : Nat}
    {rank before ready after : Rank}
    {place : Place}
    {inside : Option Nat}
    (posts : Posts n before ready place index inside)
    (same_allocated : before.allocated = rank.allocated)
    (same_pending : before.pending = rank.pending)
    (allocated : after.allocated = ready.allocated)
    (pending : after.pending =
      if inside = none then rank.pending else .request index ::ₘ rank.pending) :
    Rank.Balanced rank after (Rank.receives index inside) := by
  have ready_pending : ready.pending = rank.pending := by
    rw [← same_pending, Rank.pending, Rank.pending, posts.due, posts.control]
  have acquired : Rank.Balanced rank ready [(.request index, .acquired)] :=
    .acquire (same_allocated ▸ posts.free) (same_allocated ▸ posts.allocated) ready_pending
  cases inside with
  | none => exact acquired.append (.of_same (pending.trans ready_pending.symm) allocated)
  | some source =>
      rw [if_neg (Option.some_ne_none source), ← ready_pending] at pending
      exact acquired.append (.complete allocated pending)

namespace World

variable {n : Nat}

/-- All ranks keep their bookkeeping, each with its own buffers. -/
def Sound (n : Nat) (carved : Nat → List Int) (world : World) : Prop :=
  ∀ rank, (world rank).Sound n (carved rank) (world rank).control.outer

/-- All ranks keep their bookkeeping in an event. The handles that they have returned, and
what is done with handles, are as given. -/
def Keeps
    (n : Nat)
    (carved : Nat → List Int)
    (before after : World)
    (returned : Nat → List Handle)
    (record : Nat → Record) : Prop :=
  ∀ rank, (before rank).Keeps n (carved rank) (after rank) (returned rank) (record rank)

variable {carved : Nat → List Int} {world : World}

/-- All ranks keep their bookkeeping, if one does and at most the messages of the others
change. -/
theorem Keeps.of_others
    {posted : World}
    {self : Nat}
    {rank : Rank}
    {returned : List Handle}
    {record : Record}
    (sound : world.Sound n carved)
    (others : ∀ other, other ≠ self →
      ∃ outgoing, posted other = { world other with outgoing := outgoing } ∧
        sendsOf n outgoing = sendsOf n (world other).outgoing ∧
        ∀ dest, n ≤ dest → outgoing dest = [])
    (kept : (world self).Keeps n (carved self) rank returned record) :
    Keeps n carved world (posted.set self rank)
      (Function.update (fun rank => (world rank).returned) self returned) (only self record) := by
  intro other
  by_cases here : other = self
  · subst here
    rw [set_self, Function.update_self, only, Function.update_self]
    exact kept
  · obtain ⟨outgoing, same, sends, within⟩ := others other here
    rw [set_of_ne _ here, Function.update_of_ne here, only, Function.update_of_ne here, same]
    exact ⟨(sound other).of_outgoing sends within, rfl, rfl, .of_same rfl rfl⟩

/-- One rank changes, and keeps its bookkeeping. -/
theorem Keeps.of_set
    {self : Nat}
    {rank : Rank}
    {returned : List Handle}
    {record : Record}
    (sound : world.Sound n carved)
    (kept : (world self).Keeps n (carved self) rank returned record) :
    Keeps n carved world (world.set self rank)
      (Function.update (fun rank => (world rank).returned) self returned) (only self record) :=
  .of_others sound (fun other _ => ⟨(world other).outgoing, rfl, rfl, (sound other).within⟩) kept

/-- A call of `recv` keeps the bookkeeping. It throws only without buffers, and otherwise
takes the first buffer for the handle that it returns. -/
theorem Sound.recv
    {after : World}
    {self source request : Nat}
    {buffer : RecvBuffer}
    {element_size tag : Int}
    {inside : Option Nat}
    {outcome : Rank.Outcome}
    (sound : world.Sound n carved)
    (sourceBound : source < n)
    (received : world.recv self buffer element_size source tag request inside =
      some (outcome, after)) :
    ((world self).buffer_cache = [] ∧ outcome = .threw "No buffered cache available") ∨
      ∃ handle, outcome = .returned handle ∧
        Keeps n carved world after (Function.update (fun rank => (world rank).returned) self
          ((world self).returned ++ [handle])) (only self (Rank.receives request inside)) := by
  obtain ⟨idle, recved_count, posted, header, filled⟩ := recv_cases received
  obtain ⟨_, receives⟩ := post_count_eq header
  rw [buffer.counted_eq] at receives
  have remembered := (sound self).remember (world self).heap (world self).counters
    (buffer.counted (world self)).pointers (buffer.counted (world self)).malloced
  have posts := posts_of_recv_nb (by rw [set_self]; exact remembered) receives
  rw [set_self] at posts
  rcases filled with ⟨none, threw⟩ |
    ⟨comm_buffer, rest, info, control, queue, rfl, rfl, filled, onward⟩
  · exact .inl ⟨posts.buffer_cache.symm.trans none, threw⟩
  · have next : control = if inside = none then .user else .receiving (.request request) [] := by
      rw [onward, posts.control]
      by_cases later : inside = none
      · rw [if_pos later, if_pos (posts.called.mpr later)]
        exact idle
      · rw [if_neg later, if_neg (fun null => later (posts.called.mp null))]
    rw [buffer.pointed_eq]
    refine .inr ⟨.request request, rfl, .of_others sound (fun other different => ?_)
      ⟨?_, posts.comm_buffer_size, congrArg (· ++ [Handle.request request]) posts.returned, ?_⟩⟩
    · have same := of_recv_nb different
        (by rw [set_of_ne _ different]; exact (sound other).within) receives
      rw [set_of_ne _ different] at same
      exact same
    · have acquired : (Rank.fill (posted self) (.request request) info rest control).Sound n
          (carved self) control.outer := by
        apply posts.acquire remembered idle queue
        case comm => rw [filled]
        case orig_info => rw [filled]
        case buffer => rw [filled]
        case completed => rw [filled]
        case custom_allocated => rw [filled]
        case peer =>
          rw [filled]
          exact sourceBound
        case onward => exact next
      exact acquired.remember _ _ _ _
    · refine posts.balanced rfl rfl rfl ?_
      change ((posted self).due.map Callback.handle : Multiset Handle) + control.running =
        if inside = none then (world self).pending else _ ::ₘ (world self).pending
      rw [posts.due, next, Rank.pending, idle]
      split
      · rfl
      · exact (add_comm _ _).trans ((Multiset.singleton_add _ _).trans
          (congrArg _ (add_zero _).symm))

end World

end Ucx

end DistributedJoin
