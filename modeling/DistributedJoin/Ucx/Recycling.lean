import DistributedJoin.Ucx.Progress

/-!
# Recycling of request objects

Requests of UCX are used again and again without being initialized. In every run in which no
call throws and every handle is waited for at most once, free requests are as they have been
created, so that a receive finds out whether its callback has run inside the post.
-/

namespace DistributedJoin

namespace Ucx

open Device

namespace Rank

/-- A call does not throw. -/
def Outcome.Returns {State : Type} : Option (Outcome × State) → Prop
  | some (.threw _, _) => False
  | _ => True

end Rank

namespace World

/-- An event of a program that does not run out of buffers: the other rank of a call exists,
the call does not throw, and only handles that have been returned are waited for. -/
def Regular (n : Nat) (world : World) : Event → Prop
  | .send self buf count element_size dest tag custom request =>
      dest < n ∧
        Rank.Outcome.Returns ((world self).send buf count element_size dest tag custom request)
  | .recv self buffer element_size source tag request inside =>
      source < n ∧
        Rank.Outcome.Returns (world.recv self buffer element_size source tag request inside)
  | .waitall self handles => handles.Nodup ∧ ∀ handle ∈ handles, handle ∈ (world self).returned
  | _ => True

/-- The states that can be reached, and what all ranks have done with handles. -/
inductive Reaches (n : Nat) (start : World) : (Nat → Record) → World → Prop
  | start : Reaches n start (fun _ => []) start
  | step
      {trace : Nat → Record}
      {world after : World}
      {event : Event}
      (reached : Reaches n start trace world)
      (regular : world.Regular n event)
      (stepped : world.step event = some after) :
      Reaches n start (fun rank => trace rank ++ world.record after event rank) after

/-- Ranks that have set up their communication buffers. -/
def set_up
    (heap : Nat → Heap)
    (cache_start_addr : Nat → Int)
    (ncaches : Nat)
    (buffer_size : Int) : World := fun rank =>
  (Rank.initial rank (heap rank)).setup_cache (cache_start_addr rank) ncaches buffer_size

variable {n : Nat} {carved : Nat → List Int} {world after : World}

/-- Every event of a regular program keeps the bookkeeping. -/
theorem Sound.step
    {event : Event}
    (sound : world.Sound n carved)
    (regular : world.Regular n event)
    (stepped : world.step event = some after) :
    ∃ returned, Keeps n carved world after returned (world.record after event) := by
  cases event with
  | send self buf count element_size dest tag custom request =>
      obtain ⟨⟨outcome, rank⟩, sent, rfl⟩ := Option.map_eq_some_iff.mp stepped
      obtain ⟨destBound, returns⟩ := regular
      rw [sent] at returns
      rcases (sound self).send destBound sent with ⟨_, rfl⟩ | ⟨handle, _, kept⟩
      · contradiction
      · exact ⟨_, .of_set sound kept⟩
  | recv self buffer element_size source tag request inside =>
      obtain ⟨⟨outcome, later⟩, received, rfl⟩ := Option.map_eq_some_iff.mp stepped
      obtain ⟨sourceBound, returns⟩ := regular
      rw [received] at returns
      rcases sound.recv sourceBound received with ⟨_, rfl⟩ | ⟨handle, _, kept⟩
      · contradiction
      · exact ⟨_, kept⟩
  | waitall self handles =>
      obtain ⟨rank, waited, rfl⟩ := Option.map_eq_some_iff.mp stepped
      exact ⟨_, .of_set sound ((sound self).waitall regular.1 regular.2 waited)⟩
  | compute => exact ⟨_, sound.internal trivial stepped⟩
  | progress => exact ⟨_, sound.internal trivial stepped⟩
  | send_handler => exact ⟨_, sound.internal trivial stepped⟩
  | recv_handler => exact ⟨_, sound.internal trivial stepped⟩
  | transmit => exact ⟨_, sound.internal trivial stepped⟩
  | deliver => exact ⟨_, sound.internal trivial stepped⟩

/-- A rank on which nothing has been communicated has all its buffers in the queue. -/
theorem sound_set_up
    (heap : Nat → Heap)
    (cache_start_addr : Nat → Int)
    (ncaches : Nat)
    (buffer_size : Int) :
    (set_up heap cache_start_addr ncaches buffer_size).Sound n
      fun rank => (set_up heap cache_start_addr ncaches buffer_size rank).buffer_cache := by
  intro rank
  have operations : (set_up heap cache_start_addr ncaches buffer_size rank).operations n = 0 :=
    (add_zero _).trans (Finset.sum_eq_zero fun _ _ => rfl)
  have active : (set_up heap cache_start_addr ncaches buffer_size rank).active n = 0 := by
    rw [Rank.active, operations]
    rfl
  exact {
    conserved := by
      rw [show (set_up heap cache_start_addr ncaches buffer_size rank).held_buffers = [] from rfl,
        List.append_nil]
    distinct := List.nodup_nil
    held := fun handle member => absurd member List.not_mem_nil
    requests := fun _ => rfl
    idle := fun _ _ => ⟨rfl, rfl⟩
    customs := fun _ used => absurd used Bool.false_ne_true
    accounted := fun _ used => absurd used Bool.false_ne_true
    engaged := fun handle member => absurd (active ▸ member) (Multiset.notMem_zero handle)
    single := by
      rw [active]
      exact Multiset.nodup_zero
    sender := fun index member => absurd (active ▸ member) (Multiset.notMem_zero _)
    placed := fun operation member =>
      absurd (operations ▸ member) (Multiset.notMem_zero operation)
    spare_distinct := List.nodup_nil
    spare_allocated := fun handle member => absurd member List.not_mem_nil
    spare_returned := fun handle member => absurd member List.not_mem_nil
    within := fun _ _ => rfl }

/-- A reached state is sound, and the record accounts for what has changed. -/
theorem Reaches.sound
    {start : World}
    {trace : Nat → Record}
    (sound : start.Sound n carved)
    (reached : Reaches n start trace world) :
    world.Sound n carved ∧
      ∀ rank, Rank.Balanced (start rank) (world rank) (trace rank) := by
  induction reached with
  | start => exact ⟨sound, fun rank => .of_same rfl rfl⟩
  | step reached regular stepped inductionHypothesis =>
      obtain ⟨before, balanced⟩ := inductionHypothesis
      obtain ⟨returned, kept⟩ := before.step regular stepped
      exact ⟨fun rank => (kept rank).sound, fun rank => (balanced rank).append (kept rank).balanced⟩

/-- Requests are recycled cleanly on a rank that has done the given with its handles. -/
structure Recycled (world : World) (record : Record) (rank : Nat) : Prop where
  /-- Free requests are as they have been created. -/
  pool : ∀ index, (world rank).allocated (.request index) = false →
    ((world rank).info (.request index)).orig_info = .null ∧
      ((world rank).info (.request index)).completed = false ∧
      ((world rank).info (.request index)).custom_allocated = false
  /-- After the post of a receive its request has a mark exactly if the callback has run
  inside the post. -/
  callback_called : ∀ heap counters pointers malloced place tag index inside posted,
    (world.set rank
        { world rank with
          heap := heap, counters := counters, pointers := pointers, malloced := malloced }
      ).ucp_tag_recv_nb rank place tag index inside = some posted →
    (((posted rank).info (.request index)).orig_info ≠ .null ↔ inside.isSome)
  /-- A completed operation is pending until a callback goes on, and one at most is. -/
  continued : ∀ handle, record.count (handle, .completed) =
      record.count (handle, .continued) + (world rank).pending.count handle ∧
    (world rank).pending.count handle ≤ 1
  /-- A handle is in use, or it has been released as often as it has been acquired. -/
  released : ∀ handle, record.count (handle, .acquired) =
    record.count (handle, .free) + record.count (handle, .ucp_request_free) +
      (world rank).in_use handle
  /-- Handles from `malloc` are released by `free`, requests by `ucp_request_free`. -/
  proper : ∀ index, (.custom index, .ucp_request_free) ∉ record ∧
    (.request index, .free) ∉ record
  /-- Once all handles have been waited for, nothing is in use and nothing is pending. -/
  quiet : (world rank).returned = [] →
    ∀ handle, (world rank).allocated handle = false ∧ (world rank).pending.count handle = 0

/-- Without handles that have been returned nothing goes on. -/
theorem quiet_of_returned
    {rank : Rank}
    {buffers : List Int}
    (sound : rank.Sound n buffers rank.control.outer)
    (none : rank.returned = []) :
    rank.active n = 0 ∧ ∀ handle, rank.allocated handle = false := by
  have passive : rank.active n = 0 := by
    refine Multiset.eq_zero_of_forall_notMem fun handle member => ?_
    obtain ⟨orig, origReturned, _⟩ := (sound.engaged handle member).origin
    rw [none] at origReturned
    exact absurd origReturned List.not_mem_nil
  have outer : rank.control.outer = [] := by
    cases control : rank.control with
    | user => rfl
    | sending handle loop => rfl
    | receiving handle outer =>
        have active : handle ∈ rank.active n :=
          Rank.mem_active_of_running (by rw [control]; rfl)
        rw [passive] at active
        exact absurd active (Multiset.notMem_zero handle)
    | crashed => rfl
  refine ⟨passive, fun handle => ?_⟩
  by_contra used
  rcases sound.accounted handle ((Bool.not_eq_false _).mp used) with member | member | member
  · rw [none] at member
    exact absurd member List.not_mem_nil
  · rw [passive] at member
    exact absurd member (Multiset.notMem_zero handle)
  · rw [outer] at member
    exact absurd member List.not_mem_nil

/-- In every run in which no call throws, requests are recycled cleanly. -/
theorem requests_recycled
    {heap : Nat → Heap}
    {cache_start_addr : Nat → Int}
    {ncaches : Nat}
    {buffer_size : Int}
    {trace : Nat → Record}
    (reached : Reaches n (set_up heap cache_start_addr ncaches buffer_size) trace world)
    (rank : Nat) :
    Recycled world (trace rank) rank := by
  obtain ⟨sound, balanced⟩ := reached.sound (sound_set_up heap cache_start_addr ncaches buffer_size)
  have here := sound rank
  have pending_le : ∀ handle, (world rank).pending.count handle ≤ 1 := by
    intro handle
    have distinct := here.active_nodup
    rw [Rank.active_eq] at distinct
    exact Multiset.nodup_iff_count_le_one.mp
      (Multiset.nodup_of_le (Multiset.le_add_left _ _) distinct) handle
  constructor
  case pool =>
    intro index free
    obtain ⟨null, incomplete⟩ := here.idle index free
    exact ⟨null, incomplete, here.requests index⟩
  case callback_called =>
    intro heap counters pointers malloced place tag index inside posted receives
    have posts := posts_of_recv_nb
      (by rw [set_self]; exact here.remember heap counters pointers malloced) receives
    rw [Ne, posts.called, Option.isSome_iff_ne_none]
  case continued =>
    intro handle
    have change := (balanced rank).pending handle
    have start : ((set_up heap cache_start_addr ncaches buffer_size rank).pending).count handle = 0 :=
      Multiset.count_zero handle
    exact ⟨by omega, pending_le handle⟩
  case released =>
    intro handle
    have change := (balanced rank).in_use handle
    have start : (set_up heap cache_start_addr ncaches buffer_size rank).in_use handle = 0 := rfl
    omega
  case proper =>
    exact fun index => ⟨(balanced rank).proper _, (balanced rank).proper _⟩
  case quiet =>
    intro none handle
    obtain ⟨passive, free⟩ := quiet_of_returned here none
    rw [Rank.active_eq] at passive
    have nothing : (world rank).pending = 0 :=
      Multiset.le_zero.mp (passive ▸ Multiset.le_add_left _ _)
    exact ⟨free handle, by rw [nothing, Multiset.count_zero]⟩

/-- One rank with two communication buffers. -/
def loopback : World := set_up (fun _ _ => 0) (fun _ => 0) 2 64

/-- The rank sends one element to itself. The send gets a handle from `malloc`, and both
receives complete inside their posts. A later send gets a request that has been freed. -/
theorem requests_recycled_loopback :
    ∃ trace world, Reaches 1 loopback trace world ∧
      trace 0 =
        [(.custom 0, .acquired), (.custom 0, .completed),
          (.custom 0, .continued), (.custom 0, .completed), (.custom 0, .continued),
          (.request 0, .acquired), (.request 0, .completed),
          (.request 0, .continued), (.request 1, .acquired), (.request 1, .completed),
          (.request 1, .continued), (.request 1, .ucp_request_free),
          (.custom 0, .free), (.request 0, .ucp_request_free), (.request 0, .acquired)] ∧
      Recycled world (trace 0) 0 := by
  have counted := @Reaches.step 1 loopback _ _ _
    (.send 0 512 1 8 0 1 0 none) .start ⟨by decide, trivial⟩ rfl
  have sent := @Reaches.step _ _ _ _ _ (.send_handler 0 none) counted trivial rfl
  have ended := @Reaches.step _ _ _ _ _ (.send_handler 0 none) sent trivial rfl
  have announced := @Reaches.step _ _ _ _ _
    (.recv 0 (.given 1024) 8 0 1 0 (some 0)) ended ⟨by decide, trivial⟩ rfl
  have posted := @Reaches.step _ _ _ _ _ (.recv_handler 0 0 1 (some 0)) announced trivial rfl
  have received := @Reaches.step _ _ _ _ _ (.recv_handler 0 0 2 none) posted trivial rfl
  have waited := @Reaches.step _ _ _ _ _
    (.waitall 0 [.custom 0, .request 0]) received ⟨by decide, by decide⟩ rfl
  have again := @Reaches.step _ _ _ _ _
    (.send 0 512 1 8 0 1 0 (some 0)) waited ⟨by decide, trivial⟩ rfl
  exact ⟨_, _, again, rfl, requests_recycled again 0⟩

end World

end Ucx

end DistributedJoin
