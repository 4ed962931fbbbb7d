import DistributedJoin.Ucx.BufferCommunicator

/-!
# Running out of communication buffers

A call of `send` or `recv` posts the header before it looks for a communication
buffer. When there is none and the call throws, the header stays where it is and
its handle stays allocated.
-/

namespace DistributedJoin

namespace Ucx

open Device

namespace Rank

/-- What is in flight on a rank. -/
def InFlightAlike (first second : Rank) : Prop :=
  first.outgoing = second.outgoing ∧ first.posted = second.posted ∧ first.due = second.due

/-- Two states of a rank look the same to its program and to UCX. -/
structure Alike (first second : Rank) : Prop where
  heap : first.heap = second.heap
  declared : ∀ index, first.counters (.declared index) = second.counters (.declared index) ∧
    first.pointers (.declared index) = second.pointers (.declared index)
  buffer_cache : first.buffer_cache = second.buffer_cache
  control : first.control = second.control
  returned : first.returned = second.returned
  completed : ∀ handle ∈ first.returned,
    (first.info handle).completed = (second.info handle).completed
  inFlight : InFlightAlike first second

end Rank

/-- A call has left no trace. -/
structure Unaffected (before after : World) : Prop where
  /-- What is in flight is what was in flight before. -/
  inFlight : ∀ rank, (after rank).InFlightAlike (before rank)
  /-- No handle has been taken into use. -/
  allocated : ∀ rank handle, (after rank).allocated handle = (before rank).allocated handle
  /-- Whatever happens later happens as without the call. -/
  later : ∀ events, Option.Rel (fun first second => ∀ rank, Rank.Alike (first rank) (second rank))
    (after.run events) (before.run events)

/-- A call of `send` or `recv` on a rank, with the choices of UCX. -/
inductive Call
  | send (self : Nat) (buf count element_size : Int) (dest : Nat) (tag : Int)
      (custom : Nat) (request : Option Nat)
  | recv (self : Nat) (buffer : RecvBuffer) (element_size : Int) (source : Nat) (tag : Int)
      (request : Nat) (inside : Option Nat)

namespace World

/-- Make a call. -/
def call (world : World) : Call → Option (Rank.Outcome × World)
  | .send self buf count element_size dest tag custom request =>
      ((world self).send buf count element_size dest tag custom request).map fun result =>
        (result.1, world.set self result.2)
  | .recv self buffer element_size source tag request inside =>
      world.recv self buffer element_size source tag request inside

end World

/-- Posting the number of elements puts a message on the way and takes a handle into
use. -/
theorem Rank.post_count_traces
    {rank ready : Rank}
    {count tag : Int}
    {dest custom : Nat}
    {request : Option Nat}
    {handle : Handle}
    (free : rank.allocated (.custom custom) = false)
    (posted : rank.post_count count dest tag custom request = some (handle, ready)) :
    (∃ message, ready.outgoing dest = rank.outgoing dest ++ [message]) ∧
      rank.allocated handle = false ∧ ready.allocated handle = true := by
  cases request with
  | none =>
      obtain ⟨rfl, rfl⟩ := by simpa only [post_count, ucp_tag_send_nb, Option.bind_eq_bind,
        Option.bind_some, Option.some.injEq, Prod.mk.injEq] using posted
      exact ⟨⟨_, Function.update_self _ _ _⟩, free, Function.update_self _ _ _⟩
  | some index =>
      obtain ⟨sent, header, same⟩ := Option.bind_eq_some_iff.mp posted
      obtain ⟨rfl, rfl⟩ := by simpa only [Option.some.injEq, Prod.mk.injEq] using same
      obtain ⟨unused, rfl⟩ := by simpa only [ucp_tag_send_nb, Option.ite_none_left_eq_some,
        Option.some.injEq] using header
      exact ⟨⟨_, Function.update_self _ _ _⟩, (Bool.not_eq_true _).mp unused,
        Function.update_self _ _ _⟩

/-- A send that throws has put its header on the way and keeps its handle. -/
theorem Rank.send_threw
    {rank after : Rank}
    {buf count element_size tag : Int}
    {dest custom : Nat}
    {request : Option Nat}
    {what : String}
    (threw : rank.send buf count element_size dest tag custom request =
      some (.threw what, after)) :
    (∃ message, after.outgoing dest = rank.outgoing dest ++ [message]) ∧
      ∃ handle, rank.allocated handle = false ∧ after.allocated handle = true := by
  unfold send at threw
  split at threw
  · rename_i enabled
    obtain ⟨⟨handle, ready⟩, header, outcome⟩ := Option.bind_eq_some_iff.mp threw
    obtain ⟨message, unused, used⟩ := post_count_traces enabled.2 header
    cases cache : ready.buffer_cache with
    | nil =>
        simp only [cache, Option.some.injEq, Prod.mk.injEq] at outcome
        obtain ⟨_, rfl⟩ := outcome
        exact ⟨message, handle, unused, used⟩
    | cons comm_buffer rest => simp [cache] at outcome
  · contradiction

/-- Taking a message leaves fewer messages. -/
theorem length_of_takeMessage
    {tag : Tag}
    {messages rest : List Message}
    {bytes : List Byte}
    (taken : takeMessage tag messages = some (bytes, rest)) :
    rest.length < messages.length := by
  induction messages generalizing rest with
  | nil => contradiction
  | cons message messages inductionHypothesis =>
      unfold takeMessage at taken
      split at taken
      · split at taken
        · obtain ⟨rfl, rfl⟩ := by simpa using taken
          simp
        · contradiction
      · obtain ⟨⟨found, others⟩, inner, same⟩ := Option.map_eq_some_iff.mp taken
        obtain ⟨rfl, rfl⟩ := by simpa using same
        simpa using inductionHypothesis inner

/-- Posting a receive posts something or takes a message, and takes a request into
use. -/
theorem World.ucp_tag_recv_nb_traces
    {world posted : World}
    {self index : Nat}
    {place : Place}
    {tag : Tag}
    {inside : Option Nat}
    (receives : world.ucp_tag_recv_nb self place tag index inside = some posted) :
    ((∃ receive, (posted self).posted = (world self).posted ++ [receive]) ∨
        ∃ source, ((posted source).outgoing self).length <
          ((world source).outgoing self).length) ∧
      (world self).allocated (.request index) = false ∧
      (posted self).allocated (.request index) = true := by
  obtain ⟨free, ⟨_, rfl⟩ | ⟨source, bytes, received, _, _, taken, rfl⟩⟩ :=
    ucp_tag_recv_nb_cases receives
  · refine ⟨.inl ⟨⟨tag, place, .request index⟩, ?_⟩, free, ?_⟩
    · rw [set_self]
    · rw [set_self]
      exact Function.update_self _ _ _
  · obtain ⟨rest, message, removed⟩ := receive_cases taken
    obtain ⟨heap, counters, written⟩ := Rank.write_eq
      ((received self).allocate (.request index)) bytes place
    obtain ⟨info, control, called⟩ := Rank.call_inside_eq
      (((received self).allocate (.request index)).write bytes place) (.request index)
    have fewer : ((received source).outgoing self).length <
        ((world source).outgoing self).length := by
      rw [removed, set_self]
      simpa using length_of_takeMessage message
    refine ⟨.inr ⟨source, ?_⟩, free, ?_⟩
    · by_cases same : source = self
      · subst same
        rw [set_self, called, written]
        exact fewer
      · rw [set_of_ne _ same]
        exact fewer
    · rw [set_self, called, written]
      exact Function.update_self _ _ _

/-- A receive that throws has changed what is in flight and keeps its request. -/
theorem World.recv_threw
    {world after : World}
    {self source index : Nat}
    {buffer : RecvBuffer}
    {element_size tag : Int}
    {inside : Option Nat}
    {what : String}
    (threw : world.recv self buffer element_size source tag index inside =
      some (.threw what, after)) :
    ((∃ receive, (after self).posted = (world self).posted ++ [receive]) ∨
        ∃ peer, ((after peer).outgoing self).length < ((world peer).outgoing self).length) ∧
      ∃ handle, (world self).allocated handle = false ∧
        (after self).allocated handle = true := by
  unfold recv at threw
  split at threw
  · obtain ⟨⟨recved_count, posted⟩, header, outcome⟩ := Option.bind_eq_some_iff.mp threw
    obtain ⟨_, receives⟩ := post_count_eq header
    rw [buffer.counted_eq] at receives
    obtain ⟨changed, unused, used⟩ := ucp_tag_recv_nb_traces receives
    rw [set_self] at unused
    have same : after = posted := by
      cases cache : (posted self).buffer_cache with
      | nil =>
          simp only [cache, Option.some.injEq, Prod.mk.injEq] at outcome
          exact outcome.2.symm
      | cons comm_buffer rest => simp [cache] at outcome
    subst same
    refine ⟨?_, .request index, unused, used⟩
    rcases changed with ⟨receive, posts⟩ | ⟨peer, fewer⟩
    · rw [set_self] at posts
      exact .inl ⟨receive, posts⟩
    · refine .inr ⟨peer, fewer.trans_eq ?_⟩
      by_cases here : peer = self
      · rw [here, set_self]
      · rw [set_of_ne _ here]
  · contradiction

/-- A call of `send` or `recv` that finds no communication buffer never leaves the
communicator as it was. -/
theorem exhausted_call_affects
    {world after : World}
    {call : Call}
    {what : String}
    (threw : world.call call = some (.threw what, after)) :
    ¬ Unaffected world after ∧
      (∃ rank, ¬ (after rank).InFlightAlike (world rank)) ∧
      ∃ rank handle, (world rank).allocated handle = false ∧
        (after rank).allocated handle = true := by
  have traces : (∃ rank, ¬ (after rank).InFlightAlike (world rank)) ∧
      ∃ rank handle, (world rank).allocated handle = false ∧
        (after rank).allocated handle = true := by
    cases call with
    | send self buf count element_size dest tag custom request =>
        obtain ⟨⟨outcome, rank⟩, sent, same⟩ := Option.map_eq_some_iff.mp threw
        obtain ⟨rfl, rfl⟩ := Prod.mk.inj same
        obtain ⟨⟨message, pushed⟩, handle, unused, used⟩ := Rank.send_threw sent
        refine ⟨⟨self, fun alike => ?_⟩, self, handle, unused, ?_⟩
        · have lengths := congrArg (fun outgoing => (outgoing dest).length) alike.1
          simp only [World.set_self, pushed, List.length_append, List.length_singleton]
            at lengths
          omega
        · rw [World.set_self]
          exact used
    | recv self buffer element_size source tag request inside =>
        obtain ⟨changed, handle, unused, used⟩ := World.recv_threw threw
        refine ⟨?_, self, handle, unused, used⟩
        rcases changed with ⟨receive, posts⟩ | ⟨peer, fewer⟩
        · refine ⟨self, fun alike => ?_⟩
          have lengths := congrArg List.length alike.2.1
          rw [posts, List.length_append, List.length_singleton] at lengths
          omega
        · refine ⟨peer, fun alike => ?_⟩
          rw [alike.1] at fewer
          exact Nat.lt_irrefl _ fewer
  refine ⟨fun unaffected => ?_, traces⟩
  obtain ⟨_, rank, handle, unused, used⟩ := traces
  have same := unaffected.allocated rank handle
  rw [unused, used] at same
  contradiction

/-- One rank with the two communication buffers of its setup. -/
def oneRank : World := fun rank => (Rank.initial rank fun _ => 0).setup_cache 0 2 64

/-- Two sends of the rank to itself use up its communication buffers. -/
def twoSends : List World.Event :=
  [.send 0 512 1 8 0 1 0 (some 0), .send 0 512 1 8 0 2 0 (some 1)]

/-- The state after the two sends. -/
def exhausted : World := (oneRank.run twoSends).getD oneRank

theorem run_twoSends : oneRank.run twoSends = some exhausted := rfl

/-- A receive that finds no buffer keeps a request and leaves its receive posted. -/
theorem recv_exhausted_affects :
    oneRank.run twoSends = some exhausted ∧
      ∃ after,
        exhausted.call (.recv 0 (.given 1024) 8 0 1 2 none) =
          some (.threw "No buffered cache available", after) ∧
        ¬ Unaffected exhausted after := by
  have threw : ∃ after, exhausted.call (.recv 0 (.given 1024) 8 0 1 2 none) =
      some (.threw "No buffered cache available", after) := ⟨_, rfl⟩
  obtain ⟨after, threw⟩ := threw
  exact ⟨run_twoSends, after, threw, (exhausted_call_affects threw).1⟩

/-- A third send throws. Its message is on the way and its request is allocated
afterwards, and when the send of the header is called back, the callback follows a null
pointer. -/
theorem send_exhausted :
    oneRank.run twoSends = some exhausted ∧
      ∃ after,
        exhausted.call (.send 0 512 1 8 0 3 0 (some 2)) =
          some (.threw "No buffered cache available", after) ∧
        (((exhausted 0).outgoing 0).length = 2 ∧ ((after 0).outgoing 0).length = 3) ∧
        ((exhausted 0).allocated (.request 2) = false ∧
          (after 0).allocated (.request 2) = true) ∧
        (after.run [.transmit 0 0 2, .progress 0 0]).map (fun later => (later 0).control) =
          some .crashed ∧
        ¬ Unaffected exhausted after := by
  refine ⟨run_twoSends, _, rfl, ⟨rfl, rfl⟩, ⟨rfl, rfl⟩, rfl, fun unaffected => ?_⟩
  have same := unaffected.allocated 0 (.request 2)
  contradiction

end Ucx

end DistributedJoin
