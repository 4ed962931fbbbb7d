import DistributedJoin.Ucx.BufferCommunicator
import Mathlib.Algebra.BigOperators.Group.Finset.Piecewise
import Mathlib.Algebra.Order.Group.Multiset

/-!
# What is going on at a rank

The operations of UCX that are in flight at a rank, and the handles whose transfers go on:
those of the operations in flight, of the callbacks that are due and of the callback that
is executed. An event passes the transfer of a handle on from one of these to the next.
-/

namespace DistributedJoin

namespace Ucx

open Device

/-- The operation of a message whose bytes have not been read. -/
def Message.operation (message : Message) : Option (Place × Handle) :=
  match message.payload with
  | .taken _ => none
  | .pending place request => some (place, request)

/-- The handle that a callback is called for. -/
def Callback.handle : Callback → Handle
  | .send_handler request => request
  | .recv_handler request => request

namespace Control

/-- The handle whose callback is executed. -/
def running : Control → Multiset Handle
  | .user => 0
  | .sending handle _ => {handle}
  | .receiving handle _ => {handle}
  | .crashed => 0

/-- The handle whose `send_handler` is executed. -/
def sender : Control → Option Handle
  | .user => none
  | .sending handle _ => some handle
  | .receiving _ _ => none
  | .crashed => none

theorem running_of_sender
    {control : Control}
    {handle : Handle}
    (sends : control.sender = some handle) :
    control.running = {handle} := by
  cases control with
  | user => contradiction
  | sending other loop => rw [← Option.some.inj sends]; rfl
  | receiving other outer => contradiction
  | crashed => contradiction

/-- The handles that are freed when the callback is left. -/
def outer : Control → List Handle
  | .user => []
  | .sending _ _ => []
  | .receiving _ outer => outer
  | .crashed => []

end Control

/-- The operations of messages. -/
def operationsOf (messages : List Message) : Multiset (Place × Handle) :=
  messages.filterMap Message.operation

/-- The operations of the messages to all ranks. -/
def sendsOf (n : Nat) (outgoing : Nat → List Message) : Multiset (Place × Handle) :=
  ∑ dest ∈ Finset.range n, operationsOf (outgoing dest)

@[simp] theorem operationsOf_append (messages others : List Message) :
    operationsOf (messages ++ others) = operationsOf messages + operationsOf others := by
  simp [operationsOf]

@[simp] theorem operationsOf_taken (tag : Tag) (bytes : List Byte) :
    operationsOf [⟨tag, .taken bytes⟩] = 0 := rfl

@[simp] theorem operationsOf_pending (tag : Tag) (place : Place) (request : Handle) :
    operationsOf [⟨tag, .pending place request⟩] = {(place, request)} := rfl

/-- Only the messages to one rank change. -/
theorem sendsOf_update
    {n dest : Nat}
    (destBound : dest < n)
    (outgoing : Nat → List Message)
    (messages : List Message) :
    sendsOf n (Function.update outgoing dest messages) + operationsOf (outgoing dest) =
      sendsOf n outgoing + operationsOf messages := by
  have member : dest ∈ Finset.range n := Finset.mem_range.mpr destBound
  have others : ∑ other ∈ (Finset.range n).erase dest,
        operationsOf (Function.update outgoing dest messages other) =
      ∑ other ∈ (Finset.range n).erase dest, operationsOf (outgoing other) :=
    Finset.sum_congr rfl fun other range => by
      rw [Function.update_of_ne (Finset.ne_of_mem_erase range)]
  rw [sendsOf, sendsOf, ← Finset.add_sum_erase _ _ member, ← Finset.add_sum_erase _ _ member,
    others, Function.update_self]
  ac_rfl

/-- Taking a message whose bytes have been read removes no operation. -/
theorem operationsOf_takeMessage
    {tag : Tag}
    {messages rest : List Message}
    {bytes : List Byte}
    (taken : takeMessage tag messages = some (bytes, rest)) :
    operationsOf rest = operationsOf messages := by
  induction messages generalizing rest with
  | nil => contradiction
  | cons message messages inductionHypothesis =>
      unfold takeMessage at taken
      split at taken
      · split at taken
        · rename_i payload
          obtain ⟨_, rfl⟩ := by simpa using taken
          simp [operationsOf, Message.operation, payload]
        · contradiction
      · obtain ⟨⟨found, others⟩, inner, same⟩ := Option.map_eq_some_iff.mp taken
        obtain ⟨rfl, rfl⟩ := by simpa using same
        have kept := inductionHypothesis inner
        simp only [operationsOf, List.filterMap_cons] at kept ⊢
        split
        · exact kept
        · rw [← Multiset.cons_coe, ← Multiset.cons_coe, kept]

/-- Reading the bytes of a message ends its operation. -/
theorem operationsOf_takeOver
    {read : Place → List Byte}
    {position : Nat}
    {messages rest : List Message}
    {request : Handle}
    (taken : takeOver read position messages = some (request, rest)) :
    ∃ place, operationsOf messages = (place, request) ::ₘ operationsOf rest := by
  induction messages generalizing position rest with
  | nil => cases position <;> contradiction
  | cons message messages inductionHypothesis =>
      cases position with
      | zero =>
          unfold takeOver at taken
          split at taken
          · contradiction
          · rename_i place found payload
            obtain ⟨rfl, rfl⟩ := by simpa using taken
            refine ⟨place, ?_⟩
            simp only [operationsOf, List.filterMap_cons, Message.operation, payload]
            rfl
      | succ position =>
          obtain ⟨⟨found, others⟩, inner, same⟩ := Option.map_eq_some_iff.mp taken
          obtain ⟨rfl, rfl⟩ := by simpa using same
          obtain ⟨place, kept⟩ := inductionHypothesis inner
          refine ⟨place, ?_⟩
          simp only [operationsOf, List.filterMap_cons] at kept ⊢
          split
          · exact kept
          · rw [← Multiset.cons_coe, ← Multiset.cons_coe, kept, Multiset.cons_swap]

/-- Removing a receive from those that are posted. -/
theorem perm_takePosted
    {tag : Tag}
    {receives rest : List Posted}
    {posted : Posted}
    (taken : takePosted tag receives = some (posted, rest)) :
    receives.Perm (posted :: rest) := by
  induction receives generalizing rest with
  | nil => contradiction
  | cons receive receives inductionHypothesis =>
      unfold takePosted at taken
      split at taken
      · obtain ⟨rfl, rfl⟩ := by simpa using taken
        exact .refl _
      · obtain ⟨⟨found, others⟩, inner, same⟩ := Option.map_eq_some_iff.mp taken
        obtain ⟨rfl, rfl⟩ := by simpa using same
        exact ((inductionHypothesis inner).cons receive).trans (.swap _ _ _)

namespace Rank

/-- The operations of UCX in flight. -/
def operations (n : Nat) (rank : Rank) : Multiset (Place × Handle) :=
  sendsOf n rank.outgoing +
    (rank.posted.map fun receive => (receive.place, receive.request) : List _)

/-- The handles whose transfers go on. -/
def active (n : Nat) (rank : Rank) : Multiset Handle :=
  (rank.operations n).map Prod.snd + (rank.due.map Callback.handle : List Handle) +
    rank.control.running

end Rank

end Ucx

end DistributedJoin
