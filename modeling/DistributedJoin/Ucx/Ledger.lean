import DistributedJoin.Ucx.Groups
import DistributedJoin.Ucx.Queues
import DistributedJoin.Ucx.Rounds

/-!
# What is transferred

A ledger of the transfers on every channel: what has been sent on it, how many receives have
been posted, and the send and the receive that have not been waited for. Programs have at most
one of each on a channel, and do not touch the buffers of their transfers.
-/

namespace DistributedJoin

namespace Ucx

open Device

/-- A sender, a receiver and a user tag. -/
structure Channel where
  source : Nat
  dest : Nat
  tag : Int
  deriving DecidableEq

namespace Channel

/-- The tag of the messages of a channel. -/
def comm_tag (channel : Channel) : Tag := get_comm_tag channel.tag channel.source

/-- User tags are of type `int`. -/
def Valid (n : Nat) (channel : Channel) : Prop :=
  channel.source < n ∧ channel.dest < n ∧ -2 ^ 31 ≤ channel.tag ∧ channel.tag < 2 ^ 31

/-- The channels to a rank have different tags, as ranks are of type `int`. -/
theorem eq_of_comm_tag
    {n : Nat}
    (ranks : n ≤ 2 ^ 31)
    {first second : Channel}
    (valid : first.Valid n)
    (other : second.Valid n)
    (dest : first.dest = second.dest)
    (same : first.comm_tag = second.comm_tag) :
    first = second := by
  obtain ⟨source, _, lower, upper⟩ := valid
  obtain ⟨otherSource, _, otherLower, otherUpper⟩ := other
  obtain ⟨tag, rank⟩ := get_comm_tag_inj lower upper otherLower otherUpper (by omega) (by omega)
    same
  cases first
  cases second
  obtain rfl := tag
  obtain rfl := rank
  obtain rfl := dest
  rfl

end Channel

/-- What the two ranks of a channel agree on for each of its rounds. -/
abbrev Agreement := Channel → Nat → Extent

/-- A send that has not been waited for. -/
structure Sending where
  handle : Handle
  buf : Int
  /-- The variable with the number of elements. -/
  counter : Cell
  round : Round

namespace Sending

/-- The buffer of a send. -/
def region (sending : Sending) : Region := ⟨sending.buf, sending.round.bytes.length⟩

end Sending

/-- A receive that has not been waited for. -/
structure Receiving where
  handle : Handle
  /-- The number of receives before it. -/
  round : Nat
  buffer : RecvBuffer
  /-- The number of variables from `malloc` before the receive. -/
  malloced : Nat

namespace Receiving

variable (receiving : Receiving)

/-- The variable that the number of elements is received in. -/
def counter : Cell := receiving.buffer.counter receiving.malloced

/-- The variable that points to the buffer. -/
def pointer : Cell := receiving.buffer.pointer (receiving.malloced + 1)

/-- An address belongs to a buffer of a size, once it has been given or allocated. -/
def Covers (rank : Rank) (size : Nat) (address : Int) : Prop :=
  ∃ start, rank.pointers receiving.pointer = some start ∧
    (Region.mk start size).Covers address

end Receiving

structure Ledger where
  sent : Channel → List Round
  sending : Channel → Option Sending
  /-- The number of receives that have been posted. -/
  received : Channel → Nat
  receiving : Channel → Option Receiving

namespace Ledger

/-- Nothing has been transferred. -/
def empty : Ledger := ⟨fun _ => [], fun _ => none, fun _ => 0, fun _ => none⟩

/-- A send begins. -/
def send (ledger : Ledger) (channel : Channel) (sending : Sending) : Ledger :=
  { ledger with
    sent := Function.update ledger.sent channel (ledger.sent channel ++ [sending.round])
    sending := Function.update ledger.sending channel (some sending) }

/-- A receive begins. -/
def recv (ledger : Ledger) (channel : Channel) (receiving : Receiving) : Ledger :=
  { ledger with
    received := Function.update ledger.received channel (ledger.received channel + 1)
    receiving := Function.update ledger.receiving channel (some receiving) }

/-- Transfers of a rank have been waited for. -/
def waitall (ledger : Ledger) (self : Nat) (handles : List Handle) : Ledger :=
  { ledger with
    sending := fun channel => (ledger.sending channel).filter fun sending =>
      ¬ (channel.source = self ∧ sending.handle ∈ handles)
    receiving := fun channel => (ledger.receiving channel).filter fun receiving =>
      ¬ (channel.dest = self ∧ receiving.handle ∈ handles) }

variable {ledger : Ledger} {channel other : Channel}

theorem sent_send (sending : Sending) :
    (ledger.send channel sending).sent channel = ledger.sent channel ++ [sending.round] :=
  Function.update_self channel _ ledger.sent

theorem sent_send_of_ne (different : other ≠ channel) (sending : Sending) :
    (ledger.send channel sending).sent other = ledger.sent other :=
  Function.update_of_ne different _ ledger.sent

theorem sending_send (sending : Sending) :
    (ledger.send channel sending).sending channel = some sending :=
  Function.update_self channel _ ledger.sending

theorem sending_send_of_ne (different : other ≠ channel) (sending : Sending) :
    (ledger.send channel sending).sending other = ledger.sending other :=
  Function.update_of_ne different _ ledger.sending

theorem received_recv_of_ne (different : other ≠ channel) (receiving : Receiving) :
    (ledger.recv channel receiving).received other = ledger.received other :=
  Function.update_of_ne different _ ledger.received

theorem receiving_recv (receiving : Receiving) :
    (ledger.recv channel receiving).receiving channel = some receiving :=
  Function.update_self channel _ ledger.receiving

theorem receiving_recv_of_ne (different : other ≠ channel) (receiving : Receiving) :
    (ledger.recv channel receiving).receiving other = ledger.receiving other :=
  Function.update_of_ne different _ ledger.receiving

theorem sending_send_iff {sending found : Sending} :
    (ledger.send channel sending).sending other = some found ↔
      other = channel ∧ found = sending ∨
        other ≠ channel ∧ ledger.sending other = some found := by
  by_cases same : other = channel
  · subst same
    rw [sending_send]
    simp [eq_comm]
  · rw [sending_send_of_ne same]
    simp [same]

theorem receiving_recv_iff {receiving found : Receiving} :
    (ledger.recv channel receiving).receiving other = some found ↔
      other = channel ∧ found = receiving ∨
        other ≠ channel ∧ ledger.receiving other = some found := by
  by_cases same : other = channel
  · subst same
    rw [receiving_recv]
    simp [eq_comm]
  · rw [receiving_recv_of_ne same]
    simp [same]

theorem exists_sending_send {sending : Sending} :
    (∃ found, (ledger.send channel sending).sending other = some found) ↔
      other = channel ∨ ∃ found, ledger.sending other = some found := by
  by_cases same : other = channel
  · subst same
    simp [sending_send]
  · simp [sending_send_of_ne same, same]

theorem exists_receiving_recv {receiving : Receiving} :
    (∃ found, (ledger.recv channel receiving).receiving other = some found) ↔
      other = channel ∨ ∃ found, ledger.receiving other = some found := by
  by_cases same : other = channel
  · subst same
    simp [receiving_recv]
  · simp [receiving_recv_of_ne same, same]

theorem sending_waitall_iff {self : Nat} {handles : List Handle} {found : Sending} :
    (ledger.waitall self handles).sending channel = some found ↔
      ledger.sending channel = some found ∧
        ¬ (channel.source = self ∧ found.handle ∈ handles) := by
  simp [waitall, Option.filter_eq_some_iff, imp_iff_not_or]

/-- A send that is not waited for stays. -/
theorem sending_waitall
    {self : Nat}
    {handles : List Handle}
    (remains : ∀ found, ledger.sending channel = some found → channel.source = self →
      found.handle ∉ handles) :
    (ledger.waitall self handles).sending channel = ledger.sending channel := by
  cases outstanding : ledger.sending channel with
  | none => simp [waitall, outstanding]
  | some found =>
      have stays := remains found outstanding
      simpa [waitall, outstanding, imp_iff_not_or] using stays

/-- A receive that is not waited for stays. -/
theorem receiving_waitall
    {self : Nat}
    {handles : List Handle}
    (remains : ∀ found, ledger.receiving channel = some found → channel.dest = self →
      found.handle ∉ handles) :
    (ledger.waitall self handles).receiving channel = ledger.receiving channel := by
  cases outstanding : ledger.receiving channel with
  | none => simp [waitall, outstanding]
  | some found =>
      have stays := remains found outstanding
      simpa [waitall, outstanding, imp_iff_not_or] using stays

theorem receiving_waitall_iff {self : Nat} {handles : List Handle} {found : Receiving} :
    (ledger.waitall self handles).receiving channel = some found ↔
      ledger.receiving channel = some found ∧
        ¬ (channel.dest = self ∧ found.handle ∈ handles) := by
  simp [waitall, Option.filter_eq_some_iff, imp_iff_not_or]

end Ledger

/-- Ranks and their transfers. -/
structure Traffic where
  world : World
  ledger : Ledger

namespace Traffic

/-- The send that a call begins. -/
def begun (rank : Rank) (handle : Handle) (buf count element_size : Int) : Sending where
  handle := handle
  buf := buf
  counter := .malloced rank.malloced
  round :=
    { count := count
      element_size := element_size
      bytes := rank.heap.read buf (count * element_size).toNat }

/-- The receive that a call begins. -/
def awaited (rank : Rank) (handle : Handle) (round : Nat) (buffer : RecvBuffer) : Receiving where
  handle := handle
  round := round
  buffer := buffer
  malloced := rank.malloced

variable (traffic : Traffic)

/-- The ledger after an event. -/
def record : World.Event → Ledger
  | .send self buf count element_size dest tag custom request =>
      match (traffic.world self).send buf count element_size dest tag custom request with
      | some (.returned handle, _) =>
          traffic.ledger.send ⟨self, dest, tag⟩
            (begun (traffic.world self) handle buf count element_size)
      | _ => traffic.ledger
  | .recv self buffer element_size source tag request inside =>
      match traffic.world.recv self buffer element_size source tag request inside with
      | some (.returned handle, _) =>
          traffic.ledger.recv ⟨source, self, tag⟩
            (awaited (traffic.world self) handle (traffic.ledger.received ⟨source, self, tag⟩)
              buffer)
      | _ => traffic.ledger
  | .waitall self handles => traffic.ledger.waitall self handles
  | _ => traffic.ledger

/-- The state after an event, if it can happen. -/
def step (event : World.Event) : Option Traffic :=
  (traffic.world.step event).map fun after => ⟨after, traffic.record event⟩

section Uses

variable (agreed : Agreement) (rank : Nat) (address : Int)

/-- An outstanding send of a rank reads an address. -/
def Reads : Prop :=
  ∃ channel sending, channel.source = rank ∧ traffic.ledger.sending channel = some sending ∧
    sending.region.Covers address

/-- An outstanding receive of a rank writes an address. -/
def Writes : Prop :=
  ∃ channel receiving, channel.dest = rank ∧
    traffic.ledger.receiving channel = some receiving ∧
    receiving.Covers (traffic.world rank) (agreed channel receiving.round).size address

/-- An address belongs to a communication buffer or to the buffer of a transfer. -/
def InUse (buffers : List Int) (buffer_size : Int) : Prop :=
  (∃ buffer ∈ buffers, InBuffer buffer_size buffer address) ∨
    traffic.Reads rank address ∨ traffic.Writes agreed rank address

end Uses

end Traffic

/-- Whether `recv_handler` allocates a buffer. -/
def Rank.Allocates (rank : Rank) (info : CommInfo) : Prop :=
  rank.pointers info.recv_buffer = none ∧ 0 < rank.total info

section Programs

variable
  (n : Nat)
  (comm_buffer_size : Int)
  (buffers : Nat → List Int)
  (agreed : Agreement)

/-- On every channel one send and one receive at most are outstanding, with the sizes that
have been agreed on. Buffers that transfers are to be written to are not used otherwise, and
variables of receives neither. Programs wait for handles that have been returned. -/
def Traffic.Obeys (traffic : Traffic) : World.Event → Prop
  | .send self buf count element_size dest tag _ _ =>
      let channel : Channel := ⟨self, dest, tag⟩
      channel.Valid n ∧ traffic.ledger.sending channel = none ∧
        agreed channel (traffic.ledger.sent channel).length = ⟨count, element_size⟩ ∧
        (Extent.mk count element_size).Sized comm_buffer_size ∧
        ∀ address, (Region.mk buf (Extent.mk count element_size).size).Covers address →
          (∀ buffer ∈ buffers self, ¬ InBuffer comm_buffer_size buffer address) ∧
            ¬ traffic.Writes agreed self address
  | .recv self buffer element_size source tag _ _ =>
      let channel : Channel := ⟨source, self, tag⟩
      let extent := agreed channel (traffic.ledger.received channel)
      channel.Valid n ∧ traffic.ledger.receiving channel = none ∧
        extent.element_size = element_size ∧
        match buffer with
        | .given buf => ∀ address, (Region.mk buf extent.size).Covers address →
            ¬ traffic.InUse agreed self address (buffers self) comm_buffer_size
        | .unknown buf count =>
            (∃ index, buf = .declared index) ∧ (∃ index, count = .declared index) ∧
              ∀ other receiving, other.dest = self →
                traffic.ledger.receiving other = some receiving →
                receiving.pointer ≠ buf ∧ receiving.counter ≠ count
  | .waitall self handles =>
      handles.Nodup ∧ ∀ handle ∈ handles, handle ∈ (traffic.world self).returned
  | .compute self heap => ∀ address,
      traffic.InUse agreed self address (buffers self) comm_buffer_size →
        heap address = (traffic.world self).heap address
  | .recv_handler self address _ _ => ∀ handle outer,
      (traffic.world self).control = .receiving handle outer →
      (traffic.world self).Allocates ((traffic.world self).info handle) →
      ∀ inside, (Region.mk address ((traffic.world self).total
            ((traffic.world self).info handle) *
          ((traffic.world self).info handle).element_size).toNat).Covers inside →
        ¬ traffic.InUse agreed self inside (buffers self) comm_buffer_size
  | _ => True

/-- Calls find a communication buffer in the queue, and batches can be counted by an `int`. -/
def Traffic.Meets (traffic : Traffic) : World.Event → Prop
  | .send self _ count element_size _ _ _ _ =>
      (traffic.world self).buffer_cache ≠ [] ∧
        (Extent.mk count element_size).number comm_buffer_size < 2 ^ 31
  | .recv self _ _ _ _ _ _ => (traffic.world self).buffer_cache ≠ []
  | _ => True

end Programs

namespace Traffic

/-- The states that are reached by events of a kind. -/
inductive Reaches (Permits : Traffic → World.Event → Prop) (start : Traffic) : Traffic → Prop
  | start : Reaches Permits start start
  | step
      {traffic after : Traffic}
      {event : World.Event}
      (reached : Reaches Permits start traffic)
      (permitted : Permits traffic event)
      (stepped : traffic.step event = some after) :
      Reaches Permits start after

end Traffic

end Ucx

end DistributedJoin
