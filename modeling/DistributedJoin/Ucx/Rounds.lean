import DistributedJoin.Device.Heap
import DistributedJoin.Device.Items
import DistributedJoin.Ucx.Setup

/-!
# Rounds of a transfer

What a send transfers: a message with the number of its elements, and then its bytes in
batches. A sender reads the batches from its buffer one after the other, and a receiver writes
them to its own.
-/

namespace DistributedJoin

namespace Ucx

open Device

/-- What a sender and a receiver agree on. -/
structure Extent where
  count : Int
  element_size : Int
  deriving DecidableEq

namespace Extent

section Sizes

variable (comm_buffer_size : Int) (extent : Extent)

/-- The number of bytes. -/
def size : Nat := (extent.count * extent.element_size).toNat

/-- `nelements_per_batch` of the callbacks. -/
def per_batch : Int := nelements_per_batch comm_buffer_size extent.element_size

/-- The number of batches. -/
def number : Nat := batches (extent.per_batch comm_buffer_size) extent.count

/-- Elements that fit into a communication buffer and into memory. -/
structure Sized : Prop where
  element_size_pos : 1 ≤ extent.element_size
  element_size_le : extent.element_size ≤ comm_buffer_size
  count_nonneg : 0 ≤ extent.count
  count_le : extent.count ≤ 2 ^ 57

end Sizes

end Extent

/-- What one send transfers. -/
structure Round extends Extent where
  bytes : List Byte
  deriving DecidableEq

namespace Round

section Messages

variable (comm_buffer_size : Int) (round : Round)

/-- The number of bytes of a batch that is full. -/
def width : Nat := (round.per_batch comm_buffer_size * round.element_size).toNat

/-- The bytes of a batch. -/
def batch (index : Nat) : List Byte :=
  (round.bytes.drop (index * round.width comm_buffer_size)).take (round.width comm_buffer_size)

/-- The batches from one on. -/
def rest (first : Nat) : List (List Byte) :=
  (List.range' first (round.number comm_buffer_size - first)).map (round.batch comm_buffer_size)

/-- The message with the number of elements. -/
def header : List Byte := encode 8 round.count

/-- All messages of a round. -/
def stream : List (List Byte) := round.header :: round.rest comm_buffer_size 0

/-- The number of bytes of the batches before one. -/
def before (index : Nat) : Nat := (round.bytes.take (index * round.width comm_buffer_size)).length

/-- A round with as many batches as an `int` can count. -/
structure Fits : Prop extends round.Sized comm_buffer_size where
  comm_buffer_size_le : comm_buffer_size ≤ 2 ^ 57
  countable : round.number comm_buffer_size < 2 ^ 31
  length : (round.bytes.length : Int) = round.count * round.element_size

end Messages

/-- The messages of rounds one after the other. -/
def streams (comm_buffer_size : Int) (rounds : List Round) : List (List Byte) :=
  rounds.flatMap (stream comm_buffer_size)

@[simp] theorem streams_append (comm_buffer_size : Int) (rounds later : List Round) :
    streams comm_buffer_size (rounds ++ later) =
      streams comm_buffer_size rounds ++ streams comm_buffer_size later := by
  rw [streams, List.flatMap_append]
  rfl

theorem streams_single (comm_buffer_size : Int) (round : Round) :
    streams comm_buffer_size [round] = round.stream comm_buffer_size :=
  List.flatMap_singleton _ _

variable {comm_buffer_size : Int} {round : Round} {index : Nat}

theorem rest_of_lt (bound : index < round.number comm_buffer_size) :
    round.rest comm_buffer_size index =
      round.batch comm_buffer_size index :: round.rest comm_buffer_size (index + 1) := by
  have number : round.number comm_buffer_size - index =
      round.number comm_buffer_size - (index + 1) + 1 := by omega
  rw [rest, number, List.range'_succ, List.map_cons]
  rfl

theorem rest_number :
    round.rest comm_buffer_size (round.number comm_buffer_size) = [] := by
  rw [rest, Nat.sub_self]
  rfl

/-- The batches follow the message with the number of elements. -/
theorem drop_stream :
    (round.stream comm_buffer_size).drop (index + 1) = round.rest comm_buffer_size index := by
  rw [stream, List.drop_succ_cons, rest, rest, ← List.map_drop, List.drop_range', Nat.sub_zero,
    Nat.zero_add, Nat.mul_one]

/-- Another message follows those before it. -/
theorem take_stream_succ (bound : index < round.number comm_buffer_size) :
    (round.stream comm_buffer_size).take (index + 2) =
      (round.stream comm_buffer_size).take (index + 1) ++
        [round.batch comm_buffer_size index] := by
  have next := @List.take_add _ (round.stream comm_buffer_size) (index + 1) 1
  rw [drop_stream, rest_of_lt bound] at next
  exact next

theorem length_stream :
    (round.stream comm_buffer_size).length = round.number comm_buffer_size + 1 := by
  simp [stream, rest]

theorem take_stream_number :
    (round.stream comm_buffer_size).take (round.number comm_buffer_size + 1) =
      round.stream comm_buffer_size :=
  List.take_of_length_le length_stream.le

/-- The messages of one more round. -/
theorem streams_take_succ
    {rounds : List Round}
    (found : rounds[index]? = some round) :
    streams comm_buffer_size (rounds.take (index + 1)) =
      streams comm_buffer_size (rounds.take index) ++ round.stream comm_buffer_size := by
  rw [List.take_add_one, found, streams_append]
  exact congrArg _ (streams_single comm_buffer_size round)

/-- Rounds and a part of the next one are not all rounds. -/
theorem streams_take_ne
    {rounds : List Round}
    {part : List (List Byte)}
    (found : rounds[index]? = some round)
    (short : part.length < (round.stream comm_buffer_size).length) :
    streams comm_buffer_size (rounds.take index) ++ part ≠ streams comm_buffer_size rounds := by
  intro whole
  have split := congrArg (streams comm_buffer_size) (List.take_append_drop (index + 1) rounds)
  rw [streams_append, streams_take_succ found, ← whole, List.append_assoc,
    List.append_cancel_left_eq] at split
  have total := congrArg List.length split
  rw [List.length_append] at total
  omega

/-- The first message that follows rounds is the header of the next one. -/
theorem header_next
    {rounds : List Round}
    {bytes : List Byte}
    {later : List (List Byte)}
    (flow : streams comm_buffer_size (rounds.take index) ++ bytes :: later =
      streams comm_buffer_size rounds) :
    ∃ round, rounds[index]? = some round ∧ bytes = round.header := by
  have split := congrArg (streams comm_buffer_size) (List.take_append_drop index rounds)
  rw [streams_append, ← flow, List.append_cancel_left_eq] at split
  cases following : rounds.drop index with
  | nil =>
      rw [following] at split
      contradiction
  | cons round rest =>
      rw [following] at split
      refine ⟨round, ?_, (List.cons.inj split).1.symm⟩
      have first := congrArg List.head? following
      rwa [List.head?_drop] at first

/-- The message that follows a part of a round is its next batch. -/
theorem batch_next
    {rounds : List Round}
    {number : Nat}
    {bytes : List Byte}
    {later : List (List Byte)}
    (found : rounds[number]? = some round)
    (bound : index < round.number comm_buffer_size)
    (flow : streams comm_buffer_size (rounds.take number) ++
        (round.stream comm_buffer_size).take (index + 1) ++ bytes :: later =
      streams comm_buffer_size rounds) :
    bytes = round.batch comm_buffer_size index := by
  have split := congrArg (streams comm_buffer_size) (List.take_append_drop (number + 1) rounds)
  rw [streams_append, streams_take_succ found,
    ← List.take_append_drop (index + 1) (round.stream comm_buffer_size), drop_stream,
    rest_of_lt bound, ← flow, List.append_assoc, List.append_assoc, List.append_assoc,
    List.append_cancel_left_eq, List.append_cancel_left_eq] at split
  exact (List.cons.inj split).1.symm

/-- Another batch follows those before it. -/
theorem take_succ :
    round.bytes.take ((index + 1) * round.width comm_buffer_size) =
      round.bytes.take (index * round.width comm_buffer_size) ++
        round.batch comm_buffer_size index := by
  rw [Nat.succ_mul, List.take_add]
  rfl

theorem before_succ :
    round.before comm_buffer_size (index + 1) =
      round.before comm_buffer_size index + (round.batch comm_buffer_size index).length := by
  rw [before, take_succ, List.length_append]
  rfl

/-- A batch is written to the buffer of a receive behind those before it. -/
theorem write_batch
    {heap : Heap}
    {start : Int}
    (stored : heap.read start (round.before comm_buffer_size index) =
      round.bytes.take (index * round.width comm_buffer_size)) :
    (heap.write ⟨start + round.before comm_buffer_size index,
        round.batch comm_buffer_size index⟩).read start
          (round.before comm_buffer_size (index + 1)) =
      round.bytes.take ((index + 1) * round.width comm_buffer_size) := by
  rw [before_succ, Heap.read_append, take_succ, Heap.read_write _ _ (Nat.le_refl _),
    List.take_length, ← stored]
  refine congrArg (· ++ _) (Heap.read_congr fun address covers => ?_)
  refine Heap.write_of_not_covers heap fun written => ?_
  have above := written.1
  have below : address < start + round.before comm_buffer_size index := covers.2
  dsimp only at above
  omega

namespace Fits

variable (fits : round.Fits comm_buffer_size)
include fits

theorem comm_buffer_size_nonneg : 0 ≤ comm_buffer_size :=
  (Int.le_of_lt fits.element_size_pos).trans fits.element_size_le

theorem per_batch_pos : 0 < round.per_batch comm_buffer_size :=
  (nelements_per_batch_pos_iff fits.comm_buffer_size_nonneg fits.element_size_pos).mpr
    fits.element_size_le

theorem addressable : Addressable (round.per_batch comm_buffer_size) round.count where
  count_nonneg := fits.count_nonneg
  count_le := fits.count_le
  per_batch_le := by
    have small : nelements_per_batch comm_buffer_size round.element_size ≤ comm_buffer_size :=
      Int.tdiv_le_self round.element_size fits.comm_buffer_size_nonneg
    exact small.trans fits.comm_buffer_size_le

theorem width_eq :
    (round.width comm_buffer_size : Int) =
      round.per_batch comm_buffer_size * round.element_size :=
  Int.toNat_of_nonneg (Int.mul_nonneg fits.per_batch_pos.le (by
    have positive := fits.element_size_pos
    omega))

/-- The batches end where the bytes do. -/
theorem length_le : round.bytes.length ≤
    round.number comm_buffer_size * round.width comm_buffer_size := by
  have last := (lt_batches_iff fits.per_batch_pos round.count
    (round.number comm_buffer_size)).not.mp (Nat.lt_irrefl _)
  have scaled := Int.mul_le_mul_of_nonneg_right (not_lt.mp last)
    (Int.le_of_lt fits.element_size_pos)
  have total := fits.length
  have width := fits.width_eq
  zify
  rw [total, width, Int.mul_comm (round.number comm_buffer_size : Int), Int.mul_right_comm]
  exact scaled

theorem take_number :
    round.bytes.take (round.number comm_buffer_size * round.width comm_buffer_size) =
      round.bytes :=
  List.take_of_length_le fits.length_le

/-- A receiver finds the number of elements in the first message. -/
theorem decode_header : decode (round.header.take 8) = round.count := by
  have nonneg := fits.count_nonneg
  have small := fits.count_le
  rw [header, List.take_of_length_le (length_encode 8 round.count).le, decode_encode]
  apply Int.bmod_eq_of_le_mul_two <;> omega

variable (bound : index < round.number comm_buffer_size)
include bound

/-- The next batch begins where the one before it has ended. -/
theorem before_eq :
    (round.before comm_buffer_size index : Int) =
      round.per_batch comm_buffer_size * index * round.element_size ∧
    round.before comm_buffer_size index = index * round.width comm_buffer_size := by
  have inside := (lt_batches_iff fits.per_batch_pos round.count index).mp bound
  have scaled := Int.mul_le_mul_of_nonneg_right inside.le (Int.le_of_lt fits.element_size_pos)
  have total := fits.length
  have width := fits.width_eq
  have offset : ((index * round.width comm_buffer_size : Nat) : Int) =
      round.per_batch comm_buffer_size * index * round.element_size := by
    rw [Nat.cast_mul, width]
    ring
  have taken : round.before comm_buffer_size index = index * round.width comm_buffer_size := by
    rw [before, List.length_take]
    omega
  exact ⟨by rw [taken, offset], taken⟩

/-- The number of bytes that the callbacks pass to UCX for a batch. -/
theorem length_batch :
    (nelements_current_batch (round.per_batch comm_buffer_size)
        (round.count - round.per_batch comm_buffer_size * index) * round.element_size).toNat =
      (round.batch comm_buffer_size index).length := by
  obtain ⟨start, offset⟩ := fits.before_eq bound
  have inside := (lt_batches_iff fits.per_batch_pos round.count index).mp bound
  have total := fits.length
  have width := fits.width_eq
  have positive := fits.element_size_pos
  rw [batch, List.length_take, List.length_drop, ← offset]
  have left : ((round.count - round.per_batch comm_buffer_size * index) * round.element_size) =
      (round.bytes.length : Int) - round.before comm_buffer_size index := by
    rw [total, start]
    ring
  unfold nelements_current_batch
  split
  · rename_i last
    have less := Int.mul_le_mul_of_nonneg_right last.le (Int.le_of_lt positive)
    rw [left] at less ⊢
    rw [← width] at less
    omega
  · rename_i full
    have more := Int.mul_le_mul_of_nonneg_right (not_lt.mp full) (Int.le_of_lt positive)
    rw [left, ← width] at more
    rw [← width]
    omega

theorem batch_fits :
    (round.batch comm_buffer_size index).length ≤ comm_buffer_size.toNat := by
  have inside := (lt_batches_iff fits.per_batch_pos round.count index).mp bound
  rw [← fits.length_batch bound]
  exact nelements_current_batch_fits (by omega) comm_buffer_size round.element_size

/-- A batch is read from the buffer of a send. -/
theorem read_batch
    {heap : Heap}
    {start : Int}
    (stored : heap.read start round.bytes.length = round.bytes) :
    heap.read (start + round.before comm_buffer_size index)
        (round.batch comm_buffer_size index).length =
      round.batch comm_buffer_size index := by
  have offset := (fits.before_eq bound).2
  have inside : round.before comm_buffer_size index +
      (round.batch comm_buffer_size index).length ≤ round.bytes.length := by
    have shorter : round.before comm_buffer_size index ≤ round.bytes.length :=
      List.length_take_le' _ _
    rw [batch, List.length_take, List.length_drop, ← offset]
    omega
  rw [← Heap.drop_take_read heap start inside, stored, offset, batch, List.length_take,
    ← List.take_take, List.take_length]

end Fits

end Round

end Ucx

end DistributedJoin
