import DistributedJoin.Device.Integers
import Mathlib.Data.Int.Order.Basic
import Mathlib.Data.List.Range
import Mathlib.Tactic.Ring

/-!
# Batches of a transfer

A transfer through communication buffers is cut into batches that fit into one
buffer. The sender runs a loop whose continuation moves between local variables
and the handles of pending sends; the receiver posts one batch after the other.
Both take the numbers of a batch from its index.
-/

namespace DistributedJoin

/-- `nelements_per_batch` in both callbacks. -/
def nelements_per_batch (comm_buffer_size element_size : Int) : Int :=
  comm_buffer_size.tdiv element_size

/-- `nelements_remaining` at the beginning of a callback. -/
def nelements_remaining (per_batch count ibatch : Int) : Int :=
  toInt64 (count - toInt64 (per_batch * ibatch))

/-- `nelements_current_batch` in both callbacks. -/
def nelements_current_batch (per_batch remaining : Int) : Int :=
  if remaining < per_batch then remaining else per_batch

/-- Elements remain where a batch is not empty. -/
theorem remaining_pos_of_batch
    {per_batch remaining : Int}
    (batch : 0 < nelements_current_batch per_batch remaining) :
    0 < remaining := by
  unfold nelements_current_batch at batch
  split at batch <;> omega

/-- A batch fits into a communication buffer. -/
theorem nelements_current_batch_fits
    {remaining : Int}
    (positive : 0 < remaining)
    (comm_buffer_size element_size : Int) :
    (nelements_current_batch (nelements_per_batch comm_buffer_size element_size) remaining *
      element_size).toNat ≤ comm_buffer_size.toNat := by
  have whole := Int.tmod_add_mul_tdiv comm_buffer_size element_size
  unfold nelements_current_batch nelements_per_batch
  rcases le_or_gt 0 comm_buffer_size with nonneg | negative
  · have rest := Int.tmod_nonneg element_size nonneg
    refine Int.toNat_le_toNat ?_
    rcases le_or_gt 0 element_size with forward | backward
    · have batch := Int.tdiv_nonneg nonneg forward
      split
      · nlinarith
      · nlinarith
    · have batch := Int.tdiv_nonpos_of_nonneg_of_nonpos nonneg backward.le
      rw [if_neg (by omega)]
      nlinarith
  · refine (Int.toNat_of_nonpos ?_).trans_le (Nat.zero_le _)
    rcases le_or_gt 0 element_size with forward | backward
    · have batch : comm_buffer_size.tdiv element_size ≤ 0 := by
        rw [← Int.neg_nonneg, ← Int.neg_tdiv]
        exact Int.tdiv_nonneg (by omega) forward
      rw [if_neg (by omega)]
      exact Int.mul_nonpos_of_nonpos_of_nonneg batch forward
    · have batch := Int.tdiv_nonneg_of_nonpos_of_nonpos negative.le backward.le
      refine Int.mul_nonpos_of_nonneg_of_nonpos ?_ backward.le
      split
      · exact positive.le
      · exact batch

/-- The local variables of the loop in `send_handler`. -/
structure SendLoop where
  ibatch : Int
  nelements_remaining : Int
  deriving DecidableEq

namespace SendLoop

/-- The callback begins with the batch stored in its handle. -/
def enter (per_batch count ibatch : Int) : SendLoop :=
  ⟨ibatch, DistributedJoin.nelements_remaining per_batch count ibatch⟩

/-- The variables after a send that has completed at once. -/
def advance (per_batch : Int) (loop : SendLoop) : SendLoop :=
  ⟨toInt (loop.ibatch + 1),
    toInt64 (loop.nelements_remaining -
      nelements_current_batch per_batch loop.nelements_remaining)⟩

/-- The next variables: those of the next iteration if the send has completed at
once, otherwise those of the callback of the pending send, whose handle stores
the next batch. -/
def next (per_batch count : Int) (immediate : Bool) (loop : SendLoop) : SendLoop :=
  if immediate then loop.advance per_batch
  else enter per_batch count (toInt (loop.ibatch + 1))

/-- The loop, over all its continuations, sends batches of exactly the given
lengths and ends. The sends that complete at once are chosen by the schedule. -/
def Sends (per_batch count : Int) :
    (Nat → Bool) → SendLoop → List Int → Prop
  | _, loop, [] => ¬ 0 < loop.nelements_remaining
  | schedule, loop, length :: rest =>
      0 < loop.nelements_remaining ∧
        length = nelements_current_batch per_batch loop.nelements_remaining ∧
        Sends per_batch count (fun index => schedule (index + 1))
          (loop.next per_batch count (schedule 0)) rest

end SendLoop

/-- The callbacks of a receive, from a batch on, post receives of exactly the given
lengths and then mark the receive as completed. -/
def Receives (per_batch count : Int) : Int → List Int → Prop
  | ibatch, [] =>
      ¬ 0 < nelements_current_batch per_batch (nelements_remaining per_batch count ibatch)
  | ibatch, length :: rest =>
      0 < nelements_current_batch per_batch (nelements_remaining per_batch count ibatch) ∧
        length =
          nelements_current_batch per_batch (nelements_remaining per_batch count ibatch) ∧
        Receives per_batch count (toInt (ibatch + 1)) rest

/-- The number of batches that hold a number of elements. -/
def batches (per_batch count : Int) : Nat := ((count + per_batch - 1) / per_batch).toNat

/-- The lengths of consecutive batches. -/
def batchLengths (per_batch count : Int) (first number : Nat) : List Int :=
  (List.range' first number).map fun index : Nat => min per_batch (count - per_batch * index)

/-- The batches with a given index are those before the end of the elements. -/
theorem lt_batches_iff
    {per_batch : Int}
    (positive : 0 < per_batch)
    (count : Int)
    (index : Nat) :
    index < batches per_batch count ↔ per_batch * index < count := by
  unfold batches
  rw [Int.lt_toNat, Int.lt_iff_add_one_le, Int.le_ediv_iff_mul_le positive]
  have expand : ((index : Int) + 1) * per_batch = per_batch * index + per_batch := by ring
  rw [expand]
  omega

/-- The first batches hold as many elements as fit, up to all of them. -/
theorem sum_batchLengths
    {per_batch count : Int}
    (positive : 0 < per_batch)
    (nonneg : 0 ≤ count)
    {number : Nat}
    (bound : number ≤ batches per_batch count) :
    (batchLengths per_batch count 0 number).sum = min count (per_batch * number) := by
  induction number with
  | zero => simp [batchLengths, nonneg]
  | succ number inductionHypothesis =>
      have inside := (lt_batches_iff positive count number).mp bound
      have earlier := inductionHypothesis (Nat.le_of_succ_le bound)
      unfold batchLengths at earlier ⊢
      rw [List.range'_1_concat, List.map_append, List.sum_append, earlier]
      simp only [List.map_cons, List.map_nil, List.sum_cons, List.sum_nil, Nat.zero_add,
        add_zero, Nat.cast_add, Nat.cast_one]
      have expand : per_batch * ((number : Int) + 1) = per_batch * number + per_batch := by
        ring
      omega

/-- All batches together hold all elements. -/
theorem sum_batchLengths_all
    {per_batch count : Int}
    (positive : 0 < per_batch)
    (nonneg : 0 ≤ count) :
    (batchLengths per_batch count 0 (batches per_batch count)).sum = count := by
  have enough : ¬ per_batch * (batches per_batch count : Nat) < count := fun inside =>
    Nat.lt_irrefl _ ((lt_batches_iff positive count _).mpr inside)
  rw [sum_batchLengths positive nonneg (Nat.le_refl _)]
  omega

/-- Numbers of elements of buffers in memory. -/
structure Addressable (per_batch count : Int) : Prop where
  count_nonneg : 0 ≤ count
  count_le : count ≤ 2 ^ 57
  per_batch_le : per_batch ≤ 2 ^ 57

namespace Addressable

variable {per_batch count : Int}

/-- Up to the last batch nothing wraps around. -/
theorem nelements_remaining_eq
    (addressable : Addressable per_batch count)
    (positive : 0 < per_batch)
    {index : Nat}
    (bound : index ≤ batches per_batch count) :
    nelements_remaining per_batch count index = count - per_batch * index := by
  have nonneg := addressable.count_nonneg
  have small := addressable.count_le
  have narrow := addressable.per_batch_le
  have lower : 0 ≤ per_batch * index := mul_nonneg positive.le (Int.natCast_nonneg index)
  have upper : per_batch * index ≤ count + per_batch := by
    cases index with
    | zero =>
        rw [Nat.cast_zero, mul_zero]
        omega
    | succ index =>
        have inside := (lt_batches_iff positive count index).mp bound
        have expand : per_batch * ((index + 1 : Nat) : Int) =
            per_batch * index + per_batch := by
          push_cast
          ring
        omega
  unfold nelements_remaining
  have inner : toInt64 (per_batch * index) = per_batch * index :=
    toInt64_eq (by omega) (by omega)
  rw [inner, toInt64_eq (by omega) (by omega)]

end Addressable

/-- The number of batches can be counted by an `int`. -/
theorem toInt_succ_eq {index : Nat} (bound : index + 1 < 2 ^ 31) :
    toInt ((index : Int) + 1) = ((index + 1 : Nat) : Int) := by
  unfold toInt
  rw [Int.bmod_def]
  push_cast
  omega

namespace SendLoop

variable {per_batch count : Int}

/-- The loop stands before the batch with a given index. -/
def Before (per_batch count : Int) (index : Nat) (loop : SendLoop) : Prop :=
  loop.ibatch = index ∧
    (loop.nelements_remaining = count - per_batch * index ∨
      loop.nelements_remaining ≤ 0 ∧ count ≤ per_batch * index)

theorem before_enter
    (addressable : Addressable per_batch count)
    (positive : 0 < per_batch)
    {index : Nat}
    (bound : index ≤ batches per_batch count) :
    Before per_batch count index (enter per_batch count index) :=
  ⟨rfl, .inl (addressable.nelements_remaining_eq positive bound)⟩

/-- Whether a send completes at once or later, the loop goes on with the next
batch. -/
theorem Before.next
    {loop : SendLoop}
    {index : Nat}
    (before : Before per_batch count index loop)
    (addressable : Addressable per_batch count)
    (positive : 0 < per_batch)
    (countable : batches per_batch count < 2 ^ 31)
    (bound : index < batches per_batch count)
    (immediate : Bool) :
    Before per_batch count (index + 1) (loop.next per_batch count immediate) := by
  obtain ⟨position, remaining⟩ := before
  have inside := (lt_batches_iff positive count index).mp bound
  have increment : toInt (loop.ibatch + 1) = ((index + 1 : Nat) : Int) := by
    rw [position]
    exact toInt_succ_eq (Nat.lt_of_le_of_lt bound countable)
  have exact : loop.nelements_remaining = count - per_batch * index := by omega
  cases immediate with
  | false =>
      rw [SendLoop.next, if_neg (by decide), increment]
      exact before_enter addressable positive bound
  | true =>
      refine ⟨increment, ?_⟩
      have nonneg : 0 ≤ per_batch * index :=
        mul_nonneg positive.le (Int.natCast_nonneg index)
      have small := addressable.count_le
      have expand : per_batch * ((index + 1 : Nat) : Int) = per_batch * index + per_batch := by
        push_cast
        ring
      change toInt64 _ = _ ∨ toInt64 _ ≤ 0 ∧ _
      rw [exact, expand]
      unfold nelements_current_batch
      split
      · right
        rw [toInt64_eq (by omega) (by omega)]
        omega
      · left
        rw [toInt64_eq (by omega) (by omega)]
        omega

/-- From every batch on the loop sends the remaining batches and ends. -/
theorem sends_of_before
    (addressable : Addressable per_batch count)
    (positive : 0 < per_batch)
    (countable : batches per_batch count < 2 ^ 31)
    {number index : Nat}
    (rest : index + number = batches per_batch count)
    {loop : SendLoop}
    (before : Before per_batch count index loop)
    (schedule : Nat → Bool) :
    Sends per_batch count schedule loop (batchLengths per_batch count index number) := by
  induction number generalizing index loop schedule with
  | zero =>
      have done := (lt_batches_iff positive count index).not.mp (by omega)
      have ended : loop.nelements_remaining ≤ 0 := by
        rcases before.2 with remaining | stopped
        · omega
        · exact stopped.1
      exact not_lt.mpr ended
  | succ number inductionHypothesis =>
      have bound : index < batches per_batch count := by omega
      have inside := (lt_batches_iff positive count index).mp bound
      have remaining : loop.nelements_remaining = count - per_batch * index := by
        rcases before.2 with remaining | stopped
        · exact remaining
        · omega
      refine ⟨by omega, ?_, ?_⟩
      · rw [remaining]
        change min per_batch (count - per_batch * index) = _
        unfold nelements_current_batch
        split <;> omega
      · exact inductionHypothesis (by omega)
          (before.next addressable positive countable bound (schedule 0)) _

/-- When the number of batches is not an `int`, there is always another batch. -/
theorem remaining_pos_of_uncountable
    (addressable : Addressable per_batch count)
    (positive : 0 < per_batch)
    (uncountable : 2 ^ 31 ≤ batches per_batch count)
    {ibatch : Int}
    (lower : -2 ^ 31 ≤ ibatch)
    (upper : ibatch < 2 ^ 31) :
    0 < (enter per_batch count ibatch).nelements_remaining := by
  have last : per_batch * ((2 ^ 31 - 1 : Nat) : Int) < count :=
    (lt_batches_iff positive count _).mp (by omega)
  have small := addressable.count_le
  have most : per_batch * ibatch ≤ per_batch * (2 ^ 31 - 1) :=
    mul_le_mul_of_nonneg_left (by omega) positive.le
  have least : per_batch * -2 ^ 31 ≤ per_batch * ibatch :=
    mul_le_mul_of_nonneg_left lower positive.le
  have inner : toInt64 (per_batch * ibatch) = per_batch * ibatch :=
    toInt64_eq (by omega) (by omega)
  change 0 < toInt64 (count - toInt64 (per_batch * ibatch))
  rw [inner, toInt64_eq (by omega) (by omega)]
  omega

/-- When all sends complete later and the number of batches is not an `int`, the
loop does not end. -/
theorem not_sends_of_uncountable
    (addressable : Addressable per_batch count)
    (positive : 0 < per_batch)
    (uncountable : 2 ^ 31 ≤ batches per_batch count)
    (lengths : List Int)
    {ibatch : Int}
    (lower : -2 ^ 31 ≤ ibatch)
    (upper : ibatch < 2 ^ 31) :
    ¬ Sends per_batch count (fun _ => false) (enter per_batch count ibatch) lengths := by
  induction lengths generalizing ibatch with
  | nil =>
      intro ended
      exact ended (remaining_pos_of_uncountable addressable positive uncountable lower upper)
  | cons length rest inductionHypothesis =>
      rintro ⟨_, _, continued⟩
      obtain ⟨above, below⟩ := toInt_bounds (ibatch + 1)
      exact inductionHypothesis above below continued

end SendLoop

/-- From every batch on the remaining batches are received. -/
theorem receives_of_lt
    {per_batch count : Int}
    (addressable : Addressable per_batch count)
    (positive : 0 < per_batch)
    (countable : batches per_batch count < 2 ^ 31)
    {number index : Nat}
    (rest : index + number = batches per_batch count) :
    Receives per_batch count index (batchLengths per_batch count index number) := by
  induction number generalizing index with
  | zero =>
      have done := (lt_batches_iff positive count index).not.mp (by omega)
      rw [batchLengths, List.range'_zero, List.map_nil, Receives,
        addressable.nelements_remaining_eq positive (by omega)]
      unfold nelements_current_batch
      split <;> omega
  | succ number inductionHypothesis =>
      have bound : index < batches per_batch count := by omega
      have inside := (lt_batches_iff positive count index).mp bound
      have increment : toInt ((index : Int) + 1) = ((index + 1 : Nat) : Int) :=
        toInt_succ_eq (Nat.lt_of_le_of_lt bound countable)
      rw [batchLengths, List.range'_succ, List.map_cons, Receives,
        addressable.nelements_remaining_eq positive bound.le, increment]
      refine ⟨?_, ?_, inductionHypothesis (by omega)⟩
      · unfold nelements_current_batch
        split <;> omega
      · unfold nelements_current_batch
        split <;> omega

end DistributedJoin
