import DistributedJoin.Ucx.Batches

/-!
# Setup of the buffered communicator

The size of the communication buffers comes from the configured size by a
division and a subtraction, and nothing checks that an element fits into a
buffer. When one does, and the batches can be counted, both callbacks take the
transfer through the same batches.
-/

namespace DistributedJoin

/-- `num_comm_buffers` in `setup_memory_pool_and_communicator`. -/
def num_comm_buffers (mpi_size : Int) : Int := toInt (2 * mpi_size)

/-- The size of a buffer that `setup_memory_pool_and_communicator` passes on. -/
def buffer_size (communicator_buffer_size mpi_size : Int) : Int :=
  toInt64 (communicator_buffer_size.tdiv (num_comm_buffers mpi_size) - 100000)

/-- `setup_memory_pool_and_communicator` for `"UCX"` and `"buffer"`: the size of
the communication buffers, if the pool has room for all of them. -/
def setup_memory_pool_and_communicator
    (pool_size : Nat)
    (mpi_size communicator_buffer_size : Int) : Option Int :=
  if toSizeT (toInt64 (buffer_size communicator_buffer_size mpi_size *
      num_comm_buffers mpi_size)) ≤ pool_size then
    some (buffer_size communicator_buffer_size mpi_size)
  else none

/-- The buffers that have been set up have a size between zero and that of the pool. -/
theorem buffer_size_bounds
    {pool_size : Nat}
    (pool : pool_size ≤ 2 ^ 57)
    {mpi_size : Int}
    (mpi_size_pos : 1 ≤ mpi_size)
    (mpi_size_le : mpi_size ≤ 65536)
    {communicator_buffer_size : Int}
    (lower : -2 ^ 63 ≤ communicator_buffer_size)
    (upper : communicator_buffer_size < 2 ^ 63)
    {comm_buffer_size : Int}
    (accepted : setup_memory_pool_and_communicator pool_size mpi_size
      communicator_buffer_size = some comm_buffer_size) :
    0 ≤ comm_buffer_size ∧ comm_buffer_size ≤ 2 ^ 57 := by
  have number : num_comm_buffers mpi_size = 2 * mpi_size := by
    unfold num_comm_buffers toInt
    rw [Int.bmod_def]
    omega
  unfold setup_memory_pool_and_communicator buffer_size at accepted
  rw [number] at accepted
  generalize quotientEquality : communicator_buffer_size.tdiv (2 * mpi_size) = quotient
    at accepted
  have division := Int.tmod_add_tdiv_mul communicator_buffer_size (2 * mpi_size)
  rw [quotientEquality] at division
  have remainderUpper := Int.tmod_lt_of_pos communicator_buffer_size
    (by omega : 0 < 2 * mpi_size)
  have remainderLower := Int.lt_tmod_of_pos communicator_buffer_size
    (by omega : 0 < 2 * mpi_size)
  have quotientUpper : quotient < 2 ^ 62 + 2 ^ 17 := by
    by_contra large
    have grown : (2 ^ 62 + 2 ^ 17) * (2 * mpi_size) ≤ quotient * (2 * mpi_size) :=
      mul_le_mul_of_nonneg_right (not_lt.mp large) (by omega)
    omega
  have quotientLower : -2 ^ 62 - 2 ^ 17 ≤ quotient := by
    by_contra small
    have shrunk : quotient * (2 * mpi_size) ≤ (-2 ^ 62 - 2 ^ 17) * (2 * mpi_size) :=
      mul_le_mul_of_nonneg_right (not_le.mp small).le (by omega)
    omega
  have size : toInt64 (quotient - 100000) = quotient - 100000 :=
    toInt64_eq (by omega) (by omega)
  rw [size, Option.ite_none_right_eq_some] at accepted
  obtain ⟨fits, same⟩ := accepted
  obtain rfl := Option.some.inj same
  have total : (quotient - 100000) * (2 * mpi_size) =
      quotient * (2 * mpi_size) - 100000 * (2 * mpi_size) := by ring
  have whole : (toSizeT (toInt64 ((quotient - 100000) * (2 * mpi_size))) : Int) =
      (quotient - 100000) * (2 * mpi_size) % 2 ^ 64 := by
    have modulus : (((2 ^ 64 : Nat) : Int)) = 2 ^ 64 := by norm_num
    unfold toSizeT toInt64
    rw [Int.toNat_of_nonneg (Int.emod_nonneg _ (by decide)), ← modulus]
    exact Int.bmod_emod
  have nonneg : 0 ≤ quotient - 100000 := by
    by_contra negative
    have below : (quotient - 100000) * (2 * mpi_size) < 0 :=
      mul_neg_of_neg_of_pos (not_le.mp negative) (by omega)
    omega
  have growing : quotient - 100000 ≤ (quotient - 100000) * (2 * mpi_size) :=
    le_mul_of_one_le_right nonneg (by omega)
  refine ⟨nonneg, ?_⟩
  omega

/-- Transfers with given sizes terminate: on both sides, whenever sends complete,
in the same batches, which together hold all elements. -/
structure BatchesTerminate (comm_buffer_size element_size count : Int) : Prop where
  per_batch : 1 ≤ nelements_per_batch comm_buffer_size element_size
  batches : ∃ lengths : List Int,
    lengths.length = batches (nelements_per_batch comm_buffer_size element_size) count ∧
    lengths.sum = count ∧
    (∀ schedule, SendLoop.Sends (nelements_per_batch comm_buffer_size element_size) count
      schedule (.enter (nelements_per_batch comm_buffer_size element_size) count 0) lengths) ∧
    Receives (nelements_per_batch comm_buffer_size element_size) count 0 lengths

/-- Buffers that hold an element have room for a batch, and only they do. -/
theorem nelements_per_batch_pos_iff
    {comm_buffer_size element_size : Int}
    (nonneg : 0 ≤ comm_buffer_size)
    (positive : 1 ≤ element_size) :
    1 ≤ nelements_per_batch comm_buffer_size element_size ↔
      element_size ≤ comm_buffer_size := by
  unfold nelements_per_batch
  rw [Int.tdiv_eq_ediv_of_nonneg nonneg, Int.le_ediv_iff_mul_le (by omega), one_mul]

/-- The buffered communicator, once it is set up, transfers a buffer in batches that
terminate exactly if an element fits into a communication buffer and the number of
batches is an `int`. -/
theorem batches_terminate_iff
    {pool_size : Nat}
    (pool : pool_size ≤ 2 ^ 57)
    {mpi_size : Int}
    (mpi_size_pos : 1 ≤ mpi_size)
    (mpi_size_le : mpi_size ≤ 65536)
    {communicator_buffer_size : Int}
    (lower : -2 ^ 63 ≤ communicator_buffer_size)
    (upper : communicator_buffer_size < 2 ^ 63)
    {comm_buffer_size : Int}
    (accepted : setup_memory_pool_and_communicator pool_size mpi_size
      communicator_buffer_size = some comm_buffer_size)
    {element_size count : Int}
    (element_size_pos : 1 ≤ element_size)
    (count_nonneg : 0 ≤ count)
    (addressable : count * element_size ≤ 2 ^ 57) :
    BatchesTerminate comm_buffer_size element_size count ↔
      element_size ≤ comm_buffer_size ∧
        batches (comm_buffer_size / element_size) count < 2 ^ 31 := by
  obtain ⟨size_nonneg, size_le⟩ :=
    buffer_size_bounds pool mpi_size_pos mpi_size_le lower upper accepted
  have quotient : nelements_per_batch comm_buffer_size element_size =
      comm_buffer_size / element_size := Int.tdiv_eq_ediv_of_nonneg size_nonneg
  have fits : Addressable (nelements_per_batch comm_buffer_size element_size) count := by
    refine ⟨count_nonneg, ?_, ?_⟩
    · have growing : count ≤ count * element_size :=
        le_mul_of_one_le_right count_nonneg element_size_pos
      omega
    · rw [quotient]
      have shrinking := Int.ediv_le_self element_size size_nonneg
      omega
  constructor
  · rintro ⟨per_batch, lengths, _, _, sends, _⟩
    refine ⟨(nelements_per_batch_pos_iff size_nonneg element_size_pos).mp per_batch, ?_⟩
    by_contra uncountable
    rw [← quotient] at uncountable
    exact SendLoop.not_sends_of_uncountable fits (by omega) (not_lt.mp uncountable) lengths
      (by decide) (by decide) (sends fun _ => false)
  · rintro ⟨holds, countable⟩
    rw [← quotient] at countable
    have per_batch := (nelements_per_batch_pos_iff size_nonneg element_size_pos).mpr holds
    have positive : 0 < nelements_per_batch comm_buffer_size element_size := by omega
    let each := nelements_per_batch comm_buffer_size element_size
    refine ⟨per_batch, batchLengths each count 0 (batches each count), ?_, ?_, ?_, ?_⟩
    · rw [batchLengths, List.length_map, List.length_range']
    · exact sum_batchLengths_all positive count_nonneg
    · exact fun schedule => SendLoop.sends_of_before fits positive countable
        (Nat.zero_add _) (SendLoop.before_enter fits positive (Nat.zero_le _)) schedule
    · exact receives_of_lt fits positive countable (Nat.zero_add _)

/-- With two ranks and buffers of 64 bytes, twenty elements of eight bytes are sent
in three batches. -/
theorem batches_terminate_two_ranks : BatchesTerminate 64 8 20 := by
  have accepted : setup_memory_pool_and_communicator (2 ^ 20) 2 400256 = some 64 := by
    decide
  exact (batches_terminate_iff (by decide) (by decide) (by decide) (by decide) (by decide)
    accepted (by decide) (by decide) (by decide)).mpr (by decide)

/-- When no element fits into a buffer, the sender sends empty batches without end
and the receiver takes the receive as completed at once. -/
theorem batches_of_zero
    {count : Int}
    (positive : 0 < count)
    (small : count < 2 ^ 63) :
    (∀ schedule lengths, ¬ SendLoop.Sends 0 count schedule (.enter 0 count 0) lengths) ∧
      Receives 0 count 0 [] := by
  have wrapped : toInt64 count = count := toInt64_eq (by omega) small
  have zero : toInt64 0 = 0 := by decide
  have remaining : ∀ ibatch, nelements_remaining 0 count ibatch = count := by
    intro ibatch
    rw [nelements_remaining, zero_mul, zero, sub_zero, wrapped]
  have stuck : ∀ lengths schedule (loop : SendLoop), loop.nelements_remaining = count →
      ¬ SendLoop.Sends 0 count schedule loop lengths := by
    intro lengths
    induction lengths with
    | nil =>
        intro schedule loop stands ended
        rw [SendLoop.Sends, stands] at ended
        exact ended positive
    | cons length rest inductionHypothesis =>
        rintro schedule loop stands ⟨_, _, continued⟩
        refine inductionHypothesis _ _ ?_ continued
        cases schedule 0 with
        | false => exact remaining _
        | true =>
            change toInt64 (loop.nelements_remaining - _) = count
            rw [stands, nelements_current_batch, if_neg (by omega), sub_zero, wrapped]
  refine ⟨fun schedule lengths => stuck lengths schedule _ (remaining 0), ?_⟩
  rw [Receives, remaining, nelements_current_batch, if_neg (by omega)]
  decide

/-- A configured size of 200008 bytes is accepted for one rank, and leaves buffers of
four bytes. An element of eight bytes is then never transferred: the sender does not
end, and the receiver posts nothing. -/
theorem batches_endless_one_rank :
    setup_memory_pool_and_communicator (2 ^ 20) 1 200008 = some 4 ∧
      (∀ schedule lengths, ¬ SendLoop.Sends (nelements_per_batch 4 8) 1 schedule
        (.enter (nelements_per_batch 4 8) 1 0) lengths) ∧
      Receives (nelements_per_batch 4 8) 1 0 [] ∧
      ¬ BatchesTerminate 4 8 1 := by
  have empty : nelements_per_batch 4 8 = 0 := by decide
  obtain ⟨endless, nothing⟩ := batches_of_zero (by decide : (0 : Int) < 1) (by decide)
  rw [empty]
  refine ⟨by decide, endless, nothing, fun terminate => ?_⟩
  have per_batch := terminate.per_batch
  rw [empty] at per_batch
  exact absurd per_batch (by decide)

end DistributedJoin
