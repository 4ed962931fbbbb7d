import DistributedJoin.Dataset.Generation

/-!
# Row ids

The payload of a generated row is its number among the rows of all ranks. The first number
of a rank is a product of type `int`, whatever the type of the payload is.
-/

namespace DistributedJoin

open Device Spmd

namespace TypeId

/-- Integer types. -/
def is_integral : TypeId → Bool
  | INT8 | INT16 | INT32 | INT64 | UINT8 | UINT16 | UINT32 | UINT64 => true
  | _ => false

/-- An integer is read back up to a multiple of the range. -/
theorem dvd_read_encode_sub (id : TypeId) (value : Int) :
    (256 ^ id.size_of : Int) ∣ id.read (encode id.size_of value) - value := by
  rw [read]
  split
  · rw [unsigned_encode]
    exact Int.dvd_emod_sub_self
  · rw [decode_encode]
    exact_mod_cast @Int.dvd_bmod_sub_self value (256 ^ id.size_of)

/-- Any integer that is equal up to a multiple of the range is stored as an integer of the
type. -/
theorem read_encode_of_dvd
    {id : TypeId}
    {value represented : Int}
    (represents : id.Represents represented)
    (congruent : (256 ^ id.size_of : Int) ∣ value - represented) :
    id.read (encode id.size_of value) = represented := by
  obtain ⟨factor, difference⟩ := congruent
  have same : value = represented + factor * 256 ^ id.size_of := by
    rw [Int.mul_comm factor, ← difference]
    omega
  rw [same, encode_add_mul, read_encode represents]

/-- A type has the integers between zero and one of its integers. -/
theorem Represents.of_le
    {id : TypeId}
    {most value : Int}
    (represents : id.Represents most)
    (nonnegative : 0 ≤ value)
    (less : value ≤ most) :
    id.Represents value := by
  unfold Represents at represents ⊢
  split at represents
  · rename_i unsigned
    rw [if_pos unsigned]
    omega
  · rename_i signed
    rw [if_neg signed]
    have range : (0 : Int) < 256 ^ id.size_of := Int.pow_pos (by decide)
    omega

/-- Integers have at most 32 bits, or 64. -/
theorem size_of_integer
    {id : TypeId}
    (integer : id.is_integral = true) :
    id.size_of ≤ 4 ∨ id.size_of = 8 := by
  cases id <;> first | contradiction | decide

end TypeId

namespace Generation

open GenerateTable

variable {n : Nat}

/-- The numbers of the rows of a rank among the rows of all ranks. -/
def exact_ids (nrows rank : Nat) : List Int :=
  (List.range nrows).map fun row => ((nrows * rank + row : Nat) : Int)

/-- Together the ranks have all numbers. -/
theorem flatMap_exact_ids (n nrows : Nat) :
    (List.range n).flatMap (exact_ids nrows) =
      (List.range (n * nrows)).map fun id : Nat => (id : Int) := by
  induction n with
  | zero => simp
  | succ n inductionHypothesis =>
      rw [List.range_succ, List.flatMap_append, List.flatMap_singleton, inductionHypothesis,
        Nat.succ_mul, List.range_add, List.map_append, List.map_map, exact_ids,
        Nat.mul_comm nrows n]
      rfl

/-- The product of the rows and the rank is exact, or it is exact in the type of the
payload. -/
theorem stored_ids_eq
    {id : TypeId}
    {nrows rank : Nat}
    (represents : id.Represents (n * nrows : Nat))
    (narrow : id.size_of ≤ 4 ∨ (n - 1) * nrows < 2 ^ 31)
    (rankBound : rank < n) :
    stored id (row_ids nrows) rank = exact_ids nrows rank := by
  rw [stored, row_ids, generate_payload_functor, List.map_map, List.map_map, exact_ids]
  apply List.map_congr_left
  intro row range
  have rowBound := List.mem_range.mp range
  have last : nrows * rank + nrows ≤ n * nrows := by
    rw [← Nat.mul_succ, Nat.mul_comm n]
    exact Nat.mul_le_mul_left _ rankBound
  refine TypeId.read_encode_of_dvd
    (represents.of_le (Int.natCast_nonneg _) (by exact_mod_cast (by omega))) ?_
  have difference : (row : Int) + toInt (nrows * rank) - ((nrows * rank + row : Nat) : Int) =
      toInt (nrows * rank) - nrows * rank := by
    push_cast
    ring
  rw [difference]
  rcases narrow with narrow | exact
  · have range : (256 ^ id.size_of : Int) ∣ 256 ^ 4 := pow_dvd_pow _ narrow
    have int_range : (256 ^ 4 : Int) = (2 ^ 32 : Nat) := by norm_num
    rw [int_range] at range
    exact range.trans (@Int.dvd_bmod_sub_self (nrows * rank) (2 ^ 32))
  · have product : nrows * rank ≤ (n - 1) * nrows := by
      rw [Nat.mul_comm]
      exact Nat.mul_le_mul_right _ (by omega)
    have fits : toInt (nrows * rank) = nrows * rank := by
      have small : nrows * rank < 2 ^ 31 := by omega
      have nonnegative : (0 : Int) ≤ nrows * rank :=
        mul_nonneg (Int.natCast_nonneg _) (Int.natCast_nonneg _)
      exact toInt_eq nonnegative (by exact_mod_cast small)
    rw [fits, Int.sub_self]
    exact dvd_zero _

/-- The greatest number is not stored if the product overflows. -/
theorem greatest_not_stored
    {id : TypeId}
    {nrows rank : Nat}
    (ranks_lt : n < 2 ^ 31)
    (rows_lt : nrows < 2 ^ 31)
    (wide : id.size_of = 8)
    (overflows : 2 ^ 31 ≤ (n - 1) * nrows) :
    ((n * nrows - 1 : Nat) : Int) ∉ stored id (row_ids nrows) rank := by
  intro member
  rw [stored, row_ids, generate_payload_functor, List.map_map, List.map_map] at member
  obtain ⟨row, range, same⟩ := List.mem_map.mp member
  have rowBound := List.mem_range.mp range
  obtain ⟨factor, difference⟩ := id.dvd_read_encode_sub (row + toInt (nrows * rank))
  change id.read (encode id.size_of (row + toInt (nrows * rank))) = _ at same
  rw [same, wide] at difference
  obtain ⟨lower, upper⟩ := toInt_bounds (nrows * rank)
  have total : n * nrows = (n - 1) * nrows + nrows := by
    cases n with
    | zero => omega
    | succ before => exact Nat.succ_mul before nrows
  have small : n * nrows ≤ 2 ^ 31 * 2 ^ 31 := Nat.mul_le_mul ranks_lt.le rows_lt.le
  rw [total] at difference small
  generalize (n - 1) * nrows = before at *
  generalize toInt (nrows * rank) = first at *
  omega

/-- The stored numbers are those of all rows exactly if the type of the payload is not wider
than the product, or the product does not overflow. -/
theorem stored_ids_perm_iff
    {id : TypeId}
    {nrows : Nat}
    (integer : id.is_integral = true)
    (ranks_lt : n < 2 ^ 31)
    (rows_lt : nrows < 2 ^ 31)
    (represents : id.Represents (n * nrows : Nat)) :
    ((List.range n).flatMap (stored id (row_ids nrows))).Perm
        ((List.range (n * nrows)).map fun id : Nat => (id : Int)) ↔
      id.size_of ≤ 4 ∨ (n - 1) * nrows < 2 ^ 31 := by
  constructor
  · intro all
    by_contra neither
    push Not at neither
    obtain ⟨wide, overflows⟩ := neither
    have rows : 0 < n * nrows := by
      rcases Nat.eq_zero_or_pos (n * nrows) with none | some
      · have less := Nat.mul_le_mul_right nrows (Nat.sub_le n 1)
        omega
      · exact some
    have greatest : ((n * nrows - 1 : Nat) : Int) ∈
        (List.range (n * nrows)).map fun id : Nat => (id : Int) :=
      List.mem_map.mpr ⟨_, List.mem_range.mpr (by omega), rfl⟩
    obtain ⟨rank, _, member⟩ := List.mem_flatMap.mp (all.mem_iff.mpr greatest)
    exact greatest_not_stored ranks_lt rows_lt
      ((TypeId.size_of_integer integer).resolve_left (by omega)) overflows member
  · intro narrow
    rw [← flatMap_exact_ids, List.flatMap_congr fun rank range =>
      stored_ids_eq represents narrow (List.mem_range.mp range)]

/-- The payloads of the tables of all ranks are the numbers of all rows, and every rank has
as many rows as it has generated. -/
structure ExactIds (generation : Generation n) (result : Nat → Table × Table) : Prop where
  build_rows : ∀ rank, rank < n →
    (result rank).1.num_rows = generation.arguments.build_table_nrows_per_rank
  probe_rows : ∀ rank, rank < n →
    (result rank).2.num_rows = generation.arguments.probe_table_nrows_per_rank
  build_ids : ((List.range n).flatMap fun rank => ((result rank).1.column 1).integers).Perm
    ((List.range (n * generation.arguments.build_table_nrows_per_rank)).map
      fun id : Nat => (id : Int))
  probe_ids : ((List.range n).flatMap fun rank => ((result rank).2.column 1).integers).Perm
    ((List.range (n * generation.arguments.probe_table_nrows_per_rank)).map
      fun id : Nat => (id : Int))

variable {generation : Generation n}

theorem length_row_ids (nrows rank : Nat) : (row_ids nrows rank).length = nrows := by
  simp [row_ids, generate_payload_functor]

/-- The received payloads of tables are those that have been stored. -/
theorem ids_union
    {nrows : Nat}
    (divides : n ∣ nrows)
    {tables : Nat → Table}
    (payload : ∀ rank, rank < n → (tables rank).column 1 =
      integer_column generation.arguments.PAYLOAD_T nrows (gathered n nrows (row_ids nrows) rank)) :
    ((List.range n).flatMap fun rank => ((tables rank).column 1).integers).Perm
      ((List.range n).flatMap (stored generation.arguments.PAYLOAD_T (row_ids nrows))) := by
  rw [List.flatMap_congr fun rank range =>
    congrArg Column.integers (payload rank (List.mem_range.mp range))]
  exact integers_union divides fun rank _ => length_row_ids nrows rank

/-- The received payloads of the build tables are those that have been stored. -/
theorem Valid.build_ids_union
    (valid : generation.Valid)
    (gpu : Gpu) :
    ((List.range n).flatMap fun rank => ((generation.build_table gpu rank).column 1).integers).Perm
      ((List.range n).flatMap (stored generation.arguments.PAYLOAD_T
        (row_ids generation.arguments.build_table_nrows_per_rank))) :=
  ids_union valid.build_dvd fun _ rankBound =>
    congrArg (Table.column · 1) (valid.build_table_eq gpu rankBound)

/-- The received payloads of the probe tables are those that have been stored. -/
theorem Valid.probe_ids_union
    (valid : generation.Valid)
    (gpu : Gpu) :
    ((List.range n).flatMap fun rank => ((generation.probe_table gpu rank).column 1).integers).Perm
      ((List.range n).flatMap (stored generation.arguments.PAYLOAD_T
        (row_ids generation.arguments.probe_table_nrows_per_rank))) :=
  ids_union valid.probe_dvd fun _ rankBound =>
    congrArg (Table.column · 1) (valid.probe_table_eq gpu rankBound)

/-- The row ids of generated tables are exact if and only if the type of the payload is not
wider than `int`, or the numbers of the first rows of all ranks are numbers of type `int`. -/
theorem exact_ids_iff
    (eager : Eagerness ranks)
    (gpu : Gpu)
    (generation : Generation n)
    (valid : generation.Valid)
    (integer : generation.arguments.PAYLOAD_T.is_integral = true)
    (build : generation.arguments.PAYLOAD_T.Represents
      (n * generation.arguments.build_table_nrows_per_rank : Nat))
    (probe : generation.arguments.PAYLOAD_T.Represents
      (n * generation.arguments.probe_table_nrows_per_rank : Nat)) :
    ∃ result, Returns n eager (generation.program gpu) result ∧
      (generation.ExactIds result ↔
        generation.arguments.PAYLOAD_T.size_of ≤ 4 ∨
          (n - 1) * generation.arguments.build_table_nrows_per_rank < 2 ^ 31 ∧
            (n - 1) * generation.arguments.probe_table_nrows_per_rank < 2 ^ 31) := by
  have build_ids := stored_ids_perm_iff integer valid.ranks_lt valid.build_lt build
  have probe_ids := stored_ids_perm_iff integer valid.ranks_lt valid.probe_lt probe
  refine ⟨_, valid.returns eager gpu, ?_⟩
  rw [or_and_left, ← build_ids, ← probe_ids]
  constructor
  · intro exact_ids
    exact ⟨(valid.build_ids_union gpu).symm.trans exact_ids.build_ids,
      (valid.probe_ids_union gpu).symm.trans exact_ids.probe_ids⟩
  · rintro ⟨stored_build, stored_probe⟩
    constructor
    case build_rows =>
      intro rank rankBound
      exact congrArg Table.num_rows (valid.build_table_eq gpu rankBound)
    case probe_rows =>
      intro rank rankBound
      exact congrArg Table.num_rows (valid.probe_table_eq gpu rankBound)
    case build_ids => exact (valid.build_ids_union gpu).trans stored_build
    case probe_ids => exact (valid.probe_ids_union gpu).trans stored_probe

/-- Ranks that draw the first keys for tables of equal sizes. -/
def firstKeys (n_pos : 0 < n) (nrows : Nat) : Generation n where
  n_pos := n_pos
  arguments := {
    KEY_T := .INT64
    PAYLOAD_T := .INT64
    build_table_nrows_per_rank := nrows
    probe_table_nrows_per_rank := nrows
    rand_max_per_rank := nrows + 1 }
  keys := fun _ => ⟨generate_payload_functor nrows, generate_payload_functor nrows⟩
  group_by_batch := false

theorem valid_firstKeys
    {n_pos : 0 < n}
    {nrows : Nat}
    (ranks_lt : n < 2 ^ 31)
    (rows_lt : nrows < 2 ^ 31)
    (divides : n ∣ nrows) :
    (firstKeys n_pos nrows).Valid where
  build_keys := fun _ _ => by simp [firstKeys, generate_payload_functor]
  probe_keys := fun _ _ => by simp [firstKeys, generate_payload_functor]
  ranks_lt := ranks_lt
  build_dvd := divides
  probe_dvd := divides
  build_lt := rows_lt
  probe_lt := rows_lt

/-- Two ranks that generate four rows have exact row ids. -/
theorem exact_ids_two_ranks :
    ∃ result, Returns 2 (fun _ _ _ _ => false)
      ((firstKeys Nat.two_pos 4).program storingGpu) result ∧
        (firstKeys Nat.two_pos 4).ExactIds result := by
  obtain ⟨result, returns, iff⟩ := exact_ids_iff (fun _ _ _ _ => false) storingGpu
    (firstKeys Nat.two_pos 4) (valid_firstKeys (by decide) (by decide) (by decide)) rfl
    (by decide) (by decide)
  exact ⟨result, returns, iff.mpr (.inr ⟨by decide, by decide⟩)⟩

/-- With a hundred million rows on each of 32 ranks the first row of the last rank has a
number that is no `int`. -/
theorem row_ids_overflow :
    ∃ result, Returns 32 (fun _ _ _ _ => false)
      ((firstKeys (by decide : 0 < 32) 100000000).program storingGpu) result ∧
        (firstKeys (by decide : 0 < 32) 100000000).Valid ∧
        ¬ (firstKeys (by decide : 0 < 32) 100000000).ExactIds result := by
  have valid : (firstKeys (by decide : 0 < 32) 100000000).Valid :=
    valid_firstKeys (by decide) (by decide) (by decide)
  refine ⟨_, valid.returns _ storingGpu, valid, fun exact_ids => ?_⟩
  have stored := (valid.build_ids_union storingGpu).symm.trans exact_ids.build_ids
  have exact := (stored_ids_perm_iff rfl valid.ranks_lt valid.build_lt (by decide)).mp stored
  rcases exact with narrow | small
  · exact absurd narrow (by decide)
  · exact absurd small (by decide)

end Generation

end DistributedJoin
