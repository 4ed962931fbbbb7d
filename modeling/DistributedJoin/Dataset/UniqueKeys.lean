import DistributedJoin.Dataset.RowIds

/-!
# Unique keys

The keys of a rank are drawn from zero up to the greatest random number, both included, and
moved by multiples of that number. So the ranges of neighbouring ranks have a key in common.
-/

namespace DistributedJoin

open Device Spmd

namespace Generation

open GenerateTable

variable {n : Nat} (generation : Generation n)

/-- The keys of a rank, moved into its range. -/
def moved_keys (keys : Nat → List Int) (rank : Nat) : List Int :=
  (keys rank).map (· + generation.arguments.rand_max_per_rank * rank)

/-- The build keys that a rank has drawn. -/
def build_keys (rank : Nat) : List Int := (generation.keys rank).build

/-- The probe keys that a rank has drawn. -/
def probe_keys (rank : Nat) : List Int := (generation.keys rank).probe

/-- Every rank has drawn different build keys from its lottery, and the type of the keys has
the keys of all ranks. -/
structure DrawnUniquely : Prop where
  rand_max_gt : (generation.arguments.build_table_nrows_per_rank : Int) <
    generation.arguments.rand_max_per_rank
  distinct : ∀ rank, rank < n → (generation.build_keys rank).Nodup
  build_range : ∀ rank, rank < n → ∀ key ∈ generation.build_keys rank,
    0 ≤ key ∧ key ≤ generation.arguments.rand_max_per_rank
  probe_range : ∀ rank, rank < n → ∀ key ∈ generation.probe_keys rank,
    0 ≤ key ∧ key ≤ generation.arguments.rand_max_per_rank
  build_represented : ∀ rank, rank < n → ∀ key ∈ generation.build_keys rank,
    generation.arguments.KEY_T.Represents (key + generation.arguments.rand_max_per_rank * rank)
  probe_represented : ∀ rank, rank < n → ∀ key ∈ generation.probe_keys rank,
    generation.arguments.KEY_T.Represents (key + generation.arguments.rand_max_per_rank * rank)

/-- No key is twice in the build tables of all ranks, and a probe key that is not in the
build table of the rank that has drawn it is in no build table. -/
structure UniqueKeys (result : Nat → Table × Table) : Prop where
  distinct : ((List.range n).flatMap fun rank => ((result rank).1.column 0).integers).Nodup
  probes : ((List.range n).flatMap fun rank => ((result rank).2.column 0).integers).Perm
    ((List.range n).flatMap (generation.moved_keys generation.probe_keys))
  absent : ∀ rank, rank < n → ∀ key ∈ generation.probe_keys rank,
    key ∉ generation.build_keys rank → ∀ other, other < n →
      key + generation.arguments.rand_max_per_rank * rank ∉
        ((result other).1.column 0).integers

/-- Neighbouring ranks have not both drawn the key that their ranges have in common, if it
is a build key of one of them. -/
def Apart : Prop :=
  ∀ rank, rank + 1 < n →
    (0 ∈ generation.build_keys (rank + 1) →
      generation.arguments.rand_max_per_rank ∉ generation.build_keys rank ∧
        generation.arguments.rand_max_per_rank ∉ generation.probe_keys rank) ∧
    (generation.arguments.rand_max_per_rank ∈ generation.build_keys rank →
      0 ∉ generation.build_keys (rank + 1) ∧ 0 ∉ generation.probe_keys (rank + 1))

variable {generation}

/-- Two ranges have nothing but the greatest key of the one and the least key of the next
in common. -/
theorem same_moved_key_iff
    {rand_max first second : Int}
    (positive : 0 < rand_max)
    (firstMost : first ≤ rand_max)
    (secondLeast : 0 ≤ second)
    {rank other : Nat}
    (before : rank < other) :
    first + rand_max * rank = second + rand_max * other ↔
      other = rank + 1 ∧ first = rand_max ∧ second = 0 := by
  obtain ⟨more, rfl⟩ := Nat.exists_eq_add_of_lt before
  have moved : rand_max * ((rank + more + 1 : Nat) : Int) =
      rand_max * rank + rand_max * more + rand_max := by
    push_cast
    ring
  rw [moved]
  constructor
  · intro same
    have further : 0 ≤ rand_max * more := mul_nonneg positive.le (Int.natCast_nonneg more)
    have none : rand_max * (more : Int) = 0 := by omega
    rcases mul_eq_zero.mp none with zero | zero
    · omega
    · exact ⟨by omega, by omega, by omega⟩
  · rintro ⟨next, rfl, rfl⟩
    obtain rfl : more = 0 := by omega
    simp
    ring

/-- The constant for the keys is exact up to a multiple of the range of their type. -/
theorem stored_keys_eq
    {keys : Nat → List Int}
    {rank : Nat}
    (represented : ∀ key ∈ keys rank, generation.arguments.KEY_T.Represents
      (key + generation.arguments.rand_max_per_rank * rank)) :
    stored generation.arguments.KEY_T (generation.key_values keys) rank =
      generation.moved_keys keys rank := by
  rw [stored, key_values, moved_keys, List.map_map]
  apply List.map_congr_left
  intro key member
  refine TypeId.read_encode_of_dvd (represented key member) ?_
  have difference : key + generation.arguments.key_constant rank -
      (key + generation.arguments.rand_max_per_rank * rank) =
        generation.arguments.key_constant rank -
          generation.arguments.rand_max_per_rank * rank := by omega
  rw [difference]
  have narrower : (256 ^ generation.arguments.KEY_T.size_of : Int) ∣
      (256 ^ max 4 generation.arguments.KEY_T.size_of : Nat) := by
    push_cast
    exact pow_dvd_pow _ (le_max_right _ _)
  exact narrower.trans Int.dvd_bmod_sub_self

/-- The received keys of tables are the moved keys of all ranks. -/
theorem keys_union
    {keys : Nat → List Int}
    {nrows : Nat}
    (divides : n ∣ nrows)
    (sized : ∀ rank, rank < n → (keys rank).length = nrows)
    (represented : ∀ rank, rank < n → ∀ key ∈ keys rank,
      generation.arguments.KEY_T.Represents
        (key + generation.arguments.rand_max_per_rank * rank))
    {tables : Nat → Table}
    (received : ∀ rank, rank < n → (tables rank).column 0 =
      integer_column generation.arguments.KEY_T nrows
        (gathered n nrows (generation.key_values keys) rank)) :
    ((List.range n).flatMap fun rank => ((tables rank).column 0).integers).Perm
      ((List.range n).flatMap (generation.moved_keys keys)) := by
  have union : ((List.range n).flatMap fun rank =>
      (integer_column generation.arguments.KEY_T nrows
        (gathered n nrows (generation.key_values keys) rank)).integers).Perm _ :=
    integers_union divides fun rank rankBound => by
      rw [key_values, List.length_map]
      exact sized rank rankBound
  rw [List.flatMap_congr fun rank range =>
    stored_keys_eq (represented rank (List.mem_range.mp range))] at union
  rw [List.flatMap_congr fun rank range =>
    congrArg Column.integers (received rank (List.mem_range.mp range))]
  exact union

/-- The received build keys are the moved keys of all ranks. -/
theorem Valid.build_keys_union
    (valid : generation.Valid)
    (drawn : generation.DrawnUniquely)
    (gpu : Gpu) :
    ((List.range n).flatMap fun rank => ((generation.build_table gpu rank).column 0).integers).Perm
      ((List.range n).flatMap (generation.moved_keys generation.build_keys)) :=
  keys_union valid.build_dvd valid.build_keys drawn.build_represented fun _ rankBound =>
    congrArg (Table.column · 0) (valid.build_table_eq gpu rankBound)

/-- The received probe keys are the moved keys of all ranks. -/
theorem Valid.probe_keys_union
    (valid : generation.Valid)
    (drawn : generation.DrawnUniquely)
    (gpu : Gpu) :
    ((List.range n).flatMap fun rank => ((generation.probe_table gpu rank).column 0).integers).Perm
      ((List.range n).flatMap (generation.moved_keys generation.probe_keys)) :=
  keys_union valid.probe_dvd valid.probe_keys drawn.probe_represented fun _ rankBound =>
    congrArg (Table.column · 0) (valid.probe_table_eq gpu rankBound)

theorem mem_moved_keys {keys : Nat → List Int} {rank : Nat} {key : Int} :
    key ∈ generation.moved_keys keys rank ↔
      ∃ own ∈ keys rank, own + generation.arguments.rand_max_per_rank * rank = key :=
  List.mem_map

namespace DrawnUniquely

variable (drawn : generation.DrawnUniquely)
include drawn

theorem rand_max_pos : 0 < generation.arguments.rand_max_per_rank :=
  (Int.natCast_nonneg _).trans_lt drawn.rand_max_gt

/-- The greatest key of a rank is moved to where the least key of the next rank is. -/
theorem greatest_eq_least (rank : Nat) :
    generation.arguments.rand_max_per_rank + generation.arguments.rand_max_per_rank * rank =
      0 + generation.arguments.rand_max_per_rank * ((rank + 1 : Nat) : Int) :=
  (same_moved_key_iff drawn.rand_max_pos le_rfl le_rfl (Nat.lt_succ_self rank)).mpr
    ⟨rfl, rfl, rfl⟩

/-- Ranks that are apart have moved their build keys to different ones. -/
theorem nodup_moved_keys (apart : generation.Apart) :
    ((List.range n).flatMap (generation.moved_keys generation.build_keys)).Nodup := by
  refine List.nodup_flatMap.mpr ⟨fun rank range => ?_, ?_⟩
  · exact (drawn.distinct rank (List.mem_range.mp range)).map (add_left_injective _)
  · refine List.pairwise_lt_range.imp_of_mem fun {rank other} range otherRange before => ?_
    intro key member otherMember
    obtain ⟨own, ownMember, rfl⟩ := mem_moved_keys.mp member
    obtain ⟨second, secondMember, same⟩ := mem_moved_keys.mp otherMember
    have ownMost := (drawn.build_range rank (List.mem_range.mp range) own ownMember).2
    have secondLeast :=
      (drawn.build_range other (List.mem_range.mp otherRange) second secondMember).1
    obtain ⟨rfl, rfl, rfl⟩ :=
      (same_moved_key_iff drawn.rand_max_pos ownMost secondLeast before).mp same.symm
    exact ((apart rank (List.mem_range.mp otherRange)).1 secondMember).1 ownMember

/-- Ranks that are apart have moved no probe key to a build key of another rank. -/
theorem probe_not_mem_moved_keys
    (apart : generation.Apart)
    {rank source : Nat}
    (rankBound : rank < n)
    (sourceBound : source < n)
    {key : Int}
    (probe : key ∈ generation.probe_keys rank)
    (absent : key ∉ generation.build_keys rank) :
    key + generation.arguments.rand_max_per_rank * rank ∉
      generation.moved_keys generation.build_keys source := by
  intro member
  obtain ⟨own, ownMember, same⟩ := mem_moved_keys.mp member
  obtain ⟨ownLeast, ownMost⟩ := drawn.build_range source sourceBound own ownMember
  obtain ⟨least, most⟩ := drawn.probe_range rank rankBound key probe
  rcases Nat.lt_trichotomy source rank with before | rfl | behind
  · obtain ⟨rfl, rfl, rfl⟩ :=
      (same_moved_key_iff drawn.rand_max_pos ownMost least before).mp same
    exact ((apart source rankBound).2 ownMember).2 probe
  · obtain rfl : own = key := by omega
    exact absent ownMember
  · obtain ⟨rfl, rfl, rfl⟩ :=
      (same_moved_key_iff drawn.rand_max_pos most ownLeast behind).mp same.symm
    exact ((apart rank sourceBound).1 ownMember).2 probe

end DrawnUniquely

/-- If the keys are unique, the ranks are apart. -/
theorem UniqueKeys.apart
    {result : Nat → Table × Table}
    (unique : generation.UniqueKeys result)
    (drawn : generation.DrawnUniquely)
    (union : ((List.range n).flatMap fun rank => ((result rank).1.column 0).integers).Perm
      ((List.range n).flatMap (generation.moved_keys generation.build_keys))) :
    generation.Apart := by
  have received : ∀ rank, rank < n → ∀ key ∈ generation.build_keys rank, ∃ other, other < n ∧
      key + generation.arguments.rand_max_per_rank * rank ∈
        ((result other).1.column 0).integers := by
    intro rank rankBound key member
    have moved : key + generation.arguments.rand_max_per_rank * rank ∈
        generation.moved_keys generation.build_keys rank :=
      mem_moved_keys.mpr ⟨key, member, rfl⟩
    obtain ⟨other, range, arrived⟩ := List.mem_flatMap.mp (union.mem_iff.mpr
      (List.mem_flatMap.mpr ⟨rank, List.mem_range.mpr rankBound, moved⟩))
    exact ⟨other, List.mem_range.mp range, arrived⟩
  have builds : ∀ rank, rank + 1 < n → 0 ∈ generation.build_keys (rank + 1) →
      generation.arguments.rand_max_per_rank ∉ generation.build_keys rank := by
    intro rank nextBound least greatest
    have disjoint := (List.nodup_flatMap.mp (union.nodup_iff.mp unique.distinct)).2
    have neighbours := List.pairwise_iff_getElem.mp disjoint rank (rank + 1)
      (by rw [List.length_range]; omega) (by rw [List.length_range]; omega) (Nat.lt_succ_self rank)
    rw [List.getElem_range, List.getElem_range] at neighbours
    exact neighbours (mem_moved_keys.mpr ⟨_, greatest, rfl⟩)
      (mem_moved_keys.mpr ⟨0, least, (drawn.greatest_eq_least rank).symm⟩)
  intro rank nextBound
  have rankBound := Nat.lt_of_succ_lt nextBound
  refine ⟨fun least => ⟨builds rank nextBound least, fun probe => ?_⟩,
    fun greatest => ⟨fun least => builds rank nextBound least greatest, fun probe => ?_⟩⟩
  · obtain ⟨other, otherBound, arrived⟩ := received (rank + 1) nextBound 0 least
    rw [← drawn.greatest_eq_least] at arrived
    exact unique.absent rank rankBound _ probe (builds rank nextBound least) other otherBound arrived
  · obtain ⟨other, otherBound, arrived⟩ := received rank rankBound _ greatest
    rw [drawn.greatest_eq_least] at arrived
    exact unique.absent (rank + 1) nextBound 0 probe
      (fun least => builds rank nextBound least greatest) other otherBound arrived

/-- The keys of generated tables are unique exactly if neighbouring ranks have not both drawn
the key that their ranges have in common. -/
theorem unique_keys_iff
    (eager : Eagerness ranks)
    (gpu : Gpu)
    (generation : Generation n)
    (valid : generation.Valid)
    (drawn : generation.DrawnUniquely) :
    ∃ result, Returns n eager (generation.program gpu) result ∧
      (generation.UniqueKeys result ↔ generation.Apart) := by
  refine ⟨_, valid.returns eager gpu, fun unique =>
    unique.apart drawn (valid.build_keys_union drawn gpu), fun apart => ?_⟩
  have union := valid.build_keys_union drawn gpu
  constructor
  case distinct => exact union.nodup_iff.mpr (drawn.nodup_moved_keys apart)
  case probes => exact valid.probe_keys_union drawn gpu
  case absent =>
    intro rank rankBound key probe absent other otherBound arrived
    have sent := union.mem_iff.mp
      (List.mem_flatMap.mpr ⟨other, List.mem_range.mpr otherBound, arrived⟩)
    obtain ⟨source, range, member⟩ := List.mem_flatMap.mp sent
    exact drawn.probe_not_mem_moved_keys apart rankBound (List.mem_range.mp range) probe absent
      member

/-- Two ranks that draw two build keys and two probe keys each. -/
def drawnByTwo (first second : Keys) : Generation 2 where
  n_pos := Nat.two_pos
  arguments := {
    KEY_T := .INT64
    PAYLOAD_T := .INT32
    build_table_nrows_per_rank := 2
    probe_table_nrows_per_rank := 2
    rand_max_per_rank := 3 }
  keys := fun rank => if rank = 0 then first else second
  group_by_batch := true

/-- If the first rank does not draw its greatest key, the keys are unique. -/
theorem unique_keys_two_ranks :
    ∃ result, Returns 2 (fun _ _ _ _ => false)
      ((drawnByTwo ⟨[2, 1], [2, 0]⟩ ⟨[0, 3], [0, 1]⟩).program storingGpu) result ∧
        (drawnByTwo ⟨[2, 1], [2, 0]⟩ ⟨[0, 3], [0, 1]⟩).UniqueKeys result := by
  obtain ⟨result, returns, iff⟩ := unique_keys_iff (fun _ _ _ _ => false) storingGpu
    (drawnByTwo ⟨[2, 1], [2, 0]⟩ ⟨[0, 3], [0, 1]⟩)
    ⟨by decide, by decide, by decide, by decide, by decide, by decide, by decide⟩
    ⟨by decide, by decide, by decide, by decide, by decide, by decide⟩
  refine ⟨result, returns, iff.mpr fun rank nextBound => ?_⟩
  obtain rfl : rank = 0 := by omega
  exact ⟨fun _ => ⟨by decide, by decide⟩, fun greatest => absurd greatest (by decide)⟩

/-- If it draws it and the second rank draws its least key, there is one key twice. -/
theorem keys_in_common :
    ∃ result, Returns 2 (fun _ _ _ _ => false)
      ((drawnByTwo ⟨[3, 1], [3, 0]⟩ ⟨[0, 2], [0, 1]⟩).program storingGpu) result ∧
        (drawnByTwo ⟨[3, 1], [3, 0]⟩ ⟨[0, 2], [0, 1]⟩).Valid ∧
        (drawnByTwo ⟨[3, 1], [3, 0]⟩ ⟨[0, 2], [0, 1]⟩).DrawnUniquely ∧
        ¬ (drawnByTwo ⟨[3, 1], [3, 0]⟩ ⟨[0, 2], [0, 1]⟩).UniqueKeys result := by
  have valid : (drawnByTwo ⟨[3, 1], [3, 0]⟩ ⟨[0, 2], [0, 1]⟩).Valid :=
    ⟨by decide, by decide, by decide, by decide, by decide, by decide, by decide⟩
  have drawn : (drawnByTwo ⟨[3, 1], [3, 0]⟩ ⟨[0, 2], [0, 1]⟩).DrawnUniquely :=
    ⟨by decide, by decide, by decide, by decide, by decide, by decide⟩
  refine ⟨_, valid.returns _ storingGpu, valid, drawn, fun unique => ?_⟩
  have apart := unique.apart drawn (valid.build_keys_union drawn storingGpu) 0 (by decide)
  exact (apart.1 (by decide)).1 (by decide)

end Generation

end DistributedJoin
