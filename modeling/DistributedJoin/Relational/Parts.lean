import Mathlib.Algebra.BigOperators.Group.Finset.Piecewise
import Mathlib.Algebra.BigOperators.Group.Finset.Sigma
import Mathlib.Algebra.GroupWithZero.Nat
import Mathlib.Algebra.Order.BigOperators.Group.Finset
import Mathlib.Algebra.Order.Group.Multiset
import Mathlib.Data.List.Range

/-!
# Lists in parts

A list that is cut at increasing positions, or sorted into buckets, has the same
elements as its parts together.
-/

namespace Relational

variable {α : Type}

/-- The elements of a list between two positions. -/
def slice (values : List α) (first last : Nat) : List α :=
  (values.drop first).take (last - first)

theorem slice_append
    (values : List α)
    {first middle last : Nat}
    (lower : first ≤ middle)
    (upper : middle ≤ last) :
    slice values first middle ++ slice values middle last = slice values first last := by
  unfold slice
  have size : last - first = (middle - first) + (last - middle) := by omega
  have place : middle = first + (middle - first) := by omega
  rw [size, List.take_add, List.drop_drop, ← place]

/-- Cutting a part of a list at increasing positions. -/
theorem flatMap_slice
    (values : List α)
    {position : Nat → Nat}
    {count : Nat}
    (ordered : ∀ index, index < count → position index ≤ position (index + 1)) :
    ((List.range count).flatMap fun index =>
        slice values (position index) (position (index + 1))) =
      slice values (position 0) (position count) := by
  induction count with
  | zero => simp [slice]
  | succ count inductionHypothesis =>
      have below : ∀ bound, bound ≤ count → position 0 ≤ position bound := by
        intro bound
        induction bound with
        | zero => intro _; exact Nat.le_refl _
        | succ bound earlier =>
            intro boundLe
            exact (earlier (Nat.le_of_succ_le boundLe)).trans (ordered bound (by omega))
      rw [List.range_succ, List.flatMap_append, List.flatMap_singleton,
        inductionHypothesis fun index indexBound => ordered index (by omega),
        slice_append values (below count (Nat.le_refl _)) (ordered count (by omega))]

@[simp] theorem slice_all (values : List α) : slice values 0 values.length = values := by
  simp [slice]

/-- A list that is concatenated from parts is the sum of the parts. -/
theorem coe_flatMap_range
    (part : Nat → List α)
    (count : Nat) :
    (((List.range count).flatMap part : List α) : Multiset α) =
      ∑ index ∈ Finset.range count, ((part index : List α) : Multiset α) := by
  induction count with
  | zero => rfl
  | succ count inductionHypothesis =>
      rw [List.range_succ, List.flatMap_append, List.flatMap_singleton,
        ← Multiset.coe_add, inductionHypothesis, Finset.sum_range_succ]

/-- Parts with two indices, in the order of the one or of the other. -/
theorem flatMap_range_comm
    (part : Nat → Nat → List α)
    (rows columns : Nat) :
    ((List.range rows).flatMap fun row =>
        (List.range columns).flatMap fun column => part row column).Perm
      ((List.range columns).flatMap fun column =>
        (List.range rows).flatMap fun row => part row column) := by
  rw [← Multiset.coe_eq_coe]
  simp only [coe_flatMap_range]
  exact Finset.sum_comm

/-- A sum over a range that is divided into blocks of equal size. -/
theorem sum_range_blocks
    {M : Type}
    [AddCommMonoid M]
    (summand : Nat → M)
    (blocks size : Nat) :
    ∑ index ∈ Finset.range (blocks * size), summand index =
      ∑ block ∈ Finset.range blocks, ∑ position ∈ Finset.range size,
        summand (block * size + position) := by
  induction blocks with
  | zero => simp
  | succ blocks inductionHypothesis =>
      rw [Nat.succ_mul, Finset.sum_range_add, inductionHypothesis, Finset.sum_range_succ]

/-- If parts have at most the weights of other parts and all parts together are the
same, each part has the weight of the other. -/
theorem sum_weight_eq_of_perm
    (weight : α → Nat)
    {count : Nat}
    {first second : Nat → List α}
    (rearranged : ((List.range count).flatMap first).Perm ((List.range count).flatMap second))
    (bounded : ∀ index, index < count →
      ((first index).map weight).sum ≤ ((second index).map weight).sum)
    {index : Nat}
    (indexBound : index < count) :
    ((first index).map weight).sum = ((second index).map weight).sum := by
  have total : ∀ parts : Nat → List α, (((List.range count).flatMap parts).map weight).sum =
      ∑ index ∈ Finset.range count, ((parts index).map weight).sum := by
    intro parts
    clear bounded rearranged indexBound
    induction count with
    | zero => rfl
    | succ count inductionHypothesis =>
        rw [List.range_succ, List.flatMap_append, List.flatMap_singleton, List.map_append,
          List.sum_append, inductionHypothesis, Finset.sum_range_succ]
  have sums := (rearranged.map weight).sum_eq
  rw [total, total] at sums
  exact (Finset.sum_eq_sum_iff_of_le fun index range =>
    bounded index (Finset.mem_range.mp range)).mp sums index (Finset.mem_range.mpr indexBound)

/-- If parts are not longer than other parts and all parts together are the same, each
part is as long as the other. -/
theorem length_eq_of_perm
    {count : Nat}
    {first second : Nat → List α}
    (rearranged : ((List.range count).flatMap first).Perm ((List.range count).flatMap second))
    (bounded : ∀ index, index < count → (first index).length ≤ (second index).length)
    {index : Nat}
    (indexBound : index < count) :
    (first index).length = (second index).length := by
  have count_ones : ∀ values : List α, (values.map fun _ => 1).sum = values.length := by
    intro values
    simp
  have same := sum_weight_eq_of_perm (fun _ => 1) rearranged
  simp only [count_ones] at same
  exact same bounded indexBound

/-- A part of a list that is concatenated from parts. -/
theorem slice_flatMap_range
    (part : Nat → List α)
    {index count : Nat}
    (indexBound : index < count) :
    slice ((List.range count).flatMap part) ((List.range index).flatMap part).length
        ((List.range (index + 1)).flatMap part).length =
      part index := by
  have split : List.range count = List.range index ++
      ([index] ++ List.range' (index + 1) (count - (index + 1))) := by
    have size : count = index + (1 + (count - (index + 1))) := by omega
    conv_lhs => rw [size]
    rw [List.range_eq_range', List.range_eq_range', List.range'_append_1.symm,
      List.range'_append_1.symm]
    simp
  have length : ((List.range (index + 1)).flatMap part).length -
      ((List.range index).flatMap part).length = (part index).length := by
    rw [List.range_succ, List.flatMap_append, List.flatMap_singleton, List.length_append]
    omega
  rw [slice, length, split, List.flatMap_append, List.flatMap_append, List.flatMap_singleton,
    List.drop_left, List.take_left]

/-- The parts before a part are a prefix of the parts before a later one. -/
theorem length_flatMap_range_le
    (part : Nat → List α)
    {first second : Nat}
    (ordered : first ≤ second) :
    ((List.range first).flatMap part).length ≤ ((List.range second).flatMap part).length := by
  obtain ⟨more, rfl⟩ := Nat.exists_eq_add_of_le ordered
  rw [List.range_add, List.flatMap_append, List.length_append]
  exact Nat.le_add_right _ _

/-- The elements of one bucket are the part for the bucket. -/
theorem filter_flatMap_parts
    {part : Nat → List α}
    {bucket : α → Nat}
    {count : Nat}
    (sorted : ∀ index, index < count → ∀ value ∈ part index, bucket value = index)
    {index : Nat}
    (indexBound : index < count) :
    ((List.range count).flatMap part).filter (fun value => bucket value = index) =
      part index := by
  have pieces : ∀ other ∈ List.range count,
      (part other).filter (fun value => bucket value = index) =
        if other = index then part index else [] := by
    intro other range
    have found := sorted other (List.mem_range.mp range)
    split
    · rename_i same
      subst same
      exact List.filter_eq_self.mpr fun value member => decide_eq_true (found value member)
    · rename_i different
      refine List.filter_eq_nil_iff.mpr fun value member => ?_
      rw [found value member, decide_eq_true_iff]
      exact different
  rw [List.filter_flatMap, List.flatMap_congr pieces]
  clear pieces sorted
  induction count with
  | zero => contradiction
  | succ count inductionHypothesis =>
      rw [List.range_succ, List.flatMap_append, List.flatMap_singleton]
      rcases Nat.lt_succ_iff_lt_or_eq.mp indexBound with earlier | rfl
      · rw [inductionHypothesis earlier, if_neg (by omega), List.append_nil]
      · have others : ((List.range index).flatMap fun other =>
            if other = index then part index else []) = [] :=
          List.flatMap_eq_nil_iff.mpr fun other range =>
            if_neg (Nat.ne_of_lt (List.mem_range.mp range))
        rw [if_pos rfl, others, List.nil_append]

/-- Sorting into buckets rearranges a list. -/
theorem flatMap_filter_perm
    {bucket : α → Nat}
    {count : Nat}
    {values : List α}
    (bounded : ∀ value ∈ values, bucket value < count) :
    ((List.range count).flatMap fun index =>
      values.filter fun value => bucket value = index).Perm values := by
  classical
  rw [← Multiset.coe_eq_coe, coe_flatMap_range]
  ext value
  rw [Multiset.count_sum']
  by_cases member : value ∈ values
  · rw [Finset.sum_eq_single_of_mem (bucket value) (Finset.mem_range.mpr (bounded value member))]
    · simp [List.count_filter]
    · intro index _ different
      rw [Multiset.coe_count]
      exact List.count_eq_zero.mpr fun found => by
        have same := (List.mem_filter.mp found).2
        exact different (of_decide_eq_true same).symm
  · rw [Multiset.coe_count, List.count_eq_zero.mpr member]
    refine Finset.sum_eq_zero fun index _ => ?_
    rw [Multiset.coe_count]
    exact List.count_eq_zero.mpr fun found => member (List.mem_filter.mp found).1

end Relational
