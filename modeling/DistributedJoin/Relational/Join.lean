import Mathlib.Algebra.BigOperators.Group.Finset.Piecewise
import Mathlib.Algebra.BigOperators.Group.Finset.Sigma
import Mathlib.Algebra.Order.BigOperators.Group.Finset
import Mathlib.Data.Multiset.Bind

/-!
# Joins of multisets

The join of two multisets of rows combines all pairs of rows that match. It
distributes over the parts of both sides, so a join can be carried out part by
part if rows of different parts never match.
-/

namespace Relational

variable {α β γ ι : Type}

/-- All pairs of rows that match, combined. -/
def join
    (matching : α → β → Bool)
    (combine : α → β → γ)
    (left : Multiset α)
    (right : Multiset β) : Multiset γ :=
  left.bind fun row => (right.filter fun other => matching row other = true).map
    (combine row)

variable {matching : α → β → Bool} {combine : α → β → γ}

@[simp] theorem join_zero_left (right : Multiset β) :
    join matching combine 0 right = 0 :=
  Multiset.zero_bind _

theorem join_add_left
    (first second : Multiset α)
    (right : Multiset β) :
    join matching combine (first + second) right =
      join matching combine first right + join matching combine second right :=
  Multiset.add_bind _ _ _

@[simp] theorem join_zero_right (left : Multiset α) :
    join matching combine left 0 = 0 := by
  simp [join]

theorem join_add_right
    (left : Multiset α)
    (first second : Multiset β) :
    join matching combine left (first + second) =
      join matching combine left first + join matching combine left second := by
  unfold join
  rw [← Multiset.bind_add]
  apply Multiset.bind_congr
  intro row _
  rw [Multiset.filter_add, Multiset.map_add]

/-- The left side can be joined part by part. -/
theorem join_sum_left
    (parts : Finset ι)
    (left : ι → Multiset α)
    (right : Multiset β) :
    join matching combine (∑ part ∈ parts, left part) right =
      ∑ part ∈ parts, join matching combine (left part) right := by
  classical
  induction parts using Finset.induction_on with
  | empty => simp
  | insert part rest absent inductionHypothesis =>
      rw [Finset.sum_insert absent, Finset.sum_insert absent, join_add_left,
        inductionHypothesis]

/-- The right side can be joined part by part. -/
theorem join_sum_right
    (parts : Finset ι)
    (left : Multiset α)
    (right : ι → Multiset β) :
    join matching combine left (∑ part ∈ parts, right part) =
      ∑ part ∈ parts, join matching combine left (right part) := by
  classical
  induction parts using Finset.induction_on with
  | empty => simp
  | insert part rest absent inductionHypothesis =>
      rw [Finset.sum_insert absent, Finset.sum_insert absent, join_add_right,
        inductionHypothesis]

/-- Rows that do not match have no join. -/
theorem join_eq_zero
    {left : Multiset α}
    {right : Multiset β}
    (apart : ∀ row ∈ left, ∀ other ∈ right, matching row other = false) :
    join matching combine left right = 0 := by
  apply Multiset.eq_zero_of_forall_notMem
  intro combined member
  obtain ⟨row, rowMember, pairMember⟩ := Multiset.mem_bind.mp member
  obtain ⟨other, filtered, _⟩ := Multiset.mem_map.mp pairMember
  obtain ⟨otherMember, found⟩ := Multiset.mem_filter.mp filtered
  rw [apart row rowMember other otherMember] at found
  contradiction

/-- When rows of different parts never match, the join of all rows is made of the
joins of the parts. -/
theorem join_parts
    (parts : Finset ι)
    (left : ι → Multiset α)
    (right : ι → Multiset β)
    (apart : ∀ part ∈ parts, ∀ other ∈ parts, part ≠ other →
      ∀ row ∈ left part, ∀ candidate ∈ right other, matching row candidate = false) :
    join matching combine (∑ part ∈ parts, left part) (∑ part ∈ parts, right part) =
      ∑ part ∈ parts, join matching combine (left part) (right part) := by
  classical
  rw [join_sum_left]
  apply Finset.sum_congr rfl
  intro part partMember
  rw [join_sum_right]
  refine Finset.sum_eq_single_of_mem part partMember fun other otherMember different => ?_
  exact join_eq_zero (apart part partMember other otherMember different.symm)

/-- Rows that are kept can be told part by part. -/
theorem filter_sum
    (parts : Finset ι)
    (values : ι → Multiset α)
    (kept : α → Prop)
    [DecidablePred kept] :
    (∑ part ∈ parts, values part).filter kept = ∑ part ∈ parts, (values part).filter kept := by
  classical
  induction parts using Finset.induction_on with
  | empty => simp
  | insert part rest absent inductionHypothesis =>
      rw [Finset.sum_insert absent, Finset.sum_insert absent, Multiset.filter_add,
        inductionHypothesis]

/-- When all rows have a place among the parts, the parts together are all rows. -/
theorem sum_filter_place
    [DecidableEq ι]
    {parts : Finset ι}
    {values : Multiset α}
    {place : α → ι}
    (inside : ∀ value ∈ values, place value ∈ parts) :
    ∑ part ∈ parts, values.filter (place · = part) = values := by
  induction values using Multiset.induction_on with
  | empty => simp
  | cons value rest inductionHypothesis =>
      have here : ∑ part ∈ parts, (if place value = part then {value} else 0) =
          ({value} : Multiset α) := by
        rw [Finset.sum_ite_eq, if_pos (inside value (Multiset.mem_cons_self value rest))]
      simp only [Multiset.filter_cons]
      rw [Finset.sum_add_distrib, here,
        inductionHypothesis fun other member => inside other (Multiset.mem_cons_of_mem member),
        Multiset.singleton_add]

/-- Two sides whose rows have places, the same place if they match, can be joined place by
place. -/
theorem sum_join_places
    [DecidableEq ι]
    {parts : Finset ι}
    {left : Multiset α}
    {right : Multiset β}
    {left_place : α → ι}
    {right_place : β → ι}
    (left_inside : ∀ row ∈ left, left_place row ∈ parts)
    (right_inside : ∀ row ∈ right, right_place row ∈ parts)
    (together : ∀ row ∈ left, ∀ other ∈ right, matching row other = true →
      left_place row = right_place other) :
    ∑ part ∈ parts, join matching combine (left.filter (left_place · = part))
        (right.filter (right_place · = part)) =
      join matching combine left right := by
  have apart : ∀ part ∈ parts, ∀ other ∈ parts, part ≠ other →
      ∀ row ∈ left.filter (left_place · = part), ∀ candidate ∈ right.filter (right_place · = other),
        matching row candidate = false := by
    intro part _ other _ different row rowMember candidate candidateMember
    obtain ⟨rowInside, rfl⟩ := Multiset.mem_filter.mp rowMember
    obtain ⟨candidateInside, rfl⟩ := Multiset.mem_filter.mp candidateMember
    exact Bool.eq_false_iff.mpr fun found =>
      different (together row rowInside candidate candidateInside found)
  rw [← join_parts parts _ _ apart, sum_filter_place left_inside, sum_filter_place right_inside]

end Relational
