import DistributedJoin.Dataset.Lottery
import Mathlib.Data.Rat.Floor
import Mathlib.Data.Int.ConditionallyCompleteOrder
import Mathlib.Data.Int.Interval
import Mathlib.Data.List.Sort
import Mathlib.Tactic.Linarith

/-!
# Input tables

A product of a draw and a size is an index. A draw is greater than zero and at most one,
so the index of the greatest draw is the size itself. The probe table is drawn from the
build table and from the keys that the build table leaves in the lottery. The threads of
both kernels go through the rows in steps of their number.
-/

namespace DistributedJoin

namespace InputTables

open Spmd Lottery

/-- The arguments of `generate_input_tables`, the widths of its two types, the threads of the
device, and the numbers that the rows of the tables draw. A row of the probe table draws
twice. -/
structure Inputs where
  key_width : Nat
  size_width : Nat
  num_threads : Nat
  build_tbl_size : Nat
  probe_tbl_size : Nat
  selectivity : ℚ
  rand_max : Int
  uniq_build_tbl_keys : Bool
  build_draw : Nat → ℚ
  probe_draw : Nat → ℚ
  probe_pick : Nat → ℚ
  some_threads : 0 < num_threads
  threads_fit : num_threads < 2 ^ (size_width - 1)
  build_tbl_fits : build_tbl_size < 2 ^ (size_width - 1)

/-- Conversion of a number to an integer, which drops its fraction. -/
def truncate (number : ℚ) : Int :=
  number.num.tdiv number.den

/-- The elements of a sorted range that are not in another one: the heads are compared. -/
def set_difference : List Int → List Int → List Int
  | [], _ => []
  | first, [] => first
  | element :: first, other :: second =>
      if element < other then element :: set_difference first (other :: second)
      else if other < element then set_difference (element :: first) second
      else set_difference first second
termination_by first second => first.length + second.length

theorem truncate_eq_floor
    {number : ℚ}
    (nonnegative : 0 ≤ number) :
    truncate number = ⌊number⌋ := by
  rw [truncate, Int.tdiv_eq_ediv_of_nonneg (Rat.num_nonneg.mpr nonnegative), Rat.floor_def']

section Draws

variable {draw : ℚ}

/-- The index that a draw chooses is not negative. -/
theorem truncate_draw_nonneg
    (size : Nat)
    (positive : 0 < draw) :
    0 ≤ truncate (draw * size) := by
  have product : 0 ≤ draw * size := mul_nonneg positive.le (Nat.cast_nonneg size)
  rw [truncate_eq_floor product]
  exact Int.floor_nonneg.mpr product

/-- The index is inside unless the draw is one, or there is nothing to choose from. -/
theorem truncate_draw_lt_iff
    (size : Nat)
    (positive : 0 < draw)
    (most : draw ≤ 1) :
    truncate (draw * size) < size ↔ 0 < size ∧ draw < 1 := by
  have product : 0 ≤ draw * size := mul_nonneg positive.le (Nat.cast_nonneg size)
  rw [truncate_eq_floor product, Int.floor_lt, Int.cast_natCast]
  constructor
  · intro less
    have sized : 0 < size := by
      rcases Nat.eq_zero_or_pos size with rfl | sized
      · simp at less
      · exact sized
    refine ⟨sized, most.lt_of_ne fun same => ?_⟩
    rw [same, one_mul] at less
    exact less.false
  · rintro ⟨sized, less⟩
    exact mul_lt_of_lt_one_left (Nat.cast_pos.mpr sized) less

end Draws

/-- The difference of a range without repetitions and another range holds the elements of
the first that are not in the second. -/
theorem mem_set_difference
    (first second : List Int)
    (increasing : first.Pairwise (· < ·))
    (sorted : second.Pairwise (· ≤ ·))
    (element : Int) :
    element ∈ set_difference first second ↔ element ∈ first ∧ element ∉ second := by
  induction first, second using set_difference.induct with
  | case1 second => simp [set_difference]
  | case2 first nonempty =>
      cases first with
      | nil => contradiction
      | cons head rest => simp [set_difference]
  | case3 head first other second less inductionHypothesis =>
      obtain ⟨above, increasing⟩ := List.pairwise_cons.mp increasing
      obtain ⟨otherLeast, _⟩ := List.pairwise_cons.mp sorted
      rw [set_difference, if_pos less, List.mem_cons, List.mem_cons,
        inductionHypothesis increasing sorted]
      have absent : head ∉ other :: second := by
        intro inside
        rcases List.mem_cons.mp inside with same | inside
        · omega
        · have := otherLeast head inside
          omega
      constructor
      · rintro (rfl | ⟨inside, outside⟩)
        · exact ⟨.inl rfl, absent⟩
        · exact ⟨.inr inside, outside⟩
      · rintro ⟨rfl | inside, outside⟩
        · exact .inl rfl
        · exact .inr ⟨inside, outside⟩
  | case4 head first other second notLess less inductionHypothesis =>
      obtain ⟨above, _⟩ := List.pairwise_cons.mp increasing
      rw [set_difference, if_neg notLess, if_pos less,
        inductionHypothesis increasing (List.pairwise_cons.mp sorted).2]
      refine and_congr_right fun inside => not_congr ?_
      rw [List.mem_cons]
      have different : element ≠ other := by
        rcases List.mem_cons.mp inside with rfl | inside
        · omega
        · have := above element inside
          omega
      exact (or_iff_right different).symm
  | case5 head first other second notLess notGreater inductionHypothesis =>
      obtain ⟨above, increasing⟩ := List.pairwise_cons.mp increasing
      obtain rfl : head = other := by omega
      rw [set_difference, if_neg notLess, if_neg notGreater,
        inductionHypothesis increasing (List.pairwise_cons.mp sorted).2, List.mem_cons,
        List.mem_cons]
      constructor
      · rintro ⟨inside, outside⟩
        have different : element ≠ head := (above element inside).ne'
        exact ⟨.inr inside, not_or.mpr ⟨different, outside⟩⟩
      · rintro ⟨same | inside, outside⟩
        · exact absurd (.inl same) outside
        · exact ⟨inside, fun there => outside (.inr there)⟩

/-- An element that the probe kernel loads. -/
inductive Access
  | build_tbl (idx : Int)
  | lottery (idx : Int)

namespace Access

/-- The index is an index of its array. -/
def Inside (build_tbl_size lottery_size : Nat) : Access → Prop
  | build_tbl idx => 0 ≤ idx ∧ idx < build_tbl_size
  | lottery idx => 0 ≤ idx ∧ idx < lottery_size

/-- The element, if there is one. -/
def load (table entries : List Int) : Access → Option Int
  | build_tbl idx => if 0 ≤ idx then table[idx.toNat]? else none
  | lottery idx => if 0 ≤ idx then entries[idx.toNat]? else none

/-- Inside the arrays there is an element, and it is an element of the array. -/
theorem load_eq_some
    {table entries : List Int}
    {access : Access}
    {key : Int}
    (loaded : access.load table entries = some key) :
    match access with
    | build_tbl _ => key ∈ table
    | lottery _ => key ∈ entries := by
  cases access with
  | build_tbl idx =>
      rw [load] at loaded
      split at loaded
      · exact List.mem_of_getElem? loaded
      · contradiction
  | lottery idx =>
      rw [load] at loaded
      split at loaded
      · exact List.mem_of_getElem? loaded
      · contradiction

end Access

namespace Inputs

variable (inputs : Inputs)

/-- `std::numeric_limits<key_type>::max()` -/
def key_max : Int := 2 ^ (inputs.key_width - 1) - 1

/-- The size of the lottery, in `size_type`. A negative size cannot be allocated. -/
def lottery_size : Int :=
  (if inputs.rand_max < inputs.key_max - 1 then inputs.rand_max + 1
    else inputs.rand_max).bmod (2 ^ inputs.size_width)

/-- The launch of `init_build_tbl` for unique keys. -/
def launch : Launch where
  size_width := inputs.size_width
  num_threads := inputs.num_threads
  build_tbl_size := inputs.build_tbl_size
  lottery_size := inputs.lottery_size.toNat
  first_idx := fun idx => (truncate (inputs.build_draw idx * inputs.lottery_size)).toNat

/-- A thread of `init_probe_tbl` comes to a row. -/
def Probes (idx : Nat) : Prop :=
  Visits inputs.size_width inputs.probe_tbl_size inputs.num_threads idx

/-- A state of the launch, which begins when the lottery has been allocated. -/
def Launched (state : State) : Prop :=
  inputs.uniq_build_tbl_keys = true ∧ 0 ≤ inputs.lottery_size ∧
    Reaches inputs.launch.step State.start state

/-- A build table that the finished kernel leaves. Keys that need not be unique are drawn
directly. -/
def Builds (build_tbl : List Int) : Prop :=
  build_tbl.length = inputs.build_tbl_size ∧
    if inputs.uniq_build_tbl_keys then
      ∃ state, inputs.Launched state ∧ inputs.launch.Finished state ∧
        ∀ idx, idx < inputs.build_tbl_size → state.build_tbl idx = build_tbl[idx]?
    else
      0 ≤ inputs.lottery_size ∧
        build_tbl = (List.range inputs.build_tbl_size).map fun idx =>
          truncate (inputs.build_draw idx * inputs.rand_max)

/-- The lottery without the keys of the build table. -/
def lottery (build_tbl : List Int) : List Int :=
  set_difference ((List.range inputs.lottery_size.toNat).map Int.ofNat) build_tbl.mergeSort

/-- What `init_probe_tbl` loads for a row. -/
def probe_access (build_tbl : List Int) (idx : Nat) : Access :=
  if inputs.probe_draw idx ≤ inputs.selectivity then
    let build_tbl_idx := truncate (inputs.probe_pick idx * inputs.build_tbl_size)
    .build_tbl (if inputs.build_tbl_size ≤ build_tbl_idx then inputs.build_tbl_size - 1
      else build_tbl_idx)
  else
    .lottery (truncate (inputs.probe_pick idx * (inputs.lottery build_tbl).length))

/-- The row of the probe table. -/
def probe_tbl (build_tbl : List Int) (idx : Nat) : Option Int :=
  (inputs.probe_access build_tbl idx).load build_tbl (inputs.lottery build_tbl)

/-- All indices are inside their arrays, and a row of the probe table is in the build table or
not as it has drawn. -/
structure Obeys : Prop where
  build_rows : ∀ state, inputs.Launched state →
    ∀ start_idx, start_idx < inputs.num_threads → ∀ idx lottery_val,
      state.thread start_idx = .storing idx lottery_val →
        0 ≤ size_type inputs.size_width idx ∧
          size_type inputs.size_width idx < inputs.build_tbl_size
  direct_rows : inputs.uniq_build_tbl_keys = false → 0 ≤ inputs.lottery_size →
    ∀ idx, Visits inputs.size_width inputs.build_tbl_size inputs.num_threads idx →
      0 ≤ size_type inputs.size_width idx
  build_indices : ∀ state, inputs.Launched state →
    ∀ start_idx, start_idx < inputs.num_threads → ∀ lottery_idx,
      (state.thread start_idx).entry = some lottery_idx → lottery_idx < inputs.lottery_size
  probe_indices : ∀ build_tbl, inputs.Builds build_tbl → ∀ idx, inputs.Probes idx →
    (inputs.probe_access build_tbl idx).Inside build_tbl.length (inputs.lottery build_tbl).length
  present : ∀ build_tbl, inputs.Builds build_tbl → ∀ idx, inputs.Probes idx →
    inputs.probe_draw idx ≤ inputs.selectivity →
      ∀ key, inputs.probe_tbl build_tbl idx = some key → key ∈ build_tbl
  absent : ∀ build_tbl, inputs.Builds build_tbl → ∀ idx, inputs.Probes idx →
    ¬ inputs.probe_draw idx ≤ inputs.selectivity →
      ∀ key, inputs.probe_tbl build_tbl idx = some key →
        0 ≤ key ∧ key ≤ inputs.rand_max ∧ key ∉ build_tbl

/-- All draws are greater than zero and at most one. -/
def Drawn : Prop :=
  ∀ idx, (0 < inputs.build_draw idx ∧ inputs.build_draw idx ≤ 1) ∧
    (0 < inputs.probe_draw idx ∧ inputs.probe_draw idx ≤ 1) ∧
    0 < inputs.probe_pick idx ∧ inputs.probe_pick idx ≤ 1

/-- The build table leaves a key in the lottery. -/
def KeyLeft : Prop :=
  if inputs.uniq_build_tbl_keys then (inputs.build_tbl_size : Int) < inputs.lottery_size
  else ∃ key : Nat, (key : Int) < inputs.lottery_size ∧
    ∀ idx, idx < inputs.build_tbl_size →
      truncate (inputs.build_draw idx * inputs.rand_max) ≠ key

/-- No thread passes the greatest row, the draws that choose an entry of the lottery are less
than one, and there are keys to be chosen from. -/
structure Admissible : Prop where
  counted : 0 ≤ inputs.lottery_size →
    inputs.build_tbl_size + inputs.num_threads ≤ 2 ^ (inputs.size_width - 1)
  build : inputs.uniq_build_tbl_keys = true → 0 ≤ inputs.lottery_size →
    ∀ idx, idx < inputs.build_tbl_size → 0 < inputs.lottery_size ∧ inputs.build_draw idx < 1
  probe : 0 ≤ inputs.lottery_size →
    (inputs.uniq_build_tbl_keys = true → (inputs.build_tbl_size : Int) ≤ inputs.lottery_size) →
    ∀ idx, inputs.Probes idx →
      if inputs.probe_draw idx ≤ inputs.selectivity then 0 < inputs.build_tbl_size
      else inputs.probe_pick idx < 1 ∧ inputs.KeyLeft

variable {inputs}

/-- The lottery has no greater keys than the greatest random number. -/
theorem lottery_size_le
    (least : -1 ≤ inputs.rand_max) :
    inputs.lottery_size ≤ inputs.rand_max + 1 := by
  have modulus : 0 < 2 ^ inputs.size_width := Nat.two_pow_pos _
  unfold lottery_size
  split
  · have upper := Int.bmod_lt (x := inputs.rand_max + 1) modulus
    have multiple := @Int.dvd_bmod_sub_self (inputs.rand_max + 1) (2 ^ inputs.size_width)
    by_contra greater
    have atLeast := Int.le_of_dvd (by omega) multiple
    omega
  · have upper := Int.bmod_lt (x := inputs.rand_max) modulus
    have multiple := @Int.dvd_bmod_sub_self inputs.rand_max (2 ^ inputs.size_width)
    by_contra greater
    have atLeast := Int.le_of_dvd (by omega) multiple
    omega

/-- The probe kernel draws from the keys of the lottery that are not in the build table. -/
theorem mem_lottery
    (allocated : 0 ≤ inputs.lottery_size)
    (build_tbl : List Int)
    (key : Int) :
    key ∈ inputs.lottery build_tbl ↔
      (0 ≤ key ∧ key < inputs.lottery_size) ∧ key ∉ build_tbl := by
  have increasing : ((List.range inputs.lottery_size.toNat).map Int.ofNat).Pairwise (· < ·) :=
    List.pairwise_map.mpr (List.pairwise_lt_range.imp Int.ofNat_lt.mpr)
  have sorted : build_tbl.mergeSort.Pairwise (· ≤ ·) := by
    have := List.pairwise_mergeSort' (α := Int) (· ≤ ·) build_tbl
    exact this
  rw [lottery, mem_set_difference _ _ increasing sorted, List.mem_mergeSort, List.mem_map]
  refine and_congr_left fun _ => ?_
  constructor
  · rintro ⟨entry, inside, rfl⟩
    have := List.mem_range.mp inside
    exact ⟨Int.natCast_nonneg _, by change (entry : Int) < _; omega⟩
  · rintro ⟨nonnegative, less⟩
    exact ⟨key.toNat, List.mem_range.mpr (by omega), Int.toNat_of_nonneg nonnegative⟩

/-- A row begins at an entry of the lottery unless it draws one. -/
theorem first_idx_lt_iff
    (allocated : 0 ≤ inputs.lottery_size)
    (drawn : inputs.Drawn)
    (idx : Nat) :
    inputs.launch.first_idx idx < inputs.launch.lottery_size ↔
      0 < inputs.lottery_size ∧ inputs.build_draw idx < 1 := by
  obtain ⟨size, same⟩ := Int.eq_ofNat_of_zero_le allocated
  have positive := (drawn idx).1.1
  have chosen := truncate_draw_lt_iff size positive (drawn idx).1.2
  have nonnegative := truncate_draw_nonneg size positive
  simp only [launch, same, Int.cast_natCast, Int.toNat_natCast, Int.natCast_pos]
  rw [← chosen]
  omega

namespace Admissible

/-- The rows of the build table begin to probe at entries of the lottery. -/
theorem beginsInside
    (admissible : inputs.Admissible)
    (drawn : inputs.Drawn)
    (unique : inputs.uniq_build_tbl_keys = true)
    (allocated : 0 ≤ inputs.lottery_size) :
    inputs.launch.BeginsInside :=
  fun idx inTable =>
    (first_idx_lt_iff allocated drawn idx).mpr
      (admissible.build unique allocated idx inTable)

end Admissible

/-- A type that counts the threads has a sign bit. -/
theorem wide (inputs : Inputs) : 0 < inputs.size_width := by
  have some_threads := inputs.some_threads
  have threads_fit := inputs.threads_fit
  by_contra narrow
  rw [show inputs.size_width - 1 = 0 by omega] at threads_fit
  omega

/-- As many entries as the lottery has, it has where it is drawn from. -/
theorem entries_of_enough
    (enough : (inputs.build_tbl_size : Int) ≤ inputs.lottery_size) :
    inputs.launch.build_tbl_size ≤ inputs.launch.lottery_size := by
  change inputs.build_tbl_size ≤ inputs.lottery_size.toNat
  omega

/-- The lottery of a launch is fair. -/
theorem Launched.fair
    {state : State}
    (launched : inputs.Launched state)
    (counted : inputs.launch.Counted)
    (begins : inputs.launch.BeginsInside) :
    inputs.launch.Fair state :=
  Launch.fair_of_reaches counted begins launched.2.2

/-- A kernel that draws directly leaves its table if the lottery can be allocated. -/
theorem Builds.allocated
    {build_tbl : List Int}
    (builds : inputs.Builds build_tbl) :
    0 ≤ inputs.lottery_size := by
  obtain ⟨_, built⟩ := builds
  split at built
  · obtain ⟨_, launched, _⟩ := built
    exact launched.2.1
  · exact built.1

section Unique

variable
  {build_tbl : List Int}

/-- The rows of a table of unique keys are the keys that the lottery has given. -/
theorem Builds.given
    (builds : inputs.Builds build_tbl)
    (unique : inputs.uniq_build_tbl_keys = true)
    (counted : inputs.launch.Counted)
    (begins : inputs.launch.BeginsInside) :
    ∃ state, inputs.launch.Fair state ∧
      ∀ idx key, build_tbl[idx]? = some key →
        inputs.launch.Given state idx key := by
  obtain ⟨sized, built⟩ := builds
  rw [if_pos unique] at built
  obtain ⟨state, launched, _, rows⟩ := built
  refine ⟨state, launched.fair counted begins, fun idx key row => .inl ?_⟩
  have inTable : idx < inputs.build_tbl_size := by
    rw [← sized]
    exact (List.getElem?_eq_some_iff.mp row).1
  exact (rows idx inTable).trans row

/-- Unique keys are unique. -/
theorem Builds.nodup
    (builds : inputs.Builds build_tbl)
    (unique : inputs.uniq_build_tbl_keys = true)
    (counted : inputs.launch.Counted)
    (begins : inputs.launch.BeginsInside) :
    build_tbl.Nodup := by
  obtain ⟨state, fair, given⟩ := builds.given unique counted begins
  refine List.nodup_iff_getElem?_ne_getElem?.mpr fun first second before inside same => ?_
  have row := List.getElem?_eq_getElem inside
  exact before.ne (fair.distinct first second _ (given first _ (same.trans row))
    (given second _ row))

/-- Unique keys are keys of the lottery. -/
theorem Builds.mem_lottery
    (builds : inputs.Builds build_tbl)
    (unique : inputs.uniq_build_tbl_keys = true)
    (counted : inputs.launch.Counted)
    (begins : inputs.launch.BeginsInside)
    {key : Int}
    (inside : key ∈ build_tbl) :
    0 ≤ key ∧ key < inputs.lottery_size := by
  obtain ⟨state, fair, given⟩ := builds.given unique counted begins
  obtain ⟨idx, row⟩ := List.mem_iff_getElem?.mp inside
  obtain ⟨lottery_idx, less, rfl, _⟩ := fair.given_marked idx key (given idx key row)
  have bound : lottery_idx < inputs.lottery_size.toNat := less
  exact ⟨Int.natCast_nonneg _, by omega⟩

/-- The set of the unique keys, and how many they are. -/
theorem Builds.keys
    (builds : inputs.Builds build_tbl)
    (unique : inputs.uniq_build_tbl_keys = true)
    (counted : inputs.launch.Counted)
    (begins : inputs.launch.BeginsInside) :
    build_tbl.toFinset ⊆ Finset.Ico 0 inputs.lottery_size ∧
      build_tbl.toFinset.card = inputs.build_tbl_size := by
  constructor
  · intro key inside
    exact Finset.mem_Ico.mpr
      (builds.mem_lottery unique counted begins (List.mem_toFinset.mp inside))
  · rw [List.toFinset_card_of_nodup (builds.nodup unique counted begins), builds.1]

/-- Unique keys use up the lottery exactly if there are as many of them as entries. -/
theorem Builds.unused_iff
    (builds : inputs.Builds build_tbl)
    (unique : inputs.uniq_build_tbl_keys = true)
    (counted : inputs.launch.Counted)
    (begins : inputs.launch.BeginsInside) :
    (∃ key, (0 ≤ key ∧ key < inputs.lottery_size) ∧ key ∉ build_tbl) ↔
      (inputs.build_tbl_size : Int) < inputs.lottery_size := by
  obtain ⟨within, card⟩ := builds.keys unique counted begins
  have lottery : (Finset.Ico 0 inputs.lottery_size).card = inputs.lottery_size.toNat := by
    rw [Int.card_Ico, Int.sub_zero]
  constructor
  · rintro ⟨key, bounds, unused⟩
    have proper : build_tbl.toFinset ⊂ Finset.Ico 0 inputs.lottery_size :=
      (Finset.ssubset_iff_of_subset within).mpr
        ⟨key, Finset.mem_Ico.mpr bounds, fun inside => unused (List.mem_toFinset.mp inside)⟩
    have less := Finset.card_lt_card proper
    omega
  · intro less
    obtain ⟨key, inside, unused⟩ := Finset.exists_mem_notMem_of_card_lt_card
      (show build_tbl.toFinset.card < (Finset.Ico 0 inputs.lottery_size).card by omega)
    exact ⟨key, Finset.mem_Ico.mp inside, fun there => unused (List.mem_toFinset.mpr there)⟩

/-- There are not more unique keys than entries of the lottery. -/
theorem Builds.size_le
    (builds : inputs.Builds build_tbl)
    (unique : inputs.uniq_build_tbl_keys = true)
    (counted : inputs.launch.Counted)
    (begins : inputs.launch.BeginsInside) :
    (inputs.build_tbl_size : Int) ≤ inputs.lottery_size := by
  obtain ⟨within, sized⟩ := builds.keys unique counted begins
  have card := Finset.card_le_card within
  rw [sized, Int.card_Ico, Int.sub_zero] at card
  have allocated := builds.allocated
  omega

end Unique

/-- The lottery of the probe kernel is not empty exactly if a key is left. -/
theorem Builds.keyLeft_iff
    {build_tbl : List Int}
    (builds : inputs.Builds build_tbl)
    (counted : inputs.launch.Counted)
    (begins : inputs.uniq_build_tbl_keys = true → inputs.launch.BeginsInside) :
    0 < (inputs.lottery build_tbl).length ↔ inputs.KeyLeft := by
  have allocated := builds.allocated
  have nonempty : 0 < (inputs.lottery build_tbl).length ↔
      ∃ key, (0 ≤ key ∧ key < inputs.lottery_size) ∧ key ∉ build_tbl := by
    rw [List.length_pos_iff_exists_mem]
    exact exists_congr (Inputs.mem_lottery allocated build_tbl)
  rw [nonempty, KeyLeft]
  split
  · rename_i unique
    exact builds.unused_iff unique counted (begins unique)
  · rename_i repeated
    obtain ⟨_, built⟩ := builds
    rw [if_neg repeated] at built
    rw [built.2]
    have drawn : ∀ key, key ∉ (List.range inputs.build_tbl_size).map (fun idx =>
        truncate (inputs.build_draw idx * inputs.rand_max)) ↔
        ∀ idx, idx < inputs.build_tbl_size →
          truncate (inputs.build_draw idx * inputs.rand_max) ≠ key := by
      intro key
      rw [List.mem_map]
      push Not
      exact forall_congr' fun idx => imp_congr_left List.mem_range
    constructor
    · rintro ⟨key, ⟨nonnegative, less⟩, unused⟩
      obtain ⟨entry, rfl⟩ := Int.eq_ofNat_of_zero_le nonnegative
      exact ⟨entry, less, (drawn _).mp unused⟩
    · rintro ⟨entry, less, unused⟩
      exact ⟨entry, ⟨Int.natCast_nonneg _, less⟩, (drawn _).mpr unused⟩

/-- The kernel can finish if the lottery has enough entries. -/
theorem exists_builds
    (allocated : 0 ≤ inputs.lottery_size)
    (counted : inputs.launch.Counted)
    (begins : inputs.uniq_build_tbl_keys = true → inputs.launch.BeginsInside)
    (enough : inputs.uniq_build_tbl_keys = true →
      (inputs.build_tbl_size : Int) ≤ inputs.lottery_size) :
    ∃ build_tbl, inputs.Builds build_tbl := by
  by_cases unique : inputs.uniq_build_tbl_keys = true
  · obtain ⟨state, reached, finished⟩ := Launch.exists_finished counted inputs.some_threads
      (entries_of_enough (enough unique)) (begins unique)
    have fair := Launch.fair_of_reaches counted (begins unique) reached
    refine ⟨(List.range inputs.build_tbl_size).map fun idx : Nat =>
      (state.build_tbl idx).getD 0, ?_, ?_⟩
    · rw [List.length_map, List.length_range]
    · rw [if_pos unique]
      refine ⟨state, ⟨unique, allocated, reached⟩, finished, fun idx inTable => ?_⟩
      obtain ⟨key, filled⟩ := fair.filled_of_finished inputs.some_threads finished inTable
      rw [List.getElem?_map, List.getElem?_range inTable, Option.map_some, filled,
        Option.getD_some]
  · refine ⟨(List.range inputs.build_tbl_size).map fun idx =>
      truncate (inputs.build_draw idx * inputs.rand_max), ?_, ?_⟩
    · rw [List.length_map, List.length_range]
    · rw [if_neg unique]
      exact ⟨allocated, rfl⟩

/-- An index that a row of the probe table loads is inside exactly if there is something
to choose from, and the entry of the lottery is not chosen by a draw of one. -/
theorem Builds.probe_access_inside_iff
    {build_tbl : List Int}
    (builds : inputs.Builds build_tbl)
    (drawn : inputs.Drawn)
    (idx : Nat) :
    (inputs.probe_access build_tbl idx).Inside build_tbl.length
        (inputs.lottery build_tbl).length ↔
      if inputs.probe_draw idx ≤ inputs.selectivity then 0 < inputs.build_tbl_size
      else inputs.probe_pick idx < 1 ∧ 0 < (inputs.lottery build_tbl).length := by
  obtain ⟨_, _, positive, most⟩ := drawn idx
  rw [probe_access]
  split
  · -- the index is clamped
    have nonnegative := truncate_draw_nonneg inputs.build_tbl_size positive
    simp only [Access.Inside, builds.1]
    split
    · omega
    · omega
  · have nonnegative := truncate_draw_nonneg (inputs.lottery build_tbl).length positive
    simp only [Access.Inside, nonnegative, true_and,
      truncate_draw_lt_iff (inputs.lottery build_tbl).length positive most]
    exact and_comm

/-- A row that the probe kernel loads is in the table that it is loaded from. -/
theorem probe_tbl_eq_some
    {build_tbl : List Int}
    {idx : Nat}
    {key : Int}
    (loaded : inputs.probe_tbl build_tbl idx = some key) :
    if inputs.probe_draw idx ≤ inputs.selectivity then key ∈ build_tbl
    else key ∈ inputs.lottery build_tbl := by
  rw [probe_tbl, probe_access] at loaded
  split at loaded
  · rename_i drawn
    rw [if_pos drawn]
    exact Access.load_eq_some loaded
  · rename_i drawn
    rw [if_neg drawn]
    exact Access.load_eq_some loaded

section Necessary

variable
  (obeys : inputs.Obeys)
  (drawn : inputs.Drawn)
  (unique : inputs.uniq_build_tbl_keys = true)
  (allocated : 0 ≤ inputs.lottery_size)
  (enough : (inputs.build_tbl_size : Int) ≤ inputs.lottery_size)

include obeys drawn unique allocated enough

/-- Rows of unique keys do not draw one: a thread can come to each of its rows while the
other threads wait. -/
theorem Obeys.begins
    {idx : Nat}
    (inTable : idx < inputs.build_tbl_size) :
    0 < inputs.lottery_size ∧ inputs.build_draw idx < 1 := by
  let launch := inputs.launch
  induction idx using Nat.strongRecOn with
  | ind idx inductionHypothesis =>
      have fits : idx < 2 ^ (inputs.size_width - 1) := inTable.trans inputs.build_tbl_fits
      obtain ⟨state, reached, _, thread, _⟩ := Launch.exists_alone (entries_of_enough enough) fits
        inputs.threads_fit.le inputs.some_threads fun row less => by
          have some_threads : 0 < inputs.launch.num_threads := inputs.some_threads
          have rowInTable : row < inputs.build_tbl_size := by omega
          exact ⟨rowInTable, (first_idx_lt_iff allocated drawn row).mpr
            (inductionHypothesis row (by omega) rowInTable)⟩
      have bound : idx % inputs.num_threads < inputs.num_threads := Nat.mod_lt _ inputs.some_threads
      have began : launch.step ⟨_, bound⟩ state = some (state.move (idx % inputs.num_threads)
          (.reading idx (launch.first_idx idx))) := by
        have table : size_type launch.size_width idx < launch.build_tbl_size := by
          have same : size_type launch.size_width idx = idx := size_type_eq fits
          rw [same]
          exact_mod_cast inTable
        have here : state.thread (idx % inputs.num_threads) = .drawing idx := thread
        simp only [Launch.step, here, if_pos table]
      have inside := obeys.build_indices _ ⟨unique, allocated, reached.trans (.single began)⟩ _
        bound (launch.first_idx idx) (by rw [State.thread_move]; rfl)
      refine (first_idx_lt_iff allocated drawn idx).mp ?_
      change launch.first_idx idx < inputs.lottery_size.toNat
      omega

/-- No thread of unique keys passes the greatest row: it would go on with a negative one. -/
theorem Obeys.counted_of_unique :
    inputs.build_tbl_size + inputs.num_threads ≤ 2 ^ (inputs.size_width - 1) := by
  by_contra many
  let launch := inputs.launch
  have entries : launch.build_tbl_size ≤ launch.lottery_size := entries_of_enough enough
  have begins : ∀ row, row < inputs.build_tbl_size → launch.first_idx row < launch.lottery_size :=
    fun row inTable => (first_idx_lt_iff allocated drawn row).mpr
      (obeys.begins drawn unique allocated enough inTable)
  have some_threads := inputs.some_threads
  have threads_fit := inputs.threads_fit
  have build_tbl_fits := inputs.build_tbl_fits
  -- the first row whose next row is negative
  obtain ⟨last, sum⟩ := Nat.exists_eq_add_of_le' threads_fit.le
  have inTable : last < launch.build_tbl_size := show last < inputs.build_tbl_size by omega
  have bound : last % launch.num_threads < launch.num_threads := Nat.mod_lt _ some_threads
  obtain ⟨state, reached, fair, thread, others⟩ := Launch.exists_alone entries
    (show last < 2 ^ (inputs.size_width - 1) by omega) threads_fit.le some_threads
    fun row less => by
      have rowInTable : row < inputs.build_tbl_size := by
        have : launch.num_threads = inputs.num_threads := rfl
        omega
      exact ⟨rowInTable, begins row rowInTable⟩
  obtain ⟨taken, key, further, fairTaken, holding, same⟩ :=
    fair.gets_key entries bound thread inTable (begins last inTable)
  -- the first row of another thread has no key, so that there is one left
  obtain ⟨other, otherBound, different, otherInTable⟩ : ∃ other, other < launch.num_threads ∧
      other ≠ last % launch.num_threads ∧ other < launch.build_tbl_size := by
    have threads : 1 < launch.num_threads := show 1 < inputs.num_threads by omega
    have rows : 1 < launch.build_tbl_size := show 1 < inputs.build_tbl_size by omega
    by_cases first : last % launch.num_threads = 0
    · exact ⟨1, threads, by omega, rows⟩
    · exact ⟨0, by omega, Ne.symm first, by omega⟩
  have waiting : taken.thread other = .drawing other :=
    (same other different).trans (others other different)
  obtain ⟨left, leftInside, unmarked⟩ := fairTaken.unmarked_of_not_given entries otherInTable
    (fairTaken.not_given_of_drawing otherBound waiting)
  have wide : 0 < launch.size_width := inputs.wide
  obtain ⟨probing, around, lottery, arrived⟩ :=
    Launch.wraps_around wide bound holding sum.symm
  have begun := (reached.trans further).trans around
  have inside := obeys.build_indices probing ⟨unique, allocated, begun⟩ _ bound
    (launch.first_idx (last + launch.num_threads)) (by rw [arrived]; rfl)
  have entryInside : launch.first_idx (last + launch.num_threads) < launch.lottery_size := by
    change _ < inputs.lottery_size.toNat
    omega
  rw [← lottery, ← Launch.distance_mod entryInside leftInside] at unmarked
  obtain ⟨finish, lottery_val, probed, stores⟩ := Launch.reaches_storing_of_reading
    ⟨_, bound⟩ _ _ arrived entryInside unmarked
  have row := (obeys.build_rows finish ⟨unique, allocated,
    begun.trans (Launch.reaches_of_alone (Launch.alone_of_probe probed))⟩ _ bound _ _ stores).1
  have power : (0 : Int) < 2 ^ (launch.size_width - 1) := by positivity
  rw [show last + launch.num_threads = 2 ^ (launch.size_width - 1) from sum.symm] at row
  have negative := size_type_wraps wide
  change 0 ≤ size_type launch.size_width _ at row
  omega

end Necessary

/-- No thread of keys that are drawn directly passes the greatest row. -/
theorem Obeys.counted_of_direct
    (obeys : inputs.Obeys)
    (repeated : inputs.uniq_build_tbl_keys = false)
    (allocated : 0 ≤ inputs.lottery_size) :
    inputs.build_tbl_size + inputs.num_threads ≤ 2 ^ (inputs.size_width - 1) := by
  by_contra many
  have row := obeys.direct_rows repeated allocated _
    (visits_wraps inputs.wide (Nat.lt_of_not_le many))
  have power : (0 : Int) < 2 ^ (inputs.size_width - 1) := by positivity
  rw [size_type_wraps inputs.wide] at row
  omega

/-- The draws of the tables that obey are admissible. -/
theorem Obeys.admissible
    (obeys : inputs.Obeys)
    (drawn : inputs.Drawn)
    (enough : inputs.uniq_build_tbl_keys = true →
      (inputs.build_tbl_size : Int) ≤ inputs.lottery_size) :
    inputs.Admissible := by
  have counted : 0 ≤ inputs.lottery_size →
      inputs.build_tbl_size + inputs.num_threads ≤ 2 ^ (inputs.size_width - 1) := by
    intro allocated
    by_cases unique : inputs.uniq_build_tbl_keys = true
    · exact obeys.counted_of_unique drawn unique allocated (enough unique)
    · exact obeys.counted_of_direct (Bool.eq_false_iff.mpr unique) allocated
  have build : inputs.uniq_build_tbl_keys = true → 0 ≤ inputs.lottery_size →
      ∀ idx, idx < inputs.build_tbl_size →
        0 < inputs.lottery_size ∧ inputs.build_draw idx < 1 :=
    fun unique allocated _ => obeys.begins drawn unique allocated (enough unique)
  refine ⟨counted, build, fun allocated _ idx probes => ?_⟩
  have begins : inputs.uniq_build_tbl_keys = true → inputs.launch.BeginsInside :=
    fun unique row inTable =>
      (first_idx_lt_iff allocated drawn row).mpr (build unique allocated row inTable)
  obtain ⟨build_tbl, builds⟩ := exists_builds allocated (counted allocated) begins enough
  have inside := obeys.probe_indices build_tbl builds idx probes
  rwa [builds.probe_access_inside_iff drawn, builds.keyLeft_iff (counted allocated) begins]
    at inside

/-- With admissible draws, the rows that the threads write are rows of the table. -/
theorem Admissible.obeys
    (admissible : inputs.Admissible)
    (enough : (inputs.build_tbl_size : Int) ≤ inputs.rand_max + 1)
    (drawn : inputs.Drawn) :
    inputs.Obeys := by
  constructor
  case build_rows =>
    intro state launched start_idx bound idx lottery_val holding
    have counted := admissible.counted launched.2.1
    have begins := admissible.beginsInside drawn launched.1 launched.2.1
    have inTable := (launched.fair counted begins).storing start_idx bound idx lottery_val holding
    change idx < inputs.build_tbl_size at inTable
    rw [size_type_eq (inTable.trans inputs.build_tbl_fits)]
    omega
  case direct_rows =>
    intro _ allocated idx visits
    have inTable := (visits_iff inputs.some_threads (admissible.counted allocated)).mp visits
    rw [size_type_eq (inTable.trans inputs.build_tbl_fits)]
    exact Int.natCast_nonneg idx
  case build_indices =>
    intro state launched start_idx bound lottery_idx accessed
    have counted := admissible.counted launched.2.1
    have begins := admissible.beginsInside drawn launched.1 launched.2.1
    have fair := launched.fair counted begins
    have inside : lottery_idx < inputs.lottery_size.toNat := by
      cases thread : state.thread start_idx with
      | drawing idx =>
          rw [thread] at accessed
          contradiction
      | reading idx entry =>
          rw [thread] at accessed
          obtain rfl := Option.some.inj accessed
          exact (fair.reading start_idx bound idx entry thread).2
      | swapping idx entry lottery_val =>
          rw [thread] at accessed
          obtain rfl := Option.some.inj accessed
          exact (fair.swapping start_idx bound idx entry lottery_val thread).2.1
      | storing idx lottery_val =>
          rw [thread] at accessed
          contradiction
    omega
  case probe_indices =>
    intro build_tbl builds idx probes
    have counted := admissible.counted builds.allocated
    have begins := fun unique => admissible.beginsInside drawn unique builds.allocated
    rw [builds.probe_access_inside_iff drawn, builds.keyLeft_iff counted begins]
    exact admissible.probe builds.allocated
      (fun unique => builds.size_le unique counted (begins unique)) idx probes
  case present =>
    intro build_tbl builds idx _ chosen key loaded
    have inside := probe_tbl_eq_some loaded
    rwa [if_pos chosen] at inside
  case absent =>
    intro build_tbl builds idx _ chosen key loaded
    have inside := probe_tbl_eq_some loaded
    rw [if_neg chosen, mem_lottery builds.allocated] at inside
    obtain ⟨⟨nonnegative, less⟩, absent⟩ := inside
    have most : inputs.lottery_size ≤ inputs.rand_max + 1 := lottery_size_le (by omega)
    exact ⟨nonnegative, by omega, absent⟩

/-- The tables obey if the draws are admissible: no thread passes the greatest row, no row of
unique keys draws one, a row of the probe table that is to be in the build table finds that
table not empty, and one that is not to be in it does not draw one and finds a key left.
Unless there are more unique keys than entries, they obey only then. -/
theorem obeys_iff
    (inputs : Inputs)
    (enough : (inputs.build_tbl_size : Int) ≤ inputs.rand_max + 1)
    (drawn : inputs.Drawn) :
    (inputs.Admissible → inputs.Obeys) ∧
      ((inputs.uniq_build_tbl_keys = true →
          (inputs.build_tbl_size : Int) ≤ inputs.lottery_size) →
        inputs.Obeys → inputs.Admissible) :=
  ⟨fun admissible => admissible.obeys enough drawn, fun entries obeys =>
    obeys.admissible drawn entries⟩

/-- Tables of two and three rows whose keys are drawn from four numbers. -/
def fewRows : Inputs where
  key_width := 64
  size_width := 32
  num_threads := 128
  build_tbl_size := 2
  probe_tbl_size := 3
  selectivity := 3 / 10
  rand_max := 3
  uniq_build_tbl_keys := true
  build_draw := fun _ => 1 / 2
  probe_draw := fun _ => 1 / 2
  probe_pick := fun _ => 1 / 2
  some_threads := by decide
  threads_fit := by decide
  build_tbl_fits := by decide

theorem fewRows_drawn : fewRows.Drawn := by
  intro idx
  simp only [fewRows]
  norm_num

theorem fewRows_admissible : fewRows.Admissible := by
  refine ⟨fun _ => by decide, fun _ _ idx _ => ?_, fun _ _ idx _ => ?_⟩
  · exact ⟨by decide, by simp only [fewRows]; norm_num⟩
  · rw [if_neg (by simp only [fewRows]; norm_num)]
    exact ⟨by simp only [fewRows]; norm_num,
      (if_pos (show fewRows.uniq_build_tbl_keys = true from rfl)).mpr (by decide)⟩

/-- Half the keys are left, and no row draws one. -/
theorem fewRows_obeys : fewRows.Obeys ∧ (fewRows.Obeys → fewRows.Admissible) :=
  ⟨(obeys_iff fewRows (by decide) fewRows_drawn).1 fewRows_admissible,
    (obeys_iff fewRows (by decide) fewRows_drawn).2 fun _ => by decide⟩

/-- The build table holds all the keys. -/
def allKeys : Inputs :=
  { fewRows with
    build_tbl_size := 4
    build_tbl_fits := by decide }

/-- The first row of the build table draws one. -/
def greatestDraw : Inputs :=
  { fewRows with build_draw := fun _ => 1 }

/-- The row after the last one cannot be counted. -/
def lastRow : Inputs :=
  { fewRows with
    build_tbl_size := 2 ^ 31 - 127
    rand_max := 2 ^ 31 - 3
    build_tbl_fits := by decide }

/-- Where no key is left, the probe kernel loads from an empty lottery. A row of the build
table that draws one reads the entry after the last one. A thread that passes the greatest row
writes a negative one. -/
theorem draws_outside :
    ((allKeys.build_tbl_size : Int) ≤ allKeys.rand_max + 1 ∧ allKeys.Drawn ∧ ¬ allKeys.Obeys) ∧
    ((greatestDraw.build_tbl_size : Int) ≤ greatestDraw.rand_max + 1 ∧ greatestDraw.Drawn ∧
      ¬ greatestDraw.Obeys) ∧
    (lastRow.build_tbl_size : Int) ≤ lastRow.rand_max + 1 ∧ lastRow.Drawn ∧ ¬ lastRow.Obeys := by
  have greatest : greatestDraw.Drawn :=
    fun idx => ⟨⟨one_pos, le_rfl⟩, (fewRows_drawn idx).2⟩
  refine ⟨⟨by decide, fewRows_drawn, fun obeys => ?_⟩, ⟨by decide, greatest, fun obeys => ?_⟩,
    by decide, fewRows_drawn, fun obeys => ?_⟩
  · have chosen := (obeys.admissible fewRows_drawn fun _ => by decide).probe (by decide)
      (fun _ => by decide) 0
      ((visits_iff allKeys.some_threads (by decide)).mpr (show 0 < 3 by decide))
    rw [if_neg (by simp only [allKeys, fewRows]; norm_num), KeyLeft,
      if_pos (show allKeys.uniq_build_tbl_keys = true from rfl)] at chosen
    exact absurd chosen.2 (by decide)
  · have drawn := (obeys.begins greatest rfl (by decide) (by decide) (show 0 < 2 by decide)).2
    exact lt_irrefl _ drawn
  · exact absurd (obeys.counted_of_unique fewRows_drawn rfl (by decide) (by decide)) (by decide)

end Inputs

end InputTables

end DistributedJoin
