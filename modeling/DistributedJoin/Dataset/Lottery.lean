import DistributedJoin.Spmd.Interleaving
import Mathlib.Data.Finset.Card
import Mathlib.Data.Finset.Image
import Mathlib.Data.Finset.Range
import Mathlib.Algebra.Order.Ring.Int
import Mathlib.Tactic.Positivity

/-!
# The lottery of keys

The threads of `init_build_tbl` draw the keys of their rows from one lottery. An entry
holds its own index until it is given out and is then marked by `-1`. A thread reads an
entry and marks it with a compare-and-swap; if another thread has been faster, it goes on
to the next entry. The rows of a thread are a stride apart, so a thread that passes the
greatest `size_type` goes on with a negative row.
-/

namespace DistributedJoin

namespace Lottery

open Spmd

/-- A loop variable as a `size_type`, which wraps around. -/
def size_type (size_width idx : Nat) : Int := (idx : Int).bmod (2 ^ size_width)

/-- `idx += stride` -/
theorem size_type_add (size_width idx stride : Nat) :
    size_type size_width (idx + stride) =
      (size_type size_width idx + stride).bmod (2 ^ size_width) := by
  rw [size_type, size_type, Int.natCast_add, Int.bmod_add_bmod]

/-- What fits the type is not changed. -/
theorem size_type_eq
    {size_width idx : Nat}
    (fits : idx < 2 ^ (size_width - 1)) :
    size_type size_width idx = idx := by
  have double : 2 * idx < 2 ^ size_width := by
    cases size_width with
    | zero =>
        have none : idx < 1 := fits
        omega
    | succ width =>
        rw [Nat.add_sub_cancel] at fits
        rw [pow_succ]
        omega
  exact Int.bmod_eq_of_le_mul_two (by omega) (by rw [mul_comm]; exact_mod_cast double)

/-- The number after the greatest one is the least one. -/
theorem size_type_wraps
    {size_width : Nat}
    (wide : 0 < size_width) :
    size_type size_width (2 ^ (size_width - 1)) = -2 ^ (size_width - 1) := by
  obtain ⟨width, rfl⟩ := Nat.exists_eq_succ_of_ne_zero wide.ne'
  have double : (2 : Int) ^ (width + 1) = 2 * 2 ^ width := by rw [pow_succ, mul_comm]
  have positive : (0 : Int) < 2 ^ width := by positivity
  rw [size_type, Int.bmod_def]
  push_cast
  rw [Nat.succ_eq_add_one, double, Int.emod_eq_of_lt (by omega) (by omega), if_neg (by omega)]
  omega

/-- The loop `for (idx = start_idx; idx < size; idx += stride)` comes to a row. -/
def Visits (size_width size stride idx : Nat) : Prop :=
  ∀ earlier, earlier ≤ idx → earlier % stride = idx % stride →
    size_type size_width earlier < size

/-- If the row after the last one can be counted, the threads come to the rows of the
table. -/
theorem visits_iff
    {size_width size stride : Nat}
    (positive : 0 < stride)
    (counted : size + stride ≤ 2 ^ (size_width - 1))
    {idx : Nat} :
    Visits size_width size stride idx ↔ idx < size := by
  constructor
  · intro visits
    by_contra outside
    -- the first row of the same thread outside the table
    have rest := Nat.mod_lt (idx - size) positive
    have parts := Nat.div_add_mod (idx - size) stride
    have first := visits (size + (idx - size) % stride) (by omega) <| by
      rw [← Nat.add_mul_mod_self_left (size + (idx - size) % stride) stride ((idx - size) / stride)]
      congr 1
      omega
    rw [size_type_eq (by omega)] at first
    omega
  · intro inTable earlier atMost _
    rw [size_type_eq (by omega)]
    omega

/-- If it cannot, a thread comes to a negative row. -/
theorem visits_wraps
    {size_width size stride : Nat}
    (wide : 0 < size_width)
    (many : 2 ^ (size_width - 1) < size + stride) :
    Visits size_width size stride (2 ^ (size_width - 1)) := by
  intro earlier atMost own
  rcases atMost.lt_or_eq with less | rfl
  · rw [size_type_eq less]
    have apart : earlier + stride ≤ 2 ^ (size_width - 1) := by
      obtain ⟨distance, sum⟩ := Nat.exists_eq_add_of_lt less
      have multiple := Nat.sub_mod_eq_zero_of_mod_eq own.symm
      rw [show 2 ^ (size_width - 1) - earlier = distance + 1 by omega] at multiple
      have := Nat.le_of_dvd distance.succ_pos (Nat.dvd_of_mod_eq_zero multiple)
      omega
    omega
  · have power : (0 : Int) < 2 ^ (size_width - 1) := by positivity
    rw [size_type_wraps wide]
    omega

/-- One launch of `init_build_tbl` for unique keys. -/
structure Launch where
  size_width : Nat
  num_threads : Nat
  build_tbl_size : Nat
  lottery_size : Nat
  /-- The first index for a row, as it is drawn. -/
  first_idx : Nat → Nat

/-- Where a thread is in its loops. The loop variable is counted on; where it is used, it
is a `size_type`. -/
inductive Thread
  /-- At the head of the loop over the rows. -/
  | drawing (idx : Nat)
  /-- Before the read of an entry. -/
  | reading (idx lottery_idx : Nat)
  /-- Before the compare-and-swap of an entry. -/
  | swapping (idx lottery_idx : Nat) (lottery_val : Int)
  /-- Before the write of a row. -/
  | storing (idx : Nat) (lottery_val : Int)

namespace Thread

/-- The row that a thread is at. -/
def row : Thread → Nat
  | drawing idx => idx
  | reading idx _ => idx
  | swapping idx _ _ => idx
  | storing idx _ => idx

@[simp] theorem row_drawing (idx : Nat) : (drawing idx).row = idx := rfl

/-- The entry of the lottery that a thread accesses next. -/
def entry : Thread → Option Nat
  | drawing _ => none
  | reading _ lottery_idx => some lottery_idx
  | swapping _ lottery_idx _ => some lottery_idx
  | storing _ _ => none

/-- The thread has not got a key for its row yet. -/
def Probing : Thread → Prop
  | drawing _ => False
  | reading _ _ => True
  | swapping _ _ _ => True
  | storing _ _ => False

instance : (thread : Thread) → Decidable thread.Probing
  | drawing _ => .isFalse id
  | reading _ _ => .isTrue trivial
  | swapping _ _ _ => .isTrue trivial
  | storing _ _ => .isFalse id

end Thread

/-- The memory of the device and the threads of the launch. -/
structure State where
  lottery : Nat → Int
  build_tbl : Int → Option Int
  thread : Nat → Thread

namespace State

/-- The threads begin, and the lottery is the sequence of its indices. -/
def start : State where
  lottery := fun lottery_idx => lottery_idx
  build_tbl := fun _ => none
  thread := fun start_idx => .drawing start_idx

/-- A thread goes on. -/
def move (state : State) (start_idx : Nat) (thread : Thread) : State :=
  { state with thread := Function.update state.thread start_idx thread }

@[simp] theorem lottery_move (state : State) (start_idx : Nat) (thread : Thread) :
    (state.move start_idx thread).lottery = state.lottery := rfl

@[simp] theorem build_tbl_move (state : State) (start_idx : Nat) (thread : Thread) :
    (state.move start_idx thread).build_tbl = state.build_tbl := rfl

@[simp] theorem thread_move (state : State) (start_idx : Nat) (thread : Thread) :
    (state.move start_idx thread).thread start_idx = thread := by
  simp [move]

theorem thread_move_of_ne
    (state : State)
    {start_idx other : Nat}
    (different : other ≠ start_idx)
    (thread : Thread) :
    (state.move start_idx thread).thread other = state.thread other := by
  simp [move, different]

end State

/-- Compare an entry of the lottery, swap it if it is equal, and return the old value. -/
def atomicCAS (lottery : Nat → Int) (lottery_idx : Nat) (compare val : Int) : (Nat → Int) × Int :=
  (if lottery lottery_idx = compare then Function.update lottery lottery_idx val else lottery,
    lottery lottery_idx)

/-- An entry that holds the compared value is swapped. -/
theorem atomicCAS_equal
    {lottery : Nat → Int}
    {lottery_idx : Nat}
    {compare : Int}
    (entry : lottery lottery_idx = compare)
    (val : Int) :
    atomicCAS lottery lottery_idx compare val =
      (Function.update lottery lottery_idx val, compare) := by
  rw [atomicCAS, if_pos entry, entry]

/-- An entry that holds another value stays. -/
theorem atomicCAS_different
    {lottery : Nat → Int}
    {lottery_idx : Nat}
    {compare : Int}
    (entry : lottery lottery_idx ≠ compare)
    (val : Int) :
    atomicCAS lottery lottery_idx compare val = (lottery, lottery lottery_idx) := by
  rw [atomicCAS, if_neg entry]

namespace Launch

variable (launch : Launch)

/-- The rows begin to probe at entries of the lottery. -/
def BeginsInside : Prop :=
  ∀ idx, idx < launch.build_tbl_size → launch.first_idx idx < launch.lottery_size

/-- A thread takes its next step. There is none that reads outside the lottery. -/
def step (start_idx : Fin launch.num_threads) (state : State) : Option State :=
  match state.thread start_idx with
  | .drawing idx =>
      if size_type launch.size_width idx < launch.build_tbl_size then
        some (state.move start_idx (.reading idx (launch.first_idx idx)))
      else none
  | .reading idx lottery_idx =>
      if launch.lottery_size ≤ lottery_idx then none
      else if state.lottery lottery_idx = -1 then
        some (state.move start_idx (.reading idx ((lottery_idx + 1) % launch.lottery_size)))
      else
        some (state.move start_idx (.swapping idx lottery_idx (state.lottery lottery_idx)))
  | .swapping idx lottery_idx lottery_val =>
      let (lottery, old) := atomicCAS state.lottery lottery_idx lottery_val (-1)
      if old = -1 then
        some ({ state with lottery := lottery }.move start_idx
          (.reading idx ((lottery_idx + 1) % launch.lottery_size)))
      else some ({ state with lottery := lottery }.move start_idx (.storing idx old))
  | .storing idx lottery_val =>
      some ({ state with
        build_tbl := Function.update state.build_tbl (size_type launch.size_width idx)
          (some lottery_val) }.move start_idx (.drawing (idx + launch.num_threads)))

/-- The rows can be counted, and so can the row that a thread comes to after its last
one. -/
def Counted : Prop :=
  launch.build_tbl_size + launch.num_threads ≤ 2 ^ (launch.size_width - 1)

/-- A thread goes on while no other thread does. -/
def alone (start_idx : Fin launch.num_threads) (_ : Unit) (state : State) : Option State :=
  launch.step start_idx state

/-- A key has been given to a row, which may not have been written yet. -/
def Given (state : State) (idx : Nat) (key : Int) : Prop :=
  state.build_tbl idx = some key ∨
    ∃ start_idx, start_idx < launch.num_threads ∧ state.thread start_idx = .storing idx key

/-- What holds as long as the rows are counted: entries are marked when they are given,
every key is given to one row, and a thread works on its own rows one after the other. -/
structure Fair (state : State) : Prop where
  entries : ∀ lottery_idx, lottery_idx < launch.lottery_size →
    state.lottery lottery_idx = lottery_idx ∨ state.lottery lottery_idx = -1
  given_marked : ∀ idx key, launch.Given state idx key →
    ∃ lottery_idx : Nat, lottery_idx < launch.lottery_size ∧ key = lottery_idx ∧
      state.lottery lottery_idx = -1
  marked_given : ∀ lottery_idx : Nat, lottery_idx < launch.lottery_size →
    state.lottery lottery_idx = -1 → ∃ idx, launch.Given state idx lottery_idx
  distinct : ∀ idx other key, launch.Given state idx key → launch.Given state other key →
    idx = other
  rows : ∀ start_idx, start_idx < launch.num_threads →
    (state.thread start_idx).row % launch.num_threads = start_idx
  fits : ∀ start_idx, start_idx < launch.num_threads →
    (state.thread start_idx).row < 2 ^ (launch.size_width - 1)
  natural : ∀ idx : Int, state.build_tbl idx ≠ none → 0 ≤ idx
  filled : ∀ (idx : Nat) key, state.build_tbl idx = some key → idx < launch.build_tbl_size ∧
    idx < (state.thread (idx % launch.num_threads)).row
  passed : ∀ idx : Nat, idx < launch.build_tbl_size →
    idx < (state.thread (idx % launch.num_threads)).row → state.build_tbl idx ≠ none
  reading : ∀ start_idx, start_idx < launch.num_threads → ∀ idx lottery_idx,
    state.thread start_idx = .reading idx lottery_idx →
      idx < launch.build_tbl_size ∧ lottery_idx < launch.lottery_size
  swapping : ∀ start_idx, start_idx < launch.num_threads → ∀ idx lottery_idx lottery_val,
    state.thread start_idx = .swapping idx lottery_idx lottery_val →
      idx < launch.build_tbl_size ∧ lottery_idx < launch.lottery_size ∧ lottery_val = lottery_idx
  storing : ∀ start_idx, start_idx < launch.num_threads → ∀ idx lottery_val,
    state.thread start_idx = .storing idx lottery_val → idx < launch.build_tbl_size

variable {launch}

theorem fair_start (threads : launch.num_threads ≤ 2 ^ (launch.size_width - 1)) :
    launch.Fair State.start where
  fits := fun _ bound => bound.trans_le threads
  natural := fun _ written => absurd rfl written
  passed := by
    intro idx _ passed
    exact absurd passed (Nat.not_lt.mpr (Nat.mod_le idx _))
  entries := fun _ _ => .inl rfl
  given_marked := by
    rintro idx key (table | ⟨start_idx, _, thread⟩)
    · contradiction
    · contradiction
  marked_given := by
    intro lottery_idx _ marked
    have entry : (lottery_idx : Int) = -1 := marked
    omega
  distinct := by
    rintro idx other key (table | ⟨start_idx, _, thread⟩) _
    · contradiction
    · contradiction
  rows := fun _ bound => Nat.mod_eq_of_lt bound
  filled := fun _ _ table => nomatch table
  reading := fun _ _ _ _ thread => nomatch thread
  swapping := fun _ _ _ _ _ thread => nomatch thread
  storing := fun _ _ _ _ thread => nomatch thread

/-- A thread that stores no key before and after a move changes nothing about the keys
that have been given. -/
theorem given_move
    {state : State}
    {start_idx : Nat}
    {thread : Thread}
    (before : ∀ idx key, state.thread start_idx ≠ .storing idx key)
    (after : ∀ idx key, thread ≠ .storing idx key)
    (idx : Nat)
    (key : Int) :
    launch.Given (state.move start_idx thread) idx key ↔ launch.Given state idx key := by
  refine or_congr Iff.rfl (exists_congr fun other => and_congr_right fun _ => ?_)
  by_cases same : other = start_idx
  · subst same
    rw [State.thread_move]
    exact iff_of_false (after idx key) (before idx key)
  · rw [state.thread_move_of_ne same]

/-- A thread moves on without taking an entry. -/
theorem Fair.move
    {state : State}
    (fair : launch.Fair state)
    {start_idx : Nat}
    {thread : Thread}
    (before : ∀ idx key, state.thread start_idx ≠ .storing idx key)
    (after : ∀ idx key, thread ≠ .storing idx key)
    (row : thread.row = (state.thread start_idx).row)
    (reading : ∀ idx lottery_idx, thread = .reading idx lottery_idx →
      idx < launch.build_tbl_size ∧ lottery_idx < launch.lottery_size)
    (swapping : ∀ idx lottery_idx lottery_val, thread = .swapping idx lottery_idx lottery_val →
      idx < launch.build_tbl_size ∧ lottery_idx < launch.lottery_size ∧
        lottery_val = lottery_idx) :
    launch.Fair (state.move start_idx thread) := by
  have given : ∀ idx key, launch.Given (state.move start_idx thread) idx key ↔
      launch.Given state idx key := given_move before after
  have rows : ∀ other, ((state.move start_idx thread).thread other).row =
      (state.thread other).row := by
    intro other
    by_cases same : other = start_idx
    · subst same
      rw [State.thread_move, row]
    · rw [state.thread_move_of_ne same]
  constructor
  case entries => exact fair.entries
  case given_marked => exact fun idx key had => fair.given_marked idx key ((given idx key).mp had)
  case marked_given =>
    intro lottery_idx inside marked
    obtain ⟨idx, had⟩ := fair.marked_given lottery_idx inside marked
    exact ⟨idx, (given idx _).mpr had⟩
  case distinct =>
    exact fun idx other key first second =>
      fair.distinct idx other key ((given idx key).mp first) ((given other key).mp second)
  case rows => exact fun other bound => (congrArg (· % _) (rows other)).trans (fair.rows other bound)
  case fits => exact fun other bound => (rows other).trans_lt (fair.fits other bound)
  case natural => exact fair.natural
  case filled =>
    intro idx key table
    rw [rows]
    exact fair.filled idx key table
  case passed =>
    intro idx inTable passed
    rw [rows] at passed
    exact fair.passed idx inTable passed
  case reading =>
    intro other bound idx lottery_idx at_entry
    by_cases same : other = start_idx
    · subst same
      rw [State.thread_move] at at_entry
      exact reading idx lottery_idx at_entry
    · rw [state.thread_move_of_ne same] at at_entry
      exact fair.reading other bound idx lottery_idx at_entry
  case swapping =>
    intro other bound idx lottery_idx lottery_val at_entry
    by_cases same : other = start_idx
    · subst same
      rw [State.thread_move] at at_entry
      exact swapping idx lottery_idx lottery_val at_entry
    · rw [state.thread_move_of_ne same] at at_entry
      exact fair.swapping other bound idx lottery_idx lottery_val at_entry
  case storing =>
    intro other bound idx lottery_val holding
    by_cases same : other = start_idx
    · subst same
      rw [State.thread_move] at holding
      exact absurd holding (after idx lottery_val)
    · rw [state.thread_move_of_ne same] at holding
      exact fair.storing other bound idx lottery_val holding

/-- A thread takes an entry that is not marked. -/
theorem Fair.take
    {state : State}
    (fair : launch.Fair state)
    {start_idx idx lottery_idx : Nat}
    (bound : start_idx < launch.num_threads)
    (thread : state.thread start_idx = .swapping idx lottery_idx lottery_idx)
    (entry : state.lottery lottery_idx = lottery_idx) :
    launch.Fair ({ state with
      lottery := Function.update state.lottery lottery_idx (-1) }.move start_idx
        (.storing idx lottery_idx)) := by
  obtain ⟨rowBound, inside, _⟩ := fair.swapping start_idx bound idx lottery_idx lottery_idx thread
  let unmarked : State := { state with
    lottery := Function.update state.lottery lottery_idx (-1) }
  let next := unmarked.move start_idx (.storing idx lottery_idx)
  have elsewhere : ∀ other, other ≠ start_idx → next.thread other = state.thread other :=
    fun other different => unmarked.thread_move_of_ne different _
  have here : next.thread start_idx = .storing idx lottery_idx := unmarked.thread_move _ _
  have rows : ∀ other, (next.thread other).row = (state.thread other).row := by
    intro other
    by_cases same : other = start_idx
    · rw [same, here, thread]
      rfl
    · rw [elsewhere other same]
  have given : ∀ row key, launch.Given next row key ↔
      launch.Given state row key ∨ row = idx ∧ key = lottery_idx := by
    intro row key
    constructor
    · rintro (table | ⟨other, otherBound, holding⟩)
      · exact .inl (.inl table)
      · by_cases same : other = start_idx
        · rw [same, here] at holding
          injection holding with sameRow sameKey
          exact .inr ⟨sameRow.symm, sameKey.symm⟩
        · rw [elsewhere other same] at holding
          exact .inl (.inr ⟨other, otherBound, holding⟩)
    · rintro ((table | ⟨other, otherBound, holding⟩) | ⟨rfl, rfl⟩)
      · exact .inl table
      · have different : other ≠ start_idx := by
          rintro rfl
          rw [thread] at holding
          contradiction
        exact .inr ⟨other, otherBound, (elsewhere other different).trans holding⟩
      · exact .inr ⟨start_idx, bound, here⟩
  -- the entry has not been given before
  have unused : ∀ row, ¬ launch.Given state row lottery_idx := by
    intro row had
    obtain ⟨marked, _, same, value⟩ := fair.given_marked row _ had
    obtain rfl : lottery_idx = marked := by exact_mod_cast same
    rw [entry] at value
    omega
  constructor
  case entries =>
    intro other otherInside
    by_cases same : other = lottery_idx
    · exact .inr (same ▸ Function.update_self ..)
    · exact (fair.entries other otherInside).imp (Function.update_of_ne same _ _).trans
        (Function.update_of_ne same _ _).trans
  case given_marked =>
    intro row key had
    rcases (given row key).mp had with before | ⟨rfl, rfl⟩
    · obtain ⟨other, otherInside, same, value⟩ := fair.given_marked row key before
      have different : other ≠ lottery_idx := by
        rintro rfl
        exact unused row (same ▸ before)
      exact ⟨other, otherInside, same, (Function.update_of_ne different _ _).trans value⟩
    · exact ⟨lottery_idx, inside, rfl, Function.update_self ..⟩
  case marked_given =>
    intro other otherInside marked
    by_cases same : other = lottery_idx
    · exact ⟨idx, (given idx other).mpr (.inr ⟨rfl, congrArg Nat.cast same⟩)⟩
    · obtain ⟨row, had⟩ := fair.marked_given other otherInside
        ((Function.update_of_ne same _ _).symm.trans marked)
      exact ⟨row, (given row other).mpr (.inl had)⟩
  case distinct =>
    intro row other key first second
    rcases (given row key).mp first with before | ⟨rfl, rfl⟩
    · rcases (given other key).mp second with otherBefore | ⟨rfl, rfl⟩
      · exact fair.distinct row other key before otherBefore
      · exact absurd before (unused row)
    · rcases (given other _).mp second with otherBefore | ⟨rfl, _⟩
      · exact absurd otherBefore (unused other)
      · rfl
  case rows =>
    intro other otherBound
    change (next.thread other).row % _ = _
    rw [rows]
    exact fair.rows other otherBound
  case fits => exact fun other otherBound => (rows other).trans_lt (fair.fits other otherBound)
  case natural => exact fair.natural
  case filled =>
    intro row key table
    change _ ∧ row < (next.thread _).row
    rw [rows]
    exact fair.filled row key table
  case passed =>
    intro row inTable passed
    change row < (next.thread _).row at passed
    rw [rows] at passed
    exact fair.passed row inTable passed
  case reading =>
    intro other otherBound row entryIdx at_entry
    by_cases same : other = start_idx
    · rw [same, here] at at_entry
      contradiction
    · rw [elsewhere other same] at at_entry
      exact fair.reading other otherBound row entryIdx at_entry
  case swapping =>
    intro other otherBound row entryIdx lottery_val at_entry
    by_cases same : other = start_idx
    · rw [same, here] at at_entry
      contradiction
    · rw [elsewhere other same] at at_entry
      exact fair.swapping other otherBound row entryIdx lottery_val at_entry
  case storing =>
    intro other otherBound row lottery_val holding
    by_cases same : other = start_idx
    · rw [same, here] at holding
      injection holding with sameRow
      exact sameRow ▸ rowBound
    · rw [elsewhere other same] at holding
      exact fair.storing other otherBound row lottery_val holding

/-- A thread writes its key. -/
theorem Fair.store
    {state : State}
    (fair : launch.Fair state)
    {start_idx idx : Nat}
    {lottery_val : Int}
    (bound : start_idx < launch.num_threads)
    (thread : state.thread start_idx = .storing idx lottery_val)
    (counted : idx + launch.num_threads < 2 ^ (launch.size_width - 1)) :
    launch.Fair ({ state with
      build_tbl := Function.update state.build_tbl (size_type launch.size_width idx)
        (some lottery_val) }.move start_idx (.drawing (idx + launch.num_threads))) := by
  rw [size_type_eq (Nat.lt_of_le_of_lt (Nat.le_add_right _ _) counted)]
  let written : State := { state with
    build_tbl := Function.update state.build_tbl (idx : Int) (some lottery_val) }
  let next := written.move start_idx (.drawing (idx + launch.num_threads))
  have elsewhere : ∀ other, other ≠ start_idx → next.thread other = state.thread other :=
    fun other different => written.thread_move_of_ne different _
  have here : next.thread start_idx = .drawing (idx + launch.num_threads) :=
    written.thread_move _ _
  have own : idx % launch.num_threads = start_idx := by
    have row := fair.rows start_idx bound
    rwa [thread] at row
  have unfilled : ∀ key, state.build_tbl idx ≠ some key := by
    intro key table
    have before := (fair.filled idx key table).2
    rw [own, thread] at before
    exact Nat.lt_irrefl _ before
  have given : ∀ row key, launch.Given next row key ↔ launch.Given state row key := by
    intro row key
    constructor
    · rintro (table | ⟨other, otherBound, holding⟩)
      · by_cases same : row = idx
        · subst same
          have value : Function.update state.build_tbl (row : Int) (some lottery_val) (row : Int) =
              some key := table
          rw [Function.update_self] at value
          exact .inr ⟨start_idx, bound, Option.some.inj value ▸ thread⟩
        · have apart : (row : Int) ≠ idx := Int.ofNat_inj.not.mpr same
          exact .inl ((Function.update_of_ne apart _ _).symm.trans table)
      · have different : other ≠ start_idx := by
          rintro rfl
          rw [here] at holding
          contradiction
        exact .inr ⟨other, otherBound, (elsewhere other different).symm.trans holding⟩
    · rintro (table | ⟨other, otherBound, holding⟩)
      · have different : (row : Int) ≠ idx := fun same => unfilled key (same ▸ table)
        exact .inl ((Function.update_of_ne different _ _).trans table)
      · by_cases same : other = start_idx
        · rw [same, thread] at holding
          injection holding with sameRow sameKey
          subst sameRow sameKey
          exact .inl (Function.update_self ..)
        · exact .inr ⟨other, otherBound, (elsewhere other same).trans holding⟩
  constructor
  case entries => exact fair.entries
  case given_marked =>
    exact fun row key had => fair.given_marked row key ((given row key).mp had)
  case marked_given =>
    intro lottery_idx inside marked
    obtain ⟨row, had⟩ := fair.marked_given lottery_idx inside marked
    exact ⟨row, (given row _).mpr had⟩
  case distinct =>
    exact fun row other key first second =>
      fair.distinct row other key ((given row key).mp first) ((given other key).mp second)
  case rows =>
    intro other otherBound
    by_cases same : other = start_idx
    · rw [same]
      change (next.thread start_idx).row % _ = _
      rw [here]
      exact (Nat.add_mod_right ..).trans own
    · change (next.thread other).row % _ = _
      rw [elsewhere other same]
      exact fair.rows other otherBound
  case fits =>
    intro other otherBound
    by_cases same : other = start_idx
    · rw [same]
      change (next.thread start_idx).row < _
      rw [here]
      exact counted
    · change (next.thread other).row < _
      rw [elsewhere other same]
      exact fair.fits other otherBound
  case natural =>
    intro row table
    by_cases same : row = idx
    · omega
    · exact fair.natural row fun none => table ((Function.update_of_ne same _ _).trans none)
  case filled =>
    intro row key table
    change _ ∧ row < (next.thread _).row
    by_cases same : row = idx
    · rw [same, own, here]
      refine ⟨fair.storing start_idx bound idx lottery_val thread, ?_⟩
      change idx < idx + launch.num_threads
      omega
    · have apart : (row : Int) ≠ idx := Int.ofNat_inj.not.mpr same
      obtain ⟨inTable, before⟩ := fair.filled row key
        ((Function.update_of_ne apart _ _).symm.trans table)
      refine ⟨inTable, ?_⟩
      by_cases mine : row % launch.num_threads = start_idx
      · rw [mine, thread] at before
        rw [mine, here]
        exact Nat.lt_add_right _ before
      · rw [elsewhere _ mine]
        exact before
  case passed =>
    intro row inTable passed
    change row < (next.thread _).row at passed
    change Function.update state.build_tbl (idx : Int) (some lottery_val) (row : Int) ≠ none
    by_cases same : row = idx
    · rw [same, Function.update_self]
      exact Option.some_ne_none _
    · rw [Function.update_of_ne (Int.ofNat_inj.not.mpr same)]
      refine fair.passed row inTable ?_
      by_cases mine : row % launch.num_threads = start_idx
      · -- the rows of a thread are a stride apart
        rw [mine, here] at passed
        rw [mine, thread]
        change row < idx
        change row < idx + launch.num_threads at passed
        by_contra later
        have congruent : row % launch.num_threads = idx % launch.num_threads := mine.trans own.symm
        obtain ⟨rest, rfl⟩ := Nat.exists_eq_add_of_le (Nat.le_of_not_lt later)
        have none := Nat.sub_mod_eq_zero_of_mod_eq congruent
        rw [Nat.add_sub_cancel_left, Nat.mod_eq_of_lt (by omega)] at none
        exact same (by rw [none, Nat.add_zero])
      · rwa [elsewhere _ mine] at passed
  case reading =>
    intro other otherBound row entryIdx at_entry
    by_cases same : other = start_idx
    · rw [same, here] at at_entry
      contradiction
    · rw [elsewhere other same] at at_entry
      exact fair.reading other otherBound row entryIdx at_entry
  case swapping =>
    intro other otherBound row entryIdx value at_entry
    by_cases same : other = start_idx
    · rw [same, here] at at_entry
      contradiction
    · rw [elsewhere other same] at at_entry
      exact fair.swapping other otherBound row entryIdx value at_entry
  case storing =>
    intro other otherBound row value holding
    by_cases same : other = start_idx
    · rw [same, here] at holding
      contradiction
    · rw [elsewhere other same] at holding
      exact fair.storing other otherBound row value holding

/-- A step that begins inside the lottery and does not pass the greatest row keeps the
lottery fair. -/
theorem Fair.step
    {state next : State}
    (fair : launch.Fair state)
    {start_idx : Fin launch.num_threads}
    (begins : ∀ idx, state.thread start_idx = .drawing idx → idx < launch.build_tbl_size →
      launch.first_idx idx < launch.lottery_size)
    (counted : ∀ idx lottery_val, state.thread start_idx = .storing idx lottery_val →
      idx + launch.num_threads < 2 ^ (launch.size_width - 1))
    (taken : launch.step start_idx state = some next) :
    launch.Fair next := by
  have bound := start_idx.isLt
  unfold Launch.step at taken
  cases thread : state.thread start_idx with
  | drawing idx =>
      simp only [thread] at taken
      split at taken
      · rename_i inTable
        have rowBound : idx < launch.build_tbl_size := by
          have fits := fair.fits start_idx bound
          rw [thread, Thread.row_drawing] at fits
          rw [size_type_eq fits] at inTable
          exact_mod_cast inTable
        obtain rfl := Option.some.inj taken
        refine fair.move (fun _ _ => thread ▸ Thread.noConfusion) (fun _ _ => Thread.noConfusion)
          (congrArg Thread.row thread).symm ?_ fun _ _ _ => Thread.noConfusion
        intro row lottery_idx same
        injection same with sameRow sameIdx
        subst sameRow sameIdx
        exact ⟨rowBound, begins idx thread rowBound⟩
      · contradiction
  | reading idx lottery_idx =>
      obtain ⟨rowBound, inside⟩ := fair.reading start_idx bound idx lottery_idx thread
      simp only [thread, if_neg (Nat.not_le.mpr inside)] at taken
      split at taken
      · obtain rfl := Option.some.inj taken
        refine fair.move (fun _ _ => thread ▸ Thread.noConfusion) (fun _ _ => Thread.noConfusion)
          (congrArg Thread.row thread).symm ?_ fun _ _ _ => Thread.noConfusion
        intro row other same
        injection same with sameRow sameIdx
        subst sameRow sameIdx
        exact ⟨rowBound, Nat.mod_lt _ (Nat.zero_lt_of_lt inside)⟩
      · rename_i unmarked
        obtain rfl := Option.some.inj taken
        refine fair.move (fun _ _ => thread ▸ Thread.noConfusion) (fun _ _ => Thread.noConfusion)
          (congrArg Thread.row thread).symm (fun _ _ => Thread.noConfusion) ?_
        intro row other value same
        injection same with sameRow sameIdx sameValue
        subst sameRow sameIdx sameValue
        exact ⟨rowBound, inside, (fair.entries lottery_idx inside).resolve_right unmarked⟩
  | swapping idx lottery_idx lottery_val =>
      obtain ⟨rowBound, inside, value⟩ :=
        fair.swapping start_idx bound idx lottery_idx lottery_val thread
      subst value
      simp only [thread] at taken
      rcases fair.entries lottery_idx inside with entry | entry
      · simp only [atomicCAS_equal entry] at taken
        rw [if_neg (by omega)] at taken
        obtain rfl := Option.some.inj taken
        exact fair.take bound thread entry
      · -- another thread has been faster
        have different : state.lottery lottery_idx ≠ (lottery_idx : Int) := by omega
        simp only [atomicCAS_different different] at taken
        rw [if_pos entry] at taken
        obtain rfl := Option.some.inj taken
        refine fair.move (fun _ _ => thread ▸ Thread.noConfusion) (fun _ _ => Thread.noConfusion)
          (congrArg Thread.row thread).symm ?_ fun _ _ _ => Thread.noConfusion
        intro row other same
        injection same with sameRow sameIdx
        subst sameRow sameIdx
        exact ⟨rowBound, Nat.mod_lt _ (Nat.zero_lt_of_lt inside)⟩
  | storing idx lottery_val =>
      simp only [thread] at taken
      obtain rfl := Option.some.inj taken
      exact fair.store bound thread (counted idx lottery_val thread)

/-- The lottery is fair in every state if the rows can be counted. -/
theorem fair_of_reaches
    (counted : launch.Counted)
    (begins : launch.BeginsInside)
    {state : State}
    (reached : Reaches launch.step State.start state) :
    launch.Fair state := by
  unfold Counted at counted
  refine reached.invariant (fair_start (by omega)) fun start_idx _ _ fair taken => ?_
  refine fair.step (fun idx _ => begins idx) (fun idx lottery_val holding => ?_) taken
  have := fair.storing start_idx start_idx.isLt idx lottery_val holding
  omega

/-- A thread that holds a key or probes for one has not written its row. -/
theorem Fair.unfilled
    {state : State}
    (fair : launch.Fair state)
    {start_idx : Nat}
    (bound : start_idx < launch.num_threads)
    (key : Int) :
    state.build_tbl (state.thread start_idx).row ≠ some key := by
  intro table
  have before := (fair.filled _ key table).2
  rw [fair.rows start_idx bound] at before
  exact Nat.lt_irrefl _ before

/-- A row that has a key is a row of the table. -/
theorem Fair.given_lt
    {state : State}
    (fair : launch.Fair state)
    {idx : Nat}
    {key : Int}
    (had : launch.Given state idx key) :
    idx < launch.build_tbl_size := by
  rcases had with table | ⟨start_idx, bound, holding⟩
  · exact (fair.filled idx key table).1
  · exact fair.storing start_idx bound idx key holding

/-- A row is given one key only. -/
theorem Fair.given_unique
    {state : State}
    (fair : launch.Fair state)
    {idx : Nat}
    {first second : Int}
    (had : launch.Given state idx first)
    (also : launch.Given state idx second) :
    first = second := by
  have apart : ∀ {one two : Int}, state.build_tbl idx = some one → ∀ start_idx,
      start_idx < launch.num_threads → state.thread start_idx ≠ .storing idx two := by
    intro one two table start_idx bound holding
    have unfilled := fair.unfilled bound one
    rw [holding] at unfilled
    exact unfilled table
  rcases had with table | ⟨start_idx, bound, holding⟩
  · rcases also with other | ⟨start_idx, bound, holding⟩
    · exact Option.some.inj (table.symm.trans other)
    · exact absurd holding (apart table start_idx bound)
  · rcases also with other | ⟨second_idx, secondBound, secondHolding⟩
    · exact absurd holding (apart other start_idx bound)
    · have row := fair.rows start_idx bound
      have secondRow := fair.rows second_idx secondBound
      rw [holding] at row
      rw [secondHolding] at secondRow
      obtain rfl : start_idx = second_idx := row.symm.trans secondRow
      rw [holding] at secondHolding
      injection secondHolding

/-- The row of a thread that probes has not been given a key. -/
theorem Fair.not_given_of_probing
    {state : State}
    (fair : launch.Fair state)
    {start_idx : Nat}
    (bound : start_idx < launch.num_threads)
    (probing : (state.thread start_idx).Probing)
    (key : Int) :
    ¬ launch.Given state (state.thread start_idx).row key := by
  rintro (table | ⟨other, otherBound, holding⟩)
  · exact fair.unfilled bound key table
  · have row := fair.rows other otherBound
    rw [holding] at row
    obtain rfl : other = start_idx := row.symm.trans (fair.rows start_idx bound)
    rw [holding] at probing
    exact probing

/-- The row that a thread comes to has not been given a key. -/
theorem Fair.not_given_of_drawing
    {state : State}
    (fair : launch.Fair state)
    {start_idx idx : Nat}
    (bound : start_idx < launch.num_threads)
    (thread : state.thread start_idx = .drawing idx)
    (key : Int) :
    ¬ launch.Given state idx key := by
  rintro (table | ⟨other, otherBound, holding⟩)
  · have unfilled := fair.unfilled bound key
    rw [thread] at unfilled
    exact unfilled table
  · have row := fair.rows other otherBound
    have own := fair.rows start_idx bound
    rw [holding] at row
    rw [thread] at own
    obtain rfl : other = start_idx := row.symm.trans own
    rw [thread] at holding
    contradiction

/-- As long as a row has no key there is an entry left: fewer entries are marked than there
are rows. -/
theorem Fair.unmarked_of_not_given
    {state : State}
    (fair : launch.Fair state)
    (enough : launch.build_tbl_size ≤ launch.lottery_size)
    {missing : Nat}
    (inTable : missing < launch.build_tbl_size)
    (notGiven : ∀ key, ¬ launch.Given state missing key) :
    ∃ lottery_idx, lottery_idx < launch.lottery_size ∧ state.lottery lottery_idx ≠ -1 := by
  by_contra none
  push Not at none
  have given : ∀ lottery_idx : Nat, ∃ idx, lottery_idx < launch.lottery_size →
      launch.Given state idx lottery_idx := by
    intro lottery_idx
    by_cases inside : lottery_idx < launch.lottery_size
    · obtain ⟨idx, had⟩ := fair.marked_given lottery_idx inside (none lottery_idx inside)
      exact ⟨idx, fun _ => had⟩
    · exact ⟨0, fun hyp => absurd hyp inside⟩
  choose row had using given
  -- the rows of the marked entries are different rows, and none of them is the row in question
  have card : (Finset.range launch.lottery_size).card ≤
      ((Finset.range launch.build_tbl_size).erase missing).card := by
    refine Finset.card_le_card_of_injOn row (fun lottery_idx inside => ?_)
      fun first firstIn second secondIn same => ?_
    · have bounded := Finset.mem_range.mp (Finset.mem_coe.mp inside)
      refine Finset.mem_erase.mpr ⟨fun same => ?_,
        Finset.mem_range.mpr (fair.given_lt (had lottery_idx bounded))⟩
      exact notGiven _ (same ▸ had lottery_idx bounded)
    · have firstHad := had first (Finset.mem_range.mp (Finset.mem_coe.mp firstIn))
      have secondHad := had second (Finset.mem_range.mp (Finset.mem_coe.mp secondIn))
      rw [← same] at secondHad
      exact_mod_cast fair.given_unique firstHad secondHad
  rw [Finset.card_range, Finset.card_erase_of_mem (Finset.mem_range.mpr inTable),
    Finset.card_range] at card
  omega

/-- Rows that all have keys use up a lottery that has not more entries. -/
theorem Fair.marked_of_given
    {state : State}
    (fair : launch.Fair state)
    (most : launch.lottery_size ≤ launch.build_tbl_size)
    (given : ∀ idx, idx < launch.build_tbl_size → ∃ key, launch.Given state idx key)
    {lottery_idx : Nat}
    (inside : lottery_idx < launch.lottery_size) :
    state.lottery lottery_idx = -1 := by
  by_contra unmarked
  have entries : ∀ idx : Nat, ∃ entry : Nat, idx < launch.build_tbl_size →
      entry < launch.lottery_size ∧ launch.Given state idx entry ∧ state.lottery entry = -1 := by
    intro idx
    by_cases inTable : idx < launch.build_tbl_size
    · obtain ⟨key, had⟩ := given idx inTable
      obtain ⟨entry, entryInside, rfl, marked⟩ := fair.given_marked idx key had
      exact ⟨entry, fun _ => ⟨entryInside, had, marked⟩⟩
    · exact ⟨0, fun hyp => absurd hyp inTable⟩
  choose entry had using entries
  -- the keys of the rows are different entries, and none of them is the entry in question
  have card : (Finset.range launch.build_tbl_size).card ≤
      ((Finset.range launch.lottery_size).erase lottery_idx).card := by
    refine Finset.card_le_card_of_injOn entry (fun idx inTable => ?_)
      fun first firstIn second secondIn same => ?_
    · obtain ⟨entryInside, _, marked⟩ := had idx (Finset.mem_range.mp (Finset.mem_coe.mp inTable))
      exact Finset.mem_erase.mpr ⟨fun same => unmarked (same ▸ marked),
        Finset.mem_range.mpr entryInside⟩
    · have firstHad := (had first (Finset.mem_range.mp (Finset.mem_coe.mp firstIn))).2.1
      have secondHad := (had second (Finset.mem_range.mp (Finset.mem_coe.mp secondIn))).2.1
      rw [← same] at secondHad
      exact fair.distinct first second _ firstHad secondHad
  rw [Finset.card_range, Finset.card_erase_of_mem (Finset.mem_range.mpr inside),
    Finset.card_range] at card
  omega

/-- A thread goes on until it has a key, while no other thread does. -/
def probe (launch : Launch) (start_idx : Fin launch.num_threads) (_ : Unit) (state : State) :
    Option State :=
  if (state.thread start_idx).Probing then launch.step start_idx state else none

/-- A thread that reads an entry that is not marked takes it, if no other thread comes
between. -/
theorem reaches_storing_of_unmarked
    {state : State}
    {start_idx : Fin launch.num_threads}
    {idx lottery_idx : Nat}
    (thread : state.thread start_idx = .reading idx lottery_idx)
    (inside : lottery_idx < launch.lottery_size)
    (unmarked : state.lottery lottery_idx ≠ -1) :
    ∃ finish lottery_val, Reaches (launch.probe start_idx) state finish ∧
      finish.thread start_idx = .storing idx lottery_val := by
  let next := state.move start_idx (.swapping idx lottery_idx (state.lottery lottery_idx))
  have read : launch.probe start_idx () state = some next := by
    simp only [probe, step, thread, if_neg (Nat.not_le.mpr inside),
      if_neg unmarked]
    rfl
  have here : next.thread start_idx = .swapping idx lottery_idx (state.lottery lottery_idx) :=
    state.thread_move _ _
  let swapped : State := { next with lottery := Function.update state.lottery lottery_idx (-1) }
  have swap : launch.probe start_idx () next =
      some (swapped.move start_idx (.storing idx (state.lottery lottery_idx))) := by
    have entry : next.lottery lottery_idx = state.lottery lottery_idx := rfl
    simp only [probe, step, here, atomicCAS_equal entry, if_neg unmarked]
    rfl
  exact ⟨_, _, ⟨2, .head read (.single swap)⟩, swapped.thread_move _ _⟩

/-- A thread that runs alone goes from entry to entry up to one that is not marked, and
takes it. -/
theorem reaches_storing_of_reading
    (start_idx : Fin launch.num_threads)
    (idx distance : Nat) :
    ∀ {state : State} {lottery_idx : Nat},
      state.thread start_idx = .reading idx lottery_idx →
      lottery_idx < launch.lottery_size →
      state.lottery ((lottery_idx + distance) % launch.lottery_size) ≠ -1 →
      ∃ finish lottery_val, Reaches (launch.probe start_idx) state finish ∧
        finish.thread start_idx = .storing idx lottery_val := by
  induction distance with
  | zero =>
      intro state lottery_idx thread inside unmarked
      rw [Nat.add_zero, Nat.mod_eq_of_lt inside] at unmarked
      exact reaches_storing_of_unmarked thread inside unmarked
  | succ distance inductionHypothesis =>
      intro state lottery_idx thread inside unmarked
      by_cases marked : state.lottery lottery_idx = -1
      · have taken : launch.probe start_idx () state = some (state.move start_idx
            (.reading idx ((lottery_idx + 1) % launch.lottery_size))) := by
          simp only [probe, step, thread, if_neg (Nat.not_le.mpr inside),
            if_pos marked]
          rfl
        have further : state.lottery (((lottery_idx + 1) % launch.lottery_size + distance) %
            launch.lottery_size) ≠ -1 := by
          rwa [Nat.mod_add_mod, Nat.add_assoc, Nat.add_comm 1 distance]
        obtain ⟨finish, lottery_val, ⟨length, run⟩, holding⟩ := inductionHypothesis
          (state.thread_move _ _) (Nat.mod_lt _ (Nat.zero_lt_of_lt inside)) further
        exact ⟨finish, lottery_val, ⟨length + 1, .head taken run⟩, holding⟩
      · exact reaches_storing_of_unmarked thread inside marked

/-- The entries of a lottery are reached from each other around its end. -/
theorem distance_mod
    {lottery_idx other : Nat}
    (inside : lottery_idx < launch.lottery_size)
    (otherInside : other < launch.lottery_size) :
    (lottery_idx + (launch.lottery_size - lottery_idx + other)) % launch.lottery_size = other := by
  have sum : lottery_idx + (launch.lottery_size - lottery_idx + other) =
      launch.lottery_size + other := by omega
  rw [sum, Nat.add_mod_left, Nat.mod_eq_of_lt otherInside]

/-- A thread that probes and runs alone gets a key. -/
theorem Fair.reaches_storing
    {state : State}
    (fair : launch.Fair state)
    (start_idx : Fin launch.num_threads)
    (probing : (state.thread start_idx).Probing)
    {unmarked_idx : Nat}
    (unmarkedInside : unmarked_idx < launch.lottery_size)
    (unmarked : state.lottery unmarked_idx ≠ -1) :
    ∃ finish lottery_val, Reaches (launch.probe start_idx) state finish ∧
      finish.thread start_idx = .storing (state.thread start_idx).row lottery_val := by
  cases thread : state.thread start_idx with
  | drawing idx =>
      rw [thread] at probing
      contradiction
  | reading idx lottery_idx =>
      have inside := (fair.reading start_idx start_idx.isLt idx lottery_idx thread).2
      obtain ⟨finish, lottery_val, reaches, holding⟩ := reaches_storing_of_reading start_idx idx _
        thread inside (distance_mod inside unmarkedInside ▸ unmarked)
      exact ⟨finish, lottery_val, reaches, holding⟩
  | swapping idx lottery_idx lottery_val =>
      obtain ⟨_, inside, rfl⟩ :=
        fair.swapping start_idx start_idx.isLt idx lottery_idx lottery_val thread
      rcases fair.entries lottery_idx inside with entry | entry
      · let swapped : State := { state with
          lottery := Function.update state.lottery lottery_idx (-1) }
        have taken : launch.probe start_idx () state =
            some (swapped.move start_idx (.storing idx lottery_idx)) := by
          have probes : (Thread.swapping idx lottery_idx lottery_idx).Probing := trivial
          simp only [probe, Launch.step, thread, atomicCAS_equal entry, if_pos probes]
          rw [if_neg (by omega)]
        exact ⟨_, lottery_idx, ⟨1, .single taken⟩, swapped.thread_move _ _⟩
      · let next := (lottery_idx + 1) % launch.lottery_size
        have nextInside : next < launch.lottery_size := Nat.mod_lt _ (Nat.zero_lt_of_lt inside)
        have taken : launch.probe start_idx () state =
            some (state.move start_idx (.reading idx next)) := by
          have different : state.lottery lottery_idx ≠ (lottery_idx : Int) := by omega
          simp only [probe, Launch.step, thread, atomicCAS_different different,
            if_pos entry]
          rfl
        obtain ⟨finish, value, ⟨length, run⟩, holding⟩ := reaches_storing_of_reading start_idx idx _
          (state.thread_move _ _) nextInside (distance_mod nextInside unmarkedInside ▸ unmarked)
        exact ⟨finish, value, ⟨length + 1, .head taken run⟩, holding⟩
  | storing idx lottery_val =>
      rw [thread] at probing
      contradiction

/-- A thread that probes works on a row of the table. -/
theorem Fair.row_lt_of_probing
    {state : State}
    (fair : launch.Fair state)
    {start_idx : Nat}
    (bound : start_idx < launch.num_threads)
    (probing : (state.thread start_idx).Probing) :
    (state.thread start_idx).row < launch.build_tbl_size := by
  cases thread : state.thread start_idx with
  | drawing idx =>
      rw [thread] at probing
      contradiction
  | reading idx lottery_idx => exact (fair.reading start_idx bound idx lottery_idx thread).1
  | swapping idx lottery_idx lottery_val =>
      exact (fair.swapping start_idx bound idx lottery_idx lottery_val thread).1
  | storing idx lottery_val =>
      rw [thread] at probing
      contradiction

/-- While a thread probes there is an entry left. -/
theorem Fair.unmarked_of_probing
    {state : State}
    (fair : launch.Fair state)
    (enough : launch.build_tbl_size ≤ launch.lottery_size)
    {start_idx : Nat}
    (bound : start_idx < launch.num_threads)
    (probing : (state.thread start_idx).Probing) :
    ∃ lottery_idx, lottery_idx < launch.lottery_size ∧ state.lottery lottery_idx ≠ -1 :=
  fair.unmarked_of_not_given enough (fair.row_lt_of_probing bound probing)
    (fair.not_given_of_probing bound probing)

/-- What a thread reaches until it has a key, it reaches alone. -/
theorem alone_of_probe
    {start_idx : Fin launch.num_threads}
    {state finish : State}
    (reached : Reaches (launch.probe start_idx) state finish) :
    Reaches (launch.alone start_idx) state finish := by
  refine reached.lift (Reaches (launch.alone start_idx)) .refl (fun _ _ _ => .trans)
    fun _ before after taken => ?_
  unfold probe at taken
  split at taken
  · exact .single (show launch.alone start_idx () before = some after from taken)
  · contradiction

/-- What a thread reaches alone, the launch reaches. -/
theorem reaches_of_alone
    {start_idx : Fin launch.num_threads}
    {state finish : State}
    (reached : Reaches (launch.alone start_idx) state finish) :
    Reaches launch.step state finish :=
  reached.lift (Reaches launch.step) Reaches.refl (fun _ _ _ => Reaches.trans)
    fun _ _ _ taken => Reaches.single (show launch.step start_idx _ = some _ from taken)

/-- The other threads stay where they are. -/
theorem thread_of_step
    {start_idx : Fin launch.num_threads}
    {state next : State}
    (taken : launch.step start_idx state = some next)
    {other : Nat}
    (different : other ≠ start_idx) :
    next.thread other = state.thread other := by
  unfold step at taken
  cases thread : state.thread start_idx with
  | drawing idx =>
      simp only [thread] at taken
      split at taken
      · obtain rfl := Option.some.inj taken
        exact state.thread_move_of_ne different _
      · contradiction
  | reading idx lottery_idx =>
      simp only [thread] at taken
      split at taken
      · contradiction
      · split at taken
        · obtain rfl := Option.some.inj taken
          exact state.thread_move_of_ne different _
        · obtain rfl := Option.some.inj taken
          exact state.thread_move_of_ne different _
  | swapping idx lottery_idx lottery_val =>
      simp only [thread] at taken
      split at taken
      · obtain rfl := Option.some.inj taken
        exact State.thread_move_of_ne _ different _
      · obtain rfl := Option.some.inj taken
        exact State.thread_move_of_ne _ different _
  | storing idx lottery_val =>
      simp only [thread] at taken
      obtain rfl := Option.some.inj taken
      exact State.thread_move_of_ne _ different _

/-- While a thread probes alone, the lottery stays fair and the other threads stay where
they are. -/
theorem Fair.probes
    {state finish : State}
    (fair : launch.Fair state)
    {start_idx : Fin launch.num_threads}
    (reached : Reaches (launch.probe start_idx) state finish) :
    launch.Fair finish ∧
      ∀ other, other ≠ (start_idx : Nat) → finish.thread other = state.thread other := by
  refine @Reaches.invariant _ _ _ (fun later => launch.Fair later ∧
    ∀ other, other ≠ (start_idx : Nat) → later.thread other = state.thread other) _ _ reached
      ⟨fair, fun _ _ => rfl⟩ ?_
  rintro _ before after ⟨kept, same⟩ taken
  unfold probe at taken
  split at taken
  · rename_i probing
    refine ⟨kept.step (fun idx drawing => ?_) (fun idx lottery_val storing => ?_) taken,
      fun other different => (thread_of_step taken different).trans (same other different)⟩
    · rw [drawing] at probing
      contradiction
    · rw [storing] at probing
      contradiction
  · contradiction

/-- A thread that comes to a row of the table gets a key for it, if the other threads
wait. -/
theorem Fair.gets_key
    {state : State}
    (fair : launch.Fair state)
    (enough : launch.build_tbl_size ≤ launch.lottery_size)
    {start_idx idx : Nat}
    (bound : start_idx < launch.num_threads)
    (thread : state.thread start_idx = .drawing idx)
    (inTable : idx < launch.build_tbl_size)
    (begins : launch.first_idx idx < launch.lottery_size) :
    ∃ finish lottery_val, Reaches launch.step state finish ∧ launch.Fair finish ∧
      finish.thread start_idx = .storing idx lottery_val ∧
      ∀ other, other ≠ start_idx → finish.thread other = state.thread other := by
  have fits := fair.fits start_idx bound
  rw [thread, Thread.row_drawing] at fits
  let probing := state.move start_idx (.reading idx (launch.first_idx idx))
  have drawn : launch.step ⟨start_idx, bound⟩ state = some probing := by
    simp only [Launch.step, thread, size_type_eq fits]
    rw [if_pos (by exact_mod_cast inTable)]
  have fairDrawn : launch.Fair probing := by
    refine fair.step (fun row drawing _ => ?_) (fun row lottery_val storing => ?_) drawn
    · rw [thread] at drawing
      injection drawing with same
      exact same ▸ begins
    · rw [thread] at storing
      contradiction
  have here : probing.thread start_idx = .reading idx (launch.first_idx idx) :=
    state.thread_move _ _
  have probes : (probing.thread start_idx).Probing := by
    rw [here]
    trivial
  obtain ⟨left, leftInside, unmarked⟩ := fairDrawn.unmarked_of_probing enough bound probes
  obtain ⟨finish, lottery_val, reached, holding⟩ :=
    fairDrawn.reaches_storing ⟨start_idx, bound⟩ probes leftInside unmarked
  change finish.thread start_idx = .storing (probing.thread start_idx).row lottery_val at holding
  rw [here] at holding
  obtain ⟨fairFinish, same⟩ := fairDrawn.probes reached
  exact ⟨finish, lottery_val,
    (Reaches.single drawn).trans (reaches_of_alone (alone_of_probe reached)), fairFinish, holding,
    fun other different => (same other different).trans (state.thread_move_of_ne different _)⟩

/-- A thread that comes to a row of the table comes to its next row, if the other threads
wait. -/
theorem Fair.advances
    {state : State}
    (fair : launch.Fair state)
    (enough : launch.build_tbl_size ≤ launch.lottery_size)
    {start_idx idx : Nat}
    (bound : start_idx < launch.num_threads)
    (thread : state.thread start_idx = .drawing idx)
    (inTable : idx < launch.build_tbl_size)
    (begins : launch.first_idx idx < launch.lottery_size)
    (counted : idx + launch.num_threads < 2 ^ (launch.size_width - 1)) :
    ∃ finish, Reaches launch.step state finish ∧ launch.Fair finish ∧
      finish.thread start_idx = .drawing (idx + launch.num_threads) ∧
      ∀ other, other ≠ start_idx → finish.thread other = state.thread other := by
  obtain ⟨taken, lottery_val, reached, fairTaken, holding, same⟩ :=
    fair.gets_key enough bound thread inTable begins
  have stored : launch.step ⟨start_idx, bound⟩ taken = some ({ taken with
      build_tbl := Function.update taken.build_tbl (size_type launch.size_width idx)
        (some lottery_val) }.move start_idx (.drawing (idx + launch.num_threads))) := by
    simp only [Launch.step, holding]
  refine ⟨_, reached.trans (.single stored), fairTaken.store bound holding counted,
    State.thread_move _ _ _, fun other different => ?_⟩
  rw [State.thread_move_of_ne _ different]
  exact same other different

/-- A thread comes to any of its rows, if the other threads wait. -/
theorem exists_alone
    (enough : launch.build_tbl_size ≤ launch.lottery_size)
    {idx : Nat}
    (fits : idx < 2 ^ (launch.size_width - 1))
    (threads : launch.num_threads ≤ 2 ^ (launch.size_width - 1))
    (positive : 0 < launch.num_threads)
    (before : ∀ row, row + launch.num_threads ≤ idx → row < launch.build_tbl_size ∧
      launch.first_idx row < launch.lottery_size) :
    ∃ state, Reaches launch.step State.start state ∧ launch.Fair state ∧
      state.thread (idx % launch.num_threads) = .drawing idx ∧
      ∀ other, other ≠ idx % launch.num_threads → state.thread other = .drawing other := by
  induction idx using Nat.strongRecOn with
  | ind idx inductionHypothesis =>
      rcases Nat.lt_or_ge idx launch.num_threads with first | later
      · exact ⟨State.start, .refl _, fair_start threads,
          congrArg Thread.drawing (Nat.mod_eq_of_lt first), fun _ _ => rfl⟩
      · obtain ⟨row, rfl⟩ := Nat.exists_eq_add_of_le' later
        obtain ⟨inTable, begins⟩ := before row le_rfl
        obtain ⟨state, reached, fair, thread, others⟩ := inductionHypothesis row (by omega)
          (by omega) fun earlier less => before earlier (by omega)
        obtain ⟨finish, further, fairFinish, arrived, same⟩ := fair.advances enough
          (Nat.mod_lt row positive) thread inTable begins fits
        rw [Nat.add_mod_right]
        exact ⟨finish, reached.trans further, fairFinish, arrived,
          fun other different => (same other different).trans (others other different)⟩

/-- The rows of a thread are a stride apart. -/
theorem Fair.row_eq
    {state : State}
    (fair : launch.Fair state)
    {row idx : Nat}
    (positive : 0 < launch.num_threads)
    (thread : state.thread (row % launch.num_threads) = .drawing idx)
    (least : row ≤ idx)
    (most : idx < row + launch.num_threads) :
    idx = row := by
  have own := fair.rows _ (Nat.mod_lt row positive)
  rw [thread, Thread.row_drawing] at own
  obtain ⟨rest, rfl⟩ := Nat.exists_eq_add_of_le least
  have none := Nat.sub_mod_eq_zero_of_mod_eq own
  rw [Nat.add_sub_cancel_left, Nat.mod_eq_of_lt (by omega)] at none
  omega

/-- The threads can take the rows one after the other. -/
theorem exists_in_order
    (enough : launch.build_tbl_size ≤ launch.lottery_size)
    (positive : 0 < launch.num_threads)
    (begins : launch.BeginsInside)
    {rows : Nat}
    (inTable : rows ≤ launch.build_tbl_size)
    (counted : rows + launch.num_threads ≤ 2 ^ (launch.size_width - 1)) :
    ∃ state, Reaches launch.step State.start state ∧ launch.Fair state ∧
      ∀ start_idx, start_idx < launch.num_threads →
        ∃ idx, state.thread start_idx = .drawing idx ∧ rows ≤ idx ∧
          idx < rows + launch.num_threads := by
  induction rows with
  | zero =>
      exact ⟨State.start, .refl _, fair_start (by omega), fun start_idx bound =>
        ⟨start_idx, rfl, Nat.zero_le _, by omega⟩⟩
  | succ row inductionHypothesis =>
      obtain ⟨state, reached, fair, threads⟩ := inductionHypothesis (by omega) (by omega)
      have next := Nat.mod_lt row positive
      obtain ⟨idx, thread, least, most⟩ := threads _ next
      obtain rfl := fair.row_eq positive thread least most
      obtain ⟨finish, further, fairFinish, arrived, same⟩ := fair.advances enough next thread
        (by omega) (begins idx (by omega)) (by omega)
      refine ⟨finish, reached.trans further, fairFinish, fun start_idx bound => ?_⟩
      by_cases moved : start_idx = idx % launch.num_threads
      · exact ⟨_, moved ▸ arrived, by omega, by omega⟩
      · obtain ⟨other, waiting, otherLeast, otherMost⟩ := threads start_idx bound
        refine ⟨other, (same start_idx moved).trans waiting, ?_, by omega⟩
        have different : other ≠ idx := by
          rintro rfl
          have own := fair.rows start_idx bound
          rw [waiting] at own
          exact moved own.symm
        omega

/-- All threads have left the loop over the rows. -/
def Finished (launch : Launch) (state : State) : Prop :=
  ∀ start_idx, start_idx < launch.num_threads →
    ∃ idx, state.thread start_idx = .drawing idx ∧
      launch.build_tbl_size ≤ size_type launch.size_width idx

/-- A finished launch has written every row. -/
theorem Fair.filled_of_finished
    {state : State}
    (fair : launch.Fair state)
    (threads : 0 < launch.num_threads)
    (finished : launch.Finished state)
    {idx : Nat}
    (inTable : idx < launch.build_tbl_size) :
    ∃ key, state.build_tbl idx = some key := by
  obtain ⟨last, thread, outside⟩ := finished _ (Nat.mod_lt idx threads)
  have fits := fair.fits _ (Nat.mod_lt idx threads)
  rw [thread, Thread.row_drawing] at fits
  rw [size_type_eq fits] at outside
  refine Option.ne_none_iff_exists'.mp (fair.passed idx inTable ?_)
  rw [thread]
  change idx < last
  omega

/-- The threads get through all the rows. -/
theorem exists_finished
    (counted : launch.Counted)
    (positive : 0 < launch.num_threads)
    (enough : launch.build_tbl_size ≤ launch.lottery_size)
    (begins : launch.BeginsInside) :
    ∃ state, Reaches launch.step State.start state ∧ launch.Finished state := by
  obtain ⟨state, reached, fair, threads⟩ :=
    exists_in_order enough positive begins le_rfl counted
  refine ⟨state, reached, fun start_idx bound => ?_⟩
  obtain ⟨idx, thread, outside, _⟩ := threads start_idx bound
  have fits := fair.fits start_idx bound
  rw [thread, Thread.row_drawing] at fits
  exact ⟨idx, thread, by rw [size_type_eq fits]; exact_mod_cast outside⟩

/-- A thread whose next row cannot be counted goes on with a negative one. -/
theorem wraps_around
    (wide : 0 < launch.size_width)
    {state : State}
    {start_idx idx : Nat}
    {lottery_val : Int}
    (bound : start_idx < launch.num_threads)
    (holding : state.thread start_idx = .storing idx lottery_val)
    (passed : idx + launch.num_threads = 2 ^ (launch.size_width - 1)) :
    ∃ finish, Reaches launch.step state finish ∧ finish.lottery = state.lottery ∧
      finish.thread start_idx =
        .reading (idx + launch.num_threads) (launch.first_idx (idx + launch.num_threads)) := by
  let written : State := { state with
    build_tbl := Function.update state.build_tbl (size_type launch.size_width idx)
      (some lottery_val) }
  let wrapped := written.move start_idx (.drawing (idx + launch.num_threads))
  have stored : launch.step ⟨start_idx, bound⟩ state = some wrapped := by
    simp only [step, holding]
    rfl
  have here : wrapped.thread start_idx = .drawing (idx + launch.num_threads) :=
    written.thread_move _ _
  have negative : size_type launch.size_width (idx + launch.num_threads) <
      launch.build_tbl_size := by
    have power : (0 : Int) < 2 ^ (launch.size_width - 1) := by positivity
    rw [passed, size_type_wraps wide]
    omega
  have drawn : launch.step ⟨start_idx, bound⟩ wrapped = some (wrapped.move start_idx
      (.reading (idx + launch.num_threads) (launch.first_idx (idx + launch.num_threads)))) := by
    simp only [step, here, if_pos negative]
  exact ⟨_, (Reaches.single stored).trans (.single drawn), rfl, wrapped.thread_move _ _⟩

/-- If the last row has no successor, the lottery can be used up while a thread probes. -/
theorem exists_exhausted
    (wide : 0 < launch.size_width)
    (positive : 0 < launch.num_threads)
    (last : launch.build_tbl_size + launch.num_threads = 2 ^ (launch.size_width - 1) + 1)
    (rows : 0 < launch.build_tbl_size)
    (same : launch.build_tbl_size = launch.lottery_size)
    (begins : launch.BeginsInside) :
    ∃ (state : State) (start_idx : Fin launch.num_threads), Reaches launch.step State.start state ∧
      (state.thread start_idx).Probing ∧
      ∀ lottery_idx, lottery_idx < launch.lottery_size → state.lottery lottery_idx = -1 := by
  obtain ⟨row, sized⟩ := Nat.exists_eq_succ_of_ne_zero rows.ne'
  obtain ⟨state, reached, fair, threads⟩ := exists_in_order same.le positive begins
    (show row ≤ launch.build_tbl_size by omega) (by omega)
  have next := Nat.mod_lt row positive
  obtain ⟨idx, thread, least, most⟩ := threads _ next
  obtain rfl := fair.row_eq positive thread least most
  obtain ⟨taken, lottery_val, further, fairTaken, holding, others⟩ :=
    fair.gets_key same.le next thread (by omega) (begins idx (by omega))
  -- now all rows have keys
  have given : ∀ row, row < launch.build_tbl_size → ∃ key, launch.Given taken row key := by
    intro row inTable
    rcases Nat.lt_succ_iff_lt_or_eq.mp (sized ▸ inTable) with before | rfl
    · obtain ⟨key, filled⟩ := Option.ne_none_iff_exists'.mp <| fairTaken.passed row inTable <| by
        by_cases own : row % launch.num_threads = idx % launch.num_threads
        · rw [own, holding]
          exact before
        · obtain ⟨other, waiting, otherLeast, _⟩ := threads _ (Nat.mod_lt row positive)
          rw [others _ own, waiting]
          exact before.trans_le otherLeast
      exact ⟨key, .inl filled⟩
    · exact ⟨lottery_val, .inr ⟨_, next, holding⟩⟩
  obtain ⟨probing, around, lottery, arrived⟩ :=
    wraps_around wide next holding (show idx + launch.num_threads = _ by omega)
  refine ⟨probing, ⟨_, next⟩, (reached.trans further).trans around, ?_,
    fun lottery_idx inside => ?_⟩
  · change (probing.thread (idx % launch.num_threads)).Probing
    rw [arrived]
    trivial
  · rw [lottery]
    exact fairTaken.marked_of_given same.ge given inside

/-- A lottery with a key for every row gives each key to one row at most, if the rows can be
counted. The marked entries are the keys that have been given, and a thread that probes finds
a key when the other threads wait. -/
theorem lottery_gives_keys_once
    (launch : Launch)
    (counted : launch.Counted)
    (enough : launch.build_tbl_size ≤ launch.lottery_size)
    (begins : launch.BeginsInside)
    {state : State}
    (reached : Reaches launch.step State.start state) :
    (∀ idx other key, state.build_tbl idx = some key → state.build_tbl other = some key →
      idx = other) ∧
    (∀ idx key, state.build_tbl idx = some key →
      0 ≤ idx ∧ idx < launch.build_tbl_size ∧ 0 ≤ key ∧ key < launch.lottery_size) ∧
    (∀ lottery_idx : Nat, lottery_idx < launch.lottery_size →
      (state.lottery lottery_idx = -1 ↔ ∃ idx, launch.Given state idx lottery_idx)) ∧
    (∀ start_idx : Fin launch.num_threads, (state.thread start_idx).Probing →
      (∃ lottery_idx, lottery_idx < launch.lottery_size ∧ state.lottery lottery_idx ≠ -1) ∧
      ∃ finish lottery_val, Reaches (launch.alone start_idx) state finish ∧
        finish.thread start_idx = .storing (state.thread start_idx).row lottery_val) := by
  have fair := fair_of_reaches counted begins reached
  have written : ∀ idx key, state.build_tbl idx = some key →
      ∃ row : Nat, idx = row ∧ state.build_tbl row = some key := by
    intro idx key table
    obtain ⟨row, rfl⟩ := Int.eq_ofNat_of_zero_le
      (fair.natural idx (table ▸ Option.some_ne_none key))
    exact ⟨row, rfl, table⟩
  refine ⟨fun idx other key first second => ?_, fun idx key table => ?_,
    fun lottery_idx inside => ⟨fair.marked_given lottery_idx inside, ?_⟩,
    fun start_idx probing => ?_⟩
  · obtain ⟨row, rfl, firstRow⟩ := written idx key first
    obtain ⟨otherRow, rfl, secondRow⟩ := written other key second
    exact congrArg Nat.cast (fair.distinct row otherRow key (.inl firstRow) (.inl secondRow))
  · obtain ⟨row, rfl, filled⟩ := written idx key table
    obtain ⟨lottery_idx, inside, rfl, _⟩ := fair.given_marked row key (.inl filled)
    exact ⟨Int.natCast_nonneg _, by exact_mod_cast (fair.filled row _ filled).1,
      Int.natCast_nonneg _, by exact_mod_cast inside⟩
  · rintro ⟨idx, had⟩
    obtain ⟨marked, _, same, value⟩ := fair.given_marked idx _ had
    obtain rfl : lottery_idx = marked := by exact_mod_cast same
    exact value
  · obtain ⟨unmarked_idx, inside, unmarked⟩ :=
      fair.unmarked_of_probing enough start_idx.isLt probing
    obtain ⟨finish, lottery_val, probed, holding⟩ :=
      fair.reaches_storing start_idx probing inside unmarked
    exact ⟨⟨unmarked_idx, inside, unmarked⟩, finish, lottery_val, alone_of_probe probed, holding⟩

/-- Two threads that draw the same key for their rows. -/
def sameDraw : Launch where
  size_width := 32
  num_threads := 2
  build_tbl_size := 2
  lottery_size := 2
  first_idx := fun _ => 1

/-- Both threads have read the same entry. -/
def bothRead : State :=
  (((State.start.move 0 (.reading 0 1)).move 1 (.reading 1 1)).move 0 (.swapping 0 1 1)).move 1
    (.swapping 1 1 1)

theorem bothRead_reached : Reaches sameDraw.step State.start bothRead := by
  let first := State.start.move 0 (.reading 0 1)
  let both := first.move 1 (.reading 1 1)
  let ahead := both.move 0 (.swapping 0 1 1)
  have drawn : sameDraw.step (0 : Fin 2) State.start = some first := rfl
  have alsoDrawn : sameDraw.step (1 : Fin 2) first = some both := rfl
  have read : sameDraw.step (0 : Fin 2) both = some ahead := rfl
  have alsoRead : sameDraw.step (1 : Fin 2) ahead = some bothRead := rfl
  exact ⟨4, .head drawn (.head alsoDrawn (.head read (.single alsoRead)))⟩

/-- Both threads can still get a key, and no key has been given. -/
theorem lottery_gives_same_draw_once :
    (∀ idx other key, bothRead.build_tbl idx = some key → bothRead.build_tbl other = some key →
      idx = other) ∧
    (∀ idx key, bothRead.build_tbl idx = some key → 0 ≤ idx ∧ idx < 2 ∧ 0 ≤ key ∧ key < 2) ∧
    (∀ lottery_idx : Nat, lottery_idx < 2 →
      (bothRead.lottery lottery_idx = -1 ↔ ∃ idx, sameDraw.Given bothRead idx lottery_idx)) ∧
    (∀ start_idx : Fin 2, (bothRead.thread start_idx).Probing →
      (∃ lottery_idx, lottery_idx < 2 ∧ bothRead.lottery lottery_idx ≠ -1) ∧
      ∃ finish lottery_val, Reaches (sameDraw.alone start_idx) bothRead finish ∧
        finish.thread start_idx = .storing (bothRead.thread start_idx).row lottery_val) :=
  lottery_gives_keys_once sameDraw (show 2 + 2 ≤ 2 ^ 31 by decide) (Nat.le_refl 2)
    (fun _ _ => Nat.one_lt_two) bothRead_reached

/-- As many rows as entries, and one row too many for the next row to be counted. -/
def lastRow : Launch where
  size_width := 32
  num_threads := 128
  build_tbl_size := 2 ^ 31 - 127
  lottery_size := 2 ^ 31 - 127
  first_idx := fun _ => 0

/-- A thread comes to a negative row after the last one and probes for a key although there
is none. -/
theorem lottery_runs_empty :
    lastRow.build_tbl_size ≤ lastRow.lottery_size ∧ lastRow.BeginsInside ∧
      ∃ (state : State) (start_idx : Fin lastRow.num_threads),
        Reaches lastRow.step State.start state ∧ (state.thread start_idx).Probing ∧
        ∀ lottery_idx, lottery_idx < lastRow.lottery_size → state.lottery lottery_idx = -1 := by
  have begins : lastRow.BeginsInside := fun _ _ => show 0 < 2 ^ 31 - 127 by decide
  exact ⟨le_rfl, begins, exists_exhausted (show 0 < 32 by decide) (show 0 < 128 by decide)
    (show 2 ^ 31 - 127 + 128 = 2 ^ 31 + 1 by decide) (show 0 < 2 ^ 31 - 127 by decide) rfl begins⟩

end Launch

end Lottery

end DistributedJoin
