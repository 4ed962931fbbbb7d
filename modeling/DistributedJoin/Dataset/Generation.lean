import DistributedJoin.Dataset.GenerateTable
import DistributedJoin.Relational.Parts

/-!
# Generated tables

What the ranks receive when they generate tables together. Every rank gets the same part of
the tables of all ranks, so all tables together keep the generated rows.
-/

namespace DistributedJoin

open Device Spmd

namespace GenerateTable

/-- A constant is added to a column of integers. -/
theorem add_constant_integer_column
    (id : TypeId)
    {size : Nat}
    {values : List Int}
    (sized : values.length = size)
    (constant : Int) :
    add_constant_to_column (integer_column id size values) constant =
      integer_column id size (values.map (· + constant)) := by
  subst sized
  have items : itemsOf (encodeWords id.size_of values) id.size_of values.length =
      values.map (encode id.size_of) := by
    have flattened : itemsOf (values.map (encode id.size_of)).flatten id.size_of
        (values.map (encode id.size_of)).length = values.map (encode id.size_of) :=
      itemsOf_flatten fun item member => mem_map_encode_length member
    rwa [List.length_map] at flattened
  have words : decodeWords id.size_of (encodeWords id.size_of values) values.length =
      values.map fun value => decode (encode id.size_of value) := by
    rw [decodeWords, items, List.map_map]
    rfl
  have head : encodeWords id.size_of ((decodeWords id.size_of (encodeWords id.size_of values)
      values.length).map (· + constant)) =
        encodeWords id.size_of (values.map (· + constant)) := by
    rw [words, encodeWords, encodeWords, List.map_map, List.map_map, List.map_map]
    congr 1
    apply List.map_congr_left
    intro value _
    exact encode_decode_encode_add id.size_of value constant
  exact congrArg (fixed_width_column ⟨id, 0⟩ values.length) head

end GenerateTable

/-- One collective call of `generate_tables_distributed`. -/
structure Generation (n : Nat) where
  n_pos : 0 < n
  arguments : GenerateTable.Arguments
  keys : Nat → GenerateTable.Keys
  group_by_batch : Bool

namespace Generation

open GenerateTable

variable {n : Nat} (generation : Generation n)

/-- All ranks are one group. -/
def layout : Layout n := .whole n generation.n_pos

/-- The program of all ranks. -/
def program (gpu : Gpu) (rank : Nat) : Process ranks (Table × Table) :=
  generation.arguments.generate_tables_distributed gpu (generation.keys rank)
    (communicatorOf n generation.group_by_batch rank)

/-- Every rank has drawn the keys of its tables, and the rows can be divided between the
ranks. -/
structure Valid : Prop where
  build_keys : ∀ rank, rank < n →
    (generation.keys rank).build.length = generation.arguments.build_table_nrows_per_rank
  probe_keys : ∀ rank, rank < n →
    (generation.keys rank).probe.length = generation.arguments.probe_table_nrows_per_rank
  /-- Ranks are numbers of type `int`, as are the rows below. -/
  ranks_lt : n < 2 ^ 31
  build_dvd : n ∣ generation.arguments.build_table_nrows_per_rank
  probe_dvd : n ∣ generation.arguments.probe_table_nrows_per_rank
  build_lt : generation.arguments.build_table_nrows_per_rank < 2 ^ 31
  probe_lt : generation.arguments.probe_table_nrows_per_rank < 2 ^ 31

/-- The keys of a rank in its range. -/
def key_values (keys : Nat → List Int) (rank : Nat) : List Int :=
  (keys rank).map (· + generation.arguments.key_constant rank)

/-- The row ids of a rank in its range. -/
def row_ids (nrows rank : Nat) : List Int :=
  (generate_payload_functor nrows).map (· + toInt (nrows * rank))

/-- The plans of all ranks for one column. -/
def column_plan
    (icol : Nat)
    (id : TypeId)
    (nrows : Nat)
    (values : Nat → List Int) : GroupPlan where
  ptr := .data icol
  dtype := ⟨id, 0⟩
  compression_method := .none
  cascaded_format := fun _ => ⟨0, 0, 0⟩
  send_buffer := fun rank => encodeWords id.size_of (values rank)
  send_offsets := fun _ => table_offset nrows n
  recv_offsets := generation.layout.exchanged fun _ => table_offset nrows n

/-- The plans of all ranks for one table. -/
def table_plans (first nrows : Nat) (keys : Nat → List Int) : List GroupPlan :=
  [generation.column_plan first generation.arguments.KEY_T nrows (generation.key_values keys),
    generation.column_plan (first + 1) generation.arguments.PAYLOAD_T nrows (row_ids nrows)]

/-- The plans of all ranks. -/
def plans : List GroupPlan :=
  generation.table_plans 0 generation.arguments.build_table_nrows_per_rank
      (fun rank => (generation.keys rank).build) ++
    generation.table_plans 2 generation.arguments.probe_table_nrows_per_rank
      (fun rank => (generation.keys rank).probe)

/-- A table of a rank before the shuffle. -/
def shifted_table (nrows : Nat) (keys : Nat → List Int) (rank : Nat) : Table :=
  [integer_column generation.arguments.KEY_T nrows (generation.key_values keys rank),
    integer_column generation.arguments.PAYLOAD_T nrows (row_ids nrows rank)]

theorem add_constants_eq
    (keys : Nat → List Int)
    {nrows rank : Nat}
    (drawn : (keys rank).length = nrows) :
    generation.arguments.add_constants
        [integer_column generation.arguments.KEY_T nrows (keys rank),
          integer_column generation.arguments.PAYLOAD_T nrows (generate_payload_functor nrows)]
        nrows rank =
      generation.shifted_table nrows keys rank := by
  have payload : (generate_payload_functor nrows).length = nrows := by
    simp [generate_payload_functor]
  have shifted : _ = [_, _] := congrArg₂ (fun first second => [first, second])
    (add_constant_integer_column generation.arguments.KEY_T drawn
      (generation.arguments.key_constant rank))
    (add_constant_integer_column generation.arguments.PAYLOAD_T payload (toInt (nrows * rank)))
  exact shifted

/-- The ranks append their parts of the plans for a table. -/
theorem append_shifted_table
    (first nrows : Nat)
    (keys : Nat → List Int)
    (rank : Nat) :
    append_to_all_to_all_comm_buffers first (generation.shifted_table nrows keys rank)
        (table_offset nrows n)
        (generation.layout.exchanged (fun _ => table_offset nrows n) rank)
        (generate_none_compression_options (generation.shifted_table nrows keys rank)) =
      (generation.table_plans first nrows keys).map (·.buffer rank) := by
  have off : ∀ column : Column,
      let options : ColumnCompressionOptions :=
        if column.type.id = .STRING then .mk .none ⟨0, 0, 0⟩ [.none, .none] else .none
      options.compression_method = .none ∧ options.cascaded_format = ⟨0, 0, 0⟩ := by
    intro column
    by_cases string : column.type.id = .STRING
    · simp only [if_pos string]
      exact ⟨rfl, rfl⟩
    · simp only [if_neg string]
      exact ⟨rfl, rfl⟩
  unfold append_to_all_to_all_comm_buffers table_plans
  have columns : List.range (generation.shifted_table nrows keys rank).length = [0, 1] := rfl
  rw [columns]
  simp only [List.map_cons, List.map_nil]
  have keyOff := off (integer_column generation.arguments.KEY_T nrows
    (generation.key_values keys rank))
  have idOff := off (integer_column generation.arguments.PAYLOAD_T nrows (row_ids nrows rank))
  congr 1
  · simp only [generate_none_compression_options, shifted_table, List.map_cons,
      List.getD_cons_zero, keyOff.1, keyOff.2]
    rfl
  · congr 1
    simp only [generate_none_compression_options, shifted_table, List.map_cons,
      List.getD_cons_succ, List.getD_cons_zero, idOff.1, idOff.2]
    rfl

/-- What is written to the memory of a rank. -/
def memory (gpu : Gpu) (rank : Nat) : Memory :=
  received (arrived generation.layout gpu true generation.plans rank)

/-- A table of a rank after the shuffle. -/
def communicated_table
    (gpu : Gpu)
    (first nrows : Nat)
    (keys : Nat → List Int)
    (rank : Nat) : Table :=
  received_table gpu first (generation.shifted_table nrows keys rank)
    (generation.layout.exchanged (fun _ => table_offset nrows n) rank) (generation.memory gpu rank)

/-- The build table of a rank. -/
def build_table (gpu : Gpu) (rank : Nat) : Table :=
  generation.communicated_table gpu 0 generation.arguments.build_table_nrows_per_rank
    (fun rank => (generation.keys rank).build) rank

/-- The probe table of a rank. -/
def probe_table (gpu : Gpu) (rank : Nat) : Table :=
  generation.communicated_table gpu 2 generation.arguments.probe_table_nrows_per_rank
    (fun rank => (generation.keys rank).probe) rank

/-- What a rank does. -/
def events (gpu : Gpu) (rank : Nat) : List (Event ranks) :=
  generation.layout.sizesEvents
      (fun _ => table_offset generation.arguments.build_table_nrows_per_rank n) rank ++
    (generation.layout.sizesEvents
        (fun _ => table_offset generation.arguments.probe_table_nrows_per_rank n) rank ++
      communicateEvents generation.layout gpu true generation.group_by_batch generation.plans rank)

variable {generation}

/-- All ranks generate their tables. -/
theorem Valid.phase_program
    (valid : generation.Valid)
    {eager : Eagerness ranks}
    (gpu : Gpu) :
    Phase n eager (Arrivals.none ranks) (generation.program gpu) (Arrivals.none ranks)
      (.ok fun rank => (generation.build_table gpu rank, generation.probe_table gpu rank))
      (generation.events gpu) := by
  have supported : ∀ plan ∈ generation.plans, plan.Supported := by
    intro plan member
    rcases List.mem_append.mp member with build | probe
    · rcases List.mem_pair.mp build with rfl | rfl
      · exact .inl rfl
      · exact .inl rfl
    · rcases List.mem_pair.mp probe with rfl | rfl
      · exact .inl rfl
      · exact .inl rfl
  have buildSizes : Phase n eager (Arrivals.none ranks) _ _ _ _ :=
    phase_communicate_sizes generation.layout
      (fun _ => table_offset generation.arguments.build_table_nrows_per_rank n) rfl
  have probeSizes : Phase n eager (Arrivals.none ranks) _ _ _ _ :=
    phase_communicate_sizes generation.layout
      (fun _ => table_offset generation.arguments.probe_table_nrows_per_rank n) rfl
  have communicated : Phase n eager (Arrivals.none ranks) _ _ _ _ :=
    phase_communicate_buffers generation.layout gpu true generation.group_by_batch supported
  let build := fun rank => generation.shifted_table
    generation.arguments.build_table_nrows_per_rank (fun rank => (generation.keys rank).build) rank
  let probe := fun rank => generation.shifted_table
    generation.arguments.probe_table_nrows_per_rank (fun rank => (generation.keys rank).probe) rank
  have appended : Phase n eager (Arrivals.none ranks)
      (fun rank => communicate_buffers gpu
        (append_to_all_to_all_comm_buffers 0 (build rank)
            (table_offset generation.arguments.build_table_nrows_per_rank n)
            (generation.layout.exchanged
              (fun _ => table_offset generation.arguments.build_table_nrows_per_rank n) rank)
            (generate_none_compression_options (build rank)) ++
          append_to_all_to_all_comm_buffers 2 (probe rank)
            (table_offset generation.arguments.probe_table_nrows_per_rank n)
            (generation.layout.exchanged
              (fun _ => table_offset generation.arguments.probe_table_nrows_per_rank n) rank)
            (generate_none_compression_options (probe rank)))
        (generation.layout.group rank) (communicatorOf n generation.group_by_batch rank) true)
      _ _ _ :=
    communicated.congr fun rank _ => by
      rw [generation.append_shifted_table, generation.append_shifted_table, ← List.map_append]
      rfl
  have composed : Phase n eager (Arrivals.none ranks)
      (fun rank => communicate_sizes
          (table_offset generation.arguments.build_table_nrows_per_rank n)
          (generation.layout.group rank) >>= fun build_table_recv_offset =>
        communicate_sizes (table_offset generation.arguments.probe_table_nrows_per_rank n)
            (generation.layout.group rank) >>= fun probe_table_recv_offset =>
          communicate_buffers gpu
            (append_to_all_to_all_comm_buffers 0 (build rank)
                (table_offset generation.arguments.build_table_nrows_per_rank n)
                build_table_recv_offset (generate_none_compression_options (build rank)) ++
              append_to_all_to_all_comm_buffers 2 (probe rank)
                (table_offset generation.arguments.probe_table_nrows_per_rank n)
                probe_table_recv_offset (generate_none_compression_options (probe rank)))
            (generation.layout.group rank) (communicatorOf n generation.group_by_batch rank)
            true >>= fun received_buffers => Process.pure
              (received_table gpu 0 (build rank) build_table_recv_offset
                  (received received_buffers.2),
                received_table gpu 2 (probe rank) probe_table_recv_offset
                  (received received_buffers.2)))
      _ _ _ :=
    buildSizes.bind (probeSizes.bind (appended.map fun rank received_buffers =>
      (received_table gpu 0 (build rank) _ (received received_buffers.2),
        received_table gpu 2 (probe rank) _ (received received_buffers.2))))
  refine composed.congr fun rank rankBound => ?_
  have shifted : generation.arguments.pre_shuffle_tables (generation.keys rank) rank =
      (build rank, probe rank) :=
    Prod.ext
      (generation.add_constants_eq (fun rank => (generation.keys rank).build)
        (valid.build_keys rank rankBound))
      (generation.add_constants_eq (fun rank => (generation.keys rank).probe)
        (valid.probe_keys rank rankBound))
  simp only [program, Arguments.generate_tables_distributed, communicatorOf, shifted]
  rfl

/-- The ranks get parts of the same size. -/
theorem getD_table_offset
    (nrows : Nat)
    {irank : Nat}
    (irankBound : irank ≤ n) :
    (table_offset nrows n).getD irank 0 = (nrows / n * irank : Nat) := by
  have inside : irank < (table_offset nrows n).length := by
    simp only [table_offset, List.length_map, List.length_range]
    omega
  rw [List.getD_eq_getElem _ _ inside]
  simp only [table_offset, List.getElem_map, List.getElem_range]

theorem countAt_table_offset
    (nrows : Nat)
    {irank : Nat}
    (irankBound : irank < n) :
    countAt (table_offset nrows n) irank = (nrows / n : Nat) := by
  rw [countAt, getD_table_offset nrows irankBound, getD_table_offset nrows irankBound.le,
    Nat.mul_succ]
  omega

/-- The values of a column that a rank gets from all ranks. -/
def gathered (n nrows : Nat) (values : Nat → List Int) (rank : Nat) : List Int :=
  (List.range n).flatMap fun source =>
    Relational.slice (values source) (nrows / n * rank) (nrows / n * (rank + 1))

section Column

variable
  {icol : Nat}
  {id : TypeId}
  {nrows : Nat}
  {values : Nat → List Int}

theorem placed_column : (generation.column_plan icol id nrows values).Placed generation.layout where
  exchanged := rfl
  nonneg := by
    intro rank _ index indexBound
    rw [layout, Layout.group_size_whole] at indexBound
    change 0 ≤ countAt (table_offset nrows n) index
    rw [countAt_table_offset nrows indexBound]
    exact Int.natCast_nonneg _

/-- A rank gets as many rows as it has generated. -/
theorem total_column
    (divides : n ∣ nrows)
    {rank : Nat}
    (rankBound : rank < n) :
    (generation.column_plan icol id nrows values).total generation.layout rank = nrows := by
  have share : ∀ index, (generation.column_plan icol id nrows values).share generation.layout
      rank index = nrows / n := by
    intro index
    have local_idx : generation.layout.local_idx rank = rank :=
      Layout.local_idx_whole generation.n_pos rankBound
    rw [GroupPlan.share, local_idx]
    change (countAt (table_offset nrows n) rank).toNat = nrows / n
    rw [countAt_table_offset nrows rankBound, Int.toNat_natCast]
  have size : generation.layout.group_size = n := Layout.group_size_whole generation.n_pos
  rw [GroupPlan.total, size, List.map_congr_left fun index _ => share index, List.map_const',
    List.sum_replicate_nat, List.length_range, Nat.mul_div_cancel' divides]

/-- The part of a column that a rank gets from another one. -/
theorem piece_column
    (divides : n ∣ nrows)
    (sized : ∀ rank, rank < n → (values rank).length = nrows)
    {rank source : Nat}
    (rankBound : rank < n)
    (sourceBound : source < n) :
    (generation.column_plan icol id nrows values).piece generation.layout rank source =
      encodeWords id.size_of (Relational.slice (values source) (nrows / n * rank)
        (nrows / n * (rank + 1))) := by
  have local_idx : generation.layout.local_idx rank = rank :=
    Layout.local_idx_whole generation.n_pos rankBound
  have member : generation.layout.member rank source = source :=
    Layout.member_whole generation.n_pos rankBound source
  have inside : nrows / n * rank + nrows / n ≤ (values source).length := by
    rw [sized source sourceBound, ← Nat.mul_succ]
    calc
      nrows / n * (rank + 1) ≤ nrows / n * n := Nat.mul_le_mul_left _ rankBound
      _ = nrows := Nat.div_mul_cancel divides
  rw [GroupPlan.piece, member, local_idx]
  change readRange (encodeWords id.size_of (values source))
    ((table_offset nrows n).getD rank 0 * id.size_of)
    (countAt (table_offset nrows n) rank * id.size_of).toNat = _
  rw [getD_table_offset nrows rankBound.le, countAt_table_offset nrows rankBound, ← Nat.cast_mul,
    ← Nat.cast_mul, Int.toNat_natCast, readRange_encodeWords inside, Relational.slice,
    Nat.mul_succ, Nat.add_sub_cancel_left]

theorem flatten_pieces_column
    (divides : n ∣ nrows)
    (sized : ∀ rank, rank < n → (values rank).length = nrows)
    {rank : Nat}
    (rankBound : rank < n) :
    ((generation.column_plan icol id nrows values).pieces generation.layout rank).flatten =
      encodeWords id.size_of (gathered n nrows values rank) := by
  have size : generation.layout.group_size = n := Layout.group_size_whole generation.n_pos
  rw [gathered, encodeWords_flatMap, GroupPlan.pieces, size]
  congr 1
  exact List.map_congr_left fun source range =>
    piece_column divides sized rankBound (List.mem_range.mp range)

theorem length_gathered
    (divides : n ∣ nrows)
    (sized : ∀ rank, rank < n → (values rank).length = nrows)
    {rank : Nat}
    (rankBound : rank < n) :
    (gathered n nrows values rank).length = nrows := by
  have part : ∀ source ∈ List.range n, (Relational.slice (values source) (nrows / n * rank)
      (nrows / n * (rank + 1))).length = nrows / n := by
    intro source range
    have last : nrows / n * (rank + 1) ≤ nrows := by
      calc
        nrows / n * (rank + 1) ≤ nrows / n * n := Nat.mul_le_mul_left _ rankBound
        _ = nrows := Nat.div_mul_cancel divides
    rw [Relational.slice, List.length_take, List.length_drop, sized source (List.mem_range.mp range),
      Nat.mul_succ]
    rw [Nat.mul_succ] at last
    generalize nrows / n = chunk at last ⊢
    omega
  rw [gathered, List.length_flatMap, List.map_congr_left part, List.map_const', List.sum_replicate_nat,
    List.length_range, Nat.mul_div_cancel' divides]

/-- The buffer of a column that a rank receives. -/
theorem contents_column
    (gpu : Gpu)
    (member : generation.column_plan icol id nrows values ∈ generation.plans)
    (divides : n ∣ nrows)
    (sized : ∀ rank, rank < n → (values rank).length = nrows)
    {rank : Nat}
    (rankBound : rank < n) :
    contents gpu.uninitialized (writesTo (.plain (.data icol)) (generation.memory gpu rank))
        (nrows * id.size_of) =
      encodeWords id.size_of (gathered n nrows values rank) := by
  let plan := generation.column_plan icol id nrows values
  have distinct : (generation.plans.map (·.ptr)).Nodup := by
    change ([.data 0, .data 1, .data 2, .data 3] : List DevicePtr).Nodup
    decide
  have arrived : writesTo (.plain plan.ptr) (generation.memory gpu rank) =
      plan.deliveries generation.layout true rank :=
    (writesTo_plain_arrived generation.layout gpu true distinct member rank).trans
      (plan.writesTo_wire_none generation.layout gpu true rfl rank)
  have tiles : Tiles (writesTo (.plain plan.ptr) (generation.memory gpu rank))
      (plan.pieces generation.layout rank) := by
    rw [arrived, GroupPlan.deliveries, Layout.indices_true]
    exact placed_column.tiles rankBound
  have filled := tiles.contents_eq gpu.uninitialized
  rw [flatten_pieces_column divides sized rankBound, length_encodeWords,
    length_gathered divides sized rankBound] at filled
  exact filled

/-- Together the ranks get the values of all ranks. -/
theorem gathered_union
    (divides : n ∣ nrows)
    (sized : ∀ rank, rank < n → (values rank).length = nrows) :
    ((List.range n).flatMap fun rank => gathered n nrows values rank).Perm
      ((List.range n).flatMap values) := by
  refine (Relational.flatMap_range_comm _ n n).trans (.of_eq (List.flatMap_congr fun source range =>
    ?_))
  have whole : nrows / n * n = (values source).length := by
    rw [sized source (List.mem_range.mp range), Nat.div_mul_cancel divides]
  have joined : ((List.range n).flatMap fun rank =>
      Relational.slice (values source) (nrows / n * rank) (nrows / n * (rank + 1))) =
        Relational.slice (values source) (nrows / n * 0) (nrows / n * n) :=
    Relational.flatMap_slice (values source) fun rank _ =>
      Nat.mul_le_mul_left _ (Nat.le_succ rank)
  rw [joined, Nat.mul_zero, whole, Relational.slice_all]

end Column

variable (generation) in
/-- A table after the shuffle has the keys and the row ids that the rank gets from all
ranks. -/
theorem communicated_table_eq
    (gpu : Gpu)
    {first nrows : Nat}
    {keys : Nat → List Int}
    (planned : ∀ plan ∈ generation.table_plans first nrows keys, plan ∈ generation.plans)
    (divides : n ∣ nrows)
    (bounded : nrows < 2 ^ 31)
    (drawn : ∀ rank, rank < n → (keys rank).length = nrows)
    {rank : Nat}
    (rankBound : rank < n) :
    generation.communicated_table gpu first nrows keys rank =
      [integer_column generation.arguments.KEY_T nrows
          (gathered n nrows (generation.key_values keys) rank),
        integer_column generation.arguments.PAYLOAD_T nrows
          (gathered n nrows (row_ids nrows) rank)] := by
  have rows : toSizeType ((generation.layout.exchanged (fun _ => table_offset nrows n)
      rank).getLastD 0) = nrows := by
    have placed : (generation.column_plan first generation.arguments.KEY_T nrows
        (generation.key_values keys)).Placed generation.layout := placed_column
    have last := placed.getLastD_recv_offsets rankBound
    rw [total_column divides rankBound] at last
    change (generation.layout.exchanged (fun _ => table_offset nrows n) rank).getLastD 0 = _ at last
    rw [last]
    exact toSizeType_eq (Int.natCast_nonneg _) (by exact_mod_cast bounded)
  have keysPlanned := planned _ (List.mem_cons_self ..)
  have idsPlanned := planned _ (List.mem_cons_of_mem _ (List.mem_singleton_self _))
  have keysFilled := contents_column gpu keysPlanned divides
    (fun source sourceBound => by rw [key_values, List.length_map, drawn source sourceBound])
    rankBound
  have idsFilled := contents_column gpu idsPlanned divides
    (fun source _ => by simp [row_ids, generate_payload_functor]) rankBound
  unfold communicated_table received_table
  have columns : List.range (generation.shifted_table nrows keys rank).length = [0, 1] := rfl
  rw [columns, rows, Int.toNat_natCast, List.map_cons, List.map_cons, List.map_nil]
  change [fixed_width_column _ _ (contents _ _ (nrows * generation.arguments.KEY_T.size_of)),
    fixed_width_column _ _ (contents _ _ (nrows * generation.arguments.PAYLOAD_T.size_of))] = _
  rw [idsFilled, Nat.add_zero, keysFilled]
  rfl

/-- The integers that are stored in a column of a rank. -/
def stored (id : TypeId) (values : Nat → List Int) (rank : Nat) : List Int :=
  (values rank).map fun value => id.read (encode id.size_of value)

/-- A received column holds the stored integers of all ranks. -/
theorem integers_gathered
    {id : TypeId}
    {nrows : Nat}
    {values : Nat → List Int}
    (divides : n ∣ nrows)
    (sized : ∀ rank, rank < n → (values rank).length = nrows)
    {rank : Nat}
    (rankBound : rank < n) :
    (integer_column id nrows (gathered n nrows values rank)).integers =
      gathered n nrows (stored id values) rank := by
  have flattened : itemsOf (encodeWords id.size_of (gathered n nrows values rank)) id.size_of
      ((gathered n nrows values rank).map (encode id.size_of)).length = _ :=
    itemsOf_flatten fun item member => mem_map_encode_length member
  rw [List.length_map, length_gathered divides sized rankBound] at flattened
  have items : (integer_column id nrows (gathered n nrows values rank)).integers =
      ((gathered n nrows values rank).map (encode id.size_of)).map id.read :=
    congrArg (List.map id.read) flattened
  rw [items, List.map_map, gathered, gathered, List.map_flatMap]
  refine List.flatMap_congr fun source _ => ?_
  rw [Relational.slice, Relational.slice, stored, List.map_take, List.map_drop]
  rfl

/-- All integers that the ranks receive in a column are the stored integers of all ranks. -/
theorem integers_union
    {id : TypeId}
    {nrows : Nat}
    {values : Nat → List Int}
    (divides : n ∣ nrows)
    (sized : ∀ rank, rank < n → (values rank).length = nrows) :
    ((List.range n).flatMap fun rank =>
        (integer_column id nrows (gathered n nrows values rank)).integers).Perm
      ((List.range n).flatMap (stored id values)) := by
  rw [List.flatMap_congr fun rank range =>
    integers_gathered divides sized (List.mem_range.mp range)]
  refine gathered_union divides fun rank rankBound => ?_
  rw [stored, List.length_map, sized rank rankBound]

namespace Valid

variable (valid : generation.Valid)
include valid

/-- The build table of a rank. -/
theorem build_table_eq
    (gpu : Gpu)
    {rank : Nat}
    (rankBound : rank < n) :
    generation.build_table gpu rank =
      [integer_column generation.arguments.KEY_T generation.arguments.build_table_nrows_per_rank
          (gathered n generation.arguments.build_table_nrows_per_rank
            (generation.key_values fun rank => (generation.keys rank).build) rank),
        integer_column generation.arguments.PAYLOAD_T
          generation.arguments.build_table_nrows_per_rank
          (gathered n generation.arguments.build_table_nrows_per_rank
            (row_ids generation.arguments.build_table_nrows_per_rank) rank)] :=
  generation.communicated_table_eq gpu (fun _ member => List.mem_append_left _ member)
    valid.build_dvd valid.build_lt valid.build_keys rankBound

/-- The probe table of a rank. -/
theorem probe_table_eq
    (gpu : Gpu)
    {rank : Nat}
    (rankBound : rank < n) :
    generation.probe_table gpu rank =
      [integer_column generation.arguments.KEY_T generation.arguments.probe_table_nrows_per_rank
          (gathered n generation.arguments.probe_table_nrows_per_rank
            (generation.key_values fun rank => (generation.keys rank).probe) rank),
        integer_column generation.arguments.PAYLOAD_T
          generation.arguments.probe_table_nrows_per_rank
          (gathered n generation.arguments.probe_table_nrows_per_rank
            (row_ids generation.arguments.probe_table_nrows_per_rank) rank)] :=
  generation.communicated_table_eq gpu (fun _ member => List.mem_append_right _ member)
    valid.probe_dvd valid.probe_lt valid.probe_keys rankBound

/-- In every order of the ranks, they return their tables. -/
theorem returns
    (eager : Eagerness ranks)
    (gpu : Gpu) :
    Returns n eager (generation.program gpu) fun rank =>
      (generation.build_table gpu rank, generation.probe_table gpu rank) := by
  have phase : Phase n eager (Arrivals.none ranks) _ _ _ _ := valid.phase_program gpu
  exact (Settles.of_returning phase).returns

end Valid

end Generation

end DistributedJoin
