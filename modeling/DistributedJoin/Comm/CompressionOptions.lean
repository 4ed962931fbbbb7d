import DistributedJoin.Comm.AllToAllCommunicator
import DistributedJoin.Spmd.Transfers

/-!
# Distributing compression options

The root selects the options of all columns and broadcasts them in pieces. Which pieces
follow one another is decided on every rank by the types of its own columns.
-/

namespace DistributedJoin

open Device Spmd

/-- What is passed to `MPI_Bcast`. -/
inductive Payload
  | method (compression_method : CompressionMethod)
  | format (cascaded_format : CascadedFormat)

/-- The number of bytes that are passed. -/
def Payload.size : Payload → Nat
  | .method _ => 4
  | .format _ => 12

/-- Pieces of compression options over one channel. A rank records the size of every
broadcast it enters. -/
abbrev broadcasts : Interface where
  Channel := Unit
  Message := fun _ => Payload
  Request := fun _ => Unit
  Note := Nat

/-- The root sends a piece to all workers. -/
def bcast_payload_actions (payload : Payload) (mpi_size mpi_rank : Nat) :
    List (Action broadcasts ()) :=
  scatter mpi_size (fun _ => payload) (fun _ => ()) mpi_rank

/-- Enter a broadcast. -/
def MPI_Bcast_payload (payload : Payload) (mpi_size mpi_rank : Nat) :
    Process broadcasts Payload := do
  Process.observe (I := broadcasts) payload.size
  Process.perform (bcast_payload_actions payload mpi_size mpi_rank)
  let arrivals ← Process.await (I := broadcasts) ()
  pure (arrivals.foldl (fun _ arrival => arrival.2) payload)

/-- Tell all ranks a compression method of the root. -/
def bcast_compression_method
    (compression_method : CompressionMethod)
    (mpi_size mpi_rank : Nat) : Process broadcasts CompressionMethod := do
  match ← MPI_Bcast_payload (.method compression_method) mpi_size mpi_rank with
  | .method received => pure received
  | .format _ => .fail "MPI_ERR_TRUNCATE"

/-- Tell all ranks a format of the root. -/
def bcast_cascaded_format
    (cascaded_format : CascadedFormat)
    (mpi_size mpi_rank : Nat) : Process broadcasts CascadedFormat := do
  match ← MPI_Bcast_payload (.format cascaded_format) mpi_size mpi_rank with
  | .format received => pure received
  | .method _ => .fail "MPI_ERR_TRUNCATE"

/-- Tell all ranks the options of the root for a column of a type and its subcolumns.
Only the root looks up the options of a subcolumn. -/
def broadcast_compression_options
    (id : TypeId)
    (input_options : ColumnCompressionOptions)
    (mpi_size mpi_rank : Nat) : Process broadcasts ColumnCompressionOptions := do
  let compression_method ←
    bcast_compression_method input_options.compression_method mpi_size mpi_rank
  let cascaded_format ← bcast_cascaded_format input_options.cascaded_format mpi_size mpi_rank
  if _ : id = .STRING then do
    let offsets ← broadcast_compression_options .INT32
      (if mpi_rank = 0 then input_options.child 0 else .none) mpi_size mpi_rank
    let chars ← broadcast_compression_options .INT8
      (if mpi_rank = 0 then input_options.child 1 else .none) mpi_size mpi_rank
    pure (.mk compression_method cascaded_format [offsets, chars])
  else pure (.mk compression_method cascaded_format [])
termination_by if id = .STRING then 1 else 0
decreasing_by all_goals simp [*]

/-- Tell all ranks the options of the root for all columns of a table. -/
def broadcast_table_compression_options
    (input_table : Table)
    (input_options : List ColumnCompressionOptions)
    (mpi_size mpi_rank : Nat) : Process broadcasts (List ColumnCompressionOptions) :=
  (List.range input_table.length).mapM fun icol =>
    broadcast_compression_options (input_table.column icol).type.id
      (if mpi_rank = 0 then input_options.getD icol .none else .none) mpi_size mpi_rank

/-- `nvcomp::CascadedSelector`: for an element type and a block, a format. -/
abbrev SelectConfig := TypeId → List Byte → CascadedFormat

/-- Select a format for the elements of a buffer. -/
def cascaded_selector_functor
    (select_config : SelectConfig)
    (id : TypeId)
    (uncompressed_data : List Byte) : Except String CascadedFormat :=
  if id.compressible then .ok (select_config id uncompressed_data)
  else .error "Unsupported type for CascadedSelector"

/-- Select the options of a column. -/
def select_column_options (select_config : SelectConfig) (column : Column) :
    Except String ColumnCompressionOptions :=
  if column.type.id = .STRING then
    (cascaded_selector_functor select_config .INT32 (encodeWords 4 column.child_offsets)).map
      fun offset_cascaded_opts =>
        .mk .none ⟨0, 0, 0⟩ [.mk .cascaded offset_cascaded_opts [], .none]
  else
    (cascaded_selector_functor select_config column.type.id (readRange column.head 0
      (column.size.toNat * column.type.id.size_of))).map
        fun column_cascaded_opts => .mk .cascaded column_cascaded_opts []

/-- Select the options of all columns. -/
def generate_auto_select_compression_options
    (select_config : SelectConfig)
    (input_table : Table) : Except String (List ColumnCompressionOptions) :=
  input_table.mapM (select_column_options select_config)

/-- Agree on the options for the tables of all ranks. -/
def generate_compression_options_distributed
    (select_config : SelectConfig)
    (input_table : Table)
    (compression : Bool)
    (mpi_size mpi_rank : Nat) : Process broadcasts (List ColumnCompressionOptions) :=
  if !compression then pure (generate_none_compression_options input_table)
  else if mpi_rank = 0 then
    match generate_auto_select_compression_options select_config input_table with
    | .ok compression_options =>
        broadcast_table_compression_options input_table compression_options mpi_size mpi_rank
    | .error reason => .fail reason
  else broadcast_table_compression_options input_table [] mpi_size mpi_rank

/-- The sizes of the broadcasts that a rank has entered. -/
def entered (log : List (Event broadcasts)) : List Nat :=
  log.filterMap fun event =>
    match event with
    | .noted size => some size
    | _ => none

theorem entered_append (first second : List (Event broadcasts)) :
    entered (first ++ second) = entered first ++ entered second :=
  List.filterMap_append

/-- All ranks end an operation with the same result and enter the same broadcasts. -/
def Broadcasts
    {α : Type}
    (n : Nat)
    (eager : Eagerness broadcasts)
    (operation : Nat → Process broadcasts α)
    (result : α)
    (sizes : List Nat) : Prop :=
  ∃ events, Phase n eager (Arrivals.none broadcasts) operation (Arrivals.none broadcasts)
      (.ok fun _ => result) events ∧
    ∀ rank, entered (events rank) = sizes

namespace Broadcasts

variable {α β : Type} {n : Nat} {eager : Eagerness broadcasts}
  {first : Nat → Process broadcasts α} {value : α} {sizes more : List Nat}

theorem pure (value : α) :
    Broadcasts n eager (fun _ => Process.pure value) value [] :=
  ⟨_, Phase.pure fun _ => value, fun _ => rfl⟩

theorem bind
    {second : Nat → α → Process broadcasts β}
    {result : β}
    (left : Broadcasts n eager first value sizes)
    (right : Broadcasts n eager (fun rank => second rank value) result more) :
    Broadcasts n eager (fun rank => first rank >>= second rank) result (sizes ++ more) := by
  obtain ⟨_, phase, earlier⟩ := left
  obtain ⟨_, next, later⟩ := right
  refine ⟨_, phase.bind next, fun rank => ?_⟩
  rw [entered_append, earlier, later]

theorem map
    (broadcast : Broadcasts n eager first value sizes)
    (change : α → β) :
    Broadcasts n eager (fun rank => first rank >>= fun value => Process.pure (change value))
      (change value) sizes := by
  have composed : Broadcasts n eager
      (fun rank => first rank >>= fun value => Process.pure (change value))
      (change value) (sizes ++ []) := broadcast.bind (Broadcasts.pure (change value))
  rwa [List.append_nil] at composed

theorem congr
    {other : Nat → Process broadcasts α}
    (broadcast : Broadcasts n eager first value sizes)
    (same : ∀ rank, rank < n → other rank = first rank) :
    Broadcasts n eager other value sizes := by
  obtain ⟨_, phase, earlier⟩ := broadcast
  exact ⟨_, phase.congr same, earlier⟩

/-- All ranks run the same list of operations. -/
theorem mapM
    {κ : Type}
    {operation : Nat → κ → Process broadcasts α}
    {result : κ → α}
    {sizes : κ → List Nat}
    (keys : List κ)
    (each : ∀ key ∈ keys, Broadcasts n eager (fun rank => operation rank key) (result key)
      (sizes key)) :
    Broadcasts n eager (fun rank => keys.mapM (operation rank)) (keys.map result)
      (keys.flatMap sizes) := by
  induction keys with
  | nil => exact .pure []
  | cons key rest inductionHypothesis =>
      have head := each key (by simp)
      have tail := inductionHypothesis fun other member => each other (by simp [member])
      have composed : Broadcasts n eager
          (fun rank => do
            let first ← operation rank key
            let others ← rest.mapM (operation rank)
            Process.pure (first :: others))
          ((key :: rest).map result) (sizes key ++ rest.flatMap sizes) :=
        head.bind (tail.map fun others => result key :: others)
      exact composed.congr fun rank _ => List.mapM_cons

theorem returns (broadcast : Broadcasts n eager first value sizes) :
    Returns n eager first fun _ => value := by
  obtain ⟨_, phase, _⟩ := broadcast
  exact (Settles.of_returning phase).returns

/-- A rank has entered a part of the broadcasts, and at its end all of them. -/
theorem entered_prefix
    (broadcast : Broadcasts n eager first value sizes)
    {state : Configuration broadcasts α}
    (reached : Reaches (Configuration.step n eager) (Configuration.start first) state)
    {rank : Nat}
    (rankBound : rank < n) :
    entered (state rank).log <+: sizes ∧
      ((state rank).process.Ended → entered (state rank).log = sizes) := by
  obtain ⟨_, phase, earlier⟩ := broadcast
  have settles := Settles.of_returning phase
  rw [← earlier rank]
  exact ⟨(settles.log_grows reached rankBound).filterMap _, fun ended =>
    congrArg entered (settles.ended_eq reached rankBound ended).2⟩

end Broadcasts

section Phases

variable {n : Nat} {eager : Eagerness broadcasts} (n_pos : 0 < n)
include n_pos

/-- All ranks get the piece of the root. -/
theorem broadcasts_MPI_Bcast_payload
    (payload : Nat → Payload)
    {size : Nat}
    (same_size : ∀ rank, (payload rank).size = size) :
    Broadcasts n eager (fun rank => MPI_Bcast_payload (payload rank) n rank) (payload 0)
      [size] := by
  have matched : Matched n (bcast_payload_actions (payload 0) n) := matched_scatter _ _ n_pos
  have noted : Phase n eager (Arrivals.none broadcasts) _ _ _ _ :=
    Phase.observe (I := broadcasts) fun rank => (payload rank).size
  have exchange : Phase n eager (Arrivals.none broadcasts) _ _ _ _ :=
    Phase.perform_await matched rfl
  have composed : Phase n eager (Arrivals.none broadcasts) _ _ _ _ :=
    noted.seq (exchange.map fun rank arrivals =>
      arrivals.foldl (fun _ arrival => arrival.2) (payload rank))
  refine ⟨_, (composed.congr fun rank _ => ?_).congr_result fun rank rankBound => ?_,
    fun rank => ?_⟩
  · have same : bcast_payload_actions (payload rank) n rank =
        bcast_payload_actions (payload 0) n rank :=
      scatter_congr (fun root => by rw [root]) fun _ => rfl
    simp only [MPI_Bcast_payload, bind_assoc, same]
    rfl
  · have delivered : deliveries (bcast_payload_actions (payload 0) n) rank =
        if rank = 0 then [] else [((), payload 0)] := deliveries_scatter _ _ rankBound
    rw [delivered]
    split
    · rename_i root
      rw [root]
      rfl
    · rfl
  · have silent : entered ((bcast_payload_actions (payload 0) n rank).map Action.event) = [] := by
      refine List.filterMap_eq_nil_iff.mpr fun event member => ?_
      obtain ⟨action, _, rfl⟩ := List.mem_map.mp member
      cases action <;> rfl
    rw [entered_append, entered_append, silent, same_size rank]
    rfl

theorem broadcasts_method (compression_method : Nat → CompressionMethod) :
    Broadcasts n eager (fun rank => bcast_compression_method (compression_method rank) n rank)
      (compression_method 0) [4] := by
  have told : Broadcasts n eager _ _ [4] := broadcasts_MPI_Bcast_payload n_pos
    (fun rank => .method (compression_method rank)) fun _ => rfl
  exact told.bind (Broadcasts.pure (compression_method 0))

theorem broadcasts_format (cascaded_format : Nat → CascadedFormat) :
    Broadcasts n eager (fun rank => bcast_cascaded_format (cascaded_format rank) n rank)
      (cascaded_format 0) [12] := by
  have told : Broadcasts n eager _ _ [12] := broadcasts_MPI_Bcast_payload n_pos
    (fun rank => .format (cascaded_format rank)) fun _ => rfl
  exact told.bind (Broadcasts.pure (cascaded_format 0))

end Phases

namespace ColumnCompressionOptions

/-- The options without those of subcolumns. -/
def leaf (options : ColumnCompressionOptions) : ColumnCompressionOptions :=
  .mk options.compression_method options.cascaded_format []

/-- The options of a column of a type as they are broadcast. -/
def received (id : TypeId) (options : ColumnCompressionOptions) : ColumnCompressionOptions :=
  .mk options.compression_method options.cascaded_format
    (if id = .STRING then [(options.child 0).leaf, (options.child 1).leaf] else [])

/-- A string column has options for its two subcolumns, no other column has subcolumns. -/
def Shaped (id : TypeId) (options : ColumnCompressionOptions) : Prop :=
  if id = .STRING then
    ∃ offsets chars, options.children_compression_options = [offsets, chars] ∧
      offsets.children_compression_options = [] ∧ chars.children_compression_options = []
  else options.children_compression_options = []

theorem received_of_ne {id : TypeId} (fixed : id ≠ .STRING) (options : ColumnCompressionOptions) :
    options.received id = options.leaf := by
  rw [received, if_neg fixed]
  rfl

theorem leaf_eq_self
    {options : ColumnCompressionOptions}
    (childless : options.children_compression_options = []) :
    options.leaf = options := by
  obtain ⟨method, format, children⟩ := options
  obtain rfl : children = [] := childless
  rfl

/-- Nothing of such options is lost. -/
theorem Shaped.received_eq
    {id : TypeId}
    {options : ColumnCompressionOptions}
    (shaped : options.Shaped id) :
    options.received id = options := by
  unfold Shaped at shaped
  split at shaped
  · rename_i string
    obtain ⟨offsets, chars, children, offsetsLeaf, charsLeaf⟩ := shaped
    obtain ⟨method, format, subcolumns⟩ := options
    obtain rfl : subcolumns = [offsets, chars] := children
    rw [received, if_pos string]
    change mk method format [offsets.leaf, chars.leaf] = _
    rw [leaf_eq_self offsetsLeaf, leaf_eq_self charsLeaf]
  · rename_i fixed
    rw [received_of_ne fixed, leaf_eq_self shaped]

end ColumnCompressionOptions

theorem map_getD_range {α : Type} (values : List α) (default : α) :
    (List.range values.length).map (fun index => values.getD index default) = values := by
  apply List.ext_getElem
  · simp
  · intro index _ inside
    rw [List.getElem_map, List.getElem_range, List.getD_eq_getElem _ _ inside]

/-- The sizes of the broadcasts for a column of a type. -/
def broadcast_sizes (id : TypeId) : List Nat :=
  if id = .STRING then [4, 12] ++ ([4, 12] ++ [4, 12]) else [4, 12]

section Phases

variable {n : Nat} {eager : Eagerness broadcasts} (n_pos : 0 < n)
include n_pos

/-- All ranks begin with the method and the format of the root. -/
theorem broadcasts_own
    {β : Type}
    (options : Nat → ColumnCompressionOptions)
    {rest : Nat → CompressionMethod → CascadedFormat → Process broadcasts β}
    {result : β}
    {sizes : List Nat}
    (later : Broadcasts n eager
      (fun rank => rest rank (options 0).compression_method (options 0).cascaded_format)
      result sizes) :
    Broadcasts n eager
      (fun rank => do
        let compression_method ←
          bcast_compression_method (options rank).compression_method n rank
        let cascaded_format ← bcast_cascaded_format (options rank).cascaded_format n rank
        rest rank compression_method cascaded_format)
      result (4 :: 12 :: sizes) := by
  have formats : Broadcasts n eager
      (fun rank => do
        let cascaded_format ← bcast_cascaded_format (options rank).cascaded_format n rank
        rest rank (options 0).compression_method cascaded_format)
      result ([12] ++ sizes) :=
    (broadcasts_format n_pos fun rank => (options rank).cascaded_format).bind later
  have methods : Broadcasts n eager _ _ [4] :=
    broadcasts_method n_pos fun rank => (options rank).compression_method
  exact methods.bind formats

/-- All ranks get the options of the root for a column without subcolumns. -/
theorem broadcasts_leaf
    {id : TypeId}
    (fixed : id ≠ .STRING)
    (options : Nat → ColumnCompressionOptions) :
    Broadcasts n eager (fun rank => broadcast_compression_options id (options rank) n rank)
      (options 0).leaf [4, 12] := by
  have own : Broadcasts n eager
      (fun rank => do
        let compression_method ←
          bcast_compression_method (options rank).compression_method n rank
        let cascaded_format ← bcast_cascaded_format (options rank).cascaded_format n rank
        Process.pure (ColumnCompressionOptions.mk compression_method cascaded_format []))
      (options 0).leaf [4, 12] :=
    broadcasts_own n_pos options (Broadcasts.pure (options 0).leaf)
  refine own.congr fun rank _ => ?_
  rw [broadcast_compression_options]
  simp only [dif_neg fixed]
  rfl

/-- All ranks get the options of the root for a column and its subcolumns. -/
theorem broadcasts_column
    (id : TypeId)
    (options : Nat → ColumnCompressionOptions) :
    Broadcasts n eager (fun rank => broadcast_compression_options id (options rank) n rank)
      ((options 0).received id) (broadcast_sizes id) := by
  by_cases string : id = .STRING
  · let child : Nat → Nat → ColumnCompressionOptions := fun index rank =>
      if rank = 0 then (options rank).child index else .none
    have offsets : Broadcasts n eager _ (child 0 0).leaf [4, 12] :=
      broadcasts_leaf n_pos (show TypeId.INT32 ≠ .STRING from TypeId.noConfusion) (child 0)
    have chars : Broadcasts n eager _ (child 1 0).leaf [4, 12] :=
      broadcasts_leaf n_pos (show TypeId.INT8 ≠ .STRING from TypeId.noConfusion) (child 1)
    have children : Broadcasts n eager
        (fun rank => do
          let offsets ← broadcast_compression_options .INT32 (child 0 rank) n rank
          let chars ← broadcast_compression_options .INT8 (child 1 rank) n rank
          Process.pure (ColumnCompressionOptions.mk (options 0).compression_method
            (options 0).cascaded_format [offsets, chars]))
        ((options 0).received id) ([4, 12] ++ [4, 12]) := by
      rw [ColumnCompressionOptions.received, if_pos string]
      exact offsets.bind (chars.map fun chars =>
        ColumnCompressionOptions.mk (options 0).compression_method
          (options 0).cascaded_format [(child 0 0).leaf, chars])
    have own : Broadcasts n eager
        (fun rank => do
          let compression_method ←
            bcast_compression_method (options rank).compression_method n rank
          let cascaded_format ← bcast_cascaded_format (options rank).cascaded_format n rank
          let offsets ← broadcast_compression_options .INT32 (child 0 rank) n rank
          let chars ← broadcast_compression_options .INT8 (child 1 rank) n rank
          Process.pure (ColumnCompressionOptions.mk compression_method cascaded_format
            [offsets, chars]))
        ((options 0).received id) (4 :: 12 :: ([4, 12] ++ [4, 12])) :=
      broadcasts_own n_pos options children
    rw [broadcast_sizes, if_pos string]
    refine own.congr fun rank _ => ?_
    rw [broadcast_compression_options]
    simp only [dif_pos string]
    rfl
  · rw [broadcast_sizes, if_neg string, ColumnCompressionOptions.received_of_ne string]
    exact broadcasts_leaf n_pos string options

/-- All ranks get the options of the root for all columns. -/
theorem broadcasts_table
    {schema : List DataType}
    {input_table : Nat → Table}
    (same_schema : ∀ rank, rank < n → (input_table rank).schema = schema)
    (options : Nat → List ColumnCompressionOptions)
    (shaped : List.Forall₂ (fun dtype options => options.Shaped dtype.id) schema (options 0)) :
    Broadcasts n eager
      (fun rank => broadcast_table_compression_options (input_table rank) (options rank) n rank)
      (options 0) (schema.flatMap fun dtype => broadcast_sizes dtype.id) := by
  let dtype : Nat → DataType := fun icol => schema.getD icol Table.missingColumn.type
  let column_options : Nat → Nat → ColumnCompressionOptions := fun icol rank =>
    if rank = 0 then (options rank).getD icol .none else .none
  have columns : Broadcasts n eager
      (fun rank => (List.range schema.length).mapM fun icol =>
        broadcast_compression_options (dtype icol).id (column_options icol rank) n rank)
      _ _ := Broadcasts.mapM _ fun icol _ => broadcasts_column n_pos _ (column_options icol)
  have length := shaped.length_eq
  have sizes : (List.range schema.length).flatMap (fun icol => broadcast_sizes (dtype icol).id) =
      schema.flatMap fun dtype => broadcast_sizes dtype.id := by
    conv_rhs => rw [← map_getD_range schema Table.missingColumn.type, List.flatMap_map]
  have received : (List.range schema.length).map
      (fun icol => (column_options icol 0).received (dtype icol).id) = options 0 := by
    conv_rhs => rw [← map_getD_range (options 0) .none, ← length]
    apply List.map_congr_left
    intro icol range
    have icolBound := List.mem_range.mp range
    have optionsBound := length ▸ icolBound
    have column : ((options 0).getD icol .none).Shaped (dtype icol).id := by
      rw [List.getD_eq_getElem _ _ optionsBound]
      change ColumnCompressionOptions.Shaped (schema.getD icol _).id _
      rw [List.getD_eq_getElem _ _ icolBound]
      exact shaped.get icolBound optionsBound
    exact column.received_eq
  rw [sizes, received] at columns
  refine columns.congr fun rank rankBound => ?_
  have types := same_schema rank rankBound
  have width : (input_table rank).length = schema.length := by
    rw [← types, Table.schema, List.length_map]
  have type : ∀ icol, ((input_table rank).column icol).type = dtype icol := by
    intro icol
    change _ = schema.getD icol _
    rw [← types, Table.schema, List.getD_map]
    rfl
  rw [broadcast_table_compression_options, width]
  simp only [type]
  rfl

end Phases

/-- The options of the buffers of a column. -/
def column_plans
    (id : TypeId)
    (options : ColumnCompressionOptions) : List (CompressionMethod × CascadedFormat) :=
  if id ≠ .STRING then [(options.compression_method, options.cascaded_format)]
  else
    [((options.child 0).compression_method, (options.child 0).cascaded_format),
      ((options.child 1).compression_method, (options.child 1).cascaded_format)]

/-- What `append_to_all_to_all_comm_buffers` looks up for the buffers of all columns.
Nothing, if options for a column or a subcolumn are missing. -/
def buffer_options :
    List DataType → List ColumnCompressionOptions → Option (List (CompressionMethod × CascadedFormat))
  | [], _ => some []
  | _ :: _, [] => none
  | dtype :: rest, options :: more =>
      if dtype.id ≠ .STRING ∨ 2 ≤ options.children_compression_options.length then
        (buffer_options rest more).map (column_plans dtype.id options ++ ·)
      else none

/-- No options are missing. -/
theorem buffer_options_eq
    {schema : List DataType}
    {options : List ColumnCompressionOptions}
    (shaped : List.Forall₂ (fun dtype options => options.Shaped dtype.id) schema options) :
    buffer_options schema options =
      some ((List.range schema.length).flatMap fun icol =>
        column_plans (schema.getD icol Table.missingColumn.type).id (options.getD icol .none)) := by
  induction shaped with
  | nil => rfl
  | @cons dtype column rest more shape _ inductionHypothesis =>
      have present : dtype.id ≠ .STRING ∨ 2 ≤ column.children_compression_options.length := by
        by_cases string : dtype.id = .STRING
        · rw [ColumnCompressionOptions.Shaped, if_pos string] at shape
          obtain ⟨offsets, chars, children, _⟩ := shape
          exact .inr (Nat.le_of_eq (congrArg List.length children).symm)
        · exact .inl string
      rw [buffer_options, if_pos present, inductionHypothesis, Option.map_some,
        List.length_cons, List.range_succ_eq_map, List.flatMap_cons, List.flatMap_map]
      rfl

/-- The options of the buffers are those that are looked up. -/
theorem append_options
    (communicator : AllToAllCommunicator)
    {schema : List DataType}
    (types : communicator.input_table.schema = schema) :
    communicator.append_to_all_to_all_comm_buffers.map
        (fun buffer => (buffer.compression_method, buffer.cascaded_format)) =
      (List.range schema.length).flatMap fun icol =>
        column_plans (schema.getD icol Table.missingColumn.type).id
          (communicator.compression_options.getD icol .none) := by
  have width : communicator.input_table.length = schema.length := by
    rw [← types, Table.schema, List.length_map]
  have type : ∀ icol, (communicator.input_table.column icol).type =
      schema.getD icol Table.missingColumn.type := by
    intro icol
    rw [← types, Table.schema, List.getD_map]
    rfl
  rw [AllToAllCommunicator.append_to_all_to_all_comm_buffers, List.map_flatMap, width]
  apply List.flatMap_congr
  intro icol _
  rw [type icol, column_plans, apply_ite (List.map _)]
  rfl

/-- The ranks agree on the options for their tables. -/
def optionsProgram
    (n : Nat)
    (input_table : Nat → Table)
    (input_options : Nat → List ColumnCompressionOptions)
    (rank : Nat) : Process broadcasts (List ColumnCompressionOptions) :=
  broadcast_table_compression_options (input_table rank) (input_options rank) n rank

/-- All ranks enter the same broadcasts and end with the options of the root, which hold
a method and a format for every buffer of every column. -/
theorem compression_options_broadcast
    {n : Nat}
    (n_pos : 0 < n)
    (eager : Eagerness broadcasts)
    {schema : List DataType}
    (input_table : Nat → Table)
    (same_schema : ∀ rank, rank < n → (input_table rank).schema = schema)
    (input_options : Nat → List ColumnCompressionOptions)
    (shaped :
      List.Forall₂ (fun dtype options => options.Shaped dtype.id) schema (input_options 0)) :
    Returns n eager (optionsProgram n input_table input_options) (fun _ => input_options 0) ∧
      (∀ state, Reaches (Configuration.step n eager)
          (Configuration.start (optionsProgram n input_table input_options)) state →
        ∀ rank, rank < n →
          entered (state rank).log <+: (schema.flatMap fun dtype => broadcast_sizes dtype.id) ∧
            ((state rank).process.Ended → entered (state rank).log =
              schema.flatMap fun dtype => broadcast_sizes dtype.id)) ∧
      ∃ planned, buffer_options schema (input_options 0) = some planned ∧
        ∀ communicator : AllToAllCommunicator, communicator.input_table.schema = schema →
          communicator.compression_options = input_options 0 →
            communicator.append_to_all_to_all_comm_buffers.map
              (fun buffer => (buffer.compression_method, buffer.cascaded_format)) = planned := by
  have told : Broadcasts n eager (optionsProgram n input_table input_options) _ _ :=
    broadcasts_table n_pos same_schema input_options shaped
  refine ⟨told.returns, fun state reached rank rankBound => told.entered_prefix reached rankBound,
    _, buffer_options_eq shaped, fun communicator types options => ?_⟩
  rw [append_options communicator types, options]

/-- Two ranks agree on the options for a column of strings. -/
theorem compression_options_broadcast_two_ranks :
    Returns 2 (fun _ _ _ _ => false)
      (optionsProgram 2 (fun _ => [{ Table.missingColumn with type := ⟨.STRING, 0⟩ }]) fun rank =>
        if rank = 0 then [.mk .none ⟨0, 0, 0⟩ [.mk .cascaded ⟨1, 1, 1⟩ [], .none]] else [])
      fun _ => [.mk .none ⟨0, 0, 0⟩ [.mk .cascaded ⟨1, 1, 1⟩ [], .none]] :=
  (compression_options_broadcast Nat.two_pos (fun _ _ _ _ => false)
    (fun _ => [{ Table.missingColumn with type := ⟨.STRING, 0⟩ }]) (fun _ _ => rfl)
    (fun rank =>
      if rank = 0 then [.mk .none ⟨0, 0, 0⟩ [.mk .cascaded ⟨1, 1, 1⟩ [], .none]] else [])
    (.cons ⟨_, _, rfl, rfl, rfl⟩ .nil)).1

end DistributedJoin
