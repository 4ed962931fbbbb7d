import DistributedJoin.Cudf.Table
import DistributedJoin.Device.Integers

/-!
# Compressing partitions

The two functors around the cascaded codec. Every partition of a buffer is
compressed on its own, and a partition without elements is skipped. The codec is
a parameter.
-/

namespace DistributedJoin

open Device

/-- How a buffer is compressed. -/
inductive CompressionMethod
  | none
  | cascaded
  | lz4
  deriving DecidableEq, Repr

/-- `nvcompCascadedFormatOpts`. -/
structure CascadedFormat where
  num_RLEs : Int
  num_deltas : Int
  use_bp : Int
  deriving DecidableEq, Repr

/-- How to compress a column. The children belong to the subcolumns of a string
column. -/
inductive ColumnCompressionOptions
  | mk
      (compression_method : CompressionMethod)
      (cascaded_format : CascadedFormat)
      (children_compression_options : List ColumnCompressionOptions)

namespace ColumnCompressionOptions

def compression_method : ColumnCompressionOptions → CompressionMethod
  | .mk method _ _ => method

def cascaded_format : ColumnCompressionOptions → CascadedFormat
  | .mk _ format _ => format

def children_compression_options :
    ColumnCompressionOptions → List ColumnCompressionOptions
  | .mk _ _ children => children

/-- The constructor without arguments. -/
def none : ColumnCompressionOptions := .mk .none ⟨0, 0, 0⟩ []

/-- The options of a subcolumn. -/
def child (options : ColumnCompressionOptions) (index : Nat) :
    ColumnCompressionOptions :=
  options.children_compression_options.getD index none

end ColumnCompressionOptions

/-- Options that turn compression off for all columns of a table. -/
def generate_none_compression_options
    (input_table : Table) : List ColumnCompressionOptions :=
  input_table.map fun column =>
    if column.type.id = .STRING then .mk .none ⟨0, 0, 0⟩ [.none, .none] else .none

/-- The cascaded codec: a block of any size and the block it stands for. -/
structure Codec where
  compress : TypeId → CascadedFormat → List Byte → List Byte
  decompress : List Byte → List Byte
  /-- Decompressing a compressed block gives the block back. -/
  lossless : ∀ type format block, block ≠ [] →
    decompress (compress type format block) = block

/-- What the code runs on: the codec, and whatever freshly allocated device
memory contains. -/
structure Gpu where
  codec : Codec
  uninitialized : Int → Byte

/-- Types that `compression_functor` and `decompression_functor` accept. -/
def TypeId.compressible (id : TypeId) : Bool :=
  id.is_cascaded_supported || id.is_time_t

/-- Compress the partitions of a buffer, given by their address in the buffer
and their number of elements. -/
def compression_functor
    (codec : Codec)
    (dtype : DataType)
    (cascaded_format : CascadedFormat)
    (send_buffer : List Byte)
    (uncompressed : List (Int × Int)) : Except String (List (List Byte)) :=
  if dtype.id.compressible then
    .ok (uncompressed.map fun partition =>
      if partition.2 = 0 then []
      else codec.compress dtype.id cascaded_format
        (readRange send_buffer partition.1
          (toSizeT (partition.2 * dtype.id.size_of))))
  else .error "Unsupported type for cascaded compressor"

/-- Decompress partitions, given by their compressed block and the number of
elements expected. Nothing is written for a partition that expects no
elements. -/
def decompression_functor
    (codec : Codec)
    (dtype : DataType)
    (compressed : List (List Byte × Int)) :
    Except String (List (Option (List Byte))) :=
  if dtype.id.compressible then
    compressed.mapM fun partition =>
      if partition.2 = 0 then .ok Option.none
      else
        let output := codec.decompress partition.1
        if output.length = toSizeT (partition.2 * dtype.id.size_of) then
          .ok (some output)
        else .error
          "output_bytes == expected_output_counts[ipartition] * sizeof(T)"
  else .error "Unsupported type for cascaded decompressor"

/-- A codec that stores blocks as they are. -/
def storingCodec : Codec where
  compress := fun _ _ block => block
  decompress := id
  lossless := fun _ _ _ _ => rfl

/-- A device with cleared memory. -/
def storingGpu : Gpu where
  codec := storingCodec
  uninitialized := fun _ => 0

end DistributedJoin
