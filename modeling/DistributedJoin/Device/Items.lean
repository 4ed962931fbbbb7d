import DistributedJoin.Device.Memory
import Mathlib.Algebra.Order.BigOperators.Group.List

/-!
# Blocks of equally sized items

A block that holds items of one width side by side, the items of a range of
bytes, and integers stored as items in two's complement with the least
significant byte first.
-/

namespace Device

/-- The first items of a block of items of a given width. -/
def itemsOf (block : List Byte) (width count : Nat) : List (List Byte) :=
  (List.range count).map fun index : Nat => readRange block (index * width : Nat) width

@[simp] theorem length_itemsOf (block : List Byte) (width count : Nat) :
    (itemsOf block width count).length = count := by
  simp [itemsOf]

theorem length_of_mem_itemsOf
    {block item : List Byte}
    {width count : Nat}
    (member : item ∈ itemsOf block width count) :
    item.length = width := by
  obtain ⟨index, _, rfl⟩ := List.mem_map.mp member
  exact length_readRange _ _ _

/-- Items of one width take up their number times the width. -/
theorem length_flatten_items
    {items : List (List Byte)}
    {width : Nat}
    (uniform : ∀ item ∈ items, item.length = width) :
    items.flatten.length = items.length * width := by
  rw [List.length_flatten, List.map_congr_left uniform]
  simp

/-- The bytes of consecutive items are a range of the block. -/
theorem readRange_items
    {items : List (List Byte)}
    {width start count : Nat}
    (uniform : ∀ item ∈ items, item.length = width)
    (inside : start + count ≤ items.length) :
    readRange items.flatten (start * width : Nat) (count * width) =
      ((items.drop start).take count).flatten := by
  have split : items = items.take start ++
      ((items.drop start).take count ++ (items.drop start).drop count) := by
    rw [List.take_append_drop, List.take_append_drop]
  have beforeLength : (items.take start).flatten.length = start * width := by
    rw [length_flatten_items fun item member =>
      uniform item (List.mem_of_mem_take member), List.length_take,
      Nat.min_eq_left (by omega)]
  have middleLength : ((items.drop start).take count).flatten.length =
      count * width := by
    rw [length_flatten_items fun item member =>
      uniform item (List.mem_of_mem_drop (List.mem_of_mem_take member)),
      List.length_take, List.length_drop, Nat.min_eq_left (by omega)]
  have read := readRange_append (items.take start).flatten
    ((items.drop start).take count).flatten
    ((items.drop start).drop count).flatten
  rw [beforeLength, middleLength, ← List.flatten_append, ← List.flatten_append,
    List.append_assoc, ← split] at read
  exact read

/-- Cutting a block of items gives back the items. -/
theorem itemsOf_flatten
    {items : List (List Byte)}
    {width : Nat}
    (uniform : ∀ item ∈ items, item.length = width) :
    itemsOf items.flatten width items.length = items := by
  apply List.ext_getElem
  · simp
  · intro index indexBound itemsBound
    rw [length_itemsOf] at indexBound
    have read : readRange items.flatten (index * width : Nat) (1 * width) =
        ((items.drop index).take 1).flatten :=
      readRange_items uniform (by omega)
    rw [Nat.one_mul] at read
    simp only [itemsOf, List.getElem_map, List.getElem_range, read]
    rw [List.drop_eq_getElem_cons itemsBound, List.take_succ_cons, List.take_zero,
      List.flatten_cons, List.flatten_nil, List.append_nil]

/-- Adjacent ranges of a block form one range. -/
theorem readRange_add
    (block : List Byte)
    (start : Int)
    (first second : Nat) :
    readRange block start (first + second) =
      readRange block start first ++ readRange block (start + first) second := by
  unfold readRange
  rw [List.range_add, List.map_append, List.map_map]
  congr 1
  apply List.map_congr_left
  intro index _
  rw [Function.comp_apply, Nat.cast_add, Int.add_assoc]

/-- The ranges between neighbouring positions cover the range from the first to
the last position. -/
theorem readRange_between
    (block : List Byte)
    {position : Nat → Int}
    {start count : Nat}
    (ordered : ∀ index, start ≤ index → index < start + count →
      position index ≤ position (index + 1)) :
    readRange block (position start) (position (start + count) - position start).toNat =
      ((List.range' start count).map fun index =>
        readRange block (position index)
          (position (index + 1) - position index).toNat).flatten := by
  induction count with
  | zero => simp [readRange]
  | succ count inductionHypothesis =>
      have earlier : ∀ bound, bound ≤ count →
          position start ≤ position (start + bound) := by
        intro bound
        induction bound with
        | zero => intro _; exact Int.le_refl _
        | succ bound below =>
            intro boundLe
            exact (below (Nat.le_of_succ_le boundLe)).trans
              (ordered (start + bound) (by omega) (by omega))
      have first := earlier count (Nat.le_refl count)
      have last := ordered (start + count) (by omega) (by omega)
      have sizes : (position (start + (count + 1)) - position start).toNat =
          (position (start + count) - position start).toNat +
            (position (start + count + 1) - position (start + count)).toNat := by
        rw [← Nat.add_assoc]
        omega
      have middle : position start +
          ((position (start + count) - position start).toNat : Int) =
            position (start + count) := by
        omega
      rw [sizes, readRange_add, middle, inductionHypothesis
        fun index above below => ordered index above (by omega), List.range'_1_concat]
      simp

/-- A range of items of a block. -/
theorem readRange_eq_flatten_itemsOf
    {block : List Byte}
    {width total start count : Nat}
    (inside : start + count ≤ total) :
    readRange block (start * width : Nat) (count * width) =
      (((itemsOf block width total).drop start).take count).flatten := by
  let position : Nat → Int := fun index => (index * width : Nat)
  have next : ∀ index, position (index + 1) = position index + width := by
    intro index
    simp only [position, Nat.succ_mul, Nat.cast_add]
  have whole : position (start + count) - position start = (count * width : Nat) := by
    simp only [position, Nat.add_mul, Nat.cast_add]
    omega
  have ranges := readRange_between block fun index (_ : start ≤ index)
    (_ : index < start + count) => (next index ▸ by omega : position index ≤ position (index + 1))
  rw [whole, Int.toNat_natCast] at ranges
  rw [ranges, itemsOf, ← List.map_drop, ← List.map_take, List.range_eq_range',
    List.drop_range', List.take_range'_of_length_ge (by omega)]
  congr 1
  simp only [next, add_sub_cancel_left, Int.toNat_natCast, Nat.mul_one, Nat.zero_add,
    position]

/-- One of several pieces laid side by side. -/
theorem readRange_flatten_map_range
    (piece : Nat → List Byte)
    {index count : Nat}
    (indexBound : index < count) :
    readRange ((List.range count).map piece).flatten
        (((List.range index).map fun earlier => (piece earlier).length).sum : Nat)
        (piece index).length =
      piece index := by
  have split : List.range count = List.range index ++
      ([index] ++ List.range' (index + 1) (count - (index + 1))) := by
    have size : count = index + (1 + (count - (index + 1))) := by omega
    conv_lhs => rw [size]
    rw [List.range_eq_range', List.range_eq_range', List.range'_append_1.symm,
      List.range'_append_1.symm]
    simp
  have beforeLength : ((List.range index).map piece).flatten.length =
      ((List.range index).map fun earlier => (piece earlier).length).sum := by
    rw [List.length_flatten, List.map_map]
    rfl
  have read := readRange_append ((List.range index).map piece).flatten (piece index)
    ((List.range' (index + 1) (count - (index + 1))).map piece).flatten
  rw [beforeLength] at read
  rw [split]
  simpa using read

/-- The bytes of an integer, least significant first. -/
def encode (width : Nat) (value : Int) : List Byte :=
  (List.range width).map fun index : Nat =>
    UInt8.ofNat ((value / 256 ^ index) % 256).toNat

/-- The number with the given bytes, least significant first. -/
def unsigned : List Byte → Nat
  | [] => 0
  | byte :: rest => byte.toNat + 256 * unsigned rest

/-- The integer that is stored in two's complement. -/
def decode (bytes : List Byte) : Int :=
  (unsigned bytes : Int).bmod (256 ^ bytes.length)

@[simp] theorem length_encode (width : Nat) (value : Int) :
    (encode width value).length = width := by
  simp [encode]

theorem encode_succ (width : Nat) (value : Int) :
    encode (width + 1) value =
      UInt8.ofNat (value % 256).toNat :: encode width (value / 256) := by
  unfold encode
  rw [List.range_succ_eq_map, List.map_cons, List.map_map]
  congr 1
  · simp
  · apply List.map_congr_left
    intro index _
    simp only [Function.comp_apply]
    rw [Int.ediv_ediv_of_nonneg (by decide), pow_succ']

/-- The bytes of an integer determine it modulo the range of its width. -/
theorem unsigned_encode (width : Nat) (value : Int) :
    (unsigned (encode width value) : Int) = value % 256 ^ width := by
  induction width generalizing value with
  | zero => simp [encode, unsigned]
  | succ width inductionHypothesis =>
      have low : ((UInt8.ofNat (value % 256).toNat).toNat : Int) = value % 256 := by
        have bound : (value % 256).toNat < 256 := by omega
        rw [UInt8.toNat_ofNat']
        omega
      rw [encode_succ, unsigned, Nat.cast_add, Nat.cast_mul, inductionHypothesis,
        low]
      have split : value % 256 ^ (width + 1) =
          value % 256 + 256 * (value / 256 % 256 ^ width) := by
        rw [pow_succ', Int.emod_def, Int.emod_def value 256,
          Int.emod_def (value / 256), Int.ediv_ediv_of_nonneg (by decide)]
        ring
      rw [split]
      rfl

/-- Decoding the bytes of an integer wraps it into the range of its width. -/
theorem decode_encode (width : Nat) (value : Int) :
    decode (encode width value) = value.bmod (256 ^ width) := by
  unfold decode
  rw [length_encode, unsigned_encode]
  have power : ((256 ^ width : Nat) : Int) = 256 ^ width := by simp
  rw [← power, Int.emod_bmod]

/-- The bytes of an integer do not change if a multiple of the range is added. -/
theorem encode_add_mul (width : Nat) (value factor : Int) :
    encode width (value + factor * 256 ^ width) = encode width value := by
  apply List.map_congr_left
  intro index range
  have bound := List.mem_range.mp range
  have power : (256 : Int) ^ width = 256 ^ (width - index - 1) * 256 * 256 ^ index := by
    rw [← pow_succ, ← pow_add]
    congr 1
    omega
  rw [power, ← Int.mul_assoc, ← Int.mul_assoc,
    Int.add_mul_ediv_right _ _ (pow_ne_zero index (by decide)), Int.add_mul_emod_self_right]

/-- An integer that is stored and read back has the same bytes. -/
theorem encode_decode_encode_add (width : Nat) (value constant : Int) :
    encode width (decode (encode width value) + constant) = encode width (value + constant) := by
  obtain ⟨factor, difference⟩ := @Int.dvd_bmod_sub_self value (256 ^ width)
  have wrapped : value.bmod (256 ^ width) + constant =
      value + constant + factor * 256 ^ width := by
    push_cast at difference
    rw [Int.mul_comm factor, ← difference]
    omega
  rw [decode_encode, wrapped, encode_add_mul]

/-- A block of integers. -/
def encodeWords (width : Nat) (values : List Int) : List Byte :=
  (values.map (encode width)).flatten

/-- The first integers of a block. -/
def decodeWords (width : Nat) (block : List Byte) (count : Nat) : List Int :=
  (itemsOf block width count).map decode

theorem mem_map_encode_length
    {width : Nat}
    {values : List Int}
    {item : List Byte}
    (member : item ∈ values.map (encode width)) :
    item.length = width := by
  obtain ⟨value, _, rfl⟩ := List.mem_map.mp member
  exact length_encode width value

@[simp] theorem length_encodeWords (width : Nat) (values : List Int) :
    (encodeWords width values).length = values.length * width := by
  rw [encodeWords, length_flatten_items fun item member =>
    mem_map_encode_length member, List.length_map]

/-- Blocks of integers side by side are one block. -/
theorem encodeWords_flatMap
    {κ : Type}
    (width : Nat)
    (keys : List κ)
    (values : κ → List Int) :
    encodeWords width (keys.flatMap values) =
      (keys.map fun key => encodeWords width (values key)).flatten := by
  induction keys with
  | nil => rfl
  | cons key rest inductionHypothesis =>
      rw [List.flatMap_cons, List.map_cons, List.flatten_cons, ← inductionHypothesis,
        encodeWords, List.map_append, List.flatten_append]
      rfl

/-- A range of a block of integers holds consecutive integers. -/
theorem readRange_encodeWords
    {width start count : Nat}
    {values : List Int}
    (inside : start + count ≤ values.length) :
    readRange (encodeWords width values) (start * width : Nat) (count * width) =
      encodeWords width ((values.drop start).take count) := by
  rw [encodeWords, readRange_items (fun item member => mem_map_encode_length member)
    (by rw [List.length_map]; exact inside), ← List.map_drop, ← List.map_take]
  rfl

/-- One integer of a block; beyond its end there are zeros. -/
theorem readRange_encodeWords_one (width : Nat) (values : List Int) (index : Nat) :
    readRange (encodeWords width values) (index * width : Nat) width =
      encode width (values.getD index 0) := by
  rcases Nat.lt_or_ge index values.length with inside | outside
  · have read : readRange (encodeWords width values) (index * width : Nat) (1 * width) = _ :=
      readRange_encodeWords inside
    rw [Nat.one_mul] at read
    rw [read, List.drop_eq_getElem_cons inside, List.take_succ_cons, List.take_zero,
      List.getD_eq_getElem _ _ inside, encodeWords, List.map_singleton, List.flatten_singleton]
  · rw [List.getD_eq_default _ _ outside]
    apply List.map_congr_left
    intro offset _
    have beyond : (encodeWords width values).length ≤ index * width := by
      rw [length_encodeWords]
      exact Nat.mul_le_mul_right width outside
    have position : (((index * width : Nat) : Int) + (offset : Int)).toNat =
        index * width + offset := by omega
    rw [byteAt, if_pos (by omega), position, List.getD_eq_default _ _ (by omega)]
    simp

/-- A range of a block of integers, which may reach beyond its end. -/
theorem readRange_encodeWords_range
    (width : Nat)
    (values : List Int)
    (start count : Nat) :
    readRange (encodeWords width values) (start * width : Nat) (count * width) =
      encodeWords width ((List.range count).map fun index => values.getD (start + index) 0) := by
  have rows : ((List.range (start + count)).drop start).take count =
      (List.range count).map fun index => start + index := by
    rw [List.range_eq_range', List.drop_range', List.take_range'_of_length_ge (by omega),
      List.range'_eq_map_range]
    simp
  rw [readRange_eq_flatten_itemsOf (Nat.le_refl (start + count)), itemsOf, ← List.map_drop,
    ← List.map_take, rows, List.map_map]
  conv_rhs => rw [encodeWords, List.map_map]
  congr 1
  apply List.map_congr_left
  intro index _
  exact readRange_encodeWords_one width values (start + index)

/-- Inside a list, reading by index is cutting out a part. -/
theorem map_range_getD
    {values : List Int}
    {start count : Nat}
    (inside : start + count ≤ values.length) :
    ((List.range count).map fun index => values.getD (start + index) 0) =
      (values.drop start).take count := by
  apply List.ext_getElem
  · simp only [List.length_map, List.length_range, List.length_take, List.length_drop]
    omega
  · intro index indexBound _
    rw [List.length_map, List.length_range] at indexBound
    simp only [List.getElem_map, List.getElem_range, List.getElem_take, List.getElem_drop]
    rw [List.getD_eq_getElem _ _ (by omega)]

/-- Integers that fit are read back unchanged. -/
theorem decodeWords_encodeWords
    {width : Nat}
    {values : List Int}
    (fits : ∀ value ∈ values, value.bmod (256 ^ width) = value) :
    decodeWords width (encodeWords width values) values.length = values := by
  have items : itemsOf (values.map (encode width)).flatten width
      (values.map (encode width)).length = values.map (encode width) :=
    itemsOf_flatten fun item member => mem_map_encode_length member
  rw [List.length_map] at items
  rw [decodeWords, encodeWords, items, List.map_map]
  calc
    values.map (decode ∘ encode width) = values.map id :=
      List.map_congr_left fun value member =>
        (decode_encode width value).trans (fits value member)
    _ = values := List.map_id values

end Device
