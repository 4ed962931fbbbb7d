import Mathlib.Algebra.BigOperators.Group.List.Basic
import Mathlib.Algebra.Order.Group.Int
import Mathlib.Data.List.GetD
import Mathlib.Data.List.Perm.Basic
import Mathlib.Data.List.Range
import Mathlib.Tactic.Ring

/-!
# Blocks of memory

Reading ranges of a block and assembling a block from writes. A list of writes
that lays given pieces side by side, in any order, leaves exactly the pieces in
the block and touches every byte once.
-/

namespace Device

/-- One byte of memory. -/
abbrev Byte := UInt8

/-- The byte at an address of a block. Nothing is promised outside the block. -/
def byteAt (block : List Byte) (address : Int) : Byte :=
  if 0 ≤ address then block.getD address.toNat 0 else 0

/-- A range of bytes of a block. -/
def readRange (block : List Byte) (start : Int) (count : Nat) : List Byte :=
  (List.range count).map fun offset : Nat => byteAt block (start + offset)

@[simp] theorem length_readRange (block : List Byte) (start : Int) (count : Nat) :
    (readRange block start count).length = count := by
  simp [readRange]

@[simp] theorem readRange_zero (block : List Byte) (start : Int) :
    readRange block start 0 = [] := rfl

/-- Inside a block a range is a slice of the block. -/
theorem readRange_eq
    {block : List Byte}
    {start count : Nat}
    (inside : start + count ≤ block.length) :
    readRange block start count = (block.drop start).take count := by
  apply List.ext_getElem
  · rw [length_readRange, List.length_take, List.length_drop]
    omega
  · intro index indexBound _
    rw [length_readRange] at indexBound
    have position : ((start : Int) + (index : Int)).toNat = start + index := by
      omega
    simp only [readRange, List.getElem_map, List.getElem_range, byteAt,
      List.getElem_take, List.getElem_drop, position]
    rw [if_pos (by omega), List.getD_eq_getElem _ _ (by omega)]

/-- A range of a concatenation that is one of its middle parts. -/
theorem readRange_append
    (before middle after : List Byte) :
    readRange (before ++ middle ++ after) before.length middle.length = middle := by
  rw [readRange_eq (by simp)]
  simp

/-- Bytes written to consecutive addresses. -/
structure Write where
  start : Int
  bytes : List Byte
  deriving DecidableEq

namespace Write

/-- The byte that a write puts at an address. -/
def byte? (write : Write) (address : Int) : Option Byte :=
  if write.start ≤ address then write.bytes[(address - write.start).toNat]?
  else none

/-- The addresses that a write changes. -/
def Covers (write : Write) (address : Int) : Prop :=
  write.start ≤ address ∧ address < write.start + write.bytes.length

instance (write : Write) (address : Int) : Decidable (write.Covers address) :=
  inferInstanceAs (Decidable (_ ∧ _))

theorem byte?_isSome {write : Write} {address : Int} :
    (write.byte? address).isSome ↔ write.Covers address := by
  unfold byte? Covers
  split
  · rename_i above
    rw [isSome_getElem?]
    omega
  · rename_i below
    simp only [Option.isSome_none, Bool.false_eq_true, false_iff]
    omega

/-- A write of no bytes changes nothing. -/
theorem not_covers_of_empty
    {write : Write}
    (empty : write.bytes = [])
    (address : Int) :
    ¬ write.Covers address := by
  rintro ⟨above, below⟩
  rw [empty] at below
  simp only [List.length_nil, Nat.cast_zero, add_zero] at below
  omega

end Write

/-- The byte at an address after a list of writes: the last write to an address
wins. -/
def contentAt (initial : Int → Byte) (writes : List Write) (address : Int) : Byte :=
  writes.foldl (fun byte write => (write.byte? address).getD byte) (initial address)

/-- The first bytes of a block after a list of writes. -/
def contents (initial : Int → Byte) (writes : List Write) (size : Nat) : List Byte :=
  (List.range size).map fun address : Nat => contentAt initial writes address

@[simp] theorem length_contents
    (initial : Int → Byte)
    (writes : List Write)
    (size : Nat) :
    (contents initial writes size).length = size := by
  simp [contents]

/-- When every write to an address puts the same byte there, and there is one,
that byte is found at the address. -/
theorem contentAt_eq
    {initial : Int → Byte}
    {writes : List Write}
    {address : Int}
    {byte : Byte}
    (written : ∃ write ∈ writes, write.byte? address = some byte)
    (agreed : ∀ write ∈ writes, ∀ other,
      write.byte? address = some other → other = byte) :
    contentAt initial writes address = byte := by
  have stable : ∀ (rest : List Write),
      (∀ write ∈ rest, ∀ other,
        write.byte? address = some other → other = byte) →
      rest.foldl (fun byte write => (write.byte? address).getD byte) byte =
        byte := by
    intro rest
    induction rest with
    | nil => intro _; rfl
    | cons head tail inductionHypothesis =>
        intro restAgreed
        have headValue : (head.byte? address).getD byte = byte := by
          cases found : head.byte? address with
          | none => rfl
          | some other => exact restAgreed head (by simp) other found
        rw [List.foldl_cons, headValue]
        exact inductionHypothesis fun write member =>
          restAgreed write (by simp [member])
  obtain ⟨write, member, value⟩ := written
  obtain ⟨before, after, rfl⟩ := List.append_of_mem member
  unfold contentAt
  rw [List.foldl_append, List.foldl_cons, value]
  exact stable after fun other otherMember => agreed other (by simp [otherMember])

/-- An address that no write changes keeps its byte. -/
theorem contentAt_of_not_covered
    {initial : Int → Byte}
    {writes : List Write}
    {address : Int}
    (untouched : ∀ write ∈ writes, ¬ write.Covers address) :
    contentAt initial writes address = initial address := by
  unfold contentAt
  generalize initial address = byte
  induction writes with
  | nil => rfl
  | cons head tail inductionHypothesis =>
      have unchanged : head.byte? address = none := by
        rw [← Option.not_isSome_iff_eq_none, Write.byte?_isSome]
        exact untouched head (by simp)
      rw [List.foldl_cons, unchanged, Option.getD_none]
      exact inductionHypothesis fun write member => untouched write (by simp [member])

/-- Empty writes do not matter for the contents of a block. -/
theorem contents_filter
    (initial : Int → Byte)
    (writes : List Write)
    (size : Nat) :
    contents initial (writes.filter fun write => !write.bytes.isEmpty) size =
      contents initial writes size := by
  unfold contents
  apply List.map_congr_left
  intro address _
  unfold contentAt
  generalize initial (address : Int) = byte
  induction writes generalizing byte with
  | nil => rfl
  | cons head tail inductionHypothesis =>
      by_cases empty : head.bytes = []
      · have unchanged : head.byte? address = none := by
          simp [Write.byte?, empty]
        simp [empty, unchanged, inductionHypothesis]
      · simp [empty, inductionHypothesis]

/-- Lay pieces side by side from a start address on. -/
def tile : Int → List (List Byte) → List Write
  | _, [] => []
  | start, piece :: rest => ⟨start, piece⟩ :: tile (start + piece.length) rest

/-- A write of a tiling writes a part of the concatenated pieces. -/
theorem byte?_of_mem_tile
    {start : Int}
    {pieces : List (List Byte)}
    {write : Write}
    (member : write ∈ tile start pieces)
    {address : Int}
    {byte : Byte}
    (value : write.byte? address = some byte) :
    start ≤ address ∧ pieces.flatten[(address - start).toNat]? = some byte := by
  induction pieces generalizing start with
  | nil => simp [tile] at member
  | cons piece rest inductionHypothesis =>
      rcases List.mem_cons.mp member with rfl | later
      · unfold Write.byte? at value
        split at value
        · rename_i above
          refine ⟨above, ?_⟩
          rw [List.flatten_cons, List.getElem?_append_left]
          · exact value
          · exact (List.getElem?_eq_some_iff.mp value).1
        · contradiction
      · obtain ⟨above, found⟩ := inductionHypothesis later
        refine ⟨by omega, ?_⟩
        rw [List.flatten_cons, List.getElem?_append_right (by omega)]
        rw [← found]
        congr 1
        omega

/-- How often the writes of a tiling cover an address. -/
theorem countP_covers_tile
    (start : Int)
    (pieces : List (List Byte))
    (address : Int) :
    (tile start pieces).countP (fun write => write.Covers address) =
      if start ≤ address ∧ address < start + pieces.flatten.length then 1 else 0 := by
  induction pieces generalizing start with
  | nil =>
      rw [tile, List.countP_nil, if_neg]
      simp only [List.flatten_nil, List.length_nil, Nat.cast_zero, add_zero]
      omega
  | cons piece rest inductionHypothesis =>
      rw [tile, List.countP_cons, inductionHypothesis, List.flatten_cons,
        List.length_append, Nat.cast_add]
      by_cases here : (Write.mk start piece).Covers address
      · have headCount : (if decide ((Write.mk start piece).Covers address) = true
            then 1 else 0) = 1 := if_pos (decide_eq_true here)
        rw [headCount]
        simp only [Write.Covers] at here
        rw [if_neg (by omega), if_pos (by omega)]
      · have headCount : (if decide ((Write.mk start piece).Covers address) = true
            then 1 else 0) = 0 := if_neg (by rw [decide_eq_true_eq]; exact here)
        rw [headCount, Nat.add_zero]
        simp only [Write.Covers] at here
        split_ifs <;> omega

/-- The writes lay the pieces side by side, in some order; empty pieces may or
may not be written. -/
def Tiles (writes : List Write) (pieces : List (List Byte)) : Prop :=
  (writes.filter fun write => !write.bytes.isEmpty).Perm
    ((tile 0 pieces).filter fun write => !write.bytes.isEmpty)

/-- Leaving out empty writes changes no address. -/
theorem countP_covers_filter (writes : List Write) (address : Int) :
    (writes.filter fun write => !write.bytes.isEmpty).countP
        (fun write => write.Covers address) =
      writes.countP fun write => write.Covers address := by
  rw [List.countP_filter]
  apply List.countP_congr
  intro write _
  simp only [Bool.and_eq_true, decide_eq_true_eq, Bool.not_eq_true',
    List.isEmpty_eq_false_iff]
  constructor
  · exact fun both => both.1
  · exact fun covers =>
      ⟨covers, fun empty => Write.not_covers_of_empty empty address covers⟩

namespace Tiles

variable {writes : List Write} {pieces : List (List Byte)}

/-- Every byte of the pieces is written exactly once and no other byte is
written. -/
theorem covered_once (tiles : Tiles writes pieces) (address : Int) :
    writes.countP (fun write => write.Covers address) =
      if 0 ≤ address ∧ address < pieces.flatten.length then 1 else 0 := by
  calc
    writes.countP (fun write => write.Covers address) =
        (writes.filter fun write => !write.bytes.isEmpty).countP
          (fun write => write.Covers address) :=
      (countP_covers_filter writes address).symm
    _ = ((tile 0 pieces).filter fun write => !write.bytes.isEmpty).countP
          (fun write => write.Covers address) := tiles.countP_eq _
    _ = (tile 0 pieces).countP (fun write => write.Covers address) :=
      countP_covers_filter _ address
    _ = _ := by
      rw [countP_covers_tile]
      simp

/-- A write that changes an address is part of the tiling. -/
theorem mem_tile
    (tiles : Tiles writes pieces)
    {write : Write}
    (member : write ∈ writes)
    {address : Int}
    {byte : Byte}
    (value : write.byte? address = some byte) :
    write ∈ tile 0 pieces := by
  have nonempty : write.bytes ≠ [] := fun empty =>
    Write.not_covers_of_empty empty address
      (Write.byte?_isSome.mp (by rw [value]; rfl))
  have filtered : write ∈ writes.filter fun write => !write.bytes.isEmpty := by
    simp [member, nonempty]
  exact (List.mem_filter.mp (tiles.subset filtered)).1

/-- An address of the pieces holds their byte, and no other address changes. -/
theorem contentAt_eq
    (tiles : Tiles writes pieces)
    (initial : Int → Byte)
    (address : Nat) :
    contentAt initial writes address = pieces.flatten[address]?.getD (initial address) := by
  have once := tiles.covered_once address
  by_cases inside : address < pieces.flatten.length
  · rw [if_pos (by omega)] at once
    rw [List.getElem?_eq_getElem inside, Option.getD_some]
    have agreed : ∀ write ∈ writes, ∀ other,
        write.byte? address = some other → other = pieces.flatten[address] := by
      intro write member other value
      have found := (byte?_of_mem_tile (tiles.mem_tile member value) value).2
      rw [sub_zero, Int.toNat_natCast, List.getElem?_eq_getElem inside] at found
      exact (Option.some.inj found).symm
    have positive : 0 < writes.countP fun write => write.Covers address := by
      rw [once]
      exact Nat.one_pos
    obtain ⟨write, member, covers⟩ := List.countP_pos_iff.mp positive
    have covered : (write.byte? address).isSome :=
      Write.byte?_isSome.mpr (of_decide_eq_true covers)
    obtain ⟨byte, value⟩ := Option.isSome_iff_exists.mp covered
    refine Device.contentAt_eq ⟨write, member, ?_⟩ agreed
    rw [value, agreed write member byte value]
  · rw [if_neg (by omega)] at once
    rw [List.getElem?_eq_none (not_lt.mp inside), Option.getD_none]
    apply contentAt_of_not_covered
    intro write member covers
    exact List.countP_eq_zero.mp once write member (decide_eq_true covers)

/-- The block holds the concatenated pieces. -/
theorem contents_eq
    (tiles : Tiles writes pieces)
    (initial : Int → Byte) :
    contents initial writes pieces.flatten.length = pieces.flatten := by
  apply List.ext_getElem
  · simp
  · intro index indexBound piecesBound
    simp only [contents, List.getElem_map, List.getElem_range]
    rw [tiles.contentAt_eq initial index, List.getElem?_eq_getElem piecesBound,
      Option.getD_some]

/-- Tilings with pieces of the same bytes leave the same contents in a block of any
size. -/
theorem contents_congr
    {others : List Write}
    {otherPieces : List (List Byte)}
    (tiles : Tiles writes pieces)
    (otherTiles : Tiles others otherPieces)
    (same : pieces.flatten = otherPieces.flatten)
    (initial : Int → Byte)
    (size : Nat) :
    contents initial writes size = contents initial others size := by
  unfold contents
  apply List.map_congr_left
  intro address _
  rw [tiles.contentAt_eq, otherTiles.contentAt_eq, same]

end Tiles

/-- A tiling by index: every piece starts where the pieces before it end. -/
theorem tile_map_range (piece : Nat → List Byte) (count : Nat) :
    tile 0 ((List.range count).map piece) =
      (List.range count).map fun index =>
        ⟨(((List.range index).map fun earlier => (piece earlier).length).sum : Nat),
          piece index⟩ := by
  have shifted : ∀ (start : Int) (offset : Nat),
      tile start ((List.range' offset count).map piece) =
        (List.range' offset count).map fun index =>
          ⟨start + (((List.range' offset (index - offset)).map fun earlier =>
              (piece earlier).length).sum : Nat), piece index⟩ := by
    induction count with
    | zero => intro start offset; rfl
    | succ count inductionHypothesis =>
        intro start offset
        rw [List.range'_succ, List.map_cons, tile, inductionHypothesis,
          List.map_cons]
        congr 1
        · simp
        · apply List.map_congr_left
          intro index member
          have above : offset + 1 ≤ index := (List.mem_range'_1.mp member).1
          have step : index - offset = index - (offset + 1) + 1 := by omega
          rw [step, List.range'_succ]
          simp only [List.map_cons, List.sum_cons, Nat.cast_add]
          congr 1
          ring
  have atZero := shifted 0 0
  simpa [List.range_eq_range'] using atZero

/-- Writing the pieces at their places in a tiling, except some empty ones. -/
theorem tiles_of_filter
    (piece : Nat → List Byte)
    (count : Nat)
    (kept : Nat → Bool)
    {start : Nat → Int}
    (places : ∀ index, index < count →
      start index = (((List.range index).map fun earlier => (piece earlier).length).sum : Nat))
    (dropped : ∀ index, index < count → kept index = false → piece index = []) :
    Tiles (((List.range count).filter kept).map fun index => ⟨start index, piece index⟩)
      ((List.range count).map piece) := by
  unfold Tiles
  apply List.Perm.of_eq
  rw [tile_map_range, List.filter_map, List.filter_map, List.filter_filter]
  have sameIndices : (List.range count).filter (fun index =>
      ((fun write : Write => !write.bytes.isEmpty) ∘
        fun index => (⟨start index, piece index⟩ : Write)) index && kept index) =
      (List.range count).filter ((fun write : Write => !write.bytes.isEmpty) ∘
        fun index => (⟨(((List.range index).map fun earlier =>
          (piece earlier).length).sum : Nat), piece index⟩ : Write)) := by
    apply List.filter_congr
    intro index member
    simp only [Function.comp_apply]
    cases keep : kept index with
    | true => simp
    | false => simp [dropped index (List.mem_range.mp member) keep]
  rw [sameIndices]
  apply List.map_congr_left
  intro index member
  rw [places index (List.mem_range.mp (List.mem_of_mem_filter member))]

/-- Rearranging the writes does not disturb a tiling. -/
theorem Tiles.of_perm
    {writes others : List Write}
    {pieces : List (List Byte)}
    (tiles : Tiles writes pieces)
    (rearranged : (others.filter fun write => !write.bytes.isEmpty).Perm
      (writes.filter fun write => !write.bytes.isEmpty)) :
    Tiles others pieces :=
  rearranged.trans tiles

end Device
