import DistributedJoin.Device.Memory
import Mathlib.Data.Multiset.AddSub

/-!
# The memory of a device

A device has one flat memory, an allocator that hands out regions of it, and a
stream of commands that allocate, copy and free. The allocator may choose any
region that has no byte in common with the regions in use.
-/

namespace Device

/-- All memory of a device, by address. -/
abbrev Heap := Int → Byte

/-- Consecutive addresses. -/
structure Region where
  start : Int
  size : Nat
  deriving DecidableEq

namespace Region

/-- The addresses of a region. -/
def Covers (region : Region) (address : Int) : Prop :=
  region.start ≤ address ∧ address < region.start + region.size

instance (region : Region) (address : Int) : Decidable (region.Covers address) :=
  inferInstanceAs (Decidable (_ ∧ _))

/-- A larger region with the same start covers more. -/
theorem Covers.mono
    {start address : Int}
    {size larger : Nat}
    (covers : (Region.mk start size).Covers address)
    (le : size ≤ larger) :
    (Region.mk start larger).Covers address := by
  refine ⟨covers.1, covers.2.trans_le ?_⟩
  change start + (size : Int) ≤ start + (larger : Int)
  omega

/-- A write changes no more than the region of its size. -/
theorem covers_of_write
    {start address : Int}
    {bytes : List Byte}
    {size : Nat}
    (covers : (Write.mk start bytes).Covers address)
    (fits : bytes.length ≤ size) :
    (Region.mk start size).Covers address :=
  Covers.mono covers fits

/-- Two regions have no address in common. -/
def Apart (region other : Region) : Prop :=
  ∀ address, region.Covers address → ¬ other.Covers address

theorem Apart.symm {region other : Region} (apart : region.Apart other) :
    other.Apart region :=
  fun address covered covers => apart address covers covered

/-- Every address of a region belongs to a region of a collection. -/
def Within (region : Region) (live : Multiset Region) : Prop :=
  ∀ address, region.Covers address → ∃ other ∈ live, other.Covers address

end Region

namespace Heap

/-- The bytes of a region. -/
def read (heap : Heap) (start : Int) (size : Nat) : List Byte :=
  (List.range size).map fun offset : Nat => heap (start + offset)

/-- The memory after a write. -/
def write (heap : Heap) (write : Write) : Heap :=
  fun address => (write.byte? address).getD (heap address)

@[simp] theorem length_read (heap : Heap) (start : Int) (size : Nat) :
    (heap.read start size).length = size := by
  simp [read]

/-- The first bytes of a region. -/
theorem take_read
    (heap : Heap)
    (start : Int)
    {count size : Nat}
    (inside : count ≤ size) :
    (heap.read start size).take count = heap.read start count := by
  rw [read, ← List.map_take, List.take_range, Nat.min_eq_left inside]
  rfl

/-- What is read from a region depends on its bytes only. -/
theorem read_congr
    {heap other : Heap}
    {start : Int}
    {size : Nat}
    (same : ∀ address, (Region.mk start size).Covers address →
      heap address = other address) :
    heap.read start size = other.read start size := by
  apply List.map_congr_left
  intro offset member
  have bound := List.mem_range.mp member
  refine same _ ⟨?_, ?_⟩
  · change start ≤ start + offset
    omega
  · change start + offset < start + size
    omega

/-- The bytes of two regions next to each other. -/
theorem read_append (heap : Heap) (start : Int) (first second : Nat) :
    heap.read start (first + second) =
      heap.read start first ++ heap.read (start + first) second := by
  rw [read, List.range_add, List.map_append, List.map_map]
  congr 1
  apply List.map_congr_left
  intro offset _
  change heap (start + ((first + offset : Nat) : Int)) = heap (start + first + offset)
  rw [Nat.cast_add, add_assoc]

/-- The bytes of a part of a region. -/
theorem drop_take_read
    (heap : Heap)
    (start : Int)
    {offset count size : Nat}
    (inside : offset + count ≤ size) :
    ((heap.read start size).drop offset).take count = heap.read (start + offset) count := by
  obtain ⟨rest, rfl⟩ := Nat.exists_eq_add_of_le inside
  rw [Nat.add_assoc, read_append, List.drop_left' (length_read heap start offset),
    take_read heap (start + offset) (Nat.le_add_right count rest)]

/-- A write leaves the addresses outside it alone. -/
theorem write_of_not_covers
    (heap : Heap)
    {write : Write}
    {address : Int}
    (outside : ¬ write.Covers address) :
    heap.write write address = heap address := by
  have missed : write.byte? address = none := by
    rw [← Option.not_isSome_iff_eq_none, Write.byte?_isSome]
    exact outside
  rw [Heap.write, missed]
  rfl

/-- What was written is read back. -/
theorem read_write
    (heap : Heap)
    (start : Int)
    {bytes : List Byte}
    {count : Nat}
    (inside : count ≤ bytes.length) :
    (heap.write ⟨start, bytes⟩).read start count = bytes.take count := by
  apply List.ext_getElem
  · rw [length_read, List.length_take, Nat.min_eq_left inside]
  · intro offset offsetBound _
    rw [length_read] at offsetBound
    have position : (start + (offset : Int) - start).toNat = offset := by omega
    simp only [read, List.getElem_map, List.getElem_range, List.getElem_take, write,
      Write.byte?, position]
    rw [if_pos (by omega), List.getElem?_eq_getElem (by omega), Option.getD_some]

/-- Perform writes one after the other. -/
def writeAll (heap : Heap) (writes : List Write) : Heap :=
  writes.foldl write heap

@[simp] theorem writeAll_nil (heap : Heap) : heap.writeAll [] = heap := rfl

@[simp] theorem writeAll_cons (heap : Heap) (first : Write) (rest : List Write) :
    heap.writeAll (first :: rest) = (heap.write first).writeAll rest := rfl

theorem writeAll_apply (heap : Heap) (writes : List Write) (address : Int) :
    heap.writeAll writes address = contentAt heap writes address := by
  unfold contentAt
  induction writes generalizing heap with
  | nil => rfl
  | cons head tail inductionHypothesis =>
      rw [writeAll_cons, List.foldl_cons, inductionHypothesis]
      rfl

/-- Writes leave the addresses outside them alone. -/
theorem writeAll_of_not_covers
    (heap : Heap)
    {writes : List Write}
    {address : Int}
    (outside : ∀ write ∈ writes, ¬ write.Covers address) :
    heap.writeAll writes address = heap address := by
  rw [writeAll_apply]
  exact contentAt_of_not_covered outside

/-- What was written is read back, if no other write meets it. -/
theorem read_writeAll
    (heap : Heap)
    {writes : List Write}
    (apart : writes.Pairwise fun write other =>
      ∀ address, write.Covers address → ¬ other.Covers address)
    {write : Write}
    (member : write ∈ writes)
    {count : Nat}
    (inside : count ≤ write.bytes.length) :
    (heap.writeAll writes).read write.start count = write.bytes.take count := by
  induction writes generalizing heap with
  | nil => simp at member
  | cons head tail inductionHypothesis =>
      obtain ⟨headApart, tailApart⟩ := List.pairwise_cons.mp apart
      rcases List.mem_cons.mp member with rfl | later
      · rw [writeAll_cons, ← read_write heap write.start inside]
        apply read_congr
        intro address covered
        apply writeAll_of_not_covers
        intro other otherMember
        refine headApart other otherMember address ⟨covered.1, ?_⟩
        have below : address < write.start + count := covered.2
        omega
      · rw [writeAll_cons]
        exact inductionHypothesis (heap.write head) tailApart later

end Heap

/-- What a program asks of its device. -/
inductive Command
  | allocate (region : Region)
  | deallocate (region : Region)
  | memcpy (target source : Int) (size : Nat)
  deriving DecidableEq

namespace Command

/-- The region that a command allocates. -/
def allocated : Command → Option Region
  | .allocate region => some region
  | _ => none

/-- The region that a command frees. -/
def deallocated : Command → Option Region
  | .deallocate region => some region
  | _ => none

/-- Target, source and size of the copy that a command makes. -/
def copied : Command → Option (Int × Int × Nat)
  | .memcpy target source size => some (target, source, size)
  | _ => none

end Command

/-- Where new regions are placed. The choice may depend on everything that has
happened, and never meets a region in use. An allocation that fails throws, so
it places nothing. -/
structure Allocator where
  place : List Command → Multiset Region → Nat → Int
  fresh : ∀ commands live size, ∀ region ∈ live,
    (Region.mk (place commands live size) size).Apart region

/-- A device as one program sees it. -/
structure Cuda where
  heap : Heap
  /-- The regions in use. -/
  live : Multiset Region
  /-- Everything asked of the device, oldest first. -/
  commands : List Command

namespace Cuda

/-- Get a region of the given size. -/
def allocate (cuda : Cuda) (allocator : Allocator) (size : Nat) : Int × Cuda :=
  let region : Region := ⟨allocator.place cuda.commands cuda.live size, size⟩
  (region.start,
    { cuda with
      live := region ::ₘ cuda.live
      commands := cuda.commands ++ [.allocate region] })

/-- Give a region back. Only a region in use can be given back. -/
def deallocate (cuda : Cuda) (region : Region) : Option Cuda :=
  if region ∈ cuda.live then
    some
      { cuda with
        live := cuda.live.erase region
        commands := cuda.commands ++ [.deallocate region] }
  else none

/-- Copy bytes within the memory. -/
def memcpy (cuda : Cuda) (target source : Int) (size : Nat) : Cuda :=
  { cuda with
    heap := cuda.heap.write ⟨target, cuda.heap.read source size⟩
    commands := cuda.commands ++ [.memcpy target source size] }

/-- Make copies one after the other, given by target, source and size. -/
def copyAll (cuda : Cuda) (copies : List (Int × Int × Nat)) : Cuda :=
  copies.foldl (fun cuda copy => cuda.memcpy copy.1 copy.2.1 copy.2.2) cuda

/-- When no copy writes what another reads, all of them read what was there before. -/
theorem copyAll_eq
    (cuda : Cuda)
    {copies : List (Int × Int × Nat)}
    (apart : ∀ copy ∈ copies, ∀ other ∈ copies,
      (Region.mk copy.2.1 copy.2.2).Apart ⟨other.1, other.2.2⟩) :
    cuda.copyAll copies =
      { cuda with
        heap := cuda.heap.writeAll
          (copies.map fun copy => ⟨copy.1, cuda.heap.read copy.2.1 copy.2.2⟩)
        commands := cuda.commands ++
          copies.map fun copy => .memcpy copy.1 copy.2.1 copy.2.2 } := by
  induction copies generalizing cuda with
  | nil => simp [copyAll]
  | cons head tail inductionHypothesis =>
      have later := inductionHypothesis (cuda.memcpy head.1 head.2.1 head.2.2)
        fun copy member other otherMember =>
          apart copy (by simp [member]) other (by simp [otherMember])
      have unread : ∀ copy ∈ tail,
          (cuda.memcpy head.1 head.2.1 head.2.2).heap.read copy.2.1 copy.2.2 =
            cuda.heap.read copy.2.1 copy.2.2 := by
        intro copy member
        apply Heap.read_congr
        intro address covered
        apply Heap.write_of_not_covers
        rintro ⟨above, below⟩
        rw [Heap.length_read] at below
        exact apart copy (by simp [member]) head (by simp) address covered ⟨above, below⟩
      have writes : (tail.map fun copy => (⟨copy.1,
            (cuda.memcpy head.1 head.2.1 head.2.2).heap.read copy.2.1 copy.2.2⟩ : Write)) =
          tail.map fun copy => ⟨copy.1, cuda.heap.read copy.2.1 copy.2.2⟩ := by
        apply List.map_congr_left
        intro copy member
        rw [unread copy member]
      rw [copyAll, List.foldl_cons]
      change (cuda.memcpy head.1 head.2.1 head.2.2).copyAll tail = _
      rw [later, writes]
      simp [memcpy]

/-- Regions that are in use can be given back, each once. -/
theorem foldlM_deallocate
    (regions : List Region)
    (cuda : Cuda)
    {rest : Multiset Region}
    (used : cuda.live = regions + rest) :
    regions.foldlM (fun cuda region => cuda.deallocate region) cuda =
      some
        { cuda with
          live := rest
          commands := cuda.commands ++ regions.map .deallocate } := by
  induction regions generalizing cuda with
  | nil =>
      have same : cuda.live = rest := by simpa using used
      simp [← same]
  | cons region regions inductionHypothesis =>
      have member : region ∈ cuda.live := by
        rw [used]
        simp
      have erased : cuda.live.erase region = regions + rest := by
        rw [used, ← Multiset.cons_coe, Multiset.cons_add, Multiset.erase_cons_head]
      have later := inductionHypothesis
        { cuda with
          live := cuda.live.erase region
          commands := cuda.commands ++ [.deallocate region] } erased
      rw [List.foldlM_cons, deallocate, if_pos member]
      simpa using later

end Cuda

end Device
