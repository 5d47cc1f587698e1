import Mathlib.Algebra.Ring.Nat
import TraceRecorderTests.Base.FlatMemory
import TraceRecorderTests.Cmocka.ListNode

/-!
# The allocator of cmocka

Tests that are compiled for it get their memory from `_test_malloc`. It puts 16
guard bytes on either side of every area and a `MallocBlockInfoData` before them,
keeps the infos in a list, looks at the guards when the area is freed, and looks
at the list when the test ends. The functions here are the code's, on memory with
numbered bytes, in a 64-bit build; the block `malloc` of the C library returns in a
call is an argument, 0 standing for `NULL`. Pointer arithmetic that leaves an area and
its guards is undefined (`none`).
-/

namespace TraceRecorderTests.Cmocka

open Base

/-! ## Memory -/

/-- `MALLOC_GUARD_SIZE`. -/
def mallocGuardSize : Nat := 16

/-- `MALLOC_GUARD_PATTERN`. -/
def mallocGuardPattern : UInt8 := 0xEF

/-- `MALLOC_ALLOC_PATTERN`. -/
def mallocAllocPattern : UInt8 := 0xBA

/-- `MALLOC_FREE_PATTERN`. -/
def mallocFreePattern : UInt8 := 0xCD

/-- `MALLOC_ALIGNMENT`, the size of a `size_t` of 64 bits. -/
def mallocAlignment : Nat := 8

/-- `sizeof(struct MallocBlockInfoData)` with pointers of 64 bits: three words, a
`SourceLocation` of 16 bytes and a `ListNode` of 32. -/
def mallocBlockInfoSize : Nat := 72

/-- The value of an expression of type `size_t`. -/
def sizeT (n : Nat) : Nat := n % 2 ^ 64

/-- `address & ~(MALLOC_ALIGNMENT - 1)`. -/
def alignDown (address : Nat) : Nat :=
  (BitVec.ofNat 64 address &&& ~~~BitVec.ofNat 64 (mallocAlignment - 1)).toNat

/-- `struct MallocBlockInfoData`, but for its node, which is among the nodes, and
the place in the source, which only messages show. -/
structure MallocBlockInfoData where
  block : Nat
  allocatedSize : Nat
  size : Nat
  deriving DecidableEq, Repr

/-- What the allocator works on: the bytes, the infos by their addresses, and the
nodes the infos embed. `none` is the address of `global_allocated_blocks`. -/
structure Arena where
  byte : FlatMemory UInt8
  info : Nat → Option MallocBlockInfoData
  nodes : Heap (Option Nat) Unit

namespace Arena

variable (s : Arena)

/-- `memset`. -/
def memset (p : Nat) (v : UInt8) (n : Nat) : Arena := { s with byte := s.byte.fill p n v }

/-- `memcpy`. -/
def memcpy (dst src n : Nat) : Arena := { s with byte := s.byte.copy dst src n }

/-- Write the info at an address, its node not yet determinate but for its value. -/
def putInfo (info : Nat) (data : MallocBlockInfoData) : Arena where
  byte := s.byte
  info := Function.update s.info info (some data)
  nodes := s.nodes.put (some info) <| some <|
    .listNode { value := some (some info), refcount := 0, next := some info, prev := some info }

/-- `free` of the block of an info: the info is in the block. -/
def freeBlock (info : Nat) : Arena :=
  { s with info := Function.update s.info info none, nodes := s.nodes.put (some info) none }

end Arena

/-- The info before an area. -/
def infoOf (ptr : Nat) : Nat := ptr - (mallocGuardSize + mallocBlockInfoSize)

/-! ## Allocating and freeing

The inner `none` is a call that does not return: an assertion failed and the test
is over. -/

/-- `_test_malloc`; `block` is what `malloc` returns. -/
def testMalloc (size block : Nat) (s : Arena) : Option (Option Nat × Arena) :=
  let allocateSize := sizeT (size + mallocGuardSize * 2 + mallocBlockInfoSize + mallocAlignment)
  if ¬ allocateSize > size then return (none, s)
  else if block = 0 then return (none, s)
  else do
    let ptr := alignDown (block + mallocGuardSize + mallocBlockInfoSize + mallocAlignment)
    let s := s.memset (ptr - mallocGuardSize) mallocGuardPattern mallocGuardSize
    let s := s.memset (ptr + size) mallocGuardPattern mallocGuardSize
    let s := s.memset ptr mallocAllocPattern size
    let s := s.putInfo (infoOf ptr) ⟨block, allocateSize, size⟩
    let nodes ← listAdd s.nodes none (some (infoOf ptr))
    return (some ptr, { s with nodes := nodes })

/-- `_test_calloc`. -/
def testCalloc (numberOfElements size block : Nat) (s : Arena) :
    Option (Option Nat × Arena) := do
  let (ptr, s) ← testMalloc (sizeT (numberOfElements * size)) block s
  match ptr with
  | none => return (none, s)
  | some ptr => return (some ptr, s.memset ptr 0 (sizeT (numberOfElements * size)))

/-- The bytes of the two guards of an area, in the order they are checked. -/
def guardBytes (ptr size : Nat) : List Nat :=
  (List.range mallocGuardSize).map (ptr - mallocGuardSize + ·) ++
    (List.range mallocGuardSize).map (ptr + size + ·)

/-- `_test_free`: whether it returns. -/
def testFree (ptr : Nat) (s : Arena) : Option (Bool × Arena) :=
  if ptr = 0 then return (true, s)
  else do
    let data ← s.info (infoOf ptr)
    if (guardBytes ptr data.size).any (fun a => s.byte a ≠ mallocGuardPattern) then
      return (false, s)
    else
      let nodes ← listRemove s.nodes (some (infoOf ptr)) none
      let s := { s with nodes := nodes }
      let s := s.memset data.block mallocFreePattern data.allocatedSize
      return (true, s.freeBlock (infoOf ptr))

/-- `_test_realloc`; 0 is the `NULL` it returns for a size of 0. -/
def testRealloc (ptr size block : Nat) (s : Arena) : Option (Option Nat × Arena) :=
  if ptr = 0 then testMalloc size block s
  else if size = 0 then do
    let (returns, s) ← testFree ptr s
    return (if returns then some 0 else none, s)
  else do
    let (newBlock, s) ← testMalloc size block s
    match newBlock with
    | none => return (none, s)
    | some newBlock =>
        let data ← s.info (infoOf ptr)
        let s := s.memcpy newBlock ptr (if data.size < size then data.size else size)
        let (returns, s) ← testFree ptr s
        return (if returns then some newBlock else none, s)

/-! ## Using an area

What a test may do with a pointer it got: read and write the area, and, by
mistake, its guards. -/

/-- The address of `ptr[offset]`. -/
def cellOf (ptr : Nat) (offset : Int) (s : Arena) : Option Nat := do
  let data ← s.info (infoOf ptr)
  if -(mallocGuardSize : Int) ≤ offset ∧ offset < data.size + mallocGuardSize then
    return (ptr + offset).toNat
  else none

/-- `ptr[offset]`. -/
def readByte (ptr : Nat) (offset : Int) (s : Arena) : Option UInt8 := do
  return s.byte (← cellOf ptr offset s)

/-- `ptr[offset] = v`. -/
def writeByte (ptr : Nat) (offset : Int) (v : UInt8) (s : Arena) : Option Arena := do
  let a ← cellOf ptr offset s
  return { s with byte := Function.update s.byte a v }

/-! ## Looking for leaks -/

/-- `check_point_allocated_blocks`: the last node. -/
def checkPointAllocatedBlocks (s : Arena) : Option (Option Nat) := s.nodes.links.prev none

/-- The loop of `display_allocated_blocks`: how many nodes there are from `node`
to the head. -/
def displayLoop (s : Arena) : Nat → Option Nat → Option Nat
  | 0, _ => none
  | _ + 1, none => some 0
  | fuel + 1, some node => do
      let cell ← s.nodes.nodeAt (some node)
      let info ← (← cell.value)
      -- the message shows where the block was allocated
      let _ ← s.info info
      return (← displayLoop s fuel cell.next) + 1

/-- `display_allocated_blocks`. -/
def displayAllocatedBlocks (fuel : Nat) (checkPoint : Option Nat) (s : Arena) : Option Nat := do
  displayLoop s fuel (← s.nodes.links.next checkPoint)

/-- The loop of `free_allocated_blocks`: whether all calls of `free` return. -/
def freeLoop : Nat → Option Nat → Arena → Option (Bool × Arena)
  | 0, _, _ => none
  | _ + 1, none, s => some (true, s)
  | fuel + 1, some node, s => do
      let cell ← s.nodes.nodeAt (some node)
      let info ← (← cell.value)
      let (returns, s) ← testFree (info + mallocBlockInfoSize + mallocGuardSize) s
      if returns then freeLoop fuel cell.next s else return (false, s)

/-- `free_allocated_blocks`. -/
def freeAllocatedBlocks (fuel : Nat) (checkPoint : Option Nat) (s : Arena) :
    Option (Bool × Arena) := do
  freeLoop fuel (← s.nodes.links.next checkPoint) s

/-- `fail_if_blocks_allocated`: whether it returns. When it does not, the test is
over, be it in `free_allocated_blocks` or after it. -/
def failIfBlocksAllocated (fuel : Nat) (checkPoint : Option Nat) (s : Arena) :
    Option (Bool × Arena) := do
  let allocatedBlocks ← displayAllocatedBlocks fuel checkPoint s
  if allocatedBlocks > 0 then
    let (_, s) ← freeAllocatedBlocks fuel checkPoint s
    return (false, s)
  else return (true, s)

/-! ## Layout -/

/-- Masking the three low bits out rounds down to a multiple of 8. -/
theorem alignDown_eq {address : Nat} (h : address < 2 ^ 64) :
    alignDown address = address / 8 * 8 := by
  have hmask : BitVec.ofNat 64 address &&& ~~~BitVec.ofNat 64 (2 ^ 3 - 1) =
      BitVec.ofNat 64 address >>> 3 <<< 3 := by
    ext i hi
    have hseven : (BitVec.ofNat 64 (2 ^ 3 - 1))[i] = decide (i < 3) := by
      rw [BitVec.getElem_eq_testBit_toNat, BitVec.toNat_ofNat, Nat.mod_eq_of_lt (by omega),
        Nat.testBit_two_pow_sub_one]
    rw [BitVec.getElem_and, BitVec.getElem_not, hseven, BitVec.getElem_shiftLeft]
    by_cases hlow : i < 3
    · simp [hlow]
    · have hadd : 3 + (i - 3) = i := by omega
      simp [hlow, BitVec.getElem_ushiftRight, hadd, hi]
  have hlow : mallocAlignment - 1 = 2 ^ 3 - 1 := rfl
  unfold alignDown
  rw [hlow, hmask, BitVec.toNat_shiftLeft, BitVec.toNat_ushiftRight, BitVec.toNat_ofNat,
    Nat.mod_eq_of_lt h, Nat.shiftLeft_eq, Nat.shiftRight_eq_div_pow]
  omega

end TraceRecorderTests.Cmocka
