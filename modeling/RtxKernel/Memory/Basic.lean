import RtxKernel.Lib.Chain
import RtxKernel.Lib.Bytes
import RtxKernel.Core.Basic

/-!
# The memory block pool

The two lists of block descriptors of `mm/mem.c` and the functions that move descriptors between
them. A descriptor is a `struct memBlock`; the descriptors are numbered in the order of their
`malloc`, so that number `i` describes the block `i`. `get_current_pid()` is the argument
`current`. As in the scheduler `none` means that the code does not come back, or that it
dereferences a null pointer.

`request_memory_block_handler` waits until a block is available and then takes one; here is what it
does after the wait (`takeBlock`). `release_memory_handler` is modelled up to its call of
`unblock_process_by_type` (`releaseBlock`).
-/

namespace RtxKernel

/-- A `struct memBlock *` that is not null. -/
abbrev BlockPtr := Nat

/-- `MEM_BLOCK_SIZE` -/
def memBlockSize : Nat := 128

/-- `MEM_BLOCK_COUNT` -/
def memBlockCount : Nat := 30

/-- `struct memBlock`; the owner `pid` is an `int` that is only compared for equality. -/
structure MemBlock where
  startBlock : Nat
  next : Option BlockPtr
  pid : UInt32
  deriving DecidableEq, Repr

/-- The two list heads. -/
inductive BlockQueue
  | availableBlocks
  | usedBlocks
  deriving DecidableEq, Repr

/-- The globals of `mem.c`, with the bytes of the memory the blocks lie in. -/
structure Pool where
  block : BlockPtr → MemBlock
  queue : BlockQueue → Option BlockPtr
  memory : Memory

namespace Pool

def next (s : Pool) (b : BlockPtr) : Option BlockPtr := (s.block b).next

def setBlock (s : Pool) (b : BlockPtr) (v : MemBlock) : Pool :=
  { s with block := Function.update s.block b v }

def setNext (s : Pool) (b : BlockPtr) (v : Option BlockPtr) : Pool :=
  s.setBlock b { s.block b with next := v }

def setPid (s : Pool) (b : BlockPtr) (v : UInt32) : Pool :=
  s.setBlock b { s.block b with pid := v }

def setHead (s : Pool) (q : BlockQueue) (v : Option BlockPtr) : Pool :=
  { s with queue := Function.update s.queue q v }

/-! ### The functions of `mem.c` -/

/-- `zero_memory` -/
def zeroMemory (s : Pool) (a : Nat) : Pool := { s with memory := fill s.memory a memBlockSize 0 }

/-- One turn of the loop of `init_memory`, with `tempPoint`. -/
def initBlock (base : Nat) (x : Pool × BlockPtr) (i : Nat) : Pool × BlockPtr :=
  let s := x.1.setBlock i ⟨base + i * memBlockSize, none, noPid⟩
  let s := s.zeroMemory (base + i * memBlockSize)
  (s.setNext x.2 (some i), i)

/-- The pool before the loop of `init_memory`. All `malloc`ed memory is zero, so the first descriptor
has the pid 0. -/
def initHead (base : Nat) : Pool where
  block _ := ⟨base, none, 0⟩
  queue
    | .availableBlocks => some 0
    | .usedBlocks => none
  memory _ := 0

/-- `init_memory`, with the blocks from the address `base` on. -/
def initMemory (base : Nat) : Pool :=
  let (s, tempPoint) :=
    (List.range' 1 (memBlockCount - 1)).foldl (initBlock base) (initHead base, 0)
  s.setNext tempPoint none

/-- `are_blocks_available` -/
def areBlocksAvailable (s : Pool) : Bool := (s.queue .availableBlocks).isSome

/-- `void_to_block` -/
def voidToBlock (s : Pool) (a : Nat) : Option (Option BlockPtr) := do
  let test := fun b => decide ((s.block b).startBlock = a)
  match ← find s.next test memBlockCount (s.queue .availableBlocks) with
  | some b => return some b
  | none => find s.next test memBlockCount (s.queue .usedBlocks)

/-- `reassign_mem_block`, which dereferences the result of `void_to_block`. -/
def reassignMemBlock (s : Pool) (a : Nat) (newPid : UInt32) : Option Pool := do
  match ← s.voidToBlock a with
  | some b => return s.setPid b newPid
  | none => none

/-- `enqueue_mem_block` -/
def enqueueMemBlock (s : Pool) (q : BlockQueue) (b : BlockPtr) : Option Pool :=
  if s.queue q = none then some ((s.setHead q (some b)).setNext b none)
  else do
    match ← find s.next (fun c => (s.next c).isNone) memBlockCount (s.queue q) with
    | some c => return (s.setNext c (some b)).setNext b none
    | none => none

/-- `dequeue_mem_block`, which leaves the link of the block as it is. -/
def dequeueMemBlock (s : Pool) (q : BlockQueue) : Option BlockPtr × Pool :=
  match s.queue q with
  | none => (none, s)
  | some b => (some b, s.setHead q (s.next b))

/-- `remove_mem_block`: unlink a block that belongs to the current process. -/
def removeMemBlock (s : Pool) (q : BlockQueue) (b : BlockPtr) (current : UInt32) :
    Option (Option BlockPtr × Pool) := do
  match ← findWithPrev s.next (fun c => decide (c = b)) memBlockCount none (s.queue q) with
  | none => return (none, s)
  | some (prev, c) =>
    if (s.block c).pid ≠ current then return (none, s)
    else
      match prev with
      | some p => return (some c, s.setNext p (s.next c))
      | none => return (some c, s.setHead q (s.next c))

/-- What `request_memory_block_handler` does when a block is available: the address returned. -/
def takeBlock (s : Pool) (current : UInt32) : Option (Nat × Pool) := do
  match s.queue .availableBlocks with
  | none => none
  | some b =>
    let s := s.setPid b current
    let s := (s.dequeueMemBlock .availableBlocks).2
    let s ← s.enqueueMemBlock .usedBlocks b
    return ((s.block b).startBlock, s)

/-- `release_memory_handler` up to the call of `unblock_process_by_type`, which is made when the
code returned is 0. -/
def releaseBlock (s : Pool) (a : Nat) (current : UInt32) : Option (UInt32 × Pool) := do
  if s.queue .usedBlocks = none then return (1, s)
  match ← s.voidToBlock a with
  | none => return (2, s)
  | some b =>
    match ← s.removeMemBlock .usedBlocks b current with
    | (none, s) => return (3, s)
    | (some r, s) =>
      let s := s.zeroMemory (s.block r).startBlock
      let s := s.setPid r noPid
      let s ← s.enqueueMemBlock .availableBlocks r
      return (0, s)

end Pool

end RtxKernel
