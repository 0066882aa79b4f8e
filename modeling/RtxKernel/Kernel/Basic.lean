import RtxKernel.Core.Basic
import RtxKernel.Memory.Basic
import RtxKernel.Lib.Slots
import RtxKernel.Lib.Run

/-!
# Messages, memory requests and interrupts

The kernel calls of `messaging/messaging.c` and `mm/mem.c`, the timer of `timer/timer.c` and the
interrupt handler of `io/uart.c`, over the scheduler and the block pool. An envelope is the address
of a memory block; its header are the first four words of the block.

A call is run from its entry to its return, without an interrupt inside. `none` is a call that
does not come back: a null pointer is dereferenced, or a loop does not end. A handler that ends in a
critical section followed by an unblocking or blocking call has that section as a function of its
own, for the interleavings that are studied later.
-/

namespace RtxKernel

/-- The mailboxes are arrays of `MEM_BLOCK_COUNT` pointers in zeroed memory. -/
structure Kernel where
  sched : Scheduler
  pool : Pool
  mailbox : Nat → Option Nat
  delayedMailbox : Nat → Option Nat
  ticks : UInt32

/-- `KCD_PID` -/
def kcdPid : UInt32 := 10

/-- `UART_PID` -/
def uartPid : UInt32 := 12

/-! ### The fields of `struct MessageEnvelope` -/

def txField (e : Nat) : Nat := e
def rxField (e : Nat) : Nat := e + 4
def sendTimeField (e : Nat) : Nat := e + 12
def msgField (e : Nat) : Nat := e + 64

namespace Kernel

def tx (k : Kernel) (e : Nat) : UInt32 := read32 k.pool.memory (txField e)
def rx (k : Kernel) (e : Nat) : UInt32 := read32 k.pool.memory (rxField e)
def sendTime (k : Kernel) (e : Nat) : UInt32 := read32 k.pool.memory (sendTimeField e)

def write (k : Kernel) (a : Nat) (w : UInt32) : Kernel :=
  { k with pool := { k.pool with memory := write32 k.pool.memory a w } }

def store (k : Kernel) (a : Nat) (v : UInt8) : Kernel :=
  { k with pool := { k.pool with memory := Function.update k.pool.memory a v } }

def currentPid (k : Kernel) : UInt32 := k.sched.getCurrentPid

def withSched (k : Kernel) (s : Scheduler) : Kernel := { k with sched := s }

/-- The loop that stores an envelope in the first null slot. -/
def storeIn (s : Nat → Option Nat) (e : Nat) : Nat → Option Nat :=
  let i := freeSlot s memBlockCount
  if i = memBlockCount then s else Function.update s i (some e)

/-! ### Sending -/

/-- What `send_message_handler` and `delayed_send_handler` do to an envelope: they write its receiver,
reassign its block and write its sender. -/
def address (k : Kernel) (processId : UInt32) (envelope : Nat) : Option Kernel := do
  let k := k.write (rxField envelope) processId
  let pool ← k.pool.reassignMemBlock envelope processId
  let k := { k with pool := pool }
  return k.write (txField envelope) k.currentPid

/-- `send_message_handler` up to its call of `unblock_process_by_pid`: the value returned in `d6`,
and whether that call is made. -/
def sendSection (k : Kernel) (processId : UInt32) (envelope : Nat) :
    Option (UInt32 × Bool × Kernel) := do
  if envelope = 0 then return (2, false, k)
  if ! (← k.sched.isPidValid processId) then return (1, false, k)
  let k ← k.address processId envelope
  return (0, true, { k with mailbox := storeIn k.mailbox envelope })

/-- `send_message` -/
def sendMessage (k : Kernel) (processId : UInt32) (envelope : Nat) : Option (UInt32 × Kernel) := do
  let (code, sent, k) ← k.sendSection processId envelope
  if sent then return (code, k.withSched (← k.sched.unblockProcessByPid processId true))
  else return (code, k)

/-- `delayed_send` -/
def delayedSend (k : Kernel) (processId : UInt32) (envelope : Nat) (delay : UInt32) :
    Option (UInt32 × Kernel) := do
  if envelope = 0 then return (2, k)
  if ! (← k.sched.isPidValid processId) then return (1, k)
  let k ← k.address processId envelope
  let k := k.write (sendTimeField envelope) (delay + k.ticks)
  return (0, { k with delayedMailbox := storeIn k.delayedMailbox envelope })

/-! ### Receiving -/

/-- The search of `receive_message_handler` for a message to the running process, which is taken out
of the mailbox. -/
def receiveScan (k : Kernel) : Option Nat × Kernel :=
  match searchFrom k.mailbox (fun e => k.rx e = k.currentPid) memBlockCount 0 with
  | none => (none, k)
  | some i =>
    let mailbox := Function.update k.mailbox i none
    (k.mailbox i,
      { k with mailbox := (shiftDown (memBlockCount - (i + 1)) (i + 1) mailbox).1 })

/-- `receive_message_handler`. A process that was blocked gets no envelope: `receive_message` then
calls the handler again. -/
def receiveMessage (k : Kernel) : Option (Option Nat × Kernel) := do
  match k.receiveScan with
  | (some e, k) => return (some e, k)
  | (none, k) => return (none, k.withSched (← k.sched.blockProcess k.currentPid .msg))

/-! ### Memory blocks -/

/-- One turn of `request_memory_block_handler`: a block, or the process is blocked and has to test
again when it is woken. -/
def requestMemoryBlock (k : Kernel) : Option (Option Nat × Kernel) := do
  if k.pool.areBlocksAvailable then
    let (a, pool) ← k.pool.takeBlock k.currentPid
    return (some a, { k with pool := pool })
  else return (none, k.withSched (← k.sched.blockProcess k.currentPid .mem))

/-- `release_memory_block` -/
def releaseMemoryBlock (k : Kernel) (a : Nat) : Option (UInt32 × Kernel) := do
  let (code, pool) ← k.pool.releaseBlock a k.currentPid
  let k := { k with pool := pool }
  if code = 0 then return (code, k.withSched (← k.sched.unblockProcessByType .mem))
  else return (code, k)

/-! ### The timer -/

/-- A due message, in slot `i` of `delayed_mailbox`, is moved to the mailbox and the slots behind it are
shifted down: the slot of the mailbox, and the index with which the loop goes on. It is that of the
next turn: `i--` and the `i++` of the loop cancel. -/
def moveDue (k : Kernel) (i : Nat) : Nat × Nat × Kernel :=
  let j := freeSlot k.mailbox memBlockCount
  let k :=
    if j = memBlockCount then k
    else
      { k with
        mailbox := Function.update k.mailbox j (k.delayedMailbox i)
        delayedMailbox := Function.update k.delayedMailbox i none }
  let (delayed, l) := shiftDown (memBlockCount - (i + 1)) (i + 1) k.delayedMailbox
  (j, if l ≠ memBlockCount ∧ l ≠ i + 1 then i else i + 1, { k with delayedMailbox := delayed })

/-- One due message of `check_existing_delayed_message`, in slot `i`: it is moved to the mailbox, and
its receiver is unblocked if it is blocked. The results are the envelope, the index with which the
loop goes on, and `highest_priority`. -/
def deliver (k : Kernel) (i : Nat) (highestPriority : UInt32) :
    Option (Nat × Nat × UInt32 × Kernel) := do
  let (j, next, k) := k.moveDue i
  -- with no free slot `mailbox[j]` is behind the last one, and null
  match k.mailbox j with
  | none => none
  | some e =>
    if ← k.sched.isProcessBlocked (k.rx e) then
      let k := k.withSched (← k.sched.unblockProcessByPid (k.rx e) false)
      let priority ← k.sched.getProcessPriority (k.rx e)
      return (e, next, if priority < highestPriority then priority else highestPriority, k)
    else return (e, next, highestPriority, k)

/-- The loop of `check_existing_delayed_message` from slot `i` on, for at most `n` turns. The list,
which the source does not have, records the envelopes that were moved to the mailbox. -/
def checkFrom : Nat → Nat → UInt32 → List Nat → Kernel → Option (List Nat × UInt32 × Kernel)
  | n, i, highestPriority, moved, k =>
    if memBlockCount ≤ i then some (moved, highestPriority, k)
    else
      match n with
      | 0 => none
      | n + 1 =>
        match k.delayedMailbox i with
        | none => checkFrom n (i + 1) highestPriority moved k
        | some e =>
          if k.sendTime e ≤ k.ticks then do
            let (e, i, highestPriority, k) ← k.deliver i highestPriority
            checkFrom n i highestPriority (moved ++ [e]) k
          else checkFrom n (i + 1) highestPriority moved k

/-- `check_existing_delayed_message`, whose loop makes at most `2 * MEM_BLOCK_COUNT` turns. -/
def checkExistingDelayedMessage (k : Kernel) : Option (List Nat × Kernel) := do
  let (moved, highestPriority, k) ← checkFrom (2 * memBlockCount) 0 4 [] k
  if highestPriority < (← k.sched.getProcessPriority k.currentPid) then
    return (moved, k.withSched (← k.sched.procSwitchHandler))
  else return (moved, k)

/-- `timer_isr` -/
def timerIsr (k : Kernel) : Option (List Nat × Kernel) :=
  { k with ticks := k.ticks + 1 }.checkExistingDelayedMessage

/-! ### The UART -/

/-- `uart_handler`, for the character `c`: a message to the keyboard decoder, unless all blocks are
in use. The code is that of `send_message`. -/
def uartHandler (k : Kernel) (c : UInt8) : Option (Option UInt32 × Kernel) := do
  if k.pool.areBlocksAvailable then
    let (a, pool) ← k.pool.takeBlock k.currentPid
    let k := { k with pool := pool }
    let k := k.write (txField a) uartPid
    let k := k.write (rxField a) kcdPid
    let k := k.store (msgField a) c
    let (code, k) ← k.sendMessage kcdPid a
    return (some code, k)
  else return (none, k)

end Kernel

/-! ### Operations -/

/-- What the running process can call, and the two interrupts. `store` is a write of the process
to its memory, `block` and the `unblock` operations are the functions of `core.c` called directly. -/
inductive Op
  | releaseProcessor
  | block (t : BlockType)
  | unblockByPid (pid : UInt32) (allowRelease : Bool)
  | unblockByType (t : BlockType)
  | setPriority (pid priority : Int32)
  | send (pid : UInt32) (envelope : Nat)
  | delayedSend (pid : UInt32) (envelope : Nat) (delay : UInt32)
  | receive
  | request
  | release (a : Nat)
  | store (a : Nat) (v : UInt8)
  | terminate
  | timer
  | uart (c : UInt8)
  deriving DecidableEq

def Op.isInterrupt : Op → Bool
  | .timer | .uart _ => true
  | _ => false

/-- What an operation returns. A received envelope comes with its sender, which `receive_message`
stores for the caller; `moved` are the envelopes that a tick moved to the mailbox. -/
inductive Reply
  | done
  | code (c : UInt32)
  | envelope (e : Option (Nat × UInt32))
  | block (a : Option Nat)
  | moved (es : List Nat)
  | sent (c : Option UInt32)
  deriving DecidableEq

/-- One operation, from its entry to its return. -/
def Kernel.call (k : Kernel) : Op → Option (Reply × Kernel)
  | .releaseProcessor => do return (.done, k.withSched (← k.sched.procSwitchHandler))
  | .block t => do return (.done, k.withSched (← k.sched.blockProcess k.currentPid t))
  | .unblockByPid pid allow => do
    return (.done, k.withSched (← k.sched.unblockProcessByPid pid allow))
  | .unblockByType t => do return (.done, k.withSched (← k.sched.unblockProcessByType t))
  | .setPriority pid priority => do
    let (code, s) ← k.sched.setProcessPriority pid priority
    return (.code code, k.withSched s)
  | .send pid envelope => do
    let (code, k) ← k.sendMessage pid envelope
    return (.code code, k)
  | .delayedSend pid envelope delay => do
    let (code, k) ← k.delayedSend pid envelope delay
    return (.code code, k)
  | .receive => do
    let (e, k) ← k.receiveMessage
    return (.envelope (e.map fun e => (e, k.tx e)), k)
  | .request => do
    let (a, k) ← k.requestMemoryBlock
    return (.block a, k)
  | .release a => do
    let (code, k) ← k.releaseMemoryBlock a
    return (.code code, k)
  | .store a v => some (.done, k.store a v)
  | .terminate => do return (.done, k.withSched (← k.sched.terminate))
  | .timer => do
    let (moved, k) ← k.timerIsr
    return (.moved moved, k)
  | .uart c => do
    let (code, k) ← k.uartHandler c
    return (.sent code, k)

/-- An operation as it shows in a history: the process that was running, and the reply. -/
structure Event where
  caller : UInt32
  op : Op
  reply : Reply
  deriving DecidableEq

namespace Kernel

/-- The address of a block in the list `usedBlocks`. -/
def IsUsed (k : Kernel) (e : Nat) : Prop :=
  ∃ b, find k.pool.next (fun b => (k.pool.block b).startBlock = e) memBlockCount
    (k.pool.queue .usedBlocks) = some (some b)

/-- An envelope in one of the two mailboxes. -/
def InMailbox (k : Kernel) (e : Nat) : Prop :=
  ∃ i < memBlockCount, k.mailbox i = some e ∨ k.delayedMailbox i = some e

/-- The address that the next request for a block returns. -/
def nextBlock (k : Kernel) : Option Nat :=
  (k.pool.queue .availableBlocks).map fun b => (k.pool.block b).startBlock

/-- What the callers of an operation see to: the NULL process makes no calls, and an envelope that is
sent is a used block that is in no mailbox. -/
def Permits (k : Kernel) : Op → Prop
  | .send _ e | .delayedSend _ e _ => k.currentPid ≠ 0 ∧ k.IsUsed e ∧ ¬ k.InMailbox e
  | .timer => True
  | .uart _ => ∀ e ∈ k.nextBlock, ¬ k.InMailbox e
  | _ => k.currentPid ≠ 0

instance (k : Kernel) (e : Nat) : Decidable (k.InMailbox e) :=
  inferInstanceAs (Decidable (∃ i < memBlockCount, k.mailbox i = some e ∨ k.delayedMailbox i = some e))

instance (k : Kernel) (e : Nat) : Decidable (k.IsUsed e) :=
  match h : find k.pool.next (fun b => (k.pool.block b).startBlock = e) memBlockCount
      (k.pool.queue .usedBlocks) with
  | some (some b) => .isTrue ⟨b, h⟩
  | some none => .isFalse fun ⟨b, hb⟩ => by rw [h] at hb; cases hb
  | none => .isFalse fun ⟨b, hb⟩ => by rw [h] at hb; cases hb

instance (k : Kernel) : (op : Op) → Decidable (k.Permits op)
  | .send _ e | .delayedSend _ e _ =>
    inferInstanceAs (Decidable (k.currentPid ≠ 0 ∧ k.IsUsed e ∧ ¬ k.InMailbox e))
  | .timer => .isTrue trivial
  | .uart _ => inferInstanceAs (Decidable (∀ e ∈ k.nextBlock, ¬ k.InMailbox e))
  | .releaseProcessor | .block _ | .unblockByPid _ _ | .unblockByType _ | .setPriority _ _ | .receive
  | .request | .release _ | .store _ _ | .terminate =>
    inferInstanceAs (Decidable (k.currentPid ≠ 0))

/-- One step of a history: an operation that is allowed and comes back. -/
def StepIf (allowed : Kernel → Op → Prop) (k : Kernel) (e : Event) (k' : Kernel) : Prop :=
  e.caller = k.currentPid ∧ allowed k e.op ∧ k.call e.op = some (e.reply, k')

/-- One step of a history of permitted operations. -/
abbrev Step : Kernel → Event → Kernel → Prop := StepIf Permits

section RunOps

variable (allowed : Kernel → Op → Prop) [∀ k op, Decidable (allowed k op)]

/-- Operations one after another, as long as they are allowed, with the history that they make. -/
def runOps (k : Kernel) : List Op → Option (List Event × Kernel)
  | [] => some ([], k)
  | op :: ops =>
    if allowed k op then do
      let (reply, k') ← k.call op
      let (es, k'') ← k'.runOps ops
      return (⟨k.currentPid, op, reply⟩ :: es, k'')
    else none

variable {allowed}

lemma run_of_runOps {k k' : Kernel} {ops : List Op} {es : List Event}
    (h : k.runOps allowed ops = some (es, k')) : Run (StepIf allowed) k es k' := by
  induction ops generalizing k es with
  | nil =>
    obtain ⟨rfl, rfl⟩ := Prod.mk.inj (Option.some.inj h)
    exact .nil k
  | cons op ops ih =>
    rw [runOps] at h
    split_ifs at h with hp
    obtain ⟨⟨reply, k₁⟩, hcall, h⟩ := Option.bind_eq_some_iff.mp h
    obtain ⟨⟨es', k₂⟩, hrest, h⟩ := Option.bind_eq_some_iff.mp h
    obtain ⟨rfl, rfl⟩ := Prod.mk.inj (Option.some.inj h)
    exact Run.append (.single ⟨rfl, hp, hcall⟩) (ih hrest)

lemma ops_of_runOps {k k' : Kernel} {ops : List Op} {es : List Event}
    (h : k.runOps allowed ops = some (es, k')) : es.map Event.op = ops := by
  induction ops generalizing k es with
  | nil =>
    obtain ⟨rfl, rfl⟩ := Prod.mk.inj (Option.some.inj h)
    rfl
  | cons op ops ih =>
    rw [runOps] at h
    split_ifs at h
    obtain ⟨x, -, h⟩ := Option.bind_eq_some_iff.mp h
    obtain ⟨y, hrest, h⟩ := Option.bind_eq_some_iff.mp h
    obtain ⟨rfl, rfl⟩ := Prod.mk.inj (Option.some.inj h)
    rw [List.map_cons, ih hrest]

end RunOps

end Kernel

/-! ### What leaves the scheduler alone -/

namespace Kernel

variable {k k' : Kernel} {pid : UInt32} {e : Nat}

lemma sched_address (h : k.address pid e = some k') : k'.sched = k.sched := by
  obtain ⟨pool, -, hk⟩ := Option.bind_eq_some_iff.mp h
  rw [← Option.some.inj hk]
  rfl

lemma sched_sendSection {x : UInt32 × Bool × Kernel} (h : k.sendSection pid e = some x) :
    x.2.2.sched = k.sched := by
  rw [sendSection] at h
  split_ifs at h with he
  · rw [← Option.some.inj h]
  · obtain ⟨v, -, h⟩ := Option.bind_eq_some_iff.mp h
    split_ifs at h with hv
    · rw [← Option.some.inj h]
    · obtain ⟨k₁, hk₁, h⟩ := Option.bind_eq_some_iff.mp h
      have hs := sched_address hk₁
      rw [← Option.some.inj h]
      exact hs

lemma sched_delayedSend {delay : UInt32} {x : UInt32 × Kernel}
    (h : k.delayedSend pid e delay = some x) : x.2.sched = k.sched := by
  rw [delayedSend] at h
  split_ifs at h with he
  · rw [← Option.some.inj h]
  · obtain ⟨v, -, h⟩ := Option.bind_eq_some_iff.mp h
    split_ifs at h with hv
    · rw [← Option.some.inj h]
    · obtain ⟨k₁, hk₁, h⟩ := Option.bind_eq_some_iff.mp h
      have hs := sched_address hk₁
      rw [← Option.some.inj h]
      exact hs

lemma sched_receiveScan (k : Kernel) : k.receiveScan.2.sched = k.sched := by
  rw [receiveScan]
  cases searchFrom k.mailbox (fun e => k.rx e = k.currentPid) memBlockCount 0 <;> rfl

lemma sched_moveDue (k : Kernel) (i : Nat) : (k.moveDue i).2.2.sched = k.sched := by
  rw [moveDue]
  dsimp only
  split_ifs <;> rfl

end Kernel

end RtxKernel
