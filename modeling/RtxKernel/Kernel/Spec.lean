import RtxKernel.Kernel.Basic
import RtxKernel.Core.Spec
import RtxKernel.Memory.Spec

/-!
# The abstract kernel

The kernel with its queues, block lists and mailboxes as lists. The operations are those of
`RtxKernel.Kernel.Basic`; storing an envelope is appending, and removing one is erasing.
-/

namespace RtxKernel.Spec

structure Kernel where
  sched : Sched
  pool : Pool
  mailbox : List Nat
  delayed : List Nat
  ticks : UInt32

namespace Kernel

variable (a : Kernel)

def tx (e : Nat) : UInt32 := read32 a.pool.memory (txField e)
def rx (e : Nat) : UInt32 := read32 a.pool.memory (rxField e)
def sendTime (e : Nat) : UInt32 := read32 a.pool.memory (sendTimeField e)

def write (x : Nat) (w : UInt32) : Kernel :=
  { a with pool := { a.pool with memory := write32 a.pool.memory x w } }

def store (x : Nat) (v : UInt8) : Kernel :=
  { a with pool := { a.pool with memory := Function.update a.pool.memory x v } }

def withSched (s : Sched) : Kernel := { a with sched := s }

def withPool (p : Pool) : Kernel := { a with pool := p }

/-- Append to a mailbox that is not full. -/
def storeIn (l : List Nat) (e : Nat) : List Nat := if l.length < memBlockCount then l ++ [e] else l

/-- Fill in the header of an envelope and make it over to the receiver. -/
def address (processId : UInt32) (e : Nat) : Option Kernel :=
  let b := a.write (rxField e) processId
  (b.pool.reassign e processId).map fun p => (b.withPool p).write (txField e) a.sched.currentPid

def sendSection (processId : UInt32) (e : Nat) : Option (UInt32 × Bool × Kernel) :=
  if e = 0 then some (2, false, a)
  else if a.sched.find processId = none then some (1, false, a)
  else (a.address processId e).map fun b => (0, true, { b with mailbox := storeIn b.mailbox e })

def sendMessage (processId : UInt32) (e : Nat) : Option (UInt32 × Kernel) := do
  let (code, sent, b) ← a.sendSection processId e
  if sent then return (code, b.withSched (← b.sched.unblockByPid processId true))
  else return (code, b)

def delayedSend (processId : UInt32) (e : Nat) (delay : UInt32) : Option (UInt32 × Kernel) :=
  if e = 0 then some (2, a)
  else if a.sched.find processId = none then some (1, a)
  else (a.address processId e).map fun b =>
    let b := b.write (sendTimeField e) (delay + b.ticks)
    (0, { b with delayed := storeIn b.delayed e })

/-- The first message in the mailbox to the running process. -/
def receiveScan : Option Nat × Kernel :=
  match a.mailbox.findIdx? fun e => a.rx e = a.sched.currentPid with
  | none => (none, a)
  | some i => (a.mailbox[i]?, { a with mailbox := a.mailbox.eraseIdx i })

def receiveMessage : Option Nat × Kernel :=
  match a.receiveScan with
  | (some e, b) => (some e, b)
  | (none, b) => (none, b.withSched (b.sched.block b.sched.currentPid .msg))

def requestMemoryBlock : Option Nat × Kernel :=
  match a.pool.take a.sched.currentPid with
  | some (x, p) => (some x, a.withPool p)
  | none => (none, a.withSched (a.sched.block a.sched.currentPid .mem))

def releaseMemoryBlock (x : Nat) : Option (UInt32 × Kernel) :=
  let (code, p) := a.pool.release x a.sched.currentPid
  if code = 0 then (a.sched.unblockByType .mem).map fun s => (code, (a.withPool p).withSched s)
  else some (code, a.withPool p)

/-! ### The timer -/

/-- Unblock the receiver of a message that was moved to the mailbox. -/
def wakeReceiver (pid highest : UInt32) : Option (UInt32 × Kernel) :=
  match a.sched.find pid with
  | none => some (highest, a)
  | some p =>
    if (a.sched.state p).isBlocked then
      (a.sched.unblockByPid pid false).map fun s =>
        (if s.priority p < highest then s.priority p else highest, a.withSched s)
    else some (highest, a)

/-- Move the entry `e`, which is number `i` of the delayed mailbox. -/
def move (e i : Nat) : Kernel :=
  { a with mailbox := a.mailbox ++ [e], delayed := a.delayed.eraseIdx i }

/-- The index with which the loop goes on after entry `i` was moved. -/
def nextIndex (i : Nat) : Nat :=
  if a.delayed.length ≠ memBlockCount ∧ a.delayed.length ≠ i + 1 then i else i + 1

/-- The entry `i` of the delayed mailbox is due. -/
def deliver (e i : Nat) (highest : UInt32) : Option (Nat × Nat × UInt32 × Kernel) :=
  if a.mailbox.length < memBlockCount then
    ((a.move e i).wakeReceiver (a.rx e) highest).map fun x => (e, a.nextIndex i, x)
  else none

def checkFrom : Nat → Nat → UInt32 → List Nat → Kernel → Option (List Nat × UInt32 × Kernel)
  | n, i, highest, moved, a =>
    if memBlockCount ≤ i then some (moved, highest, a)
    else
      match n with
      | 0 => none
      | n + 1 =>
        match a.delayed[i]? with
        | none => checkFrom n (i + 1) highest moved a
        | some e =>
          if a.sendTime e ≤ a.ticks then do
            let (e, i, highest, a) ← a.deliver e i highest
            checkFrom n i highest (moved ++ [e]) a
          else checkFrom n (i + 1) highest moved a

/-- `get_process_priority` of the running process. -/
def currentPriority : UInt32 :=
  match a.sched.find a.sched.currentPid with
  | some p => a.sched.priority p
  | none => noPid

def checkExistingDelayedMessage : Option (List Nat × Kernel) :=
  (checkFrom (2 * memBlockCount) 0 4 [] a).map fun (moved, highest, b) =>
    (moved, if highest < b.currentPriority then b.withSched b.sched.procSwitch else b)

def timerIsr : Option (List Nat × Kernel) :=
  { a with ticks := a.ticks + 1 }.checkExistingDelayedMessage

/-! ### The UART -/

def uartHandler (c : UInt8) : Option (Option UInt32 × Kernel) :=
  match a.pool.take a.sched.currentPid with
  | none => some (none, a)
  | some (x, p) =>
    let b := ((a.withPool p).write (txField x) uartPid).write (rxField x) kcdPid
    ((b.store (msgField x) c).sendMessage kcdPid x).map fun y => (some y.1, y.2)

/-! ### Operations -/

def call : Op → Option (Reply × Kernel)
  | .releaseProcessor => some (.done, a.withSched a.sched.procSwitch)
  | .block t => some (.done, a.withSched (a.sched.block a.sched.currentPid t))
  | .unblockByPid pid allow => (a.sched.unblockByPid pid allow).map fun s => (.done, a.withSched s)
  | .unblockByType t => (a.sched.unblockByType t).map fun s => (.done, a.withSched s)
  | .setPriority pid priority =>
    (a.sched.setProcessPriority pid priority).map fun x => (.code x.1, a.withSched x.2)
  | .send pid e => (a.sendMessage pid e).map fun x => (.code x.1, x.2)
  | .delayedSend pid e delay => (a.delayedSend pid e delay).map fun x => (.code x.1, x.2)
  | .receive =>
    let (e, b) := a.receiveMessage
    some (.envelope (e.map fun e => (e, b.tx e)), b)
  | .request => some (.block a.requestMemoryBlock.1, a.requestMemoryBlock.2)
  | .release x => (a.releaseMemoryBlock x).map fun y => (.code y.1, y.2)
  | .store x v => some (.done, a.store x v)
  | .terminate => a.sched.terminate.map fun s => (.done, a.withSched s)
  | .timer => a.timerIsr.map fun x => (.moved x.1, x.2)
  | .uart c => (a.uartHandler c).map fun x => (.sent x.1, x.2)

end Kernel

end RtxKernel.Spec
