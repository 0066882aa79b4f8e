import RtxKernel.Lib.Chain
import Mathlib.Data.Finset.Basic

/-!
# Process control blocks, queues and the process switch

The scheduler of `core/core.c`. PCBs live in a store and refer to each other by pointer, the three
arrays of queue heads are `queue .ready`, `queue .memBlocked` and `queue .msgBlocked`, and a process
is linked into a queue through the one `next` field of its PCB.

A function that walks a queue is partial: `none` says that the code does not come back, because the
walk never meets a null link or because a null pointer is dereferenced. Of `block_process`,
`unblock_process_by_pid`, `unblock_process_by_type` and `set_process_priority_handler` the part
between the entry of the critical section and the following `release_processor()` is a function of
its own, with a flag that tells whether the code goes on to release the processor; `atomic_status`
and the status register are not touched by anything here and are modelled with the
interrupts (`RtxKernel.Interrupt`). The registers saved in a PCB are left out, as is its entry address.
-/

namespace RtxKernel

/-- A `pcb *` that is not null. -/
abbrev PcbPtr := Nat

/-- `process_state` -/
inductive ProcessState
  | new
  | ready
  | blockedMem
  | blockedMsg
  deriving DecidableEq, Repr

/-- `block_type` -/
inductive BlockType
  | mem
  | msg
  deriving DecidableEq, Repr

/-- The arrays `ready_queue`, `mem_blocked_queue` and `msg_blocked_queue`. -/
inductive QueueName
  | ready
  | memBlocked
  | msgBlocked
  deriving DecidableEq, Repr

/-- `struct pcb` -/
structure Pcb where
  pid : UInt32
  state : ProcessState
  priority : UInt32
  next : Option PcbPtr
  deriving DecidableEq, Repr

/-- The globals of `core/core.h`. PCBs are numbered in the order of their `malloc`; `pcbCount` many
exist. The field `live` is read by no function: it records the processes of `initialize_processes`
that have not ended. -/
structure Scheduler where
  pcb : PcbPtr → Pcb
  pcbCount : Nat
  queue : QueueName → Nat → Option PcbPtr
  runningProcess : Option PcbPtr
  mainProcess : PcbPtr
  live : Finset PcbPtr

def ProcessState.isBlocked : ProcessState → Bool
  | .blockedMsg | .blockedMem => true
  | .new | .ready => false

/-- The queue in which `remove_process` and `set_process_priority_handler` expect a process. -/
def ProcessState.queue : ProcessState → QueueName
  | .blockedMsg => .msgBlocked
  | .blockedMem => .memBlocked
  | .new | .ready => .ready

/-- The state in which `block_process` puts a process. -/
def BlockType.state : BlockType → ProcessState
  | .mem => .blockedMem
  | .msg => .blockedMsg

/-- The queue into which `block_process` puts a process. -/
def BlockType.queue : BlockType → QueueName
  | .mem => .memBlocked
  | .msg => .msgBlocked

@[simp] lemma BlockType.queue_state (t : BlockType) : t.state.queue = t.queue := by cases t <;> rfl

@[simp] lemma BlockType.isBlocked_state (t : BlockType) : t.state.isBlocked = true := by
  cases t <;> rfl

/-- `-1` as `get_current_pid` returns it. -/
def noPid : UInt32 := 0xFFFFFFFF

/-- The queues in the order in which `get_process_by_pid` walks them. -/
def allQueues : List (QueueName × Nat) :=
  [.ready, .memBlocked, .msgBlocked].flatMap fun q => (List.range 5).map fun i => (q, i)

namespace Scheduler

/-! ### Access to the PCBs -/

def next (s : Scheduler) (p : PcbPtr) : Option PcbPtr := (s.pcb p).next

def setPcb (s : Scheduler) (p : PcbPtr) (b : Pcb) : Scheduler :=
  { s with pcb := Function.update s.pcb p b }

def setNext (s : Scheduler) (p : PcbPtr) (v : Option PcbPtr) : Scheduler :=
  s.setPcb p { s.pcb p with next := v }

def setState (s : Scheduler) (p : PcbPtr) (v : ProcessState) : Scheduler :=
  s.setPcb p { s.pcb p with state := v }

def setPriority (s : Scheduler) (p : PcbPtr) (v : UInt32) : Scheduler :=
  s.setPcb p { s.pcb p with priority := v }

def setHead (s : Scheduler) (q : QueueName) (i : Nat) (v : Option PcbPtr) : Scheduler :=
  { s with queue := Function.update s.queue q (Function.update (s.queue q) i v) }

/-- The level a PCB is filed under, the index `process->priority`. -/
def level (s : Scheduler) (p : PcbPtr) : Nat := (s.pcb p).priority.toNat

/-! ### Looking a process up -/

def searchQueues (s : Scheduler) (pid : UInt32) :
    List (QueueName × Nat) → Option (Option PcbPtr)
  | [] => some none
  | (q, i) :: rest => do
    match ← find s.next (fun p => (s.pcb p).pid = pid) s.pcbCount (s.queue q i) with
    | some p => return some p
    | none => s.searchQueues pid rest

/-- `get_process_by_pid`: the running process first, since it need not be in any queue. -/
def getProcessByPid (s : Scheduler) (pid : UInt32) : Option (Option PcbPtr) :=
  match s.runningProcess with
  | some r => if (s.pcb r).pid = pid then some (some r) else s.searchQueues pid allQueues
  | none => s.searchQueues pid allQueues

/-- `get_current_pid` -/
def getCurrentPid (s : Scheduler) : UInt32 :=
  match s.runningProcess with
  | some r => (s.pcb r).pid
  | none => noPid

/-- `is_pid_valid` -/
def isPidValid (s : Scheduler) (pid : UInt32) : Option Bool := do
  return (← s.getProcessByPid pid).isSome

/-- `is_process_blocked` -/
def isProcessBlocked (s : Scheduler) (pid : UInt32) : Option Bool := do
  match ← s.getProcessByPid pid with
  | some p => return (s.pcb p).state.isBlocked
  | none => return false

/-- `get_process_priority`, whose result is `-1` for an unknown pid. -/
def getProcessPriority (s : Scheduler) (pid : UInt32) : Option UInt32 := do
  match ← s.getProcessByPid pid with
  | some p => return (s.pcb p).priority
  | none => return noPid

/-! ### The queues -/

/-- `remove_process`: take a process out of the queue that its state and priority name. -/
def removeProcess (s : Scheduler) (p : PcbPtr) : Option Scheduler :=
  if s.runningProcess = some p then some s
  else
    let q := (s.pcb p).state.queue
    if s.queue q (s.level p) = some p then
      some ((s.setHead q (s.level p) (s.next p)).setNext p none)
    else do
      match ← find s.next (fun c => s.next c = some p) s.pcbCount (s.queue q (s.level p)) with
      | some c => return (s.setNext c (s.next p)).setNext p none
      | none => return s

/-- `enqueue_process`: link a process behind the last one of its level. -/
def enqueueProcess (s : Scheduler) (q : QueueName) (p : PcbPtr) : Option Scheduler :=
  if s.queue q (s.level p) = none then
    some ((s.setHead q (s.level p) (some p)).setNext p none)
  else do
    match ← find s.next (fun c => (s.next c).isNone) s.pcbCount (s.queue q (s.level p)) with
    | some c => return (s.setNext c (some p)).setNext p none
    | none => none

/-- The first level of a queue that is not empty, with the process at its head. -/
def firstLevel (s : Scheduler) (q : QueueName) : Option (Nat × PcbPtr) :=
  (List.range 5).findSome? fun i => (s.queue q i).map fun p => (i, p)

/-- `dequeue_process`: take the first process of the most urgent level. -/
def dequeueProcess (s : Scheduler) (q : QueueName) : Option PcbPtr × Scheduler :=
  match s.firstLevel q with
  | some (i, p) => (some p, (s.setHead q i (s.next p)).setNext p none)
  | none => (none, s)

/-! ### The process switch -/

/-- The part of `proc_switch_handler` that files the process that leaves the CPU. -/
def suspendRunning (s : Scheduler) : Option Scheduler :=
  match s.runningProcess with
  | some r =>
    if r ≠ s.mainProcess ∧ (s.pcb r).state = .ready then s.enqueueProcess .ready r else some s
  | none => some s

/-- The part of `proc_switch_handler` that picks the next process; one that is `new` is started. -/
def dispatch (s : Scheduler) : Scheduler :=
  let (p, s) := s.dequeueProcess .ready
  let r := p.getD s.mainProcess
  let s := { s with runningProcess := some r }
  if (s.pcb r).state = .new then s.setState r .ready else s

/-- `proc_switch_handler`, the handler of `release_processor`. -/
def procSwitchHandler (s : Scheduler) : Option Scheduler := do
  return (← s.suspendRunning).dispatch

/-! ### Blocking and unblocking -/

/-- The critical section of `block_process`. The flag says that `process == running_process`, after
which the code releases the processor. -/
def blockSection (s : Scheduler) (pid : UInt32) (t : BlockType) : Option (Bool × Scheduler) := do
  match ← s.getProcessByPid pid with
  | none => return (false, s)
  | some p =>
    if (s.pcb p).state.isBlocked then return (false, s)
    else
      let s ← s.removeProcess p
      let s ← (s.setState p t.state).enqueueProcess t.queue p
      return (s.runningProcess = some p, s)

/-- Put a process that left a blocked queue into the ready queue. The flag is the test
`process->priority < running_process->priority`, which dereferences `running_process`. -/
def makeReady (s : Scheduler) (p : PcbPtr) : Option (Bool × Scheduler) := do
  let s ← (s.setState p .ready).enqueueProcess .ready p
  match s.runningProcess with
  | some r => return ((s.pcb p).priority < (s.pcb r).priority, s)
  | none => none

/-- The critical section of `unblock_process_by_pid`. -/
def unblockByPidSection (s : Scheduler) (pid : UInt32) : Option (Bool × Scheduler) := do
  match ← s.getProcessByPid pid with
  | none => return (false, s)
  | some p =>
    if (s.pcb p).state.isBlocked then
      let s ← s.removeProcess p
      s.makeReady p
    else return (false, s)

/-- The critical section of `unblock_process_by_type`. -/
def unblockByTypeSection (s : Scheduler) (t : BlockType) : Option (Bool × Scheduler) :=
  match s.firstLevel t.queue with
  | none => some (false, s)
  | some (i, p) => ((s.setHead t.queue i (s.next p)).setNext p none).makeReady p

/-- `release_processor()` if the flag is set. -/
def releaseIf (x : Bool × Scheduler) : Option Scheduler :=
  if x.1 then x.2.procSwitchHandler else some x.2

/-- `block_process` -/
def blockProcess (s : Scheduler) (pid : UInt32) (t : BlockType) : Option Scheduler := do
  releaseIf (← s.blockSection pid t)

/-- `unblock_process_by_pid` -/
def unblockProcessByPid (s : Scheduler) (pid : UInt32) (allowRelease : Bool) :
    Option Scheduler := do
  let (urgent, s) ← s.unblockByPidSection pid
  releaseIf (urgent && allowRelease, s)

/-- `unblock_process_by_type` -/
def unblockProcessByType (s : Scheduler) (t : BlockType) : Option Scheduler := do
  releaseIf (← s.unblockByTypeSection t)

/-! ### Priorities and the end of a process -/

/-- The critical section of `set_process_priority_handler`: the value returned in `d6`, and whether
the processor is released. -/
def setPrioritySection (s : Scheduler) (pid priority : Int32) :
    Option (UInt32 × Bool × Scheduler) := do
  if pid ≤ 0 then return (2, false, s)
  if priority < 0 ∨ priority > 3 then return (3, false, s)
  match ← s.getProcessByPid pid.toUInt32 with
  | none => return (4, false, s)
  | some p =>
    let oldPriority := (s.pcb p).priority
    if priority.toUInt32 = oldPriority then return (0, false, s)
    else if s.runningProcess ≠ some p then
      let s ← s.removeProcess p
      let s := s.setPriority p priority.toUInt32
      let q := (s.pcb p).state.queue
      let s ← s.enqueueProcess q p
      match s.runningProcess with
      | some r => return (0, priority.toUInt32 < (s.pcb r).priority && q = .ready, s)
      | none => none
    else return (0, priority.toUInt32 > oldPriority, s.setPriority p priority.toUInt32)

/-- `set_process_priority` -/
def setProcessPriority (s : Scheduler) (pid priority : Int32) : Option (UInt32 × Scheduler) := do
  let (code, release, s) ← s.setPrioritySection pid priority
  return (code, ← releaseIf (release, s))

/-- The end of `process_bootstrap`, after the entry function of `block` has returned. -/
def endProcess (s : Scheduler) (block : PcbPtr) : Option Scheduler := do
  let s ← s.removeProcess block
  return { s with runningProcess := none, live := s.live.erase block }

/-- The end of the running process, with the `release_processor()` that follows. -/
def terminate (s : Scheduler) : Option Scheduler := do
  match s.runningProcess with
  | some r => (← s.endProcess r).procSwitchHandler
  | none => none

/-! ### Where the processes are -/

/-- The queues are the null-terminated lists `l`. A live process runs, and every other one is linked
once, into the queue that its own state and priority name. -/
structure Filed (s : Scheduler) (l : QueueName → Nat → List PcbPtr) : Prop where
  running : ∃ r ∈ s.live, s.runningProcess = some r
  chain : ∀ q i, Chain s.next (s.queue q i) (l q i)
  nodup : ∀ q i, (l q i).Nodup
  linked : ∀ q i, ∀ p ∈ l q i, p ∈ s.live ∧ i < 5
  home : ∀ p ∈ s.live, ∀ q i, p ∈ l q i ↔
    s.runningProcess ≠ some p ∧ q = (s.pcb p).state.queue ∧ i = s.level p

end Scheduler

end RtxKernel
