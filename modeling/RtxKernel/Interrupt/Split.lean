import RtxKernel.Interrupt.Stores
import RtxKernel.Kernel.Safety

/-!
# Operations with interrupts in between

The timer and the UART can interrupt at every step of an operation, outside of the critical sections and inside of
them: TRAP #1 leaves the mask as it is, and `atomic_up()` masks nothing when `atomic_status` was not 0 before. The
sections that change the process queues, and the process switch, are cut at their stores. The sections on the mailboxes
and the lists of blocks are one turn, between their entry and their end; what an interrupt inside of them makes of the
mailboxes, the blocks and the memory is not followed, and is taken to be anything (`Turn.race`).

What the interrupt handlers do is cut in the same way. They may themselves be interrupted, and one that releases the
processor goes on when the interrupted process runs again.
-/

namespace RtxKernel

/-- What a process has still to do in its call of the kernel. -/
inductive Stage
  | user
  /-- the call `op`, from its `atomic_up()` to the end of its first critical section -/
  | enter (op : Op)
  /-- `block_process(get_current_pid(), t)` -/
  | block (t : BlockType)
  /-- `release_processor()` in `block_process` -/
  | leave (t : BlockType)
  /-- the test of `availableBlocks` in `request_memory_block_handler`, behind the TRAP #1 after `block_process` -/
  | test
  /-- what follows it: the block is taken from the list -/
  | take
  /-- `unblock_process_by_pid(pid, 1)` in `send_message_handler` -/
  | unblock (pid : UInt32)
  /-- `unblock_process_by_type(mem)` in `release_memory_handler` -/
  | unblockMem
  /-- `release_processor()`, with which the call ends -/
  | release
  /-- `running_process = NULL` in `process_bootstrap` -/
  | clear
  /-- the last `release_processor()` in `process_bootstrap` -/
  | ended
  deriving DecidableEq

/-- What an interrupt handler has still to do. -/
inductive Isr
  /-- the loop of `check_existing_delayed_message` from slot `i` on -/
  | sweep (i : Nat) (highestPriority : UInt32)
  /-- test whether the receiver of the message in slot `j` of the mailbox is blocked; the loop goes on with `next` -/
  | wake (j next : Nat) (highestPriority : UInt32)
  /-- `unblock_process_by_pid(mailbox[j]->rx, 0)` -/
  | unblockRx (j next : Nat) (highestPriority : UInt32)
  /-- compare the priority of that receiver -/
  | rank (j next : Nat) (highestPriority : UInt32)
  /-- `highest_priority = get_process_priority(mailbox[j]->rx)` -/
  | best (j next : Nat)
  /-- `uart_handler`, for the character `c` -/
  | uart (c : UInt8)
  /-- `uart_handler` behind its `atomic_up()`, up to `unblock_process_by_pid` in `send_message_handler` -/
  | deliver (c : UInt8)
  /-- `unblock_process_by_pid(pid, 1)`, for the UART -/
  | unblock (pid : UInt32)
  | release
  /-- the return to what was interrupted -/
  | ret
  deriving DecidableEq

/-- How a section on the queues ends. -/
inductive Ending (σ : Type)
  /-- `atomic_down()` or TRAP #2; the code goes on with `yes` if the test is passed, and with `no` if not. -/
  | leave (test : Test) (yes no : σ)
  /-- The registers of the process that runs now are loaded. What `old` was doing is to go on with `next`. -/
  | load (old : Option PcbPtr) (next : σ)
  deriving DecidableEq

/-- A section on the queues that is not at its end: the process whose link is to be cleared, and what is left then -/
structure Pending (σ : Type) where
  clear : Option PcbPtr
  pieces : List Piece
  ending : Ending σ
  deriving DecidableEq

/-- A place in the code, inside of a section on the queues or not -/
inductive Place (σ : Type)
  | out (x : σ)
  | inside (w : Pending σ)
  deriving DecidableEq

/-- The pending calls on the stack of a process: that of the process itself, and the interrupt handlers
above it, the innermost one first. -/
structure Context where
  base : Place Stage
  isrs : List (Place Isr)
  deriving DecidableEq

/-- The kernel, the context on the CPU, and those of the other processes. -/
structure Split where
  kernel : Kernel
  current : Context
  saved : PcbPtr → Context

inductive Turn
  | call (op : Op)
  | go
  | timer
  | uart (c : UInt8)
  /-- the mailboxes, the blocks, the memory and the ticks become those of `k` -/
  | race (k : Kernel)

/-- What follows in the handler that has called `block_process`. -/
def BlockType.after : BlockType → Stage
  | .msg => .user
  | .mem => .test

/-- A section on the queues is open. -/
def Place.isOpen {σ : Type} : Place σ → Bool
  | .out _ => false
  | .inside _ => true

def Place.pending {σ : Type} : Place σ → Option (Pending σ)
  | .out _ => none
  | .inside w => some w

/-- A store is still to be made, or the registers of another process are to be loaded. -/
def Pending.changes {σ : Type} (w : Pending σ) : Bool :=
  w.clear.isSome || ! w.pieces.isEmpty || match w.ending with
    | .leave _ _ _ => false
    | .load _ _ => true

/-- The place behind the look-ups -/
def Plan.begin {σ : Type} (w : Plan) (yes no : σ) : Place σ := .inside ⟨none, w.pieces, .leave w.test yes no⟩

/-- `process->priority` of the null pointer -/
def Kernel.nullPriority (k : Kernel) : UInt32 := read32 k.pool.memory 8

namespace Split

/-- The contexts, with the one of the process that leaves the CPU. -/
def save (saved : PcbPtr → Context) (old : Option PcbPtr) (c : Context) : PcbPtr → Context :=
  match old with
  | some r => Function.update saved r c
  | none => saved

variable (m : Split)

def put (k : Kernel) (c : Context) : Split := { m with kernel := k, current := c }

/-- TRAP #0 and the entry of `proc_switch_handler`, in the code that goes on with `next` later. -/
def switching {σ : Type} (next : σ) : Place σ :=
  .inside ⟨none, m.kernel.sched.switchPieces, .load m.kernel.sched.runningProcess next⟩

/-- The next store of a section, or its end; `top` is the context that the place belongs to. -/
def advance {σ : Type} (w : Pending σ) (top : Place σ → Context) : Option Split :=
  match w.clear, w.pieces, w.ending with
  | some p, _, _ =>
    some (m.put (m.kernel.withSched (m.kernel.sched.setNext p none)) (top (.inside { w with clear := none })))
  | none, x :: l, _ => do
    let (s, clear, more) ← m.kernel.sched.first x
    return m.put (m.kernel.withSched s) (top (.inside { w with clear := clear, pieces := more ++ l }))
  | none, [], .leave test yes no =>
    some (m.put m.kernel (top (.out (if m.kernel.sched.passes m.kernel.nullPriority test then yes else no))))
  | none, [], .load old next => do
    let r ← m.kernel.sched.runningProcess
    let saved := save m.saved old (top (.out next))
    return ⟨m.kernel, saved r, saved⟩

/-- The running process goes on with its call at the place `x`. -/
def stay (k : Kernel) (x : Place Stage) : Split := m.put k ⟨x, []⟩

/-- The test in `request_memory_block_handler` -/
def test : Split := m.stay m.kernel (.out (if m.kernel.pool.areBlocksAvailable then .take else .block .mem))

/-- The first critical section of a call. -/
def enter : Op → Option Split
  | .releaseProcessor => some (m.stay m.kernel (m.switching .user))
  | .setPriority pid priority => do
    let w ← m.kernel.sched.setPriorityPlan pid priority
    return m.stay m.kernel (w.begin .release .user)
  | .send pid envelope => do
    let (_, sent, k) ← m.kernel.sendSection pid envelope
    return m.stay k (.out (if sent then .unblock pid else .user))
  | .delayedSend pid envelope delay => do
    let (_, k) ← m.kernel.delayedSend pid envelope delay
    return m.stay k (.out .user)
  | .receive =>
    match m.kernel.receiveScan with
    | (some _, k) => some (m.stay k (.out .user))
    | (none, k) => some (m.stay k (.out (.block .msg)))
  | .request => some m.test
  | .release a => do
    let (code, pool) ← m.kernel.pool.releaseBlock a m.kernel.currentPid
    return m.stay { m.kernel with pool := pool } (.out (if code = 0 then .unblockMem else .user))
  | .store a v => some (m.stay (m.kernel.store a v) (.out .user))
  | .terminate => do
    let s ← m.kernel.sched.removeProcess (← m.kernel.sched.runningProcess)
    return m.stay (m.kernel.withSched s) (.out .clear)
  | .block _ | .unblockByPid _ _ | .unblockByType _ | .timer | .uart _ => none

/-- The running process goes on with its call. -/
def proceed : Stage → Option Split
  | .user => none
  | .enter op => m.enter op
  | .block t => do
    let w ← m.kernel.sched.blockPlan m.kernel.currentPid t
    return m.stay m.kernel (w.begin (.leave t) t.after)
  | .leave t => some (m.stay m.kernel (m.switching t.after))
  | .test => some m.test
  | .take => do
    let (_, pool) ← m.kernel.pool.takeBlock m.kernel.currentPid
    return m.stay { m.kernel with pool := pool } (.out .user)
  | .unblock pid => do
    let w ← m.kernel.sched.unblockByPidPlan pid
    return m.stay m.kernel (w.begin .release .user)
  | .unblockMem => some (m.stay m.kernel ((m.kernel.sched.unblockByTypePlan .mem).begin .release .user))
  | .release => some (m.stay m.kernel (m.switching .user))
  | .clear => do
    let r ← m.kernel.sched.runningProcess
    let s := { m.kernel.sched with runningProcess := none, live := m.kernel.sched.live.erase r }
    return m.stay (m.kernel.withSched s) (.out .ended)
  | .ended => some (m.stay m.kernel (m.switching .ended))

/-- The innermost interrupt handler goes on at the place `x`; `rest` are the others. -/
def handle (k : Kernel) (x : Place Isr) (rest : List (Place Isr)) : Split := m.put k ⟨m.current.base, x :: rest⟩

/-- The innermost interrupt handler goes on; `rest` are the others. -/
def serve (rest : List (Place Isr)) : Isr → Option Split
  | .sweep i highest => do
    if memBlockCount ≤ i then
      let priority ← m.kernel.sched.getProcessPriority m.kernel.currentPid
      return m.handle m.kernel (.out (if highest < priority then .release else .ret)) rest
    else
      match m.kernel.delayedMailbox i with
      | none => return m.handle m.kernel (.out (.sweep (i + 1) highest)) rest
      | some e =>
        if m.kernel.sendTime e ≤ m.kernel.ticks then
          let (j, next, k) := m.kernel.moveDue i
          return m.handle k (.out (.wake j next highest)) rest
        else return m.handle m.kernel (.out (.sweep (i + 1) highest)) rest
  | .wake j next highest => do
    let pid := m.kernel.rx (← m.kernel.mailbox j)
    let blocked ← m.kernel.sched.isProcessBlocked pid
    return m.handle m.kernel (.out (if blocked then .unblockRx j next highest else .sweep next highest)) rest
  | .unblockRx j next highest => do
    let w ← m.kernel.sched.unblockByPidPlan (m.kernel.rx (← m.kernel.mailbox j))
    return m.handle m.kernel (w.begin (.rank j next highest) (.rank j next highest)) rest
  | .rank j next highest => do
    let priority ← m.kernel.sched.getProcessPriority (m.kernel.rx (← m.kernel.mailbox j))
    return m.handle m.kernel (.out (if priority < highest then .best j next else .sweep next highest)) rest
  | .best j next => do
    let priority ← m.kernel.sched.getProcessPriority (m.kernel.rx (← m.kernel.mailbox j))
    return m.handle m.kernel (.out (.sweep next priority)) rest
  | .uart c => some (m.handle m.kernel (.out (.deliver c)) rest)
  | .deliver c => do
    if m.kernel.pool.areBlocksAvailable then
      let (a, pool) ← m.kernel.pool.takeBlock m.kernel.currentPid
      let k := { m.kernel with pool := pool }
      let k := (k.write (txField a) uartPid).write (rxField a) kcdPid
      let (_, sent, k) ← (k.store (msgField a) c).sendSection kcdPid a
      return m.handle k (.out (if sent then .unblock kcdPid else .ret)) rest
    else return m.handle m.kernel (.out .ret) rest
  | .unblock pid => do
    let w ← m.kernel.sched.unblockByPidPlan pid
    return m.handle m.kernel (w.begin .release .ret) rest
  | .release => some (m.handle m.kernel (m.switching .ret) rest)
  | .ret => some (m.put m.kernel ⟨m.current.base, rest⟩)

def step : Turn → Option Split
  | .call op =>
    if m.current = ⟨.out .user, []⟩ ∧ m.kernel.currentPid ≠ 0 then some (m.stay m.kernel (.out (.enter op))) else none
  | .go =>
    match m.current.isrs, m.current.base with
    | .out i :: rest, _ => m.serve rest i
    | .inside w :: rest, base => m.advance w fun x => ⟨base, x :: rest⟩
    | [], .out c => m.proceed c
    | [], .inside w => m.advance w fun x => ⟨x, []⟩
  | .timer => some (m.handle { m.kernel with ticks := m.kernel.ticks + 1 } (.out (.sweep 0 4)) m.current.isrs)
  | .uart c => some (m.handle m.kernel (.out (.uart c)) m.current.isrs)
  | .race k => some { m with kernel := k.withSched m.kernel.sched }

/-! ### What is asked of the turns -/

/-- The process for which `unblock_process_by_pid` is called next. -/
def unblocks : Turn → Option UInt32
  | .go =>
    match m.current.isrs, m.current.base with
    | .out (.unblockRx j _ _) :: _, _ => (m.kernel.mailbox j).map m.kernel.rx
    | .out (.unblock pid) :: _, _ => some pid
    | [], .out (.unblock pid) => some pid
    | _, _ => none
  | _ => none

/-- `unblock_process_by_pid` is not called for the running process while that is blocked. -/
def Spares (t : Turn) : Prop :=
  ∀ pid ∈ m.unblocks t, ∀ r ∈ m.kernel.sched.runningProcess,
    (m.kernel.sched.pcb r).pid = pid → (m.kernel.sched.pcb r).state.isBlocked = false

/-- An interrupt handler neither stores into the queues nor switches processes while a section on the queues is open
that it has interrupted. -/
def keeps : Turn → Bool
  | .go =>
    match m.current.isrs with
    | .inside w :: rest =>
      ! w.changes || ! (m.current.base.isOpen || rest.any Place.isOpen)
    | _ => true
  | _ => true

def Harmless (t : Turn) : Prop := m.Spares t ∧ m.keeps t = true

instance (t : Turn) : Decidable (m.Spares t) :=
  have (pid : UInt32) : Decidable (∀ r ∈ m.kernel.sched.runningProcess,
      (m.kernel.sched.pcb r).pid = pid → (m.kernel.sched.pcb r).state.isBlocked = false) :=
    Option.decidableForallMem _
  Option.decidableForallMem (m.unblocks t)

instance (t : Turn) : Decidable (m.Harmless t) := inferInstanceAs (Decidable (m.Spares t ∧ m.keeps t = true))

/-- What is left of the section on the queues that is open, if one is: the process whose link is to be cleared, and the
pieces. -/
def unfinished : Option PcbPtr × List Piece :=
  match m.current.base with
  | .inside w => (w.clear, w.pieces)
  | .out _ =>
    match m.current.isrs.reverse.findSome? Place.pending with
    | some w => (w.clear, w.pieces)
    | none => (none, [])

/-- The queues as they are when that section has made its stores. -/
def settled : Option Scheduler := (m.kernel.sched.clearNext m.unfinished.1).performAll m.unfinished.2

variable {m}

def start (k : Kernel) : Split := ⟨k, ⟨.out .user, []⟩, fun _ => ⟨.out .user, []⟩⟩

/-- A turn that is allowed. -/
def StepIf (allowed : Split → Turn → Prop) (m : Split) (t : Turn) (m' : Split) : Prop :=
  allowed m t ∧ m.step t = some m'

section Runs

variable (allowed : Split → Turn → Prop) [∀ m t, Decidable (allowed m t)]

def tryTurn (m : Split) (t : Turn) : Option Split := if allowed m t then m.step t else none

/-- A run that starts with start-up is obtained by evaluating its turns. -/
lemma exists_run_of_boot (priority : Fin 6 → UInt8) (base : Nat) (ts : List Turn)
    (check : Split → Bool)
    (h : ((boot priority base).any fun k =>
      (ts.foldlM (tryTurn allowed) (start k)).any check) = true) :
    ∃ k₀ m, boot priority base = some k₀ ∧ Run (StepIf allowed) (start k₀) ts m ∧
      check m = true := by
  obtain ⟨k₀, hk₀, h⟩ := (Option.any_eq_true _ _).mp h
  obtain ⟨m, hrun, hc⟩ := Run.exists_allowed step allowed _ _ _ h
  exact ⟨k₀, m, hk₀, hrun.mono fun _ _ _ hs => ⟨hs.2, hs.1⟩, hc⟩

end Runs

end Split

end RtxKernel
