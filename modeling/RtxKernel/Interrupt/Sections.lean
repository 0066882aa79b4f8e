import RtxKernel.Core.Basic
import RtxKernel.Lib.Nesting
import RtxKernel.Lib.Run

/-!
# Critical sections

The functions of the kernel, reduced to what concerns `atomic_status` and the interrupt mask: direct calls of
`atomic_up` and `atomic_down`, traps, and the change of the stack in `proc_switch_handler`. The outcome of every
test in between is left open. A trap pushes the status register and keeps the mask, an interrupt is taken when its
level exceeds the mask, pushes the status register and sets the mask to its level, and RTE restores what was pushed.
-/

namespace RtxKernel

/-- The counter `atomic_status`, and the interrupt mask of the status register -/
structure Cpu where
  atomicStatus : Int
  mask : Nat

namespace Cpu

/-- `atomic`, which writes 0x2000 or 0x2700 to the status register -/
def atomic (c : Cpu) (n : Int) : Cpu :=
  let n := if n = 0 then -1 else n
  if n ≠ 1 ∧ n ≠ -1 then c
  else
    let status := c.atomicStatus + n
    let status := if status < 0 then 0 else status
    let mask := if status = 0 then 0 else c.mask
    let mask := if status = 1 then 7 else mask
    ⟨status, mask⟩

def atomicUp (c : Cpu) : Cpu := c.atomic 1

def atomicDown (c : Cpu) : Cpu := c.atomic 0

end Cpu

/-- The traps, from TRAP #0 to TRAP #9 -/
inductive Trap
  | processSwitch
  | atomicUp
  | atomicDown
  | requestMemoryBlock
  | releaseMemoryBlock
  | sendMessage
  | receiveMessage
  | delayedSend
  | setPriority
  | getPriority
  deriving DecidableEq

inductive Irq
  | uart
  | timer
  deriving DecidableEq

/-- What `uart_init` and `init_timer` write to `SERIAL1_ICR` and `TIMER0_ICR` -/
def Irq.icr : Irq → Nat
  | uart => 0x17
  | timer => 0x9B

/-- The interrupt level, bits 2 to 4 of the control register -/
def Irq.level (i : Irq) : Nat := i.icr / 4 % 8

/-- What a piece of code does: a call of `atomic_up` or `atomic_down`, a trap, the change to another process in
`proc_switch_handler`, and the start of a process in user mode in `process_bootstrap`. -/
inductive Prim
  | up
  | down
  | trap (t : Trap)
  | switch
  | enter

namespace Flow

open Code

/-! ### The code -/

def up : Code Prim := act .up

def down : Code Prim := act .down

def trap (t : Trap) : Code Prim := act (.trap t)

def releaseProcessor : Code Prim := trap .processSwitch

def blockProcess : Code Prim :=
  trap .atomicUp >>
    -- no such process
    either (trap .atomicDown)
    -- it is blocked already
    (either (trap .atomicDown)
    -- it is the running process
    (either (trap .atomicDown >> releaseProcessor)
      (trap .atomicDown)))

def unblockProcessByPid (allowReleaseProcessor : Bool) : Code Prim :=
  trap .atomicUp >>
    -- no such process
    either (trap .atomicDown)
    -- it is not blocked
    (either (trap .atomicDown)
    -- it is more urgent than the running process
    (either (if allowReleaseProcessor then trap .atomicDown >> releaseProcessor else trap .atomicDown)
      (trap .atomicDown)))

def unblockProcessByType : Code Prim :=
  trap .atomicUp >>
    -- no process waits
    either (trap .atomicDown)
    -- it is more urgent than the running process
    (either (trap .atomicDown >> releaseProcessor)
      (trap .atomicDown))

/-- `proc_switch_handler` returns on the stack of the next process. -/
def procSwitchHandler : Code Prim := up >> act .switch >> down

def getProcessPriorityHandler : Code Prim := up >> either down down

def setProcessPriorityHandler : Code Prim :=
  up >>
    -- a bad pid, a bad priority, no such process, the same priority
    either down (either down (either down (either down
    -- another process, or the running one
    (either (either (down >> releaseProcessor) down)
      (either (down >> releaseProcessor) down)))))

def requestMemoryBlockHandler : Code Prim :=
  up >> loop (down >> blockProcess >> trap .atomicUp) >> trap .atomicDown

def releaseMemoryHandler : Code Prim :=
  up >>
    -- `usedBlocks` is empty, the block is not found, it cannot be removed
    either down (either down (either down
      (down >> unblockProcessByType)))

def sendMessageHandler : Code Prim :=
  up >>
    -- no envelope, a bad pid
    either down (either down
      (down >> unblockProcessByPid true))

def receiveMessageHandler : Code Prim :=
  up >>
    -- there is a message
    either down
      (down >> blockProcess)

def delayedSendHandler : Code Prim := up >> either down (either down down)

def handler : Trap → Code Prim
  | .processSwitch => procSwitchHandler
  | .atomicUp => up
  | .atomicDown => down
  | .requestMemoryBlock => requestMemoryBlockHandler
  | .releaseMemoryBlock => releaseMemoryHandler
  | .sendMessage => sendMessageHandler
  | .receiveMessage => receiveMessageHandler
  | .delayedSend => delayedSendHandler
  | .setPriority => setProcessPriorityHandler
  | .getPriority => getProcessPriorityHandler

def uartHandler : Code Prim :=
  up >>
    -- no block is available
    either down
      (trap .requestMemoryBlock >> trap .sendMessage >> down)

def checkExistingDelayedMessage : Code Prim :=
  loop
      -- the entry is due and its receiver is blocked
      (either (unblockProcessByPid false >> trap .getPriority >> either (trap .getPriority) skip)
        skip) >>
    trap .getPriority >>
    either releaseProcessor skip

def isr : Irq → Code Prim
  | .uart => uartHandler
  | .timer => checkExistingDelayedMessage

/-- The traps that the primitives of a process use -/
def userTraps : List Trap :=
  [.processSwitch, .requestMemoryBlock, .releaseMemoryBlock, .sendMessage, .receiveMessage, .delayedSend,
    .setPriority, .getPriority]

/-- A process uses any of the primitives, and may end. -/
def processBootstrap : Code Prim := act .enter >> loop (anyOf (userTraps.map trap)) >> releaseProcessor

end Flow

/-- The code that is still to be executed, and the mask that the RTE behind it restores. A process itself does not
return. -/
structure Frame where
  code : List (Code Prim)
  saved : Option Nat

/-- The stacks of the processes. `pending` counts, for each process, the calls of `atomic_up` that its handlers have
made and not yet matched with `atomic_down`. -/
structure Flow where
  cpu : Cpu
  current : PcbPtr
  stack : PcbPtr → List Frame
  pending : PcbPtr → Int

namespace Flow

variable (m : Flow)

/-- `main` is about to start the first process, the others have not been started. -/
def start (main : PcbPtr) : Flow where
  cpu := ⟨0, 0⟩
  current := main
  stack p := if p = main then [⟨[releaseProcessor], none⟩] else [⟨[down, processBootstrap], none⟩]
  pending _ := 0

def withStack (l : List Frame) : Flow := { m with stack := Function.update m.stack m.current l }

def withMask (mask : Nat) : Flow := { m with cpu := { m.cpu with mask } }

/-- A trap or an interrupt -/
def push (c : Code Prim) : Flow := m.withStack (⟨[c], some m.cpu.mask⟩ :: m.stack m.current)

def countPending (n : Int) : Flow :=
  { m with pending := Function.update m.pending m.current (m.pending m.current + n) }

def perform : Prim → Option Flow
  | .up => some { m.countPending 1 with cpu := m.cpu.atomicUp }
  | .down => some { m.countPending (-1) with cpu := m.cpu.atomicDown }
  | .trap t => some (m.push (handler t))
  | .enter => some (m.withMask 0)
  | .switch => none

/-- The section that `proc_switch_handler` has begun is ended by the next process. -/
def handOver (p : PcbPtr) : Flow := { m.countPending (-1) with current := p }.countPending 1

/-- What happens next: a test has an outcome, an instruction is executed, `proc_switch_handler` changes to a
process, or there is an interrupt. -/
inductive Move
  | test (b : Bool)
  | exec
  | switchTo (p : PcbPtr)
  | interrupt (i : Irq)
  deriving DecidableEq

def step (m : Flow) : Move → Option Flow
  | .test b =>
    match m.stack m.current with
    | ⟨c :: k, s⟩ :: fs => (c.expand b).map fun l => m.withStack (⟨l ++ k, s⟩ :: fs)
    | _ => none
  | .exec =>
    match m.stack m.current with
    | ⟨[], some s⟩ :: fs => some ((m.withStack fs).withMask s)
    | ⟨.act x :: k, s⟩ :: fs => (m.withStack (⟨k, s⟩ :: fs)).perform x
    | _ => none
  | .switchTo p =>
    match m.stack m.current with
    | ⟨.act .switch :: k, s⟩ :: fs => some ((m.withStack (⟨k, s⟩ :: fs)).handOver p)
    | _ => none
  | .interrupt i => if m.cpu.mask < i.level then some ((m.push (isr i)).withMask i.level) else none

/-- The trap that is the next instruction -/
def nextTrap (m : Flow) : Option Trap :=
  match m.stack m.current with
  | ⟨.act (.trap t) :: _, _⟩ :: _ => some t
  | _ => none

/-- If the processor is released, then not in a critical section. -/
def Outside (m : Flow) (a : Move) : Prop :=
  a = .exec → m.nextTrap = some .processSwitch → m.cpu.atomicStatus = 0

/-- If TRAP #1 is used, then with interrupts disabled. -/
def Masked (m : Flow) (a : Move) : Prop := a = .exec → m.nextTrap = some .atomicUp → m.cpu.mask = 7

instance (m : Flow) (a : Move) : Decidable (m.Outside a) := inferInstanceAs (Decidable (_ → _ → _))

instance (m : Flow) (a : Move) : Decidable (m.Masked a) := inferInstanceAs (Decidable (_ → _ → _))

def Step (m : Flow) (a : Move) (m' : Flow) : Prop := m.step a = some m'

def StepOutside (m : Flow) (a : Move) (m' : Flow) : Prop := m.Step a m' ∧ m.Outside a

def StepMasked (m : Flow) (a : Move) (m' : Flow) : Prop := m.Step a m' ∧ m.Outside a ∧ m.Masked a

end Flow

end RtxKernel
