import RtxKernel.Interrupt.Sections

/-!
# The running process

The code of the critical sections, with the places where `running_process` is written and where the unblocking
functions dereference it. `proc_switch_handler` saves the stack in the block of `running_process`, and takes the one
of the process that it has dequeued, or of `main`. When a process has ended, `process_bootstrap` sets
`running_process` to NULL and releases the processor.
-/

namespace RtxKernel

deriving instance DecidableEq for Prim

/-- What a piece of code does -/
inductive Instr
  /-- an action of a critical section; `switch` is the change of the stack -/
  | prim (x : Prim)
  /-- `process->priority < running_process->priority` -/
  | compare
  /-- the registers are saved in the block of `running_process`, unless that is NULL -/
  | save
  /-- `running_process = dequeue_process(ready_queue)` -/
  | dequeue
  /-- `running_process = main_process`, if it is NULL -/
  | orMain
  /-- `running_process = NULL` -/
  | clear
  deriving DecidableEq

def Instr.prim? : Instr → Option Prim
  | .prim x => some x
  | _ => none

namespace Processor

open Code

/-! ### The code -/

/-- Code that does not use `running_process` -/
def lift (c : Code Prim) : Code Instr := c.map .prim

def up : Code Instr := lift Flow.up

def down : Code Instr := lift Flow.down

def trap (t : Trap) : Code Instr := lift (Flow.trap t)

def releaseProcessor : Code Instr := trap .processSwitch

def unblockProcessByPid (allowReleaseProcessor : Bool) : Code Instr :=
  trap .atomicUp >>
    -- no such process
    either (trap .atomicDown)
    -- it is not blocked
    (either (trap .atomicDown)
    -- it is more urgent than the running process
    (act .compare >>
      either (if allowReleaseProcessor then trap .atomicDown >> releaseProcessor else trap .atomicDown)
        (trap .atomicDown)))

def unblockProcessByType : Code Instr :=
  trap .atomicUp >>
    -- no process waits
    either (trap .atomicDown)
    -- it is more urgent than the running process
    (act .compare >>
      either (trap .atomicDown >> releaseProcessor)
        (trap .atomicDown))

/-- `proc_switch_handler` returns on the stack of the next process. -/
def procSwitchHandler : Code Instr :=
  up >> act .save >> act .dequeue >> act .orMain >> act (.prim .switch) >> down

def releaseMemoryHandler : Code Instr :=
  up >>
    -- `usedBlocks` is empty, the block is not found, it cannot be removed
    either down (either down (either down
      (down >> unblockProcessByType)))

def sendMessageHandler : Code Instr :=
  up >>
    -- no envelope, a bad pid
    either down (either down
      (down >> unblockProcessByPid true))

def handler : Trap → Code Instr
  | .processSwitch => procSwitchHandler
  | .releaseMemoryBlock => releaseMemoryHandler
  | .sendMessage => sendMessageHandler
  | t => lift (Flow.handler t)

def checkExistingDelayedMessage : Code Instr :=
  loop
      -- the entry is due and its receiver is blocked
      (either (unblockProcessByPid false >> trap .getPriority >> either (trap .getPriority) (lift skip))
        (lift skip)) >>
    trap .getPriority >>
    either releaseProcessor (lift skip)

def isr : Irq → Code Instr
  | .uart => lift (Flow.isr .uart)
  | .timer => checkExistingDelayedMessage

/-- The functions of `core.c` that a process can also call directly -/
def coreCalls : List (Code Instr) :=
  [lift Flow.blockProcess, unblockProcessByPid true, unblockProcessByPid false, unblockProcessByType]

/-- A process calls any of these functions, and may end. -/
def processBootstrap : Code Instr :=
  act (.prim .enter) >> loop (anyOf (Flow.userTraps.map trap ++ coreCalls)) >> act .clear >> releaseProcessor

/-- Less what concerns `running_process`, the handlers are those of the critical sections. -/
lemma handler_filterMap (t : Trap) : (handler t).filterMap Instr.prim? = Flow.handler t := by
  cases t <;> rfl

lemma isr_filterMap (i : Irq) : (isr i).filterMap Instr.prim? = Flow.isr i := by
  cases i <;> rfl

end Processor

/-- The code that is still to be executed, and the mask that the RTE behind it restores. A process itself does not
return. -/
structure Activation where
  code : List (Code Instr)
  saved : Option Nat

/-- The stack that is in use, those that are saved in the process blocks, and `running_process`. -/
structure Processor where
  cpu : Cpu
  mainProcess : PcbPtr
  runningProcess : Option PcbPtr
  stack : List Activation
  saved : PcbPtr → List Activation

namespace Processor

variable (m : Processor)

/-- `main` is about to start the first process, the others have not been started. -/
def start (main : PcbPtr) : Processor where
  cpu := ⟨0, 0⟩
  mainProcess := main
  runningProcess := some main
  stack := [⟨[releaseProcessor], none⟩]
  saved _ := [⟨[down, processBootstrap], none⟩]

def withStack (l : List Activation) : Processor := { m with stack := l }

def withMask (mask : Nat) : Processor := { m with cpu := { m.cpu with mask } }

def withRunning (p : Option PcbPtr) : Processor := { m with runningProcess := p }

/-- A trap or an interrupt -/
def push (c : Code Instr) : Processor := m.withStack (⟨[c], some m.cpu.mask⟩ :: m.stack)

/-- The running process is to go on behind the change of the stack. -/
def save : Processor :=
  match m.runningProcess, m.stack with
  | some r, f :: fs => { m with saved := Function.update m.saved r (⟨[down], f.saved⟩ :: fs) }
  | _, _ => m

def perform : Instr → Option Processor
  | .prim .up => some { m with cpu := m.cpu.atomicUp }
  | .prim .down => some { m with cpu := m.cpu.atomicDown }
  | .prim (.trap t) => some (m.push (handler t))
  | .prim .enter => some (m.withMask 0)
  | .prim .switch => m.runningProcess.map fun r => m.withStack (m.saved r)
  | .compare => some m
  | .save => some m.save
  | .dequeue => none
  | .orMain => some (m.withRunning (some (m.runningProcess.getD m.mainProcess)))
  | .clear => some (m.withRunning none)

/-- What happens next: a test has an outcome, an instruction is executed, a process is dequeued or none, or there is
an interrupt. -/
inductive Move
  | test (b : Bool)
  | exec
  | dequeue (p : Option PcbPtr)
  | interrupt (i : Irq)
  deriving DecidableEq

def step (m : Processor) : Move → Option Processor
  | .test b =>
    match m.stack with
    | ⟨c :: k, s⟩ :: fs => (c.expand b).map fun l => m.withStack (⟨l ++ k, s⟩ :: fs)
    | _ => none
  | .exec =>
    match m.stack with
    | ⟨[], some s⟩ :: fs => some ((m.withStack fs).withMask s)
    | ⟨.act x :: k, s⟩ :: fs => (m.withStack (⟨k, s⟩ :: fs)).perform x
    | _ => none
  | .dequeue p =>
    match m.stack with
    | ⟨.act .dequeue :: k, s⟩ :: fs => some ((m.withStack (⟨k, s⟩ :: fs)).withRunning p)
    | _ => none
  | .interrupt i => if m.cpu.mask < i.level then some ((m.push (isr i)).withMask i.level) else none

/-- The instruction that comes next -/
def next : Option Instr :=
  match m.stack with
  | ⟨.act x :: _, _⟩ :: _ => some x
  | _ => none

/-- No interrupt can be taken. -/
def Quiet : Prop := ∀ i : Irq, i.level ≤ m.cpu.mask

/-- `running_process` is not NULL where an interrupt can be taken, and where it is dereferenced. -/
def Safe : Prop :=
  (∀ i : Irq, m.cpu.mask < i.level → m.runningProcess ≠ none) ∧
    (m.next = some .compare → m.runningProcess ≠ none)

/-- If `running_process` is set to NULL, then where no interrupt can be taken. -/
def Masked (a : Move) : Prop := (a = .exec ∧ m.next = some .clear) ∨ a = .dequeue none → m.Quiet

instance : Decidable m.Quiet :=
  decidable_of_iff (Irq.uart.level ≤ m.cpu.mask ∧ Irq.timer.level ≤ m.cpu.mask)
    ⟨fun h i => match i with | .uart => h.1 | .timer => h.2, fun h => ⟨h .uart, h .timer⟩⟩

instance (a : Move) : Decidable (m.Masked a) := inferInstanceAs (Decidable (_ → _))

def Step (m : Processor) (a : Move) (m' : Processor) : Prop := m.step a = some m'

def StepMasked (m : Processor) (a : Move) (m' : Processor) : Prop := m.Step a m' ∧ m.Masked a

end Processor

end RtxKernel
