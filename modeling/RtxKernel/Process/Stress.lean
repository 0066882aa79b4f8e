import RtxKernel.Process.Util
import RtxKernel.Kernel.Outside

/-!
# The stress processes

The three processes of `stress/stress.c` over the kernel. `stress_a` sends count reports to `stress_b`, which
passes them on to `stress_c`; that one hibernates after every twentieth, and keeps what comes in the
meantime in a queue of its own. The other processes and the interrupts do what they like, except that they
do not send to `stress_b` and `stress_c` and leave the blocks of the three alone. Kernel calls run from entry to
return, and between them any process can be switched to.
-/

namespace RtxKernel

/-- `STRESS_A_PID` -/
def stressAPid : UInt32 := 7

/-- `STRESS_B_PID` -/
def stressBPid : UInt32 := 8

/-- `STRESS_C_PID` -/
def stressCPid : UInt32 := 9

def stressPids : List UInt32 := [stressAPid, stressBPid, stressCPid]

/-- `TYPE_COUNT_REPORT` -/
def typeCountReport : UInt32 := 4

/-- `TYPE_WAKEUP10` -/
def typeWakeup10 : UInt32 := 5

/-- The field `msg` of `struct num_message` -/
def number (m : Memory) (e : Nat) : UInt32 := read32 m (msgField e)

/-- The reports among the messages `l` -/
def reports (m : Memory) (l : List Nat) : List UInt32 :=
  (l.filter fun e => typeOf m e = typeCountReport).map (number m)

/-- The bytes of a string, as `str_copy` stores them at `a` -/
def textBytes (a : Nat) (text : List UInt8) : List (Nat × UInt8) :=
  text.zipIdx.map fun x => (a + x.2, x.1)

/-- Store the next byte, or go on with `op` when all of them are stored. -/
def storeOr (l : List (Nat × UInt8)) (j : Nat) (op : Op) : Op :=
  match l[j]? with
  | some (x, v) => .store x v
  | none => op

/-! ### The programs -/

/-- Where `stress_a` is: it gets a block and fills in its registration; it waits for the command, or
has received `msgRx`; it gets a block for the report `num`, fills it in, or gives the processor up after it was
sent. -/
inductive StressA
  | starting
  | registering (regCmd j : Nat)
  | awaiting
  | received (msgRx : Nat)
  | counting (num : UInt32)
  | filling (num : UInt32) (numMsg j : Nat)
  | yielding (num : UInt32)

namespace StressA

def regStores (regCmd : Nat) : List (Nat × UInt8) :=
  wordBytes (typeField regCmd) typeRegisterCmd ++ textBytes (msgField regCmd) (bytes "%Z")

def numStores (num : UInt32) (numMsg : Nat) : List (Nat × UInt8) :=
  wordBytes (typeField numMsg) typeCountReport ++ wordBytes (msgField numMsg) num

def op : StressA → Op
  | starting => .request
  | registering regCmd j => storeOr (regStores regCmd) j (.send kcdPid regCmd)
  | awaiting => .receive
  | received msgRx => .release msgRx
  | counting _ => .request
  | filling num numMsg j => storeOr (numStores num numMsg) j (.send stressBPid numMsg)
  | yielding _ => .releaseProcessor

/-- Where the process is when this was answered with `reply`; a message is looked at before it is released. -/
def next (m : Memory) : StressA → Reply → StressA
  | starting, .block (some regCmd) => registering regCmd 0
  | registering regCmd j, .done => registering regCmd (j + 1)
  | registering _ _, .code _ => awaiting
  | awaiting, .envelope (some (e, _)) => received e
  | received e, .code _ =>
    if m (msgField e) = 0x25 ∧ m (msgField e + 1) = 0x5a then counting 0 else awaiting
  | counting num, .block (some numMsg) => filling num numMsg 0
  | filling num numMsg j, .done => filling num numMsg (j + 1)
  | filling num _ _, .code _ => yielding (num + 1)
  | yielding num, .done => counting num
  | s, _ => s

/-- The report that was sent -/
def report : StressA → Reply → List UInt32
  | filling num _ _, .code c => if c = 0 then [num] else []
  | _, _ => []

end StressA

inductive StressB
  | waiting
  | received (msgRx : Nat)

namespace StressB

def op : StressB → Op
  | waiting => .receive
  | received msgRx => .send stressCPid msgRx

def next : StressB → Reply → StressB
  | waiting, .envelope (some (e, _)) => received e
  | received _, .code _ => waiting
  | s, _ => s

end StressB

/-- Where `stress_c` is: before `receive_message`; with the message `msgRx`, not yet released; at the message to
the CRT process; at the message to itself; in the hibernation loop; at the release of `hibernate`, which it
comes to with or without a hibernation; before `release_processor` -/
inductive StressC.Point
  | receiving
  | took (msgRx : Nat)
  | calling
  | printing (procC j : Nat)
  | preparing
  | filling (j : Nat)
  | asleep
  | ending (hibernated : Bool)
  | yielding
  deriving DecidableEq

/-- `stress_c` with its local queue and the pointer `hibernate` -/
structure StressC where
  point : StressC.Point
  queue : List Nat
  hibernate : Nat

namespace StressC

def procStores (procC : Nat) : List (Nat × UInt8) := textBytes (msgField procC) (bytes "Process C\x0d\x0a")

def hibStores (hibernate : Nat) : List (Nat × UInt8) := wordBytes (typeField hibernate) typeWakeup10

def op (s : StressC) : Op :=
  match s.point with
  | .receiving => .receive
  | .took msgRx => .release msgRx
  | .calling => .request
  | .printing procC j => storeOr (procStores procC) j (.send crtPid procC)
  | .preparing => .request
  | .filling j => storeOr (hibStores s.hibernate) j (.delayedSend stressCPid s.hibernate 10000)
  | .asleep => .receive
  | .ending _ => .release s.hibernate
  | .yielding => .releaseProcessor

/-- The beginning of a turn: the first message of the local queue is taken, if there is one. -/
def top (s : StressC) : StressC :=
  match s.queue with
  | [] => { s with point := .receiving }
  | e :: queue => { s with point := .took e, queue := queue }

/-- What the process does with a message that comes while it hibernates -/
def wakeOr (m : Memory) (s : StressC) (e : Nat) : StressC :=
  if typeOf m e = typeWakeup10 then { s with point := .ending true }
  else { s with queue := s.queue ++ [e] }

/-- Whether the report in the message `e` is one after which the process hibernates -/
def Tires (m : Memory) (e : Nat) : Prop :=
  typeOf m e = typeCountReport ∧ number m e % 20 = 0

instance (m : Memory) (e : Nat) : Decidable (Tires m e) := inferInstanceAs (Decidable (_ ∧ _))

/-- Where the process is when this was answered with `reply` -/
def next (m : Memory) (s : StressC) (reply : Reply) : StressC :=
  match s.point, reply with
  | .receiving, .envelope (some (e, _)) => { s with point := .took e }
  | .took e, .code _ => { s with point := if Tires m e then .calling else .ending false }
  | .calling, .block (some procC) => { s with point := .printing procC 0 }
  | .printing procC j, .done => { s with point := .printing procC (j + 1) }
  | .printing _ _, .code _ => { s with point := .preparing }
  | .preparing, .block (some x) => { s with point := .filling 0, hibernate := x }
  | .filling j, .done => { s with point := .filling (j + 1) }
  | .filling _, .code _ => { s with point := .asleep }
  | .asleep, .envelope (some (e, _)) => s.wakeOr m e
  | .ending _, .code _ => { s with point := .yielding }
  | .yielding, .done => s.top
  | _, _ => s

/-- The report that was taken up -/
def report (m : Memory) (s : StressC) (reply : Reply) : List UInt32 :=
  match s.point, reply with
  | .took e, .code _ =>
    if typeOf m e = typeCountReport then [number m e] else []
  | _, _ => []

/-- The messages that the process has received and not yet taken up -/
def messages (s : StressC) : List Nat :=
  match s.point with
  | .took e => e :: s.queue
  | _ => s.queue

end StressC

/-- The message that `stress_b` passes on -/
def StressB.messages : StressB → List Nat
  | waiting => []
  | received e => [e]

/-! ### The system -/

/-- The kernel, the three processes, the reports that `stress_a` has sent and those that `stress_c` has taken
up -/
structure Stress where
  kernel : Kernel
  a : StressA
  b : StressB
  c : StressC
  sent : List UInt32
  taken : List UInt32

/-- Nobody else sends to `stress_b` and `stress_c`. -/
def Op.SparesStress : Op → Prop
  | .send pid _ | .delayedSend pid _ _ => pid ≠ stressBPid ∧ pid ≠ stressCPid
  | _ => True

instance : (op : Op) → Decidable op.SparesStress
  | .send pid _ | .delayedSend pid _ _ =>
    inferInstanceAs (Decidable (pid ≠ stressBPid ∧ pid ≠ stressCPid))
  | .releaseProcessor | .block _ | .unblockByPid _ _ | .unblockByType _ | .setPriority _ _
  | .receive | .request | .release _ | .store _ _ | .terminate | .timer | .uart _ => .isTrue trivial

namespace Kernel

/-- What an interrupt or another process than the three may do -/
def StressFree (k : Kernel) (op : Op) : Prop := k.Outside stressPids op ∧ op.SparesStress

instance (k : Kernel) (op : Op) : Decidable (k.StressFree op) :=
  inferInstanceAs (Decidable (k.Outside stressPids op ∧ op.SparesStress))

/-- The messages in the mailbox for the process `p` -/
def mailTo (k : Kernel) (p : UInt32) : List Nat :=
  ((List.range memBlockCount).filterMap k.mailbox).filter fun e => k.rx e = p

end Kernel

namespace Stress

/-- The running process goes on, if it is one of the three, or something else is done. -/
inductive Action
  | own
  | call (op : Op)
  deriving DecidableEq

def step (s : Stress) : Action → Option Stress
  | .own =>
    if s.kernel.currentPid = stressAPid then
      (s.kernel.call s.a.op).map fun (reply, k) =>
        { s with kernel := k, a := s.a.next s.kernel.pool.memory reply, sent := s.sent ++ s.a.report reply }
    else if s.kernel.currentPid = stressBPid then
      (s.kernel.call s.b.op).map fun (reply, k) => { s with kernel := k, b := s.b.next reply }
    else if s.kernel.currentPid = stressCPid then
      (s.kernel.call s.c.op).map fun (reply, k) =>
        { s with
          kernel := k
          c := s.c.next s.kernel.pool.memory reply
          taken := s.taken ++ s.c.report s.kernel.pool.memory reply }
    else none
  | .call op =>
    if s.kernel.StressFree op then (s.kernel.call op).map fun x => { s with kernel := x.2 } else none

def Step (s : Stress) (x : Action) (t : Stress) : Prop := s.step x = some t

/-- After start-up; `hibernate` points anywhere. -/
def start (k : Kernel) (hibernate : Nat) : Stress :=
  ⟨k, .starting, .waiting, ⟨.receiving, [], hibernate⟩, [], []⟩

/-- The reports that were sent are numbered from 0 on; those that `stress_c` has taken up are the first of them,
once each, and the others are with it, with `stress_b` or in the mailbox. -/
def InOrder (s : Stress) : Prop :=
  s.sent = (List.range s.sent.length).map UInt32.ofNat ∧
    s.sent = s.taken ++ reports s.kernel.pool.memory (s.c.messages ++ (s.kernel.mailTo stressCPid ++
      (s.b.messages ++ s.kernel.mailTo stressBPid)))

/-- With its step `stress_c` does not free an envelope that is in a mailbox or in its queue. -/
def FreesUnused (s : Stress) : Prop := ∀ x k, s.kernel.currentPid = stressCPid → s.c.op = .release x →
  s.kernel.call (.release x) = some (.code 0, k) → ¬ s.kernel.InMailbox x ∧ x ∉ s.c.queue

/-- In a turn without a hibernation the block at `hibernate` is not one of `stress_c`. -/
def Forgets (s : Stress) : Prop :=
  s.kernel.currentPid = stressCPid → s.c.point = .ending false →
    ∀ b < memBlockCount, (s.kernel.pool.block b).startBlock = s.c.hibernate →
      (s.kernel.pool.block b).pid ≠ stressCPid

end Stress

end RtxKernel
