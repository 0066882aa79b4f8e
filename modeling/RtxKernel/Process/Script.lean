import RtxKernel.Lib.Program
import RtxKernel.Process.Message
import RtxKernel.Kernel.Outside
import Mathlib.Data.Fintype.Basic

/-!
# Processes as programs

The code of a process between two calls of `receive_message` is a `Program` whose calls are the calls of the
kernel, the loads and stores of single bytes, `get_time`, and a write to the serial port. Some of the processes run
such code, among others and interrupts that do what they like with their own blocks (`Scripted.step`).

What the process itself can know is a `View`: the blocks that it holds, with their contents, and what it has asked
of others. The contract of the calls over views (`contract`) says nothing about other processes, so that a turn of
a process is reasoned about as a sequential program.
-/

namespace RtxKernel

/-- What the code of a process asks for. A call of `fail` stands for a loop that does not end. -/
inductive Call
  | load (x : Nat)
  | store (x : Nat) (v : UInt8)
  | getTime
  | request
  | send (processId : UInt32) (envelope : Nat)
  | delayedSend (processId : UInt32) (envelope : Nat) (delay : UInt32)
  | release (envelope : Nat)
  | setPriority (pid priority : Int32)
  | write (c : UInt8)
  | fail

namespace Call

abbrev Result : Call → Type
  | .load _ => UInt8
  | .store _ _ | .write _ => Unit
  | .request => Nat
  | .fail => Empty
  | .getTime | .send _ _ | .delayedSend _ _ _ | .release _ | .setPriority _ _ => UInt32

/-- The operation of the kernel, unless the call only reads -/
def op : Call → Option Op
  | .store x v => some (.store x v)
  | .request => some .request
  | .send pid e => some (.send pid e)
  | .delayedSend pid e delay => some (.delayedSend pid e delay)
  | .release e => some (.release e)
  | .setPriority pid priority => some (.setPriority pid priority)
  | .load _ | .getTime | .write _ | .fail => none

/-- What the operation returns to the code. A request that has blocked the process is made again. -/
def result : (c : Call) → Reply → Option c.Result
  | .store _ _, .done => some ()
  | .request, .block x => x
  | .send _ _, .code c | .delayedSend _ _ _, .code c | .release _, .code c | .setPriority _ _, .code c => some c
  | _, _ => none

/-- What is read without the kernel -/
def read (k : Kernel) : (c : Call) → Option c.Result
  | .load x => some (k.pool.memory x)
  | .getTime => some k.ticks
  | .write _ => some ()
  | _ => none

end Call

abbrev Script := Program Call Call.Result

/-- What a process has asked of others, what it has written to the port, and the times that it was told -/
inductive Deed
  | sent (call : Send)
  | delayed (call : Send) (delay : UInt32)
  | setPriority (pid priority : Int32) (code : UInt32)
  | time (now : UInt32)
  | written (c : UInt8)

/-- What a call adds to the deeds, when the memory is `m` before it -/
def Call.deed (m : Memory) : (c : Call) → c.Result → List Deed
  | .send pid e, _ => [.sent ⟨pid, messageAt m e⟩]
  | .delayedSend pid e delay, _ => [.delayed ⟨pid, messageAt m e⟩ delay]
  | .setPriority pid priority, code => [.setPriority pid priority code]
  | .getTime, now => [.time now]
  | .write c, _ => [.written c]
  | .load _, _ | .store _ _, _ | .request, _ | .release _, _ | .fail, _ => []

/-! ### What a process knows -/

/-- The blocks that the process holds, the memory as far as they go, and what it has done -/
structure View where
  held : List Nat
  memory : Memory
  deeds : List Deed

namespace View

/-- The byte at `x` is in a block that is held. -/
def Owns (v : View) (x : Nat) : Prop := ∃ e ∈ v.held, e ≤ x ∧ x < e + memBlockSize

def store (v : View) (x : Nat) (b : UInt8) : View := { v with memory := Function.update v.memory x b }

def grant (v : View) (e : Nat) : View :=
  { v with held := e :: v.held, memory := fill v.memory e memBlockSize 0 }

/-- The block is somebody else's now. -/
def drop (v : View) (e : Nat) : View := { v with held := v.held.filter (· ≠ e) }

def note (v : View) (l : List Deed) : View := { v with deeds := v.deeds ++ l }

end View

/-- The calls of a process that sends only what is `allowed`. It reads and writes the blocks that it holds, and gives
away no others. A block that is granted is zero and none of those that it holds. -/
def contract (allowed : Deed → Prop) : Contract Call Call.Result View where
  pre v c := match c with
    | .load x | .store x _ => v.Owns x
    | .send pid e => e ∈ v.held ∧ allowed (.sent ⟨pid, messageAt v.memory e⟩)
    | .delayedSend pid e delay => e ∈ v.held ∧ allowed (.delayed ⟨pid, messageAt v.memory e⟩ delay)
    | .release e => e ∈ v.held
    | .fail => False
    | .getTime | .request | .setPriority _ _ | .write _ => True
  post v c x w := match c, x with
    | .load y, x => x = v.memory y ∧ w = v
    | .store y b, _ => w = v.store y b
    | .request, x => (∀ e ∈ v.held, e + memBlockSize ≤ x ∨ x + memBlockSize ≤ e) ∧ w = v.grant x
    | .send pid e, x => w = (v.note (Call.deed v.memory (.send pid e) x)).drop e
    | .delayedSend pid e delay, x => w = (v.note (Call.deed v.memory (.delayedSend pid e delay) x)).drop e
    | .release e, _ => w = v.drop e
    | .getTime, x => w = v.note [.time x]
    | .setPriority pid priority, x => w = v.note [.setPriority pid priority x]
    | .write c, _ => w = v.note [.written c]

/-! ### Running processes -/

/-- A process: what it does before its first `receive_message`, and with a message in the envelope that it has
received. The values of type `σ` are its variables from one `receive_message` to the next. -/
structure Process (σ : Type) where
  pid : UInt32
  start : Script σ
  turn : σ → Nat → Script σ

namespace Kernel

/-- The envelopes that come into the mailbox with an operation -/
def comesIn (k : Kernel) : Op → Reply → List Nat
  | .uart _, .sent (some 0) => k.nextBlock.toList
  | op, reply => op.arrivals reply

end Kernel

/-- The characters that the UART interrupt has passed on -/
def Op.passedOn : Op → Reply → List UInt8
  | .uart c, .sent (some 0) => [c]
  | _, _ => []

section Scripted

variable {ι : Type} {σ : ι → Type}

/-- The kernel, the rest of the code of each of the processes `ι`, the messages that have come into the mailbox and
those that each process has received, its deeds, and the characters that were typed and not lost -/
structure Scripted (σ : ι → Type) where
  kernel : Kernel
  code : ∀ i, Script (σ i)
  mail : List IoMessage
  received : ι → List IoMessage
  deeds : ι → List Deed
  typed : List UInt8

namespace Scripted

variable [Fintype ι] [DecidableEq ι] (p : ∀ i, Process (σ i))

/-- One of the processes goes on, or something else is done. -/
inductive Action (ι : Type)
  | own (i : ι)
  | call (op : Op)

/-- The messages that have come into the mailbox for the process `pid` -/
def arrived (s : Scripted σ) (pid : UInt32) : List IoMessage := s.mail.filter fun m => m.rx = pid

/-- An interrupt or another process: it uses envelopes as it should, and only its own blocks. -/
def ByOthers (s : Scripted σ) (op : Op) : Prop :=
  (op.isInterrupt = true ∨ ∀ i, s.kernel.currentPid ≠ (p i).pid) ∧ s.kernel.Proper op ∧ s.kernel.UsesOwn op

instance (s : Scripted σ) (op : Op) : Decidable (s.ByOthers p op) :=
  inferInstanceAs (Decidable ((op.isInterrupt = true ∨ ∀ i, s.kernel.currentPid ≠ (p i).pid) ∧
    s.kernel.Proper op ∧ s.kernel.UsesOwn op))

/-- An operation was answered with `reply`, and the kernel is `k` now: the messages that have come in -/
def after (s : Scripted σ) (op : Op) (reply : Reply) (k : Kernel) : Scripted σ :=
  { s with
    kernel := k
    mail := s.mail ++ (s.kernel.comesIn op reply).map (messageAt k.pool.memory)
    typed := s.typed ++ op.passedOn reply }

def perform (s : Scripted σ) (op : Op) : Option (Reply × Scripted σ) :=
  (s.kernel.call op).map fun (reply, k) => (reply, s.after op reply k)

/-- `receive_message`. A call that has blocked the process is made again. -/
def receive (s : Scripted σ) (i : ι) (q : σ i) : Option (Scripted σ) :=
  (s.perform .receive).map fun
    | (.envelope (some (e, _)), t) =>
      { t with
        code := Function.update t.code i ((p i).turn q e)
        received := Function.update t.received i (t.received i ++ [messageAt t.kernel.pool.memory e]) }
    | (_, t) => t

/-- The process has done `l` and goes on with `code`. -/
def goOn (s : Scripted σ) (i : ι) (l : List Deed) (code : Script (σ i)) : Scripted σ :=
  { s with
    code := Function.update s.code i code
    deeds := Function.update s.deeds i (s.deeds i ++ l) }

/-- The next call of the code -/
def proceed (s : Scripted σ) (i : ι) (c : Call) (next : c.Result → Script (σ i)) : Option (Scripted σ) :=
  match c.op with
  | some op => (s.perform op).map fun (reply, t) =>
      match c.result reply with
      | some x => t.goOn i (c.deed s.kernel.pool.memory x) (next x)
      | none => t
  | none => (c.read s.kernel).map fun x => s.goOn i (c.deed s.kernel.pool.memory x) (next x)

def step (s : Scripted σ) : Action ι → Option (Scripted σ)
  | .own i =>
    if s.kernel.currentPid = (p i).pid then
      match s.code i with
      | .done q => s.receive p i q
      | .step c next => s.proceed i c next
    else none
  | .call op => if s.ByOthers p op then (s.perform op).map Prod.snd else none

def Step (s : Scripted σ) (x : Action ι) (t : Scripted σ) : Prop := s.step p x = some t

/-- After start-up no process has made a call. -/
def start (k : Kernel) : Scripted σ := ⟨k, fun i => (p i).start, [], fun _ => [], fun _ => [], []⟩

end Scripted

end Scripted

end RtxKernel
