import RtxKernel.Core.Basic

/-!
# The abstract scheduler

The scheduler with its queues as lists of processes. The operations are those of
`RtxKernel.Core.Basic` with the pointer work replaced by list operations: linking behind the last
process is appending, unlinking is erasing. An operation fails only where the code would
dereference a null `running_process`.
-/

namespace RtxKernel.Spec

structure Sched where
  pid : PcbPtr → UInt32
  state : PcbPtr → ProcessState
  priority : PcbPtr → UInt32
  count : Nat
  queue : QueueName → Nat → List PcbPtr
  running : Option PcbPtr
  main : PcbPtr
  live : Finset PcbPtr

namespace Sched

variable (a : Sched)

def level (p : PcbPtr) : Nat := (a.priority p).toNat

def setQueue (q : QueueName) (i : Nat) (l : List PcbPtr) : Sched :=
  { a with queue := Function.update a.queue q (Function.update (a.queue q) i l) }

def setState (p : PcbPtr) (v : ProcessState) : Sched :=
  { a with state := Function.update a.state p v }

def setPriority (p : PcbPtr) (v : UInt32) : Sched :=
  { a with priority := Function.update a.priority p v }

def setRunning (r : Option PcbPtr) : Sched := { a with running := r }

@[simp] lemma setQueue_queue (q q' : QueueName) (i i' : Nat) (l : List PcbPtr) :
    (a.setQueue q i l).queue q' i' = if q' = q ∧ i' = i then l else a.queue q' i' := by
  simp only [setQueue, Function.update_apply]
  split_ifs <;> simp_all

@[simp] lemma setState_state (p p' : PcbPtr) (v : ProcessState) :
    (a.setState p v).state p' = if p' = p then v else a.state p' := by
  simp [setState, Function.update_apply]

@[simp] lemma setPriority_priority (p p' : PcbPtr) (v : UInt32) :
    (a.setPriority p v).priority p' = if p' = p then v else a.priority p' := by
  simp [setPriority, Function.update_apply]

section Fields

variable (p : PcbPtr) (q : QueueName) (i : Nat) (l : List PcbPtr) (v : ProcessState) (w : UInt32)
  (r : Option PcbPtr)

@[simp] lemma setQueue_pid : (a.setQueue q i l).pid = a.pid := rfl
@[simp] lemma setQueue_state : (a.setQueue q i l).state = a.state := rfl
@[simp] lemma setQueue_priority : (a.setQueue q i l).priority = a.priority := rfl
@[simp] lemma setQueue_level : (a.setQueue q i l).level = a.level := rfl
@[simp] lemma setQueue_count : (a.setQueue q i l).count = a.count := rfl
@[simp] lemma setQueue_running : (a.setQueue q i l).running = a.running := rfl
@[simp] lemma setQueue_main : (a.setQueue q i l).main = a.main := rfl
@[simp] lemma setQueue_live : (a.setQueue q i l).live = a.live := rfl

@[simp] lemma setState_pid : (a.setState p v).pid = a.pid := rfl
@[simp] lemma setState_priority : (a.setState p v).priority = a.priority := rfl
@[simp] lemma setState_level : (a.setState p v).level = a.level := rfl
@[simp] lemma setState_queue : (a.setState p v).queue = a.queue := rfl
@[simp] lemma setState_count : (a.setState p v).count = a.count := rfl
@[simp] lemma setState_running : (a.setState p v).running = a.running := rfl
@[simp] lemma setState_main : (a.setState p v).main = a.main := rfl
@[simp] lemma setState_live : (a.setState p v).live = a.live := rfl

@[simp] lemma setPriority_pid : (a.setPriority p w).pid = a.pid := rfl
@[simp] lemma setPriority_state : (a.setPriority p w).state = a.state := rfl
@[simp] lemma setPriority_queue : (a.setPriority p w).queue = a.queue := rfl
@[simp] lemma setPriority_count : (a.setPriority p w).count = a.count := rfl
@[simp] lemma setPriority_running : (a.setPriority p w).running = a.running := rfl
@[simp] lemma setPriority_main : (a.setPriority p w).main = a.main := rfl
@[simp] lemma setPriority_live : (a.setPriority p w).live = a.live := rfl

@[simp] lemma setRunning_pid : (a.setRunning r).pid = a.pid := rfl
@[simp] lemma setRunning_state : (a.setRunning r).state = a.state := rfl
@[simp] lemma setRunning_priority : (a.setRunning r).priority = a.priority := rfl
@[simp] lemma setRunning_level : (a.setRunning r).level = a.level := rfl
@[simp] lemma setRunning_queue : (a.setRunning r).queue = a.queue := rfl
@[simp] lemma setRunning_count : (a.setRunning r).count = a.count := rfl
@[simp] lemma setRunning_running : (a.setRunning r).running = r := rfl
@[simp] lemma setRunning_main : (a.setRunning r).main = a.main := rfl
@[simp] lemma setRunning_live : (a.setRunning r).live = a.live := rfl

end Fields

/-! ### The operations -/

/-- The processes in queues, in the order in which they are looked up. -/
def listed : List PcbPtr := allQueues.flatMap fun x => a.queue x.1 x.2

def find (pid : UInt32) : Option PcbPtr :=
  match a.running with
  | some r => if a.pid r = pid then some r else a.listed.find? fun p => a.pid p = pid
  | none => a.listed.find? fun p => a.pid p = pid

def currentPid : UInt32 :=
  match a.running with
  | some r => a.pid r
  | none => noPid

def remove (p : PcbPtr) : Sched :=
  if a.running = some p then a
  else a.setQueue (a.state p).queue (a.level p) ((a.queue (a.state p).queue (a.level p)).erase p)

def enqueue (q : QueueName) (p : PcbPtr) : Sched :=
  a.setQueue q (a.level p) (a.queue q (a.level p) ++ [p])

/-- The most urgent level of a queue that is not empty, with the process at its head. -/
def firstLevel (q : QueueName) : Option (Nat × PcbPtr) :=
  (List.range 5).findSome? fun i => (a.queue q i).head?.map fun p => (i, p)

def dequeue (q : QueueName) : Option PcbPtr × Sched :=
  match a.firstLevel q with
  | some (i, p) => (some p, a.setQueue q i (a.queue q i).tail)
  | none => (none, a)

def suspendRunning : Sched :=
  match a.running with
  | some r => if r ≠ a.main ∧ a.state r = .ready then a.enqueue .ready r else a
  | none => a

def dispatch : Sched :=
  let (p, a) := a.dequeue .ready
  let r := p.getD a.main
  let a := a.setRunning (some r)
  if a.state r = .new then a.setState r .ready else a

def procSwitch : Sched := a.suspendRunning.dispatch

def blockSection (pid : UInt32) (t : BlockType) : Bool × Sched :=
  match a.find pid with
  | none => (false, a)
  | some p =>
    if (a.state p).isBlocked then (false, a)
    else (a.running = some p, ((a.remove p).setState p t.state).enqueue t.queue p)

def makeReady (p : PcbPtr) : Option (Bool × Sched) :=
  match a.running with
  | some r => some (a.priority p < a.priority r, (a.setState p .ready).enqueue .ready p)
  | none => none

def unblockByPidSection (pid : UInt32) : Option (Bool × Sched) :=
  match a.find pid with
  | none => some (false, a)
  | some p => if (a.state p).isBlocked then (a.remove p).makeReady p else some (false, a)

def unblockByTypeSection (t : BlockType) : Option (Bool × Sched) :=
  match a.firstLevel t.queue with
  | none => some (false, a)
  | some (i, p) => (a.setQueue t.queue i (a.queue t.queue i).tail).makeReady p

def releaseIf (x : Bool × Sched) : Sched := if x.1 then x.2.procSwitch else x.2

def block (pid : UInt32) (t : BlockType) : Sched := releaseIf (a.blockSection pid t)

def unblockByPid (pid : UInt32) (allowRelease : Bool) : Option Sched :=
  (a.unblockByPidSection pid).map fun x => releaseIf (x.1 && allowRelease, x.2)

def unblockByType (t : BlockType) : Option Sched := (a.unblockByTypeSection t).map releaseIf

def setPrioritySection (pid priority : Int32) : Option (UInt32 × Bool × Sched) :=
  if pid ≤ 0 then some (2, false, a)
  else if priority < 0 ∨ priority > 3 then some (3, false, a)
  else
    match a.find pid.toUInt32 with
    | none => some (4, false, a)
    | some p =>
      if priority.toUInt32 = a.priority p then some (0, false, a)
      else
        match a.running with
        | none => none
        | some r =>
          if r = p then
            some (0, priority.toUInt32 > a.priority p, a.setPriority p priority.toUInt32)
          else
            some (0, priority.toUInt32 < a.priority r && (a.state p).queue = .ready,
              ((a.remove p).setPriority p priority.toUInt32).enqueue (a.state p).queue p)

def setProcessPriority (pid priority : Int32) : Option (UInt32 × Sched) :=
  (a.setPrioritySection pid priority).map fun x => (x.1, releaseIf x.2)

def endProcess (p : PcbPtr) : Sched :=
  { (a.remove p).setRunning none with live := a.live.erase p }

def terminate : Option Sched := a.running.map fun r => (a.endProcess r).procSwitch

end Sched

end RtxKernel.Spec
