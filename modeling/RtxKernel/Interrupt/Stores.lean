import RtxKernel.Core.Operations

/-!
# The critical sections of `core.c`, store by store

The sections of `block_process`, `unblock_process_by_pid` and `unblock_process_by_type` begin with TRAP #1,
whose RTE puts the mask of the caller back, so that interrupts come between their stores. Here the sections, that
of `set_process_priority_handler`, and `proc_switch_handler` are cut at the stores to the PCBs, the queues and
`running_process`: what a section has found is a `Plan`, and what is left of it a list of pieces. A piece reads when it
is its turn. Without anybody in between the pieces of a plan make up the function of `Core.Basic`
(`blockSection_eq`, `unblockByPidSection_eq`, `unblockByTypeSection_eq`, `setPrioritySection_eq`,
`procSwitchHandler_eq`).
-/

namespace RtxKernel

/-- A piece of a critical section. Behind the first store of `remove_process`, `enqueue_process` and
`dequeue_process` comes `process->next = NULL`. -/
inductive Piece
  /-- `remove_process(p)` -/
  | remove (p : PcbPtr)
  /-- `enqueue_process(q, p)` -/
  | enqueue (q : QueueName) (p : PcbPtr)
  /-- `process = queue[i]; queue[i] = process->next; process->next = NULL` -/
  | take (q : QueueName) (i : Nat) (p : PcbPtr)
  /-- `p->state = v` -/
  | setState (p : PcbPtr) (v : ProcessState)
  /-- `p->priority = v` -/
  | setPriority (p : PcbPtr) (v : UInt32)
  /-- from `running_process = dequeue_process(ready_queue)` to the start of a process that is new -/
  | dispatch
  /-- `running_process = p` -/
  | run (p : Option PcbPtr)
  /-- `if (running_process->state == new) running_process->state = ready` -/
  | start
  deriving DecidableEq

/-- The test at the end of a section, whether the processor is released -/
inductive Test
  | const (b : Bool)
  /-- `process == running_process` -/
  | runs (p : PcbPtr)
  /-- `process->priority < running_process->priority` -/
  | urgent (p : PcbPtr)
  /-- `priority < running_process->priority && queue == ready_queue` -/
  | below (v : UInt32) (inReady : Bool)
  deriving DecidableEq

/-- What is done behind the look-ups of a section -/
structure Plan where
  pieces : List Piece
  test : Test

namespace Scheduler

variable (s : Scheduler)

def clearNext : Option PcbPtr → Scheduler
  | some p => s.setNext p none
  | none => s

def startRunning : Scheduler :=
  match s.runningProcess with
  | some p => if (s.pcb p).state = .new then s.setState p .ready else s
  | none => s

/-- The first store of a piece, the process whose link is cleared behind it, and what is left of the piece. -/
def first : Piece → Option (Scheduler × Option PcbPtr × List Piece)
  | .remove p =>
    if s.runningProcess = some p then some (s, none, [])
    else
      let q := (s.pcb p).state.queue
      if s.queue q (s.level p) = some p then some (s.setHead q (s.level p) (s.next p), some p, [])
      else do
        match ← find s.next (fun c => s.next c = some p) s.pcbCount (s.queue q (s.level p)) with
        | some c => return (s.setNext c (s.next p), some p, [])
        | none => return (s, none, [])
  | .enqueue q p =>
    if s.queue q (s.level p) = none then some (s.setHead q (s.level p) (some p), some p, [])
    else do
      match ← find s.next (fun c => (s.next c).isNone) s.pcbCount (s.queue q (s.level p)) with
      | some c => return (s.setNext c (some p), some p, [])
      | none => none
  | .take q i p => some (s.setHead q i (s.next p), some p, [])
  | .setState p v => some (s.setState p v, none, [])
  | .setPriority p v => some (s.setPriority p v, none, [])
  | .dispatch =>
    match s.firstLevel .ready with
    | some (i, p) => some (s.setHead .ready i (s.next p), some p, [.run (some p), .start])
    | none => some (s, none, [.run none, .run (some s.mainProcess), .start])
  | .run p => some ({ s with runningProcess := p }, none, [])
  | .start => some (s.startRunning, none, [])

/-- A piece, from its first store to its last -/
def whole : Piece → Option Scheduler
  | .remove p => s.removeProcess p
  | .enqueue q p => s.enqueueProcess q p
  | .take q i p => some ((s.setHead q i (s.next p)).setNext p none)
  | .setState p v => some (s.setState p v)
  | .setPriority p v => some (s.setPriority p v)
  | .dispatch => some s.dispatch
  | .run p => some { s with runningProcess := p }
  | .start => some s.startRunning

def performAll (l : List Piece) : Option Scheduler := l.foldlM whole s

/-- `running_process->priority`. Through the null pointer the code reads what is there, `null`. -/
def runningPriority (null : UInt32) : UInt32 :=
  match s.runningProcess with
  | some r => (s.pcb r).priority
  | none => null

/-- The outcome of a test -/
def passes (null : UInt32) : Test → Bool
  | .const b => b
  | .runs p => s.runningProcess = some p
  | .urgent p => (s.pcb p).priority < s.runningPriority null
  | .below v inReady => v < s.runningPriority null && inReady

/-- The outcome of a test, unless it dereferences the null pointer -/
def outcome : Test → Option Bool
  | .const b => some b
  | .runs p => some (s.runningProcess = some p)
  | .urgent p => s.runningProcess.map fun r => (s.pcb p).priority < (s.pcb r).priority
  | .below v inReady => s.runningProcess.map fun r => v < (s.pcb r).priority && inReady

/-- A section without anybody in between, from its look-ups to the test -/
def carryOut (w : Plan) : Option (Bool × Scheduler) := do
  let s ← s.performAll w.pieces
  return (← s.outcome w.test, s)

/-! ### The look-ups -/

/-- `block_process`, from TRAP #1 to its first store -/
def blockPlan (pid : UInt32) (t : BlockType) : Option Plan := do
  match ← s.getProcessByPid pid with
  | none => return ⟨[], .const false⟩
  | some p =>
    if (s.pcb p).state.isBlocked then return ⟨[], .const false⟩
    else return ⟨[.remove p, .setState p t.state, .enqueue t.queue p], .runs p⟩

/-- `unblock_process_by_pid`, from TRAP #1 to its first store -/
def unblockByPidPlan (pid : UInt32) : Option Plan := do
  match ← s.getProcessByPid pid with
  | none => return ⟨[], .const false⟩
  | some p =>
    if (s.pcb p).state.isBlocked then return ⟨[.remove p, .setState p .ready, .enqueue .ready p], .urgent p⟩
    else return ⟨[], .const false⟩

/-- `unblock_process_by_type`, from TRAP #1 to its first store -/
def unblockByTypePlan (t : BlockType) : Plan :=
  match s.firstLevel t.queue with
  | none => ⟨[], .const false⟩
  | some (i, p) => ⟨[.take t.queue i p, .setState p .ready, .enqueue .ready p], .urgent p⟩

/-- `set_process_priority_handler`, from its entry to its first store -/
def setPriorityPlan (pid priority : Int32) : Option Plan := do
  if pid ≤ 0 then return ⟨[], .const false⟩
  if priority < 0 ∨ priority > 3 then return ⟨[], .const false⟩
  match ← s.getProcessByPid pid.toUInt32 with
  | none => return ⟨[], .const false⟩
  | some p =>
    let oldPriority := (s.pcb p).priority
    if priority.toUInt32 = oldPriority then return ⟨[], .const false⟩
    else if s.runningProcess ≠ some p then
      let q := (s.pcb p).state.queue
      return ⟨[.remove p, .setPriority p priority.toUInt32, .enqueue q p], .below priority.toUInt32 (q = .ready)⟩
    else return ⟨[.setPriority p priority.toUInt32], .const (priority.toUInt32 > oldPriority)⟩

/-- `proc_switch_handler`, which files the process that leaves the CPU if it is ready -/
def switchPieces : List Piece :=
  match s.runningProcess with
  | some r => if r ≠ s.mainProcess ∧ (s.pcb r).state = .ready then [.enqueue .ready r, .dispatch] else [.dispatch]
  | none => [.dispatch]

/-! ### The pieces together -/

variable {s} {s' : Scheduler} {p r : PcbPtr} {l l' : List Piece} {x : Piece} {null : UInt32}

@[simp] lemma performAll_nil : s.performAll [] = some s := rfl

@[simp] lemma performAll_cons : s.performAll (x :: l) = (s.whole x).bind fun s' => s'.performAll l := rfl

lemma performAll_append : s.performAll (l ++ l') = (s.performAll l).bind fun s' => s'.performAll l' :=
  List.foldlM_append

/-- The stores of a piece, one after another -/
lemma whole_eq : s.whole x = (s.first x).bind fun y => (y.1.clearNext y.2.1).performAll y.2.2 := by
  cases x with
  | remove p =>
    rw [whole, first, removeProcess]
    by_cases hrun : s.runningProcess = some p
    · rw [if_pos hrun, if_pos hrun]
      rfl
    rw [if_neg hrun, if_neg hrun]
    dsimp only
    split_ifs
    · rfl
    · cases find s.next (fun c => s.next c = some p) s.pcbCount (s.queue (s.pcb p).state.queue (s.level p)) with
      | none => rfl
      | some o => cases o <;> rfl
  | enqueue q p =>
    rw [whole, first, enqueueProcess]
    split_ifs
    · rfl
    · cases find s.next (fun c => (s.next c).isNone) s.pcbCount (s.queue q (s.level p)) with
      | none => rfl
      | some o => cases o <;> rfl
  | dispatch =>
    rw [whole, first, dispatch, dequeueProcess]
    cases s.firstLevel .ready <;> rfl
  | take | setState | setPriority | run | start => rfl

/-- After the first store of a piece the rest of the section is left. -/
lemma performAll_first {y : Scheduler × Option PcbPtr × List Piece} (h : s.first x = some y) :
    (y.1.clearNext y.2.1).performAll (y.2.2 ++ l) = s.performAll (x :: l) := by
  rw [performAll_cons, whole_eq, h, performAll_append]
  rfl

/-- A piece that is one store, and the link that is cleared behind it -/
lemma whole_of_first {y : Scheduler} (hy : s.first x = some (y, some p, [])) (h : s.whole x = some s') :
    y.setNext p none = s' := by
  rw [whole_eq, hy] at h
  exact Option.some.inj h

lemma passes_of_outcome {t : Test} {b : Bool} (h : s.outcome t = some b) (null : UInt32) : s.passes null t = b := by
  cases t with
  | const | runs => exact Option.some.inj h
  | urgent | below =>
    obtain ⟨r, hr, rfl⟩ := Option.map_eq_some_iff.mp h
    rw [passes, runningPriority, hr]

lemma exists_outcome (s : Scheduler) (h : s.runningProcess = some r) (t : Test) : ∃ b, s.outcome t = some b := by
  cases t with
  | const | runs => exact ⟨_, rfl⟩
  | urgent | below =>
    rw [outcome, h]
    exact ⟨_, rfl⟩

/-! ### The functions of `Core.Basic` -/

variable {pid : UInt32} {t : BlockType}

theorem blockSection_eq : s.blockSection pid t = (s.blockPlan pid t).bind s.carryOut := by
  rw [blockSection, blockPlan]
  cases s.getProcessByPid pid with
  | none => rfl
  | some o =>
    cases o with
    | none => rfl
    | some p =>
      simp only [Option.bind_eq_bind, Option.bind_some]
      split_ifs
      · rfl
      · simp [carryOut, whole, outcome, Option.bind_assoc]

/-- `makeReady` of a process that was taken out of its queue -/
lemma makeReady_eq {p : PcbPtr} : s.makeReady p = s.carryOut ⟨[.setState p .ready, .enqueue .ready p], .urgent p⟩ := by
  rw [makeReady, carryOut]
  simp only [performAll_cons, whole, Option.bind_some, performAll_nil, Option.bind_eq_bind]
  cases (s.setState p .ready).enqueueProcess .ready p with
  | none => rfl
  | some s' =>
    simp only [Option.bind_some, outcome]
    cases s'.runningProcess <;> rfl

lemma carryOut_cons {test : Test} : s.carryOut ⟨x :: l, test⟩ = (s.whole x).bind fun s' => s'.carryOut ⟨l, test⟩ := by
  rw [carryOut, performAll_cons]
  cases s.whole x <;> rfl

theorem unblockByPidSection_eq : s.unblockByPidSection pid = (s.unblockByPidPlan pid).bind s.carryOut := by
  rw [unblockByPidSection, unblockByPidPlan]
  cases s.getProcessByPid pid with
  | none => rfl
  | some o =>
    cases o with
    | none => rfl
    | some p =>
      simp only [Option.bind_eq_bind, Option.bind_some]
      split_ifs
      · simp only [makeReady_eq, Option.pure_def, Option.bind_some, carryOut_cons (x := .remove p), whole]
      · rfl

theorem unblockByTypeSection_eq : s.unblockByTypeSection t = s.carryOut (s.unblockByTypePlan t) := by
  rw [unblockByTypeSection, unblockByTypePlan]
  cases s.firstLevel t.queue with
  | none => rfl
  | some x => exact makeReady_eq

theorem setPrioritySection_eq {pid priority : Int32} :
    (s.setPrioritySection pid priority).map Prod.snd = (s.setPriorityPlan pid priority).bind s.carryOut := by
  rw [setPrioritySection, setPriorityPlan]
  split_ifs
  · rfl
  · rfl
  · cases s.getProcessByPid pid.toUInt32 with
    | none => rfl
    | some o =>
      cases o with
      | none => rfl
      | some p =>
        simp only [Option.bind_eq_bind, Option.bind_some]
        split_ifs
        · rfl
        · simp only [Option.pure_def, Option.bind_some, carryOut, performAll_cons, whole, performAll_nil,
            Option.bind_eq_bind]
          cases hrem : s.removeProcess p with
          | none => rfl
          | some s₁ =>
            have hstate : ((s₁.setPriority p priority.toUInt32).pcb p).state = (s.pcb p).state := by
              rw [← congrArg Pcb.state ((sameData_removeProcess hrem).pcb p)]
              simp [setPriority, setPcb]
            simp only [Option.bind_some, hstate]
            cases (s₁.setPriority p priority.toUInt32).enqueueProcess (s.pcb p).state.queue p with
            | none => rfl
            | some s₂ =>
              simp only [Option.bind_some, outcome]
              cases s₂.runningProcess <;> rfl
        · rfl

theorem procSwitchHandler_eq : s.procSwitchHandler = s.performAll s.switchPieces := by
  rw [procSwitchHandler, suspendRunning, switchPieces]
  cases s.runningProcess with
  | none => rfl
  | some r =>
    dsimp only
    split_ifs <;> rfl

end Scheduler

end RtxKernel
