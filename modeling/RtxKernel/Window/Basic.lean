import RtxKernel.Kernel.Wake

/-!
# Handlers that look first and block later

`receive_message_handler` searches the mailbox and then calls `block_process`;
`request_memory_block_handler` tests `availableBlocks` and then calls `block_process`. Interrupts are
enabled between the two steps, so that a timer tick or the UART can get in there and another process
can be switched to. Here these steps are moves of their own, and the other operations, which still run
from entry to return, come between them in any order.
-/

namespace RtxKernel

/-- How far a process is in a handler that may block it. -/
inductive Point
  /-- In no such handler. -/
  | user
  /-- `receive_message_handler` has found no message and is to call `block_process`. -/
  | scanned
  /-- `request_memory_block_handler` has found no block and is to call `block_process`. -/
  | tested
  /-- `request_memory_block_handler` has called `block_process` and is to test again. -/
  | waiting
  deriving DecidableEq

/-- The operations that do not block the caller are one move, whole; `block_process` is called by the two
handlers only. -/
inductive Move
  | whole (op : Op)
  | scan
  | sleepMsg
  | test
  | sleepMem
  deriving DecidableEq

def Move.isInterrupt : Move → Bool
  | .whole op => op.isInterrupt
  | _ => false

structure Machine where
  kernel : Kernel
  point : PcbPtr → Point

namespace Machine

/-- Where the running process is. -/
def here (m : Machine) : Option Point := m.kernel.sched.runningProcess.map m.point

/-- The running process goes on to `p`, with the kernel `k`. -/
def goto (m : Machine) (p : Point) (k : Kernel) : Option Machine :=
  m.kernel.sched.runningProcess.map fun r => ⟨k, Function.update m.point r p⟩

def step (m : Machine) : Move → Option Machine
  | .whole op => do
    if op.isWhole ∧ (op.isInterrupt ∨ m.here = some .user) then
      let (_, k) ← m.kernel.call op
      return { m with kernel := k }
    else none
  | .scan =>
    if m.here = some .user then
      match m.kernel.receiveScan with
      | (some _, k) => m.goto .user k
      | (none, k) => m.goto .scanned k
    else none
  | .sleepMsg => do
    if m.here = some .scanned then
      m.goto .user (m.kernel.withSched (← m.kernel.sched.blockProcess m.kernel.currentPid .msg))
    else none
  | .test => do
    if m.here = some .user ∨ m.here = some .waiting then
      if m.kernel.pool.areBlocksAvailable then
        let (_, pool) ← m.kernel.pool.takeBlock m.kernel.currentPid
        m.goto .user { m.kernel with pool := pool }
      else m.goto .tested m.kernel
    else none
  | .sleepMem => do
    if m.here = some .tested then
      m.goto .waiting (m.kernel.withSched (← m.kernel.sched.blockProcess m.kernel.currentPid .mem))
    else none

def start (k : Kernel) : Machine := ⟨k, fun _ => .user⟩

/-- A move that comes back, is no call of the NULL process, and is allowed. -/
def StepIf (allowed : Machine → Move → Prop) (m : Machine) (v : Move) (m' : Machine) : Prop :=
  (v.isInterrupt = false → m.kernel.currentPid ≠ 0) ∧ allowed m v ∧ m.step v = some m'

section Runs

variable (allowed : Machine → Move → Prop) [∀ m v, Decidable (allowed m v)]

/-- A move that is allowed, and no call of the NULL process. -/
def tryMove (m : Machine) (v : Move) : Option Machine :=
  if (v.isInterrupt = false → m.kernel.currentPid ≠ 0) ∧ allowed m v then m.step v else none

variable {allowed} in
lemma step_of_tryMove {m m' : Machine} {v : Move} (h : m.tryMove allowed v = some m') :
    m.StepIf allowed v m' := by
  rw [tryMove] at h
  split_ifs at h with hv
  exact ⟨hv.1, hv.2, h⟩

/-- A run that starts with start-up is obtained by evaluating its moves. -/
lemma exists_run_of_boot (priority : Fin 6 → UInt8) (base : Nat) (vs : List Move)
    (check : Machine → Bool)
    (h : ((boot priority base).any fun k =>
      (vs.foldlM (tryMove allowed) (start k)).any check) = true) :
    ∃ k₀ m, boot priority base = some k₀ ∧ Run (StepIf allowed) (start k₀) vs m ∧
      check m = true := by
  obtain ⟨k₀, hk₀, h⟩ := (Option.any_eq_true _ _).mp h
  obtain ⟨m, hrun, hc⟩ := Run.exists_of_check (fun _ _ _ => step_of_tryMove) h
  exact ⟨k₀, m, hk₀, hrun, hc⟩

end Runs

/-- What a move does to the abstract kernel `a` in which `r` runs, and to the points. -/
inductive Moved (a : Spec.Kernel) (r : PcbPtr) (point : PcbPtr → Point) :
    Move → Spec.Kernel → (PcbPtr → Point) → Prop
  | whole {op : Op} {reply : Reply} {b : Spec.Kernel} (hop : op.isWhole = true)
      (hat : op.isInterrupt = true ∨ point r = .user) (hb : a.call op = some (reply, b)) :
      Moved a r point (.whole op) b point
  | found {i : Nat} (hat : point r = .user) :
      Moved a r point .scan { a with mailbox := a.mailbox.eraseIdx i }
        (Function.update point r .user)
  | scanned (hat : point r = .user) (hnone : ∀ e ∈ a.mailbox, a.rx e ≠ a.sched.pid r) :
      Moved a r point .scan a (Function.update point r .scanned)
  | sleptMsg (hat : point r = .scanned) :
      Moved a r point .sleepMsg (a.withSched (a.sched.block a.sched.currentPid .msg))
        (Function.update point r .user)
  | taken {x : Nat} {p : Spec.Pool} (hat : point r = .user ∨ point r = .waiting)
      (hp : a.pool.take a.sched.currentPid = some (x, p)) :
      Moved a r point .test (a.withPool p) (Function.update point r .user)
  | tested (hat : point r = .user ∨ point r = .waiting) (hnone : a.pool.available = []) :
      Moved a r point .test a (Function.update point r .tested)
  | sleptMem (hat : point r = .tested) :
      Moved a r point .sleepMem (a.withSched (a.sched.block a.sched.currentPid .mem))
        (Function.update point r .waiting)

section Steps

variable {base : Nat} {a : Spec.Kernel} {r : PcbPtr} {m m' : Machine} {v : Move} {p : Point}

lemma here_eq (h : Sound base m.kernel a r) : m.here = some (m.point r) := by
  rw [here, h.rep.sched.running, h.ok.sched.running]
  rfl

lemma goto_eq (h : Sound base m.kernel a r) (p : Point) (k : Kernel) :
    m.goto p k = some ⟨k, Function.update m.point r p⟩ := by
  rw [goto, h.rep.sched.running, h.ok.sched.running]
  rfl

/-- A move of the code, and what it does in the abstract kernel. -/
theorem moved (h : Sound base m.kernel a r) (hz : v.isInterrupt = false → m.kernel.currentPid ≠ 0)
    (hs : m.step v = some m') :
    ∃ b r', Sound base m'.kernel b r' ∧ Moved a r m.point v b m'.point := by
  cases v with
  | whole op =>
    rw [step] at hs
    split_ifs at hs with hop
    obtain ⟨⟨reply, k⟩, hcall, hs⟩ := Option.bind_eq_some_iff.mp hs
    obtain rfl := Option.some.inj hs
    obtain ⟨b, r', hb, hsound, -, -⟩ := h.call hz hcall
    refine ⟨b, r', hsound, .whole hop.1 ?_ hb⟩
    rcases hop.2 with hint | hat
    · exact .inl hint
    · rw [here_eq h] at hat
      exact .inr (Option.some.inj hat)
  | scan =>
    rw [step] at hs
    split_ifs at hs with hat
    rw [here_eq h] at hat
    obtain ⟨hfst, hrep⟩ := h.rep.receiveScan h.ok
    generalize m.kernel.receiveScan = x at hs hfst hrep
    obtain ⟨o, k⟩ := x
    rcases Spec.Kernel.receiveScan_cases a with ⟨hnone, he⟩ | ⟨i, e, -, -, -, he⟩
    · rw [he] at hfst hrep
      obtain rfl : o = none := hfst
      dsimp only at hs
      rw [goto_eq h] at hs
      obtain rfl := Option.some.inj hs
      rw [h.ok.currentPid] at hnone
      exact ⟨a, r, ⟨hrep, h.ok⟩, .scanned (Option.some.inj hat) hnone⟩
    · rw [he] at hfst hrep
      obtain rfl : o = some e := hfst
      dsimp only at hs
      rw [goto_eq h] at hs
      obtain rfl := Option.some.inj hs
      have hok : ({ a with mailbox := a.mailbox.eraseIdx i } : Spec.Kernel).Ok base r :=
        ⟨h.ok.sched, h.ok.pool, (List.length_eraseIdx_le ..).trans h.ok.mailbox_le, h.ok.delayed_le⟩
      exact ⟨_, r, ⟨hrep, hok⟩, .found (Option.some.inj hat)⟩
  | sleepMsg =>
    rw [step] at hs
    split_ifs at hs with hat
    rw [here_eq h] at hat
    obtain ⟨s, hblock, hs⟩ := Option.bind_eq_some_iff.mp hs
    rw [goto_eq h] at hs
    obtain rfl := Option.some.inj hs
    have hcall : m.kernel.call (.block .msg) = some (.done, m.kernel.withSched s) := by
      rw [Kernel.call, hblock]
      rfl
    obtain ⟨b, r', hb, hsound, -, -⟩ := h.call (fun _ => hz rfl) hcall
    obtain ⟨-, rfl⟩ := Prod.mk.inj (Option.some.inj hb)
    exact ⟨_, r', hsound, .sleptMsg (Option.some.inj hat)⟩
  | test =>
    rw [step] at hs
    split_ifs at hs with hat hav
    · rw [here_eq h] at hat
      obtain ⟨⟨x, p⟩, htake, hs⟩ := Option.bind_eq_some_iff.mp hs
      dsimp only at hs
      rw [goto_eq h] at hs
      obtain rfl := Option.some.inj hs
      have hcall : m.kernel.call .request
          = some (.block (some x), { m.kernel with pool := p }) := by
        rw [Kernel.call, Kernel.requestMemoryBlock, if_pos hav, htake]
        rfl
      obtain ⟨b, r', hb, hsound, -, -⟩ := h.call (fun _ => hz rfl) hcall
      obtain ⟨hx, rfl⟩ := Prod.mk.inj (Option.some.inj hb)
      rw [Spec.Kernel.requestMemoryBlock] at hx hsound
      cases ht : a.pool.take a.sched.currentPid with
      | none =>
        rw [ht] at hx
        cases hx
      | some y =>
        rw [ht] at hsound
        exact ⟨_, r', hsound, .taken (by simpa using hat) ht⟩
    · rw [here_eq h] at hat
      rw [goto_eq h] at hs
      obtain rfl := Option.some.inj hs
      rw [h.rep.pool.areBlocksAvailable] at hav
      exact ⟨a, r, h, .tested (by simpa using hat) (by simpa using hav)⟩
  | sleepMem =>
    rw [step] at hs
    split_ifs at hs with hat
    rw [here_eq h] at hat
    obtain ⟨s, hblock, hs⟩ := Option.bind_eq_some_iff.mp hs
    rw [goto_eq h] at hs
    obtain rfl := Option.some.inj hs
    have hcall : m.kernel.call (.block .mem) = some (.done, m.kernel.withSched s) := by
      rw [Kernel.call, hblock]
      rfl
    obtain ⟨b, r', hb, hsound, -, -⟩ := h.call (fun _ => hz rfl) hcall
    obtain ⟨-, rfl⟩ := Prod.mk.inj (Option.some.inj hb)
    exact ⟨_, r', hsound, .sleptMem (Option.some.inj hat)⟩

end Steps

end Machine

end RtxKernel
