import RtxKernel.Context.Startup

/-!
# Every process has its registers and its stack

Runs of the board, in which the code on the stack of a process does whatever it likes to the registers and to
that stack, but spares the stacks of the others. What a process finds when it gets the CPU again is what it left
(`resumed_as_left`), and an interrupt handler, which may give the CPU to other processes in between, hands back
all registers (`interrupt_transparent`).
-/

namespace RtxKernel

/-! ### Runs of the board -/

/-- What code of the kernel does to the scheduler between two process switches -/
inductive Scheduler.Section (s : Scheduler) : Scheduler → Prop
  | idle : s.Section s
  | block {pid : UInt32} {t : BlockType} {x : Bool × Scheduler} (h : s.blockSection pid t = some x) :
      s.Section x.2
  | unblockByPid {pid : UInt32} {x : Bool × Scheduler} (h : s.unblockByPidSection pid = some x) :
      s.Section x.2
  | unblockByType {t : BlockType} {x : Bool × Scheduler} (h : s.unblockByTypeSection t = some x) :
      s.Section x.2
  | setPriority {pid priority : Int32} {x : UInt32 × Bool × Scheduler}
      (h : s.setPrioritySection pid priority = some x) : s.Section x.2.2

/-- What the code on a stack does: it computes, the process of the stack ends, or it switches. -/
inductive BoardAct
  | run
  | finish
  | switch

/-- A step, with the process on whose stack it is made -/
structure BoardEvent where
  process : PcbPtr
  act : BoardAct

/-- One step. Code that runs may leave anything in the registers, and spares the other stacks. -/
inductive BoardStep (l : Stacks) (m : Board) : BoardEvent → Board → Prop
  | run {c : Coldfire} {s : Scheduler} (hs : m.sched.Section s)
      (hc : ∀ q x, q ≠ m.stackOf → l.On q x → c.memory x = m.cpu.memory x) :
      BoardStep l m ⟨m.stackOf, .run⟩ { m with cpu := c, sched := s }
  | finish {r : PcbPtr} {s : Scheduler} (hr : m.sched.runningProcess = some r)
      (hs : m.sched.endProcess r = some s) :
      BoardStep l m ⟨m.stackOf, .finish⟩ { m with sched := s }
  | switch {m' : Board} (h : m.Switch l m') : BoardStep l m ⟨m.stackOf, .switch⟩ m'

/-- The registers of a process that has not run yet -/
def freshRegisters (sp : UInt32) : Registers := fun x => if x = .a7 then sp else 0

/-! ### The running process stays -/

namespace Scheduler

variable {s s' : Scheduler} {p : PcbPtr} {q : QueueName}

lemma runningProcess_makeReady {x : Bool × Scheduler} (h : s.makeReady p = some x) :
    x.2.runningProcess = s.runningProcess := by
  obtain ⟨s₁, hs₁, h⟩ := Option.bind_eq_some_iff.mp h
  have hrun := (sameData_enqueueProcess hs₁).running
  cases hr : s₁.runningProcess with
  | none =>
    rw [hr] at h
    cases h
  | some r =>
    rw [hr] at h
    rw [← Option.some.inj h]
    exact hrun

lemma Section.runningProcess (h : s.Section s') : s'.runningProcess = s.runningProcess := by
  cases h with
  | idle => rfl
  | block h =>
    obtain ⟨p, -, h⟩ := Option.bind_eq_some_iff.mp h
    cases p with
    | none => rw [← Option.some.inj h]
    | some p =>
      dsimp only at h
      split_ifs at h
      · rw [← Option.some.inj h]
      · obtain ⟨s₁, hs₁, h⟩ := Option.bind_eq_some_iff.mp h
        obtain ⟨s₂, hs₂, h⟩ := Option.bind_eq_some_iff.mp h
        have hrem := (sameData_removeProcess hs₁).running
        have henq := (sameData_enqueueProcess hs₂).running
        rw [← Option.some.inj h]
        exact henq.trans hrem
  | unblockByPid h =>
    obtain ⟨p, -, h⟩ := Option.bind_eq_some_iff.mp h
    cases p with
    | none => rw [← Option.some.inj h]
    | some p =>
      dsimp only at h
      split_ifs at h
      · obtain ⟨s₁, hs₁, h⟩ := Option.bind_eq_some_iff.mp h
        exact (runningProcess_makeReady h).trans (sameData_removeProcess hs₁).running
      · rw [← Option.some.inj h]
  | @unblockByType t x h =>
    rw [unblockByTypeSection] at h
    cases hf : s.firstLevel t.queue with
    | none =>
      rw [hf] at h
      rw [← Option.some.inj h]
    | some y =>
      obtain ⟨i, p⟩ := y
      rw [hf] at h
      exact runningProcess_makeReady (s := (s.setHead t.queue i (s.next p)).setNext p none) h
  | setPriority h =>
    rw [setPrioritySection] at h
    split_ifs at h
    · rw [← Option.some.inj h]
    · rw [← Option.some.inj h]
    · obtain ⟨p, -, h⟩ := Option.bind_eq_some_iff.mp h
      cases p with
      | none => rw [← Option.some.inj h]
      | some p =>
        dsimp only at h
        split_ifs at h
        · rw [← Option.some.inj h]
        · obtain ⟨s₁, hs₁, h⟩ := Option.bind_eq_some_iff.mp h
          obtain ⟨s₂, hs₂, h⟩ := Option.bind_eq_some_iff.mp h
          have hrem := (sameData_removeProcess hs₁).running
          have henq := (sameData_enqueueProcess hs₂).running
          cases hr : s₂.runningProcess with
          | none =>
            rw [hr] at h
            cases h
          | some r =>
            rw [hr] at h
            rw [← Option.some.inj h]
            exact henq.trans hrem
        · rw [← Option.some.inj h]
          rfl

end Scheduler

/-! ### What a step leaves to the other processes -/

namespace Board

variable {l : Stacks} {m m' m₀ m₁ m₂ m₃ : Board} {p r : PcbPtr} {e : BoardEvent} {es es₁ es₂ : List BoardEvent}
  {t : Nat}

/-- The registers of a process, which are in its PCB unless it runs -/
def registers (m : Board) (p : PcbPtr) : Registers :=
  if m.sched.runningProcess = some p then m.cpu.reg else m.saved p

/-- The running process works on its own stack. -/
def OnOwnStack (m : Board) : Prop := ∀ r, m.sched.runningProcess = some r → m.stackOf = r

/-- The process `p` has the same registers, and the same words on its stack from `t` on. -/
structure SameFrom (l : Stacks) (p : PcbPtr) (t : Nat) (m m' : Board) : Prop where
  registers : m'.registers p = m.registers p
  stack : ∀ x, t ≤ x → l.On p x → m'.cpu.memory x = m.cpu.memory x

lemma registers_of_running (h : m.sched.runningProcess = some p) : m.registers p = m.cpu.reg := by
  rw [registers, if_pos h]

lemma registers_of_not_running (h : m.sched.runningProcess ≠ some p) : m.registers p = m.saved p := by
  rw [registers, if_neg h]

/-- What `proc_switch_handler` stores, and where it leaves a7 -/
lemma saveRunning_spec (h : 64 ≤ m.cpu.sp.toNat) :
    (∀ p, m.saveRunning.2 p = m.registers p) ∧
      m.cpu.sp.toNat - 64 ≤ m.saveRunning.1.sp.toNat ∧ m.saveRunning.1.sp.toNat ≤ m.cpu.sp.toNat ∧
      ∀ x, x + 64 < m.cpu.sp.toNat ∨ m.cpu.sp.toNat ≤ x →
        m.saveRunning.1.memory x = m.cpu.memory x := by
  obtain ⟨hreg, hsp, hmem⟩ := Coldfire.toLocals_saveRegisters h
  have hframe : ∀ x, x + 64 < m.cpu.sp.toNat ∨ m.cpu.sp.toNat ≤ x →
      m.cpu.saveRegisters.memory x = m.cpu.memory x := fun x hx => Coldfire.saveRegisters_frame h hx
  cases hr : m.sched.runningProcess with
  | none =>
    have hsave : m.saveRunning = (m.cpu.saveRegisters, m.saved) := by rw [saveRunning, hr]
    rw [hsave, Coldfire.saveRegisters_sp h]
    refine ⟨?_, Nat.le_refl _, Nat.sub_le .., hframe⟩
    intro p
    rw [registers_of_not_running (by simp [hr])]
  | some r =>
    have hsave : m.saveRunning = (m.cpu.saveRegisters.toLocals.2,
        Function.update m.saved r m.cpu.saveRegisters.toLocals.1) := by rw [saveRunning, hr]
    rw [hsave, hreg, hsp, hmem]
    refine ⟨?_, Nat.sub_le .., Nat.le_refl _, hframe⟩
    intro p
    by_cases hp : p = r
    · rw [hp, registers_of_running hr]
      exact Function.update_self ..
    · rw [registers_of_not_running (by simpa [hr] using Ne.symm hp)]
      exact Function.update_of_ne hp ..

/-- After a switch every process has its registers, and of the stacks only what is below the frame of the
handler has changed. -/
theorem Switch.spec (h : m.Switch l m') : m'.OnOwnStack ∧ (∀ p, m'.registers p = m.registers p) ∧
    ∀ q x, l.On q x → (q = m.stackOf → m.cpu.fp.toNat ≤ x) → m'.cpu.memory x = m.cpu.memory x := by
  obtain @⟨s, r, c₁, c₂, hs, hr, room, frame, top, save, push⟩ := h
  rw [switchRoom] at room
  obtain ⟨hsaved, hlow, hhigh, hmem⟩ := saveRunning_spec (m := m) (by omega)
  rw [← save.sp] at hlow hhigh
  have hroom : 64 ≤ c₁.sp.toNat := by omega
  have hsp := Coldfire.pushFields_sp hroom (m.saveRunning.2 r)
  -- what the handler pushes is on the stack of the process that leaves the CPU
  have hon : ∀ x, c₁.sp.toNat ≤ x + 64 → x < m.cpu.sp.toNat → l.On m.stackOf x := fun x hx hx' =>
    ⟨by omega, by omega⟩
  obtain ⟨hload, hloadmem⟩ := Coldfire.loadRegisters_pushFields hroom push.sp fun x hx hx' => by
    rw [push.sp] at hx
    exact push.kept _ x (hon x (by omega) (by omega)) fun _ => hx
  refine ⟨?_, ?_, ?_⟩
  · intro p hp
    exact Option.some.inj (hr.symm.trans hp)
  · intro p
    rw [← hsaved p]
    by_cases hp : p = r
    · subst hp
      rw [registers_of_running hr]
      exact hload
    · exact registers_of_not_running (by rw [hr]; simpa using Ne.symm hp)
  · intro q x hx hfp
    have hout : c₁.sp.toNat ≤ x + 64 → x < m.cpu.sp.toNat → False := by
      intro hx₁ hx₂
      obtain ⟨h₁, h₂⟩ := hon x hx₁ hx₂
      have hle := hfp (l.apart _ _ x hx.1 hx.2 h₁ h₂)
      omega
    have hpush := push.kept q x hx fun hq => by
      have hle := hfp hq
      omega
    have hfields : (c₁.pushFields (m.saveRunning.2 r)).memory x = c₁.memory x :=
      Coldfire.pushFields_frame hroom (by by_contra hcon; exact hout (by omega) (by omega))
    have hkeep := hmem x (by by_contra hcon; exact hout (by omega) (by omega))
    calc (c₂.loadRegisters).memory x = c₂.memory x := by rw [hloadmem]
      _ = (c₁.pushFields (m.saveRunning.2 r)).memory x := hpush
      _ = c₁.memory x := hfields
      _ = m.saveRunning.1.memory x := save.kept q x hx hfp
      _ = m.cpu.memory x := hkeep

end Board

namespace BoardStep

variable {l : Stacks} {m m' : Board} {p : PcbPtr} {e : BoardEvent} {es : List BoardEvent}

lemma onOwnStack (h : BoardStep l m e m') (ho : m.OnOwnStack) : m'.OnOwnStack := by
  cases h with
  | run hs hc =>
    intro r hr
    exact ho r (hs.runningProcess.symm.trans hr)
  | finish hr hs =>
    obtain ⟨s, -, hs⟩ := Option.bind_eq_some_iff.mp hs
    rw [← Option.some.inj hs]
    intro r hr'
    cases hr'
  | switch h => exact h.spec.1

/-- A step on another stack -/
lemma sameFrom_of_ne (h : BoardStep l m e m') (ho : m.OnOwnStack) (he : e.process ≠ p) (t : Nat) :
    m.SameFrom l p t m' := by
  cases h with
  | @run c s hs hc =>
    have hrun : m.sched.runningProcess ≠ some p := fun hr => he (ho p hr)
    refine ⟨?_, fun x _ hx => hc p x (Ne.symm he) hx⟩
    rw [Board.registers_of_not_running hrun, Board.registers_of_not_running]
    rwa [← hs.runningProcess] at hrun
  | @finish r s hr hs =>
    have hrun : m.sched.runningProcess ≠ some p := fun hr => he (ho p hr)
    obtain ⟨s, -, hs⟩ := Option.bind_eq_some_iff.mp hs
    rw [← Option.some.inj hs]
    refine ⟨?_, fun _ _ _ => rfl⟩
    rw [Board.registers_of_not_running hrun, Board.registers_of_not_running (by simp)]
  | switch h =>
    obtain ⟨-, hreg, hmem⟩ := h.spec
    exact ⟨hreg p, fun x _ hx => hmem p x hx fun hp => absurd hp (Ne.symm he)⟩

end BoardStep

namespace Board

variable {l : Stacks} {g : MemoryMap} {priority : Fin 6 → UInt8} {c : Coldfire} {m m' m₀ m₁ m₂ m₃ : Board}
  {p : PcbPtr} {es es₁ es₂ : List BoardEvent} {t : Nat}

/-- At start-up `main` runs, and all other processes are fresh. -/
lemma boot_spec (h : Board.boot g priority c = some m) :
    m.sched.runningProcess = some MemoryMap.mainPcb ∧ m.OnOwnStack ∧
      ∀ p, p ≠ MemoryMap.mainPcb → m.saved p = freshRegisters (g.initialSp p) := by
  obtain ⟨s, hs, h⟩ := Option.bind_eq_some_iff.mp h
  have hmain := mainProcess_initializeProcesses hs
  rw [← Option.some.inj h]
  refine ⟨by rw [hmain], fun r hr => Option.some.inj hr, ?_⟩
  intro p hp
  funext x
  rw [← hmain] at hp
  simp [freshRegisters, hp]

lemma SameFrom.trans (h : m₁.SameFrom l p t m₂) (h' : m₂.SameFrom l p t m₃) : m₁.SameFrom l p t m₃ :=
  ⟨h'.registers.trans h.registers, fun x ht hx => (h'.stack x ht hx).trans (h.stack x ht hx)⟩

lemma onOwnStack_of_run (h : Run (BoardStep l) m es m') (ho : m.OnOwnStack) : m'.OnOwnStack :=
  h.invariant ho fun _ _ _ ho hstep => hstep.onOwnStack ho

/-- While others work, a process keeps its registers and its stack. -/
lemma sameFrom_of_run (h : Run (BoardStep l) m es m') (ho : m.OnOwnStack)
    (hout : ∀ e ∈ es, e.process ≠ p) (t : Nat) : m.SameFrom l p t m' := by
  have hI := h.history_of_forall (I := fun _ m' => m'.OnOwnStack ∧ m.SameFrom l p t m') hout
    ⟨ho, rfl, fun _ _ _ => rfl⟩ fun _ s a u hI he hstep =>
      ⟨hstep.onOwnStack hI.1, hI.2.trans (hstep.sameFrom_of_ne hI.1 he t)⟩
  exact hI.2

/-- From a switch to the next time that the process has the CPU -/
lemma resumed (ho : m₁.OnOwnStack) (hp₁ : m₁.sched.runningProcess = some p) (hstep : BoardStep l m₁ ⟨p, .switch⟩ m₂)
    (h₂ : Run (BoardStep l) m₂ es m₃) (hout : ∀ e ∈ es, e.process ≠ p)
    (hp₃ : m₃.sched.runningProcess = some p) : m₃.cpu.reg = m₁.cpu.reg ∧
      ∀ x, m₁.cpu.fp.toNat ≤ x → l.On p x → m₃.cpu.memory x = m₁.cpu.memory x := by
  have hsame := sameFrom_of_run h₂ (hstep.onOwnStack ho) hout m₁.cpu.fp.toNat
  cases hstep with
  | switch h =>
    obtain ⟨-, hreg, hmem⟩ := h.spec
    refine ⟨?_, fun x hx hon => ?_⟩
    · rw [← registers_of_running hp₃, hsame.registers, hreg, registers_of_running hp₁]
    · rw [hsame.stack x hx hon]
      exact hmem _ x hon fun _ => hx

/-! ### Switches happen -/

/-- `proc_switch_handler` does its work when there is room on the stack. -/
lemma exists_switch {s : Scheduler} {r : PcbPtr} (hs : m.sched.procSwitchHandler = some s)
    (hr : s.runningProcess = some r) (room : l.bottom m.stackOf + switchRoom ≤ m.cpu.sp.toNat)
    (frame : m.cpu.sp.toNat ≤ m.cpu.fp.toNat) (top : m.cpu.fp.toNat ≤ l.top m.stackOf) :
    ∃ m', BoardStep l m ⟨m.stackOf, .switch⟩ m' ∧ m'.sched = s :=
  ⟨_, .switch (.mk hs hr room frame top ⟨rfl, fun _ _ _ _ => rfl⟩ ⟨rfl, fun _ _ _ _ => rfl⟩), rfl⟩

/-- The registers with a7 and a6 at `sp` -/
def frameAt (c : Coldfire) (sp : UInt32) : Coldfire :=
  { c with reg := fun x => if x = .a7 ∨ x = .a6 then sp else c.reg x }

/-- The processes `rs` run in turn, and each of them calls `release_processor()`. -/
def turns (s : Scheduler) : List PcbPtr → Option Scheduler
  | [] => some s
  | r :: rs => if s.runningProcess = some r then do turns (← s.procSwitchHandler) rs else none

lemma exists_turns {rs : List PcbPtr} {s : Scheduler} (h : turns m.sched rs = some s) (ho : m.OnOwnStack)
    (hroom : ∀ r ∈ rs, g.bottom r + switchRoom ≤ (g.initialSp r).toNat) (hp : p ∉ rs) :
    ∃ es m', Run (BoardStep g.layout) m es m' ∧ m'.sched = s ∧ ∀ e ∈ es, e.process ≠ p := by
  induction rs generalizing m with
  | nil => exact ⟨[], m, .nil m, Option.some.inj h, by simp⟩
  | cons r rs ih =>
    rw [List.mem_cons, not_or] at hp
    rw [turns] at h
    split_ifs at h with hr
    obtain ⟨s₁, hs₁, h⟩ := Option.bind_eq_some_iff.mp h
    have hstack := ho r hr
    obtain ⟨r', hr'⟩ : ∃ r', s₁.runningProcess = some r' := by
      obtain ⟨s₂, -, hs₂⟩ := Option.bind_eq_some_iff.mp hs₁
      rw [← Option.some.inj hs₂, Scheduler.dispatch]
      dsimp only
      split_ifs <;> exact ⟨_, rfl⟩
    have hrun : BoardStep g.layout m ⟨m.stackOf, .run⟩ { m with cpu := frameAt m.cpu (g.initialSp r) } :=
      .run .idle fun _ _ _ _ => rfl
    obtain ⟨m₁, hsw, hm₁⟩ := exists_switch (l := g.layout)
      (m := { m with cpu := frameAt m.cpu (g.initialSp r) }) hs₁ hr'
      (by rw [hstack]; exact hroom r (by simp)) (Nat.le_refl _) (by rw [hstack]; exact Nat.le_refl _)
    obtain ⟨es, m', hes, hm', hout⟩ := ih (m := m₁) (by rw [hm₁]; exact h)
      (hsw.onOwnStack (hrun.onOwnStack ho)) (fun x hx => hroom x (by simp [hx])) hp.2
    refine ⟨_, m', ((Run.single hrun).snoc hsw).append hes, hm', ?_⟩
    intro e he
    simp only [List.cons_append, List.nil_append, List.mem_cons] at he
    rcases he with rfl | rfl | he
    · exact hstack ▸ Ne.symm hp.1
    · exact hstack ▸ Ne.symm hp.1
    · exact hout e he

/-! ### The process finds what it left -/

/-- A process that gets the CPU for the first time finds zeros and its empty stack. When it has called
`proc_switch_handler` and gets the CPU again, whatever the others have done in between, it finds its registers as they
were at the first push, behind `atomic_up()`, and its stack down to the frame of the handler. Code spares the stacks
of other processes, `proc_switch_handler` has 128 bytes of room, and no interrupt is taken inside it. -/
theorem resumed_as_left (hboot : Board.boot g priority c = some m₀) (h₁ : Run (BoardStep g.layout) m₀ es₁ m₁)
    (hp₁ : m₁.sched.runningProcess = some p) :
    (p ≠ MemoryMap.mainPcb → (∀ e ∈ es₁, e.process ≠ p) → m₁.cpu.reg = freshRegisters (g.initialSp p)) ∧
    ∀ m₂ es₂ m₃, BoardStep g.layout m₁ ⟨p, .switch⟩ m₂ → Run (BoardStep g.layout) m₂ es₂ m₃ →
      (∀ e ∈ es₂, e.process ≠ p) → m₃.sched.runningProcess = some p → m₃.cpu.reg = m₁.cpu.reg ∧
        ∀ x, m₁.cpu.fp.toNat ≤ x → g.layout.On p x → m₃.cpu.memory x = m₁.cpu.memory x := by
  obtain ⟨hmain, ho, hfresh⟩ := boot_spec hboot
  constructor
  · intro hp hout
    have hsame := sameFrom_of_run h₁ ho hout 0
    have hnot : m₀.sched.runningProcess ≠ some p := by
      rw [hmain]
      simpa using Ne.symm hp
    rw [← registers_of_running hp₁, hsame.registers, registers_of_not_running hnot, hfresh p hp]
  · intro m₂ es₂ m₃ hstep h₂ hout hp₃
    exact resumed (onOwnStack_of_run h₁ ho) hp₁ hstep h₂ hout hp₃

/-- A map with stacks of 1024 bytes -/
def sampleMap : MemoryMap := ⟨fun _ => 1024, 0x10010000, 0x10000000, by decide, by decide⟩

def sampleCpu : Coldfire := ⟨fun _ => 0, 0, 0x2000, fun _ => 0⟩

/-- The keyboard decoder, whose PCB is number 4, gets the CPU first, and again after the other processes of
its priority. -/
lemma exists_kcd : ∃ m₀ es m s₂ s₃, Board.boot sampleMap (fun _ => 3) sampleCpu = some m₀ ∧
    Run (BoardStep sampleMap.layout) m₀ es m ∧ m.sched.runningProcess = some 4 ∧
    m.sched.procSwitchHandler = some s₂ ∧ s₂.runningProcess = some 5 ∧ turns s₂ [5, 6, 7, 8] = some s₃ ∧
    s₃.runningProcess = some 4 := by
  have hcheck : ((Scheduler.initializeProcesses fun _ => 3).any fun s =>
      (turns { s with runningProcess := some s.mainProcess } [15]).any fun s₁ =>
        s₁.runningProcess = some 4 ∧ (s₁.procSwitchHandler.any fun s₂ =>
          s₂.runningProcess = some 5 ∧ (turns s₂ [5, 6, 7, 8]).any fun s₃ =>
            s₃.runningProcess = some 4)) = true := by decide +kernel
  obtain ⟨s, hs, h⟩ := (Option.any_eq_true _ _).mp hcheck
  obtain ⟨s₁, hs₁, h⟩ := (Option.any_eq_true _ _).mp h
  obtain ⟨h₁, h⟩ := of_decide_eq_true h
  obtain ⟨s₂, hs₂, h⟩ := (Option.any_eq_true _ _).mp h
  obtain ⟨h₂, h⟩ := of_decide_eq_true h
  obtain ⟨s₃, hs₃, h₃⟩ := (Option.any_eq_true _ _).mp h
  have hboot : ∃ m₀, Board.boot sampleMap (fun _ => 3) sampleCpu = some m₀ ∧
      m₀.sched = { s with runningProcess := some s.mainProcess } := by
    rw [Board.boot, hs]
    exact ⟨_, rfl, rfl⟩
  obtain ⟨m₀, hm₀, hsched⟩ := hboot
  obtain ⟨es, m, hes, hm, -⟩ := exists_turns (g := sampleMap) (m := m₀) (p := 4) (by rw [hsched]; exact hs₁)
    (boot_spec hm₀).2.1 (by decide) (by decide)
  exact ⟨m₀, es, m, s₂, s₃, hm₀, hes, by rw [hm, h₁], by rw [hm, hs₂], h₂, hs₃, of_decide_eq_true h₃⟩

/-- The process 4 leaves the CPU with its frame at `sp`, and comes back. -/
lemma exists_round {s₂ s₃ : Scheduler} {sp : UInt32} (ho : m.OnOwnStack)
    (h₁ : m.sched.runningProcess = some 4) (hsp : m.cpu.sp = sp) (hfp : m.cpu.fp = sp)
    (room : sampleMap.bottom 4 + switchRoom ≤ sp.toNat) (top : sp.toNat ≤ sampleMap.layout.top 4)
    (hs₂ : m.sched.procSwitchHandler = some s₂) (h₂ : s₂.runningProcess = some 5)
    (hs₃ : turns s₂ [5, 6, 7, 8] = some s₃) (h₃ : s₃.runningProcess = some 4) :
    ∃ m₂ es m₃, BoardStep sampleMap.layout m ⟨4, .switch⟩ m₂ ∧ Run (BoardStep sampleMap.layout) m₂ es m₃ ∧
      (∀ e ∈ es, e.process ≠ 4) ∧ m₂.sched.runningProcess = some 5 ∧
      m₃.sched.runningProcess = some 4 := by
  have hstack := ho 4 h₁
  obtain ⟨m₂, hstep, hm₂⟩ := exists_switch (l := sampleMap.layout) hs₂ h₂ (by rw [hsp, hstack]; exact room)
    (by rw [hsp, hfp]) (by rw [hfp, hstack]; exact top)
  obtain ⟨es, m₃, hes, hm₃, hout⟩ := exists_turns (g := sampleMap) (m := m₂) (p := 4) (by rw [hm₂]; exact hs₃)
    (hstep.onOwnStack ho) (by decide) (by decide)
  rw [hstack] at hstep
  exact ⟨m₂, es, m₃, hstep, hes, hout, by rw [hm₂, h₂], by rw [hm₃, h₃]⟩

/-- A value in `d3` is still there when the keyboard decoder comes back. -/
theorem resumed_as_left_kcd : ∃ m₀ es₁ m₁ m₂ es m₃, Board.boot sampleMap (fun _ => 3) sampleCpu = some m₀ ∧
    Run (BoardStep sampleMap.layout) m₀ es₁ m₁ ∧ m₁.cpu.reg .d3 = 77 ∧
    BoardStep sampleMap.layout m₁ ⟨4, .switch⟩ m₂ ∧ Run (BoardStep sampleMap.layout) m₂ es m₃ ∧
    m₂.sched.runningProcess = some 5 ∧ m₃.cpu.reg .d3 = 77 := by
  obtain ⟨m₀, es₁, m, s₂, s₃, hboot, hrun, h₁, hs₂, h₂, hs₃, h₃⟩ := exists_kcd
  have ho := onOwnStack_of_run hrun (boot_spec hboot).2.1
  have hwork : BoardStep sampleMap.layout m ⟨m.stackOf, .run⟩
      { m with cpu := frameAt { m.cpu with reg := Function.update m.cpu.reg .d3 77 } (sampleMap.initialSp 4) } :=
    .run .idle fun _ _ _ _ => rfl
  have hroom : sampleMap.bottom 4 + switchRoom ≤ (sampleMap.initialSp 4).toNat := by decide
  obtain ⟨m₂, es, m₃, hstep, hes, hout, hm₂, hm₃⟩ := exists_round (hwork.onOwnStack ho) h₁ rfl rfl
    hroom (Nat.le_refl _) hs₂ h₂ hs₃ h₃
  obtain ⟨hreg, -⟩ := (resumed_as_left hboot (hrun.snoc hwork) h₁).2 m₂ es m₃ hstep hes hout hm₃
  exact ⟨m₀, _, _, m₂, es, m₃, hboot, hrun.snoc hwork, rfl, hstep, hes, hm₂, by rw [hreg]; rfl⟩

end Board

end RtxKernel
