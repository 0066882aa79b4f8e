import RtxKernel.Context.Isolation

/-!
# Interrupts

`asm_serial_entry` and `asm_timer_handler` push all registers but a7 behind the frame of the interrupt, call
`uart_handler` or `timer_isr`, and pop them again. The handler may release the processor, so that other
processes run before it returns. To the process that was interrupted nothing of this shows
(`interrupt_transparent`), in runs in which no interrupt is taken inside `proc_switch_handler`.
-/

namespace RtxKernel

namespace Coldfire

def stubPushOrder : List Reg :=
  [.d0, .d1, .d2, .d3, .d4, .d5, .d6, .d7, .a0, .a1, .a2, .a3, .a4, .a5, .a6]

def stubPopOrder : List Reg :=
  [.a6, .a5, .a4, .a3, .a2, .a1, .a0, .d7, .d6, .d5, .d4, .d3, .d2, .d1, .d0]

/-- An interrupt, up to the `jsr` of the stub to the handler -/
def enterStub (c : Coldfire) (vector : UInt8) (stub : UInt32) (sr : UInt16) : Coldfire :=
  stubPushOrder.foldl pushReg (c.exception vector stub sr)

/-- The stub, from the return of the handler on -/
def leaveStub (c : Coldfire) : Coldfire := (stubPopOrder.foldl popReg c).rte

variable {c c' : Coldfire} {v : UInt8} {stub : UInt32} {sr : UInt16} {x : Nat} {r : Reg}

lemma mem_stubPushOrder (hr : r ≠ .a7) : r ∈ stubPushOrder := by
  revert hr
  cases r <;> decide

lemma enterStub_eq (c : Coldfire) : c.enterStub v stub sr =
    (stubPushOrder.map (c.exception v stub sr).reg).foldl push (c.exception v stub sr) :=
  foldl_pushReg (by decide)

lemma enterStub_sp (h : 71 ≤ c.sp.toNat) :
    (c.enterStub v stub sr).sp.toNat = c.sp.toNat - c.sp.toNat % 4 - 68 := by
  have hsp := exception_sp (c := c) v stub sr (by omega)
  have hlen : (stubPushOrder.map (c.exception v stub sr).reg).length = 15 := rfl
  rw [enterStub_eq, foldl_push_sp (by rw [hlen]; omega), hsp, hlen]
  omega

/-- The stub changes nothing above its own words. -/
lemma enterStub_memory (h : 71 ≤ c.sp.toNat) (hx : (c.exception v stub sr).sp.toNat ≤ x) :
    (c.enterStub v stub sr).memory x = (c.exception v stub sr).memory x := by
  have hsp := exception_sp (c := c) v stub sr (by omega)
  have hlen : (stubPushOrder.map (c.exception v stub sr).reg).length = 15 := rfl
  rw [enterStub_eq, foldl_push_memory (by rw [hlen]; omega)]
  exact pushAll_frame (.inr hx) (by rw [hlen]; omega)

lemma enterStub_frame (h : 71 ≤ c.sp.toNat) (hx : c.sp.toNat ≤ x) :
    (c.enterStub v stub sr).memory x = c.memory x := by
  have hsp := exception_sp (c := c) v stub sr (by omega)
  have hlen : [c.pc, c.frameWord v].length = 2 := rfl
  rw [enterStub_memory h (by omega), exception_memory (by omega)]
  exact pushAll_frame (.inr (by omega)) (by rw [hlen]; omega)

/-- When the handler has returned, with the words of the stub as they were, the interrupt is undone. -/
theorem leaveStub_enterStub (h : 71 ≤ c.sp.toNat) (hsp : c'.sp = (c.enterStub v stub sr).sp)
    (hmem : ∀ x, c'.sp.toNat ≤ x → x < c.sp.toNat →
      c'.memory x = (c.enterStub v stub sr).memory x) :
    c'.leaveStub.reg = c.reg ∧ c'.leaveStub.pc = c.pc ∧ c'.leaveStub.sr = c.sr ∧
      c'.leaveStub.memory = c'.memory := by
  have hlt := c.sp.toNat_lt
  have hs : c'.sp.toNat = c.sp.toNat - c.sp.toNat % 4 - 68 := by rw [hsp, enterStub_sp h]
  have hes := exception_sp (c := c) v stub sr (by omega)
  have hlen : stubPopOrder.length = 15 := rfl
  obtain ⟨hreg, hpmem, hpsp⟩ := @foldl_popReg c' stubPopOrder (by decide) (by rw [hlen]; omega)
  rw [leaveStub]
  generalize stubPopOrder.foldl popReg c' = d at hreg hpmem hpsp
  -- behind the registers the frame of the interrupt is on top
  have hdsp : d.sp = (c.exception v stub sr).sp := by
    rw [← UInt32.toNat_inj, hpsp, hs, hes, hlen]
    omega
  obtain ⟨hrsp, hpc, hsr⟩ := rte_exception (c := c) d (by omega) hdsp fun x hx hx' => by
    have hle : (c.exception v stub sr).sp.toNat ≤ x := by rwa [← hdsp]
    rw [hpmem, hmem x (by omega) hx', enterStub_memory h hle]
  refine ⟨?_, hpc, hsr, by rw [rte_memory, hpmem]⟩
  funext r
  by_cases hr : r = .a7
  · rw [hr]
    exact hrsp
  · have hcongr := @popInto_congr _ _ _ _ _ stubPopOrder c'.reg fun x hx hx' =>
      hmem x hx (by rw [hlen] at hx'; omega)
    have hpop := @popInto_pushAll _ _ (c.exception v stub sr).memory
      (c.exception v stub sr).sp.toNat stubPushOrder c'.reg (c.exception v stub sr).reg r (by decide)
      (by rw [hes]; simp only [stubPushOrder, List.length]; omega) (mem_stubPushOrder hr)
    have htop : (c.exception v stub sr).sp.toNat - 4 * stubPushOrder.length = c'.sp.toNat := by
      rw [hes, hs]
      simp only [stubPushOrder, List.length]
      omega
    rw [htop] at hpop
    rw [rte_reg hr, hreg r hr, hcongr, enterStub_eq, foldl_push_memory]
    · rw [← exception_reg hr]
      exact hpop
    · rw [hes]
      simp only [stubPushOrder, List.length, List.map]
      omega

end Coldfire

/-! ### An interrupt is not noticed -/

/-- What a handler of `p` keeps that was entered with a7 at `t`: what is at `t` and above. The frames of the
functions that it calls are below. -/
def Board.KeepsAbove (l : Stacks) (p : PcbPtr) (t : Nat) (m : Board) (e : BoardEvent) (m' : Board) : Prop :=
  e.process = p → match e.act with
    | .run => ∀ x, t ≤ x → l.On p x → m'.cpu.memory x = m.cpu.memory x
    | .finish => False
    | .switch => m.cpu.fp.toNat ≤ t

/-- A step while a handler of `p` is pending. A switch is one step: no interrupt is taken inside it. -/
def HandlerStep (l : Stacks) (p : PcbPtr) (t : Nat) (m : Board) (e : BoardEvent) (m' : Board) : Prop :=
  BoardStep l m e m' ∧ m.KeepsAbove l p t e m'

/-- The interrupt arrives in the running process. -/
def Board.interrupt (m : Board) (vector : UInt8) (stub : UInt32) (sr : UInt16) : Board :=
  { m with cpu := m.cpu.enterStub vector stub sr }

namespace Board

variable {l : Stacks} {g : MemoryMap} {priority : Fin 6 → UInt8} {c : Coldfire} {m m' m₀ : Board}
  {p : PcbPtr} {e : BoardEvent} {es es₁ : List BoardEvent} {t : Nat} {v : UInt8} {stub : UInt32} {sr : UInt16}

lemma OnOwnStack.interrupt (h : m.OnOwnStack) : (m.interrupt v stub sr).OnOwnStack := h

lemma stack_of_handlerStep (h : HandlerStep l p t m e m') (ho : m.OnOwnStack) {x : Nat} (ht : t ≤ x)
    (hx : l.On p x) : m'.cpu.memory x = m.cpu.memory x := by
  obtain ⟨hstep, hkeep⟩ := h
  by_cases he : e.process = p
  · have hk := hkeep he
    cases hstep with
    | run hs hc => exact hk x ht hx
    | finish hr hs => exact hk.elim
    | switch h => exact h.spec.2.2 p x hx fun _ => Nat.le_trans hk ht
  · exact (hstep.sameFrom_of_ne ho he t).stack x ht hx

lemma stack_of_handler (h : Run (HandlerStep l p t) m es m') (ho : m.OnOwnStack) {x : Nat} (ht : t ≤ x)
    (hx : l.On p x) : m'.cpu.memory x = m.cpu.memory x := by
  have hI := h.invariant (I := fun u => u.OnOwnStack ∧ u.cpu.memory x = m.cpu.memory x) ⟨ho, rfl⟩
    fun u e w hI hstep => ⟨hstep.1.onOwnStack hI.1, (stack_of_handlerStep hstep hI.1 ht hx).trans hI.2⟩
  exact hI.2

/-- When an interrupt arrives while a7 is in the stack of `p`, and its handler has returned, after whatever steps of
`p` and of all other processes, then the stub gives back the registers, the program counter and the status
register, and the stack is what it was. Code spares the stacks of other processes, the handler keeps what is at its
entry a7 and above, each `proc_switch_handler` has 128 bytes of room, and neither this interrupt nor one of the run
is taken inside it. -/
theorem interrupt_transparent (hboot : Board.boot g priority c = some m₀)
    (h : Run (BoardStep g.layout) m₀ es₁ m)
    (room : g.bottom p + 71 ≤ m.cpu.sp.toNat) (top : m.cpu.sp ≤ g.initialSp p)
    (hrun : Run (HandlerStep g.layout p (m.interrupt v stub sr).cpu.sp.toNat) (m.interrupt v stub sr) es m')
    (hsp : m'.cpu.sp = (m.interrupt v stub sr).cpu.sp) :
    m'.cpu.leaveStub.reg = m.cpu.reg ∧ m'.cpu.leaveStub.pc = m.cpu.pc ∧ m'.cpu.leaveStub.sr = m.cpu.sr ∧
      ∀ x, m.cpu.sp.toNat ≤ x → g.layout.On p x → m'.cpu.leaveStub.memory x = m.cpu.memory x := by
  have ho : (m.interrupt v stub sr).OnOwnStack := (onOwnStack_of_run h (boot_spec hboot).2.1).interrupt
  have hroom : 71 ≤ m.cpu.sp.toNat := by omega
  have htop : m.cpu.sp.toNat ≤ g.layout.top p := UInt32.le_iff_toNat_le.mp top
  have hent : (m.interrupt v stub sr).cpu.sp.toNat = m.cpu.sp.toNat - m.cpu.sp.toNat % 4 - 68 :=
    Coldfire.enterStub_sp hroom
  -- the words of the stub are on the stack of `p`
  have hstub : ∀ x, m'.cpu.sp.toNat ≤ x → x < m.cpu.sp.toNat →
      m'.cpu.memory x = (m.cpu.enterStub v stub sr).memory x := by
    intro x hx hx'
    rw [hsp] at hx
    exact stack_of_handler hrun ho hx ⟨by change g.bottom p ≤ x; omega, by omega⟩
  obtain ⟨hreg, hpc, hsr, hmem⟩ := Coldfire.leaveStub_enterStub hroom hsp hstub
  refine ⟨hreg, hpc, hsr, ?_⟩
  intro x hx hon
  rw [hmem, stack_of_handler hrun ho (by omega) hon]
  exact Coldfire.enterStub_frame hroom hx

/-- Steps of the other processes are steps under a handler of `p`. -/
lemma handlerRun_of_run (h : Run (BoardStep l) m es m') (hout : ∀ e ∈ es, e.process ≠ p) :
    Run (HandlerStep l p t) m es m' :=
  h.history_of_forall (I := fun es u => Run (HandlerStep l p t) m es u) hout (.nil m)
    fun _ _ _ _ hrun he hstep => hrun.snoc ⟨hstep, fun hp => absurd hp he⟩

/-- A handler of process 4 that makes a frame at a7, releases the processor and comes back -/
lemma exists_handler {s₂ s₃ : Scheduler} (ho : m.OnOwnStack) (h₁ : m.sched.runningProcess = some 4)
    (room : sampleMap.bottom 4 + switchRoom ≤ m.cpu.sp.toNat) (top : m.cpu.sp.toNat ≤ sampleMap.layout.top 4)
    (hs₂ : m.sched.procSwitchHandler = some s₂) (h₂ : s₂.runningProcess = some 5)
    (hs₃ : turns s₂ [5, 6, 7, 8] = some s₃) (h₃ : s₃.runningProcess = some 4) :
    ∃ es m₂ es' m', Run (HandlerStep sampleMap.layout 4 m.cpu.sp.toNat) m es m₂ ∧
      Run (HandlerStep sampleMap.layout 4 m.cpu.sp.toNat) m₂ es' m' ∧ m₂.sched.runningProcess = some 5 ∧
      m'.sched.runningProcess = some 4 ∧ m'.cpu.sp = m.cpu.sp := by
  have hstack := ho 4 h₁
  have hrun : BoardStep sampleMap.layout m ⟨4, .run⟩ { m with cpu := frameAt m.cpu m.cpu.sp } := by
    rw [← hstack]
    exact .run .idle fun _ _ _ _ => rfl
  have hframe : HandlerStep sampleMap.layout 4 m.cpu.sp.toNat m ⟨4, .run⟩
      { m with cpu := frameAt m.cpu m.cpu.sp } := ⟨hrun, fun _ _ _ _ => rfl⟩
  obtain ⟨m₂, es, m₃, hstep, hes, hout, hm₂, hm₃⟩ := exists_round (hrun.onOwnStack ho) h₁ rfl rfl
    room top hs₂ h₂ hs₃ h₃
  obtain ⟨hreg, -⟩ := resumed (hrun.onOwnStack ho) h₁ hstep hes hout hm₃
  exact ⟨_, m₂, es, m₃, (Run.single hframe).snoc ⟨hstep, fun _ => Nat.le_refl _⟩, handlerRun_of_run hes hout,
    hm₂, hm₃, congrFun hreg .a7⟩

/-- The keyboard decoder is interrupted, the handler releases the processor, and other processes run before it
returns. -/
theorem interrupt_transparent_kcd : ∃ (m₀ m m₂ m' : Board) (es₁ es es' : List BoardEvent),
    Board.boot sampleMap (fun _ => 3) sampleCpu = some m₀ ∧ Run (BoardStep sampleMap.layout) m₀ es₁ m ∧
    m.cpu.reg .d3 = 77 ∧
    Run (HandlerStep sampleMap.layout 4 (m.interrupt 64 0x4000 0x2500).cpu.sp.toNat)
      (m.interrupt 64 0x4000 0x2500) es m₂ ∧ m₂.sched.runningProcess = some 5 ∧
    Run (HandlerStep sampleMap.layout 4 (m.interrupt 64 0x4000 0x2500).cpu.sp.toNat) m₂ es' m' ∧
    m'.sched.runningProcess = some 4 ∧ m'.cpu.leaveStub.reg .d3 = 77 := by
  obtain ⟨m₀, es₁, m, s₂, s₃, hboot, hrun, h₁, hs₂, h₂, hs₃, h₃⟩ := exists_kcd
  have hwork : BoardStep sampleMap.layout m ⟨m.stackOf, .run⟩
      { m with cpu := frameAt { m.cpu with reg := Function.update m.cpu.reg .d3 77 } (sampleMap.initialSp 4) } :=
    .run .idle fun _ _ _ _ => rfl
  have hrun' := hrun.snoc hwork
  have hd : (frameAt { m.cpu with reg := Function.update m.cpu.reg .d3 77 }
    (sampleMap.initialSp 4)).reg .d3 = 77 := rfl
  have hsp : (frameAt { m.cpu with reg := Function.update m.cpu.reg .d3 77 }
    (sampleMap.initialSp 4)).sp = sampleMap.initialSp 4 := rfl
  generalize frameAt { m.cpu with reg := Function.update m.cpu.reg .d3 77 } (sampleMap.initialSp 4) = w
    at hrun' hd hsp
  have hent : (w.enterStub 64 0x4000 0x2500).sp.toNat =
      (sampleMap.initialSp 4).toNat - (sampleMap.initialSp 4).toNat % 4 - 68 := by
    rw [Coldfire.enterStub_sp (by rw [hsp]; decide), hsp]
  have hroom : sampleMap.bottom 4 + switchRoom ≤ (w.enterStub 64 0x4000 0x2500).sp.toNat := by
    rw [hent]
    decide
  have htop : (w.enterStub 64 0x4000 0x2500).sp.toNat ≤ sampleMap.layout.top 4 := by
    rw [hent]
    decide
  obtain ⟨es, m₂, es', m', hes, hes', hm₂, hm', hback⟩ := exists_handler
    (m := Board.interrupt { m with cpu := w } 64 0x4000 0x2500)
    (onOwnStack_of_run hrun' (boot_spec hboot).2.1).interrupt h₁ hroom htop hs₂ h₂ hs₃ h₃
  obtain ⟨hreg, -⟩ := interrupt_transparent hboot hrun' (by rw [hsp]; decide)
    (by rw [hsp]; exact UInt32.le_refl _) (hes.append hes') hback
  exact ⟨m₀, _, m₂, m', _, es, es', hboot, hrun', hd, hes, hm₂, hes', hm', by rw [hreg]; exact hd⟩

end Board

end RtxKernel
