import RtxKernel.Interrupt.Sections

/-!
# Critical sections nest

On each stack the handlers end the sections that they begin. As long as the processor is released outside of them
only, `atomic_status` counts the sections of the process that runs (`Nests.step`).
-/

namespace RtxKernel

namespace Flow

open Code

variable {m m' : Flow} {main p : PcbPtr} {t : Trap} {i : Irq} {x : Prim} {n e s : ℕ} {k : List (Code Prim)}
  {fs : List Frame} {a : Move} {as : List Move}

/-! ### The handlers -/

/-- The number of sections after an action, if there were `n` before. Processes are changed in the section of
`proc_switch_handler`. -/
def effect : Prim → ℕ → Option ℕ
  | .up, n => some (n + 1)
  | .down, n => if n = 0 then none else some (n - 1)
  | .trap .atomicUp, n => some (n + 1)
  | .trap .atomicDown, n => if n = 0 then none else some (n - 1)
  | .trap _, n => some n
  | .switch, n => if n = 1 then some 1 else none
  | .enter, _ => none

@[simp] lemma after_up : up.after effect n = some (n + 1) := rfl

@[simp] lemma after_down : down.after effect (n + 1) = some n := rfl

@[simp] lemma after_trapUp : (trap .atomicUp).after effect n = some (n + 1) := rfl

@[simp] lemma after_trapDown : (trap .atomicDown).after effect (n + 1) = some n := rfl

@[simp] lemma after_releaseProcessor : releaseProcessor.after effect n = some n := rfl

@[simp] lemma after_blockProcess : blockProcess.after effect n = some n := by
  simp [blockProcess, after]

@[simp] lemma after_unblockProcessByPid (allow : Bool) : (unblockProcessByPid allow).after effect n = some n := by
  cases allow <;> simp [unblockProcessByPid, after]

@[simp] lemma after_unblockProcessByType : unblockProcessByType.after effect n = some n := by
  simp [unblockProcessByType, after]

/-- A handler does to the number of sections what its trap does. -/
lemma after_handler (ht : t = .processSwitch → n = 0) (h : effect (.trap t) n = some e) :
    (handler t).after effect n = some e := by
  cases t with
  | processSwitch =>
    obtain rfl := ht rfl
    exact h
  | atomicUp => exact h
  | atomicDown => exact h
  | requestMemoryBlock =>
    obtain rfl := Option.some.inj h
    simp [handler, requestMemoryBlockHandler, after]
  | releaseMemoryBlock =>
    obtain rfl := Option.some.inj h
    simp [handler, releaseMemoryHandler, after]
  | sendMessage =>
    obtain rfl := Option.some.inj h
    simp [handler, sendMessageHandler, after]
  | receiveMessage =>
    obtain rfl := Option.some.inj h
    simp [handler, receiveMessageHandler, after]
  | delayedSend =>
    obtain rfl := Option.some.inj h
    simp [handler, delayedSendHandler, after]
  | setPriority =>
    obtain rfl := Option.some.inj h
    simp [handler, setProcessPriorityHandler, after]
  | getPriority =>
    obtain rfl := Option.some.inj h
    simp [handler, getProcessPriorityHandler, after]

lemma after_isr (i : Irq) (n : ℕ) : (isr i).after effect n = some n := by
  have htrap : ∀ t n, t = .requestMemoryBlock ∨ t = .sendMessage ∨ t = .getPriority →
      (trap t).after effect n = some n := by
    rintro t n (rfl | rfl | rfl) <;> rfl
  cases i with
  | uart => simp [isr, uartHandler, after, htrap]
  | timer => simp [isr, checkExistingDelayedMessage, after, htrap]

/-- What a process does itself -/
def isUser : Prim → Bool
  | .trap t => t ≠ .atomicUp ∧ t ≠ .atomicDown
  | .enter => true
  | _ => false

lemma effect_of_isUser (h : isUser (.trap t) = true) : effect (.trap t) n = some n := by
  cases t with
  | atomicUp => cases h
  | atomicDown => cases h
  | _ => rfl

lemma processBootstrap_all : processBootstrap.all isUser = true := rfl

/-! ### The stacks -/

/-- A stack of handlers that end `n` sections together. `P e s` is to hold of the mask `s` that is restored where
`e` sections are still open. -/
inductive Nested (P : ℕ → ℕ → Prop) : List Frame → ℕ → Prop
  | fresh : Nested P [⟨[down, processBootstrap], none⟩] 1
  | process {k : List (Code Prim)} (hk : ∀ c ∈ k, c.all isUser = true) : Nested P [⟨k, none⟩] 0
  | frame {k : List (Code Prim)} {fs : List Frame} {n e s : ℕ} (hn : afterAll effect k n = some e) (hP : P e s)
      (hfs : Nested P fs e) : Nested P (⟨k, some s⟩ :: fs) n

/-- What can happen next -/
inductive Moves (m : Flow) : Move → Flow → Prop
  | test {c : Code Prim} {k l : List (Code Prim)} {s : Option ℕ} {fs : List Frame} {b : Bool}
      (hs : m.stack m.current = ⟨c :: k, s⟩ :: fs) (hl : c.expand b = some l) :
      Moves m (.test b) (m.withStack (⟨l ++ k, s⟩ :: fs))
  | rte {s : ℕ} {fs : List Frame} (hs : m.stack m.current = ⟨[], some s⟩ :: fs) :
      Moves m .exec ((m.withStack fs).withMask s)
  | perform {x : Prim} {k : List (Code Prim)} {s : Option ℕ} {fs : List Frame} {m' : Flow}
      (hs : m.stack m.current = ⟨act x :: k, s⟩ :: fs)
      (hx : (m.withStack (⟨k, s⟩ :: fs)).perform x = some m') : Moves m .exec m'
  | switchTo {k : List (Code Prim)} {s : Option ℕ} {fs : List Frame} (p : PcbPtr)
      (hs : m.stack m.current = ⟨act .switch :: k, s⟩ :: fs) :
      Moves m (.switchTo p) ((m.withStack (⟨k, s⟩ :: fs)).handOver p)
  | interrupt (i : Irq) (hi : m.cpu.mask < i.level) :
      Moves m (.interrupt i) ((m.push (isr i)).withMask i.level)

lemma Moves.of_step (h : m.Step a m') : Moves m a m' := by
  cases a with
  | test b =>
    rw [Step, step] at h
    split at h
    · obtain ⟨l, hl, rfl⟩ := Option.map_eq_some_iff.mp h
      exact .test ‹_› hl
    · cases h
  | exec =>
    rw [Step, step] at h
    split at h
    · obtain rfl := Option.some.inj h
      exact .rte ‹_›
    · exact .perform ‹_› h
    · cases h
  | switchTo p =>
    rw [Step, step] at h
    split at h
    · obtain rfl := Option.some.inj h
      exact .switchTo p ‹_›
    · cases h
  | interrupt i =>
    rw [Step, step] at h
    split_ifs at h with hi
    obtain rfl := Option.some.inj h
    exact .interrupt i hi

/-- What is kept about the mask at each depth -/
structure Admits (P : ℕ → ℕ → Prop) : Prop where
  zero : ∀ s, P 0 s
  le : ∀ {n e s}, e ≤ n → P n s → P e s
  up : ∀ {n : ℕ} {s}, P n s → P (n + 1) (Cpu.atomicUp ⟨n, s⟩).mask
  down : ∀ {n : ℕ} {s}, P (n + 1) s → P n (Cpu.atomicDown ⟨(n + 1 : ℕ), s⟩).mask
  interrupt : ∀ {n s} {i : Irq}, P n s → s < i.level → P n i.level

/-- The running process has begun `n` sections that are not ended, and no other process has. -/
structure Nests (P : ℕ → ℕ → Prop) (m : Flow) (n : ℕ) : Prop where
  status : m.cpu.atomicStatus = n
  pending : m.pending m.current = n
  running : Nested P (m.stack m.current) n
  mask : P n m.cpu.mask
  waiting : ∀ p, p ≠ m.current → m.pending p = 0 ∧ Nested P (m.stack p) 1

variable {P : ℕ → ℕ → Prop}

@[simp] lemma withStack_current (l : List Frame) : (m.withStack l).current = m.current := rfl
@[simp] lemma withStack_cpu (l : List Frame) : (m.withStack l).cpu = m.cpu := rfl
@[simp] lemma withStack_pending (l : List Frame) : (m.withStack l).pending = m.pending := rfl
@[simp] lemma withStack_stack (l : List Frame) : (m.withStack l).stack = Function.update m.stack m.current l := rfl

/-- What the processor is like with the new counter `v` -/
lemma atomic_eq {c : Cpu} {d v : ℤ} (hd : d = 1 ∨ d = 0) (hv : c.atomicStatus + (if d = 0 then -1 else d) = v)
    (hneg : 0 ≤ v) : c.atomic d = ⟨v, if v = 1 then 7 else if v = 0 then 0 else c.mask⟩ := by
  have hvalid : ¬ ((if d = 0 then -1 else d) ≠ 1 ∧ (if d = 0 then -1 else d) ≠ -1) := by
    rcases hd with rfl | rfl <;> decide
  simp only [Cpu.atomic]
  rw [if_neg hvalid, hv, if_neg (not_lt.mpr hneg)]

/-- `atomic_up` begins a section, with the mask 7 if it is the first one. -/
lemma atomicUp_eq (n s : ℕ) : Cpu.atomicUp ⟨n, s⟩ = ⟨(n + 1 : ℕ), if n = 0 then 7 else s⟩ := by
  rw [Cpu.atomicUp, atomic_eq (v := (n + 1 : ℕ)) (.inl rfl) rfl (Int.natCast_nonneg _)]
  cases n with
  | zero => rfl
  | succ n => rfl

/-- `atomic_down` ends a section, with the mask 0 if it is the last one. -/
lemma atomicDown_eq (n s : ℕ) :
    Cpu.atomicDown ⟨(n + 1 : ℕ), s⟩ = ⟨n, if n = 1 then 7 else if n = 0 then 0 else s⟩ := by
  rw [Cpu.atomicDown, atomic_eq (v := n) (.inr rfl) (Int.add_neg_cancel_right n 1) (Int.natCast_nonneg _)]
  rcases n with - | - | n <;> rfl

lemma push_withStack {c : Code Prim} {l : List Frame} :
    (m.withStack l).push c = m.withStack (⟨[c], some m.cpu.mask⟩ :: l) := by
  simp [push, Flow.withStack]

namespace Nested

lemma expand {c : Code Prim} {l : List (Code Prim)} {s : Option ℕ} {b : Bool}
    (h : Nested P (⟨c :: k, s⟩ :: fs) n) (hl : c.expand b = some l) : Nested P (⟨l ++ k, s⟩ :: fs) n := by
  cases h with
  | fresh => cases hl
  | process hk =>
    apply Nested.process
    intro x hx
    rcases List.mem_append.mp hx with hx | hx
    · exact all_expand hl (hk c (by simp)) x hx
    · exact hk x (by simp [hx])
  | frame hn hP hfs => exact .frame (afterAll_expand hl hn) hP hfs

lemma act {s : Option ℕ} (h : Nested P (⟨act x :: k, s⟩ :: fs) n) :
    x = .enter ∧ n = 0 ∧ Nested P (⟨k, s⟩ :: fs) 0 ∨ ∃ e, effect x n = some e ∧ Nested P (⟨k, s⟩ :: fs) e := by
  cases h with
  | fresh =>
    refine .inr ⟨0, rfl, .process ?_⟩
    simp [processBootstrap_all]
  | process hk =>
    have hlater : Nested P [⟨k, none⟩] 0 := .process fun c hc => hk c (by simp [hc])
    have hx : isUser x = true := hk (.act x) (by simp)
    cases x with
    | trap t => exact .inr ⟨0, effect_of_isUser hx, hlater⟩
    | enter => exact .inl ⟨rfl, rfl, hlater⟩
    | _ => cases hx
  | frame hn hP hfs =>
    obtain ⟨i, hi, hn⟩ := afterAll_act.mp hn
    exact .inr ⟨i, hi, .frame hn hP hfs⟩

end Nested

lemma effect_down (h : effect .down n = some e) : n = e + 1 := by
  rw [effect] at h
  split_ifs at h
  have he := Option.some.inj h
  omega

lemma effect_le (ht : t ≠ .atomicUp) (h : effect (.trap t) n = some e) : e ≤ n := by
  cases t with
  | atomicUp => exact absurd rfl ht
  | atomicDown => exact Nat.le_of_lt (effect_down h ▸ Nat.lt_succ_self e)
  | _ => exact (Option.some.inj h).ge

namespace Nests

/-- Only the code of the running process changes. -/
lemma withStack (h : Nests P m n) {l : List Frame} (hl : Nested P l n) : Nests P (m.withStack l) n := by
  constructor
  · exact h.status
  · exact h.pending
  · simpa using hl
  · exact h.mask
  · intro p hp
    rw [withStack_current] at hp
    rw [withStack_stack, Function.update_of_ne hp]
    exact h.waiting p hp

lemma withMask (h : Nests P m n) (hs : P n s) : Nests P (m.withMask s) n :=
  ⟨h.status, h.pending, h.running, hs, h.waiting⟩

/-- A section begins or ends. -/
lemma count (h : Nests P m n) {l : List Frame} (hl : Nested P l e) {c : Cpu} {d : ℤ} (hd : (n : ℤ) + d = e)
    (hc : c.atomicStatus = e) (hmask : P e c.mask) :
    Nests P { (m.withStack l).countPending d with cpu := c } e := by
  constructor
  · exact hc
  · simp [countPending, h.pending, hd]
  · simpa [countPending] using hl
  · exact hmask
  · intro p hp
    have hne : p ≠ m.current := hp
    simpa [countPending, Function.update_of_ne hne] using h.waiting p hne

lemma push (h : Nests P m n) {l : List Frame} (hl : Nested P l e) {c : Code Prim} (hc : c.after effect n = some e)
    (hP : P e m.cpu.mask) : Nests P (m.withStack (⟨[c], some m.cpu.mask⟩ :: l)) n := by
  apply h.withStack
  apply Nested.frame _ hP hl
  simpa using hc

/-- Another process goes on, and ends the section of `proc_switch_handler`. -/
lemma handOver (h : Nests P m 1) {l : List Frame} (hl : Nested P l 1) (p : PcbPtr) :
    Nests P ((m.withStack l).handOver p) 1 := by
  have hpending : ∀ q, Function.update m.pending m.current (m.pending m.current + -1) q = 0 := by
    intro q
    by_cases hq : q = m.current
    · subst hq
      simp [h.pending]
    · rw [Function.update_of_ne hq]
      exact (h.waiting q hq).1
  have hstack : ∀ q, Nested P (Function.update m.stack m.current l q) 1 := by
    intro q
    by_cases hq : q = m.current
    · subst hq
      simpa using hl
    · rw [Function.update_of_ne hq]
      exact (h.waiting q hq).2
  constructor
  · exact h.status
  · simp [Flow.handOver, countPending, hpending]
  · exact hstack p
  · exact h.mask
  · intro q hq
    have hne : q ≠ p := hq
    refine ⟨?_, hstack q⟩
    simp [Flow.handOver, countPending, Function.update_of_ne hne, hpending]

/-- An instruction is executed. -/
lemma perform (hP : Admits P) (h : Nests P m n) {s : Option ℕ} (hs : Nested P (⟨.act x :: k, s⟩ :: fs) n)
    (hx : (m.withStack (⟨k, s⟩ :: fs)).perform x = some m') (hswitch : x = .trap .processSwitch → n = 0)
    (hup : x = .trap .atomicUp → ∀ e, P e m.cpu.mask) : ∃ e, Nests P m' e := by
  rcases hs.act with ⟨rfl, rfl, hlater⟩ | ⟨e, he, hlater⟩
  · obtain rfl := Option.some.inj hx
    exact ⟨0, (h.withStack hlater).withMask (hP.zero 0)⟩
  cases x with
  | up =>
    obtain rfl := Option.some.inj hx
    obtain rfl := Option.some.inj he
    have hcpu : m.cpu = ⟨n, m.cpu.mask⟩ := by rw [← h.status]
    refine ⟨n + 1, h.count hlater rfl ?_ ?_⟩
    · rw [withStack_cpu, hcpu, atomicUp_eq]
    · rw [withStack_cpu, hcpu]
      exact hP.up h.mask
  | down =>
    obtain rfl := Option.some.inj hx
    obtain rfl := effect_down he
    have hcpu : m.cpu = ⟨(e + 1 : ℕ), m.cpu.mask⟩ := by rw [← h.status]
    refine ⟨e, h.count hlater (by omega) ?_ ?_⟩
    · rw [withStack_cpu, hcpu, atomicDown_eq]
    · rw [withStack_cpu, hcpu]
      exact hP.down h.mask
  | trap t =>
    obtain rfl := Option.some.inj hx
    rw [push_withStack]
    refine ⟨n, h.push hlater (after_handler ?_ he) ?_⟩
    · rintro rfl
      exact hswitch rfl
    · by_cases ht : t = .atomicUp
      · exact hup (congrArg Prim.trap ht) e
      · exact hP.le (effect_le ht he) h.mask
  | switch => cases hx
  | enter => cases he

theorem step (hP : Admits P) (h : Nests P m n) (hs : m.Step a m') (houtside : m.Outside a)
    (hup : a = .exec → m.nextTrap = some .atomicUp → ∀ e, P e m.cpu.mask) : ∃ e, Nests P m' e := by
  have hrunning := h.running
  cases Moves.of_step hs with
  | test hstack hl =>
    rw [hstack] at hrunning
    exact ⟨n, h.withStack (hrunning.expand hl)⟩
  | rte hstack =>
    rw [hstack] at hrunning
    cases hrunning with
    | frame hn hPs hfs =>
      obtain rfl := Option.some.inj hn
      exact ⟨n, (h.withStack hfs).withMask hPs⟩
  | perform hstack hx =>
    rw [hstack] at hrunning
    apply h.perform hP hrunning hx
    · rintro rfl
      have hstatus := houtside rfl (by rw [nextTrap, hstack])
      rw [h.status] at hstatus
      exact Int.ofNat_eq_zero.mp hstatus
    · rintro rfl
      exact hup rfl (by rw [nextTrap, hstack])
  | switchTo p hstack =>
    rw [hstack] at hrunning
    rcases hrunning.act with ⟨hx, -⟩ | ⟨e, he, hlater⟩
    · cases hx
    · rw [effect] at he
      split_ifs at he with hn
      obtain rfl := Option.some.inj he
      subst hn
      exact ⟨1, h.handOver hlater p⟩
  | interrupt i hi =>
    refine ⟨n, Nests.withMask ?_ (hP.interrupt h.mask hi)⟩
    exact h.push h.running (after_isr i n) h.mask

lemma start (hP : Admits P) (main : PcbPtr) : Nests P (Flow.start main) 0 := by
  constructor
  · rfl
  · rfl
  · have hmain : (Flow.start main).stack main = [⟨[releaseProcessor], none⟩] := if_pos rfl
    change Nested P ((Flow.start main).stack main) 0
    rw [hmain]
    apply Nested.process
    intro c hc
    rw [List.mem_singleton.mp hc]
    rfl
  · exact hP.zero 0
  · intro p hp
    refine ⟨rfl, ?_⟩
    have hfresh : (Flow.start main).stack p = [⟨[down, processBootstrap], none⟩] := if_neg hp
    rw [hfresh]
    exact .fresh

/-- Without a handler a process is in no section. -/
lemma status_process (h : Nests P m n) (hs : m.stack m.current = [⟨k, none⟩]) (hk : k ≠ [down, processBootstrap]) :
    m.cpu.atomicStatus = 0 := by
  have hrunning := h.running
  rw [hs] at hrunning
  rw [h.status]
  cases hrunning with
  | fresh => exact absurd rfl hk
  | process => rfl

end Nests

/-! ### Runs -/

/-- `main` starts the process 4, which calls `receive_message`, finds none and is about to be blocked. -/
def receiveMoves : List Move :=
  [.exec, .test true, .exec, .test true, .switchTo 4, .exec, .test true, .exec, .test true, .test true, .test false,
    .test false, .test false, .test false, .test true, .exec, .test true, .exec, .test false, .test true, .exec,
    .test true]

/-- It is blocked, and process 1 is started. -/
def blockMoves : List Move :=
  [.exec, .exec, .exec, .test false, .test false, .test true, .test true, .exec, .exec, .exec, .exec, .test true, .exec,
    .test true, .switchTo 1, .exec, .test true, .exec]

/-- A character arrives, and the UART handler gets a block for it, sends it and wakes the process 4. -/
def uartMoves : List Move :=
  [.interrupt .uart, .test true, .exec, .test false, .test true, .exec, .test true, .exec, .test true, .test false,
    .exec, .exec, .exec, .exec, .test true, .exec, .test true, .exec, .test false, .test false, .test true, .exec,
    .test true, .exec, .exec, .exec, .test false, .test false, .test true, .test true, .exec, .exec, .exec, .exec,
    .test true, .exec, .test true]

/-! ### The sections of the process that runs -/

/-- `atomic_up` or `atomic_down` is called. -/
def Calls (m : Flow) (x : Prim) (m' : Flow) : Prop :=
  m.Step .exec m' ∧ ∃ k s fs, m.stack m.current = ⟨act x :: k, s⟩ :: fs

lemma Calls.up (h : m.Calls .up m') : m'.cpu = m.cpu.atomicUp := by
  obtain ⟨hs, k, s, fs, hstack⟩ := h
  rw [Step, step, hstack] at hs
  obtain rfl := Option.some.inj hs
  rfl

lemma Calls.down (h : m.Calls .down m') :
    m'.cpu = m.cpu.atomicDown ∧ m'.pending m.current = m.pending m.current - 1 := by
  obtain ⟨hs, k, s, fs, hstack⟩ := h
  rw [Step, step, hstack] at hs
  obtain rfl := Option.some.inj hs
  exact ⟨rfl, Function.update_self ..⟩

lemma Nests.of_run (h : Run StepOutside (Flow.start main) as m) : ∃ n, Nests (fun _ _ => True) m n := by
  have hP : Admits fun _ _ => True := by
    constructor <;> intros <;> trivial
  apply h.invariant (I := fun m => ∃ n, Nests (fun _ _ => True) m n)
  · exact ⟨0, .start hP main⟩
  · rintro m a m' ⟨n, hn⟩ ⟨hs, houtside⟩
    apply hn.step hP hs houtside
    intros
    trivial

/-- If the processor is released outside of the critical sections only, then `atomic_status` is the number of sections
that the handlers of the running process have begun and not ended. It is 0 in the code of a process, so that the
handlers of its traps take it from 0 to 1 and back. -/
theorem nesting_not_carried (h : Run StepOutside (start main) as m) :
    m.cpu.atomicStatus = m.pending m.current ∧
      (∀ k, m.stack m.current = [⟨k, none⟩] → k ≠ [down, processBootstrap] → m.cpu.atomicStatus = 0) ∧
      (∀ m', m.Calls .up m' → m.pending m.current = 0 → m.cpu.atomicStatus = 0 ∧ m'.cpu.atomicStatus = 1) ∧
      ∀ m', m.Calls .down m' → m'.pending m.current = 0 → m.cpu.atomicStatus = 1 ∧ m'.cpu.atomicStatus = 0 := by
  obtain ⟨n, hn⟩ := Nests.of_run h
  have hstatus : m.cpu.atomicStatus = m.pending m.current := hn.status.trans hn.pending.symm
  refine ⟨hstatus, fun k => hn.status_process, ?_, ?_⟩
  · intro m' hcall hzero
    rw [hzero] at hstatus
    have hcpu : m.cpu = ⟨(0 : ℕ), m.cpu.mask⟩ := by rw [Int.ofNat_zero, ← hstatus]
    refine ⟨hstatus, ?_⟩
    rw [hcall.up, hcpu, atomicUp_eq]
    rfl
  · intro m' hcall hzero
    obtain ⟨hdown, hpending⟩ := hcall.down
    have hone : m.cpu.atomicStatus = 1 := by omega
    have hcpu : m.cpu = ⟨(0 + 1 : ℕ), m.cpu.mask⟩ := by rw [Nat.zero_add, Int.ofNat_one, ← hone]
    refine ⟨hone, ?_⟩
    rw [hdown, hcpu, atomicDown_eq]
    rfl

/-- The first process blocks, and the next one is started outside of all sections. -/
theorem nesting_not_carried_blocked : ∃ m, Run StepOutside (start 15) (receiveMoves ++ blockMoves) m ∧
    m.current = 1 ∧ m.cpu.atomicStatus = m.pending 1 := by
  obtain ⟨m, hrun, hcheck⟩ := Run.exists_allowed step Outside (start 15) (receiveMoves ++ blockMoves)
    (fun m => m.current = 1) (by decide +kernel)
  have hcurrent : m.current = 1 := of_decide_eq_true hcheck
  have hstatus := (nesting_not_carried hrun).1
  rw [hcurrent] at hstatus
  exact ⟨m, hrun, hcurrent, hstatus⟩

/-- The UART handler releases the processor in its own section. -/
theorem nesting_carried : ¬ ∀ main as m p m₁ m', Run Step (start main) as m → m.Step (.switchTo p) m₁ →
    m₁.Step .exec m' → m'.cpu.atomicStatus = m'.pending p := by
  intro hall
  obtain ⟨m, hrun, hcheck⟩ := Run.exists_allowed step (fun _ _ => True) (start 15)
    (receiveMoves ++ blockMoves ++ uartMoves)
    (fun m => (m.step (.switchTo 4)).any fun m₁ => (m₁.step .exec).any fun m' =>
      m'.cpu.atomicStatus = 1 ∧ m'.pending 4 = 0) (by decide +kernel)
  obtain ⟨m₁, hm₁, hcheck⟩ := (Option.any_eq_true _ _).mp hcheck
  obtain ⟨m', hm', hcheck⟩ := (Option.any_eq_true _ _).mp hcheck
  obtain ⟨hstatus, hpending⟩ := of_decide_eq_true hcheck
  have hsame := hall 15 _ m 4 m₁ m' (hrun.mono fun _ _ _ hs => hs.1) hm₁ hm'
  rw [hstatus, hpending] at hsame
  cases hsame

/-! ### Masked interrupts -/

/-- In a section the mask is 7. -/
def InSection (n s : ℕ) : Prop := 0 < n → s = 7

lemma Irq.level_le (i : Irq) : i.level ≤ 6 := by cases i <;> decide

lemma admits_inSection : Admits InSection where
  zero _ h := absurd h (Nat.lt_irrefl 0)
  le hle h hpos := h (Nat.lt_of_lt_of_le hpos hle)
  up := by
    intro n s h _
    rw [atomicUp_eq]
    cases n with
    | zero => rfl
    | succ n => exact h (Nat.succ_pos n)
  down := by
    intro n s h hpos
    have hs := h (Nat.succ_pos n)
    rw [atomicDown_eq, hs, if_neg hpos.ne']
    exact ite_self 7
  interrupt := by
    intro n s i h hlt hpos
    have hs := h hpos
    have hle := Irq.level_le i
    omega

lemma Nests.of_masked (h : Run StepMasked (Flow.start main) as m) : ∃ n, Nests InSection m n := by
  apply h.invariant (I := fun m => ∃ n, Nests InSection m n)
  · exact ⟨0, .start admits_inSection main⟩
  · rintro m a m' ⟨n, hn⟩ ⟨hs, houtside, hmasked⟩
    apply hn.step admits_inSection hs houtside
    intro ha ht _ _
    exact hmasked ha ht

lemma exists_of_nextTrap (h : m.nextTrap = some t) : ∃ k s fs, m.stack m.current = ⟨trap t :: k, s⟩ :: fs := by
  rw [nextTrap] at h
  split at h
  · obtain rfl := Option.some.inj h
    exact ⟨_, _, _, ‹_›⟩
  · cases h

/-- The RTE behind `atomic_up` restores the mask. -/
lemma unmasked_of_trapUp (ht : m.nextTrap = some .atomicUp) :
    ∃ m', Run Step m [.exec, .exec, .exec] m' ∧ m'.cpu = ⟨m.cpu.atomicUp.atomicStatus, m.cpu.mask⟩ := by
  obtain ⟨k, s, fs, hstack⟩ := exists_of_nextTrap ht
  have hpush : m.Step .exec (m.withStack (⟨[up], some m.cpu.mask⟩ :: ⟨k, s⟩ :: fs)) := by
    rw [Step, step, hstack, ← push_withStack]
    rfl
  have hup : (m.withStack (⟨[up], some m.cpu.mask⟩ :: ⟨k, s⟩ :: fs)).Step .exec
      { (m.withStack (⟨[], some m.cpu.mask⟩ :: ⟨k, s⟩ :: fs)).countPending 1 with cpu := m.cpu.atomicUp } := by
    simp [Step, step, up, perform, countPending, Flow.withStack]
  have hrte : Step { (m.withStack (⟨[], some m.cpu.mask⟩ :: ⟨k, s⟩ :: fs)).countPending 1 with cpu := m.cpu.atomicUp }
      .exec ({ (m.withStack (⟨k, s⟩ :: fs)).countPending 1 with cpu := m.cpu.atomicUp }.withMask m.cpu.mask) := by
    simp [Step, step, countPending, Flow.withStack, Flow.withMask]
  exact ⟨_, ((Run.single hpush).snoc hup).snoc hrte, rfl⟩

/-- If moreover TRAP #1 is used with interrupts disabled only, then interrupts are disabled in all sections. Used
otherwise it begins a section with interrupts enabled. -/
theorem sections_masked (h : Run StepMasked (start main) as m) :
    (0 < m.cpu.atomicStatus → m.cpu.mask = 7 ∧ ∀ i, m.step (.interrupt i) = none) ∧
      (m.nextTrap = some .atomicUp → m.cpu.mask ≠ 7 →
        ∃ m', Run Step m [.exec, .exec, .exec] m' ∧ 0 < m'.cpu.atomicStatus ∧ m'.cpu.mask ≠ 7) := by
  obtain ⟨n, hn⟩ := Nests.of_masked h
  constructor
  · intro hpos
    rw [hn.status] at hpos
    have hmask := hn.mask (Int.natCast_pos.mp hpos)
    refine ⟨hmask, ?_⟩
    intro i
    rw [step, hmask, if_neg]
    have hle := Irq.level_le i
    omega
  · intro ht hmask
    obtain ⟨m', hrun, hcpu⟩ := unmasked_of_trapUp ht
    have hstatus : m.cpu.atomicUp.atomicStatus = (n + 1 : ℕ) := by
      have hm : m.cpu = ⟨n, m.cpu.mask⟩ := by rw [← hn.status]
      rw [hm, atomicUp_eq]
    refine ⟨m', hrun, ?_⟩
    rw [hcpu, hstatus]
    exact ⟨Int.natCast_pos.mpr (Nat.succ_pos n), hmask⟩

/-- The handler of `receive_message` has begun its section. -/
theorem sections_masked_receive : ∃ m, Run StepMasked (start 15) (receiveMoves.take 18) m ∧
    0 < m.cpu.atomicStatus ∧ m.cpu.mask = 7 := by
  obtain ⟨m, hrun, hcheck⟩ := Run.exists_allowed step (fun m a => m.Outside a ∧ m.Masked a)
    (start 15) (receiveMoves.take 18) (fun m => 0 < m.cpu.atomicStatus) (by decide +kernel)
  have hpos : 0 < m.cpu.atomicStatus := of_decide_eq_true hcheck
  exact ⟨m, hrun, hpos, ((sections_masked hrun).1 hpos).1⟩

/-- The section of `block_process` is interrupted by the timer. -/
theorem sections_interrupted : ¬ ∀ main as m, Run Step (start main) as m → 0 < m.cpu.atomicStatus →
    m.cpu.mask = 7 ∧ ∀ i, m.step (.interrupt i) = none := by
  intro hall
  obtain ⟨m, hrun, hcheck⟩ := Run.exists_allowed step (fun _ _ => True) (start 15)
    (receiveMoves ++ [.exec, .exec, .exec])
    (fun m => 0 < m.cpu.atomicStatus ∧ (m.step (.interrupt .timer)).isSome) (by decide +kernel)
  obtain ⟨hpos, hsome⟩ := of_decide_eq_true hcheck
  have hnone := (hall 15 _ m (hrun.mono fun _ _ _ hs => hs.1) hpos).2 .timer
  rw [hnone] at hsome
  cases hsome

end Flow

end RtxKernel
