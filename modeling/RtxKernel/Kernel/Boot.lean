import RtxKernel.Kernel.Refinement
import RtxKernel.Memory.Invariant
import RtxKernel.Core.Wake

/-!
# Start-up

`initialize_processes` and `main`: the NULL process, the processes of the kernel and the six test
processes are created in order of their PCBs, and `main` gives the CPU to the first of them. The
parameter `priority` are the priorities registered in `g_test_proc`, and `base` is the address at
which `init_memory` finds the heap. `uart_init`, `regcmd_init` and `init_timer` set up devices and
lists that the operations here do not use, apart from `ticks`.
-/

namespace RtxKernel

open Spec (Sched)

/-- The pids and priorities in the order of the calls of `create_pib`. -/
def initBlocks (priority : Fin 6 → UInt8) : List (UInt32 × UInt32) :=
  [(0, 4), (7, 3), (8, 2), (9, 1), (kcdPid, 0), (11, 0), (uartPid, 0), (60, 0), (80, 0)] ++
    (List.finRange 6).map fun i => (UInt32.ofNat (i.val + 1), (priority i).toUInt32)

namespace Scheduler

/-- The queues after the loop of `main` that clears them, before any PCB exists. -/
def empty : Scheduler where
  pcb _ := ⟨0, .new, 0, none⟩
  pcbCount := 0
  queue _ _ := none
  runningProcess := none
  mainProcess := 0
  live := ∅

/-- One turn of the loop of `initialize_processes` over the init blocks. -/
def createProcess (s : Scheduler) (x : UInt32 × UInt32) : Option Scheduler :=
  let p := s.pcbCount
  let s := s.setPcb p ⟨x.1, .new, x.2, none⟩
  { s with pcbCount := p + 1, live := insert p s.live }.enqueueProcess .ready p

/-- `initialize_processes` -/
def initializeProcesses (priority : Fin 6 → UInt8) : Option Scheduler := do
  let s ← (initBlocks priority).foldlM createProcess empty
  let main := s.pcbCount
  let s := s.setPcb main ⟨noPid, .ready, noPid, none⟩
  return { s with pcbCount := main + 1, mainProcess := main }

end Scheduler

/-- `main`, up to the return of its `release_processor()` in the first process. -/
def boot (priority : Fin 6 → UInt8) (base : Nat) : Option Kernel := do
  let s ← Scheduler.initializeProcesses priority
  let s ← { s with runningProcess := some s.mainProcess }.procSwitchHandler
  return ⟨s, Pool.initMemory base, fun _ => none, fun _ => none, 0⟩

/-- A history that starts with start-up is obtained by evaluating its operations. The test `check`
is made of the history and its last state. -/
lemma exists_run_of_boot (allowed : Kernel → Op → Prop) [∀ k op, Decidable (allowed k op)]
    (priority : Fin 6 → UInt8) (base : Nat) (ops : List Op) (check : List Event → Kernel → Bool)
    (h : ((boot priority base).any fun k =>
      (k.runOps allowed ops).any fun x => check x.1 x.2) = true) :
    ∃ k₀ es k, boot priority base = some k₀ ∧ Run (Kernel.StepIf allowed) k₀ es k ∧
      es.map Event.op = ops ∧ check es k = true := by
  obtain ⟨k₀, hk₀, h⟩ := (Option.any_eq_true _ _).mp h
  obtain ⟨⟨es, k⟩, hk, hc⟩ := (Option.any_eq_true _ _).mp h
  exact ⟨k₀, es, k, hk₀, Kernel.run_of_runOps hk, Kernel.ops_of_runOps hk, hc⟩

/-! ### Creating the processes -/

/-- The scheduler after the processes `l` have been created. -/
structure Created (l : List (UInt32 × UInt32)) (s : Scheduler) (a : Sched) : Prop where
  rep : Rep s a
  count : a.count = l.length
  live : a.live = Finset.range l.length
  running : a.running = none
  fields : ∀ n x, l[n]? = some x → (a.pid n, a.priority n) = x ∧ a.state n = .new
  mem_queue : ∀ q i p, p ∈ a.queue q i ↔ p < l.length ∧ q = .ready ∧ i = a.level p
  nodup : ∀ q i, (a.queue q i).Nodup

/-- The abstract scheduler with one more process, which is not in a queue yet. -/
def Spec.Sched.create (a : Sched) (x : UInt32 × UInt32) : Sched :=
  { a with
    pid := Function.update a.pid a.count x.1
    state := Function.update a.state a.count .new
    priority := Function.update a.priority a.count x.2
    count := a.count + 1
    live := insert a.count a.live }

namespace Created

variable {l : List (UInt32 × UInt32)} {s : Scheduler} {a : Sched} {x : UInt32 × UInt32}

lemma empty : Created [] Scheduler.empty
    ⟨fun _ => 0, fun _ => .new, fun _ => 0, 0, fun _ _ => [], none, 0, ∅⟩ where
  rep := ⟨fun _ => rfl, fun _ => rfl, fun _ => rfl, rfl, rfl, rfl, rfl, fun _ _ => rfl⟩
  count := rfl
  live := rfl
  running := rfl
  fields := by simp
  mem_queue := by simp
  nodup := by simp

lemma state_new (h : Created l s a) {p : PcbPtr} (hp : p < l.length) : a.state p = .new :=
  (h.fields p l[p] (List.getElem?_eq_getElem hp)).2

/-- A new PCB is in no queue, so its fields can be written. -/
lemma create (h : Created l s a) (x : UInt32 × UInt32) :
    Rep { s.setPcb l.length ⟨x.1, .new, x.2, none⟩ with
        pcbCount := l.length + 1, live := insert l.length s.live } (a.create x) ∧
      (a.create x).Placed ∧ ∀ q i, l.length ∉ (a.create x).queue q i := by
  have hne : ∀ q i p, p ∈ a.queue q i → p ≠ l.length := by
    rintro q i p hp rfl
    exact Nat.lt_irrefl _ ((h.mem_queue q i _).mp hp).1
  refine ⟨⟨fun p => ?_, fun p => ?_, fun p => ?_, ?_, h.rep.running, h.rep.main, ?_, fun q i => ?_⟩,
    ⟨?_, ?_⟩, fun q i hp => hne q i _ hp rfl⟩
  · by_cases hp : p = l.length <;> simp [Scheduler.setPcb, Sched.create, h.count, hp, h.rep.pid]
  · by_cases hp : p = l.length <;> simp [Scheduler.setPcb, Sched.create, h.count, hp, h.rep.state]
  · by_cases hp : p = l.length <;> simp [Scheduler.setPcb, Sched.create, h.count, hp, h.rep.priority]
  · simp [Sched.create, h.count]
  · simp [Sched.create, h.count, h.rep.live]
  · refine (Chain.congr fun p hp => ?_).mpr (h.rep.chain q i)
    simp [Scheduler.next, Scheduler.setPcb, hne q i p hp]
  · intro q i p hp
    obtain ⟨hlt, rfl, rfl⟩ := (h.mem_queue q i p).mp hp
    have hpn := hne _ _ p hp
    simp [Sched.create, Sched.level, h.count, hpn, h.state_new hlt, ProcessState.queue]
  · intro q i p hp
    have hlt := ((h.mem_queue q i p).mp hp).1
    simp only [Sched.create, h.count]
    exact Nat.lt_succ_of_lt hlt

lemma createProcess (h : Created l s a) (x : UInt32 × UInt32) :
    ∃ s' a', s.createProcess x = some s' ∧ Created (l ++ [x]) s' a' := by
  obtain ⟨hrep, hpl, hnot⟩ := h.create x
  obtain ⟨s', hs', hrep'⟩ := hrep.enqueueProcess hpl hnot .ready
  have hcount : s.pcbCount = l.length := h.rep.count.trans h.count
  have hlev : ∀ p, (a.create x).level p = if p = l.length then x.2.toNat else a.level p := by
    intro p
    by_cases hp : p = l.length <;> simp [Sched.create, Sched.level, h.count, hp]
  refine ⟨s', (a.create x).enqueue .ready l.length, ?_, hrep', ?_, ?_, ?_, fun n y hy => ?_,
    fun q i p => ?_, fun q i => ?_⟩
  · rw [Scheduler.createProcess, hcount]
    exact hs'
  · simp [Sched.enqueue, Sched.create, h.count]
  · simp [Sched.enqueue, Sched.create, h.count, h.live, Finset.range_add_one]
  · simpa [Sched.enqueue, Sched.create] using h.running
  · rcases Nat.lt_trichotomy n l.length with hn | rfl | hn
    · rw [List.getElem?_append_left hn] at hy
      have hf := h.fields n y hy
      simpa [Sched.enqueue, Sched.create, h.count, Nat.ne_of_lt hn] using hf
    · obtain rfl : x = y := by simpa using hy
      simp [Sched.enqueue, Sched.create, h.count]
    · rw [List.getElem?_eq_none (by simp; omega)] at hy
      cases hy
  · simp only [Sched.enqueue, Sched.setQueue_queue, Sched.setQueue_level, hlev, if_true]
    have hq : (a.create x).queue = a.queue := rfl
    rw [hq]
    by_cases hp : p = l.length
    · subst hp
      rw [if_pos rfl]
      split_ifs with hqi
      · simp [hqi]
      · refine ⟨fun hq' => absurd hq' (hnot q i), fun hqi' => absurd hqi'.2 hqi⟩
    · have hmem := h.mem_queue q i p
      have hlt : p < (l ++ [x]).length ↔ p < l.length := by
        rw [List.length_append, List.length_singleton, Nat.lt_succ_iff_lt_or_eq]
        simp [hp]
      rw [if_neg hp, hlt, ← hmem]
      split_ifs with hqi
      · obtain ⟨rfl, rfl⟩ := hqi
        simp [hp]
      · rfl
  · simp only [Sched.enqueue, Sched.setQueue_queue]
    split_ifs
    · refine (h.nodup _ _).append (List.nodup_singleton _) ?_
      rw [List.disjoint_singleton]
      exact hnot _ _
    · exact h.nodup q i

lemma foldlM (h : Created l s a) (l' : List (UInt32 × UInt32)) :
    ∃ s' a', l'.foldlM Scheduler.createProcess s = some s' ∧ Created (l ++ l') s' a' := by
  induction l' generalizing l s a with
  | nil => exact ⟨s, a, rfl, by simpa using h⟩
  | cons x l' ih =>
    obtain ⟨s₁, a₁, hs₁, h₁⟩ := h.createProcess x
    obtain ⟨s₂, a₂, hs₂, h₂⟩ := ih h₁
    refine ⟨s₂, a₂, ?_, by simpa using h₂⟩
    rw [List.foldlM_cons, hs₁]
    exact hs₂

end Created

/-! ### The state in which the first process runs -/

lemma length_initBlocks (priority : Fin 6 → UInt8) : (initBlocks priority).length = 15 := rfl

/-- The pids are distinct. -/
lemma nodup_pid_initBlocks (priority : Fin 6 → UInt8) :
    ((initBlocks priority).map Prod.fst).Nodup := by
  have hpid : (initBlocks priority).map Prod.fst = [0, 7, 8, 9, 10, 11, 12, 60, 80, 1, 2, 3, 4, 5, 6] := rfl
  rw [hpid]
  decide

lemma priority_initBlocks {priority : Fin 6 → UInt8} {x : UInt32 × UInt32}
    (hx : x ∈ initBlocks priority) :
    x = (0, 4) ∨ x.2 ≤ 3 ∨ ∃ i, x.2 = (priority i).toUInt32 := by
  rcases List.mem_append.mp hx with hx | hx
  · have hfixed : [((0 : UInt32), (4 : UInt32)), (7, 3), (8, 2), (9, 1), (kcdPid, 0), (11, 0),
        (uartPid, 0), (60, 0), (80, 0)].all (fun y => y = (0, 4) ∨ y.2 ≤ 3) = true := by decide
    have hx' : x = (0, 4) ∨ x.2 ≤ 3 := by simpa using List.all_eq_true.mp hfixed x hx
    exact hx'.imp_right .inl
  · obtain ⟨i, -, rfl⟩ := List.mem_map.mp hx
    exact .inr (.inr ⟨i, rfl⟩)

lemma priority_lt_five {priority : Fin 6 → UInt8} (hp : ∀ i, priority i ≤ 4)
    {x : UInt32 × UInt32} (hx : x ∈ initBlocks priority) : x.2.toNat < 5 := by
  rcases priority_initBlocks hx with rfl | hx | ⟨i, hi⟩
  · decide
  · exact Nat.lt_of_le_of_lt (UInt32.le_iff_toNat_le.mp hx) (by decide)
  · rw [hi, UInt8.toNat_toUInt32]
    exact Nat.lt_of_le_of_lt (UInt8.le_iff_toNat_le.mp (hp i)) (by decide)

/-- The abstract scheduler with the PCB of `main`. -/
def Spec.Sched.addMain (a : Sched) : Sched :=
  { a with
    pid := Function.update a.pid a.count noPid
    state := Function.update a.state a.count .ready
    priority := Function.update a.priority a.count noPid
    count := a.count + 1
    main := a.count }

namespace Created

variable {priority : Fin 6 → UInt8} {l : List (UInt32 × UInt32)} {s : Scheduler} {a : Sched}

lemma addMain (h : Created l s a) :
    Rep { s.setPcb l.length ⟨noPid, .ready, noPid, none⟩ with
      pcbCount := l.length + 1, mainProcess := l.length } a.addMain := by
  refine ⟨fun p => ?_, fun p => ?_, fun p => ?_, ?_, h.rep.running, ?_, h.rep.live, fun q i => ?_⟩
  · by_cases hp : p = l.length <;> simp [Scheduler.setPcb, Sched.addMain, h.count, hp, h.rep.pid]
  · by_cases hp : p = l.length <;> simp [Scheduler.setPcb, Sched.addMain, h.count, hp, h.rep.state]
  · by_cases hp : p = l.length <;>
      simp [Scheduler.setPcb, Sched.addMain, h.count, hp, h.rep.priority]
  · simp [Sched.addMain, h.count]
  · simp [Sched.addMain, h.count]
  · refine (Chain.congr fun p hp => ?_).mpr (h.rep.chain q i)
    have hne : p ≠ l.length := by
      rintro rfl
      exact Nat.lt_irrefl _ ((h.mem_queue q i _).mp hp).1
    simp [Scheduler.next, Scheduler.setPcb, hne]

lemma mem_live (h : Created l s a) {p : PcbPtr} : p ∈ a.addMain.live ↔ p < l.length := by
  simp [Sched.addMain, h.live]

/-- The fields of a process are those of its init block. -/
lemma fields_addMain (h : Created l s a) {p : PcbPtr} (hp : p < l.length) :
    (a.addMain.pid p, a.addMain.priority p) = l[p] ∧ a.addMain.state p = .new := by
  have hf := h.fields p l[p] (List.getElem?_eq_getElem hp)
  simpa [Sched.addMain, h.count, Nat.ne_of_lt hp] using hf

/-- With all processes created, and before one of them runs, every process is filed. -/
lemma wf (h : Created (initBlocks priority) s a) (hprio : ∀ i, priority i ≤ 4) : a.addMain.WF where
  mem_queue q i p := by
    have hq : a.addMain.queue = a.queue := rfl
    rw [hq, h.mem_queue q i p, h.mem_live]
    refine and_congr_right fun hp => ?_
    have hlev : a.addMain.level p = a.level p := by
      simp [Sched.addMain, Sched.level, h.count, Nat.ne_of_lt hp]
    rw [(h.fields_addMain hp).2, hlev]
    simp [ProcessState.queue]
  nodup := h.nodup
  bound p hp := by
    rw [h.mem_live] at hp
    simp only [Sched.addMain, h.count]
    exact Nat.lt_succ_of_lt hp
  level_lt p hp := by
    rw [h.mem_live] at hp
    have hlt := priority_lt_five hprio (List.getElem_mem hp)
    rwa [← (h.fields_addMain hp).1] at hlt
  pid_inj p hp x hx hpx := by
    rw [h.mem_live] at hp hx
    have hnd := nodup_pid_initBlocks priority
    have hp' : p < ((initBlocks priority).map Prod.fst).length := by simpa using hp
    have hx' : x < ((initBlocks priority).map Prod.fst).length := by simpa using hx
    have hpid : ((initBlocks priority).map Prod.fst)[p] = ((initBlocks priority).map Prod.fst)[x] := by
      rw [List.getElem_map, List.getElem_map, ← (h.fields_addMain hp).1, ← (h.fields_addMain hx).1]
      exact hpx
    exact hnd.getElem_inj_iff.mp hpid
  running_live r hr := by
    rw [Sched.addMain, h.running] at hr
    cases hr
  started r hr := by
    rw [Sched.addMain, h.running] at hr
    cases hr
  main_notMem := by
    rw [h.mem_live]
    simp [Sched.addMain, h.count]
  null := by
    have h0 : 0 < (initBlocks priority).length := by rw [length_initBlocks]; omega
    obtain ⟨hf, hs⟩ := h.fields_addMain h0
    obtain ⟨hpid, hpr⟩ := Prod.mk.inj hf
    exact ⟨0, h.mem_live.mpr h0, hpid, hpr, by rw [hs]; rfl⟩

end Created

/-- The first `release_processor()`: `main` is not filed when it leaves the CPU. -/
lemma Created.start {priority : Fin 6 → UInt8} {s : Scheduler} {a : Sched}
    (h : Created (initBlocks priority) s a) (hprio : ∀ i, priority i ≤ 4) :
    ∃ t b r, Scheduler.procSwitchHandler
        { s.setPcb (initBlocks priority).length ⟨noPid, .ready, noPid, none⟩ with
          pcbCount := (initBlocks priority).length + 1
          mainProcess := (initBlocks priority).length
          runningProcess := some (initBlocks priority).length } = some t ∧
      Rep t b ∧ b.Settled r ∧ a.addMain.Frame b ∧ a.addMain.Wakes b := by
  have hw := h.wf hprio
  have hrep := h.addMain.setRunning (some (initBlocks priority).length)
  obtain ⟨r, hr⟩ := hw.dispatch h.running
  rw [← Sched.dispatch_setRunning (some (initBlocks priority).length)] at hr
  refine ⟨_, _, r, ?_, hrep.dispatch ⟨hw.placed.home, hw.placed.bound⟩, hr,
    ⟨Sched.Frame.dispatch.pid, Sched.Frame.dispatch.live, Sched.Frame.dispatch.priority⟩,
    (Sched.Wakes.setRunning _ _).trans (.dispatch _)⟩
  simp [Scheduler.procSwitchHandler, Scheduler.suspendRunning]

/-- The state after start-up: every process lives and none is blocked, the most urgent one runs, nothing is in
a mailbox and no block is in use. -/
structure Spec.Kernel.Fresh (priority : Fin 6 → UInt8) (a : Spec.Kernel) (r : PcbPtr) : Prop where
  urgent : a.sched.Urgent r
  lives : ∀ x ∈ initBlocks priority, ∃ p ∈ a.sched.live, a.sched.pid p = x.1
  mailbox : a.mailbox = []
  delayed : a.delayed = []
  used : a.pool.used = []
  ticks : a.ticks = 0
  priority : ∀ p ∈ a.sched.live, a.sched.pid p = 0 ∨ a.sched.priority p ≤ 3 ∨
    ∃ i, a.sched.priority p = (priority i).toUInt32
  awake : ∀ p ∈ a.sched.live, (a.sched.state p).isBlocked = false

theorem boot_ok {priority : Fin 6 → UInt8} (hprio : ∀ i, priority i ≤ 4) (base : Nat) :
    ∃ k a r, boot priority base = some k ∧ KernelRep k a ∧ a.Ok base r ∧ a.Fresh priority r := by
  obtain ⟨s, a, hs, hc⟩ := Created.empty.foldlM (initBlocks priority)
  rw [List.nil_append] at hc
  obtain ⟨t, b, r, ht, hrep, hr, hf, hw⟩ := hc.start hprio
  obtain ⟨p, hp, hpw, hav, hus, -⟩ := poolRep_initMemory base
  have hfields : ∀ x ∈ b.live, ∃ h : x < (initBlocks priority).length,
      (a.addMain.pid x, a.addMain.priority x) = (initBlocks priority)[x] ∧
        a.addMain.state x = .new := by
    intro x hx
    have hlt := hc.mem_live.mp (hf.live hx)
    exact ⟨hlt, hc.fields_addMain hlt⟩
  refine ⟨⟨t, Pool.initMemory base, fun _ => none, fun _ => none, 0⟩, ⟨b, p, [], [], 0⟩, r, ?_,
    ⟨hrep, hp, .empty, .empty, rfl⟩, ⟨hr.toSteady, hpw, by simp, by simp⟩,
    hr.urgent, ?_, rfl, rfl, hus, rfl, ?_, ?_⟩
  · have hcount : s.pcbCount = (initBlocks priority).length := hc.rep.count.trans hc.count
    rw [boot, Scheduler.initializeProcesses]
    simp only [hs, hcount, Option.bind_eq_bind, Option.bind_some, Option.pure_def]
    exact congrArg (Option.bind · _) ht
  · intro x hx
    obtain ⟨n, hn, rfl⟩ := List.getElem_of_mem hx
    refine ⟨n, ?_, ?_⟩
    · rw [hw.live]
      exact hc.mem_live.mpr hn
    · rw [hf.pid]
      exact congrArg Prod.fst (hc.fields_addMain hn).1
  · intro x hx
    obtain ⟨hlt, hfx, -⟩ := hfields x hx
    obtain ⟨hpid, hpr⟩ := Prod.mk.inj hfx
    have hinit := priority_initBlocks (List.getElem_mem hlt)
    dsimp only
    rw [hf.pid]
    rcases hf.priority x with hpx | hpx
    · rw [hpx]
      rcases hinit with hx0 | hx3 | ⟨i, hxi⟩
      · exact .inl (hpid.trans (congrArg Prod.fst hx0))
      · exact .inr (.inl (hpr ▸ hx3))
      · exact .inr (.inr ⟨i, hpr.trans hxi⟩)
    · exact .inr (.inl hpx)
  · intro x hx
    obtain ⟨-, -, hnew⟩ := hfields x hx
    apply hw.awake
    rw [hnew]
    rfl

end RtxKernel
