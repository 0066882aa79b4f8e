import RtxKernel.Core.Refinement

/-!
# Who is started

`proc_switch_handler` starts a process that is `new`, with `process_bootstrap`, and lets any other one go
on. `s.dispatched` is what it does in the state `s`. No other function of the scheduler makes a process
`new`, or takes this state from it (`SameNew`).
-/

namespace RtxKernel

/-- The CPU is handed to a process, which is started if `bootstrap` is set. -/
structure Dispatch where
  process : PcbPtr
  bootstrap : Bool
  deriving DecidableEq

namespace Scheduler

variable {s s' s'' : Scheduler} {p r : PcbPtr} {q : QueueName} {t : BlockType}

/-- What the second part of `proc_switch_handler` does. -/
def picked (s : Scheduler) : Dispatch :=
  let (p, s) := s.dequeueProcess .ready
  let r := p.getD s.mainProcess
  ⟨r, (s.pcb r).state = .new⟩

/-- What `proc_switch_handler` does. -/
def dispatched (s : Scheduler) : Option Dispatch := do return (← s.suspendRunning).picked

/-- The scheduler with which `release_processor()` is called, if the flag is set. -/
def onRelease (x : Bool × Scheduler) : Option Scheduler := if x.1 then some x.2 else none

/-- The same processes are `new`, and the same one runs. -/
structure SameNew (s s' : Scheduler) : Prop where
  iff : ∀ p, (s'.pcb p).state = .new ↔ (s.pcb p).state = .new
  running : s'.runningProcess = s.runningProcess

namespace SameNew

lemma refl (s : Scheduler) : s.SameNew s := ⟨fun _ => Iff.rfl, rfl⟩

lemma trans (h : s.SameNew s') (h' : s'.SameNew s'') : s.SameNew s'' :=
  ⟨fun p => (h'.iff p).trans (h.iff p), h'.running.trans h.running⟩

lemma of_sameData (h : s.SameData s') : s.SameNew s' := by
  refine ⟨?_, h.running⟩
  intro p
  rw [h.pcb p]

lemma setNext (s : Scheduler) (p : PcbPtr) (v : Option PcbPtr) : s.SameNew (s.setNext p v) :=
  of_sameData (sameData_setNext ..)

lemma setHead (s : Scheduler) (q : QueueName) (i : Nat) (v : Option PcbPtr) :
    s.SameNew (s.setHead q i v) := of_sameData (sameData_setHead ..)

lemma setPriority (s : Scheduler) (p : PcbPtr) (v : UInt32) : s.SameNew (s.setPriority p v) := by
  refine ⟨?_, rfl⟩
  intro x
  by_cases hx : x = p
  · simp [Scheduler.setPriority, setPcb, hx]
  · simp [Scheduler.setPriority, setPcb, hx]

/-- A process that was started gets another state. -/
lemma setState (hp : (s.pcb p).state ≠ .new) {v : ProcessState} (hv : v ≠ .new) :
    s.SameNew (s.setState p v) := by
  refine ⟨?_, rfl⟩
  intro x
  by_cases hx : x = p
  · subst hx
    simp [Scheduler.setState, setPcb, hp, hv]
  · simp [Scheduler.setState, setPcb, hx]

lemma removeProcess (h : s.removeProcess p = some s') : s.SameNew s' := of_sameData (sameData_removeProcess h)

lemma enqueueProcess (h : s.enqueueProcess q p = some s') : s.SameNew s' := of_sameData (sameData_enqueueProcess h)

lemma dequeueProcess (s : Scheduler) (q : QueueName) : s.SameNew (s.dequeueProcess q).2 := by
  rw [Scheduler.dequeueProcess]
  cases s.firstLevel q with
  | none => exact refl s
  | some x => exact (setHead ..).trans (setNext ..)

lemma suspendRunning (h : s.suspendRunning = some s') : s.SameNew s' := by
  rw [Scheduler.suspendRunning] at h
  cases hr : s.runningProcess with
  | none =>
    rw [hr] at h
    rw [← Option.some.inj h]
    exact refl s
  | some r =>
    rw [hr] at h
    dsimp only at h
    split_ifs at h
    · exact enqueueProcess h
    · rw [← Option.some.inj h]
      exact refl s

lemma makeReady (hp : (s.pcb p).state ≠ .new) {x : Bool × Scheduler} (h : s.makeReady p = some x) :
    s.SameNew x.2 := by
  obtain ⟨s₁, hs₁, h⟩ := Option.bind_eq_some_iff.mp h
  have hready : ProcessState.ready ≠ .new := by decide
  have hnew := (setState hp hready).trans (enqueueProcess hs₁)
  cases hr : s₁.runningProcess with
  | none =>
    rw [hr] at h
    cases h
  | some r =>
    rw [hr] at h
    rw [← Option.some.inj h]
    exact hnew

lemma unblockByPidSection {pid : UInt32} {x : Bool × Scheduler}
    (h : s.unblockByPidSection pid = some x) : s.SameNew x.2 := by
  obtain ⟨p, -, h⟩ := Option.bind_eq_some_iff.mp h
  cases p with
  | none =>
    rw [← Option.some.inj h]
    exact refl s
  | some p =>
    dsimp only at h
    split_ifs at h with hb
    · obtain ⟨s₁, hs₁, h⟩ := Option.bind_eq_some_iff.mp h
      have hrem := removeProcess hs₁
      refine hrem.trans (makeReady ?_ h)
      rw [ne_eq, hrem.iff p]
      intro hnew
      rw [hnew] at hb
      cases hb
    · rw [← Option.some.inj h]
      exact refl s

/-- A process that waits for `t` was started. -/
lemma unblockByTypeSection
    (hq : ∀ i p, s.firstLevel t.queue = some (i, p) → (s.pcb p).state ≠ .new) {x : Bool × Scheduler}
    (h : s.unblockByTypeSection t = some x) : s.SameNew x.2 := by
  rw [Scheduler.unblockByTypeSection] at h
  cases hf : s.firstLevel t.queue with
  | none =>
    rw [hf] at h
    rw [← Option.some.inj h]
    exact refl s
  | some y =>
    obtain ⟨i, p⟩ := y
    rw [hf] at h
    have hrem := (setHead s t.queue i (s.next p)).trans (setNext _ p none)
    refine hrem.trans (makeReady ?_ h)
    rw [ne_eq, hrem.iff p]
    exact hq i p hf

/-- A process that blocks itself was started. -/
lemma blockSection (hr : s.runningProcess = some r) (hready : (s.pcb r).state ≠ .new)
    {x : Bool × Scheduler} (h : s.blockSection s.getCurrentPid t = some x) : s.SameNew x.2 := by
  have hfind : s.getProcessByPid s.getCurrentPid = some (some r) := by
    simp [getProcessByPid, getCurrentPid, hr]
  rw [Scheduler.blockSection, hfind] at h
  dsimp only [Option.bind_eq_bind, Option.bind_some] at h
  split_ifs at h
  · rw [← Option.some.inj h]
    exact refl s
  · obtain ⟨s₁, hs₁, h⟩ := Option.bind_eq_some_iff.mp h
    obtain ⟨s₂, hs₂, h⟩ := Option.bind_eq_some_iff.mp h
    rw [← Option.some.inj h]
    have hrem := removeProcess hs₁
    refine hrem.trans (SameNew.trans (setState ?_ ?_) (enqueueProcess hs₂))
    · rwa [ne_eq, hrem.iff r]
    · cases t with
      | mem => decide
      | msg => decide

lemma setPrioritySection {pid v : Int32} {x : UInt32 × Bool × Scheduler}
    (h : s.setPrioritySection pid v = some x) : s.SameNew x.2.2 := by
  rw [Scheduler.setPrioritySection] at h
  split_ifs at h
  · rw [← Option.some.inj h]
    exact refl s
  · rw [← Option.some.inj h]
    exact refl s
  · obtain ⟨p, -, h⟩ := Option.bind_eq_some_iff.mp h
    cases p with
    | none =>
      rw [← Option.some.inj h]
      exact refl s
    | some p =>
      dsimp only at h
      split_ifs at h
      · rw [← Option.some.inj h]
        exact refl s
      · obtain ⟨s₁, hs₁, h⟩ := Option.bind_eq_some_iff.mp h
        obtain ⟨s₂, hs₂, h⟩ := Option.bind_eq_some_iff.mp h
        have hnew := ((removeProcess hs₁).trans (setPriority ..)).trans (enqueueProcess hs₂)
        cases hr : s₂.runningProcess with
        | none =>
          rw [hr] at h
          cases h
        | some r =>
          rw [hr] at h
          rw [← Option.some.inj h]
          exact hnew
      · rw [← Option.some.inj h]
        exact setPriority ..

end SameNew

/-- No other process becomes `new` at the end of one; there is no running process afterwards. -/
lemma endProcess_new (h : s.endProcess p = some s') (x : PcbPtr) :
    (s'.pcb x).state = .new ↔ (s.pcb x).state = .new := by
  obtain ⟨s₁, hs₁, h⟩ := Option.bind_eq_some_iff.mp h
  have hrem := SameNew.removeProcess hs₁
  rw [← Option.some.inj h]
  exact hrem.iff x

/-- The second part of `proc_switch_handler` starts the process that it picks, if that is `new`. -/
lemma dispatch_new (s : Scheduler) : s.dispatch.runningProcess = some s.picked.process ∧
    (s.picked.bootstrap = true ↔ (s.pcb s.picked.process).state = .new) ∧
    ∀ p, (s.dispatch.pcb p).state = .new ↔ p ≠ s.picked.process ∧ (s.pcb p).state = .new := by
  have hd := SameNew.dequeueProcess s .ready
  rw [dispatch, picked]
  generalize s.dequeueProcess .ready = x at hd
  obtain ⟨c, s₁⟩ := x
  dsimp only at hd ⊢
  set r := c.getD s₁.mainProcess
  refine ⟨?_, ?_, ?_⟩
  · split_ifs
    · rfl
    · rfl
  · rw [decide_eq_true_iff]
    exact hd.iff r
  · intro p
    split_ifs with hnew
    · by_cases hp : p = r
      · simp [hp, setState, setPcb]
      · simpa [hp, setState, setPcb] using hd.iff p
    · by_cases hp : p = r
      · simp [hp, hnew]
      · simpa [hp] using hd.iff p

/-- What `proc_switch_handler` dispatches runs afterwards, and is the only process that was started. -/
theorem procSwitchHandler_new (h : s.procSwitchHandler = some s') : ∃ d, s.dispatched = some d ∧
    s'.runningProcess = some d.process ∧ (d.bootstrap = true ↔ (s.pcb d.process).state = .new) ∧
    ∀ p, (s'.pcb p).state = .new ↔ p ≠ d.process ∧ (s.pcb p).state = .new := by
  obtain ⟨s₁, hs₁, h⟩ := Option.bind_eq_some_iff.mp h
  have hsusp := SameNew.suspendRunning hs₁
  rw [← Option.some.inj h]
  obtain ⟨hrun, hboot, hnew⟩ := dispatch_new s₁
  refine ⟨s₁.picked, ?_, hrun, ?_, ?_⟩
  · rw [dispatched, hs₁]
    rfl
  · rw [hboot, hsusp.iff]
  · intro p
    rw [hnew p, hsusp.iff p]

/-- A function that starts in `s` ends in `s'`. It has called `release_processor()` last, with the scheduler that
`o` tells, or not at all. -/
def Ends (s : Scheduler) (o : Option (Option Scheduler)) (s' : Scheduler) : Prop :=
  o = some none ∧ s.SameNew s' ∨ ∃ t, o = some (some t) ∧ t.procSwitchHandler = some s' ∧
    ∀ p, (t.pcb p).state = .new ↔ (s.pcb p).state = .new

lemma unblockProcessByPid_some {pid : UInt32} {allow : Bool}
    (h : s.unblockProcessByPid pid allow = some s') : ∃ x, s.unblockByPidSection pid = some x ∧
      releaseIf (x.1 && allow, x.2) = some s' := by
  obtain ⟨x, hx, h⟩ := Option.bind_eq_some_iff.mp h
  exact ⟨x, hx, h⟩

lemma Ends.stays (h : s.SameNew s') : s.Ends (some none) s' := .inl ⟨rfl, h⟩

lemma Ends.releases (h : ∀ p, (s''.pcb p).state = .new ↔ (s.pcb p).state = .new)
    (hs : s''.procSwitchHandler = some s') : s.Ends (some (some s'')) s' := .inr ⟨s'', rfl, hs, h⟩

lemma Ends.releaseIf {x : Bool × Scheduler} (h : s.SameNew x.2)
    (hs : Scheduler.releaseIf x = some s') : s.Ends (some (onRelease x)) s' := by
  obtain ⟨u, t⟩ := x
  cases u with
  | false =>
    rw [← Option.some.inj hs]
    exact .stays h
  | true => exact .releases h.iff hs

/-- From `s` to `s'` the CPU was handed over as recorded: to the process that runs now, with `process_bootstrap` if
and only if that process was `new`, and by `proc_switch_handler`; or to nobody, and the same process runs. -/
def Records (s : Scheduler) (s' : Scheduler) : Option Dispatch → Prop
  | some d => s'.runningProcess = some d.process ∧ (d.bootstrap = true ↔ (s.pcb d.process).state = .new) ∧
    (∀ p, (s'.pcb p).state = .new ↔ p ≠ d.process ∧ (s.pcb p).state = .new) ∧
    ∃ t : Scheduler, t.dispatched = some d ∧ t.procSwitchHandler = some s'
  | none => s'.runningProcess = s.runningProcess ∧ ∀ p, (s'.pcb p).state = .new ↔ (s.pcb p).state = .new

/-- What is dispatched at the end is as recorded. -/
lemma Ends.records {o : Option (Option Scheduler)} (h : s.Ends o s') :
    o = some none ∧ s.Records s' none ∨
      ∃ t d, o = some (some t) ∧ t.dispatched = some d ∧ s.Records s' (some d) := by
  rcases h with ⟨ho, hsame⟩ | ⟨t, ho, hs, hnew⟩
  · exact .inl ⟨ho, hsame.running, hsame.iff⟩
  · obtain ⟨d, hd, hrun, hstart, hrest⟩ := procSwitchHandler_new hs
    refine .inr ⟨t, d, ho, hd, hrun, ?_, ?_, t, hd, hs⟩
    · rw [hstart, hnew]
    · intro p
      rw [hrest p, hnew p]

end Scheduler

end RtxKernel
