import RtxKernel.Core.Operations

/-!
# What an operation leaves behind

The effect of an operation on the PCBs and the queues, in the terms of the code: one process gets a new state
and a new priority and is linked behind the others of one level (`Scheduler.Updates`, `refiled`), and after
that the processor is released or not (`Scheduler.SwitchIf`).
-/

namespace RtxKernel

open Spec (Sched)

/-- The queues after `p` was taken out of them and linked behind the others of level `i` of `q`. -/
def refiled (l : QueueName → Nat → List PcbPtr) (p : PcbPtr) (q : QueueName) (i : Nat) :
    QueueName → Nat → List PcbPtr := fun q' i' =>
  (l q' i').erase p ++ if q' = q ∧ i' = i then [p] else []

namespace Scheduler

/-- From `s` to `s'` the process `p` gets the state `v` and the priority `w`, and the queues become `l`; all else
stays as it is. -/
structure Updates (s : Scheduler) (p : PcbPtr) (v : ProcessState) (w : UInt32)
    (l : QueueName → Nat → List PcbPtr) (s' : Scheduler) : Prop where
  filed : s'.Filed l
  pid : ∀ x, (s'.pcb x).pid = (s.pcb x).pid
  state : ∀ x, (s'.pcb x).state = if x = p then v else (s.pcb x).state
  priority : ∀ x, (s'.pcb x).priority = if x = p then w else (s.pcb x).priority
  running : s'.runningProcess = s.runningProcess
  live : s'.live = s.live

/-- From `s` to `s'` no process gets another pid or priority, and none another state, except that one that is
new is started, and runs. -/
structure Dispatches (s s' : Scheduler) : Prop where
  pid : ∀ x, (s'.pcb x).pid = (s.pcb x).pid
  priority : ∀ x, (s'.pcb x).priority = (s.pcb x).priority
  state : ∀ x, (s'.pcb x).state = (s.pcb x).state ∨
    (s.pcb x).state = .new ∧ (s'.pcb x).state = .ready ∧ s'.runningProcess = some x
  live : s'.live = s.live

/-- The processor is released if `c` holds. -/
def SwitchIf (s : Scheduler) (c : Prop) (s' : Scheduler) : Prop :=
  (c → s.procSwitchHandler = some s') ∧ (¬ c → s' = s)

/-- The most urgent process that waits for `t` becomes ready, if one waits. -/
def WakesFirst (s : Scheduler) (l : QueueName → Nat → List PcbPtr) (t : BlockType) (s' : Scheduler) : Prop :=
  (∀ i, l t.queue i = []) ∧ s' = s ∨
    ∃ i p rest r s₁, l t.queue i = p :: rest ∧ (∀ j < i, l t.queue j = []) ∧ s.runningProcess = some r ∧
      s.Updates p .ready (s.pcb p).priority (refiled l p .ready (s.level p)) s₁ ∧
      s₁.SwitchIf ((s.pcb p).priority < (s.pcb r).priority) s'

/-- The process of that pid becomes ready, if it is blocked. -/
def WakesPid (s : Scheduler) (l : QueueName → Nat → List PcbPtr) (pid : UInt32) (allowRelease : Bool)
    (s' : Scheduler) : Prop :=
  (∀ p ∈ s.live, (s.pcb p).pid = pid → (s.pcb p).state.isBlocked = false) ∧ s' = s ∨
    ∃ p ∈ s.live, (s.pcb p).pid = pid ∧ (s.pcb p).state.isBlocked = true ∧ ∃ r s₁, s.runningProcess = some r ∧
      s.Updates p .ready (s.pcb p).priority (refiled l p .ready (s.level p)) s₁ ∧
      s₁.SwitchIf ((s.pcb p).priority < (s.pcb r).priority ∧ allowRelease = true) s'

lemma Filed.unique {s : Scheduler} {l l' : QueueName → Nat → List PcbPtr} (h : s.Filed l) (h' : s.Filed l') :
    l = l' := by
  funext q i
  exact (h.chain q i).unique (h'.chain q i)

end Scheduler

namespace Spec.Sched

variable {a : Sched} {p r x : PcbPtr} {q : QueueName} {i : Nat} {v : ProcessState} {w : UInt32}
  {t : List PcbPtr}

lemma WF.remove_queue (h : a.WF) (hp : a.running ≠ some p) : (a.remove p).queue q i = (a.queue q i).erase p := by
  rw [remove, if_neg hp, setQueue_queue]
  split_ifs with hqi
  · rw [hqi.1, hqi.2]
  · refine (List.erase_of_not_mem fun hmem => hqi ?_).symm
    obtain ⟨-, hq, hi, -⟩ := (h.mem_queue q i p).mp hmem
    exact ⟨hq, hi⟩

lemma WF.refile_queue (h : a.WF) (hp : a.running ≠ some p) :
    (a.refile p v w).queue = refiled a.queue p v.queue w.toNat := by
  funext q i
  have hlevel : (((a.remove p).setState p v).setPriority p w).level p = w.toNat := by
    simp [level]
  rw [Sched.refile, enqueue, hlevel, refiled, setQueue_queue, setPriority_queue, setState_queue, h.remove_queue hp,
    h.remove_queue hp]
  split_ifs with hqi
  · rw [hqi.1, hqi.2]
  · rw [List.append_nil]

lemma suspendRunning_fields (a : Sched) : a.suspendRunning.pid = a.pid ∧ a.suspendRunning.state = a.state ∧
    a.suspendRunning.priority = a.priority ∧ a.suspendRunning.live = a.live := by
  rw [Sched.suspendRunning]
  cases a.running with
  | none => exact ⟨rfl, rfl, rfl, rfl⟩
  | some r =>
    dsimp only
    split_ifs
    · exact ⟨rfl, rfl, rfl, rfl⟩
    · exact ⟨rfl, rfl, rfl, rfl⟩

/-- The process switch runs a process of the ready queue, which is started if it is new. -/
lemma WF.procSwitch_eq (h : a.WF) : ∃ i p, a.suspendRunning.firstLevel .ready = some (i, p) ∧
    (a.state p = .new ∨ a.state p = .ready) ∧ a.procSwitch =
      ((a.suspendRunning.setQueue .ready i (a.suspendRunning.queue .ready i).tail).setState p .ready).setRunning
        (some p) := by
  obtain ⟨i, p, hfirst⟩ := h.suspendRunning.exists_firstLevel rfl
  have hnone : a.suspendRunning.firstLevel .ready = some (i, p) := hfirst
  obtain ⟨-, hq, -, -, -⟩ := h.suspendRunning.of_firstLevel hfirst
  have hp : a.suspendRunning.state p = .new ∨ a.suspendRunning.state p = .ready := queue_eq_ready_iff.mp hq.symm
  refine ⟨i, p, hnone, by rwa [a.suspendRunning_fields.2.1] at hp, ?_⟩
  rw [Sched.procSwitch, dispatch_eq hnone hp]

end Spec.Sched

namespace Rep

variable {s s' : Scheduler} {a b : Sched} {p r : PcbPtr} {v : ProcessState} {w : UInt32}
  {l : QueueName → Nat → List PcbPtr} {c : Prop}

lemma filed (h : Rep s a) (hs : a.Steady r) : s.Filed a.queue := by
  have hw := hs.wf
  refine ⟨⟨r, ?_, h.running.trans hs.running⟩, h.chain, hw.nodup, ?_, ?_⟩
  · rw [h.live]
    exact hw.running_live r hs.running
  · intro q i x hx
    obtain ⟨hlive, -, rfl, -⟩ := (hw.mem_queue q i x).mp hx
    exact ⟨h.live ▸ hlive, hw.level_lt x hlive⟩
  · intro x hx q i
    rw [h.live] at hx
    rw [hw.mem_queue, h.state, h.level, h.running]
    constructor
    · rintro ⟨-, hq, hi, hrun⟩
      exact ⟨fun hrun' => hrun hrun' (hs.ready_of_running hrun'), hq, hi⟩
    · rintro ⟨hrun, hq, hi⟩
      exact ⟨hx, hq, hi, fun hrun' => absurd hrun' hrun⟩

/-- Filing a process that does not run anew -/
lemma updates (h : Rep s a) (hs : a.Steady r) (hp : p ≠ r) (h' : Rep s' (a.refile p v w))
    (hw : (a.refile p v w).WF) (hl : s.Filed l) : s.Updates p v w (refiled l p v.queue w.toNat) s' where
  filed := by
    have hfiled := h'.filed (hs.refile hp hw)
    rw [hs.wf.refile_queue (hs.running_ne hp)] at hfiled
    rwa [hl.unique (h.filed hs)]
  pid x := by rw [h'.pid, h.pid, Sched.refile_pid]
  state x := by rw [h'.state, h.state, Sched.refile_state, Function.update_apply]
  priority x := by rw [h'.priority, h.priority, Sched.refile_priority, Function.update_apply]
  running := by rw [h'.running, h.running, Sched.refile_running]
  live := by rw [h'.live, h.live, Sched.refile_live]

/-- `proc_switch_handler` -/
lemma dispatches (h : Rep s a) (hw : a.WF) (hs : s.procSwitchHandler = some s') : s.Dispatches s' := by
  obtain ⟨s₁, hs₁, h'⟩ := h.procSwitchHandler hw
  obtain rfl := Option.some.inj (hs.symm.trans hs₁)
  obtain ⟨i, p, -, hp, hsw⟩ := hw.procSwitch_eq
  obtain ⟨hpid, hstate, hpriority, hlive⟩ := a.suspendRunning_fields
  rw [hsw] at h'
  constructor
  · intro x
    rw [h'.pid, h.pid]
    exact congrFun hpid x
  · intro x
    rw [h'.priority, h.priority]
    exact congrFun hpriority x
  · intro x
    rw [h'.state, h.state, h'.running, Sched.setRunning_state, Sched.setRunning_running, Sched.setState_state,
      Sched.setQueue_state, hstate]
    split_ifs with hx
    · subst hx
      rcases hp with hp | hp
      · exact .inr ⟨hp, rfl, rfl⟩
      · exact .inl hp.symm
    · exact .inl rfl
  · rw [h'.live, h.live]
    exact hlive

/-- A critical section, and the release of the processor behind it -/
lemma switchIf {x : Bool × Scheduler} (h : Scheduler.releaseIf x = some s') (hc : x.1 = true ↔ c) :
    x.2.SwitchIf c s' := by
  rw [Scheduler.releaseIf] at h
  constructor
  · intro hyes
    rwa [if_pos (hc.mpr hyes)] at h
  · intro hno
    rw [if_neg (mt hc.mp hno)] at h
    exact (Option.some.inj h).symm

lemma dispatches_of_switchIf (h : Rep s a) (hw : a.WF) (hs : s.SwitchIf c s') : s.Dispatches s' := by
  by_cases hc : c
  · exact h.dispatches hw (hs.1 hc)
  · rw [hs.2 hc]
    exact ⟨fun _ => rfl, fun _ => rfl, fun _ => .inl rfl, rfl⟩

lemma exists_live (h : Rep s a) (hw : a.WF) (pid : UInt32) :
    (∃ p, a.find pid = some p) ↔ ∃ p ∈ s.live, (s.pcb p).pid = pid := by
  constructor
  · rintro ⟨p, hp⟩
    exact ⟨p, h.live ▸ hw.find_live hp, (h.pid p).trans (hw.find_pid hp)⟩
  · rintro ⟨p, hlive, hpid⟩
    exact ⟨p, hw.find_eq_some_iff.mpr ⟨h.live ▸ hlive, (h.pid p).symm.trans hpid⟩⟩

/-- `unblock_process_by_type` -/
theorem wakesFirst (h : Rep s a) (hs : a.Steady r) (hl : s.Filed l) (t : BlockType) :
    ∃ s', s.unblockProcessByType t = some s' ∧ s.WakesFirst l t s' := by
  obtain rfl := hl.unique (h.filed hs)
  have hne := hs.ne_firstLevel t
  have hsec := h.unblockByTypeSection hs.wf t fun i p hf hrun =>
    hne i p hf (Option.some.inj (hs.running.symm.trans hrun))
  rcases Sched.unblockByTypeSection_cases hs.wf hs.running hne with ⟨hempty, -⟩ | ⟨i, p, hf, he⟩
  · have hnone : s.firstLevel t.queue = none := by
      rw [h.firstLevel]
      exact Sched.firstLevel_eq_none_iff.mpr hempty
    refine ⟨s, ?_, .inl ⟨?_, rfl⟩⟩
    · rw [Scheduler.unblockProcessByType, Scheduler.unblockByTypeSection, hnone]
      rfl
    · intro i
      by_contra hi
      obtain ⟨x, hx⟩ := List.exists_mem_of_ne_nil _ hi
      rw [hempty i (hl.linked _ _ x hx).2] at hx
      cases hx
  · rw [he] at hsec
    obtain ⟨x, hx, hflag, hrep⟩ := hsec.exists_of_some_right
    obtain ⟨-, hhead, hbefore⟩ := Sched.firstLevel_eq_some_iff.mp hf
    have hlive := (hs.wf.of_firstLevel hf).1
    have hpr := (hne i p hf).symm
    have hw := hs.wf.wake hlive (hs.running_ne hpr)
    obtain ⟨s', hs', -⟩ := Rep.releaseIf ⟨hflag, hrep⟩ hw
    obtain ⟨rest, hrest⟩ := List.head?_eq_some_iff.mp hhead
    refine ⟨s', ?_, .inr ⟨i, p, rest, r, x.2, hrest, hbefore, h.running.trans hs.running, ?_, ?_⟩⟩
    · rw [Scheduler.unblockProcessByType, hx]
      exact hs'
    · rw [h.priority, h.level]
      exact h.updates hs hpr hrep hw hl
    · apply switchIf hs'
      rw [hflag, h.priority, h.priority, decide_eq_true_iff]

/-- `unblock_process_by_pid` -/
theorem wakesPid (h : Rep s a) (hs : a.Steady r) (hl : s.Filed l) (pid : UInt32) (allow : Bool) :
    ∃ s', s.unblockProcessByPid pid allow = some s' ∧ s.WakesPid l pid allow s' := by
  obtain rfl := hl.unique (h.filed hs)
  have hfind := h.getProcessByPid hs.wf.placed pid
  have hsec := h.unblockByPidSection hs.wf pid fun p _ hrun => hs.ready_of_running hrun
  rcases Sched.unblockByPidSection_cases pid hs.running with ⟨hnot, -⟩ | ⟨p, hf, hblocked, he⟩
  · refine ⟨s, ?_, .inl ⟨?_, rfl⟩⟩
    · rw [Scheduler.unblockProcessByPid, Scheduler.unblockByPidSection, hfind]
      cases hf : a.find pid with
      | none => rfl
      | some p =>
        have hstate : (s.pcb p).state.isBlocked = false := by
          rw [h.state]
          exact hnot p hf
        simp [hstate, Scheduler.releaseIf]
    · intro p hlive hpid
      rw [h.state]
      exact hnot p (hs.wf.find_eq_some_iff.mpr ⟨h.live ▸ hlive, (h.pid p).symm.trans hpid⟩)
  · rw [he] at hsec
    obtain ⟨x, hx, hflag, hrep⟩ := hsec.exists_of_some_right
    have hpr := hs.ne_of_isBlocked hblocked
    have hw := hs.wf.wake (hs.wf.find_live hf) (hs.running_ne hpr)
    obtain ⟨s', hs', -⟩ := Rep.releaseIf (x := (x.1 && allow, x.2)) (y := (x.1 && allow, _)) ⟨rfl, hrep⟩ hw
    refine ⟨s', ?_, .inr ⟨p, h.live ▸ hs.wf.find_live hf, (h.pid p).trans (hs.wf.find_pid hf), ?_, r, x.2,
      h.running.trans hs.running, ?_, ?_⟩⟩
    · rw [Scheduler.unblockProcessByPid, hx]
      exact hs'
    · rw [h.state]
      exact hblocked
    · rw [h.priority, h.level]
      exact h.updates hs hpr hrep hw hl
    · apply switchIf hs'
      rw [Bool.and_eq_true, hflag, h.priority, h.priority, decide_eq_true_iff]

end Rep

end RtxKernel
