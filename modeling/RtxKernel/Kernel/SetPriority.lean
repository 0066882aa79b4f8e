import RtxKernel.Kernel.Refusal

/-!
# Setting a priority

`set_process_priority` changes the priority of one process, links that process behind the others of its new
level unless it runs, and releases the processor when the change has made another process than the running one
the most urgent (`set_priority_exact`). Nothing else changes, and nothing at all if the call fails.
-/

namespace RtxKernel

open Spec (Sched)

namespace Scheduler

/-- The running process becomes less urgent, or another one becomes ready to run in its place. -/
def Yields (s : Scheduler) (r p : PcbPtr) (w : UInt32) : Prop :=
  if p = r then (s.pcb p).priority < w
  else w ≠ (s.pcb p).priority ∧ w < (s.pcb r).priority ∧ (s.pcb p).state.queue = .ready

/-- The queues `l` after the process `p` has got the priority `w`, while `r` runs. -/
def requeued (s : Scheduler) (l : QueueName → Nat → List PcbPtr) (r p : PcbPtr) (w : UInt32) :
    QueueName → Nat → List PcbPtr :=
  if p = r ∨ w = (s.pcb p).priority then l else refiled l p (s.pcb p).state.queue w.toNat

/-- The process `p` gets the priority `w`, and the processor is released if that is called for. -/
structure SetsPriority (s : Scheduler) (l : QueueName → Nat → List PcbPtr) (r p : PcbPtr) (w : UInt32)
    (s₁ s' : Scheduler) : Prop where
  updates : s.Updates p (s.pcb p).state w (s.requeued l r p w) s₁
  switchIf : s₁.SwitchIf (s.Yields r p w) s'
  dispatches : s₁.Dispatches s'
  priority : s'.getProcessPriority (s.pcb p).pid = some w

end Scheduler

namespace Rep

variable {s s₁ : Scheduler} {a b : Sched} {p r : PcbPtr} {v : ProcessState} {w : UInt32} {flag : Bool}
  {l : QueueName → Nat → List PcbPtr} {pid prio : Int32}

/-- Writing the priority of the running process -/
lemma updates_running (h : Rep s a) (h' : Rep s₁ (a.setPriority r w)) (hs : a.Steady r)
    (hs' : (a.setPriority r w).Steady r) (hl : s.Filed l) : s.Updates r (s.pcb r).state w l s₁ where
  filed := by
    rw [hl.unique (h.filed hs)]
    exact h'.filed hs'
  pid x := by rw [h'.pid, h.pid, Sched.setPriority_pid]
  state x := by
    rw [h'.state, h.state, h.state, Sched.setPriority_state]
    split_ifs with hx
    · rw [hx]
    · rfl
  priority x := by rw [h'.priority, h.priority, Sched.setPriority_priority]
  running := by rw [h'.running, h.running, Sched.setPriority_running]
  live := by rw [h'.live, h.live, Sched.setPriority_live]

lemma updates_self (hl : s.Filed l) (p : PcbPtr) : s.Updates p (s.pcb p).state (s.pcb p).priority l s where
  filed := hl
  pid _ := rfl
  state x := by
    split_ifs with hx
    · rw [hx]
    · rfl
  priority x := by
    split_ifs with hx
    · rw [hx]
    · rfl
  running := rfl
  live := rfl

/-- The critical section of `set_process_priority_handler`, for arguments that it accepts -/
lemma setPrioritySection_updates (h : Rep s a) (hs : a.Steady r) (hl : s.Filed l) (h0 : 0 < pid)
    (hw0 : 0 ≤ prio) (hw3 : prio ≤ 3) (hf : a.find pid.toUInt32 = some p) :
    ∃ flag s₁ b, s.setPrioritySection pid prio = some (0, flag, s₁) ∧ Rep s₁ b ∧ b.WF ∧
      (flag = true ↔ s.Yields r p prio.toUInt32) ∧
      s.Updates p (s.pcb p).state prio.toUInt32 (s.requeued l r p prio.toUInt32) s₁ := by
  have hpid : ¬ pid ≤ 0 := by simpa using h0
  have hprio : ¬ (prio < 0 ∨ prio > 3) := by
    rw [not_or]
    exact ⟨by simpa using hw0, by simpa using hw3⟩
  have hfind := h.getProcessByPid hs.wf.placed pid.toUInt32
  rw [hf] at hfind
  by_cases hsame : prio.toUInt32 = (s.pcb p).priority
  · refine ⟨false, s, a, ?_, h, hs.wf, ?_, ?_⟩
    · rw [Scheduler.setPrioritySection, if_neg hpid, if_neg hprio, hfind]
      simp [hsame]
    · rw [hsame, Scheduler.Yields]
      split_ifs <;> simp
    · rw [hsame, Scheduler.requeued, if_pos (.inr rfl)]
      exact updates_self hl p
  · have hsec := h.setPrioritySection hs.wf pid prio
    have hne : prio.toUInt32 ≠ a.priority p := by rwa [← h.priority]
    have hlt := Sched.toNat_lt_five (Sched.toUInt32_le hw0 hw3)
    by_cases hpr : p = r
    · subst hpr
      have ha : a.setPrioritySection pid prio = some (0, decide (prio.toUInt32 > a.priority p),
          a.setPriority p prio.toUInt32) := by
        rw [Sched.setPrioritySection, if_neg hpid, if_neg hprio, hf]
        dsimp only
        rw [if_neg hne, hs.running]
        dsimp only
        rw [if_pos rfl]
      rw [ha] at hsec
      obtain ⟨⟨code, flag, s₁⟩, hx, hcode, hflag, hrep⟩ := hsec.exists_of_some_right
      have hs' := hs.setPriority hlt (by rw [hs.wf.find_pid hf]; exact Sched.toUInt32_ne_zero h0)
      obtain rfl : code = 0 := hcode
      refine ⟨flag, s₁, _, hx, hrep, hs'.wf, ?_, ?_⟩
      · rw [show flag = _ from hflag, decide_eq_true_iff, Scheduler.Yields, if_pos rfl, h.priority]
      · rw [Scheduler.requeued, if_pos (.inl rfl)]
        exact h.updates_running hrep hs hs' hl
    · have ha : a.setPrioritySection pid prio = some (0,
          (decide (prio.toUInt32 < a.priority r) && decide ((a.state p).queue = .ready)),
          a.refile p (a.state p) prio.toUInt32) := by
        rw [Sched.setPrioritySection, if_neg hpid, if_neg hprio, hf]
        dsimp only
        rw [if_neg hne, hs.running]
        dsimp only
        rw [if_neg (Ne.symm hpr), Sched.refile_state_self]
      rw [ha] at hsec
      obtain ⟨⟨code, flag, s₁⟩, hx, hcode, hflag, hrep⟩ := hsec.exists_of_some_right
      obtain rfl : code = 0 := hcode
      have hw := hs.wf.refilePriority h0 hf hw0 hw3 (hs.running_ne hpr)
      refine ⟨flag, s₁, _, hx, hrep, hw, ?_, ?_⟩
      · rw [show flag = _ from hflag, Bool.and_eq_true, decide_eq_true_iff, decide_eq_true_iff, Scheduler.Yields,
          if_neg hpr, h.priority, h.priority, h.state]
        exact ⟨fun hy => ⟨hne, hy⟩, fun hy => hy.2⟩
      · have hno : ¬ (p = r ∨ prio.toUInt32 = (s.pcb p).priority) := not_or.mpr ⟨hpr, hsame⟩
        rw [Scheduler.requeued, if_neg hno, h.state]
        exact h.updates hs hpr hrep hw hl

/-- A process that is told to release the processor has a more urgent one ready, or has become less urgent. -/
lemma yields_iff (hl : s.Filed l) (hr : s.runningProcess = some r)
    (hurgent : ∀ i, ∀ x ∈ l .ready i, (s.pcb r).priority ≤ (s.pcb x).priority)
    (hu : s.Updates p v w (s.requeued l r p w) s₁) : s.Yields r p w ↔
      (∃ i, ∃ x ∈ s.requeued l r p w .ready i, (s₁.pcb x).priority < (s₁.pcb r).priority) ∨
        p = r ∧ (s.pcb p).priority < w := by
  have hprio := hu.priority
  by_cases hpr : p = r
  · subst hpr
    rw [Scheduler.Yields, if_pos rfl]
    constructor
    · exact fun hlt => .inr ⟨rfl, hlt⟩
    · rintro (⟨i, x, hx, hlt⟩ | ⟨-, hlt⟩)
      · rw [Scheduler.requeued, if_pos (.inl rfl)] at hx
        have hxp : x ≠ p := by
          rintro rfl
          exact ((hl.home x (hl.linked _ _ x hx).1 _ _).mp hx).1 hr
        rw [hprio, hprio, if_neg hxp, if_pos rfl] at hlt
        exact UInt32.lt_of_le_of_lt (hurgent i x hx) hlt
      · exact hlt
  · rw [Scheduler.Yields, if_neg hpr, Scheduler.requeued]
    constructor
    · rintro ⟨hne, hlt, hready⟩
      refine .inl ⟨w.toNat, p, ?_, ?_⟩
      · rw [if_neg (not_or.mpr ⟨hpr, hne⟩), refiled, hready]
        simp
      · rwa [hprio, hprio, if_pos rfl, if_neg (Ne.symm hpr)]
    · rintro (⟨i, x, hx, hlt⟩ | ⟨heq, -⟩)
      · rw [hprio, hprio, if_neg (Ne.symm hpr)] at hlt
        have hold : ∀ y, y ∈ l .ready i → ¬ (s.pcb y).priority < (s.pcb r).priority := fun y hy =>
          UInt32.not_lt.mpr (hurgent i y hy)
        by_cases hxp : x = p
        · subst hxp
          rw [if_pos rfl] at hlt
          have hne : w ≠ (s.pcb x).priority := by
            rintro rfl
            rw [if_pos (.inr rfl)] at hx
            exact hold x hx hlt
          rw [if_neg (not_or.mpr ⟨hpr, hne⟩), refiled, List.mem_append] at hx
          rcases hx with hx | hx
          · exact absurd rfl ((hl.nodup _ _).mem_erase_iff.mp hx).1
          · split_ifs at hx with hqi
            · exact ⟨hne, hlt, hqi.1.symm⟩
            · cases hx
        · rw [if_neg hxp] at hlt
          refine absurd hlt (hold x ?_)
          split_ifs at hx with hsame
          · exact hx
          · rw [refiled, List.mem_append] at hx
            rcases hx with hx | hx
            · exact List.mem_of_mem_erase hx
            · split_ifs at hx
              · exact absurd (List.mem_singleton.mp hx) hxp
              · cases hx
      · exact absurd heq hpr

end Rep

namespace Sound

variable {priority : Fin 6 → UInt8} {base : Nat} {k₀ k : Kernel} {a : Spec.Kernel} {r : PcbPtr} {es : List Event}
  {l : QueueName → Nat → List PcbPtr} {pid prio : Int32}

/-- The processor is given to the most urgent process, unless a process was woken without it. -/
lemma urgent_of_run (hprio : ∀ i, priority i ≤ 4) (hboot : boot priority base = some k₀)
    (h : Run (Kernel.StepIf Kernel.Calls) k₀ es k) : ∃ a r, Sound base k a r ∧
      ((∀ e ∈ es, ∀ pid, e.op ≠ .unblockByPid pid false) → a.sched.Urgent r) := by
  apply h.history (I := fun es k => ∃ a r, Sound base k a r ∧
    ((∀ e ∈ es, ∀ pid, e.op ≠ .unblockByPid pid false) → a.sched.Urgent r))
  · obtain ⟨a, r, hs, hfresh⟩ := Safe.boot hprio hboot
    exact ⟨a, r, hs.toSound, fun _ => hfresh.urgent⟩
  · rintro es k e k' ⟨a, r, hs, hu⟩ ⟨-, hz, hcall⟩
    obtain ⟨b, r', -, hs', -, hu'⟩ := hs.call hz hcall
    exact ⟨b, r', hs', fun hes => hu' (hes e (by simp)) (hu fun e' he' => hes e' (by simp [he']))⟩

lemma setPriority_fail (h : Sound base k a r)
    (hno : ¬ (0 < pid ∧ 0 ≤ prio ∧ prio ≤ 3 ∧ k.IsLive pid.toUInt32)) :
    ∃ code, code ≠ 0 ∧ k.sched.setProcessPriority pid prio = some (code, k.sched) := by
  rw [Scheduler.setProcessPriority, Scheduler.setPrioritySection]
  by_cases h0 : pid ≤ 0
  · exact ⟨2, by decide, by rw [if_pos h0]; rfl⟩
  · rw [if_neg h0]
    by_cases hw : prio < 0 ∨ prio > 3
    · exact ⟨3, by decide, by rw [if_pos hw]; rfl⟩
    · have hfind := h.rep.sched.getProcessByPid h.ok.sched.wf.placed pid.toUInt32
      have hnone : a.sched.find pid.toUInt32 = none := by
        by_contra hlive
        rw [not_or] at hw
        exact hno ⟨by simpa using h0, by simpa using hw.1, by simpa using hw.2, h.isLive_iff.mpr hlive⟩
      rw [hnone] at hfind
      exact ⟨4, by decide, by rw [if_neg hw, hfind]; rfl⟩

lemma setPriority_ok (h : Sound base k a r) (hl : k.sched.Filed l) (h0 : 0 < pid) (hw0 : 0 ≤ prio) (hw3 : prio ≤ 3)
    {p : PcbPtr} (hp : p ∈ k.sched.live) (hpid : (k.sched.pcb p).pid = pid.toUInt32) :
    ∃ s₁ s', k.sched.setProcessPriority pid prio = some (0, s') ∧
      k.sched.SetsPriority l r p prio.toUInt32 s₁ s' := by
  have hw := h.ok.sched.wf
  have hf : a.sched.find pid.toUInt32 = some p :=
    hw.find_eq_some_iff.mpr ⟨h.rep.sched.live ▸ hp, (h.rep.sched.pid p).symm.trans hpid⟩
  obtain ⟨flag, s₁, b, hsec, hrep, hwb, hflag, hu⟩ :=
    h.rep.sched.setPrioritySection_updates h.ok.sched hl h0 hw0 hw3 hf
  obtain ⟨s', hs', hrep'⟩ := Rep.releaseIf (x := (flag, s₁)) (y := (flag, b)) ⟨rfl, hrep⟩ hwb
  have hsw : s₁.SwitchIf (k.sched.Yields r p prio.toUInt32) s' := Rep.switchIf hs' hflag
  have hdisp := hrep.dispatches_of_switchIf hwb hsw
  have hwf' : (Sched.releaseIf (flag, b)).WF := by
    rw [Sched.releaseIf]
    split_ifs
    · obtain ⟨r', hr'⟩ := hwb.procSwitch
      exact hr'.wf
    · exact hwb
  refine ⟨s₁, s', ?_, hu, hsw, hdisp, ?_⟩
  · rw [Scheduler.setProcessPriority, hsec]
    change (Scheduler.releaseIf (flag, s₁)).bind _ = _
    rw [hs']
    rfl
  · have hlive' : p ∈ s'.live := by rwa [hdisp.live, hu.live]
    have hpid' : (s'.pcb p).pid = (k.sched.pcb p).pid := (hdisp.pid p).trans (hu.pid p)
    have hfind := hrep'.getProcessByPid hwf'.placed (k.sched.pcb p).pid
    rw [hwf'.find_eq_some_iff.mpr ⟨hrep'.live ▸ hlive', (hrep'.pid p).symm.trans hpid'⟩] at hfind
    rw [Scheduler.getProcessPriority, hfind]
    change some (s'.pcb p).priority = _
    rw [hdisp.priority, hu.priority, if_pos rfl]

end Sound

/-- `set_process_priority` succeeds for a live process other than the NULL process and a priority from 0 to 3; it
then changes that process as `SetsPriority` says, and releases the processor exactly when a ready process is
more urgent then, or when the running process has become less urgent. Otherwise it changes nothing. -/
theorem set_priority_exact {priority : Fin 6 → UInt8} (hprio : ∀ i, priority i ≤ 4) {base : Nat} {k₀ k : Kernel}
    (hboot : boot priority base = some k₀) {es : List Event} (h : Run (Kernel.StepIf Kernel.Calls) k₀ es k)
    {l : QueueName → Nat → List PcbPtr} (hl : k.sched.Filed l) {r : PcbPtr} (hr : k.sched.runningProcess = some r)
    (pid prio : Int32) :
    ∃ code s', k.call (.setPriority pid prio) = some (.code code, k.withSched s') ∧
      (code = 0 ↔ 0 < pid ∧ 0 ≤ prio ∧ prio ≤ 3 ∧ k.IsLive pid.toUInt32) ∧
      (code ≠ 0 → s' = k.sched) ∧
      (code = 0 → ∀ p ∈ k.sched.live, (k.sched.pcb p).pid = pid.toUInt32 →
        ∃ s₁, k.sched.SetsPriority l r p prio.toUInt32 s₁ s' ∧
          ((∀ e ∈ es, ∀ pid, e.op ≠ .unblockByPid pid false) → (k.sched.Yields r p prio.toUInt32 ↔
            (∃ i, ∃ x ∈ k.sched.requeued l r p prio.toUInt32 .ready i,
              (s₁.pcb x).priority < (s₁.pcb r).priority) ∨
              p = r ∧ (k.sched.pcb p).priority < prio.toUInt32))) := by
  obtain ⟨a, r', hs, hurgent⟩ := Sound.urgent_of_run hprio hboot h
  obtain rfl : r = r' := Option.some.inj (hr.symm.trans (hs.rep.sched.running.trans hs.ok.sched.running))
  by_cases hwhy : 0 < pid ∧ 0 ≤ prio ∧ prio ≤ 3 ∧ k.IsLive pid.toUInt32
  · obtain ⟨h0, hw0, hw3, p, hp, hpid⟩ := hwhy
    obtain ⟨s₁, s', hcall, hsets⟩ := hs.setPriority_ok hl h0 hw0 hw3 hp hpid
    refine ⟨0, s', ?_, ⟨fun _ => ⟨h0, hw0, hw3, p, hp, hpid⟩, fun _ => rfl⟩, fun hne => absurd rfl hne, ?_⟩
    · rw [Kernel.call, hcall]
      rfl
    · intro _ x hx hxpid
      have hw := hs.ok.sched.wf
      obtain rfl : x = p := by
        rw [hs.rep.sched.live] at hx hp
        rw [hs.rep.sched.pid] at hxpid hpid
        exact hw.pid_inj x hx p hp (hxpid.trans hpid.symm)
      refine ⟨s₁, hsets, fun hes => ?_⟩
      apply Rep.yields_iff hl hr _ hsets.updates
      intro i y hy
      rw [hl.unique hs.filed] at hy
      rw [hs.rep.sched.priority, hs.rep.sched.priority]
      exact hurgent hes i y hy
  · obtain ⟨code, hcode, hcall⟩ := hs.setPriority_fail hwhy
    refine ⟨code, k.sched, ?_, by simp [hcode, hwhy], fun _ => rfl, fun hz => absurd hz hcode⟩
    rw [Kernel.call, hcall]
    rfl

/-- Process 10 makes itself less urgent than process 11. -/
theorem set_priority_exact_lowered : ∃ k r p l s₁ s', boot (fun _ => 2) 4096 = some k ∧ k.currentPid = 10 ∧
    k.call (.setPriority 10 2) = some (.code 0, k.withSched s') ∧ k.sched.SetsPriority l r p 2 s₁ s' ∧
      k.sched.Yields r p 2 := by
  have hboot : (boot (fun _ => 2) 4096).any (fun k => k.currentPid = 10 ∧
      k.sched.runningProcess = some 4 ∧ 4 ∈ k.sched.live ∧ k.sched.pcb 4 = ⟨10, .ready, 0, none⟩) = true := by
    decide +kernel
  obtain ⟨k, hk, hcheck⟩ := (Option.any_eq_true _ _).mp hboot
  obtain ⟨hpid, hr, hlive, hpcb⟩ := of_decide_eq_true hcheck
  have hpid4 : (k.sched.pcb 4).pid = Int32.toUInt32 10 := by rw [hpcb]; rfl
  have hprio : ∀ i : Fin 6, (fun _ => 2 : Fin 6 → UInt8) i ≤ 4 := by decide
  obtain ⟨a, r, hs⟩ := Sound.of_run hprio hk (.nil k)
  obtain ⟨code, s', hcall, hiff, -, hsets⟩ := set_priority_exact hprio hk (.nil k) hs.filed hr 10 2
  obtain rfl := hiff.mpr ⟨by decide, by decide, by decide, 4, hlive, hpid4⟩
  obtain ⟨s₁, hset, -⟩ := hsets rfl 4 hlive hpid4
  refine ⟨k, 4, 4, _, s₁, s', hk, hpid, hcall, hset, ?_⟩
  rw [Scheduler.Yields, if_pos rfl, hpcb]
  decide

end RtxKernel
