import RtxKernel.Core.Invariant
import RtxKernel.Core.Refinement

/-!
# Blocking, unblocking and priorities

For each operation that moves processes between queues: what it can do to the abstract scheduler
(the lemmas `.._cases`), that it keeps the invariant, and that the code implements it.

The unblocking functions keep the invariant only if they do not meet the running process in a
blocked queue, where `remove_process` would leave it.
-/

namespace RtxKernel

open Spec (Sched)

namespace Spec.Sched

variable {a b : Sched} {p x r : PcbPtr} {q : QueueName} {i : Nat} {pid : UInt32} {t : BlockType}

lemma refile_priority_self (v : ProcessState) :
    a.refile p v (a.priority p) = ((a.remove p).setState p v).enqueue v.queue p := by
  have hself := setPriority_self ((a.remove p).setState p v) p
  rw [setState_priority, remove_priority] at hself
  rw [refile, hself]

lemma refile_state_self (w : UInt32) :
    a.refile p (a.state p) w = ((a.remove p).setPriority p w).enqueue (a.state p).queue p := by
  have hself := setState_self (a.remove p) p
  rw [remove_state] at hself
  rw [refile, hself]

/-! ### What the operations do -/

lemma blockSection_cases (a : Sched) (pid : UInt32) (t : BlockType) :
    a.blockSection pid t = (false, a) ∨
      ∃ p, a.find pid = some p ∧ (a.state p).isBlocked = false ∧ a.blockSection pid t
        = (decide (a.running = some p), a.refile p t.state (a.priority p)) := by
  rw [blockSection]
  cases a.find pid with
  | none => exact .inl rfl
  | some p =>
    cases hb : (a.state p).isBlocked with
    | true => exact .inl (by simp [hb])
    | false =>
      refine .inr ⟨p, rfl, hb, ?_⟩
      rw [refile_priority_self]
      simp [hb]

lemma makeReady_remove (hr : a.running = some r) : (a.remove p).makeReady p
    = some (decide (a.priority p < a.priority r), a.refile p .ready (a.priority p)) := by
  rw [makeReady]
  rw [remove_running, hr, refile_priority_self]
  simp [ProcessState.queue]

lemma unblockByPidSection_cases (pid : UInt32) (hr : a.running = some r) :
    (∀ p, a.find pid = some p → (a.state p).isBlocked = false) ∧
        a.unblockByPidSection pid = some (false, a) ∨
      ∃ p, a.find pid = some p ∧ (a.state p).isBlocked = true ∧ a.unblockByPidSection pid
        = some (decide (a.priority p < a.priority r), a.refile p .ready (a.priority p)) := by
  rw [unblockByPidSection]
  cases a.find pid with
  | none => exact .inl ⟨by simp, rfl⟩
  | some p =>
    cases hb : (a.state p).isBlocked with
    | false =>
      refine .inl ⟨fun x hx => ?_, by simp [hb]⟩
      rw [← Option.some.inj hx, hb]
    | true =>
      refine .inr ⟨p, rfl, hb, ?_⟩
      simp only [hb, if_true]
      exact makeReady_remove hr

lemma unblockByTypeSection_cases (hw : a.WF) (hr : a.running = some r)
    (hrun : ∀ i p, a.firstLevel t.queue = some (i, p) → r ≠ p) :
    (∀ i < 5, a.queue t.queue i = []) ∧ a.unblockByTypeSection t = some (false, a) ∨
      ∃ i p, a.firstLevel t.queue = some (i, p) ∧ a.unblockByTypeSection t
        = some (decide (a.priority p < a.priority r), a.refile p .ready (a.priority p)) := by
  rw [unblockByTypeSection]
  cases hf : a.firstLevel t.queue with
  | none => exact .inl ⟨firstLevel_eq_none_iff.mp hf, rfl⟩
  | some x =>
    obtain ⟨i, p⟩ := x
    refine .inr ⟨i, p, rfl, ?_⟩
    have hne : a.running ≠ some p := by
      rw [hr]
      simpa using hrun i p hf
    dsimp only
    rw [hw.setQueue_tail hf hne, makeReady_remove hr]

lemma setPrioritySection_cases (pid priority : Int32) (hr : a.running = some r) :
    (∃ code, a.setPrioritySection pid priority = some (code, false, a)) ∨
      0 < pid ∧ 0 ≤ priority ∧ priority ≤ 3 ∧ ∃ p, a.find pid.toUInt32 = some p ∧
        (p = r ∧ a.setPrioritySection pid priority = some (0,
            decide (a.priority p < priority.toUInt32), a.setPriority p priority.toUInt32) ∨
          p ≠ r ∧ a.setPrioritySection pid priority = some (0,
            (decide (priority.toUInt32 < a.priority r) && decide ((a.state p).queue = .ready)),
            a.refile p (a.state p) priority.toUInt32)) := by
  rw [setPrioritySection]
  split_ifs with h₁ h₂
  · exact .inl ⟨_, rfl⟩
  · exact .inl ⟨_, rfl⟩
  · cases a.find pid.toUInt32 with
    | none => exact .inl ⟨_, rfl⟩
    | some p =>
      dsimp only
      split_ifs with h₃
      · exact .inl ⟨_, rfl⟩
      · rw [not_or] at h₂
        refine .inr ⟨by simpa using h₁, by simpa using h₂.1, by simpa using h₂.2, p, rfl, ?_⟩
        rw [hr]
        dsimp only
        split_ifs with h₄
        · exact .inl ⟨h₄.symm, rfl⟩
        · exact .inr ⟨Ne.symm h₄, by rw [refile_state_self]⟩

/-! ### The invariant is kept -/

/-- Blocking a process other than the NULL process. -/
theorem WF.blockSection (h : a.WF) (hpid : pid ≠ 0) : (a.blockSection pid t).2.WF := by
  rcases blockSection_cases a pid t with he | ⟨p, hf, hb, he⟩
  · rw [he]
    exact h
  · rw [he]
    have hl := h.find_live hf
    refine h.refile hl (h.level_lt p hl) (fun hr => ⟨?_, by simp⟩) fun hz => ?_
    · have hnew := h.started p hr
      cases hs : a.state p <;> simp_all [ProcessState.isBlocked]
    · exact absurd ((h.find_pid hf).symm.trans hz) hpid

/-- Waking a process that does not run. -/
theorem WF.wake (h : a.WF) (hl : p ∈ a.live) (hr : a.running ≠ some p) :
    (a.refile p .ready (a.priority p)).WF :=
  h.refile hl (h.level_lt p hl) (fun hr' => absurd hr' hr) fun _ => ⟨rfl, rfl⟩

lemma Steady.ne_of_isBlocked (h : a.Steady r) (hp : (a.state p).isBlocked = true) : p ≠ r := by
  rintro rfl
  rw [h.ready] at hp
  exact absurd hp (by decide)

lemma Steady.running_ne (h : a.Steady r) (hp : p ≠ r) : a.running ≠ some p := by
  rw [h.running]
  simpa using hp.symm

lemma Steady.ready_of_running (h : a.Steady r) (hp : a.running = some p) : a.state p = .ready := by
  rw [Option.some.inj (hp.symm.trans h.running)]
  exact h.ready

/-- The process that runs is ready, so it is in no blocked queue. -/
lemma Steady.ne_firstLevel (h : a.Steady r) (t : BlockType) :
    ∀ i p, a.firstLevel t.queue = some (i, p) → r ≠ p := by
  rintro i p hf rfl
  obtain ⟨-, -, -, -, hr⟩ := h.wf.of_firstLevel hf
  exact hr h.running h.ready

/-- Filing another process anew leaves the running one alone. -/
lemma Steady.refile (h : a.Steady r) (hp : p ≠ r) {v : ProcessState} {w : UInt32}
    (hw : (a.refile p v w).WF) : (a.refile p v w).Steady r where
  wf := hw
  running := by simpa using h.running
  ready := by simpa [Function.update_of_ne hp.symm] using h.ready

/-- What is ready after filing another process anew. -/
lemma Urgent.refile (h : a.Urgent r) (hw : a.WF) (hr : a.running ≠ some p) (hp : p ≠ r)
    {v : ProcessState} {w : UInt32} (hv : v.queue = .ready → a.priority r ≤ w) :
    (a.refile p v w).Urgent r := by
  intro i x hx
  rw [hw.mem_refile (fun hr' => absurd hr' hr)] at hx
  rw [refile_priority, Function.update_of_ne hp.symm, Function.update_apply]
  rcases hx with ⟨hx, hxp⟩ | ⟨rfl, hq, -⟩
  · rw [if_neg hxp]
    exact h i x hx
  · rw [if_pos rfl]
    exact hv hq.symm

lemma Steady.setPriority (h : a.Steady r) {w : UInt32} (hw : w.toNat < 5) (hz : a.pid r ≠ 0) :
    (a.setPriority r w).Steady r where
  wf := by
    have hlev : ∀ x, x ≠ r → (a.setPriority r w).level x = a.level x := fun x hx => by
      simp [level, hx]
    refine ⟨fun q i x => ?_, h.wf.nodup, h.wf.bound, fun x hx => ?_, h.wf.pid_inj, h.wf.running_live,
      h.wf.started, h.wf.main_notMem, ?_⟩
    · rw [setPriority_queue, h.wf.mem_queue q i x]
      by_cases hx : x = r
      · -- the running process is in no queue
        subst hx
        simp [h.running, h.ready]
      · rw [setPriority_live, setPriority_state, setPriority_running, hlev x hx]
    · by_cases hxr : x = r
      · simpa [level, hxr] using hw
      · rw [hlev x hxr]
        exact h.wf.level_lt x hx
    · obtain ⟨z, hzl, hz0, hz4, hzb⟩ := h.wf.null
      have hzr : z ≠ r := by
        rintro rfl
        exact hz hz0
      exact ⟨z, hzl, hz0, by simpa [hzr] using hz4, hzb⟩
  running := h.running
  ready := h.ready

/-- The running process leaves the system. -/
lemma Steady.endProcess (h : a.Steady r) (hz : a.pid r ≠ 0) : (a.endProcess r).WF := by
  have hrem : a.remove r = a := by rw [remove, if_pos h.running]
  rw [Sched.endProcess]
  rw [hrem]
  have hlive : ∀ x, x ∈ a.live.erase r ↔ x ≠ r ∧ x ∈ a.live := fun x => Finset.mem_erase
  refine ⟨fun q i x => ?_, h.wf.nodup, fun x hx => ?_, fun x hx => ?_, fun x hx y hy => ?_,
    by simp, by simp, fun hx => ?_, ?_⟩
  · have hmem := h.wf.mem_queue q i x
    simp only [h.running, Option.some.injEq] at hmem
    change x ∈ a.queue q i ↔ x ∈ a.live.erase r ∧ q = (a.state x).queue ∧ i = a.level x ∧ _
    simp only [setRunning_running, reduceCtorEq, false_implies, and_true, hlive]
    by_cases hx : x = r
    · subst hx
      simpa [h.ready] using hmem
    · simpa [hx, Ne.symm hx] using hmem
  · exact h.wf.bound x ((hlive x).mp hx).2
  · exact h.wf.level_lt x ((hlive x).mp hx).2
  · exact h.wf.pid_inj x ((hlive x).mp hx).2 y ((hlive y).mp hy).2
  · exact h.wf.main_notMem ((hlive _).mp hx).2
  · obtain ⟨z, hzl, hz0, hz4, hzb⟩ := h.wf.null
    refine ⟨z, (hlive z).mpr ⟨?_, hzl⟩, hz0, hz4, hzb⟩
    rintro rfl
    exact hz hz0

lemma unblockByPidSection_some {y : Bool × Sched} (hy : a.unblockByPidSection pid = some y) :
    y.2 = a ∨ ∃ p, a.find pid = some p ∧ (a.state p).isBlocked = true ∧
      y.2 = a.refile p .ready (a.priority p) := by
  rw [Sched.unblockByPidSection] at hy
  cases hf : a.find pid with
  | none =>
    rw [hf] at hy
    exact .inl (congrArg Prod.snd (Option.some.inj hy)).symm
  | some p =>
    rw [hf] at hy
    dsimp only at hy
    split_ifs at hy with hb
    · cases hr : a.running with
      | none => simp [makeReady, hr] at hy
      | some r =>
        rw [makeReady_remove hr] at hy
        exact .inr ⟨p, rfl, hb, (congrArg Prod.snd (Option.some.inj hy)).symm⟩
    · exact .inl (congrArg Prod.snd (Option.some.inj hy)).symm

/-- Unblocking keeps the invariant unless it meets the running process in a blocked queue. -/
lemma WF.unblockByPidSection (h : a.WF) {y : Bool × Sched} (hy : a.unblockByPidSection pid = some y)
    (hrun : ∀ p, a.find pid = some p → a.running = some p → a.state p = .ready) : y.2.WF := by
  rcases unblockByPidSection_some hy with he | ⟨p, hf, hb, he⟩
  · rw [he]
    exact h
  · rw [he]
    refine h.wake (h.find_live hf) ?_
    intro hr
    rw [hrun p hf hr] at hb
    cases hb

lemma Steady.unblockByTypeSection (h : a.Steady r) {y : Bool × Sched}
    (hy : a.unblockByTypeSection t = some y) : y.2.WF := by
  have hne := h.ne_firstLevel t
  rcases unblockByTypeSection_cases h.wf h.running hne with ⟨-, he⟩ | ⟨i, p, hf, he⟩
  · rw [← Option.some.inj (he.symm.trans hy)]
    exact h.wf
  · rw [← Option.some.inj (he.symm.trans hy)]
    exact h.wf.wake (h.wf.of_firstLevel hf).1 (h.running_ne (hne i p hf).symm)

lemma toUInt32_le {v : Int32} (h0 : 0 ≤ v) (h3 : v ≤ 3) : v.toUInt32 ≤ 3 := Int32.toUInt32_le h0 h3

lemma toNat_lt_five {w : UInt32} (h : w ≤ 3) : w.toNat < 5 :=
  Nat.lt_of_le_of_lt (UInt32.le_iff_toNat_le.mp h) (by decide)

lemma toUInt32_ne_zero {v : Int32} (h0 : 0 < v) : v.toUInt32 ≠ 0 := by
  intro hz
  have hv : v = 0 := by
    rw [← Int32.toInt32_toUInt32 v, hz]
    rfl
  exact absurd h0 (by rw [hv]; decide)

/-- Filing another process under a priority that `set_process_priority` accepts. -/
lemma WF.refilePriority (h : a.WF) {pid v : Int32} (h0 : 0 < pid) (hf : a.find pid.toUInt32 = some p)
    (hv0 : 0 ≤ v) (hv3 : v ≤ 3) (hr : a.running ≠ some p) :
    (a.refile p (a.state p) v.toUInt32).WF :=
  h.refile (h.find_live hf) (toNat_lt_five (toUInt32_le hv0 hv3))
    (fun hr' => absurd hr' hr) fun hz =>
      absurd ((h.find_pid hf).symm.trans hz) (toUInt32_ne_zero h0)

lemma Steady.setPrioritySection (h : a.Steady r) (hz : a.pid r ≠ 0) {pid v : Int32}
    {y : UInt32 × Bool × Sched} (hy : a.setPrioritySection pid v = some y) : y.2.2.WF := by
  rcases setPrioritySection_cases pid v h.running with
    ⟨code, he⟩ | ⟨h0, hv0, hv3, p, hf, ⟨rfl, he⟩ | ⟨hp, he⟩⟩
  · rw [← Option.some.inj (he.symm.trans hy)]
    exact h.wf
  · rw [← Option.some.inj (he.symm.trans hy)]
    exact (h.setPriority (toNat_lt_five (toUInt32_le hv0 hv3)) hz).wf
  · rw [← Option.some.inj (he.symm.trans hy)]
    exact h.wf.refilePriority h0 hf hv0 hv3 (h.running_ne hp)

/-! ### Preemption -/

/-- Pids stay, processes only leave, and a priority is changed to one of 0 to 3 only. -/
structure Frame (a b : Sched) : Prop where
  pid : b.pid = a.pid
  live : b.live ⊆ a.live
  priority : ∀ p, b.priority p = a.priority p ∨ b.priority p ≤ 3

namespace Frame

lemma refl (a : Sched) : a.Frame a := ⟨rfl, subset_rfl, fun _ => .inl rfl⟩

lemma trans {c : Sched} (h : a.Frame b) (h' : b.Frame c) : a.Frame c where
  pid := h'.pid.trans h.pid
  live := h'.live.trans h.live
  priority p := by
    rcases h'.priority p with hp | hp
    · rw [hp]
      exact h.priority p
    · exact .inr hp

lemma refile (p : PcbPtr) (v : ProcessState) {w : UInt32} (hw : w ≤ 3) :
    a.Frame (a.refile p v w) where
  pid := by simp
  live := by simp
  priority x := by
    rw [refile_priority, Function.update_apply]
    split_ifs
    · exact .inr hw
    · exact .inl rfl

lemma wake (p : PcbPtr) (v : ProcessState) : a.Frame (a.refile p v (a.priority p)) where
  pid := by simp
  live := by simp
  priority x := by simp

lemma setPriority (p : PcbPtr) {w : UInt32} (hw : w ≤ 3) : a.Frame (a.setPriority p w) where
  pid := rfl
  live := subset_rfl
  priority x := by
    rw [setPriority_priority]
    split_ifs
    · exact .inr hw
    · exact .inl rfl

lemma endProcess (p : PcbPtr) : a.Frame (a.endProcess p) where
  pid := by simp [Sched.endProcess]
  live := by simp [Sched.endProcess, Finset.erase_subset]
  priority x := by simp [Sched.endProcess]

lemma suspendRunning : a.Frame a.suspendRunning := by
  rw [Sched.suspendRunning]
  cases a.running with
  | none => exact .refl a
  | some r =>
    dsimp only
    split_ifs
    · exact ⟨rfl, subset_rfl, fun _ => .inl rfl⟩
    · exact .refl a

lemma dispatch : a.Frame a.dispatch := by
  rw [Sched.dispatch, Sched.dequeue]
  cases a.firstLevel .ready with
  | none => dsimp only; split_ifs <;> exact ⟨rfl, subset_rfl, fun _ => .inl rfl⟩
  | some x => dsimp only; split_ifs <;> exact ⟨rfl, subset_rfl, fun _ => .inl rfl⟩

lemma procSwitch (h : a.Frame b) : a.Frame b.procSwitch := h.trans (suspendRunning.trans dispatch)

end Frame

/-- The system goes on from `a`, where `r` runs, to `b`: a process runs there, and if no ready process
was more urgent than `r`, then none is more urgent than that process. -/
def GoesOn (a : Sched) (r : PcbPtr) (b : Sched) : Prop :=
  a.Frame b ∧ ∃ r', b.Steady r' ∧ (a.Urgent r → b.Urgent r')

lemma Steady.goesOn (h : a.Steady r) : a.GoesOn r a := ⟨.refl a, r, h, id⟩

lemma WF.procSwitch_goesOn (h : b.WF) (hf : a.Frame b) : a.GoesOn r b.procSwitch := by
  obtain ⟨r', hr'⟩ := h.procSwitch
  exact ⟨hf.procSwitch, r', hr'.toSteady, fun _ => hr'.urgent⟩

/-- Whatever a section did, the processor is released where a more urgent process may be ready. -/
lemma WF.releaseIf {u : Bool} (h : b.WF) (hf : a.Frame b) (hs : u = false → b.Steady r)
    (hu : u = false → a.Urgent r → b.Urgent r) : a.GoesOn r (Sched.releaseIf (u, b)) := by
  cases u with
  | false => exact ⟨hf, r, hs rfl, hu rfl⟩
  | true => exact h.procSwitch_goesOn hf

theorem Steady.block (h : a.Steady r) (hpid : pid ≠ 0) (t : BlockType) :
    a.GoesOn r (a.block pid t) := by
  have hw : (a.blockSection pid t).2.WF := h.wf.blockSection hpid
  rw [Sched.block]
  rcases blockSection_cases a pid t with he | ⟨p, hf, hb, he⟩
  · rw [he]
    exact h.goesOn
  · rw [he] at hw ⊢
    have hne : decide (a.running = some p) = false → p ≠ r := by
      rintro hu rfl
      exact absurd h.running (of_decide_eq_false hu)
    refine hw.releaseIf (.wake p _) (fun hu => h.refile (hne hu) hw) fun hu hr => ?_
    refine hr.refile h.wf (h.running_ne (hne hu)) (hne hu) fun hq => ?_
    rw [BlockType.queue_state] at hq
    cases t <;> cases hq

/-- Waking a process and releasing the processor if it is more urgent. -/
lemma Steady.wake (h : a.Steady r) (hl : p ∈ a.live) (hp : p ≠ r) :
    a.GoesOn r (Sched.releaseIf
      (decide (a.priority p < a.priority r), a.refile p .ready (a.priority p))) := by
  have hw := h.wf.wake hl (h.running_ne hp)
  refine hw.releaseIf (.wake p _) (fun _ => h.refile hp hw) fun hu hr => ?_
  exact hr.refile h.wf (h.running_ne hp) hp fun _ => UInt32.not_lt.mp (of_decide_eq_false hu)

theorem Steady.unblockByPid (h : a.Steady r) (pid : UInt32) :
    ∃ b, a.unblockByPid pid true = some b ∧ a.GoesOn r b := by
  rw [Sched.unblockByPid]
  rcases unblockByPidSection_cases pid h.running with ⟨-, he⟩ | ⟨p, hf, hb, he⟩
  · rw [he]
    exact ⟨a, rfl, h.goesOn⟩
  · rw [he]
    refine ⟨_, rfl, ?_⟩
    simpa using h.wake (h.wf.find_live hf) (h.ne_of_isBlocked hb)

/-- Without the permission to release the processor the running process stays. -/
theorem Steady.unblockByPid_false (h : a.Steady r) (pid : UInt32) :
    ∃ b, a.unblockByPid pid false = some b ∧ a.Frame b ∧ b.Steady r := by
  rw [Sched.unblockByPid]
  rcases unblockByPidSection_cases pid h.running with ⟨-, he⟩ | ⟨p, hf, hb, he⟩
  · rw [he]
    exact ⟨a, rfl, .refl a, h⟩
  · have hp := h.ne_of_isBlocked hb
    rw [he]
    refine ⟨_, rfl, ?_⟩
    simp only [Bool.and_false, Sched.releaseIf, Bool.false_eq_true, if_false]
    exact ⟨.wake p _, h.refile hp (h.wf.wake (h.wf.find_live hf) (h.running_ne hp))⟩

theorem Steady.unblockByType (h : a.Steady r) (t : BlockType) :
    ∃ b, a.unblockByType t = some b ∧ a.GoesOn r b := by
  rw [Sched.unblockByType]
  have hne := h.ne_firstLevel t
  rcases unblockByTypeSection_cases h.wf h.running hne with ⟨-, he⟩ | ⟨i, p, hf, he⟩
  · rw [he]
    exact ⟨a, rfl, h.goesOn⟩
  · rw [he]
    exact ⟨_, rfl, h.wake (h.wf.of_firstLevel hf).1 (hne i p hf).symm⟩

/-- `set_process_priority` has a test for the running process and one for the others. -/
theorem Steady.setProcessPriority (h : a.Steady r) (hz : a.pid r ≠ 0) (pid priority : Int32) :
    ∃ code b, a.setProcessPriority pid priority = some (code, b) ∧ a.GoesOn r b := by
  rw [Sched.setProcessPriority]
  rcases setPrioritySection_cases pid priority h.running with
    ⟨code, he⟩ | ⟨h0, hp0, hp3, p, hf, ⟨rfl, he⟩ | ⟨hp, he⟩⟩
  · rw [he]
    exact ⟨code, a, rfl, h.goesOn⟩
  · have hp3' := toUInt32_le hp0 hp3
    have hs := h.setPriority (toNat_lt_five hp3') hz
    rw [he]
    refine ⟨_, _, rfl, hs.wf.releaseIf (.setPriority p hp3') (fun _ => hs) fun hu hr i x hx => ?_⟩
    -- the running process has become more urgent
    have hxp : x ≠ p := by
      rintro rfl
      exact h.wf.notMem_of_running h.running h.ready hx
    simp only [setPriority_priority, if_neg hxp, if_true]
    exact UInt32.le_trans (UInt32.not_lt.mp (of_decide_eq_false hu)) (hr i x hx)
  · have hw := h.wf.refilePriority h0 hf hp0 hp3 (h.running_ne hp)
    rw [he]
    refine ⟨_, _, rfl, hw.releaseIf (.refile p _ (toUInt32_le hp0 hp3)) (fun _ => h.refile hp hw)
      fun hu hr => ?_⟩
    refine hr.refile h.wf (h.running_ne hp) hp fun hq => ?_
    rw [hq] at hu
    exact UInt32.not_lt.mp (by simpa using hu)

theorem Steady.terminate (h : a.Steady r) (hz : a.pid r ≠ 0) :
    ∃ b, a.terminate = some b ∧ a.GoesOn r b :=
  ⟨_, by rw [Sched.terminate, h.running]; rfl, (h.endProcess hz).procSwitch_goesOn (.endProcess r)⟩

end Spec.Sched

/-! ### The code implements it -/

namespace Spec.Sched

variable {a b : Sched} {p : PcbPtr} {q : QueueName} {i : Nat}

lemma WF.placed (h : a.WF) : a.Placed where
  home hp := by
    obtain ⟨-, hq, hi, -⟩ := (h.mem_queue _ _ _).mp hp
    exact ⟨hq, hi⟩
  bound hp := h.bound _ (h.live_of_mem hp)

/-- Changing the fields of a process that is in no queue. -/
lemma Placed.congr (h : a.Placed) (hb : ∀ q i x, x ∈ b.queue q i → x ∈ a.queue q i ∧ x ≠ p)
    (hstate : ∀ x, x ≠ p → b.state x = a.state x) (hlevel : ∀ x, x ≠ p → b.level x = a.level x)
    (hcount : b.count = a.count) : b.Placed where
  home := by
    intro q i x hx
    obtain ⟨hxa, hxp⟩ := hb q i x hx
    rw [hstate x hxp, hlevel x hxp]
    exact h.home hxa
  bound hx := hcount ▸ h.bound (hb _ _ _ hx).1

/-- After `remove_process` the fields of the process can be written: it is in no queue. -/
lemma WF.placed_remove (h : a.WF) (hr : a.running = some p → a.state p = .ready)
    (v : ProcessState) (w : UInt32) : (((a.remove p).setState p v).setPriority p w).Placed := by
  refine h.placed.congr (p := p) (fun q i x hx => (h.mem_remove hr).mp hx) (fun x hx => ?_)
    (fun x hx => ?_) (by simp)
  · simp [hx]
  · simp [level, hx]

end Spec.Sched

/-- The outcomes of a critical section of the code and of the abstract scheduler agree. -/
def RepFlag (x : Bool × Scheduler) (y : Bool × Sched) : Prop := x.1 = y.1 ∧ Rep x.2 y.2

namespace Rep

variable {s s' : Scheduler} {a : Sched} {p : PcbPtr} {q : QueueName} {i : Nat} {pid : UInt32}

lemma setRunning (h : Rep s a) (r : Option PcbPtr) :
    Rep { s with runningProcess := r } (a.setRunning r) :=
  ⟨h.pid, h.state, h.priority, h.count, rfl, h.main, h.live, h.chain⟩

lemma dispatch (h : Rep s a) (hp : a.Placed) : Rep s.dispatch a.dispatch := by
  obtain ⟨hfst, hrep⟩ := h.dequeueProcess hp .ready
  rw [Scheduler.dispatch, Sched.dispatch]
  generalize hs : s.dequeueProcess .ready = x at hfst hrep
  generalize ha : a.dequeue .ready = y at hfst hrep
  obtain ⟨p, s₁⟩ := x
  obtain ⟨p', a₁⟩ := y
  obtain rfl : p = p' := hfst
  replace hrep : Rep s₁ a₁ := hrep
  have hmain : p.getD s₁.mainProcess = p.getD a₁.main := by rw [hrep.main]
  simp only [hmain]
  have hrun := hrep.setRunning (some (p.getD a₁.main))
  rw [hrun.state]
  split_ifs
  · exact hrun.setState _ _
  · exact hrun

/-- `proc_switch_handler` -/
theorem procSwitchHandler (h : Rep s a) (hw : a.WF) :
    ∃ s', s.procSwitchHandler = some s' ∧ Rep s' a.procSwitch := by
  have hsusp : ∃ s', s.suspendRunning = some s' ∧ Rep s' a.suspendRunning := by
    rw [Scheduler.suspendRunning, Sched.suspendRunning]
    rw [h.running]
    cases hr : a.running with
    | none => exact ⟨s, rfl, h⟩
    | some r =>
      simp only [h.main, h.state]
      split_ifs with hready
      · exact h.enqueueProcess hw.placed (fun q i => hw.notMem_of_running hr hready.2) .ready
      · exact ⟨s, rfl, h⟩
  obtain ⟨s', hs', hrep⟩ := hsusp
  have hplaced : a.suspendRunning.Placed := ⟨hw.suspendRunning.placed.home, hw.suspendRunning.placed.bound⟩
  exact ⟨s'.dispatch, by rw [Scheduler.procSwitchHandler, hs']; rfl, hrep.dispatch hplaced⟩

theorem releaseIf {x : Bool × Scheduler} {y : Bool × Sched} (h : RepFlag x y) (hw : y.2.WF) :
    ∃ s', Scheduler.releaseIf x = some s' ∧ Rep s' (Sched.releaseIf y) := by
  obtain ⟨hflag, hrep⟩ := h
  rw [Scheduler.releaseIf, Sched.releaseIf]
  rw [hflag]
  split_ifs
  · exact hrep.procSwitchHandler hw
  · exact ⟨_, rfl, hrep⟩

/-- Filing a process that was taken out of its queue. -/
lemma enqueue_removed (h : Rep s (a.remove p)) (hw : a.WF)
    (hr : a.running = some p → a.state p = .ready) (v : ProcessState) :
    ∃ s', (s.setState p v).enqueueProcess v.queue p = some s' ∧
      Rep s' (a.refile p v (a.priority p)) := by
  have hpl := hw.placed_remove hr v (a.priority p)
  have hself := Sched.setPriority_self ((a.remove p).setState p v) p
  rw [Sched.setState_priority, Sched.remove_priority] at hself
  rw [Sched.refile, hself]
  rw [hself] at hpl
  exact (h.setState p v).enqueueProcess hpl (fun q i hx => ((hw.mem_remove hr).mp hx).2 rfl) v.queue

/-- `block_process` up to the release of the processor. -/
theorem blockSection (h : Rep s a) (hw : a.WF) (pid : UInt32) (t : BlockType) :
    ∃ x, s.blockSection pid t = some x ∧ RepFlag x (a.blockSection pid t) := by
  rw [Scheduler.blockSection]
  rw [h.getProcessByPid hw.placed]
  rw [Sched.blockSection]
  cases hf : a.find pid with
  | none => exact ⟨_, rfl, rfl, h⟩
  | some p =>
    simp only [h.state, Option.bind_eq_bind, Option.bind_some]
    split_ifs with hb
    · exact ⟨_, rfl, rfl, h⟩
    · have hr : a.running = some p → a.state p = .ready := by
        intro hr
        have hnew := hw.started p hr
        cases hs : a.state p <;> simp_all [ProcessState.isBlocked]
      obtain ⟨s₁, hs₁, hrep₁⟩ := h.removeProcess hw.placed p
      obtain ⟨s₂, hs₂, hrep₂⟩ := hrep₁.enqueue_removed hw hr t.state
      rw [BlockType.queue_state] at hs₂
      rw [hs₁, Option.bind_some, hs₂]
      rw [Sched.refile_priority_self, BlockType.queue_state] at hrep₂
      refine ⟨_, rfl, ?_, hrep₂⟩
      simp [hrep₂.running, Sched.enqueue]

lemma makeReady (h : Rep s (a.remove p)) (hw : a.WF)
    (hr : a.running = some p → a.state p = .ready) :
    Option.Rel RepFlag (s.makeReady p) ((a.remove p).makeReady p) := by
  obtain ⟨s', hs', hrep⟩ := h.enqueue_removed hw hr .ready
  rw [Scheduler.makeReady, Sched.makeReady]
  rw [show QueueName.ready = ProcessState.ready.queue from rfl, hs', ← Sched.refile_priority_self,
    Sched.remove_running]
  simp only [Option.bind_eq_bind, Option.bind_some, hrep.running, Sched.refile_running]
  cases a.running with
  | none => exact .none
  | some r =>
    refine .some ⟨?_, hrep⟩
    simp [hrep.priority]

/-- `unblock_process_by_pid` up to the release of the processor. -/
theorem unblockByPidSection (h : Rep s a) (hw : a.WF) (pid : UInt32)
    (hrun : ∀ p, a.find pid = some p → a.running = some p → a.state p = .ready) :
    Option.Rel RepFlag (s.unblockByPidSection pid) (a.unblockByPidSection pid) := by
  rw [Scheduler.unblockByPidSection]
  rw [h.getProcessByPid hw.placed]
  rw [Sched.unblockByPidSection]
  cases hf : a.find pid with
  | none => exact .some ⟨rfl, h⟩
  | some p =>
    simp only [h.state, Option.bind_eq_bind, Option.bind_some]
    split_ifs with hb
    · obtain ⟨s₁, hs₁, hrep₁⟩ := h.removeProcess hw.placed p
      rw [hs₁, Option.bind_some]
      exact hrep₁.makeReady hw (hrun p hf)
    · exact .some ⟨rfl, h⟩

/-- `unblock_process_by_type` up to the release of the processor. -/
theorem unblockByTypeSection (h : Rep s a) (hw : a.WF) (t : BlockType)
    (hrun : ∀ i p, a.firstLevel t.queue = some (i, p) → a.running ≠ some p) :
    Option.Rel RepFlag (s.unblockByTypeSection t) (a.unblockByTypeSection t) := by
  rw [Scheduler.unblockByTypeSection, Sched.unblockByTypeSection]
  rw [h.firstLevel]
  cases hf : a.firstLevel t.queue with
  | none => exact .some ⟨rfl, h⟩
  | some x =>
    obtain ⟨i, p⟩ := x
    have hrep := h.unlink_firstLevel hw.placed hf
    rw [hw.setQueue_tail hf (hrun i p hf)] at hrep
    dsimp only
    rw [hw.setQueue_tail hf (hrun i p hf)]
    exact hrep.makeReady hw fun hr => absurd hr (hrun i p hf)

/-- `set_process_priority` up to the release of the processor. -/
theorem setPrioritySection (h : Rep s a) (hw : a.WF) (pid priority : Int32) :
    Option.Rel (fun x y => x.1 = y.1 ∧ RepFlag x.2 y.2) (s.setPrioritySection pid priority)
      (a.setPrioritySection pid priority) := by
  rw [Scheduler.setPrioritySection]
  rw [h.getProcessByPid hw.placed]
  rw [Sched.setPrioritySection]
  split_ifs
  · exact .some ⟨rfl, rfl, h⟩
  · exact .some ⟨rfl, rfl, h⟩
  · cases hf : a.find pid.toUInt32 with
    | none => exact .some ⟨rfl, rfl, h⟩
    | some p =>
      simp only [h.priority, h.running, Option.bind_eq_bind, Option.bind_some]
      by_cases hp : priority.toUInt32 = a.priority p
      · simp only [hp, if_true]
        exact .some ⟨rfl, rfl, h⟩
      simp only [hp, if_false]
      by_cases hr : a.running = some p
      · simp only [hr, ne_eq, not_true, if_false, if_true]
        exact .some ⟨rfl, rfl, h.setPriority p priority.toUInt32⟩
      · simp only [hr, ne_eq, not_false_eq_true, if_true]
        obtain ⟨s₁, hs₁, hrep₁⟩ := h.removeProcess hw.placed p
        have hready : a.running = some p → a.state p = .ready := fun hr' => absurd hr' hr
        have hpl := hw.placed_remove hready (a.state p) priority.toUInt32
        rw [← Sched.remove_state (a := a) (p := p), Sched.setState_self] at hpl
        obtain ⟨s₂, hs₂, hrep₂⟩ := (hrep₁.setPriority p priority.toUInt32).enqueueProcess hpl
          (fun q i hx => ((hw.mem_remove hready).mp hx).2 rfl) (a.state p).queue
        have hstate : ((s₁.setPriority p priority.toUInt32).pcb p).state = a.state p := by
          rw [(hrep₁.setPriority p priority.toUInt32).state]
          simp
        rw [hs₁, Option.bind_some, hstate, hs₂]
        simp only [Option.bind_some, hrep₂.running, Sched.enqueue, Sched.setQueue_running,
          Sched.setPriority_running, Sched.remove_running]
        cases ha : a.running with
        | none => exact .none
        | some r =>
          have hrp : r ≠ p := by
            rintro rfl
            exact hr ha
          simp only [if_neg hrp]
          refine .some ⟨rfl, ?_, hrep₂⟩
          simp [hrep₂.priority, Sched.enqueue, hrp]

/-! ### Whole operations -/

/-- A critical section that keeps the invariant, followed by the release of the processor. -/
lemma releaseAfter {o : Option (Bool × Scheduler)} {o' : Option (Bool × Sched)}
    (h : Option.Rel RepFlag o o') (hw : ∀ y ∈ o', y.2.WF) :
    Option.Rel Rep (o.bind Scheduler.releaseIf) (o'.map Sched.releaseIf) := by
  cases h with
  | none => exact .none
  | some h =>
    obtain ⟨s', hs', hrep⟩ := Rep.releaseIf h (hw _ rfl)
    simp only [Option.bind_some, Option.map_some, hs']
    exact .some hrep

theorem blockProcess (h : Rep s a) (hw : a.WF) (hpid : pid ≠ 0) (t : BlockType) :
    ∃ s', s.blockProcess pid t = some s' ∧ Rep s' (a.block pid t) := by
  obtain ⟨x, hx, hrep⟩ := h.blockSection hw pid t
  obtain ⟨s', hs', hrep'⟩ := Rep.releaseIf hrep (hw.blockSection hpid)
  exact ⟨s', by rw [Scheduler.blockProcess, hx]; exact hs', hrep'⟩

variable {r : PcbPtr}

theorem unblockProcessByPid (h : Rep s a) (hs : a.Steady r) (pid : UInt32) (allow : Bool) :
    Option.Rel Rep (s.unblockProcessByPid pid allow) (a.unblockByPid pid allow) := by
  have hsec := h.unblockByPidSection hs.wf pid fun p _ hr => hs.ready_of_running hr
  rw [Scheduler.unblockProcessByPid, Sched.unblockByPid]
  generalize s.unblockByPidSection pid = o at hsec
  generalize hy : a.unblockByPidSection pid = o' at hsec
  cases hsec with
  | none => exact .none
  | @some x y hrel =>
    obtain ⟨hflag, hrep⟩ := hrel
    have hrelease : RepFlag (x.1 && allow, x.2) (y.1 && allow, y.2) := ⟨by rw [hflag], hrep⟩
    have hw : y.2.WF := hs.wf.unblockByPidSection hy fun p _ hr => hs.ready_of_running hr
    obtain ⟨s', hs', hrep'⟩ := Rep.releaseIf hrelease hw
    simp only [Option.bind_eq_bind, Option.bind_some, Option.map_some]
    rw [hs']
    exact .some hrep'

theorem unblockProcessByType (h : Rep s a) (hs : a.Steady r) (t : BlockType) :
    Option.Rel Rep (s.unblockProcessByType t) (a.unblockByType t) := by
  refine releaseAfter (h.unblockByTypeSection hs.wf t fun i p hf => ?_)
    fun y hy => hs.unblockByTypeSection hy
  rw [hs.running]
  simpa using hs.ne_firstLevel t i p hf

theorem setProcessPriority (h : Rep s a) (hs : a.Steady r) (hz : a.pid r ≠ 0)
    (pid priority : Int32) :
    Option.Rel (fun x y => x.1 = y.1 ∧ Rep x.2 y.2) (s.setProcessPriority pid priority)
      (a.setProcessPriority pid priority) := by
  have hsec := h.setPrioritySection hs.wf pid priority
  rw [Scheduler.setProcessPriority, Sched.setProcessPriority]
  generalize s.setPrioritySection pid priority = o at hsec
  generalize hy : a.setPrioritySection pid priority = o' at hsec
  cases hsec with
  | none => exact .none
  | some hrel =>
    obtain ⟨hcode, hrel⟩ := hrel
    obtain ⟨s', hs', hrep'⟩ := Rep.releaseIf hrel (hs.setPrioritySection hz hy)
    simp only [Option.bind_eq_bind, Option.bind_some, Option.map_some]
    rw [Prod.mk.eta, hs']
    exact .some ⟨hcode, hrep'⟩

/-- The end of the running process. -/
theorem terminate (h : Rep s a) (hs : a.Steady r) (hz : a.pid r ≠ 0) :
    Option.Rel Rep s.terminate a.terminate := by
  obtain ⟨s₁, hs₁, hrep₁⟩ := h.removeProcess hs.wf.placed r
  have hrep : Rep { s₁ with runningProcess := none, live := s₁.live.erase r } (a.endProcess r) :=
    ⟨hrep₁.pid, hrep₁.state, hrep₁.priority, hrep₁.count, rfl, hrep₁.main,
      congrArg (·.erase r) hrep₁.live |>.trans (by simp [Sched.endProcess]), hrep₁.chain⟩
  obtain ⟨s₂, hs₂, hrep₂⟩ := hrep.procSwitchHandler (hs.endProcess hz)
  rw [Scheduler.terminate, Sched.terminate]
  rw [h.running, hs.running]
  simp only [Scheduler.endProcess, hs₁, Option.map_some]
  refine Eq.subst (motive := fun o => Option.Rel Rep o _) hs₂.symm (.some hrep₂)

end Rep

end RtxKernel
