import RtxKernel.Core.Operations

/-!
# Who is woken

`a.Wakes b` says that on the way from `a` to `b` no process blocks and none ends. This holds of every
operation of the scheduler apart from the blocking ones and the end of a process. A process that blocks,
or ends, does so alone: what follows wakes (`Steady.block_wakes`, `Steady.terminate_wakes`).
-/

namespace RtxKernel.Spec

namespace Sched

variable {a b c : Sched} {p x r : PcbPtr} {u : Bool}

/-- No process blocks, and none ends. -/
structure Wakes (a b : Sched) : Prop where
  pid : b.pid = a.pid
  live : b.live = a.live
  state : ∀ p, (b.state p).isBlocked = true → b.state p = a.state p

/-- The process with this pid, if there is one, is not blocked. -/
def Awake (a : Sched) (pid : UInt32) : Prop :=
  ∀ p ∈ a.live, a.pid p = pid → (a.state p).isBlocked = false

namespace Wakes

lemma refl (a : Sched) : a.Wakes a := ⟨rfl, rfl, fun _ _ => rfl⟩

lemma trans (h : a.Wakes b) (h' : b.Wakes c) : a.Wakes c where
  pid := h'.pid.trans h.pid
  live := h'.live.trans h.live
  state p hp := by
    have hb := h'.state p hp
    rw [hb] at hp ⊢
    exact h.state p hp

/-- A process that is not blocked stays so. -/
lemma awake (h : a.Wakes b) (hp : (a.state p).isBlocked = false) : (b.state p).isBlocked = false := by
  by_contra hb
  rw [Bool.not_eq_false] at hb
  rw [h.state p hb, hp] at hb
  cases hb

lemma awakePid (h : a.Wakes b) {pid : UInt32} (ha : a.Awake pid) : b.Awake pid := by
  intro p hp hpid
  rw [h.live] at hp
  rw [h.pid] at hpid
  exact h.awake (ha p hp hpid)

lemma setRunning (a : Sched) (v : Option PcbPtr) : a.Wakes (a.setRunning v) := ⟨rfl, rfl, fun _ _ => rfl⟩

lemma setQueue (a : Sched) (q : QueueName) (i : Nat) (l : List PcbPtr) : a.Wakes (a.setQueue q i l) :=
  ⟨rfl, rfl, fun _ _ => rfl⟩

lemma setReady (a : Sched) (p : PcbPtr) : a.Wakes (a.setState p .ready) := by
  refine ⟨rfl, rfl, ?_⟩
  intro x hx
  rw [setState_state] at hx ⊢
  split_ifs at hx ⊢
  · cases hx
  · rfl

/-- Filing a process under another priority, or as a ready one. -/
lemma refile (a : Sched) (p : PcbPtr) {v : ProcessState} (hv : v = .ready ∨ v = a.state p) (w : UInt32) :
    a.Wakes (a.refile p v w) := by
  refine ⟨refile_pid .., refile_live .., ?_⟩
  intro x hx
  rw [refile_state, Function.update_apply] at hx ⊢
  split_ifs at hx ⊢ with hxp
  · subst hxp
    rcases hv with rfl | rfl
    · cases hx
    · rfl
  · rfl

lemma suspendRunning (a : Sched) : a.Wakes a.suspendRunning := by
  rw [Sched.suspendRunning]
  cases a.running with
  | none => exact .refl a
  | some r =>
    dsimp only
    split_ifs
    · exact setQueue ..
    · exact .refl a

lemma dequeue (a : Sched) (q : QueueName) : a.Wakes (a.dequeue q).2 := by
  rw [Sched.dequeue]
  cases a.firstLevel q with
  | none => exact .refl a
  | some x => exact setQueue ..

lemma dispatch (a : Sched) : a.Wakes a.dispatch := by
  rw [Sched.dispatch]
  have hd := dequeue a .ready
  dsimp only
  split_ifs
  · exact (hd.trans (setRunning ..)).trans (setReady ..)
  · exact hd.trans (setRunning ..)

lemma procSwitch (a : Sched) : a.Wakes a.procSwitch := (suspendRunning a).trans (dispatch _)

lemma releaseIf (h : a.Wakes b) : a.Wakes (Sched.releaseIf (u, b)) := by
  cases u with
  | false => exact h
  | true => exact h.trans (procSwitch b)

end Wakes

lemma Steady.wakes_unblockByPid (h : a.Steady r) {pid : UInt32} {allow : Bool}
    (hb : a.unblockByPid pid allow = some b) : a.Wakes b ∧ b.Awake pid := by
  rw [Sched.unblockByPid] at hb
  obtain ⟨y, hy, rfl⟩ := Option.map_eq_some_iff.mp hb
  rcases unblockByPidSection_cases pid h.running with ⟨hnot, he⟩ | ⟨p, hf, -, he⟩
  · obtain rfl := Option.some.inj (he.symm.trans hy)
    have hw : a.Wakes (Sched.releaseIf (false && allow, a)) := (Wakes.refl a).releaseIf
    refine ⟨hw, hw.awakePid ?_⟩
    intro p hp hpid
    exact hnot p (h.wf.find_eq_some_iff.mpr ⟨hp, hpid⟩)
  · obtain rfl := Option.some.inj (he.symm.trans hy)
    have hfile := Wakes.refile a p (.inl rfl) (a.priority p)
    refine ⟨hfile.releaseIf, Wakes.awakePid (Wakes.refl _).releaseIf ?_⟩
    intro x hx hpid
    rw [hfile.live] at hx
    rw [hfile.pid] at hpid
    obtain rfl := Option.some.inj ((h.wf.find_eq_some_iff.mpr ⟨hx, hpid⟩).symm.trans hf)
    simp [ProcessState.isBlocked]

lemma state_eq_of_queue {v : ProcessState} {t : BlockType} (h : t.queue = v.queue) : v = t.state := by
  cases v <;> cases t <;> first | rfl | cases h

/-- If a process waits for `t` then one is woken. -/
lemma Steady.wakes_unblockByType (h : a.Steady r) {t : BlockType} (hb : a.unblockByType t = some b) :
    a.Wakes b ∧ ((∃ p ∈ a.live, a.state p = t.state) →
      ∃ p ∈ a.live, a.state p = t.state ∧ (b.state p).isBlocked = false) := by
  rw [Sched.unblockByType] at hb
  obtain ⟨y, hy, rfl⟩ := Option.map_eq_some_iff.mp hb
  rcases unblockByTypeSection_cases h.wf h.running (h.ne_firstLevel t) with
    ⟨hempty, he⟩ | ⟨i, p, hf, he⟩
  · obtain rfl := Option.some.inj (he.symm.trans hy)
    refine ⟨(Wakes.refl a).releaseIf, ?_⟩
    rintro ⟨p, hp, hstate⟩
    have hmem : p ∈ a.queue t.queue (a.level p) := by
      refine (h.wf.mem_queue _ _ p).mpr ⟨hp, by rw [hstate, BlockType.queue_state], rfl, ?_⟩
      intro hr
      rw [h.ready_of_running hr] at hstate
      cases t <;> cases hstate
    rw [hempty _ (h.wf.level_lt p hp)] at hmem
    cases hmem
  · obtain rfl := Option.some.inj (he.symm.trans hy)
    have hw := Wakes.refile a p (.inl rfl) (a.priority p)
    refine ⟨hw.releaseIf, ?_⟩
    intro _
    obtain ⟨hl, hq, -, -, -⟩ := h.wf.of_firstLevel hf
    refine ⟨p, hl, state_eq_of_queue hq, ?_⟩
    have hready : ((a.refile p .ready (a.priority p)).state p).isBlocked = false := by
      simp [ProcessState.isBlocked]
    exact ((Wakes.refl _).releaseIf).awake hready

lemma Steady.wakes_setProcessPriority (h : a.Steady r) {pid v : Int32} {x : UInt32 × Sched}
    (hx : a.setProcessPriority pid v = some x) : a.Wakes x.2 := by
  rw [Sched.setProcessPriority] at hx
  obtain ⟨y, hy, rfl⟩ := Option.map_eq_some_iff.mp hx
  rcases setPrioritySection_cases pid v h.running with
    ⟨code, he⟩ | ⟨-, -, -, p, -, ⟨-, he⟩ | ⟨-, he⟩⟩
  · obtain rfl := Option.some.inj (he.symm.trans hy)
    exact .refl a
  · obtain rfl := Option.some.inj (he.symm.trans hy)
    exact Wakes.releaseIf ⟨rfl, rfl, fun _ _ => rfl⟩
  · obtain rfl := Option.some.inj (he.symm.trans hy)
    exact (Wakes.refile a p (.inr rfl) _).releaseIf

/-- The running process can block. -/
lemma Steady.blockSection_running (h : a.Steady r) (t : BlockType) :
    a.blockSection a.currentPid t = (true, (a.setState r t.state).enqueue t.queue r) := by
  have hpid : a.currentPid = a.pid r := by rw [currentPid, h.running]
  rw [blockSection, hpid, h.wf.find_running h.running]
  simp [h.ready, ProcessState.isBlocked, h.running, remove]

/-- The running process blocks, and nobody else. -/
lemma Steady.block_wakes (h : a.Steady r) (t : BlockType) :
    (a.setState r t.state).Wakes (a.block a.currentPid t) := by
  rw [Sched.block, h.blockSection_running]
  apply Wakes.releaseIf
  exact .setQueue ..

/-- The running process ends, and nobody else. -/
lemma Steady.terminate_wakes (h : a.Steady r) (hb : a.terminate = some b) :
    Wakes { a with live := a.live.erase r } b := by
  rw [Sched.terminate] at hb
  rw [h.running] at hb
  obtain rfl := Option.some.inj hb
  refine Wakes.trans ?_ (.procSwitch _)
  rw [Sched.endProcess]
  rw [remove, if_pos h.running]
  exact .setRunning _ _

/-! ### Who stops waiting -/

/-- From `a` to `b` only processes in `s` leave the state `v`. -/
structure Rouses (v : ProcessState) (a b : Sched) (s : PcbPtr → Prop) : Prop where
  pid : b.pid = a.pid
  state : ∀ p, a.state p = v → b.state p = v ∨ s p

namespace Rouses

variable {v : ProcessState} {s t : PcbPtr → Prop}

lemma refl (v : ProcessState) (a : Sched) (s : PcbPtr → Prop) : Rouses v a a s := ⟨rfl, fun _ => .inl⟩

lemma trans (h : Rouses v a b s) (h' : Rouses v b c s) : Rouses v a c s where
  pid := h'.pid.trans h.pid
  state p hp := by
    rcases h.state p hp with hb | hs
    · exact h'.state p hb
    · exact .inr hs

lemma mono (h : Rouses v a b s) (hst : ∀ p, s p → t p) : Rouses v a b t :=
  ⟨h.pid, fun p hp => (h.state p hp).imp_right (hst p)⟩

lemma setRunning (a : Sched) (x : Option PcbPtr) : Rouses v a (a.setRunning x) s := ⟨rfl, fun _ => .inl⟩

lemma setQueue (a : Sched) (q : QueueName) (i : Nat) (l : List PcbPtr) : Rouses v a (a.setQueue q i l) s :=
  ⟨rfl, fun _ => .inl⟩

lemma setState (a : Sched) {v' : ProcessState} (hp : a.state p = v → s p) : Rouses v a (a.setState p v') s := by
  refine ⟨rfl, ?_⟩
  intro x hx
  rw [setState_state]
  split_ifs with hxp
  · exact .inr (hxp ▸ hp (hxp ▸ hx))
  · exact .inl hx

lemma refile (a : Sched) {v' : ProcessState} {w : UInt32} (hp : a.state p = v → v' = v ∨ s p) :
    Rouses v a (a.refile p v' w) s := by
  refine ⟨refile_pid .., ?_⟩
  intro x hx
  rw [refile_state, Function.update_apply]
  split_ifs with hxp
  · exact hxp ▸ hp (hxp ▸ hx)
  · exact .inl hx

lemma suspendRunning (a : Sched) : Rouses v a a.suspendRunning s := by
  rw [Sched.suspendRunning]
  cases a.running with
  | none => exact refl v a s
  | some r =>
    dsimp only
    split_ifs
    · exact setQueue ..
    · exact refl v a s

lemma dequeue (a : Sched) (q : QueueName) : Rouses v a (a.dequeue q).2 s := by
  rw [Sched.dequeue]
  cases a.firstLevel q with
  | none => exact refl v a s
  | some x => exact setQueue ..

/-- Only a process that is new is started. -/
lemma procSwitch (hv : v.isBlocked = true) (a : Sched) : Rouses v a a.procSwitch s := by
  apply (suspendRunning a).trans
  have hd := dequeue (v := v) (s := s) a.suspendRunning .ready
  change Rouses v _ a.suspendRunning.dispatch s
  rw [Sched.dispatch]
  dsimp only
  split_ifs with hnew
  · apply (hd.trans (setRunning ..)).trans
    apply setState
    intro hp
    rw [hnew] at hp
    rw [← hp] at hv
    cases hv
  · exact hd.trans (setRunning ..)

lemma releaseIf (hv : v.isBlocked = true) (h : Rouses v a b s) : Rouses v a (Sched.releaseIf (u, b)) s := by
  cases u with
  | false => exact h
  | true => exact h.trans (procSwitch hv b)

end Rouses

variable {v : ProcessState} {s : PcbPtr → Prop}

lemma Steady.rouses_unblockByPid (h : a.Steady r) (hv : v.isBlocked = true) {pid : UInt32} {allow : Bool}
    (hb : a.unblockByPid pid allow = some b) : Rouses v a b fun p => a.pid p = pid := by
  rw [Sched.unblockByPid] at hb
  obtain ⟨y, hy, rfl⟩ := Option.map_eq_some_iff.mp hb
  rcases unblockByPidSection_cases pid h.running with ⟨-, he⟩ | ⟨p, hf, -, he⟩
  · obtain rfl := Option.some.inj (he.symm.trans hy)
    exact (Rouses.refl v a _).releaseIf hv
  · obtain rfl := Option.some.inj (he.symm.trans hy)
    apply Rouses.releaseIf hv
    apply Rouses.refile
    intro _
    exact .inr (h.wf.find_pid hf)

lemma Steady.rouses_unblockByType (h : a.Steady r) (hv : v.isBlocked = true) {t : BlockType}
    (hb : a.unblockByType t = some b) : Rouses v a b fun _ => v = t.state := by
  rw [Sched.unblockByType] at hb
  obtain ⟨y, hy, rfl⟩ := Option.map_eq_some_iff.mp hb
  rcases unblockByTypeSection_cases h.wf h.running (h.ne_firstLevel t) with ⟨-, he⟩ | ⟨i, p, hf, he⟩
  · obtain rfl := Option.some.inj (he.symm.trans hy)
    exact (Rouses.refl v a _).releaseIf hv
  · obtain rfl := Option.some.inj (he.symm.trans hy)
    obtain ⟨-, hq, -, -, -⟩ := h.wf.of_firstLevel hf
    apply Rouses.releaseIf hv
    apply Rouses.refile
    intro hp
    exact .inr (hp.symm.trans (state_eq_of_queue hq))

lemma Steady.rouses_setProcessPriority (h : a.Steady r) (hv : v.isBlocked = true) {pid w : Int32}
    {x : UInt32 × Sched} (hx : a.setProcessPriority pid w = some x) : Rouses v a x.2 s := by
  rw [Sched.setProcessPriority] at hx
  obtain ⟨y, hy, rfl⟩ := Option.map_eq_some_iff.mp hx
  rcases setPrioritySection_cases pid w h.running with
    ⟨code, he⟩ | ⟨-, -, -, p, -, ⟨-, he⟩ | ⟨-, he⟩⟩
  · obtain rfl := Option.some.inj (he.symm.trans hy)
    exact .refl v a s
  · obtain rfl := Option.some.inj (he.symm.trans hy)
    exact Rouses.releaseIf hv ⟨rfl, fun _ => .inl⟩
  · obtain rfl := Option.some.inj (he.symm.trans hy)
    apply Rouses.releaseIf hv
    apply Rouses.refile
    exact .inl

lemma Steady.rouses_block (h : a.Steady r) (hv : v.isBlocked = true) (t : BlockType) :
    Rouses v a (a.block a.currentPid t) s := by
  rw [Sched.block, h.blockSection_running]
  apply Rouses.releaseIf hv
  refine Rouses.trans ?_ (.setQueue ..)
  apply Rouses.setState
  intro hp
  rw [h.ready] at hp
  rw [← hp] at hv
  cases hv

lemma Steady.rouses_terminate (h : a.Steady r) (hv : v.isBlocked = true) (hb : a.terminate = some b) :
    Rouses v a b s := by
  rw [Sched.terminate, h.running] at hb
  obtain rfl := Option.some.inj hb
  refine Rouses.trans ?_ (.procSwitch hv _)
  rw [Sched.endProcess, remove, if_pos h.running]
  exact ⟨rfl, fun _ => .inl⟩

end Sched

end RtxKernel.Spec
