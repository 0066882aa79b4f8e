import RtxKernel.Core.Spec

/-!
# The invariant of the scheduler

`a.WF` says where the processes are: a live process that is not the running one is in exactly one
queue, once, and that queue is the one its own state and priority name. The running process is in
no queue while it is ready; once it has blocked itself it is already in its blocked queue, although
it runs until it releases the processor.

Every change of a process goes through `WF.refile`, which takes it out of its queue, writes its state
and priority and files it again. The process switch needs no more than the invariant and ends in a
`Settled` state: some process runs, it is ready, and no ready process is more urgent.
-/

namespace RtxKernel.Spec.Sched

variable {a : Sched} {p x r : PcbPtr} {q : QueueName} {i : Nat}

/-- Every live process is where its fields say, and the NULL process can always run. -/
structure WF (a : Sched) : Prop where
  mem_queue : ∀ q i p, p ∈ a.queue q i ↔
    p ∈ a.live ∧ q = (a.state p).queue ∧ i = a.level p ∧ (a.running = some p → a.state p ≠ .ready)
  nodup : ∀ q i, (a.queue q i).Nodup
  bound : ∀ p ∈ a.live, p < a.count
  level_lt : ∀ p ∈ a.live, a.level p < 5
  pid_inj : ∀ p ∈ a.live, ∀ x ∈ a.live, a.pid p = a.pid x → p = x
  running_live : ∀ r, a.running = some r → r ∈ a.live
  started : ∀ r, a.running = some r → a.state r ≠ .new
  main_notMem : a.main ∉ a.live
  null : ∃ z ∈ a.live, a.pid z = 0 ∧ a.priority z = 4 ∧ (a.state z).isBlocked = false

/-- The invariant holds and the process `r` runs; it is not about to give the CPU up. -/
structure Steady (a : Sched) (r : PcbPtr) : Prop where
  wf : a.WF
  running : a.running = some r
  ready : a.state r = .ready

/-- No process in the ready queue is more urgent than `r`. -/
def Urgent (a : Sched) (r : PcbPtr) : Prop :=
  ∀ i p, p ∈ a.queue .ready i → a.priority r ≤ a.priority p

/-- The process `r` runs and no ready process is more urgent. -/
structure Settled (a : Sched) (r : PcbPtr) : Prop extends a.Steady r where
  urgent : a.Urgent r

@[simp] lemma setState_self (a : Sched) (p : PcbPtr) : a.setState p (a.state p) = a := by
  simp [setState]

@[simp] lemma setPriority_self (a : Sched) (p : PcbPtr) : a.setPriority p (a.priority p) = a := by
  simp [setPriority]

lemma isBlocked_eq_false_iff {v : ProcessState} : v.isBlocked = false ↔ v.queue = .ready := by
  cases v <;> simp [ProcessState.isBlocked, ProcessState.queue]

lemma queue_eq_ready_iff {v : ProcessState} : v.queue = .ready ↔ v = .new ∨ v = .ready := by
  cases v <;> simp [ProcessState.queue]

/-! ### Lookup -/

lemma mem_allQueues (hi : i < 5) : (q, i) ∈ allQueues := by
  simp only [allQueues, List.mem_flatMap, List.mem_map, List.mem_range]
  exact ⟨q, by cases q <;> simp, i, hi, rfl⟩

namespace WF

lemma live_of_mem (h : a.WF) (hp : p ∈ a.queue q i) : p ∈ a.live :=
  ((h.mem_queue q i p).mp hp).1

/-- A process that runs and is ready is in no queue. -/
lemma notMem_of_running (h : a.WF) (hr : a.running = some r) (hready : a.state r = .ready) : r ∉ a.queue q i :=
  fun hmem => ((h.mem_queue q i r).mp hmem).2.2.2 hr hready

lemma mem_listed_iff (h : a.WF) :
    p ∈ a.listed ↔ p ∈ a.live ∧ (a.running = some p → a.state p ≠ .ready) := by
  simp only [listed, List.mem_flatMap]
  constructor
  · rintro ⟨⟨q, i⟩, -, hp⟩
    obtain ⟨hl, -, -, hr⟩ := (h.mem_queue q i p).mp hp
    exact ⟨hl, hr⟩
  · rintro ⟨hl, hr⟩
    exact ⟨_, mem_allQueues (h.level_lt p hl), (h.mem_queue _ _ p).mpr ⟨hl, rfl, rfl, hr⟩⟩

/-- Looking a process up finds the live process of that pid. -/
theorem find_eq_some_iff (h : a.WF) {pid : UInt32} :
    a.find pid = some p ↔ p ∈ a.live ∧ a.pid p = pid := by
  have hlist : ∀ x, a.listed.find? (fun p => a.pid p = pid) = some x →
      x ∈ a.live ∧ a.pid x = pid := fun x hx =>
    ⟨(h.mem_listed_iff.mp (List.mem_of_find?_eq_some hx)).1, by simpa using List.find?_some hx⟩
  -- a live process with the pid that is listed is the one found
  have hfind : p ∈ a.listed → a.pid p = pid →
      a.listed.find? (fun p => a.pid p = pid) = some p := by
    intro hp hpid
    cases hx : a.listed.find? (fun p => a.pid p = pid) with
    | none => exact absurd hpid (by simpa using List.find?_eq_none.mp hx p hp)
    | some x =>
      obtain ⟨hxl, hxp⟩ := hlist x hx
      rw [h.pid_inj p (h.mem_listed_iff.mp hp).1 x hxl (hpid.trans hxp.symm)]
  rw [find]
  cases hr : a.running with
  | none =>
    refine ⟨fun hx => hlist p hx, fun ⟨hl, hpid⟩ => hfind (h.mem_listed_iff.mpr ⟨hl, ?_⟩) hpid⟩
    simp [hr]
  | some r =>
    have hrl := h.running_live r hr
    dsimp only
    split_ifs with hrp
    · constructor
      · intro hx
        obtain rfl := Option.some.inj hx
        exact ⟨hrl, hrp⟩
      · rintro ⟨hl, hpid⟩
        rw [h.pid_inj r hrl p hl (hrp.trans hpid.symm)]
    · refine ⟨fun hx => hlist p hx, fun ⟨hl, hpid⟩ => hfind (h.mem_listed_iff.mpr ⟨hl, ?_⟩) hpid⟩
      intro hrun
      rw [hr] at hrun
      exact absurd hpid (Option.some.inj hrun ▸ hrp)

lemma find_live (h : a.WF) {pid : UInt32} (hf : a.find pid = some p) : p ∈ a.live :=
  (h.find_eq_some_iff.mp hf).1

lemma find_pid (h : a.WF) {pid : UInt32} (hf : a.find pid = some p) : a.pid p = pid :=
  (h.find_eq_some_iff.mp hf).2

lemma find_running (h : a.WF) (hr : a.running = some r) : a.find (a.pid r) = some r :=
  h.find_eq_some_iff.mpr ⟨h.running_live r hr, rfl⟩

/-! ### Filing a process -/

lemma mem_remove_iff (h : a.WF) (hp : a.running ≠ some p) :
    x ∈ (a.remove p).queue q i ↔ x ∈ a.queue q i ∧ x ≠ p := by
  rw [remove, if_neg hp, setQueue_queue]
  split_ifs with hqi
  · obtain ⟨rfl, rfl⟩ := hqi
    rw [(h.nodup _ _).mem_erase_iff, and_comm]
  · refine ⟨fun hx => ⟨hx, ?_⟩, fun hx => hx.1⟩
    rintro rfl
    obtain ⟨-, hq, hi, -⟩ := (h.mem_queue q i x).mp hx
    exact hqi ⟨hq, hi⟩

/-- A process that is ready and runs is in no queue, so taking it out changes nothing. -/
lemma mem_remove (h : a.WF) (hp : a.running = some p → a.state p = .ready) :
    x ∈ (a.remove p).queue q i ↔ x ∈ a.queue q i ∧ x ≠ p := by
  by_cases hr : a.running = some p
  · rw [remove, if_pos hr]
    refine ⟨fun hx => ⟨hx, ?_⟩, fun hx => hx.1⟩
    rintro rfl
    exact h.notMem_of_running hr (hp hr) hx
  · exact h.mem_remove_iff hr

lemma nodup_remove (h : a.WF) : ((a.remove p).queue q i).Nodup := by
  rw [remove]
  split_ifs with hr
  · exact h.nodup q i
  · rw [setQueue_queue]
    split_ifs
    · exact (h.nodup _ _).erase p
    · exact h.nodup q i

end WF

section Remove

variable (a : Sched) (p : PcbPtr)

@[simp] lemma remove_pid : (a.remove p).pid = a.pid := by unfold remove; split_ifs <;> rfl
@[simp] lemma remove_state : (a.remove p).state = a.state := by unfold remove; split_ifs <;> rfl
@[simp] lemma remove_priority : (a.remove p).priority = a.priority := by
  unfold remove; split_ifs <;> rfl
@[simp] lemma remove_count : (a.remove p).count = a.count := by unfold remove; split_ifs <;> rfl
@[simp] lemma remove_running : (a.remove p).running = a.running := by
  unfold remove; split_ifs <;> rfl
@[simp] lemma remove_main : (a.remove p).main = a.main := by unfold remove; split_ifs <;> rfl
@[simp] lemma remove_live : (a.remove p).live = a.live := by unfold remove; split_ifs <;> rfl
@[simp] lemma remove_level : (a.remove p).level = a.level := by unfold remove; split_ifs <;> rfl

end Remove

/-- Take a process out of its queue, write its state and priority, and file it under them. -/
def refile (a : Sched) (p : PcbPtr) (v : ProcessState) (w : UInt32) : Sched :=
  (((a.remove p).setState p v).setPriority p w).enqueue v.queue p

section Refile

variable (a : Sched) (p : PcbPtr) (v : ProcessState) (w : UInt32)

@[simp] lemma refile_pid : (a.refile p v w).pid = a.pid := by simp [refile, enqueue]
@[simp] lemma refile_count : (a.refile p v w).count = a.count := by simp [refile, enqueue]
@[simp] lemma refile_running : (a.refile p v w).running = a.running := by simp [refile, enqueue]
@[simp] lemma refile_main : (a.refile p v w).main = a.main := by simp [refile, enqueue]
@[simp] lemma refile_live : (a.refile p v w).live = a.live := by simp [refile, enqueue]

@[simp] lemma refile_state :
    (a.refile p v w).state = Function.update a.state p v := by
  simp [refile, enqueue, setState]

@[simp] lemma refile_priority :
    (a.refile p v w).priority = Function.update a.priority p w := by
  simp [refile, enqueue, setPriority]

end Refile

lemma refile_level {v : ProcessState} {w : UInt32} :
    (a.refile p v w).level x = if x = p then w.toNat else a.level x := by
  simp only [level, refile_priority, Function.update_apply]
  split_ifs <;> rfl

lemma WF.mem_refile (h : a.WF) (hp : a.running = some p → a.state p = .ready)
    {v : ProcessState} {w : UInt32} :
    x ∈ (a.refile p v w).queue q i ↔
      x ∈ a.queue q i ∧ x ≠ p ∨ x = p ∧ q = v.queue ∧ i = w.toNat := by
  simp only [refile, enqueue, setQueue_queue, setPriority_queue, setState_queue]
  have hlev : (((a.remove p).setState p v).setPriority p w).level p = w.toNat := by
    simp [level]
  rw [hlev]
  split_ifs with hqi
  · obtain ⟨rfl, rfl⟩ := hqi
    simp [h.mem_remove hp]
  · rw [h.mem_remove hp]
    refine ⟨.inl, ?_⟩
    rintro (hx | ⟨-, hqi'⟩)
    · exact hx
    · exact absurd hqi' hqi

lemma WF.nodup_refile (h : a.WF) (hp : a.running = some p → a.state p = .ready)
    {v : ProcessState} {w : UInt32} : ((a.refile p v w).queue q i).Nodup := by
  simp only [refile, enqueue, setQueue_queue, setPriority_queue, setState_queue]
  split_ifs with hqi
  · refine (h.nodup_remove).append (List.nodup_singleton p) ?_
    rw [List.disjoint_singleton, h.mem_remove hp]
    exact fun hx => hx.2 rfl
  · exact h.nodup_remove

/-- Filing a process anew keeps the invariant. The running process can only be filed as a blocked
one, and the NULL process keeps its priority and is not blocked. -/
theorem WF.refile (h : a.WF) (hl : p ∈ a.live) {v : ProcessState} {w : UInt32} (hw : w.toNat < 5)
    (hr : a.running = some p → a.state p = .ready ∧ v.isBlocked = true)
    (hz : a.pid p = 0 → w = a.priority p ∧ v.isBlocked = false) : (a.refile p v w).WF where
  mem_queue q i x := by
    rw [h.mem_refile fun hrun => (hr hrun).1, refile_live, refile_running, refile_state,
      refile_level]
    by_cases hx : x = p
    · subst hx
      have hv : a.running = some x → v ≠ .ready := by
        rintro hrun rfl
        simpa [ProcessState.isBlocked] using (hr hrun).2
      simp only [hl, ne_eq, not_true, and_false, false_or, true_and, Function.update_self, if_true]
      exact ⟨fun h => ⟨h.1, h.2, hv⟩, fun h => ⟨h.1, h.2.1⟩⟩
    · simp [hx, h.mem_queue q i x]
  nodup q i := h.nodup_refile fun hrun => (hr hrun).1
  bound x hx := by simpa using h.bound x (by simpa using hx)
  level_lt x hx := by
    rw [refile_level]
    split_ifs
    · exact hw
    · exact h.level_lt x (by simpa using hx)
  pid_inj x hx y hy := by simpa using h.pid_inj x (by simpa using hx) y (by simpa using hy)
  running_live r hrun := by simpa using h.running_live r (by simpa using hrun)
  started r hrun := by
    rw [refile_running] at hrun
    rw [refile_state, Function.update_apply]
    split_ifs with hrp
    · subst hrp
      rintro rfl
      simpa [ProcessState.isBlocked] using (hr hrun).2
    · exact h.started r hrun
  main_notMem := by simpa using h.main_notMem
  null := by
    obtain ⟨z, hzl, hz0, hz4, hzb⟩ := h.null
    refine ⟨z, by simpa using hzl, by simpa using hz0, ?_⟩
    rw [refile_priority, refile_state, Function.update_apply, Function.update_apply]
    split_ifs with hzp
    · subst hzp
      exact ⟨(hz hz0).1.trans hz4, (hz hz0).2⟩
    · exact ⟨hz4, hzb⟩

/-- The head of the most urgent level is in its own queue. -/
lemma WF.of_firstLevel (h : a.WF) (hq : a.firstLevel q = some (i, p)) :
    p ∈ a.live ∧ q = (a.state p).queue ∧ i = a.level p ∧ a.queue q i = p :: (a.queue q i).tail ∧
      (a.running = some p → a.state p ≠ .ready) := by
  obtain ⟨j, -, hj⟩ := List.exists_of_findSome?_eq_some hq
  obtain ⟨y, hy, hyp⟩ := Option.map_eq_some_iff.mp hj
  obtain ⟨rfl, rfl⟩ := Prod.mk.inj hyp
  have hcons := (List.cons_head?_tail hy).symm
  obtain ⟨hl, hq', hi', hr⟩ := (h.mem_queue q j y).mp (List.mem_of_mem_head? hy)
  exact ⟨hl, hq', hi', hcons, hr⟩

lemma firstLevel_eq_some_iff : a.firstLevel q = some (i, p) ↔
    i < 5 ∧ (a.queue q i).head? = some p ∧ ∀ j < i, a.queue q j = [] := by
  have hsome : ∀ j, (fun i => (a.queue q i).head?.map fun p => (i, p)) j = some (i, p) ↔
      j = i ∧ (a.queue q i).head? = some p := by
    intro j
    simp only [Option.map_eq_some_iff, Prod.mk.injEq]
    constructor
    · rintro ⟨y, hy, rfl, rfl⟩
      exact ⟨rfl, hy⟩
    · rintro ⟨rfl, hp⟩
      exact ⟨p, hp, rfl, rfl⟩
  rw [firstLevel]
  rw [List.range_eq_range', List.findSome?_eq_some_iff]
  constructor
  · rintro ⟨l₁, j, l₂, hl, hj, hbefore⟩
    obtain ⟨rfl, hp⟩ := (hsome j).mp hj
    obtain ⟨k, hk, rfl, hcons⟩ := List.range'_eq_append_iff.mp hl
    obtain ⟨hjk, hlt, -⟩ := List.range'_eq_cons_iff.mp hcons.symm
    refine ⟨by omega, hp, fun x hx => ?_⟩
    have hnone := hbefore x (List.mem_range'_1.mpr ⟨by omega, by omega⟩)
    simpa using hnone
  · rintro ⟨hi, hp, hbefore⟩
    refine ⟨List.range' 0 i, i, List.range' (i + 1) (4 - i), ?_, (hsome i).mpr ⟨rfl, hp⟩, ?_⟩
    · refine List.range'_eq_append_iff.mpr ⟨i, by omega, rfl, ?_⟩
      exact (List.range'_eq_cons_iff.mpr ⟨by omega, by omega, by congr 1; omega⟩).symm
    · intro x hx
      rw [List.mem_range'_1] at hx
      simp [hbefore x (by omega)]

lemma firstLevel_eq_none_iff : a.firstLevel q = none ↔ ∀ i < 5, a.queue q i = [] := by
  simp [firstLevel]

/-! ### The process switch -/

/-- Taking the head of a level is taking it out of its queue, unless it runs. -/
lemma WF.setQueue_tail (h : a.WF) (hq : a.firstLevel q = some (i, p)) (hr : a.running ≠ some p) :
    a.setQueue q i (a.queue q i).tail = a.remove p := by
  obtain ⟨-, rfl, rfl, hcons, -⟩ := h.of_firstLevel hq
  rw [remove, if_neg hr]
  conv_rhs => rw [hcons]
  rw [List.erase_cons_head]

/-- The process that leaves the CPU is filed unless it has blocked itself. -/
lemma WF.suspendRunning (h : a.WF) : (a.suspendRunning.setRunning none).WF := by
  rw [Sched.suspendRunning]
  cases hr : a.running with
  | none => exact ⟨by simpa [hr] using h.mem_queue, h.nodup, h.bound, h.level_lt, h.pid_inj,
      by simp, by simp, h.main_notMem, h.null⟩
  | some r =>
    have hrl := h.running_live r hr
    have hrm : r ≠ a.main := by
      rintro rfl
      exact h.main_notMem hrl
    dsimp only
    split_ifs with hready
    · have hnot : ∀ q i, r ∉ a.queue q i := fun q i => h.notMem_of_running hr hready.2
      refine ⟨fun q i x => ?_, fun q i => ?_, h.bound, h.level_lt, h.pid_inj, by simp, by simp,
        h.main_notMem, h.null⟩
      · simp only [enqueue, setQueue_queue, setRunning_queue, setRunning_live, setRunning_state,
          setRunning_level, setQueue_live, setQueue_state, setQueue_level]
        by_cases hx : x = r
        · subst hx
          have hqx : (a.state x).queue = .ready := by rw [hready.2]; rfl
          split_ifs with hqi
          · simp [hqi, hrl, hqx]
          · simp only [hnot, hrl, hqx, true_and, false_iff]
            exact fun hqi' => hqi ⟨hqi'.1, hqi'.2.1⟩
        · have hmem := h.mem_queue q i x
          simp only [hr, Option.some.injEq, Ne.symm hx, false_implies, and_true] at hmem
          split_ifs with hqi
          · obtain ⟨rfl, rfl⟩ := hqi
            simpa [hx] using hmem
          · simpa using hmem
      · simp only [enqueue, setRunning_queue, setQueue_queue]
        split_ifs with hqi
        · refine (h.nodup _ _).append (List.nodup_singleton r) ?_
          rw [List.disjoint_singleton]
          exact hnot _ _
        · exact h.nodup q i
    · -- a running process that is not ready has blocked itself and is filed
      have hblocked : a.state r ≠ .ready := fun hready' => hready ⟨hrm, hready'⟩
      refine ⟨fun q i x => ?_, h.nodup, h.bound, h.level_lt, h.pid_inj, by simp, by simp,
        h.main_notMem, h.null⟩
      rw [setRunning_queue, h.mem_queue q i x, hr]
      constructor
      · exact fun hx => ⟨hx.1, hx.2.1, hx.2.2.1, by simp⟩
      · refine fun hx => ⟨hx.1, hx.2.1, hx.2.2.1, ?_⟩
        intro hrx
        exact Option.some.inj hrx ▸ hblocked

/-- A ready process leaves its queue to run. -/
lemma WF.run (h : a.WF) (hr : a.running = none) (hp : p ∈ a.live)
    (hq : (a.state p).isBlocked = false) :
    (((a.remove p).setState p .ready).setRunning (some p)).Steady p where
  wf := by
    have hstate : ∀ x, (if x = p then ProcessState.ready else a.state x).queue
        = (a.state x).queue := by
      intro x
      split_ifs with hx
      · rw [hx, isBlocked_eq_false_iff.mp hq]
        rfl
      · rfl
    refine ⟨fun q i x => ?_, fun q i => ?_, ?_, ?_, ?_, ?_, ?_, ?_, ?_⟩
    · simp only [setRunning_queue, setRunning_state, setRunning_live, setRunning_running,
        setRunning_level, setState_queue, setState_state, setState_live, setState_level,
        remove_live, remove_state, remove_level, hstate]
      rw [h.mem_remove_iff (by simp [hr]), h.mem_queue q i x, hr]
      by_cases hx : x = p
      · simp [hx]
      · simp [hx, Ne.symm hx]
    · simpa using h.nodup_remove
    · simpa using h.bound
    · simpa using h.level_lt
    · simpa using h.pid_inj
    · simpa using hp
    · simp
    · simpa using h.main_notMem
    · obtain ⟨z, hzl, hz0, hz4, hzb⟩ := h.null
      refine ⟨z, by simpa using hzl, by simpa using hz0, by simpa using hz4, ?_⟩
      rw [isBlocked_eq_false_iff] at hzb ⊢
      simpa [hstate] using hzb
  running := rfl
  ready := by simp

lemma dispatch_eq (hq : a.firstLevel .ready = some (i, p)) (hp : a.state p = .new ∨ a.state p = .ready) :
    a.dispatch
      = ((a.setQueue .ready i (a.queue .ready i).tail).setState p .ready).setRunning (some p) := by
  have hs : ∀ b : Sched, b.state p = .ready →
      b.setRunning (some p) = (b.setState p .ready).setRunning (some p) := by
    intro b hb
    rw [← hb, setState_self]
  rcases hp with hp | hp
  · simp only [Sched.dispatch, Sched.dequeue, hq, Option.getD_some, setRunning_state,
      setQueue_state, hp, if_true]
    rfl
  · simp only [Sched.dispatch, Sched.dequeue, hq, Option.getD_some, setRunning_state,
      setQueue_state, hp, reduceCtorEq, if_false]
    exact hs _ hp

/-- The switch to the next process does not look at the one that ran. -/
lemma dispatch_setRunning (v : Option PcbPtr) : (a.setRunning v).dispatch = a.dispatch := by
  have hf : (a.setRunning v).firstLevel .ready = a.firstLevel .ready := rfl
  unfold Sched.dispatch Sched.dequeue
  rw [hf]
  cases a.firstLevel .ready with
  | none => rfl
  | some x => rfl

/-- With every process filed, some process is ready. -/
lemma WF.exists_firstLevel (h : a.WF) (hr : a.running = none) : ∃ i p, a.firstLevel .ready = some (i, p) := by
  obtain ⟨z, hzl, -, -, hzb⟩ := h.null
  obtain ⟨⟨i, p⟩, hfirst⟩ : ∃ x, a.firstLevel .ready = some x := by
    refine Option.ne_none_iff_exists'.mp fun hnone => ?_
    have hz : z ∈ a.queue .ready (a.level z) :=
      (h.mem_queue _ _ z).mpr ⟨hzl, (isBlocked_eq_false_iff.mp hzb).symm, rfl, by simp [hr]⟩
    rw [firstLevel_eq_none_iff.mp hnone _ (h.level_lt z hzl)] at hz
    simp at hz
  exact ⟨i, p, hfirst⟩

/-- With every process filed, the most urgent ready one is run. -/
lemma WF.dispatch (h : a.WF) (hr : a.running = none) : ∃ r, a.dispatch.Settled r := by
  obtain ⟨i, p, hfirst⟩ := h.exists_firstLevel hr
  obtain ⟨hpl, hpq, hi, hcons, -⟩ := h.of_firstLevel hfirst
  have hp := queue_eq_ready_iff.mp hpq.symm
  rw [dispatch_eq hfirst hp, h.setQueue_tail hfirst (by simp [hr])]
  refine ⟨p, h.run hr hpl (isBlocked_eq_false_iff.mpr hpq.symm), fun j x hx => ?_⟩
  -- the levels before that of `p` are empty
  have hxj : x ∈ a.queue .ready j := ((h.mem_remove_iff (by simp [hr])).mp hx).1
  obtain ⟨-, -, hj, -⟩ := (h.mem_queue _ _ _).mp hxj
  have hij : i ≤ j := by
    by_contra hlt
    rw [(firstLevel_eq_some_iff.mp hfirst).2.2 j (by omega)] at hxj
    simp at hxj
  rw [hi, hj] at hij
  simpa [UInt32.le_iff_toNat_le, level] using hij

/-- `proc_switch_handler` needs the invariant only, whatever the running process is up to. -/
theorem WF.procSwitch (h : a.WF) : ∃ r, a.procSwitch.Settled r := by
  rw [Sched.procSwitch, ← dispatch_setRunning]
  exact h.suspendRunning.dispatch rfl

end RtxKernel.Spec.Sched
