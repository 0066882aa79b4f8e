import RtxKernel.Core.Spec
import RtxKernel.Lib.Run
import Mathlib.Data.List.Perm.Subperm

/-!
# The linked queues refine the lists

`Rep s a`: the PCBs of `s` carry the data of `a`, and each of its queues is a null-terminated
chain through the processes that `a` lists there. `a.Placed` says that a process is listed only in
the queue that its own state and priority name; this keeps the chains apart, so that writing the
link of a process of one queue leaves the others alone.

Each operation of the code, started in related states, ends in related states, and it fails only
where the abstract operation fails.
-/

namespace RtxKernel

open Spec (Sched)

/-- The scheduler `s` implements the abstract scheduler `a`. -/
structure Rep (s : Scheduler) (a : Sched) : Prop where
  pid : ∀ p, (s.pcb p).pid = a.pid p
  state : ∀ p, (s.pcb p).state = a.state p
  priority : ∀ p, (s.pcb p).priority = a.priority p
  count : s.pcbCount = a.count
  running : s.runningProcess = a.running
  main : s.mainProcess = a.main
  live : s.live = a.live
  chain : ∀ q i, Chain s.next (s.queue q i) (a.queue q i)

/-- Only existing processes are listed, and only in the queue that their own fields name. -/
structure Spec.Sched.Placed (a : Sched) : Prop where
  home : ∀ {q i p}, p ∈ a.queue q i → q = (a.state p).queue ∧ i = a.level p
  bound : ∀ {q i p}, p ∈ a.queue q i → p < a.count

variable {s s' s'' : Scheduler} {a : Sched} {p : PcbPtr} {q : QueueName} {i : Nat}

namespace Scheduler

/-- `s'` differs from `s` in links and queue heads only. -/
structure SameData (s s' : Scheduler) : Prop where
  pcb : ∀ p, s'.pcb p = { s.pcb p with next := s'.next p }
  count : s'.pcbCount = s.pcbCount
  running : s'.runningProcess = s.runningProcess
  main : s'.mainProcess = s.mainProcess
  live : s'.live = s.live

lemma SameData.trans (h : SameData s s') (h' : SameData s' s'') : SameData s s'' where
  pcb p := by rw [h'.pcb p, h.pcb p]
  count := h'.count.trans h.count
  running := h'.running.trans h.running
  main := h'.main.trans h.main
  live := h'.live.trans h.live

lemma SameData.refl (s : Scheduler) : SameData s s := ⟨fun _ => rfl, rfl, rfl, rfl, rfl⟩

lemma sameData_setNext (s : Scheduler) (p : PcbPtr) (v : Option PcbPtr) :
    SameData s (s.setNext p v) where
  pcb x := by
    by_cases hx : x = p
    · subst hx
      simp [setNext, setPcb, next]
    · simp [setNext, setPcb, next, hx]
  count := rfl
  running := rfl
  main := rfl
  live := rfl

lemma sameData_setHead (s : Scheduler) (q : QueueName) (i : Nat) (v : Option PcbPtr) :
    SameData s (s.setHead q i v) := ⟨fun _ => rfl, rfl, rfl, rfl, rfl⟩

lemma sameData_removeProcess (h : s.removeProcess p = some s') : SameData s s' := by
  rw [removeProcess] at h
  dsimp only at h
  split_ifs at h
  · rw [← Option.some.inj h]
    exact .refl s
  · rw [← Option.some.inj h]
    exact (s.sameData_setHead ..).trans (sameData_setNext ..)
  · obtain ⟨c, -, h⟩ := Option.bind_eq_some_iff.mp h
    cases c with
    | none =>
      rw [← Option.some.inj h]
      exact .refl s
    | some c =>
      rw [← Option.some.inj h]
      exact (s.sameData_setNext ..).trans (sameData_setNext ..)

lemma sameData_enqueueProcess (h : s.enqueueProcess q p = some s') : SameData s s' := by
  rw [enqueueProcess] at h
  split_ifs at h
  · rw [← Option.some.inj h]
    exact (s.sameData_setHead ..).trans (sameData_setNext ..)
  · obtain ⟨c, -, h⟩ := Option.bind_eq_some_iff.mp h
    cases c with
    | none => cases h
    | some c =>
      rw [← Option.some.inj h]
      exact (s.sameData_setNext ..).trans (sameData_setNext ..)

@[simp] lemma next_setNext (s : Scheduler) (p : PcbPtr) (v : Option PcbPtr) :
    (s.setNext p v).next = Function.update s.next p v := by
  funext x
  by_cases hx : x = p
  · subst hx
    simp [setNext, setPcb, next]
  · simp [setNext, setPcb, next, hx]

@[simp] lemma next_setState (s : Scheduler) (p : PcbPtr) (v : ProcessState) : (s.setState p v).next = s.next := by
  funext x
  by_cases hx : x = p <;> simp [setState, setPcb, next, hx]

@[simp] lemma next_setPriority (s : Scheduler) (p : PcbPtr) (v : UInt32) : (s.setPriority p v).next = s.next := by
  funext x
  by_cases hx : x = p <;> simp [setPriority, setPcb, next, hx]

@[simp] lemma next_setHead (s : Scheduler) (q : QueueName) (i : Nat) (v : Option PcbPtr) :
    (s.setHead q i v).next = s.next := rfl

@[simp] lemma queue_setNext (s : Scheduler) (p : PcbPtr) (v : Option PcbPtr) :
    (s.setNext p v).queue = s.queue := rfl

lemma queue_setHead (s : Scheduler) (q q' : QueueName) (i i' : Nat) (v : Option PcbPtr) :
    (s.setHead q i v).queue q' i' = if q' = q ∧ i' = i then v else s.queue q' i' := by
  simp only [setHead, Function.update_apply]
  split_ifs <;> simp_all

end Scheduler

namespace Rep

lemma level (h : Rep s a) (p : PcbPtr) : s.level p = a.level p := by
  rw [Scheduler.level, h.priority, Sched.level]

/-- The queues are short enough for the walks of the code to come to an end. -/
lemma length_le (h : Rep s a) (hp : a.Placed) (q : QueueName) (i : Nat) :
    (a.queue q i).length ≤ s.pcbCount := by
  have hsub : a.queue q i ⊆ List.range s.pcbCount := fun p hq => by
    rw [List.mem_range, h.count]
    exact hp.bound hq
  simpa using (List.subperm_of_subset (h.chain q i).nodup hsub).length_le

lemma head_eq_none_iff (h : Rep s a) (q : QueueName) (i : Nat) :
    s.queue q i = none ↔ a.queue q i = [] := (h.chain q i).head_eq_none_iff

lemma search (h : Rep s a) (hp : a.Placed) (test : PcbPtr → Bool) (q : QueueName) (i : Nat) :
    find s.next test s.pcbCount (s.queue q i) = some ((a.queue q i).find? test) :=
  (h.chain q i).find_eq test (h.length_le hp q i)

/-- Rewriting the links and the head of one queue. -/
lemma relink (h : Rep s a) (hd : s.SameData s') {l : List PcbPtr}
    (hhead : ∀ q' i', ¬ (q' = q ∧ i' = i) → s'.queue q' i' = s.queue q' i')
    (hframe : ∀ q' i', ¬ (q' = q ∧ i' = i) → ∀ x ∈ a.queue q' i', s'.next x = s.next x)
    (hchain : Chain s'.next (s'.queue q i) l) : Rep s' (a.setQueue q i l) where
  pid p := by simp [hd.pcb, h.pid]
  state p := by simp [hd.pcb, h.state]
  priority p := by simp [hd.pcb, h.priority]
  count := by simp [hd.count, h.count]
  running := by simp [hd.running, h.running]
  main := by simp [hd.main, h.main]
  live := by simp [hd.live, h.live]
  chain q' i' := by
    rw [Sched.setQueue_queue]
    split_ifs with hqi
    · obtain ⟨rfl, rfl⟩ := hqi
      exact hchain
    · rw [hhead q' i' hqi]
      exact (Chain.congr (hframe q' i' hqi)).mpr (h.chain q' i')

lemma setState (h : Rep s a) (p : PcbPtr) (v : ProcessState) :
    Rep (s.setState p v) (a.setState p v) where
  pid x := by
    by_cases hx : x = p <;> simp [Scheduler.setState, Scheduler.setPcb, hx, h.pid]
  state x := by
    by_cases hx : x = p <;> simp [Scheduler.setState, Scheduler.setPcb, hx, h.state]
  priority x := by
    by_cases hx : x = p <;> simp [Scheduler.setState, Scheduler.setPcb, hx, h.priority]
  count := h.count
  running := h.running
  main := h.main
  live := h.live
  chain q i := by
    rw [Scheduler.next_setState]
    exact h.chain q i

lemma setPriority (h : Rep s a) (p : PcbPtr) (v : UInt32) :
    Rep (s.setPriority p v) (a.setPriority p v) where
  pid x := by
    by_cases hx : x = p <;> simp [Scheduler.setPriority, Scheduler.setPcb, hx, h.pid]
  state x := by
    by_cases hx : x = p <;> simp [Scheduler.setPriority, Scheduler.setPcb, hx, h.state]
  priority x := by
    by_cases hx : x = p <;> simp [Scheduler.setPriority, Scheduler.setPcb, hx, h.priority]
  count := h.count
  running := h.running
  main := h.main
  live := h.live
  chain q i := by
    rw [Scheduler.next_setPriority]
    exact h.chain q i

end Rep

/-! ### Lookup -/

lemma Rep.searchQueues (h : Rep s a) (hp : a.Placed) (pid : UInt32)
    (l : List (QueueName × Nat)) :
    s.searchQueues pid l
      = some ((l.flatMap fun x => a.queue x.1 x.2).find? fun p => a.pid p = pid) := by
  induction l with
  | nil => rfl
  | cons x l ih =>
    obtain ⟨q, i⟩ := x
    simp only [Scheduler.searchQueues, h.search hp, h.pid, Option.bind_eq_bind, Option.bind_some,
      List.flatMap_cons, List.find?_append]
    cases (a.queue q i).find? fun p => a.pid p = pid with
    | none => simpa using ih
    | some p => rfl

/-- `get_process_by_pid` always comes back. -/
theorem Rep.getProcessByPid (h : Rep s a) (hp : a.Placed) (pid : UInt32) :
    s.getProcessByPid pid = some (a.find pid) := by
  simp only [Scheduler.getProcessByPid, Sched.find, h.running]
  cases a.running with
  | none => exact h.searchQueues hp pid _
  | some r =>
    simp only [h.pid]
    split_ifs
    · rfl
    · exact h.searchQueues hp pid _

lemma Rep.getCurrentPid (h : Rep s a) : s.getCurrentPid = a.currentPid := by
  simp only [Scheduler.getCurrentPid, Sched.currentPid, h.running]
  cases a.running with
  | none => rfl
  | some r => exact h.pid r

lemma Rep.isPidValid (h : Rep s a) (hp : a.Placed) (pid : UInt32) :
    s.isPidValid pid = some (a.find pid).isSome := by
  simp [Scheduler.isPidValid, h.getProcessByPid hp]

/-! ### Linking and unlinking -/

namespace Rep

/-- Taking the first process off a queue. -/
lemma unlink_head (h : Rep s a) (hp : a.Placed) (hq : s.queue q i = some p) :
    ∃ t, a.queue q i = p :: t ∧
      Rep ((s.setHead q i (s.next p)).setNext p none) (a.setQueue q i t) := by
  have hc := h.chain q i
  rw [hq] at hc
  obtain ⟨t, ht, hct⟩ := hc.tail
  have hnd := (h.chain q i).nodup
  rw [ht, List.nodup_cons] at hnd
  refine ⟨t, ht, h.relink ((s.sameData_setHead ..).trans (Scheduler.sameData_setNext ..))
    (fun q' i' hqi => ?_) (fun q' i' hqi x hx => ?_) ?_⟩
  · simp [Scheduler.queue_setHead, hqi]
  · -- `p` is listed in its own queue only
    have hpx : x ≠ p := by
      rintro rfl
      obtain ⟨h₁, h₂⟩ := hp.home hx
      obtain ⟨h₃, h₄⟩ := hp.home (show x ∈ a.queue q i by simp [ht])
      exact hqi ⟨h₁.trans h₃.symm, h₂.trans h₄.symm⟩
    simp [hpx]
  · simpa [Scheduler.queue_setHead] using (Chain.update_of_notMem hnd.1 none).mpr hct

/-- Taking out a process that is behind another one. -/
lemma unlink_behind (h : Rep s a) (hp : a.Placed) {l l' : List PcbPtr} {c : PcbPtr}
    (hq : a.queue q i = l ++ c :: p :: l') :
    Rep ((s.setNext c (s.next p)).setNext p none) (a.setQueue q i (l ++ c :: l')) := by
  have hc := h.chain q i
  rw [hq] at hc
  refine h.relink ((s.sameData_setNext ..).trans (Scheduler.sameData_setNext ..))
    (fun q' i' _ => rfl) (fun q' i' hqi x hx => ?_) ?_
  · have hne : ∀ y ∈ a.queue q i, x ≠ y := by
      rintro y hy rfl
      obtain ⟨h₁, h₂⟩ := hp.home hx
      obtain ⟨h₃, h₄⟩ := hp.home hy
      exact hqi ⟨h₁.trans h₃.symm, h₂.trans h₄.symm⟩
    simp [hne c (by simp [hq]), hne p (by simp [hq])]
  · simpa using hc.unlink

/-- Linking a process into an empty level. -/
lemma link_first (h : Rep s a) (hp : ∀ q i, p ∉ a.queue q i) :
    Rep ((s.setHead q i (some p)).setNext p none) (a.setQueue q i [p]) := by
  refine h.relink ((s.sameData_setHead ..).trans (Scheduler.sameData_setNext ..))
    (fun q' i' hqi => ?_) (fun q' i' _ x hx => ?_) ?_
  · simp [Scheduler.queue_setHead, hqi]
  · have hpx : x ≠ p := by
      rintro rfl
      exact hp _ _ hx
    simp [hpx]
  · simp [Scheduler.queue_setHead]

/-- Linking a process behind the last one of a level. -/
lemma link_last (h : Rep s a) (hpl : a.Placed) (hp : ∀ q i, p ∉ a.queue q i) {l : List PcbPtr}
    {c : PcbPtr} (hq : a.queue q i = l ++ [c]) :
    Rep ((s.setNext c (some p)).setNext p none) (a.setQueue q i (a.queue q i ++ [p])) := by
  have hc := h.chain q i
  have hpq := hp q i
  rw [hq] at hc hpq ⊢
  refine h.relink ((s.sameData_setNext ..).trans (Scheduler.sameData_setNext ..))
    (fun q' i' _ => rfl) (fun q' i' hqi x hx => ?_) ?_
  · have hpx : x ≠ p := by
      rintro rfl
      exact hp _ _ hx
    have hcx : x ≠ c := by
      rintro rfl
      obtain ⟨h₁, h₂⟩ := hpl.home hx
      obtain ⟨h₃, h₄⟩ := hpl.home (show x ∈ a.queue q i by simp [hq])
      exact hqi ⟨h₁.trans h₃.symm, h₂.trans h₄.symm⟩
    simp [hpx, hcx]
  · simpa using hc.append_last hpq

/-- `remove_process` unlinks the process from the queue that its fields name. -/
theorem removeProcess (h : Rep s a) (hp : a.Placed) (p : PcbPtr) :
    ∃ s', s.removeProcess p = some s' ∧ Rep s' (a.remove p) := by
  rw [Scheduler.removeProcess, Sched.remove, h.running, h.state, h.level]
  split_ifs with hr
  · exact ⟨s, rfl, h⟩
  set q := (a.state p).queue
  set i := a.level p
  dsimp only
  split_ifs with hq
  · obtain ⟨t, ht, hrep⟩ := h.unlink_head hp hq
    exact ⟨_, rfl, by simpa [ht] using hrep⟩
  · simp only [h.search hp, Option.bind_eq_bind, Option.bind_some]
    by_cases hmem : p ∈ a.queue q i
    · -- `p` is listed, but not first
      obtain ⟨l, l', hl⟩ := List.append_of_mem hmem
      have hnd := (h.chain q i).nodup
      have hc := h.chain q i
      rcases List.eq_nil_or_concat l with rfl | ⟨k, c, rfl⟩
      · rw [hl] at hc
        exact absurd hc.1 hq
      · rw [List.concat_eq_append, List.append_assoc, List.singleton_append] at hl
        rw [hl] at hc hnd
        have hnm : p ∉ k ∧ p ≠ c := by
          simp only [List.nodup_append, List.nodup_cons, List.mem_cons] at hnd
          exact ⟨fun hk => hnd.2.2 p hk p (by simp) rfl, fun hpc => hnd.2.1.1 (.inl hpc.symm)⟩
        rw [hl, hc.find_pred]
        refine ⟨_, rfl, ?_⟩
        have herase : (k ++ c :: p :: l').erase p = k ++ c :: l' := by
          rw [List.erase_append_right _ hnm.1, List.erase_cons_tail (by simpa using hnm.2.symm),
            List.erase_cons_head]
        rw [herase]
        exact h.unlink_behind hp hl
    · -- `p` is not listed: no process has it as its successor
      have hfind : (a.queue q i).find? (fun c => s.next c = some p) = none := by
        refine List.find?_eq_none.mpr fun c hcq hcp => hmem ?_
        obtain ⟨l, l', hl⟩ := List.append_of_mem hcq
        have hc := h.chain q i
        rw [hl] at hc
        have hn := hc.next_eq
        rw [of_decide_eq_true hcp] at hn
        rw [hl]
        simp [List.mem_of_mem_head? hn.symm]
      rw [hfind, List.erase_of_not_mem hmem]
      refine ⟨s, rfl, ?_⟩
      exact h.relink ⟨fun _ => rfl, rfl, rfl, rfl, rfl⟩ (fun _ _ _ => rfl) (fun _ _ _ _ _ => rfl)
        (h.chain q i)

/-- `enqueue_process` appends a process that is in no queue. -/
theorem enqueueProcess (h : Rep s a) (hpl : a.Placed) (hp : ∀ q i, p ∉ a.queue q i)
    (q : QueueName) : ∃ s', s.enqueueProcess q p = some s' ∧ Rep s' (a.enqueue q p) := by
  rw [Scheduler.enqueueProcess, Sched.enqueue, h.level]
  split_ifs with hq
  · refine ⟨_, rfl, ?_⟩
    rw [(h.head_eq_none_iff _ _).mp hq]
    exact h.link_first hp
  · simp only [h.search hpl, Option.bind_eq_bind, Option.bind_some]
    rcases List.eq_nil_or_concat (a.queue q (a.level p)) with hnil | ⟨l, c, hl⟩
    · exact absurd ((h.head_eq_none_iff _ _).mpr hnil) hq
    · rw [List.concat_eq_append] at hl
      have hc := h.chain q (a.level p)
      rw [hl] at hc
      rw [hl, hc.find_isNone_next, ← hl]
      exact ⟨_, rfl, h.link_last hpl hp hl⟩

lemma firstLevel (h : Rep s a) (q : QueueName) : s.firstLevel q = a.firstLevel q := by
  simp only [Scheduler.firstLevel, Sched.firstLevel, (h.chain q _).head_eq]

/-- The process at the head of the most urgent level is taken off. -/
lemma unlink_firstLevel (h : Rep s a) (hp : a.Placed) (hq : a.firstLevel q = some (i, p)) :
    Rep ((s.setHead q i (s.next p)).setNext p none) (a.setQueue q i (a.queue q i).tail) := by
  obtain ⟨j, -, hj⟩ := List.exists_of_findSome?_eq_some hq
  obtain ⟨x, hx, hxp⟩ := Option.map_eq_some_iff.mp hj
  obtain ⟨rfl, rfl⟩ := Prod.mk.inj hxp
  obtain ⟨t, ht, hrep⟩ := h.unlink_head hp ((h.chain q j).head_eq.trans hx)
  simpa [ht] using hrep

theorem dequeueProcess (h : Rep s a) (hp : a.Placed) (q : QueueName) :
    (s.dequeueProcess q).1 = (a.dequeue q).1 ∧ Rep (s.dequeueProcess q).2 (a.dequeue q).2 := by
  rw [Scheduler.dequeueProcess, Sched.dequeue, h.firstLevel q]
  cases hq : a.firstLevel q with
  | none => exact ⟨rfl, h⟩
  | some x => exact ⟨rfl, h.unlink_firstLevel hp hq⟩

end Rep

end RtxKernel
