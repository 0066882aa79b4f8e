import RtxKernel.Core.Refile
import RtxKernel.Core.Wake

/-!
# A place in a queue

A process that goes on waiting keeps its place: the queue may lose processes, and get new ones behind it, but
none in front of it (`KeepsPlace`). Only `set_process_priority` gives it another place.
-/

namespace RtxKernel

section Place

variable {α : Type*} {p x : α} {l l' l'' : List α}

/-- No element has come in front of `p`. -/
def KeepsPlace (p : α) (l l' : List α) : Prop :=
  ∀ pre post, l = pre ++ p :: post → ∃ pre' post', l' = pre' ++ p :: post' ∧ pre'.Sublist pre

namespace KeepsPlace

lemma refl (p : α) (l : List α) : KeepsPlace p l l := fun pre post h => ⟨pre, post, h, List.Sublist.refl pre⟩

lemma trans (h : KeepsPlace p l l') (h' : KeepsPlace p l' l'') : KeepsPlace p l l'' := by
  intro pre post he
  obtain ⟨pre', post', he', hsub⟩ := h pre post he
  obtain ⟨pre'', post'', he'', hsub'⟩ := h' pre' post' he'
  exact ⟨pre'', post'', he'', hsub'.trans hsub⟩

lemma append (p : α) (l t : List α) : KeepsPlace p l (l ++ t) := by
  rintro pre post rfl
  exact ⟨pre, post ++ t, by simp, List.Sublist.refl pre⟩

lemma erase [DecidableEq α] (l : List α) (hx : x ≠ p) : KeepsPlace p l (l.erase x) := by
  rintro pre post rfl
  by_cases hmem : x ∈ pre
  · exact ⟨pre.erase x, post, List.erase_append_left _ hmem, List.erase_sublist⟩
  · refine ⟨pre, post.erase x, ?_, List.Sublist.refl pre⟩
    rw [List.erase_append_right _ hmem, List.erase_cons_tail]
    simpa using hx.symm

end KeepsPlace

end Place

namespace Spec.Sched

variable {a b c : Sched} {p r x : PcbPtr} {t : BlockType} {v : ProcessState} {w : UInt32} {u : Bool}

lemma queue_ne_ready (t : BlockType) : t.queue ≠ .ready := by cases t <;> nofun

/-- The process `p` keeps its place in the queue of those that wait for `t`. -/
def Holds (t : BlockType) (p : PcbPtr) (a b : Sched) : Prop :=
  ∀ i, KeepsPlace p (a.queue t.queue i) (b.queue t.queue i)

namespace Holds

lemma refl (t : BlockType) (p : PcbPtr) (a : Sched) : Holds t p a a := fun _ => KeepsPlace.refl _ _

lemma trans (h : Holds t p a b) (h' : Holds t p b c) : Holds t p a c := fun i => (h i).trans (h' i)

lemma of_queue (h : b.queue t.queue = a.queue t.queue) : Holds t p a b := by
  intro i
  rw [h]
  exact KeepsPlace.refl _ _

lemma setReadyQueue (a : Sched) (i : Nat) (l : List PcbPtr) : Holds t p a (a.setQueue .ready i l) := by
  apply of_queue
  funext j
  rw [setQueue_queue, if_neg]
  rintro ⟨hq, -⟩
  exact queue_ne_ready t hq

lemma enqueue (a : Sched) (q : QueueName) (x : PcbPtr) : Holds t p a (a.enqueue q x) := by
  intro i
  rw [Sched.enqueue, setQueue_queue]
  split_ifs with h
  · rw [h.1, h.2]
    exact KeepsPlace.append _ _ _
  · exact KeepsPlace.refl _ _

lemma suspendRunning (a : Sched) : Holds t p a a.suspendRunning := by
  rw [Sched.suspendRunning]
  cases a.running with
  | none => exact refl t p a
  | some r =>
    dsimp only
    split_ifs
    · exact enqueue a .ready r
    · exact refl t p a

lemma dequeue (a : Sched) : Holds t p a (a.dequeue .ready).2 := by
  rw [Sched.dequeue]
  cases a.firstLevel .ready with
  | none => exact refl t p a
  | some y => exact setReadyQueue a _ _

lemma dispatch (a : Sched) : Holds t p a a.dispatch := by
  rw [Sched.dispatch]
  dsimp only
  split_ifs
  · exact dequeue a
  · exact dequeue a

lemma procSwitch (a : Sched) : Holds t p a a.procSwitch := (suspendRunning a).trans (dispatch _)

lemma releaseIf (h : Holds t p a b) : Holds t p a (Sched.releaseIf (u, b)) := by
  cases u with
  | false => exact h
  | true => exact h.trans (procSwitch b)

/-- Filing another process anew -/
lemma refile (h : a.WF) (hr : a.running ≠ some x) (hx : x ≠ p) : Holds t p a (a.refile x v w) := by
  intro i
  rw [h.refile_queue hr, refiled]
  exact (KeepsPlace.erase _ hx).trans (KeepsPlace.append _ _ _)

end Holds

/-- A process that is made ready does not wait any more. -/
lemma ne_of_refile_ready (hp : (Sched.releaseIf (u, a.refile x .ready w)).state p = t.state) : x ≠ p := by
  rintro rfl
  have hready : ((a.refile x .ready w).state x).isBlocked = false := by
    simp [ProcessState.isBlocked]
  have hawake := ((Wakes.refl (a.refile x .ready w)).releaseIf (u := u)).awake hready
  rw [hp] at hawake
  cases t <;> cases hawake

lemma Steady.holds_unblockByPid (h : a.Steady r) {pid : UInt32} {allow : Bool}
    (hb : a.unblockByPid pid allow = some b) (hp : b.state p = t.state) : Holds t p a b := by
  rw [Sched.unblockByPid] at hb
  obtain ⟨y, hy, rfl⟩ := Option.map_eq_some_iff.mp hb
  rcases unblockByPidSection_cases pid h.running with ⟨-, he⟩ | ⟨x, hf, hblocked, he⟩
  · obtain rfl := Option.some.inj (he.symm.trans hy)
    exact (Holds.refl t p a).releaseIf
  · obtain rfl := Option.some.inj (he.symm.trans hy)
    apply Holds.releaseIf
    exact Holds.refile h.wf (h.running_ne (h.ne_of_isBlocked hblocked)) (ne_of_refile_ready hp)

lemma Steady.holds_unblockByType (h : a.Steady r) {t' : BlockType} (hb : a.unblockByType t' = some b)
    (hp : b.state p = t.state) : Holds t p a b := by
  rw [Sched.unblockByType] at hb
  obtain ⟨y, hy, rfl⟩ := Option.map_eq_some_iff.mp hb
  rcases unblockByTypeSection_cases h.wf h.running (h.ne_firstLevel t') with ⟨-, he⟩ | ⟨i, x, hf, he⟩
  · obtain rfl := Option.some.inj (he.symm.trans hy)
    exact (Holds.refl t p a).releaseIf
  · obtain rfl := Option.some.inj (he.symm.trans hy)
    apply Holds.releaseIf
    exact Holds.refile h.wf (h.running_ne (h.ne_firstLevel t' i x hf).symm) (ne_of_refile_ready hp)

/-- Another process, or the running one, gets a new priority. -/
lemma Steady.holds_setProcessPriority (h : a.Steady r) {pid v : Int32} {x : UInt32 × Sched}
    (hx : a.setProcessPriority pid v = some x) (hp : a.pid p ≠ pid.toUInt32) : Holds t p a x.2 := by
  rw [Sched.setProcessPriority] at hx
  obtain ⟨y, hy, rfl⟩ := Option.map_eq_some_iff.mp hx
  rcases setPrioritySection_cases pid v h.running with
    ⟨code, he⟩ | ⟨-, -, -, x, hf, ⟨-, he⟩ | ⟨hne, he⟩⟩
  · obtain rfl := Option.some.inj (he.symm.trans hy)
    exact .refl t p a
  · obtain rfl := Option.some.inj (he.symm.trans hy)
    apply Holds.releaseIf
    exact .of_queue rfl
  · obtain rfl := Option.some.inj (he.symm.trans hy)
    apply Holds.releaseIf
    apply Holds.refile h.wf (h.running_ne hne)
    rintro rfl
    exact hp (h.wf.find_pid hf)

lemma Steady.holds_block (h : a.Steady r) (t' : BlockType) : Holds t p a (a.block a.currentPid t') := by
  rw [Sched.block, h.blockSection_running]
  apply Holds.releaseIf
  exact Holds.enqueue (a.setState r t'.state) t'.queue r

lemma Steady.holds_terminate (h : a.Steady r) (hb : a.terminate = some b) : Holds t p a b := by
  rw [Sched.terminate, h.running] at hb
  obtain rfl := Option.some.inj hb
  refine Holds.trans ?_ (.procSwitch _)
  rw [Sched.endProcess, remove, if_pos h.running]
  exact .of_queue rfl

end Spec.Sched

end RtxKernel
