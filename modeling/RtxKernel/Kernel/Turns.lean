import RtxKernel.Kernel.Ownership
import Mathlib.Data.List.Rotate

/-!
# Taking turns

`release_processor` files the running process behind the ready ones of its level and runs the first of these. Called
by one process after the other it runs each of them once, in the order of the ready queue, and comes back to where
it began (`release_round_robin`).
-/

namespace RtxKernel

open Spec (Sched)

/-- The processes that `n` calls of `release_processor` in a row hand the processor to, and the kernel after them -/
def Kernel.releases : Nat → Kernel → Option (List PcbPtr × Kernel)
  | 0, k => some ([], k)
  | n + 1, k => do
    let (_, k) ← k.call .releaseProcessor
    let r ← k.sched.runningProcess
    let (rs, k) ← k.releases n
    return (r :: rs, k)

namespace Spec.Sched

variable {a b : Sched} {r x : PcbPtr} {i : Nat} {ps t : List PcbPtr}

/-- The process `r` runs, on the level `i`, on which the processes `ps` are ready; above it there are none. -/
structure Turn (a : Sched) (i : Nat) (r : PcbPtr) (ps : List PcbPtr) : Prop extends a.Steady r where
  level : a.level r = i
  queue : a.queue .ready i = ps
  empty : ∀ j < i, a.queue .ready j = []

/-- The processes have the same priorities, and the same order in the queues except on the level `i`. -/
structure SameOrder (a : Sched) (i : Nat) (b : Sched) : Prop where
  queue : ∀ q j, ¬ (q = .ready ∧ j = i) → b.queue q j = a.queue q j
  priority : b.priority = a.priority

lemma SameOrder.refl (a : Sched) (i : Nat) : a.SameOrder i a := ⟨fun _ _ _ => rfl, rfl⟩

lemma SameOrder.trans {c : Sched} (h : a.SameOrder i b) (h' : b.SameOrder i c) : a.SameOrder i c where
  queue q j hqj := (h'.queue q j hqj).trans (h.queue q j hqj)
  priority := h'.priority.trans h.priority

/-- The first of the ready processes runs, and the one that ran is ready behind the others. -/
lemma Turn.procSwitch (h : a.Turn i r ps) (hx : ps ++ [r] = x :: t) :
    a.procSwitch.Turn i x t ∧ a.SameOrder i a.procSwitch := by
  have hsusp : a.suspendRunning = a.setQueue .ready i (x :: t) := by
    have hmain : r ≠ a.main := by
      rintro rfl
      exact h.wf.main_notMem (h.wf.running_live _ h.running)
    rw [Sched.suspendRunning, h.running]
    dsimp only
    rw [if_pos ⟨hmain, h.ready⟩, enqueue, h.level, h.queue, hx]
  have hi : i < 5 := by
    rw [← h.level]
    exact h.wf.level_lt r (h.wf.running_live r h.running)
  have hfirst : a.suspendRunning.firstLevel .ready = some (i, x) := by
    rw [firstLevel_eq_some_iff, hsusp]
    refine ⟨hi, by simp, ?_⟩
    intro j hj
    simp [Nat.ne_of_lt hj, h.empty j hj]
  obtain ⟨j, y, hfirst', -, hsw⟩ := h.wf.procSwitch_eq
  obtain ⟨rfl, rfl⟩ := Prod.mk.inj (Option.some.inj (hfirst.symm.trans hfirst'))
  have hlevel : a.level x = i := by
    have hmem : x ∈ ps ++ [r] := by simp [hx]
    rcases List.mem_append.mp hmem with hps | hr
    · rw [← h.queue] at hps
      exact ((h.wf.mem_queue _ _ x).mp hps).2.2.1.symm
    · rw [List.mem_singleton.mp hr]
      exact h.level
  obtain ⟨r', hr'⟩ := h.wf.procSwitch
  rw [hsusp] at hsw
  have hrun : a.procSwitch.running = some x := by
    rw [hsw]
    rfl
  obtain rfl : r' = x := Option.some.inj (hr'.running.symm.trans hrun)
  constructor
  · refine ⟨hr'.toSteady, ?_, ?_, ?_⟩
    · rw [hsw]
      exact hlevel
    · rw [hsw]
      simp
    · intro j hj
      rw [hsw]
      simp [Nat.ne_of_lt hj, h.empty j hj]
  · rw [hsw]
    constructor
    · intro q j hqj
      simp [hqj]
    · rfl

end Spec.Sched

/-- One call -/
lemma Rep.releases_one {k : Kernel} {a : Sched} {i : Nat} {r x : PcbPtr} {ps t : List PcbPtr} (h : Rep k.sched a)
    (ht : a.Turn i r ps) (hx : ps ++ [r] = x :: t) : ∃ s', k.call .releaseProcessor = some (.done, k.withSched s') ∧
      s'.runningProcess = some x ∧ Rep s' a.procSwitch := by
  obtain ⟨s', hs', hrep⟩ := h.procSwitchHandler ht.wf
  refine ⟨s', ?_, ?_, hrep⟩
  · rw [Kernel.call, hs']
    rfl
  · rw [hrep.running]
    exact (ht.procSwitch hx).1.running

/-- Up to one round, the processor goes to the ready processes of the level in their order, and then to the first. -/
lemma Rep.releases {k : Kernel} {a : Sched} {i n : Nat} {r : PcbPtr} {ps : List PcbPtr} (h : Rep k.sched a)
    (ht : a.Turn i r ps) (hn : n ≤ ps.length + 1) : ∃ s' b r' ps',
      k.releases n = some ((ps ++ [r]).take n, k.withSched s') ∧ Rep s' b ∧ b.Turn i r' ps' ∧ a.SameOrder i b ∧
        r' :: ps' = (r :: ps).rotate n := by
  induction n generalizing k a r ps with
  | zero => exact ⟨k.sched, a, r, ps, rfl, h, ht, .refl a i, (List.rotate_zero _).symm⟩
  | succ n ih =>
    obtain ⟨x, t, hx⟩ : ∃ x t, ps ++ [r] = x :: t := List.exists_cons_of_ne_nil (by simp)
    obtain ⟨s₁, hcall, hrun, hrep⟩ := h.releases_one ht hx
    obtain ⟨ht', hsame⟩ := ht.procSwitch hx
    have hlen : ps.length = t.length := by
      have heq := congrArg List.length hx
      rw [List.length_append, List.length_cons] at heq
      exact Nat.succ.inj heq
    have hrep' : Rep (k.withSched s₁).sched a.procSwitch := hrep
    obtain ⟨s', b, r', ps', hrel, hb, hturn, hsame', hrot⟩ := ih hrep' ht' (by omega)
    refine ⟨s', b, r', ps', ?_, hb, hturn, hsame.trans hsame', ?_⟩
    · have htake : (t ++ [x]).take n = t.take n := List.take_append_of_le_length (by omega)
      have hrun' : (k.withSched s₁).sched.runningProcess = some x := hrun
      rw [Kernel.releases, hcall]
      simp only [Option.bind_eq_bind, Option.bind_some, hrun', hrel, htake, hx, List.take_succ_cons]
      rfl
    · rw [hrot, ← hx, Nat.add_comm, ← List.rotate_rotate, List.rotate_cons_succ, List.rotate_zero]

/-- With no ready process more urgent than the running one, a round of calls hands the processor to each process of
its level once, in the order of the queue, and leaves the running process and all queues as they were. -/
theorem release_round_robin {priority : Fin 6 → UInt8} (hprio : ∀ i, priority i ≤ 4) {base : Nat} {k₀ k : Kernel}
    (hboot : boot priority base = some k₀) {es : List Event} (h : Run (Kernel.StepIf Kernel.Calls) k₀ es k)
    {l : QueueName → Nat → List PcbPtr} (hl : k.sched.Filed l) {r : PcbPtr} (hr : k.sched.runningProcess = some r)
    (hurgent : ∀ j < k.sched.level r, l .ready j = []) {ps : List PcbPtr} (hps : l .ready (k.sched.level r) = ps) :
    (ps ++ [r]).Nodup ∧ ∃ s', k.releases (ps.length + 1) = some (ps ++ [r], k.withSched s') ∧ s'.Filed l ∧
      s'.runningProcess = some r ∧ ∀ p, (s'.pcb p).priority = (k.sched.pcb p).priority := by
  obtain ⟨a, r', hs⟩ := Sound.of_run hprio hboot h
  have hrep := hs.rep.sched
  obtain rfl : r = r' := Option.some.inj (hr.symm.trans (hrep.running.trans hs.ok.sched.running))
  obtain rfl := hl.unique hs.filed
  have hnot : r ∉ ps := by
    rw [← hps]
    exact hs.ok.sched.wf.notMem_of_running hs.ok.sched.running hs.ok.sched.ready
  have hturn : a.sched.Turn (k.sched.level r) r ps := ⟨hs.ok.sched, (hrep.level r).symm, hps, hurgent⟩
  obtain ⟨s', b, r', ps', hrel, hb, hturn', hsame, hrot⟩ := hrep.releases hturn (Nat.le_refl _)
  rw [show ps.length + 1 = (r :: ps).length from rfl, List.rotate_length] at hrot
  obtain ⟨rfl, rfl⟩ := List.cons.inj hrot
  have hqueue : b.queue = a.sched.queue := by
    funext q j
    by_cases hqj : q = .ready ∧ j = k.sched.level r'
    · rw [hqj.1, hqj.2, hturn'.queue, hps]
    · exact hsame.queue q j hqj
  refine ⟨?_, s', ?_, ?_, hb.running.trans hturn'.running, ?_⟩
  · rw [← hps]
    refine (hs.ok.sched.wf.nodup _ _).append (List.nodup_singleton _) ?_
    rw [List.disjoint_singleton, hps]
    exact hnot
  · rw [hrel, List.take_of_length_le (by simp)]
  · rw [← hqueue]
    exact hb.filed hturn'.toSteady
  · intro p
    rw [hb.priority, hrep.priority, hsame.priority]

/-- After start-up the processes of the kernel take turns; four of them are new. -/
theorem release_round_robin_boot : ∃ k l s', boot (fun _ => 2) 4096 = some k ∧ k.sched.Filed l ∧
    k.sched.runningProcess = some 4 ∧ l .ready 0 = [5, 6, 7, 8] ∧
      k.releases 5 = some ([5, 6, 7, 8, 4], k.withSched s') ∧ s'.Filed l ∧ s'.runningProcess = some 4 := by
  have hboot : (boot (fun _ => 2) 4096).any (fun k => k.sched.runningProcess = some 4 ∧ k.sched.level 4 = 0 ∧
      Chain k.sched.next (k.sched.queue .ready 0) [5, 6, 7, 8]) = true := by
    decide +kernel
  obtain ⟨k, hk, hcheck⟩ := (Option.any_eq_true _ _).mp hboot
  obtain ⟨hr, hlevel, hchain⟩ := of_decide_eq_true hcheck
  have hprio : ∀ i : Fin 6, (fun _ => 2 : Fin 6 → UInt8) i ≤ 4 := by decide
  obtain ⟨a, r, hs⟩ := Sound.of_run hprio hk (.nil k)
  have hl := hs.filed
  have hps : a.sched.queue .ready (k.sched.level 4) = [5, 6, 7, 8] := by
    rw [hlevel]
    exact (hl.chain .ready 0).unique hchain
  have hurgent : ∀ j < k.sched.level 4, a.sched.queue .ready j = [] := by
    rw [hlevel]
    exact fun j hj => absurd hj (Nat.not_lt_zero j)
  obtain ⟨-, s', hrel, hfiled, hrun, -⟩ := release_round_robin hprio hk (.nil k) hl hr hurgent hps
  rw [hlevel] at hps
  exact ⟨k, _, s', hk, hl, hr, hps, hrel, hfiled, hrun⟩

end RtxKernel
