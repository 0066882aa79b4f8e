import RtxKernel.Memory.Spec
import RtxKernel.Lib.Run

/-!
# The linked block lists refine the lists

The helpers of `mem.c` leave stale links behind: a dequeued or removed descriptor still points into
its old list, and its link is repaired when it is enqueued again. So what matters of a descriptor
outside the lists is nothing, and the two chains are kept apart because no descriptor is in both.
-/

namespace RtxKernel

variable {s s' s'' : Pool} {q q' : BlockQueue} {b c : BlockPtr} {l l' : List BlockPtr}

namespace Pool

/-- `s'` differs from `s` in links and list heads only. -/
structure SameData (s s' : Pool) : Prop where
  start : ∀ b, (s'.block b).startBlock = (s.block b).startBlock
  pid : ∀ b, (s'.block b).pid = (s.block b).pid
  memory : s'.memory = s.memory

lemma SameData.trans (h : SameData s s') (h' : SameData s' s'') : SameData s s'' where
  start b := (h'.start b).trans (h.start b)
  pid b := (h'.pid b).trans (h.pid b)
  memory := h'.memory.trans h.memory

lemma sameData_setNext (s : Pool) (b : BlockPtr) (v : Option BlockPtr) :
    SameData s (s.setNext b v) where
  start c := by by_cases hc : c = b <;> simp [setNext, setBlock, hc]
  pid c := by by_cases hc : c = b <;> simp [setNext, setBlock, hc]
  memory := rfl

lemma sameData_setHead (s : Pool) (q : BlockQueue) (v : Option BlockPtr) :
    SameData s (s.setHead q v) := ⟨fun _ => rfl, fun _ => rfl, rfl⟩

@[simp] lemma next_setNext (s : Pool) (b : BlockPtr) (v : Option BlockPtr) :
    (s.setNext b v).next = Function.update s.next b v := by
  funext c
  by_cases hc : c = b
  · subst hc
    simp [setNext, setBlock, next]
  · simp [setNext, setBlock, next, hc]

@[simp] lemma next_setHead (s : Pool) (q : BlockQueue) (v : Option BlockPtr) :
    (s.setHead q v).next = s.next := rfl

@[simp] lemma next_setPid (s : Pool) (b : BlockPtr) (v : UInt32) : (s.setPid b v).next = s.next := by
  funext c
  by_cases hc : c = b
  · subst hc
    simp [setPid, setBlock, next]
  · simp [setPid, setBlock, next, hc]

@[simp] lemma next_zeroMemory (s : Pool) (a : Nat) : (s.zeroMemory a).next = s.next := rfl

@[simp] lemma queue_zeroMemory (s : Pool) (a : Nat) : (s.zeroMemory a).queue = s.queue := rfl

@[simp] lemma queue_setNext (s : Pool) (b : BlockPtr) (v : Option BlockPtr) :
    (s.setNext b v).queue = s.queue := rfl

@[simp] lemma queue_setPid (s : Pool) (b : BlockPtr) (v : UInt32) :
    (s.setPid b v).queue = s.queue := rfl

@[simp] lemma queue_setHead (s : Pool) (q q' : BlockQueue) (v : Option BlockPtr) :
    (s.setHead q v).queue q' = if q' = q then v else s.queue q' := by
  simp [setHead, Function.update_apply]

@[simp] lemma pid_setPid (s : Pool) (b c : BlockPtr) (v : UInt32) :
    ((s.setPid b v).block c).pid = if c = b then v else (s.block c).pid := by
  by_cases hc : c = b <;> simp [setPid, setBlock, hc]

@[simp] lemma startBlock_setPid (s : Pool) (b c : BlockPtr) (v : UInt32) :
    ((s.setPid b v).block c).startBlock = (s.block c).startBlock := by
  by_cases hc : c = b <;> simp [setPid, setBlock, hc]

/-- The list of `q` is changed to `l`; lists without a descriptor of `w` are left alone. -/
structure Relinks (s s' : Pool) (q : BlockQueue) (l w : List BlockPtr) : Prop where
  data : SameData s s'
  chain : Chain s'.next (s'.queue q) l
  frame : ∀ q' l', q' ≠ q → (∀ x ∈ l', x ∉ w) → Chain s.next (s.queue q') l' →
    Chain s'.next (s'.queue q') l'

/-- `enqueue_mem_block` appends a descriptor that is not in the list. -/
theorem enqueueMemBlock_spec (hl : Chain s.next (s.queue q) l) (hn : l.length ≤ memBlockCount)
    (hb : b ∉ l) : ∃ s', s.enqueueMemBlock q b = some s' ∧ Relinks s s' q (l ++ [b]) (b :: l) := by
  rw [enqueueMemBlock]
  split_ifs with hq
  · rw [hl.head_eq_none_iff] at hq
    subst hq
    refine ⟨_, rfl, (s.sameData_setHead ..).trans (sameData_setNext ..), ?_, fun q' l' hq' hl' hc => ?_⟩
    · simp
    · rw [next_setNext, next_setHead, queue_setNext, queue_setHead, if_neg hq']
      exact (Chain.update_of_notMem (fun hbl => hl' b hbl (by simp)) _).mpr hc
  · rcases List.eq_nil_or_concat l with rfl | ⟨k, c, rfl⟩
    · exact absurd hl hq
    · rw [List.concat_eq_append] at hl hn hb ⊢
      simp only [hl.find_eq _ hn, hl.find_isNone_next, Option.bind_eq_bind, Option.bind_some]
      refine ⟨_, rfl, (s.sameData_setNext ..).trans (sameData_setNext ..), ?_,
        fun q' l' hq' hl' hc => ?_⟩
      · simpa using hl.append_last hb
      · rw [next_setNext, next_setNext, queue_setNext, queue_setNext]
        refine (Chain.update_of_notMem (fun hbl => hl' b hbl (by simp)) _).mpr ?_
        exact (Chain.update_of_notMem (fun hcl => hl' c hcl (by simp)) _).mpr hc

/-- `remove_mem_block` erases a descriptor of the current process. -/
theorem removeMemBlock_spec {current : UInt32} (hl : Chain s.next (s.queue q) l)
    (hn : l.length ≤ memBlockCount) (hb : b ∈ l) (hpid : (s.block b).pid = current) :
    ∃ s', s.removeMemBlock q b current = some (some b, s') ∧ Relinks s s' q (l.erase b) l := by
  obtain ⟨k, l', rfl, hbk⟩ := List.eq_append_cons_of_mem hb
  have hnd := hl.nodup
  have hfind := hl.findWithPrev_of_first (n := memBlockCount) (fun c => decide (c = b)) none
    (by simp at hn; omega) (by simp) fun x hx => by
      simp only [decide_eq_false_iff_not]
      rintro rfl
      exact hbk hx
  rw [removeMemBlock]
  simp only [hfind, Option.bind_eq_bind, Option.bind_some, hpid, ne_eq, not_true, if_false]
  rw [List.erase_append_right _ hbk, List.erase_cons_head]
  rcases List.eq_nil_or_concat k with rfl | ⟨j, c, rfl⟩
  · obtain ⟨hhead, htail⟩ := chain_cons.mp hl
    refine ⟨_, rfl, s.sameData_setHead .., ?_, fun q' l'' hq' hl' hc => ?_⟩
    · simpa using htail
    · rwa [next_setHead, queue_setHead, if_neg hq']
  · rw [List.concat_eq_append] at hl hnd hbk ⊢
    have hbl : b ∉ j ++ [c] ++ l' := by
      simp only [List.nodup_append, List.nodup_cons] at hnd
      simp only [List.mem_append, not_or]
      exact ⟨by simpa using hbk, hnd.2.1.1⟩
    refine ⟨s.setNext c (s.next b), by simp, sameData_setNext .., ?_, fun q' l'' hq' hl' hc => ?_⟩
    · have hl' : Chain s.next (s.queue q) (j ++ c :: b :: l') := by simpa using hl
      have hun := hl'.unlink
      rw [next_setNext, queue_setNext, List.append_assoc, List.singleton_append]
      exact (Chain.update_of_notMem (by simpa using hbl) none).mp hun
    · rw [next_setNext, queue_setNext]
      exact (Chain.update_of_notMem (fun hcl => hl' c hcl (by simp)) _).mpr hc

/-- `remove_mem_block` rejects a descriptor that is not in the list, or not the caller's. -/
theorem removeMemBlock_reject {current : UInt32} (hl : Chain s.next (s.queue q) l)
    (hn : l.length ≤ memBlockCount) (hb : ¬ (b ∈ l ∧ (s.block b).pid = current)) :
    s.removeMemBlock q b current = some (none, s) := by
  rw [removeMemBlock]
  by_cases hbl : b ∈ l
  · have hpid : (s.block b).pid ≠ current := fun hpid => hb ⟨hbl, hpid⟩
    obtain ⟨k, l', rfl, hbk⟩ := List.eq_append_cons_of_mem hbl
    have hfind := hl.findWithPrev_of_first (n := memBlockCount) (fun c => decide (c = b)) none
      (by simp at hn; omega) (by simp) fun x hx => by
        simp only [decide_eq_false_iff_not]
        rintro rfl
        exact hbk hx
    simp [hfind, hpid]
  · rw [hl.findWithPrev_of_forall_not hn fun x hx => by
      simp only [decide_eq_false_iff_not]
      rintro rfl
      exact hbl hx]
    rfl

end Pool

/-! ### The refinement -/

/-- The pool `s` implements the abstract pool `p`. -/
structure PoolRep (s : Pool) (p : Spec.Pool) : Prop where
  start : ∀ b, (s.block b).startBlock = p.start b
  pid : ∀ b, (s.block b).pid = p.pid b
  memory : s.memory = p.memory
  chain : ∀ q, Chain s.next (s.queue q) (p.list q)

namespace PoolRep

variable {p : Spec.Pool} {base a : Nat} {current newPid : UInt32}

lemma length_le (hw : p.WF base) (q : BlockQueue) : (p.list q).length ≤ memBlockCount := by
  have hlen := hw.length_eq
  cases q with
  | availableBlocks => simp only [Spec.Pool.list]; omega
  | usedBlocks => simp only [Spec.Pool.list]; omega

/-- The two lists have no block in common. -/
lemma disjoint (hw : p.WF base) (hq : q' ≠ q) (hb : b ∈ p.list q') : b ∉ p.list q := by
  intro hb'
  have hnd := (List.nodup_append.mp hw.nodup).2.2
  cases q <;> cases q'
  · exact hq rfl
  · exact hnd b hb' b hb rfl
  · exact hnd b hb b hb' rfl
  · exact hq rfl

lemma notMem_used (hw : p.WF base) (hb : b ∈ p.available) : b ∉ p.used := by
  have hne : BlockQueue.availableBlocks ≠ .usedBlocks := by decide
  exact disjoint hw (b := b) hne hb

lemma notMem_available (hw : p.WF base) (hb : b ∈ p.used) : b ∉ p.available := by
  have hne : BlockQueue.usedBlocks ≠ .availableBlocks := by decide
  exact disjoint hw (b := b) hne hb

theorem voidToBlock (h : PoolRep s p) (hw : p.WF base) (a : Nat) :
    s.voidToBlock a = some (p.lookup a) := by
  rw [Pool.voidToBlock]
  simp only [(h.chain _).find_eq _ (length_le hw _), h.start, Option.bind_eq_bind, Option.bind_some]
  simp only [Spec.Pool.lookup, List.find?_append, Spec.Pool.list]
  cases p.available.find? fun b => p.start b = a with
  | none => rfl
  | some b => rfl

lemma setPid (h : PoolRep s p) (b : BlockPtr) (v : UInt32) :
    PoolRep (s.setPid b v) (p.setPid b v) where
  start c := by simp [Spec.Pool.setPid, h.start]
  pid c := by simp [Spec.Pool.setPid, h.pid, Function.update_apply]
  memory := h.memory
  chain q := by
    rw [Pool.next_setPid, Pool.queue_setPid]
    cases q with
    | availableBlocks => exact h.chain .availableBlocks
    | usedBlocks => exact h.chain .usedBlocks

theorem reassignMemBlock (h : PoolRep s p) (hw : p.WF base) (a : Nat) (newPid : UInt32) :
    Option.Rel PoolRep (s.reassignMemBlock a newPid) (p.reassign a newPid) := by
  rw [Pool.reassignMemBlock, Spec.Pool.reassign]
  rw [h.voidToBlock hw]
  cases p.lookup a with
  | none => exact .none
  | some b => exact .some (h.setPid b newPid)

/-- Taking the first block: its stale link is repaired by `enqueue_mem_block`. -/
theorem takeBlock (h : PoolRep s p) (hw : p.WF base) (current : UInt32) :
    Option.Rel (fun x y => x.1 = y.1 ∧ PoolRep x.2 y.2) (s.takeBlock current) (p.take current) := by
  rw [Pool.takeBlock, Spec.Pool.take]
  have hav := h.chain .availableBlocks
  rw [hav.head_eq]
  cases ha : p.available with
  | nil =>
    simp only [Spec.Pool.list, ha]
    exact .none
  | cons b t =>
    simp only [Spec.Pool.list, ha, List.head?_cons]
    simp only [Spec.Pool.list, ha] at hav
    obtain ⟨hhead, htail⟩ := chain_cons.mp hav
    set s₁ := (s.setPid b current).setHead .availableBlocks (s.next b) with hs₁
    have hdeq : ((s.setPid b current).dequeueMemBlock .availableBlocks).2 = s₁ := by
      rw [Pool.dequeueMemBlock]
      rw [Pool.queue_setPid, hhead, Pool.next_setPid]
    have hused : Chain s₁.next (s₁.queue .usedBlocks) p.used := by
      simpa [hs₁] using h.chain .usedBlocks
    have hmem : ∀ q, b ∈ p.list q → q = .availableBlocks := by
      intro q hbq
      by_contra hq
      exact disjoint hw hq hbq (by simp [Spec.Pool.list, ha])
    have hbu : b ∉ p.used := fun hbu => by cases hmem .usedBlocks hbu
    obtain ⟨s₂, hs₂, hre⟩ := Pool.enqueueMemBlock_spec hused (length_le hw .usedBlocks) hbu
    rw [hdeq, hs₂]
    refine .some ⟨?_, ?_, ?_, ?_, fun q => ?_⟩
    · simp [hre.data.start, hs₁, Pool.setHead, h.start]
    · intro c
      simp [hre.data.start, hs₁, Pool.setHead, h.start, Spec.Pool.setPid]
    · intro c
      simp [hre.data.pid, hs₁, Pool.setHead, h.pid, Spec.Pool.setPid, Function.update_apply]
    · exact hre.data.memory.trans h.memory
    · cases q with
      | usedBlocks => exact hre.chain
      | availableBlocks =>
        refine hre.frame .availableBlocks t (by decide) (fun x hx => ?_) (by simpa [hs₁] using htail)
        have hnd := hav.nodup
        have hxu : x ∉ p.used := notMem_used hw (by simp [ha, hx])
        simp only [List.mem_cons, not_or]
        refine ⟨?_, hxu⟩
        rintro rfl
        exact (List.nodup_cons.mp hnd).1 hx

/-- Returning a block. -/
theorem releaseBlock (h : PoolRep s p) (hw : p.WF base) (a : Nat) (current : UInt32) :
    ∃ s', s.releaseBlock a current = some ((p.release a current).1, s') ∧
      PoolRep s' (p.release a current).2 := by
  rw [Pool.releaseBlock, Spec.Pool.release]
  have hused := h.chain .usedBlocks
  have hnil : s.queue .usedBlocks = none ↔ p.used = [] := hused.head_eq_none_iff
  simp only [hnil, h.voidToBlock hw]
  split_ifs with hu
  · exact ⟨s, rfl, h⟩
  cases hl : p.lookup a with
  | none => exact ⟨s, rfl, h⟩
  | some b =>
    simp only [Option.bind_eq_bind, Option.bind_some]
    split_ifs with hb
    · obtain ⟨s₁, hs₁, hre₁⟩ := Pool.removeMemBlock_spec hused (length_le hw _) hb.1
        ((h.pid b).trans hb.2)
      rw [hs₁]
      simp only [Option.bind_some]
      have hbav : b ∉ p.available := notMem_available hw hb.1
      have hav : Chain s₁.next (s₁.queue .availableBlocks) p.available :=
        hre₁.frame _ _ (by decide) (fun x hx => notMem_used hw hx) (h.chain .availableBlocks)
      set s₂ := (s₁.zeroMemory (s₁.block b).startBlock).setPid b noPid with hs₂
      have hav₂ : Chain s₂.next (s₂.queue .availableBlocks) p.available := by
        simpa [hs₂] using hav
      obtain ⟨s₃, hs₃, hre₃⟩ := Pool.enqueueMemBlock_spec hav₂ (length_le hw .availableBlocks) hbav
      rw [hs₃]
      refine ⟨s₃, rfl, ?_, ?_, ?_, fun q => ?_⟩
      · intro c
        simp [hre₃.data.start, hs₂, Pool.zeroMemory, hre₁.data.start, h.start, Spec.Pool.setPid]
      · intro c
        simp [hre₃.data.pid, hs₂, Pool.zeroMemory, hre₁.data.pid, h.pid, Spec.Pool.setPid,
          Function.update_apply]
      · refine hre₃.data.memory.trans ?_
        simp [hs₂, Pool.zeroMemory, Pool.setPid, Pool.setBlock, hre₁.data.start, h.start,
          hre₁.data.memory, h.memory]
      · cases q with
        | availableBlocks => exact hre₃.chain
        | usedBlocks =>
          refine hre₃.frame .usedBlocks (p.used.erase b) (by decide) (fun x hx => ?_)
            (by simpa [hs₂] using hre₁.chain)
          rw [← Spec.Pool.list_usedBlocks] at hx
          rw [(hw.nodup_list .usedBlocks).mem_erase_iff] at hx
          simp only [List.mem_cons, not_or]
          exact ⟨hx.1, notMem_available hw hx.2⟩
    · rw [Pool.removeMemBlock_reject hused (length_le hw _) (by rw [h.pid]; exact hb)]
      exact ⟨s, rfl, h⟩

lemma areBlocksAvailable (h : PoolRep s p) : s.areBlocksAvailable = !p.available.isEmpty := by
  rw [Pool.areBlocksAvailable, (h.chain .availableBlocks).head_eq]
  cases ha : p.available with
  | nil => simp [Spec.Pool.list, ha]
  | cons b t => simp [Spec.Pool.list, ha]

end PoolRep

end RtxKernel
