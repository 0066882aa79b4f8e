import RtxKernel.Memory.Refinement

/-!
# No block is lost, duplicated or handed out twice

The pool starts with every block available (`poolRep_initMemory`). A history of calls by any
processes, with any pointers, keeps the two lists null-terminated and each block in exactly one of
them, and the blocks that have been granted and not successfully released are exactly the
used ones (`pool_safe`).
-/

namespace RtxKernel

open BlockQueue

/-! ### The initial pool -/

namespace Pool

/-- The loop of `init_memory` after the descriptors up to `k`, the last of which is `tempPoint`. -/
structure Initialised (base k : Nat) (x : Pool × BlockPtr) : Prop where
  tempPoint : x.2 = k
  chain : Chain x.1.next (x.1.queue availableBlocks) (List.range (k + 1))
  used : x.1.queue usedBlocks = none
  start : ∀ b ≤ k, (x.1.block b).startBlock = base + b * memBlockSize
  memory : x.1.memory = fun _ => 0

lemma fill_zero (a n : Nat) : fill (fun _ => 0) a n 0 = fun _ => 0 := by
  funext x
  simp [fill]

lemma Initialised.step {base k : Nat} {x : Pool × BlockPtr} (h : Initialised base k x) :
    Initialised base (k + 1) (initBlock base x (k + 1)) where
  tempPoint := rfl
  chain := by
    have hnext : (initBlock base x (k + 1)).1.next
        = Function.update (Function.update x.1.next k (some (k + 1))) (k + 1) none := by
      rw [Function.update_comm (Nat.ne_of_lt (Nat.lt_succ_self k))]
      simp only [initBlock, next_setNext, next_zeroMemory, h.tempPoint]
      congr 1
      funext c
      by_cases hc : c = k + 1 <;> simp [setBlock, next, hc]
    rw [hnext, List.range_succ]
    have hc := h.chain
    rw [List.range_succ] at hc ⊢
    exact hc.append_last (by simp)
  used := h.used
  start b hb := by
    simp only [initBlock, (sameData_setNext _ _ _).start]
    by_cases hbk : b = k + 1
    · simp [hbk, setBlock, zeroMemory]
    · have hstart := h.start b (by omega)
      simpa [setBlock, zeroMemory, hbk] using hstart
  memory := by simp [initBlock, setNext, setBlock, zeroMemory, h.memory, fill_zero]

lemma initialised_foldl {base k : Nat} {x : Pool × BlockPtr} (h : Initialised base k x) (n : Nat) :
    Initialised base (k + n) ((List.range' (k + 1) n).foldl (initBlock base) x) := by
  induction n generalizing k x with
  | zero => exact h
  | succ n ih =>
    rw [List.range'_succ, List.foldl_cons, show k + (n + 1) = k + 1 + n by omega]
    exact ih h.step

end Pool

/-- `init_memory` makes every block available. -/
theorem poolRep_initMemory (base : Nat) : ∃ p : Spec.Pool, PoolRep (Pool.initMemory base) p ∧
    p.WF base ∧ p.available = List.range memBlockCount ∧ p.used = [] ∧ p.memory = fun _ => 0 := by
  have h₀ : Pool.Initialised base 0 (Pool.initHead base, 0) := by
    refine ⟨rfl, by simp [Pool.initHead, Pool.next], rfl, ?_, rfl⟩
    intro b hb
    simp [Pool.initHead, Nat.le_zero.mp hb]
  have h := Pool.initialised_foldl h₀ (memBlockCount - 1)
  set x := (List.range' 1 (memBlockCount - 1)).foldl (Pool.initBlock base) (Pool.initHead base, 0)
    with hx
  have hinit : Pool.initMemory base = x.1.setNext x.2 none := rfl
  have hnext : (Pool.initMemory base).next = x.1.next := by
    rw [hinit, Pool.next_setNext]
    refine Function.update_eq_self_iff.mpr ?_
    have hc := h.chain
    rw [List.range_succ] at hc
    simpa [h.tempPoint] using hc.next_eq.symm
  refine ⟨⟨fun b => ((Pool.initMemory base).block b).startBlock,
    fun b => ((Pool.initMemory base).block b).pid, List.range memBlockCount, [], fun _ => 0⟩,
    ⟨fun _ => rfl, fun _ => rfl, h.memory, fun q => ?_⟩, ⟨by simp, fun b hb => ?_⟩, rfl, rfl, rfl⟩
  · rw [hnext]
    cases q with
    | availableBlocks => exact h.chain
    | usedBlocks => exact h.used
  · change ((Pool.initMemory base).block b).startBlock = _
    rw [hinit, (Pool.sameData_setNext _ _ _).start]
    exact h.start b (by simp [memBlockCount] at hb ⊢; omega)

/-! ### Histories of calls -/

/-- A call of a function of `mem.c`; `current` is the pid of the caller. -/
inductive PoolCall
  | request (current : UInt32)
  | release (a : Nat) (current : UInt32)
  | reassign (a : Nat) (newPid : UInt32)

/-- What becomes of a call: a request is granted a block or has to wait. -/
inductive PoolReply
  | block (a : Nat)
  | wait
  | code (c : UInt32)
  | done
  deriving DecidableEq

def Pool.call (s : Pool) : PoolCall → Option (PoolReply × Pool)
  | .request current =>
    if s.areBlocksAvailable then (s.takeBlock current).map fun x => (.block x.1, x.2)
    else some (.wait, s)
  | .release a current => (s.releaseBlock a current).map fun x => (.code x.1, x.2)
  | .reassign a newPid => (s.reassignMemBlock a newPid).map fun s => (.done, s)

def PoolStep (s : Pool) (e : PoolCall × PoolReply) (s' : Pool) : Prop := s.call e.1 = some (e.2, s')

/-- The addresses granted and not yet successfully released, after one more call. -/
def hold (l : List Nat) : PoolCall × PoolReply → List Nat
  | (.request _, .block a) => l ++ [a]
  | (.release a _, .code 0) => l.erase a
  | _ => l

def outstanding (es : List (PoolCall × PoolReply)) : List Nat := es.foldl hold []

lemma hold_code {l : List Nat} {a : Nat} {current c : UInt32} (hc : c ≠ 0) :
    hold l (.release a current, .code c) = l := by
  unfold hold
  split
  · rename_i h
    cases h
  · rename_i h
    obtain ⟨-, hc'⟩ := Prod.mk.inj h
    exact absurd (PoolReply.code.inj hc') hc
  · rfl

lemma map_erase_of_inj {f : BlockPtr → Nat} {l : List BlockPtr} {b : BlockPtr} (hb : b ∈ l)
    (hf : ∀ x ∈ l, f x = f b → x = b) : (l.erase b).map f = (l.map f).erase (f b) := by
  induction l with
  | nil => simp
  | cons x l ih =>
    by_cases hx : x = b
    · simp [hx]
    · have hfx : f x ≠ f b := fun he => hx (hf x (by simp) he)
      rw [List.erase_cons_tail (by simpa using hx), List.map_cons, List.map_cons,
        List.erase_cons_tail (by simpa using hfx)]
      have hbl : b ∈ l := by simpa [Ne.symm hx] using hb
      rw [ih hbl fun y hy => hf y (by simp [hy])]

/-- The pool implements an abstract one whose used blocks are those outstanding. -/
def PoolInv (base : Nat) (es : List (PoolCall × PoolReply)) (s : Pool) (p : Spec.Pool) : Prop :=
  PoolRep s p ∧ p.WF base ∧ p.used.map p.start = outstanding es

namespace PoolInv

variable {base a : Nat} {es : List (PoolCall × PoolReply)} {s s' : Pool} {p : Spec.Pool}
  {current newPid : UInt32} {r : PoolReply}

lemma outstanding_append (e : PoolCall × PoolReply) :
    outstanding (es ++ [e]) = hold (outstanding es) e := by
  simp [outstanding]

/-- What a request does: it takes the first available block, or there is none. -/
lemma request_cases (h : PoolInv base es s p) (current : UInt32) :
    p.available = [] ∧ s.call (.request current) = some (.wait, s) ∨
      ∃ b t s', p.available = b :: t ∧ s.call (.request current) = some (.block (p.start b), s') ∧
        PoolRep s' { p.setPid b current with available := t, used := p.used ++ [b] } := by
  obtain ⟨hrep, hw, -⟩ := h
  have htake := hrep.takeBlock hw current
  rw [Pool.call]
  rw [hrep.areBlocksAvailable]
  cases ha : p.available with
  | nil => exact .inl ⟨rfl, rfl⟩
  | cons b t =>
    simp only [Spec.Pool.take, ha] at htake
    obtain ⟨⟨a, s'⟩, hs', haddr, hrep'⟩ := htake.exists_of_some_right
    refine .inr ⟨b, t, s', rfl, ?_, hrep'⟩
    simp only at haddr
    simp [hs', haddr]

/-- Every call keeps the invariant. -/
lemma step (h : PoolInv base es s p) {c : PoolCall} (hs : PoolStep s (c, r) s') :
    ∃ p', PoolInv base (es ++ [(c, r)]) s' p' := by
  obtain ⟨hrep, hw, hout⟩ := h
  unfold PoolInv
  rw [outstanding_append, ← hout]
  cases c with
  | request current =>
    rcases request_cases ⟨hrep, hw, hout⟩ current with ⟨-, hc⟩ | ⟨b, t, s₁, ha, hc, hrep'⟩
    · obtain ⟨rfl, rfl⟩ := Prod.mk.inj (Option.some.inj (hc.symm.trans hs))
      exact ⟨p, hrep, hw, rfl⟩
    · obtain ⟨rfl, rfl⟩ := Prod.mk.inj (Option.some.inj (hc.symm.trans hs))
      have ht : p.take current = some (p.start b,
          { p.setPid b current with available := t, used := p.used ++ [b] }) := by
        simp [Spec.Pool.take, ha]
      refine ⟨_, hrep', hw.take ht, ?_⟩
      simp [hold, Spec.Pool.setPid]
  | release a current =>
    obtain ⟨s₁, hs₁, hrep'⟩ := hrep.releaseBlock hw a current
    simp only [PoolStep, Pool.call, hs₁, Option.map_some, Option.some.injEq, Prod.mk.injEq] at hs
    obtain ⟨rfl, rfl⟩ := hs
    refine ⟨_, hrep', hw.release, ?_⟩
    rcases hw.release_cases a current with ⟨c, hc, he⟩ | ⟨b, hb, rfl, -, he⟩
    · rw [he, hold_code hc]
    · rw [he]
      exact map_erase_of_inj hb fun x hx hxb =>
        hw.start_inj (hw.lt_of_mem (q := usedBlocks) hx) (hw.lt_of_mem (q := usedBlocks) hb) hxb
  | reassign a newPid =>
    have hre := hrep.reassignMemBlock hw a newPid
    simp only [PoolStep, Pool.call, Option.map_eq_some_iff, Prod.mk.injEq] at hs
    obtain ⟨s₁, hs₁, rfl, rfl⟩ := hs
    rw [hs₁] at hre
    obtain ⟨p', hp', hrep'⟩ := hre.exists_of_some
    obtain ⟨b, -, rfl⟩ := Option.map_eq_some_iff.mp hp'
    exact ⟨_, hrep', hw.setPid b newPid, rfl⟩

end PoolInv

lemma poolInv_of_run {base : Nat} {es : List (PoolCall × PoolReply)} {s : Pool}
    (h : Run PoolStep (Pool.initMemory base) es s) : ∃ p, PoolInv base es s p := by
  refine h.history (I := fun es s => ∃ p, PoolInv base es s p) ?_ ?_
  · obtain ⟨p, hrep, hw, -, hu, -⟩ := poolRep_initMemory base
    exact ⟨p, hrep, hw, by simp [hu, outstanding]⟩
  · rintro es s ⟨c, r⟩ s' ⟨p, hp⟩ hs
    exact hp.step hs

/-- Whatever is called with whatever pointer, both lists stay null-terminated, each descriptor is
in exactly one of them, the used ones are those granted and not yet successfully released, and a
request is granted an available block that is not outstanding, or waits if there is none. -/
theorem pool_safe {base : Nat} {es : List (PoolCall × PoolReply)} {s : Pool}
    (h : Run PoolStep (Pool.initMemory base) es s) :
    ∃ available used : List BlockPtr,
      Chain s.next (s.queue availableBlocks) available ∧
      Chain s.next (s.queue usedBlocks) used ∧
      (available ++ used).Perm (List.range memBlockCount) ∧
      (∀ b < memBlockCount, (s.block b).startBlock = base + b * memBlockSize) ∧
      used.map (fun b => (s.block b).startBlock) = outstanding es ∧
      (∀ c, (∀ a n, c = .reassign a n → ∃ b < memBlockCount, a = base + b * memBlockSize) →
        ∃ r s', PoolStep s (c, r) s') ∧
      ∀ current r s', PoolStep s (.request current, r) s' →
        available = [] ∧ r = .wait ∧ s' = s ∨
        ∃ b rest, available = b :: rest ∧ r = .block (s.block b).startBlock ∧
          (s.block b).startBlock ∉ outstanding es ∧
          Chain s'.next (s'.queue availableBlocks) rest ∧
          Chain s'.next (s'.queue usedBlocks) (used ++ [b]) ∧ (s'.block b).pid = current := by
  obtain ⟨p, hp⟩ := poolInv_of_run h
  obtain ⟨hrep, hw, hout⟩ := hp
  refine ⟨p.available, p.used, hrep.chain availableBlocks, hrep.chain usedBlocks, hw.perm,
    fun b hb => (hrep.start b).trans (hw.start_eq b hb), ?_, fun c hc => ?_,
    fun current r s' hs => ?_⟩
  · simpa [hrep.start] using hout
  · cases c with
    | request current =>
      rcases PoolInv.request_cases ⟨hrep, hw, hout⟩ current with ⟨-, he⟩ | ⟨b, t, s', -, he, -⟩
      · exact ⟨_, _, he⟩
      · exact ⟨_, _, he⟩
    | release a current =>
      obtain ⟨s', hs', -⟩ := hrep.releaseBlock hw a current
      exact ⟨_, s', by rw [PoolStep, Pool.call, hs']; rfl⟩
    | reassign a n =>
      obtain ⟨b, hb, rfl⟩ := hc a n rfl
      have hlook := hw.lookup_eq_some_iff.mpr ⟨hb, hw.start_eq b hb⟩
      have hre := hrep.reassignMemBlock hw (base + b * memBlockSize) n
      rw [Spec.Pool.reassign, hlook] at hre
      obtain ⟨s', hs', -⟩ := hre.exists_of_some_right
      exact ⟨.done, s', by rw [PoolStep, Pool.call, hs']; rfl⟩
  · rcases PoolInv.request_cases ⟨hrep, hw, hout⟩ current with ⟨ha, he⟩ | ⟨b, t, s₁, ha, he, hrep'⟩
    · obtain ⟨rfl, rfl⟩ := Prod.mk.inj (Option.some.inj (he.symm.trans hs))
      exact .inl ⟨ha, rfl, rfl⟩
    · obtain ⟨rfl, rfl⟩ := Prod.mk.inj (Option.some.inj (he.symm.trans hs))
      refine .inr ⟨b, t, ha, by rw [hrep.start], ?_, hrep'.chain availableBlocks,
        hrep'.chain usedBlocks, by simp [hrep'.pid, Spec.Pool.setPid]⟩
      -- a used block with the address of `b` would be `b`
      rw [hrep.start, ← hout, List.mem_map]
      rintro ⟨x, hx, hxb⟩
      have hbl : b ∈ p.list availableBlocks := by simp [ha]
      have hxe := hw.start_inj (hw.lt_of_mem (q := usedBlocks) hx) (hw.lt_of_mem hbl) hxb
      exact PoolRep.notMem_used hw hbl (hxe ▸ hx)

/-- One process is granted two blocks and returns the first; another one cannot return the second. -/
theorem pool_safe_after_calls :
    ∃ s, Run PoolStep (Pool.initMemory 4096) [(.request 7, .block 4096), (.request 7, .block 4224),
        (.release 4096 7, .code 0), (.request 8, .block 4352), (.release 4224 8, .code 3)] s ∧
      ∃ available used : List BlockPtr,
        Chain s.next (s.queue availableBlocks) available ∧
        Chain s.next (s.queue usedBlocks) used ∧
        (available ++ used).Perm (List.range memBlockCount) ∧
        used.map (fun b => (s.block b).startBlock) = [4224, 4352] := by
  obtain ⟨s, hs⟩ : ∃ s, Run PoolStep (Pool.initMemory 4096) [(.request 7, .block 4096),
      (.request 7, .block 4224), (.release 4096 7, .code 0), (.request 8, .block 4352),
      (.release 4224 8, .code 3)] s := by
    apply Run.exists_of_foldlM fun s e => (s.call e.1).bind fun x =>
      if x.1 = e.2 then some x.2 else none
    · intro s e t h
      obtain ⟨x, hx, hxt⟩ := Option.bind_eq_some_iff.mp h
      split_ifs at hxt with hr
      rw [PoolStep, hx, ← hr, ← Option.some.inj hxt]
    · decide +kernel
  obtain ⟨available, used, hav, hus, hperm, -, hout, -⟩ := pool_safe hs
  exact ⟨s, hs, available, used, hav, hus, hperm, hout⟩

end RtxKernel
