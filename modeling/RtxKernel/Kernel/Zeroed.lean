import RtxKernel.Kernel.Ownership

/-!
# Blocks that are requested are zero

The blocks are zero after start-up, and a block is zeroed when it is returned. Between the two its owner
may write into it, and the kernel writes the header of an envelope. A process that writes only into its
own blocks, and sends only these, writes into used blocks; so the available blocks stay zero
(`blocks_zero`), whatever pointers are released.
-/

namespace RtxKernel

namespace Kernel

/-- The running process writes only into blocks of its own, and sends only these. -/
def UsesOwn (k : Kernel) : Op → Prop
  | .send _ e | .delayedSend _ e _ => k.Owns e
  | .store x _ => ∀ b < memBlockCount, (k.pool.block b).startBlock ≤ x →
      x < (k.pool.block b).startBlock + memBlockSize → k.Owns (k.pool.block b).startBlock
  | _ => True

instance (k : Kernel) : (op : Op) → Decidable (k.UsesOwn op)
  | .send _ e | .delayedSend _ e _ => inferInstanceAs (Decidable (k.Owns e))
  | .store x _ => inferInstanceAs (Decidable (∀ b < memBlockCount,
      (k.pool.block b).startBlock ≤ x → x < (k.pool.block b).startBlock + memBlockSize →
        k.Owns (k.pool.block b).startBlock))
  | .releaseProcessor | .block _ | .unblockByPid _ _ | .unblockByType _ | .setPriority _ _
  | .receive | .request | .release _ | .terminate | .timer | .uart _ => .isTrue trivial

/-- The operations of processes that keep to their own blocks. -/
def Careful (k : Kernel) (op : Op) : Prop := k.Calls op ∧ k.UsesOwn op

instance (k : Kernel) (op : Op) : Decidable (k.Careful op) :=
  inferInstanceAs (Decidable (k.Calls op ∧ k.UsesOwn op))

/-- The block at `x` consists of zero bytes. -/
def ZeroAt (k : Kernel) (x : Nat) : Prop := ∀ i < memBlockSize, k.pool.memory (x + i) = 0

/-- Every available block consists of zero bytes. -/
def FreeZero (k : Kernel) : Prop :=
  ∀ l, Chain k.pool.next (k.pool.queue .availableBlocks) l →
    ∀ b ∈ l, k.ZeroAt (k.pool.block b).startBlock

end Kernel

lemma boot_pool {priority : Fin 6 → UInt8} {base : Nat} {k : Kernel} (hb : boot priority base = some k) :
    k.pool = Pool.initMemory base := by
  obtain ⟨s, -, hb⟩ := Option.bind_eq_some_iff.mp hb
  obtain ⟨t, -, hb⟩ := Option.bind_eq_some_iff.mp hb
  rw [← Option.some.inj hb]

namespace Spec.Kernel

variable {a b : Kernel} {base : Nat} {r : PcbPtr} {op : Op} {reply : Reply}

def UsesOwn (a : Kernel) : Op → Prop
  | .send _ e | .delayedSend _ e _ => a.Owns e
  | .store x _ => ∀ c < memBlockCount, a.pool.start c ≤ x → x < a.pool.start c + memBlockSize →
      a.Owns (a.pool.start c)
  | _ => True

/-- The block `c` consists of zero bytes. -/
def Zero (a : Kernel) (c : BlockPtr) : Prop :=
  ∀ i < memBlockSize, a.pool.memory (a.pool.start c + i) = 0

def FreeZero (a : Kernel) : Prop := ∀ c ∈ a.pool.available, a.Zero c

lemma Zero.of_frame {c : BlockPtr} (h : a.Zero c) (hstart : b.pool.start = a.pool.start)
    (hmem : ∀ x, a.pool.start c ≤ x → x < a.pool.start c + memBlockSize →
      b.pool.memory x = a.pool.memory x) : b.Zero c := by
  intro i hi
  rw [hstart, hmem _ (Nat.le_add_right _ _) (Nat.add_lt_add_left hi _)]
  exact h i hi

/-- What is written inside the block `d` leaves another block zero. -/
lemma Zero.of_block {c d : BlockPtr} (h : a.Zero c) (hok : a.Ok base r) (hc : c < memBlockCount)
    (hd : d < memBlockCount) (hcd : c ≠ d) (hstart : b.pool.start = a.pool.start)
    (hmem : ∀ x, x < a.pool.start d ∨ a.pool.start d + memBlockSize ≤ x →
      b.pool.memory x = a.pool.memory x) : b.Zero c := by
  have hne : a.pool.start c ≠ a.pool.start d := fun he => hcd (hok.pool.start_inj hc hd he)
  rw [hok.pool.start_eq c hc, hok.pool.start_eq d hd] at hne
  have hapart := blocks_apart hne
  rw [← hok.pool.start_eq c hc, ← hok.pool.start_eq d hd] at hapart
  apply h.of_frame hstart
  intro x hx hx'
  apply hmem
  rcases hapart with hlt | hlt
  · exact .inl (Nat.lt_of_lt_of_le hx' hlt)
  · exact .inr (Nat.le_trans hlt hx)

/-- A used block is not an available one. -/
lemma Ok.ne_of_available (h : a.Ok base r) {c d : BlockPtr} (hc : c ∈ a.pool.available)
    (hd : d ∈ a.pool.used) : c ≠ d := by
  rintro rfl
  exact (List.nodup_append.mp h.pool.nodup).2.2 c hc c hd rfl

/-- What is written inside a used block leaves the available ones zero. -/
lemma FreeZero.of_used (h : a.FreeZero) (hok : a.Ok base r) {d : BlockPtr} (hd : d ∈ a.pool.used)
    (hav : b.pool.available = a.pool.available) (hstart : b.pool.start = a.pool.start)
    (hmem : ∀ x, x < a.pool.start d ∨ a.pool.start d + memBlockSize ≤ x →
      b.pool.memory x = a.pool.memory x) : b.FreeZero := by
  intro c hc
  rw [hav] at hc
  exact (h c hc).of_block hok (hok.pool.lt_of_mem (q := .availableBlocks) hc)
    (hok.pool.lt_of_mem (q := .usedBlocks) hd) (hok.ne_of_available hc hd) hstart hmem

/-- The block that is taken is not among the ones that stay available. -/
lemma FreeZero.of_taken (h : a.FreeZero) (hok : a.Ok base r) {d : BlockPtr} {t : List BlockPtr}
    (hav : a.pool.available = d :: t) (hav' : b.pool.available = t)
    (hstart : b.pool.start = a.pool.start)
    (hmem : ∀ x, x < a.pool.start d ∨ a.pool.start d + memBlockSize ≤ x →
      b.pool.memory x = a.pool.memory x) : b.FreeZero := by
  have hnd := hok.pool.nodup_list .availableBlocks
  rw [Pool.list_availableBlocks, hav] at hnd
  intro c hc
  rw [hav'] at hc
  have hcd : c ≠ d := by
    rintro rfl
    exact (List.nodup_cons.mp hnd).1 hc
  have hca : c ∈ a.pool.available := by simp [hav, hc]
  exact (h c hca).of_block hok (hok.pool.lt_of_mem (q := .availableBlocks) hca)
    (hok.pool.lt_of_mem (q := .availableBlocks) (by simp [hav])) hcd hstart hmem

/-- Returning a block makes it zero. -/
lemma FreeZero.giveBack (h : a.FreeZero) (hok : a.Ok base r) {d : BlockPtr} (hd : d ∈ a.pool.used) :
    (a.giveBack d).FreeZero := by
  intro c hc
  rcases List.mem_append.mp hc with hc | hc
  · refine (h c hc).of_block hok (hok.pool.lt_of_mem (q := .availableBlocks) hc)
      (hok.pool.lt_of_mem (q := .usedBlocks) hd) (hok.ne_of_available hc hd) rfl ?_
    intro x hx
    exact fill_frame hx
  · obtain rfl := List.mem_singleton.mp hc
    intro i hi
    exact fill_self (Nat.le_add_right _ _) (Nat.add_lt_add_left hi _)

theorem FreeZero.step (h : a.FreeZero) (hok : a.Ok base r) (hown : a.UsesOwn op)
    (he : a.Effect op reply b) : b.FreeZero := by
  cases he with
  | quiet s hq => exact h
  | @sent pid e b' s hb _ =>
    obtain ⟨d, hd, rfl, -⟩ := hown
    obtain ⟨c, -, -, -, hav, hstart⟩ := address_pid hb
    exact h.of_used hok hd hav hstart (address_header hb).2.2
  | @delayed pid delay e b' hb _ =>
    obtain ⟨d, hd, rfl, -⟩ := hown
    obtain ⟨c, -, -, -, hav, hstart⟩ := address_pid hb
    refine h.of_used hok hd hav hstart ?_
    intro x hx
    refine (write32_frame ?_).trans ((address_header hb).2.2 x hx)
    simp only [sendTimeField, memBlockSize] at hx ⊢
    omega
  | received => exact h
  | granted hp =>
    obtain ⟨d, t, hav, -, rfl⟩ := take_cases hp
    exact h.of_taken hok hav rfl rfl fun _ _ => rfl
  | released s hd hx ho => exact h.giveBack hok hd
  | @stored x v =>
    intro c hc
    have hlt := hok.pool.lt_of_mem (q := .availableBlocks) hc
    refine (h c hc).of_frame rfl ?_
    intro y hy hy'
    refine Function.update_of_ne ?_ _ _
    rintro rfl
    -- the block is used, so it is not available
    obtain ⟨d, hd, hstart, -⟩ := hown c hlt hy hy'
    apply hok.ne_of_available hc hd
    exact (hok.pool.start_inj (hok.pool.lt_of_mem (q := .usedBlocks) hd) hlt hstart).symm
  | @ticked new w b' s hb =>
    have hmv := hok.moves_tick hb
    intro c hc
    rw [withSched_pool, hmv.pool] at hc
    refine (h c hc).of_frame ?_ ?_
    · rw [withSched_pool, hmv.pool]
    · intro x _ _
      rw [withSched_pool, hmv.pool]
  | typedLost hp =>
    obtain ⟨d, t, hav, rfl, rfl⟩ := take_cases hp
    exact h.of_taken hok hav rfl rfl fun x hx => type_frame hx
  | typed s hp hb =>
    obtain ⟨d, t, hav, rfl, rfl⟩ := take_cases hp
    obtain ⟨c, -, -, -, hav', hstart⟩ := address_pid hb
    exact h.of_taken hok hav hav' hstart fun x hx => ((address_header hb).2.2 x hx).trans (type_frame hx)

/-- A block that is granted was the first of the available ones. -/
lemma FreeZero.granted (h : a.FreeZero) {x : Nat} (hy : a.call .request = some (.block (some x), b)) :
    ∀ i < memBlockSize, b.pool.memory (x + i) = 0 := by
  obtain ⟨hblock, rfl⟩ := Prod.mk.inj (Option.some.inj hy)
  rw [Kernel.requestMemoryBlock] at hblock ⊢
  cases hp : a.pool.take a.sched.currentPid with
  | none =>
    rw [hp] at hblock
    cases hblock
  | some y =>
    rw [hp] at hblock
    obtain ⟨d, t, hav, hstart, hpool⟩ := take_cases hp
    obtain rfl : y.1 = x := by simpa using hblock
    have hzero := h d (by simp [hav])
    intro i hi
    rw [← hzero i hi, hstart]
    simp only [withPool_pool, hpool]
    rfl

end Spec.Kernel

/-! ### In the code -/

namespace Sound

variable {base : Nat} {k k' : Kernel} {a : Spec.Kernel} {r : PcbPtr} {op : Op} {reply : Reply}

lemma usesOwn_iff (h : Sound base k a r) (op : Op) : k.UsesOwn op ↔ a.UsesOwn op := by
  cases op with
  | send pid e => exact h.owns_iff e
  | delayedSend pid e delay => exact h.owns_iff e
  | store x v => simp only [Kernel.UsesOwn, Spec.Kernel.UsesOwn, h.rep.pool.start, h.owns_iff]
  | _ => exact Iff.rfl

lemma freeZero_iff (h : Sound base k a r) : k.FreeZero ↔ a.FreeZero := by
  have hchain := h.rep.pool.chain .availableBlocks
  have hzero : ∀ b, k.ZeroAt (k.pool.block b).startBlock ↔ a.Zero b := by
    intro b
    simp only [Kernel.ZeroAt, Spec.Kernel.Zero, h.rep.pool.start, h.rep.pool.memory]
  constructor
  · intro hk b hb
    exact (hzero b).mp (hk _ hchain b hb)
  · intro ha l hl b hb
    rw [hl.unique hchain] at hb
    exact (hzero b).mpr (ha b hb)

end Sound

variable {priority : Fin 6 → UInt8} {base : Nat} {k₀ k : Kernel} {es : List Event}

/-- In every state that is reached by processes that keep to their own blocks, the available blocks are
zero, and so is every block that a request returns. -/
theorem blocks_zero (hprio : ∀ i, priority i ≤ 4) (hboot : boot priority base = some k₀)
    (h : Run (Kernel.StepIf Kernel.Careful) k₀ es k) :
    k.FreeZero ∧ ∀ x k', k.currentPid ≠ 0 → k.call .request = some (.block (some x), k') →
      k'.ZeroAt x := by
  obtain ⟨a, r, hs, hfree⟩ : ∃ a r, Sound base k a r ∧ a.FreeZero := by
    apply h.invariant (I := fun k => ∃ a r, Sound base k a r ∧ a.FreeZero)
    · obtain ⟨a, r, hs, -⟩ := Safe.boot hprio hboot
      refine ⟨a, r, hs.toSound, ?_⟩
      obtain ⟨p, hp, -, -, -, hmem⟩ := poolRep_initMemory base
      intro c _ i _
      rw [← hs.rep.pool.memory, boot_pool hboot, hp.memory, hmem]
    · rintro k e k' ⟨a, r, hs, hfree⟩ ⟨-, ⟨hz, hown⟩, hcall⟩
      obtain ⟨b, r', hy, hs', -, -⟩ := hs.call hz hcall
      exact ⟨b, r', hs', hfree.step hs.ok ((hs.usesOwn_iff _).mp hown) (hs.ok.effect hy)⟩
  refine ⟨hs.freeZero_iff.mpr hfree, ?_⟩
  intro x k' hz hcall i hi
  obtain ⟨b, r', hy, hs', -, -⟩ := hs.call (fun _ => hz) hcall
  rw [hs'.rep.pool.memory]
  exact hfree.granted hy i hi

/-- A block is requested, written to, sent, received and returned, and all other blocks are requested
before it comes up again. -/
theorem blocks_zero_after_use : ∃ k₀ es k, boot (fun _ => 2) 4096 = some k₀ ∧
    Run (Kernel.StepIf Kernel.Careful) k₀ es k ∧ k.currentPid = 10 ∧
    (k.call .request).any (fun x => x.1 = .block (some 4096)) = true ∧ k.FreeZero ∧
    ∀ x k', k.currentPid ≠ 0 → k.call .request = some (.block (some x), k') → k'.ZeroAt x := by
  obtain ⟨k₀, es, k, hboot, hrun, -, hc⟩ := exists_run_of_boot Kernel.Careful (fun _ => 2) 4096
    ([.request, .store 4200 65, .send 10 4096, .receive, .release 4096, .release 4096] ++
      List.replicate 29 .request)
    (fun _ k => k.currentPid = 10 ∧ (k.call .request).any (fun x => x.1 = .block (some 4096)) = true)
    (by decide +kernel)
  obtain ⟨hcur, hreq⟩ := of_decide_eq_true hc
  exact ⟨k₀, es, k, hboot, hrun, hcur, hreq, blocks_zero (fun _ => by decide) hboot hrun⟩

end RtxKernel
