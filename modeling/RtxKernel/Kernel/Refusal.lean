import RtxKernel.Kernel.Ownership

/-!
# Calls that are refused

`release_memory_block` checks its pointer and the owner of the block before it changes anything
(`release_exact`). `send_message` and `delayed_send` reject a null envelope and an unknown pid, and they write
into any other envelope before they look for its block: they are all or nothing exactly as long as the
envelope is a used block (`send_exact_iff`).
-/

namespace RtxKernel

namespace Pool

variable {s s' : Pool} {q : BlockQueue} {b : BlockPtr} {a : Nat} {current : UInt32} {code : UInt32}

lemma removeMemBlock_none (h : s.removeMemBlock q b current = some (none, s')) : s' = s := by
  obtain ⟨c, -, h⟩ := Option.bind_eq_some_iff.mp h
  cases c with
  | none => exact (Prod.mk.inj (Option.some.inj h)).2.symm
  | some c =>
    obtain ⟨prev, c⟩ := c
    dsimp only at h
    split_ifs at h
    · exact (Prod.mk.inj (Option.some.inj h)).2.symm
    · cases prev <;> cases h

/-- A release that fails leaves the pool as it is. -/
lemma releaseBlock_fail (h : s.releaseBlock a current = some (code, s')) (hcode : code ≠ 0) : s' = s := by
  rw [releaseBlock] at h
  split_ifs at h
  · exact (Prod.mk.inj (Option.some.inj h)).2.symm
  · obtain ⟨b, -, h⟩ := Option.bind_eq_some_iff.mp h
    cases b with
    | none => exact (Prod.mk.inj (Option.some.inj h)).2.symm
    | some b =>
      obtain ⟨⟨c, s₁⟩, hrem, hrest⟩ := Option.bind_eq_some_iff.mp h
      cases c with
      | none =>
        rw [← removeMemBlock_none hrem]
        exact (Prod.mk.inj (Option.some.inj hrest)).2.symm
      | some c =>
        obtain ⟨s₂, -, hlast⟩ := Option.bind_eq_some_iff.mp hrest
        exact absurd (Prod.mk.inj (Option.some.inj hlast)).1.symm hcode

end Pool

namespace Kernel

/-- The block at `x` goes back to the pool, and the first process that waits for a block becomes ready. -/
structure Frees (k : Kernel) (x : Nat) (l : QueueName → Nat → List PcbPtr) (k' : Kernel) : Prop where
  lists : ∃ b available used, Chain k.pool.next (k.pool.queue .availableBlocks) available ∧
    Chain k.pool.next (k.pool.queue .usedBlocks) used ∧ b ∈ used ∧ (k.pool.block b).startBlock = x ∧
    Chain k'.pool.next (k'.pool.queue .availableBlocks) (available ++ [b]) ∧
    Chain k'.pool.next (k'.pool.queue .usedBlocks) (used.erase b) ∧
    ∀ c, (k'.pool.block c).startBlock = (k.pool.block c).startBlock ∧
      (k'.pool.block c).pid = if c = b then noPid else (k.pool.block c).pid
  memory : k'.pool.memory = fill k.pool.memory x memBlockSize 0
  sched : k.sched.WakesFirst l .mem k'.sched
  mailbox : k'.mailbox = k.mailbox
  delayedMailbox : k'.delayedMailbox = k.delayedMailbox
  ticks : k'.ticks = k.ticks

/-- The process `pid` is in the system. -/
def IsLive (k : Kernel) (pid : UInt32) : Prop := ∃ p ∈ k.sched.live, (k.sched.pcb p).pid = pid

/-- A call that sends the envelope `e` returns, either with an error code and nothing changed, or with 0, and
then the envelope is a used block. -/
def AllOrNothing (k : Kernel) (op : Op) (e : Nat) : Prop :=
  ∃ code k', k.call op = some (.code code, k') ∧ (code ≠ 0 → k' = k) ∧ (code = 0 → k.IsUsed e)

end Kernel

namespace Spec.Pool

variable {p : Pool} {base x : Nat} {b : BlockPtr} {current : UInt32}

lemma WF.release_owned (h : p.WF base) (hb : b ∈ p.used) (hpid : p.pid b = current) :
    p.release (p.start b) current = (0, { p.setPid b noPid with
      available := p.available ++ [b]
      used := p.used.erase b
      memory := fill p.memory (p.start b) memBlockSize 0 }) := by
  have hlook : p.lookup (p.start b) = some b :=
    h.lookup_eq_some_iff.mpr ⟨h.lt_of_mem (q := .usedBlocks) hb, rfl⟩
  rw [Pool.release, if_neg (List.ne_nil_of_mem hb), hlook]
  dsimp only
  rw [if_pos ⟨hb, hpid⟩]

lemma WF.release_not_owned (h : p.WF base) (hno : ∀ b ∈ p.used, p.start b = x → p.pid b ≠ current) :
    ∃ code, code ≠ 0 ∧ p.release x current = (code, p) := by
  rcases h.release_cases x current with hfail | ⟨b, hb, hstart, hpid, -⟩
  · exact hfail
  · exact absurd hpid (hno b hb hstart)

end Spec.Pool

namespace Sound

variable {base : Nat} {k k' : Kernel} {a : Spec.Kernel} {r : PcbPtr} {l : QueueName → Nat → List PcbPtr}
  {x : Nat}

lemma release_fail (h : Sound base k a r) (ho : ¬ k.Owns x) :
    ∃ code, code ≠ 0 ∧ k.releaseMemoryBlock x = some (code, k) := by
  obtain ⟨code, hcode, hrel⟩ : ∃ code, code ≠ 0 ∧ a.pool.release x a.sched.currentPid = (code, a.pool) := by
    apply h.ok.pool.release_not_owned
    intro b hb hstart hpid
    exact ho ((h.owns_iff x).mpr ⟨b, hb, hstart, hpid⟩)
  obtain ⟨p, hp, -⟩ := h.rep.pool.releaseBlock h.ok.pool x a.sched.currentPid
  rw [hrel, ← h.rep.currentPid] at hp
  obtain rfl := Pool.releaseBlock_fail hp hcode
  refine ⟨code, hcode, ?_⟩
  rw [Kernel.releaseMemoryBlock, hp]
  simp [hcode]

lemma release_free (h : Sound base k a r) (hl : k.sched.Filed l) (ho : k.Owns x) :
    ∃ k', k.releaseMemoryBlock x = some (0, k') ∧ k.Frees x l k' := by
  obtain ⟨b, hb, rfl, hpid⟩ := (h.owns_iff x).mp ho
  obtain ⟨p, hp, hrep⟩ := h.rep.pool.releaseBlock h.ok.pool (a.pool.start b) a.sched.currentPid
  rw [h.ok.pool.release_owned hb hpid] at hp hrep
  rw [← h.rep.currentPid] at hp
  obtain ⟨s, hs, hwakes⟩ := h.rep.sched.wakesFirst h.ok.sched hl .mem
  refine ⟨{ k with pool := p }.withSched s, ?_, ?_, ?_, hwakes, rfl, rfl, rfl⟩
  · rw [Kernel.releaseMemoryBlock, hp]
    change (k.sched.unblockProcessByType .mem).bind _ = _
    rw [hs]
    rfl
  · refine ⟨b, a.pool.available, a.pool.used, h.rep.pool.chain .availableBlocks, h.rep.pool.chain .usedBlocks,
      hb, h.rep.pool.start b, hrep.chain .availableBlocks, hrep.chain .usedBlocks, ?_⟩
    intro c
    rw [h.rep.pool.start, h.rep.pool.pid]
    refine ⟨hrep.start c, (hrep.pid c).trans ?_⟩
    exact Function.update_apply ..
  · rw [h.rep.pool.memory]
    exact hrep.memory

end Sound

/-- `release_memory_block` frees a used block of the caller, and does nothing else in any other case. -/
theorem release_exact {priority : Fin 6 → UInt8} (hprio : ∀ i, priority i ≤ 4) {base : Nat} {k₀ k : Kernel}
    (hboot : boot priority base = some k₀) {es : List Event} (h : Run (Kernel.StepIf Kernel.Calls) k₀ es k)
    {l : QueueName → Nat → List PcbPtr} (hl : k.sched.Filed l) (x : Nat) :
    ∃ code k', k.call (.release x) = some (.code code, k') ∧ (code = 0 ↔ k.Owns x) ∧
      (code = 0 → k.Frees x l k') ∧ (code ≠ 0 → k' = k) := by
  obtain ⟨a, r, hs⟩ := Sound.of_run hprio hboot h
  by_cases ho : k.Owns x
  · obtain ⟨k', hk', hfrees⟩ := hs.release_free hl ho
    refine ⟨0, k', ?_, by simp [ho], fun _ => hfrees, fun hne => absurd rfl hne⟩
    rw [Kernel.call, hk']
    rfl
  · obtain ⟨code, hcode, hk⟩ := hs.release_fail ho
    refine ⟨code, k, ?_, by simp [ho, hcode], fun hz => absurd hz hcode, fun _ => rfl⟩
    rw [Kernel.call, hk]
    rfl

/-- Process 10 has all blocks, and 11 waits for one. -/
theorem release_exact_awaited : ∃ k₀ es k, boot (fun _ => 2) 4096 = some k₀ ∧
    Run (Kernel.StepIf Kernel.Calls) k₀ es k ∧
    es.map Event.op = List.replicate 30 .request ++ [.releaseProcessor, .request, .receive, .receive, .receive] ∧
    k.currentPid = 10 ∧ ∃ l k', k.sched.Filed l ∧ k.call (.release 4096) = some (.code 0, k') ∧
      k.Frees 4096 l k' := by
  obtain ⟨k₀, es, k, hboot, hrun, hops, hcheck⟩ := exists_run_of_boot Kernel.Calls (fun _ => 2) 4096
    (List.replicate 30 .request ++ [.releaseProcessor, .request, .receive, .receive, .receive])
    (fun _ k => k.currentPid = 10 ∧ k.Owns 4096) (by decide +kernel)
  obtain ⟨hpid, ho⟩ := of_decide_eq_true hcheck
  have hprio : ∀ i : Fin 6, (fun _ => 2 : Fin 6 → UInt8) i ≤ 4 := by decide
  obtain ⟨a, r, hs⟩ := Sound.of_run hprio hboot hrun
  obtain ⟨code, k', hcall, hiff, hfrees, -⟩ := release_exact hprio hboot hrun hs.filed 4096
  obtain rfl := hiff.mpr ho
  exact ⟨k₀, es, k, hboot, hrun, hops, hpid, _, k', hs.filed, hcall, hfrees rfl⟩

/-! ### Sending -/

namespace Sound

variable {base : Nat} {k k' : Kernel} {a : Spec.Kernel} {r : PcbPtr} {pid : UInt32} {e : Nat}

lemma isLive_iff (h : Sound base k a r) : k.IsLive pid ↔ a.sched.find pid ≠ none := by
  rw [Kernel.IsLive, ← h.rep.sched.exists_live h.ok.sched.wf, Option.ne_none_iff_exists']

lemma isPidValid_eq (h : Sound base k a r) (hp : ¬ k.IsLive pid) : k.sched.isPidValid pid = some false := by
  rw [h.isLive_iff, not_not] at hp
  rw [h.rep.sched.isPidValid h.ok.sched.wf.placed, hp]
  rfl

/-- A null envelope and an unknown pid are found out before anything is written. -/
lemma sendMessage_refused (h : Sound base k a r) (hwhy : e = 0 ∨ ¬ k.IsLive pid) :
    ∃ code, code ≠ 0 ∧ k.sendMessage pid e = some (code, k) := by
  by_cases he : e = 0
  · refine ⟨2, by decide, ?_⟩
    rw [Kernel.sendMessage, Kernel.sendSection, if_pos he]
    rfl
  · refine ⟨1, by decide, ?_⟩
    rw [Kernel.sendMessage, Kernel.sendSection, if_neg he, h.isPidValid_eq (hwhy.resolve_left he)]
    rfl

lemma delayedSend_refused (h : Sound base k a r) (hwhy : e = 0 ∨ ¬ k.IsLive pid) (delay : UInt32) :
    ∃ code, code ≠ 0 ∧ k.delayedSend pid e delay = some (code, k) := by
  by_cases he : e = 0
  · refine ⟨2, by decide, ?_⟩
    rw [Kernel.delayedSend, if_pos he]
    rfl
  · refine ⟨1, by decide, ?_⟩
    rw [Kernel.delayedSend, if_neg he, h.isPidValid_eq (hwhy.resolve_left he)]
    rfl

/-- Any other message that comes back was accepted. -/
lemma sendMessage_accepted (h : Sound base k a r) (he : e ≠ 0) (hp : k.IsLive pid) {x : UInt32 × Kernel}
    (hx : k.sendMessage pid e = some x) : x.1 = 0 := by
  have hrel := h.rep.sendMessage h.ok pid e
  rw [hx] at hrel
  obtain ⟨y, hy, hcode, -⟩ := hrel.exists_of_some
  obtain ⟨b, s, -, rfl⟩ := Spec.Kernel.sendMessage_valid he (h.isLive_iff.mp hp) hy
  exact hcode

lemma delayedSend_accepted (h : Sound base k a r) (he : e ≠ 0) (hp : k.IsLive pid) {delay : UInt32}
    {x : UInt32 × Kernel} (hx : k.delayedSend pid e delay = some x) : x.1 = 0 := by
  have hrel := h.rep.delayedSend h.ok pid e delay
  rw [hx] at hrel
  obtain ⟨y, hy, hcode, -⟩ := hrel.exists_of_some
  obtain ⟨b, -, rfl⟩ := Spec.Kernel.delayedSend_valid he (h.isLive_iff.mp hp) hy
  exact hcode

/-- A used block can be sent. -/
lemma sendMessage_used (h : Sound base k a r) (hu : k.IsUsed e) (pid : UInt32) :
    ∃ x, k.sendMessage pid e = some x := by
  obtain ⟨c, hc, rfl⟩ := (h.rep.isUsed_iff h.ok).mp hu
  obtain ⟨y, hy⟩ := Spec.Kernel.Posted.sendMessage_isSome h.ok (h.ok.pool.lt_of_mem (q := .usedBlocks) hc) pid
  have hrel := h.rep.sendMessage h.ok pid (a.pool.start c)
  rw [hy] at hrel
  obtain ⟨x, hx, -⟩ := hrel.exists_of_some_right
  exact ⟨x, hx⟩

lemma delayedSend_used (h : Sound base k a r) (hu : k.IsUsed e) (pid delay : UInt32) :
    ∃ x, k.delayedSend pid e delay = some x := by
  obtain ⟨c, hc, rfl⟩ := (h.rep.isUsed_iff h.ok).mp hu
  obtain ⟨b, hb⟩ := Spec.Kernel.Posted.address_isSome h.ok (h.ok.pool.lt_of_mem (q := .usedBlocks) hc) pid
  have hrel := h.rep.delayedSend h.ok pid (a.pool.start c) delay
  have hy : ∃ y, a.delayedSend pid (a.pool.start c) delay = some y := by
    rw [Spec.Kernel.delayedSend, hb]
    split_ifs
    · exact ⟨_, rfl⟩
    · exact ⟨_, rfl⟩
    · exact ⟨_, rfl⟩
  obtain ⟨y, hy⟩ := hy
  rw [hy] at hrel
  obtain ⟨x, hx, -⟩ := hrel.exists_of_some_right
  exact ⟨x, hx⟩

/-- A call that behaves like this is all or nothing for these envelopes only. -/
lemma allOrNothing_iff {op : Op} {o : Option (UInt32 × Kernel)}
    (hop : k.call op = o.map fun x => (.code x.1, x.2))
    (hrefused : e = 0 ∨ ¬ k.IsLive pid → ∃ code, code ≠ 0 ∧ o = some (code, k))
    (haccepted : e ≠ 0 → k.IsLive pid → ∀ x, o = some x → x.1 = 0) (hused : k.IsUsed e → ∃ x, o = some x) :
    k.AllOrNothing op e ↔ e = 0 ∨ ¬ k.IsLive pid ∨ k.IsUsed e := by
  constructor
  · rintro ⟨code, k', hcall, -, hzero⟩
    by_cases hwhy : e = 0 ∨ ¬ k.IsLive pid
    · rw [← or_assoc]
      exact .inl hwhy
    · rw [not_or, not_not] at hwhy
      rw [hop] at hcall
      obtain ⟨x, hx, heq⟩ := Option.map_eq_some_iff.mp hcall
      obtain rfl : x.1 = code := Reply.code.inj (Prod.mk.inj heq).1
      exact .inr (.inr (hzero (haccepted hwhy.1 hwhy.2 x hx)))
  · intro h
    by_cases hwhy : e = 0 ∨ ¬ k.IsLive pid
    · obtain ⟨code, hcode, ho⟩ := hrefused hwhy
      refine ⟨code, k, ?_, fun _ => rfl, fun hz => absurd hz hcode⟩
      rw [hop, ho]
      rfl
    · rw [← or_assoc] at h
      have hu := h.resolve_left hwhy
      rw [not_or, not_not] at hwhy
      obtain ⟨x, hx⟩ := hused hu
      refine ⟨x.1, x.2, ?_, fun hne => absurd (haccepted hwhy.1 hwhy.2 x hx) hne, fun _ => hu⟩
      rw [hop, hx]
      rfl

end Sound

/-- Both calls that send are all or nothing for exactly these envelopes: null, those to an unknown process, and
the used blocks. -/
theorem send_exact_iff {priority : Fin 6 → UInt8} (hprio : ∀ i, priority i ≤ 4) {base : Nat} {k₀ k : Kernel}
    (hboot : boot priority base = some k₀) {es : List Event} (h : Run (Kernel.StepIf Kernel.Calls) k₀ es k)
    (pid : UInt32) (e : Nat) :
    (k.AllOrNothing (.send pid e) e ↔ e = 0 ∨ ¬ k.IsLive pid ∨ k.IsUsed e) ∧
      ∀ delay, k.AllOrNothing (.delayedSend pid e delay) e ↔ e = 0 ∨ ¬ k.IsLive pid ∨ k.IsUsed e := by
  obtain ⟨a, r, hs⟩ := Sound.of_run hprio hboot h
  constructor
  · apply Sound.allOrNothing_iff (o := k.sendMessage pid e)
    · rw [Kernel.call]
      cases k.sendMessage pid e <;> rfl
    · exact hs.sendMessage_refused
    · exact fun he hp x => hs.sendMessage_accepted he hp
    · exact fun hu => hs.sendMessage_used hu pid
  · intro delay
    apply Sound.allOrNothing_iff (o := k.delayedSend pid e delay)
    · rw [Kernel.call]
      cases k.delayedSend pid e delay <;> rfl
    · exact fun hwhy => hs.delayedSend_refused hwhy delay
    · exact fun he hp x => hs.delayedSend_accepted he hp
    · exact fun hu => hs.delayedSend_used hu pid delay

/-- After one request of process 10 its block can be sent. -/
theorem send_exact_iff_granted : ∃ k₀ es k, boot (fun _ => 2) 4096 = some k₀ ∧
    Run (Kernel.StepIf Kernel.Calls) k₀ es k ∧ es.map Event.op = [.request] ∧
    k.AllOrNothing (.send 11 4096) 4096 ∧ ∀ delay, k.AllOrNothing (.delayedSend 11 4096 delay) 4096 := by
  obtain ⟨k₀, es, k, hboot, hrun, hops, hcheck⟩ := exists_run_of_boot Kernel.Calls (fun _ => 2) 4096 [.request]
    (fun _ k => k.IsUsed 4096) (by decide +kernel)
  have hu : k.IsUsed 4096 := of_decide_eq_true hcheck
  obtain ⟨hsend, hdelayed⟩ := send_exact_iff (by decide) hboot hrun 11 4096
  exact ⟨k₀, es, k, hboot, hrun, hops, hsend.mpr (.inr (.inr hu)), fun delay => (hdelayed delay).mpr (.inr (.inr hu))⟩

/-- After start-up the block at 4096 is available, and at 5000 there is none: the one is mailed, and
`reassign_mem_block` dereferences null for the other. -/
theorem send_not_checked : ∃ k, boot (fun _ => 2) 4096 = some k ∧ k.currentPid = 10 ∧
    ¬ k.AllOrNothing (.send 11 4096) 4096 ∧ ¬ k.AllOrNothing (.delayedSend 11 4096 5) 4096 ∧
    ¬ k.AllOrNothing (.send 11 5000) 5000 ∧ ¬ k.AllOrNothing (.delayedSend 11 5000 5) 5000 := by
  have hboot : (boot (fun _ => 2) 4096).any (fun k => k.currentPid = 10 ∧ ¬ k.IsUsed 4096 ∧
      (k.call (.send 11 4096)).map Prod.fst = some (.code 0) ∧
      (k.call (.delayedSend 11 4096 5)).map Prod.fst = some (.code 0) ∧
      (k.call (.send 11 5000)).map Prod.fst = none ∧
      (k.call (.delayedSend 11 5000 5)).map Prod.fst = none) = true := by
    decide +kernel
  obtain ⟨k, hk, hcheck⟩ := (Option.any_eq_true _ _).mp hboot
  obtain ⟨hpid, hu, hsend, hdelayed, hsend', hdelayed'⟩ := of_decide_eq_true hcheck
  have hfail : ∀ {op e reply}, (k.call op).map Prod.fst = reply → reply = some (.code 0) ∧ ¬ k.IsUsed e ∨ reply = none →
      ¬ k.AllOrNothing op e := by
    rintro op e reply hcall hwhy ⟨code, k', hk', -, hzero⟩
    rw [hk', Option.map_some] at hcall
    subst hcall
    rcases hwhy with ⟨hcode, hno⟩ | hno
    · exact hno (hzero (Reply.code.inj (Option.some.inj hcode)))
    · cases hno
  exact ⟨k, hk, hpid, hfail hsend (.inl ⟨rfl, hu⟩), hfail hdelayed (.inl ⟨rfl, hu⟩), hfail hsend' (.inr rfl),
    hfail hdelayed' (.inr rfl)⟩

end RtxKernel
