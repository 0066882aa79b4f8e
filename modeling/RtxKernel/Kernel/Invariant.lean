import RtxKernel.Kernel.Spec
import RtxKernel.Core.Operations

/-!
# The invariant of the kernel

`a.Ok base r`: the process `r` runs, the scheduler and the pool are well-formed, and the mailboxes
hold no more envelopes than their arrays have slots. Every operation that comes back keeps it
(`Ok.call`), and it leaves a process running that no ready process is more urgent than, if that was
so before. For the timer this is the work of `highest_priority`: it is a lower bound for the
priorities of the processes that were woken (`UrgentUpTo`).
-/

namespace RtxKernel.Spec

open Sched (GoesOn)

variable {r p x : PcbPtr} {base : Nat}

/-! ### The highest priority woken -/

/-- No ready process is more urgent than both `r` and the priority `w`. -/
def Sched.UrgentUpTo (a : Sched) (r : PcbPtr) (w : UInt32) : Prop :=
  ∀ i p, p ∈ a.queue .ready i → a.priority r ≤ a.priority p ∨ w ≤ a.priority p

lemma Sched.UrgentUpTo.wake {a : Sched} {w : UInt32} (h : a.UrgentUpTo r w) (hs : a.Steady r)
    (hp : p ≠ r) : (a.refile p .ready (a.priority p)).UrgentUpTo r
      (if a.priority p < w then a.priority p else w) := by
  intro i x hx
  rw [hs.wf.mem_refile (fun hr => absurd hr (hs.running_ne hp))] at hx
  rw [refile_priority, Function.update_eq_self]
  have hle : (if a.priority p < w then a.priority p else w) ≤ w := by
    split_ifs with hlt
    · exact UInt32.le_of_lt hlt
    · exact UInt32.le_refl w
  rcases hx with ⟨hx, -⟩ | ⟨rfl, -, -⟩
  · exact (h i x hx).imp_right (UInt32.le_trans hle)
  · right
    split_ifs with hlt
    · exact UInt32.le_refl _
    · exact UInt32.not_lt.mp hlt

namespace Kernel

variable {a b : Kernel}

structure Ok (a : Kernel) (base : Nat) (r : PcbPtr) : Prop where
  sched : a.sched.Steady r
  pool : a.pool.WF base
  mailbox_le : a.mailbox.length ≤ memBlockCount
  delayed_le : a.delayed.length ≤ memBlockCount

section Fields

variable (a : Kernel) (s : Sched) (y : Nat) (w : UInt32)

@[simp] lemma withSched_sched : (a.withSched s).sched = s := rfl
@[simp] lemma withSched_pool : (a.withSched s).pool = a.pool := rfl
@[simp] lemma withSched_mailbox : (a.withSched s).mailbox = a.mailbox := rfl
@[simp] lemma withSched_delayed : (a.withSched s).delayed = a.delayed := rfl
@[simp] lemma withSched_ticks : (a.withSched s).ticks = a.ticks := rfl

@[simp] lemma withPool_sched (q : Pool) : (a.withPool q).sched = a.sched := rfl
@[simp] lemma withPool_pool (q : Pool) : (a.withPool q).pool = q := rfl
@[simp] lemma withPool_mailbox (q : Pool) : (a.withPool q).mailbox = a.mailbox := rfl
@[simp] lemma withPool_delayed (q : Pool) : (a.withPool q).delayed = a.delayed := rfl
@[simp] lemma withPool_ticks (q : Pool) : (a.withPool q).ticks = a.ticks := rfl

@[simp] lemma write_sched : (a.write y w).sched = a.sched := rfl
@[simp] lemma write_mailbox : (a.write y w).mailbox = a.mailbox := rfl
@[simp] lemma write_delayed : (a.write y w).delayed = a.delayed := rfl
@[simp] lemma write_ticks : (a.write y w).ticks = a.ticks := rfl

@[simp] lemma store_sched (v : UInt8) : (a.store y v).sched = a.sched := rfl
@[simp] lemma store_mailbox (v : UInt8) : (a.store y v).mailbox = a.mailbox := rfl
@[simp] lemma store_delayed (v : UInt8) : (a.store y v).delayed = a.delayed := rfl
@[simp] lemma store_ticks (v : UInt8) : (a.store y v).ticks = a.ticks := rfl

end Fields

/-! ### What the operations do to the mailboxes -/

lemma length_storeIn_le {l : List Nat} (h : l.length ≤ memBlockCount) (e : Nat) :
    (storeIn l e).length ≤ memBlockCount := by
  rw [storeIn]
  split_ifs with hl
  · simpa [Nat.succ_le_iff] using hl
  · exact h

/-- The envelope of a message that is sent is a block; its owner and header are written. -/
lemma address_eq_some_iff {processId : UInt32} {e : Nat} :
    a.address processId e = some b ↔ ∃ c, a.pool.lookup e = some c ∧
      b = ((a.write (rxField e) processId).withPool
        ((a.write (rxField e) processId).pool.setPid c processId)).write
          (txField e) a.sched.currentPid := by
  have hl : (a.write (rxField e) processId).pool.lookup e = a.pool.lookup e := rfl
  simp only [address, Pool.reassign, Option.map_map, Option.map_eq_some_iff, hl,
    Function.comp_apply]
  exact exists_congr fun c => and_congr_right fun _ => eq_comm

lemma sendSection_cases {processId : UInt32} {e : Nat} {x : UInt32 × Bool × Kernel}
    (h : a.sendSection processId e = some x) :
    ((e = 0 ∨ a.sched.find processId = none) ∧ ∃ c, c ≠ 0 ∧ x = (c, false, a)) ∨
      e ≠ 0 ∧ ∃ b, a.address processId e = some b ∧
        x = (0, true, { b with mailbox := storeIn b.mailbox e }) := by
  rw [sendSection] at h
  split_ifs at h with h₁ h₂
  · exact .inl ⟨.inl h₁, 2, by decide, (Option.some.inj h).symm⟩
  · exact .inl ⟨.inr h₂, 1, by decide, (Option.some.inj h).symm⟩
  · obtain ⟨b, hb, rfl⟩ := Option.map_eq_some_iff.mp h
    exact .inr ⟨h₁, b, hb, rfl⟩

lemma receiveScan_cases (a : Kernel) :
    (∀ e ∈ a.mailbox, a.rx e ≠ a.sched.currentPid) ∧ a.receiveScan = (none, a) ∨
      ∃ i e, a.mailbox[i]? = some e ∧ a.rx e = a.sched.currentPid ∧
        (∀ j < i, ∀ e', a.mailbox[j]? = some e' → a.rx e' ≠ a.sched.currentPid) ∧
        a.receiveScan = (some e, { a with mailbox := a.mailbox.eraseIdx i }) := by
  rw [receiveScan]
  cases hi : a.mailbox.findIdx? fun e => a.rx e = a.sched.currentPid with
  | none =>
    refine .inl ⟨fun e he => ?_, rfl⟩
    simpa using List.findIdx?_eq_none_iff.mp hi e he
  | some i =>
    obtain ⟨hlt, he, hbefore⟩ := List.findIdx?_eq_some_iff_getElem.mp hi
    refine .inr ⟨i, a.mailbox[i], List.getElem?_eq_getElem hlt, by simpa using he, ?_, ?_⟩
    · intro j hj e' he'
      obtain ⟨hjl, rfl⟩ := List.getElem?_eq_some_iff.mp he'
      simpa using hbefore j hj
    · simp [List.getElem?_eq_getElem hlt]

lemma delayedSend_cases {processId delay : UInt32} {e : Nat} {x : UInt32 × Kernel}
    (h : a.delayedSend processId e delay = some x) :
    (∃ c, c ≠ 0 ∧ x = (c, a)) ∨
      e ≠ 0 ∧ ∃ b, a.address processId e = some b ∧
        x = (0, { b.write (sendTimeField e) (delay + b.ticks) with
          delayed := storeIn b.delayed e }) := by
  rw [delayedSend] at h
  split_ifs at h with h₁ h₂
  · exact .inl ⟨2, by decide, (Option.some.inj h).symm⟩
  · exact .inl ⟨1, by decide, (Option.some.inj h).symm⟩
  · obtain ⟨b, hb, rfl⟩ := Option.map_eq_some_iff.mp h
    exact .inr ⟨h₁, b, hb, rfl⟩

/-! ### The invariant is kept -/

namespace Ok

lemma withSched (h : a.Ok base r) {s : Sched} {r' : PcbPtr} (hs : s.Steady r') :
    (a.withSched s).Ok base r' := ⟨hs, h.pool, h.mailbox_le, h.delayed_le⟩

lemma withPool (h : a.Ok base r) {q : Pool} (hq : q.WF base) : (a.withPool q).Ok base r :=
  ⟨h.sched, hq, h.mailbox_le, h.delayed_le⟩

lemma write (h : a.Ok base r) (y : Nat) (w : UInt32) : (a.write y w).Ok base r :=
  ⟨h.sched, ⟨h.pool.perm, h.pool.start_eq⟩, h.mailbox_le, h.delayed_le⟩

lemma store (h : a.Ok base r) (y : Nat) (v : UInt8) : (a.store y v).Ok base r :=
  ⟨h.sched, ⟨h.pool.perm, h.pool.start_eq⟩, h.mailbox_le, h.delayed_le⟩

lemma address (h : a.Ok base r) {processId : UInt32} {e : Nat}
    (hb : a.address processId e = some b) : b.Ok base r ∧ b.sched = a.sched := by
  obtain ⟨c, -, rfl⟩ := address_eq_some_iff.mp hb
  exact ⟨((h.write _ _).withPool ((h.write _ _).pool.setPid _ _)).write _ _, rfl⟩

lemma sendSection (h : a.Ok base r) {processId : UInt32} {e : Nat} {x : UInt32 × Bool × Kernel}
    (hx : a.sendSection processId e = some x) : x.2.2.Ok base r ∧ x.2.2.sched = a.sched := by
  rcases sendSection_cases hx with ⟨-, c, -, rfl⟩ | ⟨-, b, hb, rfl⟩
  · exact ⟨h, rfl⟩
  · obtain ⟨hok, hs⟩ := h.address hb
    exact ⟨⟨hok.sched, hok.pool, length_storeIn_le hok.mailbox_le e, hok.delayed_le⟩, hs⟩

/-- The system goes on: some process runs in `b`, as urgently as the one in `a` did. -/
def GoesOn (base : Nat) (a : Kernel) (r : PcbPtr) (b : Kernel) : Prop :=
  a.sched.Frame b.sched ∧ ∃ r', b.Ok base r' ∧ (a.sched.Urgent r → b.sched.Urgent r')

lemma goesOn (hab : b.Ok base r) (hs : b.sched = a.sched) : GoesOn base a r b :=
  ⟨by rw [hs]; exact .refl _, r, hab, by rw [hs]; exact id⟩

lemma goesOn_withSched (h : b.Ok base r) {s : Sched} (hs : b.sched = a.sched)
    (hgo : b.sched.GoesOn r s) : GoesOn base a r (b.withSched s) := by
  obtain ⟨hf, r', hr', hurg⟩ := hgo
  rw [hs] at hf hurg
  exact ⟨hf, r', h.withSched hr', hurg⟩

lemma sendMessage (h : a.Ok base r) {processId : UInt32} {e : Nat} {y : UInt32 × Kernel}
    (hy : a.sendMessage processId e = some y) : GoesOn base a r y.2 := by
  rw [Kernel.sendMessage] at hy
  obtain ⟨⟨code, sent, b⟩, hx, hy⟩ := Option.bind_eq_some_iff.mp hy
  obtain ⟨hok, hs⟩ := h.sendSection hx
  cases sent with
  | false =>
    obtain rfl := Option.some.inj hy
    exact hok.goesOn hs
  | true =>
    obtain ⟨s, hsched, hgo⟩ := hok.sched.unblockByPid processId
    obtain ⟨s', hs', hy⟩ := Option.bind_eq_some_iff.mp hy
    obtain rfl := Option.some.inj (hsched.symm.trans hs')
    obtain rfl := Option.some.inj hy
    exact hok.goesOn_withSched hs hgo

lemma delayedSend (h : a.Ok base r) {processId delay : UInt32} {e : Nat} {y : UInt32 × Kernel}
    (hy : a.delayedSend processId e delay = some y) : GoesOn base a r y.2 := by
  rcases delayedSend_cases hy with ⟨c, -, rfl⟩ | ⟨-, b, hb, rfl⟩
  · exact h.goesOn rfl
  · obtain ⟨hok, hs⟩ := h.address hb
    have hok' := hok.write (sendTimeField e) (delay + b.ticks)
    refine goesOn (b := { b.write (sendTimeField e) (delay + b.ticks) with
      delayed := storeIn b.delayed e }) ⟨hok'.sched, hok'.pool, hok'.mailbox_le, ?_⟩ hs
    exact length_storeIn_le hok.delayed_le e

lemma currentPid (h : a.Ok base r) : a.sched.currentPid = a.sched.pid r := by
  rw [Sched.currentPid, h.sched.running]

lemma receiveMessage (h : a.Ok base r) (hz : a.sched.pid r ≠ 0) :
    GoesOn base a r a.receiveMessage.2 := by
  rw [Kernel.receiveMessage]
  rcases receiveScan_cases a with ⟨-, he⟩ | ⟨i, e, -, -, -, he⟩
  · rw [he]
    refine h.goesOn_withSched rfl (h.sched.block ?_ .msg)
    rwa [h.currentPid]
  · rw [he]
    refine goesOn ⟨h.sched, h.pool, ?_, h.delayed_le⟩ rfl
    exact Nat.le_trans (List.length_eraseIdx_le ..) h.mailbox_le

lemma requestMemoryBlock (h : a.Ok base r) (hz : a.sched.pid r ≠ 0) :
    GoesOn base a r a.requestMemoryBlock.2 := by
  rw [Kernel.requestMemoryBlock]
  cases ht : a.pool.take a.sched.currentPid with
  | none =>
    refine h.goesOn_withSched rfl (h.sched.block ?_ .mem)
    rwa [h.currentPid]
  | some x => exact goesOn (h.withPool (h.pool.take ht)) rfl

lemma releaseMemoryBlock (h : a.Ok base r) {y : Nat} {z : UInt32 × Kernel}
    (hz : a.releaseMemoryBlock y = some z) : GoesOn base a r z.2 := by
  rw [Kernel.releaseMemoryBlock] at hz
  have hp : (a.pool.release y a.sched.currentPid).2.WF base := h.pool.release
  have hok := h.withPool hp
  dsimp only at hz
  split_ifs at hz
  · obtain ⟨s, hs, rfl⟩ := Option.map_eq_some_iff.mp hz
    obtain ⟨s', hs', hgo⟩ := h.sched.unblockByType .mem
    obtain rfl := Option.some.inj (hs'.symm.trans hs)
    exact hok.goesOn_withSched rfl hgo
  · obtain rfl := Option.some.inj hz
    exact goesOn hok rfl

end Ok

/-! ### The timer -/

lemma Ok.withTicks (h : a.Ok base r) (t : UInt32) : Ok { a with ticks := t } base r :=
  ⟨h.sched, h.pool, h.mailbox_le, h.delayed_le⟩

/-- What unblocking the receiver does: nothing, or one process is woken. -/
lemma wakeReceiver_cases (hs : a.sched.Steady r) (pid w : UInt32) :
    a.wakeReceiver pid w = some (w, a) ∨
      ∃ p, p ∈ a.sched.live ∧ a.sched.pid p = pid ∧ (a.sched.state p).isBlocked = true ∧
        a.wakeReceiver pid w = some (if a.sched.priority p < w then a.sched.priority p else w,
          a.withSched (a.sched.refile p .ready (a.sched.priority p))) := by
  rw [wakeReceiver]
  cases hf : a.sched.find pid with
  | none => exact .inl rfl
  | some p =>
    dsimp only
    split_ifs with hb
    · refine .inr ⟨p, hs.wf.find_live hf, hs.wf.find_pid hf, hb, ?_⟩
      rcases Sched.unblockByPidSection_cases pid hs.running with ⟨hn, -⟩ | ⟨x, hx, -, he⟩
      · exact absurd (hn p hf) (by simp [hb])
      · obtain rfl := Option.some.inj (hf.symm.trans hx)
        simp [Sched.unblockByPid, he, Sched.releaseIf]
    · exact .inl rfl

/-- What holds along the loop of `check_existing_delayed_message` that was entered in `a`. -/
structure Sweeps (base : Nat) (a : Kernel) (r : PcbPtr) (w : UInt32) (b : Kernel) : Prop where
  ok : b.Ok base r
  frame : a.sched.Frame b.sched
  pool : b.pool = a.pool
  ticks : b.ticks = a.ticks
  urgent : a.sched.Urgent r → b.sched.UrgentUpTo r w

lemma Ok.sweeps (h : a.Ok base r) (w : UInt32) : Sweeps base a r w a :=
  ⟨h, .refl _, rfl, rfl, fun hu i p hp => .inl (hu i p hp)⟩

lemma Sweeps.wakeReceiver {w w' : UInt32} {c : Kernel} (h : Sweeps base a r w b)
    {pid : UInt32} (hc : b.wakeReceiver pid w = some (w', c)) : Sweeps base a r w' c := by
  rcases wakeReceiver_cases h.ok.sched pid w with he | ⟨p, hl, -, hb, he⟩
  · obtain ⟨rfl, rfl⟩ := Prod.mk.inj (Option.some.inj (he.symm.trans hc))
    exact h
  · obtain ⟨rfl, rfl⟩ := Prod.mk.inj (Option.some.inj (he.symm.trans hc))
    have hp := h.ok.sched.ne_of_isBlocked hb
    have hw := h.ok.sched.wf.wake hl (h.ok.sched.running_ne hp)
    exact ⟨h.ok.withSched (h.ok.sched.refile hp hw), h.frame.trans (.wake p _), h.pool, h.ticks,
      fun hu => (h.urgent hu).wake h.ok.sched hp⟩

lemma Sweeps.deliver {w : UInt32} {e i : Nat} (h : Sweeps base a r w b)
    {x : Nat × Nat × UInt32 × Kernel} (hx : b.deliver e i w = some x) :
    Sweeps base a r x.2.2.1 x.2.2.2 := by
  rw [Kernel.deliver] at hx
  split_ifs at hx with hlen
  obtain ⟨y, hy, rfl⟩ := Option.map_eq_some_iff.mp hx
  refine Sweeps.wakeReceiver (b := b.move e i) ?_ hy
  refine ⟨⟨h.ok.sched, h.ok.pool, ?_, ?_⟩, h.frame, h.pool, h.ticks, h.urgent⟩
  · simpa [move, Nat.succ_le_iff] using hlen
  · exact Nat.le_trans (List.length_eraseIdx_le ..) h.ok.delayed_le

lemma Sweeps.checkFrom {n i : Nat} {w : UInt32} {moved : List Nat} (h : Sweeps base a r w b)
    {x : List Nat × UInt32 × Kernel} (hx : Kernel.checkFrom n i w moved b = some x) :
    Sweeps base a r x.2.1 x.2.2 := by
  induction n generalizing i w moved b with
  | zero =>
    rw [Kernel.checkFrom] at hx
    split_ifs at hx
    obtain rfl := Option.some.inj hx
    exact h
  | succ n ih =>
    rw [Kernel.checkFrom] at hx
    split_ifs at hx
    · obtain rfl := Option.some.inj hx
      exact h
    · cases hi : b.delayed[i]? with
      | none =>
        rw [hi] at hx
        exact ih h hx
      | some e =>
        rw [hi] at hx
        dsimp only at hx
        split_ifs at hx
        · obtain ⟨y, hy, hx⟩ := Option.bind_eq_some_iff.mp hx
          exact ih (h.deliver hy) hx
        · exact ih h hx

lemma Ok.currentPriority (h : a.Ok base r) : a.currentPriority = a.sched.priority r := by
  rw [Kernel.currentPriority, h.currentPid, h.sched.wf.find_running h.sched.running]

/-- `highest_priority` tells whether the processor has to be released. -/
lemma Ok.timerIsr (h : a.Ok base r) {y : List Nat × Kernel} (hy : a.timerIsr = some y) :
    GoesOn base a r y.2 := by
  rw [Kernel.timerIsr, checkExistingDelayedMessage] at hy
  obtain ⟨⟨moved, w, b⟩, hb, rfl⟩ := Option.map_eq_some_iff.mp hy
  have h₀ := h.withTicks (a.ticks + 1)
  have hs := (h₀.sweeps 4).checkFrom hb
  dsimp only
  split_ifs with hlt
  · obtain ⟨hf, r', hr', hu⟩ := hs.ok.sched.wf.procSwitch_goesOn (r := r) hs.frame
    exact ⟨hf, r', hs.ok.withSched hr', hu⟩
  · refine ⟨hs.frame, r, hs.ok, fun hu i p hp => ?_⟩
    rw [hs.ok.currentPriority] at hlt
    rcases hs.urgent hu i p hp with hle | hle
    · exact hle
    · exact UInt32.le_trans (UInt32.not_lt.mp hlt) hle

/-- What the interrupt does for a character: nothing when all blocks are in use, or it takes one and
sends it to the keyboard decoder. -/
lemma Ok.uartHandler_cases (h : a.Ok base r) {c : UInt8} {y : Option UInt32 × Kernel}
    (hy : a.uartHandler c = some y) :
    y = (none, a) ∨ ∃ q x z, (a.withPool q).Ok base r ∧ (a.withPool q).sendMessage kcdPid x = some z ∧
      y = (some z.1, z.2) := by
  rw [Kernel.uartHandler] at hy
  cases ht : a.pool.take a.sched.currentPid with
  | none =>
    rw [ht] at hy
    exact .inl (Option.some.inj hy).symm
  | some x =>
    rw [ht] at hy
    obtain ⟨z, hz, rfl⟩ := Option.map_eq_some_iff.mp hy
    have hok := (((h.withPool (h.pool.take ht)).write (txField x.1) uartPid).write (rxField x.1)
      kcdPid).store (msgField x.1) c
    exact .inr ⟨_, x.1, z, hok, hz, rfl⟩

lemma Ok.uartHandler (h : a.Ok base r) {c : UInt8} {y : Option UInt32 × Kernel}
    (hy : a.uartHandler c = some y) : GoesOn base a r y.2 := by
  obtain rfl | ⟨q, x, z, hok, hz, rfl⟩ := h.uartHandler_cases hy
  · exact goesOn h rfl
  · exact hok.sendMessage hz

/-! ### Every operation -/

/-- Every operation that comes back keeps the invariant; except for `unblock_process_by_pid` without
the permission to release the processor it also keeps the running process the most urgent. -/
theorem Ok.call (h : a.Ok base r) {op : Op} (hz : op.isInterrupt = false → a.sched.pid r ≠ 0)
    {y : Reply × Kernel} (hy : a.call op = some y) :
    a.sched.Frame y.2.sched ∧ ∃ r', y.2.Ok base r' ∧
      ((∀ pid, op ≠ .unblockByPid pid false) → a.sched.Urgent r → y.2.sched.Urgent r') := by
  have hgo : ∀ b, GoesOn base a r b → a.sched.Frame b.sched ∧ ∃ r', b.Ok base r' ∧
      ((∀ pid, op ≠ .unblockByPid pid false) → a.sched.Urgent r → b.sched.Urgent r') :=
    fun b ⟨hf, r', hr', hu⟩ => ⟨hf, r', hr', fun _ => hu⟩
  cases op with
  | releaseProcessor =>
    obtain rfl := Option.some.inj hy
    exact hgo _ (h.goesOn_withSched rfl (h.sched.wf.procSwitch_goesOn (.refl _)))
  | block t =>
    obtain rfl := Option.some.inj hy
    refine hgo _ (h.goesOn_withSched rfl (h.sched.block ?_ t))
    rw [h.currentPid]
    exact hz rfl
  | unblockByPid pid allow =>
    obtain ⟨s, hs, rfl⟩ := Option.map_eq_some_iff.mp hy
    cases allow with
    | true =>
      obtain ⟨s', hs', hs''⟩ := h.sched.unblockByPid pid
      obtain rfl := Option.some.inj (hs'.symm.trans hs)
      exact hgo _ (h.goesOn_withSched rfl hs'')
    | false =>
      obtain ⟨s', hs', hf, hs''⟩ := h.sched.unblockByPid_false pid
      obtain rfl := Option.some.inj (hs'.symm.trans hs)
      exact ⟨hf, r, h.withSched hs'', fun hne => absurd rfl (hne pid)⟩
  | unblockByType t =>
    obtain ⟨s, hs, rfl⟩ := Option.map_eq_some_iff.mp hy
    obtain ⟨s', hs', hs''⟩ := h.sched.unblockByType t
    obtain rfl := Option.some.inj (hs'.symm.trans hs)
    exact hgo _ (h.goesOn_withSched rfl hs'')
  | setPriority pid priority =>
    obtain ⟨x, hx, rfl⟩ := Option.map_eq_some_iff.mp hy
    obtain ⟨code, s, hs, hs''⟩ := h.sched.setProcessPriority (hz rfl) pid priority
    obtain rfl := Option.some.inj (hs.symm.trans hx)
    exact hgo _ (h.goesOn_withSched rfl hs'')
  | send pid e =>
    obtain ⟨x, hx, rfl⟩ := Option.map_eq_some_iff.mp hy
    exact hgo _ (h.sendMessage hx)
  | delayedSend pid e delay =>
    obtain ⟨x, hx, rfl⟩ := Option.map_eq_some_iff.mp hy
    exact hgo _ (h.delayedSend hx)
  | receive =>
    obtain rfl := Option.some.inj hy
    exact hgo _ (h.receiveMessage (hz rfl))
  | request =>
    obtain rfl := Option.some.inj hy
    exact hgo _ (h.requestMemoryBlock (hz rfl))
  | release x =>
    obtain ⟨z, hz', rfl⟩ := Option.map_eq_some_iff.mp hy
    exact hgo _ (h.releaseMemoryBlock hz')
  | store x v =>
    obtain rfl := Option.some.inj hy
    exact hgo _ (goesOn (h.store x v) rfl)
  | terminate =>
    obtain ⟨s, hs, rfl⟩ := Option.map_eq_some_iff.mp hy
    obtain ⟨s', hs', hs''⟩ := h.sched.terminate (hz rfl)
    obtain rfl := Option.some.inj (hs'.symm.trans hs)
    exact hgo _ (h.goesOn_withSched rfl hs'')
  | timer =>
    obtain ⟨x, hx, rfl⟩ := Option.map_eq_some_iff.mp hy
    exact hgo _ (h.timerIsr hx)
  | uart c =>
    obtain ⟨x, hx, rfl⟩ := Option.map_eq_some_iff.mp hy
    exact hgo _ (h.uartHandler hx)

end Kernel

end RtxKernel.Spec
