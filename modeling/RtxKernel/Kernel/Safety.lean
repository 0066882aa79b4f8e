import RtxKernel.Core.Refile
import RtxKernel.Kernel.Effect
import RtxKernel.Kernel.Boot

/-!
# Histories of permitted operations

From start-up on, every history of permitted operations keeps the queues of the scheduler in order
(`queues_safe`) and never lets a process run while a more urgent one is ready (`preemption_safe`).
A permitted operation always comes back, so the histories do not end in a fault.
-/

namespace RtxKernel

namespace Spec.Kernel

variable {a b : Kernel} {base : Nat} {r : PcbPtr} {op : Op} {reply : Reply}

/-- What the callers of an operation see to. -/
def Permits (a : Kernel) : Op → Prop
  | .send _ e | .delayedSend _ e _ =>
    a.sched.currentPid ≠ 0 ∧ (∃ c ∈ a.pool.used, a.pool.start c = e) ∧ e ∉ a.mailbox ++ a.delayed
  | .timer => True
  | .uart _ => ∀ c t, a.pool.available = c :: t → a.pool.start c ∉ a.mailbox ++ a.delayed
  | _ => a.sched.currentPid ≠ 0

lemma address_fields {pid : UInt32} {e : Nat} (hb : a.address pid e = some b) :
    b.mailbox = a.mailbox ∧ b.delayed = a.delayed ∧ b.ticks = a.ticks ∧ b.sched = a.sched := by
  obtain ⟨c, -, rfl⟩ := address_eq_some_iff.mp hb
  exact ⟨rfl, rfl, rfl, rfl⟩

lemma take_cases {current : UInt32} {x : Nat} {p : Pool} (hp : a.pool.take current = some (x, p)) :
    ∃ c t, a.pool.available = c :: t ∧ a.pool.start c = x ∧
      p = { a.pool.setPid c current with available := t, used := a.pool.used ++ [c] } := by
  rw [Pool.take] at hp
  cases ha : a.pool.available with
  | nil => simp [ha] at hp
  | cons c t =>
    rw [ha] at hp
    obtain ⟨rfl, rfl⟩ := Prod.mk.inj (Option.some.inj hp)
    exact ⟨c, t, rfl, rfl, rfl⟩

namespace Posted

/-- A block that is in no mailbox is stored, in either of them. -/
lemma store (h : a.Posted base) (hok : a.Ok base r) {c : BlockPtr} (hc : c < memBlockCount)
    (hnot : a.pool.start c ∉ a.mailbox ++ a.delayed) (hmail : b.mailbox = a.mailbox)
    (hdel : b.delayed = a.delayed) (t : UInt32) (s : Sched) :
    ((b.post (a.pool.start c)).withSched s).Posted base ∧
      (b.postDelayed (a.pool.start c) t).Posted base := by
  rw [hok.pool.start_eq c hc] at hnot ⊢
  have hlen := h.length_lt hc hnot
  constructor
  · refine h.of_cons hc hnot ?_
    have hroom : a.mailbox.length < memBlockCount := by omega
    simp only [post, withSched_mailbox, withSched_delayed, storeIn, hmail, hdel, if_pos hroom]
    rw [List.append_assoc]
    exact List.perm_middle
  · refine h.of_cons hc hnot ?_
    have hroom : a.delayed.length < memBlockCount := by omega
    simp only [postDelayed, storeIn, write_mailbox, hmail, hdel, if_pos hroom]
    rw [← List.append_assoc]
    exact List.perm_append_singleton _ _

theorem step (h : a.Posted base) (hok : a.Ok base r) (hp : a.Permits op)
    (he : a.Effect op reply b) : b.Posted base := by
  cases he with
  | quiet s hq => exact ⟨h.nodup, h.block⟩
  | sent s hb =>
    obtain ⟨hmail, hdel, -, -⟩ := address_fields hb
    obtain ⟨-, ⟨c, hc, rfl⟩, hnot⟩ := hp
    exact (h.store hok (hok.pool.lt_of_mem (q := .usedBlocks) hc) hnot hmail hdel 0 s).1
  | delayed hb =>
    obtain ⟨hmail, hdel, -, -⟩ := address_fields hb
    obtain ⟨-, ⟨c, hc, rfl⟩, hnot⟩ := hp
    exact (h.store hok (hok.pool.lt_of_mem (q := .usedBlocks) hc) hnot hmail hdel _ a.sched).2
  | received he hrx hfirst =>
    exact h.of_sublist ((List.eraseIdx_sublist _ _).append_right _)
  | granted hp => exact ⟨h.nodup, h.block⟩
  | released s hc hx ho => exact ⟨h.nodup, h.block⟩
  | stored => exact ⟨h.nodup, h.block⟩
  | @ticked new w b' s hb =>
    have hmv := hok.moves_tick hb
    refine h.of_perm ?_
    rw [withSched_mailbox, withSched_delayed, hmv.mailbox, List.append_assoc]
    exact hmv.delayed.append_left _
  | typedLost hp' => exact ⟨h.nodup, h.block⟩
  | typed s hp' hb =>
    obtain ⟨hmail, hdel, -, -⟩ := address_fields hb
    obtain ⟨c, t, hav, rfl, -⟩ := take_cases hp'
    have hc : c < memBlockCount := hok.pool.lt_of_mem (q := .availableBlocks) (by simp [hav])
    exact (h.store hok hc (hp c t hav) hmail hdel 0 s).1

lemma address_isSome (hok : a.Ok base r) {c : BlockPtr} (hc : c < memBlockCount) (pid : UInt32) :
    ∃ b, a.address pid (a.pool.start c) = some b :=
  ⟨_, address_eq_some_iff.mpr ⟨c, hok.pool.lookup_eq_some_iff.mpr ⟨hc, rfl⟩, rfl⟩⟩

lemma sendMessage_isSome (hok : a.Ok base r) {c : BlockPtr} (hc : c < memBlockCount)
    (pid : UInt32) : ∃ y, a.sendMessage pid (a.pool.start c) = some y := by
  obtain ⟨b, hb⟩ := address_isSome hok hc pid
  obtain ⟨hmail, hdel, hticks, hs⟩ := address_fields hb
  obtain ⟨s, hs', -⟩ := hok.sched.unblockByPid pid
  rw [sendMessage, sendSection]
  split_ifs
  · exact ⟨_, rfl⟩
  · exact ⟨_, rfl⟩
  · rw [hb]
    simp only [Option.map_some, Option.bind_eq_bind, Option.bind_some, if_true, hs, hs']
    exact ⟨_, rfl⟩

/-- A permitted operation comes back. -/
theorem call_isSome (h : a.Posted base) (hok : a.Ok base r) (hp : a.Permits op) :
    ∃ y, a.call op = some y := by
  have hz : a.sched.currentPid ≠ 0 → a.sched.pid r ≠ 0 := by
    rw [hok.currentPid]
    exact id
  cases op with
  | releaseProcessor => exact ⟨_, rfl⟩
  | block t => exact ⟨_, rfl⟩
  | unblockByPid pid allow =>
    cases allow with
    | true =>
      obtain ⟨s, hs, -⟩ := hok.sched.unblockByPid pid
      exact ⟨_, by rw [call, hs]; rfl⟩
    | false =>
      obtain ⟨s, hs, -⟩ := hok.sched.unblockByPid_false pid
      exact ⟨_, by rw [call, hs]; rfl⟩
  | unblockByType t =>
    obtain ⟨s, hs, -⟩ := hok.sched.unblockByType t
    exact ⟨_, by rw [call, hs]; rfl⟩
  | setPriority pid priority =>
    obtain ⟨code, s, hs, -⟩ := hok.sched.setProcessPriority (hz hp) pid priority
    exact ⟨_, by rw [call, hs]; rfl⟩
  | send pid e =>
    obtain ⟨-, ⟨c, hc, rfl⟩, -⟩ := hp
    obtain ⟨y, hy⟩ := sendMessage_isSome hok (hok.pool.lt_of_mem (q := .usedBlocks) hc) pid
    exact ⟨_, by rw [call, hy]; rfl⟩
  | delayedSend pid e delay =>
    obtain ⟨-, ⟨c, hc, rfl⟩, -⟩ := hp
    obtain ⟨b, hb⟩ := address_isSome hok (hok.pool.lt_of_mem (q := .usedBlocks) hc) pid
    simp only [call, delayedSend]
    split_ifs
    · exact ⟨_, rfl⟩
    · exact ⟨_, rfl⟩
    · exact ⟨_, by rw [hb]; rfl⟩
  | receive => exact ⟨_, rfl⟩
  | request => exact ⟨_, rfl⟩
  | release x =>
    obtain ⟨s, hs, -⟩ := hok.sched.unblockByType .mem
    simp only [call, releaseMemoryBlock]
    split_ifs
    · exact ⟨_, by rw [hs]; rfl⟩
    · exact ⟨_, rfl⟩
  | store x v => exact ⟨_, rfl⟩
  | terminate =>
    obtain ⟨s, hs, -⟩ := hok.sched.terminate (hz hp)
    exact ⟨_, by rw [call, hs]; rfl⟩
  | timer =>
    have hok₀ := hok.withTicks (a.ticks + 1)
    have hlen := h.length_le
    have hfuel : memBlockCount - 0 + a.delayed.length ≤ 2 * memBlockCount := by omega
    obtain ⟨x, hx⟩ := checkFrom_isSome hok₀ hlen hfuel 4 []
    exact ⟨_, by rw [call, timerIsr, checkExistingDelayedMessage, hx]; rfl⟩
  | uart c =>
    simp only [call, uartHandler]
    cases ht : a.pool.take a.sched.currentPid with
    | none => exact ⟨_, rfl⟩
    | some x =>
      obtain ⟨x, p⟩ := x
      obtain ⟨d, t, hav, rfl, rfl⟩ := take_cases ht
      have hd : d < memBlockCount := hok.pool.lt_of_mem (q := .availableBlocks) (by simp [hav])
      have hok' := (((hok.withPool (hok.pool.take ht)).write (txField (a.pool.start d))
        uartPid).write (rxField (a.pool.start d)) kcdPid).store (msgField (a.pool.start d)) c
      obtain ⟨y, hy⟩ := sendMessage_isSome hok' hd kcdPid
      refine ⟨(.sent (some y.1), y.2), Option.map_eq_some_iff.mpr ⟨(some y.1, y.2), ?_, rfl⟩⟩
      exact Option.map_eq_some_iff.mpr ⟨y, hy, rfl⟩

end Posted

end Spec.Kernel

/-! ### Permitted operations of the code -/

namespace KernelRep

variable {k k' : Kernel} {a : Spec.Kernel} {base : Nat} {r : PcbPtr} {e : Nat}

lemma isUsed_iff (h : KernelRep k a) (hok : a.Ok base r) :
    k.IsUsed e ↔ ∃ c ∈ a.pool.used, a.pool.start c = e := by
  rw [Kernel.IsUsed]
  rw [(h.pool.chain .usedBlocks).find_eq _ (PoolRep.length_le hok.pool .usedBlocks)]
  simp only [Option.some.injEq, h.pool.start, Spec.Pool.list_usedBlocks]
  constructor
  · rintro ⟨c, hc⟩
    exact ⟨c, List.mem_of_find?_eq_some hc, by simpa using List.find?_some hc⟩
  · rintro ⟨c, hc, rfl⟩
    refine Option.isSome_iff_exists.mp (List.find?_isSome.mpr ⟨c, hc, ?_⟩)
    simp

lemma mem_iff_exists {s : Nat → Option Nat} {l : List Nat} (h : Packed s l)
    (hl : l.length ≤ memBlockCount) : e ∈ l ↔ ∃ i < memBlockCount, s i = some e := by
  constructor
  · intro he
    obtain ⟨i, hi, rfl⟩ := List.getElem_of_mem he
    exact ⟨i, by omega, h.eq_some_iff.mpr (List.getElem?_eq_getElem hi)⟩
  · rintro ⟨i, -, hi⟩
    exact List.mem_of_getElem? (h.eq_some_iff.mp hi)

lemma inMailbox_iff (h : KernelRep k a) (hok : a.Ok base r) :
    k.InMailbox e ↔ e ∈ a.mailbox ++ a.delayed := by
  rw [Kernel.InMailbox]
  rw [List.mem_append, mem_iff_exists h.mailbox hok.mailbox_le,
    mem_iff_exists h.delayed hok.delayed_le]
  constructor
  · rintro ⟨i, hi, he | he⟩
    · exact .inl ⟨i, hi, he⟩
    · exact .inr ⟨i, hi, he⟩
  · rintro (⟨i, hi, he⟩ | ⟨i, hi, he⟩)
    · exact ⟨i, hi, .inl he⟩
    · exact ⟨i, hi, .inr he⟩

lemma nextBlock (h : KernelRep k a) : k.nextBlock = a.pool.available.head?.map a.pool.start := by
  rw [Kernel.nextBlock]
  rw [(h.pool.chain .availableBlocks).head_eq]
  simp only [h.pool.start, Spec.Pool.list_availableBlocks]

theorem permits_iff (h : KernelRep k a) (hok : a.Ok base r) (op : Op) :
    k.Permits op ↔ a.Permits op := by
  cases op with
  | uart c =>
    simp only [Kernel.Permits, Spec.Kernel.Permits, h.nextBlock, h.inMailbox_iff hok]
    cases a.pool.available with
    | nil => simp
    | cons b t => simp
  | timer => exact Iff.rfl
  | send pid e =>
    simp only [Kernel.Permits, Spec.Kernel.Permits, h.currentPid, h.isUsed_iff hok,
      h.inMailbox_iff hok]
  | delayedSend pid e delay =>
    simp only [Kernel.Permits, Spec.Kernel.Permits, h.currentPid, h.isUsed_iff hok,
      h.inMailbox_iff hok]
  | _ => simp only [Kernel.Permits, Spec.Kernel.Permits, h.currentPid]

end KernelRep

/-! ### The invariant along a history -/

/-- The code implements an abstract kernel in good order, in which the process `r` runs. -/
structure Sound (base : Nat) (k : Kernel) (a : Spec.Kernel) (r : PcbPtr) : Prop where
  rep : KernelRep k a
  ok : a.Ok base r

namespace Sound

variable {base : Nat} {k k' : Kernel} {a : Spec.Kernel} {r : PcbPtr}

/-- One operation, in the code and in the abstract kernel. -/
lemma call (h : Sound base k a r) {op : Op} {reply : Reply}
    (hz : op.isInterrupt = false → k.currentPid ≠ 0) (hcall : k.call op = some (reply, k')) :
    ∃ b r', a.call op = some (reply, b) ∧ Sound base k' b r' ∧ a.sched.Frame b.sched ∧
      ((∀ pid, op ≠ .unblockByPid pid false) → a.sched.Urgent r → b.sched.Urgent r') := by
  have hz' : op.isInterrupt = false → a.sched.pid r ≠ 0 := by
    rw [← h.ok.currentPid, ← h.rep.currentPid]
    exact hz
  have hrel := h.rep.call h.ok op hz'
  rw [hcall] at hrel
  obtain ⟨⟨reply', b⟩, hb, hreply, hrep⟩ := hrel.exists_of_some
  obtain rfl : reply = reply' := hreply
  obtain ⟨hframe, r', hok, hurg⟩ := h.ok.call hz' hb
  exact ⟨b, r', hb, ⟨hrep, hok⟩, hframe, hurg⟩

lemma filed (h : Sound base k a r) : k.sched.Filed a.sched.queue := h.rep.sched.filed h.ok.sched

end Sound

/-- What holds of every state that is reached: it implements an abstract kernel in good order, in which
every priority is that of the NULL process, a registered one, or one of 0 to 3. -/
structure Safe (priority : Fin 6 → UInt8) (base : Nat) (k : Kernel) (a : Spec.Kernel)
    (r : PcbPtr) : Prop extends Sound base k a r where
  posted : a.Posted base
  priority : ∀ p ∈ a.sched.live, a.sched.pid p = 0 ∨ a.sched.priority p ≤ 3 ∨
    ∃ i, a.sched.priority p = (priority i).toUInt32

namespace Safe

variable {priority : Fin 6 → UInt8} {base : Nat} {k k' : Kernel} {a : Spec.Kernel} {r : PcbPtr}
  {es : List Event} {e : Event}

lemma boot (hprio : ∀ i, priority i ≤ 4) (hb : boot priority base = some k) :
    ∃ a r, Safe priority base k a r ∧ a.Fresh priority r := by
  obtain ⟨k', a, r, hk', hrep, hok, hfresh⟩ := boot_ok hprio base
  obtain rfl := Option.some.inj (hk'.symm.trans hb)
  refine ⟨a, r, ⟨⟨hrep, hok⟩, ⟨?_, ?_⟩, hfresh.priority⟩, hfresh⟩
  · simp [hfresh.mailbox, hfresh.delayed]
  · simp [hfresh.mailbox, hfresh.delayed]

lemma permits_ne {op : Op} (hp : k.Permits op) (hop : op.isInterrupt = false) :
    k.currentPid ≠ 0 := by
  cases op <;> first | exact hp | exact hp.1 | cases hop

/-- One step, in the code and in the abstract kernel. -/
lemma step (h : Safe priority base k a r) (hs : k.Step e k') :
    ∃ b r', a.Permits e.op ∧ a.call e.op = some (e.reply, b) ∧ Safe priority base k' b r' ∧
      ((∀ pid, e.op ≠ .unblockByPid pid false) → a.sched.Urgent r → b.sched.Urgent r') := by
  obtain ⟨-, hp, hcall⟩ := hs
  have hp' := (h.rep.permits_iff h.ok e.op).mp hp
  obtain ⟨b, r', hb, hsound, hframe, hurg⟩ := h.toSound.call (permits_ne hp) hcall
  refine ⟨b, r', hp', hb, ⟨hsound, h.posted.step h.ok hp' (h.ok.effect hb), ?_⟩, hurg⟩
  intro p hpl
  rw [hframe.pid]
  rcases hframe.priority p with hpp | hpp
  · rw [hpp]
    exact h.priority p (hframe.live hpl)
  · exact .inr (.inl hpp)

lemma of_run (hprio : ∀ i, priority i ≤ 4) {k₀ : Kernel} (hb : RtxKernel.boot priority base = some k₀)
    (h : Run Kernel.Step k₀ es k) : ∃ a r, Safe priority base k a r ∧
      ((∀ e ∈ es, ∀ pid, e.op ≠ .unblockByPid pid false) → a.sched.Urgent r) := by
  refine h.history (I := fun es k => ∃ a r, Safe priority base k a r ∧
    ((∀ e ∈ es, ∀ pid, e.op ≠ .unblockByPid pid false) → a.sched.Urgent r)) ?_ ?_
  · obtain ⟨a, r, hs, hfresh⟩ := Safe.boot hprio hb
    exact ⟨a, r, hs, fun _ => hfresh.urgent⟩
  · rintro es k e k' ⟨a, r, hs, hu⟩ hstep
    obtain ⟨b, r', -, -, hs', hu'⟩ := hs.step hstep
    exact ⟨b, r', hs', fun hes =>
      hu' (hes e (by simp)) (hu fun e' he' => hes e' (by simp [he']))⟩

/-- A permitted operation comes back. -/
lemma call_isSome (h : Safe priority base k a r) (op : Op) (hp : k.Permits op) :
    ∃ reply k', k.call op = some (reply, k') := by
  have hp' := (h.rep.permits_iff h.ok op).mp hp
  obtain ⟨y, hy⟩ := h.posted.call_isSome h.ok hp'
  have hz := permits_ne hp
  rw [h.rep.currentPid, h.ok.currentPid] at hz
  have hrel := h.rep.call h.ok op hz
  rw [hy] at hrel
  obtain ⟨x, hx, -⟩ := hrel.exists_of_some_right
  exact ⟨x.1, x.2, hx⟩

/-- The NULL process is the only process of priority 4, unless one is registered with it. -/
lemma priority_le_three (h : Safe priority base k a r) (hp3 : ∀ i, priority i ≤ 3) {p : PcbPtr}
    (hp : p ∈ a.sched.live) (hz : a.sched.pid p ≠ 0) : a.sched.priority p ≤ 3 := by
  rcases h.priority p hp with hz' | hle | ⟨i, hi⟩
  · exact absurd hz' hz
  · exact hle
  · rw [hi, UInt32.le_iff_toNat_le, UInt8.toNat_toUInt32]
    exact UInt8.le_iff_toNat_le.mp (hp3 i)

/-- If the NULL process runs then no other process is ready. -/
lemma ready_eq_nil (h : Safe priority base k a r) (hu : a.sched.Urgent r) (hp3 : ∀ i, priority i ≤ 3)
    (hz : a.sched.pid r = 0) (i : Nat) : a.sched.queue .ready i = [] := by
  have hw := h.ok.sched.wf
  have hrl := hw.running_live r h.ok.sched.running
  obtain ⟨z, hzl, hz0, hz4, -⟩ := hw.null
  obtain rfl : r = z := hw.pid_inj r hrl z hzl (hz.trans hz0.symm)
  refine List.eq_nil_iff_forall_not_mem.mpr fun p hp => ?_
  obtain ⟨hpl, -, -, hrun⟩ := (hw.mem_queue _ _ p).mp hp
  have hne : a.sched.pid p ≠ 0 := by
    intro hp0
    obtain rfl := hw.pid_inj p hpl r hrl (hp0.trans hz0.symm)
    exact hrun h.ok.sched.running h.ok.sched.ready
  have hle := UInt32.le_trans (hu i p hp) (h.priority_le_three hp3 hpl hne)
  rw [hz4] at hle
  exact absurd hle (by decide)

end Safe

/-! ### The queues -/

/-- In every state that is reached a process runs, and every other live process is in the queue that
its fields name. And a permitted operation comes back. -/
theorem queues_safe {priority : Fin 6 → UInt8} (hprio : ∀ i, priority i ≤ 4) {base : Nat}
    {k₀ k : Kernel} (hboot : boot priority base = some k₀) {es : List Event}
    (h : Run Kernel.Step k₀ es k) :
    (∃ l, k.sched.Filed l) ∧ ∀ op, k.Permits op → ∃ reply k', k.call op = some (reply, k') := by
  obtain ⟨a, r, hs, -⟩ := Safe.of_run hprio hboot h
  exact ⟨⟨_, hs.toSound.filed⟩, fun op => hs.call_isSome op⟩

/-- Five processes wait for messages, and a tick has woken one of them. -/
theorem queues_safe_after_delivery : ∃ k₀ es k, boot (fun _ => 2) 4096 = some k₀ ∧
    Run Kernel.Step k₀ es k ∧ es.map Event.op = [.receive, .receive, .receive, .receive, .receive,
      .request, .delayedSend 10 4096 1, .timer] ∧ k.currentPid = 10 ∧
    (∃ l, k.sched.Filed l) ∧ ∀ op, k.Permits op → ∃ reply k', k.call op = some (reply, k') := by
  obtain ⟨k₀, es, k, hboot, hrun, hops, hpid⟩ := exists_run_of_boot Kernel.Permits (fun _ => 2) 4096
    [.receive, .receive, .receive, .receive, .receive, .request, .delayedSend 10 4096 1, .timer]
    (fun _ k => k.currentPid = 10) (by decide +kernel)
  exact ⟨k₀, es, k, hboot, hrun, hops, of_decide_eq_true hpid,
    queues_safe (fun _ => by decide) hboot hrun⟩

/-! ### Preemption -/

/-- In every state that is reached no process in the ready queue is more urgent than the one that
runs. The NULL process runs only when no other process is ready, if no user process has priority 4. And after a
timer tick no process that it woke is more urgent than the one that then runs. -/
theorem preemption_safe {priority : Fin 6 → UInt8} (hprio : ∀ i, priority i ≤ 4) {base : Nat}
    {k₀ k : Kernel} (hboot : boot priority base = some k₀) {es : List Event}
    (h : Run Kernel.Step k₀ es k) (hallow : ∀ e ∈ es, ∀ pid, e.op ≠ .unblockByPid pid false) :
    ∃ r, k.sched.runningProcess = some r ∧
      (∀ i l, Chain k.sched.next (k.sched.queue .ready i) l →
        ∀ p ∈ l, (k.sched.pcb r).priority ≤ (k.sched.pcb p).priority) ∧
      ((∀ i, priority i ≤ 3) → (k.sched.pcb r).pid = 0 → ∀ i, k.sched.queue .ready i = none) ∧
      ∀ moved k', k.call .timer = some (.moved moved, k') →
        ∃ r', k'.sched.runningProcess = some r' ∧ ∀ p ∈ k'.sched.live,
          (k.sched.pcb p).state.isBlocked = true → (k'.sched.pcb p).state.isBlocked = false →
            (k'.sched.pcb r').priority ≤ (k'.sched.pcb p).priority := by
  obtain ⟨a, r, hs, hu⟩ := Safe.of_run hprio hboot h
  have hurg := hu hallow
  have hrep := hs.rep.sched
  refine ⟨r, hrep.running.trans hs.ok.sched.running, fun i l hl p hp => ?_, fun hp3 hz i => ?_,
    fun moved k' hk' => ?_⟩
  · rw [hl.unique (hrep.chain .ready i)] at hp
    simpa only [hrep.priority] using hurg i p hp
  · rw [hrep.pid] at hz
    exact (hrep.head_eq_none_iff .ready i).mpr (hs.ready_eq_nil hurg hp3 hz i)
  · obtain ⟨b, r', -, -, hs', hu'⟩ :=
      hs.step (e := ⟨k.currentPid, .timer, .moved moved⟩) ⟨rfl, trivial, hk'⟩
    have hurg' := hu' (fun _ => nofun) hurg
    have hrep' := hs'.rep.sched
    refine ⟨r', hrep'.running.trans hs'.ok.sched.running, fun p hp _ hpb => ?_⟩
    simp only [hrep'.priority]
    by_cases hpr : p = r'
    · exact hpr ▸ UInt32.le_refl _
    · -- a process that was woken is in the ready queue
      rw [hrep'.live] at hp
      rw [hrep'.state, Spec.Sched.isBlocked_eq_false_iff] at hpb
      refine hurg' _ p ((hs'.ok.sched.wf.mem_queue _ _ p).mpr ⟨hp, hpb.symm, rfl, fun hrun => ?_⟩)
      exact absurd (Option.some.inj (hrun.symm.trans hs'.ok.sched.running)) hpr

/-- A state in which the next tick wakes a more urgent process. -/
theorem preemption_safe_before_tick : ∃ k₀ es k, boot (fun _ => 2) 4096 = some k₀ ∧
    Run Kernel.Step k₀ es k ∧ k.currentPid = 9 ∧
    ∃ r, k.sched.runningProcess = some r ∧
      (∀ i l, Chain k.sched.next (k.sched.queue .ready i) l →
        ∀ p ∈ l, (k.sched.pcb r).priority ≤ (k.sched.pcb p).priority) ∧
      ((∀ _ : Fin 6, (2 : UInt8) ≤ 3) → (k.sched.pcb r).pid = 0 →
        ∀ i, k.sched.queue .ready i = none) ∧
      ∀ moved k', k.call .timer = some (.moved moved, k') →
        ∃ r', k'.sched.runningProcess = some r' ∧ ∀ p ∈ k'.sched.live,
          (k.sched.pcb p).state.isBlocked = true → (k'.sched.pcb p).state.isBlocked = false →
            (k'.sched.pcb r').priority ≤ (k'.sched.pcb p).priority := by
  obtain ⟨k₀, es, k, hboot, hrun, hops, hpid⟩ := exists_run_of_boot Kernel.Permits (fun _ => 2) 4096
    [.receive, .receive, .receive, .receive, .receive, .request, .delayedSend 10 4096 1]
    (fun _ k => k.currentPid = 9) (by decide +kernel)
  refine ⟨k₀, es, k, hboot, hrun, of_decide_eq_true hpid,
    preemption_safe (fun _ => by decide) hboot hrun fun e he pid hop => ?_⟩
  have hmem := List.mem_map_of_mem (f := Event.op) he
  rw [hops, hop] at hmem
  simp at hmem

end RtxKernel
