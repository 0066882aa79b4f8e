import RtxKernel.Window.Basic

/-!
# Messages between the search and the block

A message that comes into the mailbox after its receiver has searched there, and before the receiver
calls `block_process`, does not wake it: the receiver then sleeps although there is a message for it
(`message_lost`). As long as no message comes at such a point nobody sleeps over a message
(`no_message_lost`).
-/

namespace RtxKernel

namespace Kernel

/-- A message for the process `pid` comes into the mailbox with the operation. -/
def Brings (k : Kernel) (pid : UInt32) : Op → Prop
  | .send p e => e ≠ 0 ∧ p = pid
  | .timer => ∃ i < memBlockCount, ∃ e ∈ k.delayedMailbox i, k.sendTime e ≤ k.ticks + 1 ∧ k.rx e = pid
  | .uart _ => (∃ e ∈ k.nextBlock, e ≠ 0) ∧ pid = kcdPid
  | _ => False

/-- The receivers of the messages in the mailbox are not overwritten, be it by a store or by another use
of the envelope. -/
def KeepsReceivers (k : Kernel) : Op → Prop
  | .store x _ => ∀ i < memBlockCount, ∀ e ∈ k.mailbox i, x < rxField e ∨ rxField e + 4 ≤ x
  | .delayedSend _ e _ => ∀ i < memBlockCount, e ∉ k.mailbox i
  | _ => True

instance (k : Kernel) (pid : UInt32) : (op : Op) → Decidable (k.Brings pid op)
  | .send p e => inferInstanceAs (Decidable (e ≠ 0 ∧ p = pid))
  | .timer => inferInstanceAs (Decidable (∃ i < memBlockCount, ∃ e ∈ k.delayedMailbox i,
      k.sendTime e ≤ k.ticks + 1 ∧ k.rx e = pid))
  | .uart _ => inferInstanceAs (Decidable ((∃ e ∈ k.nextBlock, e ≠ 0) ∧ pid = kcdPid))
  | .releaseProcessor | .block _ | .unblockByPid _ _ | .unblockByType _ | .setPriority _ _
  | .delayedSend _ _ _ | .receive | .request | .release _ | .store _ _ | .terminate => .isFalse id

instance (k : Kernel) : (op : Op) → Decidable (k.KeepsReceivers op)
  | .store x _ => inferInstanceAs (Decidable (∀ i < memBlockCount, ∀ e ∈ k.mailbox i,
      x < rxField e ∨ rxField e + 4 ≤ x))
  | .delayedSend _ e _ => inferInstanceAs (Decidable (∀ i < memBlockCount, e ∉ k.mailbox i))
  | .releaseProcessor | .block _ | .unblockByPid _ _ | .unblockByType _ | .setPriority _ _
  | .send _ _ | .receive | .request | .release _ | .terminate | .timer | .uart _ => .isTrue trivial

/-- A process that sleeps in the queue `msg_blocked_queue` has no message in the mailbox. -/
def NoMessageLost (k : Kernel) : Prop :=
  ∀ i l, Chain k.sched.next (k.sched.queue .msgBlocked i) l → ∀ p ∈ l,
    k.sched.runningProcess ≠ some p → (k.sched.pcb p).state = .blockedMsg →
      ∀ j < memBlockCount, ∀ e ∈ k.mailbox j, k.rx e ≠ (k.sched.pcb p).pid

end Kernel

/-- No message comes for a process between its search and its block. -/
def Machine.Undisturbed (m : Machine) : Move → Prop
  | .whole op => m.kernel.KeepsReceivers op ∧
      ∀ p ∈ m.kernel.sched.live, m.point p = .scanned → ¬ m.kernel.Brings (m.kernel.sched.pcb p).pid op
  | _ => True

instance (m : Machine) : (v : Move) → Decidable (m.Undisturbed v)
  | .whole op => inferInstanceAs (Decidable (m.kernel.KeepsReceivers op ∧
      ∀ p ∈ m.kernel.sched.live, m.point p = .scanned →
        ¬ m.kernel.Brings (m.kernel.sched.pcb p).pid op))
  | .scan | .sleepMsg | .test | .sleepMem => .isTrue trivial

namespace Spec.Kernel

variable {a b : Kernel} {base : Nat} {r : PcbPtr} {op : Op} {reply : Reply}
  {point point' : PcbPtr → Point} {v : Move}

def Brings (a : Kernel) (pid : UInt32) : Op → Prop
  | .send p e => e ≠ 0 ∧ p = pid
  | .timer => ∃ e ∈ a.delayed, a.sendTime e ≤ a.ticks + 1 ∧ a.rx e = pid
  | .uart _ => (∃ c t, a.pool.available = c :: t ∧ a.pool.start c ≠ 0) ∧ pid = kcdPid
  | _ => False

def KeepsReceivers (a : Kernel) : Op → Prop
  | .store x _ => ∀ e ∈ a.mailbox, x < rxField e ∨ rxField e + 4 ≤ x
  | .delayedSend _ e _ => e ∉ a.mailbox
  | _ => True

/-- The entries of the mailboxes are blocks. -/
def Mailed (a : Kernel) (base : Nat) : Prop :=
  ∀ e ∈ a.mailbox ++ a.delayed, e ≠ 0 ∧ ∃ c < memBlockCount, e = base + c * memBlockSize

theorem Mailed.step (h : a.Mailed base) (hok : a.Ok base r) (he : a.Effect op reply b) :
    b.Mailed base := by
  cases he with
  | quiet s hq => exact h
  | sent s hb hne =>
    obtain ⟨hmail, hdel, -, -⟩ := address_fields hb
    intro x hx
    rcases List.mem_append.mp hx with hx | hx
    · rcases mem_storeIn hx with hx | rfl
      · exact h x (List.mem_append_left _ (hmail ▸ hx))
      · exact ⟨hne, address_block hok hb⟩
    · exact h x (List.mem_append_right _ (hdel ▸ hx))
  | delayed hb hne =>
    obtain ⟨hmail, hdel, -, -⟩ := address_fields hb
    intro x hx
    rcases List.mem_append.mp hx with hx | hx
    · exact h x (List.mem_append_left _ (hmail ▸ hx))
    · rcases mem_storeIn hx with hx | rfl
      · exact h x (List.mem_append_right _ (hdel ▸ hx))
      · exact ⟨hne, address_block hok hb⟩
  | received he hrx hfirst =>
    intro x hx
    exact h x (((List.eraseIdx_sublist _ _).append_right _).subset hx)
  | granted hp => exact h
  | released s hc hx ho => exact h
  | stored => exact h
  | ticked s hb =>
    have hmv := hok.moves_tick hb
    intro x hx
    apply h x
    rw [withSched_mailbox, withSched_delayed, hmv.mailbox, List.append_assoc] at hx
    exact (hmv.delayed.append_left _).subset hx
  | typedLost hp hlost => exact h
  | typed s hp hb hne =>
    obtain ⟨hmail, hdel, -, -⟩ := address_fields hb
    obtain ⟨c, t, hav, rfl, -⟩ := take_cases hp
    have hc := hok.pool.lt_of_mem (q := .availableBlocks) (b := c) (by simp [hav])
    intro x hx
    rcases List.mem_append.mp hx with hx | hx
    · rcases mem_storeIn hx with hx | rfl
      · exact h x (List.mem_append_left _ (hmail ▸ hx))
      · exact ⟨hne, c, hc, hok.pool.start_eq c hc⟩
    · exact h x (List.mem_append_right _ (hdel ▸ hx))

lemma Mailed.moved (h : a.Mailed base) (hok : a.Ok base r)
    (hmv : Machine.Moved a r point v b point') : b.Mailed base := by
  cases hmv with
  | whole hop hat hy => exact h.step hok (hok.effect hy)
  | found hat =>
    intro e he
    exact h e (((List.eraseIdx_sublist _ _).append_right _).subset he)
  | _ => exact h

/-- Where the messages in the mailbox come from. An old one has its receiver as before, unless its block
was zeroed; and the receiver of a new one is awake. -/
theorem Ok.arrives (h : a.Ok base r) (hm : a.Mailed base) (hop : op.isWhole = true)
    (hk : a.KeepsReceivers op) (hy : a.call op = some (reply, b)) {e : Nat} (hmem : e ∈ b.mailbox) :
    (e ∈ a.mailbox ∧ b.rx e = a.rx e) ∨ b.rx e = 0 ∨ a.Brings (b.rx e) op ∧ b.sched.Awake (b.rx e) := by
  have he := h.effect hy
  -- an old message whose envelope is not touched
  have hold : e ∈ a.mailbox → a.Spares e op → e ∈ a.mailbox ∧ b.rx e = a.rx e := by
    intro hmem hs
    exact ⟨hmem, (he.sameHeader h (hm e (List.mem_append_left _ hmem)).2 hs).1⟩
  cases he with
  | quiet s hq => exact .inl ⟨hmem, rfl⟩
  | @sent pid x b' s hb hne =>
    by_cases hex : e = x
    · subst hex
      obtain ⟨y, hsend, hy⟩ := Option.map_eq_some_iff.mp hy
      obtain ⟨hcode, hkern⟩ := Prod.mk.inj hy
      obtain ⟨-, hawake⟩ := h.wakes_sendMessage hsend
      rw [hkern] at hawake
      have hrx : ((b'.post e).withSched s).rx e = pid := (address_header hb).1
      rw [hrx]
      exact .inr (.inr ⟨⟨hne, rfl⟩, hawake (Reply.code.inj hcode)⟩)
    · obtain ⟨hmail, -, -, -⟩ := address_fields hb
      rcases mem_storeIn hmem with hmem | hmem
      · exact .inl (hold (hmail ▸ hmem) (Ne.symm hex))
      · exact absurd hmem hex
  | @delayed pid delay x b' hb hne =>
    obtain ⟨hmail, -, -, -⟩ := address_fields hb
    have hmem' : e ∈ a.mailbox := hmail ▸ hmem
    refine .inl (hold hmem' ?_)
    rintro rfl
    exact hk hmem'
  | received => cases hop
  | granted => cases hop
  | @released x c s hc hx ho =>
    by_cases hex : x = e
    · subst hx
      subst hex
      refine .inr (.inl (read32_fill_zero ?_ ?_))
      · exact Nat.le_add_right ..
      · simp only [rxField, memBlockSize]
        omega
    · exact .inl (hold hmem hex)
  | stored => exact .inl ⟨hmem, read32_update_of_disjoint (hk e hmem)⟩
  | @ticked new w b' s hb =>
    have hmv := h.moves_tick hb
    have hrx : (b'.withSched s).rx e = a.rx e := by
      rw [Kernel.rx, withSched_pool, hmv.pool]
      rfl
    rw [withSched_mailbox, hmv.mailbox] at hmem
    rcases List.mem_append.mp hmem with hmem | hmem
    · exact .inl ⟨hmem, hrx⟩
    · rw [hrx]
      refine .inr (.inr ⟨⟨e, hmv.delayed.subset (List.mem_append_left _ hmem), ?_, rfl⟩, ?_⟩)
      · exact of_decide_eq_true (hmv.due e hmem)
      · exact (h.wakes_timer hy).2 e hmem
  | @typedLost x q c code hp hlost =>
    obtain ⟨d, t, hav, rfl, rfl⟩ := take_cases hp
    by_cases hex : e = a.pool.start d
    · subst hex
      obtain ⟨hne, -⟩ := hm _ (List.mem_append_left _ hmem)
      rw [type_rx]
      refine .inr (.inr ⟨⟨⟨d, t, hav, hne⟩, rfl⟩, ?_⟩)
      intro p hp hpid
      -- there is no keyboard decoder
      have hfind := h.sched.wf.find_eq_some_iff.mpr ⟨hp, hpid⟩
      rcases hlost with hzero | hnone
      · exact absurd hzero hne
      · rw [hnone] at hfind
        cases hfind
    · refine .inl (hold hmem ?_)
      intro d' t' hav' hex'
      obtain ⟨rfl, rfl⟩ := List.cons.inj (hav.symm.trans hav')
      exact hex hex'.symm
  | @typed x q c b' s hp hb hne =>
    obtain ⟨d, t, hav, rfl, rfl⟩ := take_cases hp
    by_cases hex : e = a.pool.start d
    · subst hex
      have hrx : ((b'.post (a.pool.start d)).withSched s).rx (a.pool.start d) = kcdPid :=
        (address_header hb).1
      rw [hrx]
      exact .inr (.inr ⟨⟨⟨d, t, hav, hne⟩, rfl⟩, (h.wakes_uart hy).2 rfl⟩)
    · obtain ⟨hmail, -, -, -⟩ := address_fields hb
      rcases mem_storeIn hmem with hmem | hmem
      · refine .inl (hold (hmail ▸ hmem) ?_)
        intro d' t' hav' hex'
        obtain ⟨rfl, rfl⟩ := List.cons.inj (hav.symm.trans hav')
        exact hex hex'.symm
      · exact absurd hmem hex

/-- Who sleeps in `msg_blocked_queue`, or is about to, has no message. -/
structure Heard (a : Kernel) (point : PcbPtr → Point) : Prop where
  silent : ∀ p ∈ a.sched.live, a.sched.state p = .blockedMsg ∨ point p = .scanned →
    ∀ e ∈ a.mailbox, a.rx e ≠ a.sched.pid p
  caller : ∀ p ∈ a.sched.live, point p = .scanned → a.sched.pid p ≠ 0

def Undisturbed (a : Kernel) (point : PcbPtr → Point) : Move → Prop
  | .whole op => a.KeepsReceivers op ∧
      ∀ p ∈ a.sched.live, point p = .scanned → ¬ a.Brings (a.sched.pid p) op
  | _ => True

namespace Heard

/-- The NULL process sleeps nowhere. -/
lemma pid_ne_zero (hok : a.Ok base r) {p : PcbPtr} (hp : p ∈ a.sched.live)
    (hb : (a.sched.state p).isBlocked = true) : a.sched.pid p ≠ 0 := by
  intro hzero
  obtain ⟨z, hz, hz0, -, hzb⟩ := hok.sched.wf.null
  obtain rfl := hok.sched.wf.pid_inj p hp z hz (hzero.trans hz0.symm)
  rw [hzb] at hb
  cases hb

lemma whole (h : a.Heard point) (hok : a.Ok base r) (hm : a.Mailed base) (hop : op.isWhole = true)
    (hu : a.Undisturbed point (.whole op)) (hy : a.call op = some (reply, b)) : b.Heard point := by
  obtain ⟨l, hl, hw⟩ := hok.wakes hop hy
  have hlive : ∀ p ∈ b.sched.live, p ∈ a.sched.live := by
    intro p hp
    rw [hw.live] at hp
    rcases hl with rfl | ⟨-, rfl⟩
    · exact hp
    · exact Finset.mem_of_mem_erase hp
  have hpid : b.sched.pid = a.sched.pid := hw.pid
  refine ⟨?_, ?_⟩
  · intro p hp hs e he
    rw [hpid]
    have hs' : a.sched.state p = .blockedMsg ∨ point p = .scanned := by
      refine hs.imp_left fun hb => ?_
      rw [← hb]
      exact (hw.state p (by rw [hb]; rfl)).symm
    have hne : a.sched.pid p ≠ 0 := by
      rcases hs' with hb | hp'
      · exact pid_ne_zero hok (hlive p hp) (by rw [hb]; rfl)
      · exact h.caller p (hlive p hp) hp'
    rcases hok.arrives hm hop hu.1 hy he with ⟨he', hrx⟩ | hzero | ⟨hbr, hawake⟩
    · rw [hrx]
      exact h.silent p (hlive p hp) hs' e he'
    · rw [hzero]
      exact hne.symm
    · -- the receiver of a new message is awake, and has not searched
      intro hrx
      rcases hs with hb | hp'
      · have hnot := hawake p hp (hpid ▸ hrx.symm)
        rw [hb] at hnot
        cases hnot
      · exact hu.2 p (hlive p hp) hp' (hrx ▸ hbr)
  · intro p hp hp'
    rw [hpid]
    exact h.caller p (hlive p hp) hp'

/-- The running process blocks. -/
lemma slept (h : a.Heard point) (hok : a.Ok base r) {t : BlockType} {x : Point}
    (hat : t = .msg → point r = .scanned) (hx : x ≠ .scanned) :
    (a.withSched (a.sched.block a.sched.currentPid t)).Heard (Function.update point r x) := by
  have hw := hok.sched.block_wakes t
  have hpid : (a.sched.block a.sched.currentPid t).pid = a.sched.pid := hw.pid
  have hlive : (a.sched.block a.sched.currentPid t).live = a.sched.live := hw.live
  have hpoint : ∀ p, Function.update point r x p = .scanned → point p = .scanned := by
    intro p hp
    rw [Function.update_apply] at hp
    split_ifs at hp
    · exact absurd hp hx
    · exact hp
  refine ⟨?_, ?_⟩
  · intro p hp hs e he
    simp only [withSched_sched, hlive, hpid] at hp hs ⊢
    refine h.silent p hp ?_ e he
    rcases hs with hb | hp'
    · have hb' := hw.state p (by rw [hb]; rfl)
      rw [hb, Sched.setState_state] at hb'
      split_ifs at hb' with hpr
      · rw [hpr]
        cases t with
        | mem => cases hb'
        | msg => exact .inr (hat rfl)
      · exact .inl hb'.symm
    · exact .inr (hpoint p hp')
  · intro p hp hp'
    simp only [withSched_sched, hlive, hpid] at hp ⊢
    exact h.caller p hp (hpoint p hp')

/-- Nothing happens to the processes, and no message is added. -/
lemma of_subset (h : a.Heard point) (hs : b.sched = a.sched) (hm : b.mailbox ⊆ a.mailbox)
    (hrx : b.rx = a.rx) {x : Point} (hx : x ≠ .scanned) : b.Heard (Function.update point r x) := by
  have hpoint : ∀ p, Function.update point r x p = .scanned → point p = .scanned := by
    intro p hp
    rw [Function.update_apply] at hp
    split_ifs at hp
    · exact absurd hp hx
    · exact hp
  refine ⟨?_, ?_⟩
  · intro p hp hp' e he
    rw [hs] at hp hp' ⊢
    rw [hrx]
    exact h.silent p hp (hp'.imp_right (hpoint p)) e (hm he)
  · intro p hp hp'
    rw [hs] at hp ⊢
    exact h.caller p hp (hpoint p hp')

theorem step (h : a.Heard point) (hok : a.Ok base r) (hm : a.Mailed base)
    (hz : v.isInterrupt = false → a.sched.pid r ≠ 0) (hu : a.Undisturbed point v)
    (hmv : Machine.Moved a r point v b point') : b.Heard point' := by
  cases hmv with
  | whole hop hat hy => exact h.whole hok hm hop hu hy
  | found hat =>
    apply h.of_subset
    · rfl
    · exact (List.eraseIdx_sublist _ _).subset
    · rfl
    · decide
  | scanned hat hnone =>
    have hpoint : ∀ p, Function.update point r Point.scanned p = .scanned →
        p = r ∨ point p = .scanned := by
      intro p hp
      rw [Function.update_apply] at hp
      split_ifs at hp with hpr
      · exact .inl hpr
      · exact .inr hp
    refine ⟨?_, ?_⟩
    · intro p hp hs e he
      rcases hs with hb | hp'
      · exact h.silent p hp (.inl hb) e he
      · rcases hpoint p hp' with rfl | hp'
        · exact hnone e he
        · exact h.silent p hp (.inr hp') e he
    · intro p hp hp'
      rcases hpoint p hp' with rfl | hp'
      · exact hz rfl
      · exact h.caller p hp hp'
  | sleptMsg hat => exact h.slept hok (fun _ => hat) (by decide)
  | taken hat hp =>
    obtain ⟨c, t, -, -, rfl⟩ := take_cases hp
    apply h.of_subset
    · rfl
    · exact List.Subset.refl _
    · rfl
    · decide
  | tested hat hnone => exact h.of_subset rfl (List.Subset.refl _) rfl (by decide)
  | sleptMem hat => exact h.slept hok nofun (by decide)

end Heard

end Spec.Kernel

/-! ### Runs of the code -/

namespace KernelRep

variable {k : Kernel} {a : Spec.Kernel} {base : Nat} {r : PcbPtr}

lemma brings_iff (h : KernelRep k a) (hok : a.Ok base r) (pid : UInt32) (op : Op) :
    k.Brings pid op ↔ a.Brings pid op := by
  cases op with
  | timer =>
    simp only [Kernel.Brings, Spec.Kernel.Brings, h.rx, h.sendTime, h.ticks]
    constructor
    · rintro ⟨i, hi, e, he, hdue, hrx⟩
      exact ⟨e, (mem_iff_exists h.delayed hok.delayed_le).mpr ⟨i, hi, he⟩, hdue, hrx⟩
    · rintro ⟨e, he, hdue, hrx⟩
      obtain ⟨i, hi, he⟩ := (mem_iff_exists h.delayed hok.delayed_le).mp he
      exact ⟨i, hi, e, he, hdue, hrx⟩
  | uart c =>
    simp only [Kernel.Brings, Spec.Kernel.Brings, h.nextBlock]
    cases a.pool.available with
    | nil => simp
    | cons b t => simp
  | _ => exact Iff.rfl

lemma keepsReceivers_iff (h : KernelRep k a) (hok : a.Ok base r) (op : Op) :
    k.KeepsReceivers op ↔ a.KeepsReceivers op := by
  have hmem := fun e => mem_iff_exists (e := e) h.mailbox hok.mailbox_le
  cases op with
  | store x v =>
    simp only [Kernel.KeepsReceivers, Spec.Kernel.KeepsReceivers, hmem]
    exact ⟨fun hk e ⟨i, hi, he⟩ => hk i hi e he, fun hk i hi e he => hk e ⟨i, hi, he⟩⟩
  | delayedSend pid e delay =>
    simp only [Kernel.KeepsReceivers, Spec.Kernel.KeepsReceivers, hmem, not_exists, not_and]
    exact Iff.rfl
  | _ => exact Iff.rfl

end KernelRep

namespace Machine

variable {priority : Fin 6 → UInt8} {base : Nat} {k₀ : Kernel} {m m' : Machine} {vs : List Move}
  {a : Spec.Kernel} {r : PcbPtr} {v : Move}

lemma undisturbed_iff (h : Sound base m.kernel a r) :
    m.Undisturbed v ↔ a.Undisturbed m.point v := by
  cases v with
  | whole op =>
    have hs := h.rep.sched
    simp only [Machine.Undisturbed, Spec.Kernel.Undisturbed, h.rep.keepsReceivers_iff h.ok,
      h.rep.brings_iff h.ok, hs.live, hs.pid]
  | _ => exact Iff.rfl

/-- What holds of every state that is reached by undisturbed moves. -/
structure Hears (base : Nat) (m : Machine) (a : Spec.Kernel) (r : PcbPtr) : Prop
    extends Sound base m.kernel a r where
  mailed : a.Mailed base
  heard : a.Heard m.point

lemma Hears.step (h : Hears base m a r) (hs : m.StepIf Undisturbed v m') :
    ∃ b r', Hears base m' b r' := by
  obtain ⟨hz, hu, hs⟩ := hs
  obtain ⟨b, r', hsound, hmv⟩ := moved h.toSound hz hs
  have hz' : v.isInterrupt = false → a.sched.pid r ≠ 0 := by
    rw [← h.ok.currentPid, ← h.rep.currentPid]
    exact hz
  have hu' := (undisturbed_iff h.toSound).mp hu
  exact ⟨b, r', hsound, h.mailed.moved h.ok hmv, h.heard.step h.ok h.mailed hz' hu' hmv⟩

lemma Hears.noMessageLost (h : Hears base m a r) : m.kernel.NoMessageLost := by
  have hs := h.rep.sched
  intro i l hl p hp hr hb j hj e he
  rw [hl.unique (hs.chain .msgBlocked i)] at hp
  have hlive := h.ok.sched.wf.live_of_mem hp
  rw [hs.state] at hb
  rw [h.rep.rx, hs.pid]
  apply h.heard.silent p hlive (.inl hb)
  exact (KernelRep.mem_iff_exists h.rep.mailbox h.ok.mailbox_le).mpr ⟨j, hj, he⟩

/-- If no message comes for a process between its search and its block, then nobody ever sleeps in
`msg_blocked_queue` while there is a message for it. -/
theorem no_message_lost (hprio : ∀ i, priority i ≤ 4) (hboot : boot priority base = some k₀)
    (h : Run (StepIf Undisturbed) (start k₀) vs m) : m.kernel.NoMessageLost := by
  have hinv : ∃ a r, Hears base m a r := by
    apply h.invariant (I := fun m => ∃ a r, Hears base m a r)
    · obtain ⟨a, r, hs, hfresh⟩ := Safe.boot hprio hboot
      refine ⟨a, r, hs.toSound, ?_, ?_, ?_⟩
      · simp [Spec.Kernel.Mailed, hfresh.mailbox, hfresh.delayed]
      · simp [hfresh.mailbox]
      · exact fun p _ => nofun
    · rintro m v m' ⟨a, r, h⟩ hs
      exact h.step hs
  obtain ⟨a, r, h⟩ := hinv
  exact h.noMessageLost

/-- A message arrives while the keyboard decoder sleeps, and is received. -/
theorem no_message_lost_for_decoder : ∃ k₀ m, boot (fun _ => 2) 4096 = some k₀ ∧
    Run (StepIf Undisturbed) (start k₀) [.scan, .sleepMsg, .whole (.uart 65), .scan, .sleepMsg, .scan,
      .sleepMsg, .scan, .sleepMsg, .scan, .sleepMsg, .scan, .scan, .sleepMsg] m ∧
    m.kernel.currentPid = 9 ∧ m.kernel.NoMessageLost := by
  obtain ⟨k₀, m, hboot, hrun, hpid⟩ := exists_run_of_boot Undisturbed (fun _ => 2) 4096
    [.scan, .sleepMsg, .whole (.uart 65), .scan, .sleepMsg, .scan, .sleepMsg, .scan, .sleepMsg,
      .scan, .sleepMsg, .scan, .scan, .sleepMsg]
    (fun m => m.kernel.currentPid = 9) (by decide +kernel)
  exact ⟨k₀, m, hboot, hrun, of_decide_eq_true hpid,
    no_message_lost (fun _ => by decide) hboot hrun⟩

/-- A key is pressed after the keyboard decoder has searched the mailbox and before it blocks. -/
theorem message_lost : ∃ k₀ m, boot (fun _ => 2) 4096 = some k₀ ∧
    Run (StepIf fun _ _ => True) (start k₀) [.scan, .whole (.uart 65), .sleepMsg] m ∧
    ¬ m.kernel.NoMessageLost := by
  obtain ⟨k₀, m, hboot, hrun, hc⟩ := exists_run_of_boot (fun _ _ => True) (fun _ => 2) 4096
    [.scan, .whole (.uart 65), .sleepMsg]
    (fun m => m.kernel.sched.queue .msgBlocked 0 = some 4 ∧ m.kernel.sched.next 4 = none ∧
      m.kernel.sched.runningProcess ≠ some 4 ∧ (m.kernel.sched.pcb 4).state = .blockedMsg ∧
      m.kernel.mailbox 0 = some 4096 ∧ m.kernel.rx 4096 = (m.kernel.sched.pcb 4).pid)
    (by decide +kernel)
  obtain ⟨hhead, hnext, hr, hb, hmail, hrx⟩ := of_decide_eq_true hc
  refine ⟨k₀, m, hboot, hrun, ?_⟩
  intro hno
  exact hno 0 [4] ⟨hhead, hnext⟩ 4 (by simp) hr hb 0 (by decide) 4096 hmail hrx

end Machine

end RtxKernel
