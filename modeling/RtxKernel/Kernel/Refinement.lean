import RtxKernel.Kernel.Invariant
import RtxKernel.Memory.Refinement

/-!
# The kernel refines the abstract kernel

`KernelRep k a`: the scheduler, the pool and the mailbox arrays of `k` implement those of `a`.
Started in related states, with the invariant `a.Ok base r`, every operation of the code fails
exactly where the abstract one fails, and otherwise gives the same reply and a related state
(`KernelRep.call`).
-/

namespace RtxKernel

/-- The kernel `k` implements the abstract kernel `a`. -/
structure KernelRep (k : Kernel) (a : Spec.Kernel) : Prop where
  sched : Rep k.sched a.sched
  pool : PoolRep k.pool a.pool
  mailbox : Packed k.mailbox a.mailbox
  delayed : Packed k.delayedMailbox a.delayed
  ticks : k.ticks = a.ticks

/-- Equal results, and related kernels. -/
def SameReply {α : Type} (x : α × Kernel) (y : α × Spec.Kernel) : Prop :=
  x.1 = y.1 ∧ KernelRep x.2 y.2

lemma Packed.storeIn {s : Nat → Option Nat} {l : List Nat} (h : Packed s l)
    (hl : l.length ≤ memBlockCount) (e : Nat) :
    Packed (Kernel.storeIn s e) (Spec.Kernel.storeIn l e) := by
  rw [Kernel.storeIn, Spec.Kernel.storeIn]
  rw [h.freeSlot_eq hl]
  by_cases hlt : l.length < memBlockCount
  · rw [if_neg (Nat.ne_of_lt hlt), if_pos hlt]
    exact h.insert e
  · rw [if_pos (by omega), if_neg hlt]
    exact h

namespace KernelRep

variable {k : Kernel} {a : Spec.Kernel} {base : Nat} {r : PcbPtr}

lemma rx (h : KernelRep k a) (e : Nat) : k.rx e = a.rx e := by
  rw [Kernel.rx, Spec.Kernel.rx, h.pool.memory]

lemma tx (h : KernelRep k a) (e : Nat) : k.tx e = a.tx e := by
  rw [Kernel.tx, Spec.Kernel.tx, h.pool.memory]

lemma sendTime (h : KernelRep k a) (e : Nat) : k.sendTime e = a.sendTime e := by
  rw [Kernel.sendTime, Spec.Kernel.sendTime, h.pool.memory]

lemma currentPid (h : KernelRep k a) : k.currentPid = a.sched.currentPid := h.sched.getCurrentPid

lemma write (h : KernelRep k a) (x : Nat) (w : UInt32) : KernelRep (k.write x w) (a.write x w) :=
  ⟨h.sched, ⟨h.pool.start, h.pool.pid, congrArg (write32 · x w) h.pool.memory, h.pool.chain⟩,
    h.mailbox, h.delayed, h.ticks⟩

lemma store (h : KernelRep k a) (x : Nat) (v : UInt8) : KernelRep (k.store x v) (a.store x v) := by
  refine ⟨h.sched, ⟨h.pool.start, h.pool.pid, ?_, h.pool.chain⟩, h.mailbox, h.delayed, h.ticks⟩
  change Function.update k.pool.memory x v = Function.update a.pool.memory x v
  rw [h.pool.memory]

lemma withSched (h : KernelRep k a) {s : Scheduler} {s' : Spec.Sched} (hs : Rep s s') :
    KernelRep (k.withSched s) (a.withSched s') := ⟨hs, h.pool, h.mailbox, h.delayed, h.ticks⟩

lemma withPool (h : KernelRep k a) {p : Pool} {p' : Spec.Pool} (hp : PoolRep p p') :
    KernelRep { k with pool := p } (a.withPool p') := ⟨h.sched, hp, h.mailbox, h.delayed, h.ticks⟩

/-- A step of the scheduler inside an operation. -/
lemma map_withSched {α : Type} (h : KernelRep k a) {o : Option Scheduler} {o' : Option Spec.Sched}
    (ho : Option.Rel Rep o o') (v : α) :
    Option.Rel SameReply (o.bind fun s => some (v, k.withSched s))
      (o'.map fun s => (v, a.withSched s)) := by
  cases ho with
  | none => exact .none
  | some hs => exact .some ⟨rfl, h.withSched hs⟩

lemma address (h : KernelRep k a) (hok : a.Ok base r) (processId : UInt32) (e : Nat) :
    Option.Rel KernelRep (k.address processId e) (a.address processId e) := by
  have hw := h.write (rxField e) processId
  have hre := hw.pool.reassignMemBlock (hok.write (rxField e) processId).pool e processId
  rw [Kernel.address, Spec.Kernel.address]
  dsimp only
  rw [← h.currentPid]
  generalize (k.write (rxField e) processId).pool.reassignMemBlock e processId = o at hre
  generalize (a.write (rxField e) processId).pool.reassign e processId = o' at hre
  cases hre with
  | none => exact .none
  | some hp => exact .some ((hw.withPool hp).write _ _)

theorem sendSection (h : KernelRep k a) (hok : a.Ok base r) (processId : UInt32) (e : Nat) :
    Option.Rel (fun x y => x.1 = y.1 ∧ x.2.1 = y.2.1 ∧ KernelRep x.2.2 y.2.2)
      (k.sendSection processId e) (a.sendSection processId e) := by
  rw [Kernel.sendSection, Spec.Kernel.sendSection]
  rw [h.sched.isPidValid hok.sched.wf.placed]
  split_ifs with h₁ h₂
  · exact .some ⟨rfl, rfl, h⟩
  · simp only [Option.bind_eq_bind, Option.bind_some, h₂]
    exact .some ⟨rfl, rfl, h⟩
  · have hfind : (!(a.sched.find processId).isSome) = false := by
      simpa [Option.isSome_iff_ne_none] using h₂
    simp only [Option.bind_eq_bind, Option.bind_some, hfind, Bool.false_eq_true, if_false]
    have hadd := h.address hok processId e
    generalize hb : a.address processId e = o' at hadd
    generalize k.address processId e = o at hadd
    cases hadd with
    | none => exact .none
    | some hrep =>
      refine .some ⟨rfl, rfl, hrep.sched, hrep.pool, ?_, hrep.delayed, hrep.ticks⟩
      exact hrep.mailbox.storeIn (hok.address hb).1.mailbox_le e

theorem sendMessage (h : KernelRep k a) (hok : a.Ok base r) (processId : UInt32) (e : Nat) :
    Option.Rel SameReply (k.sendMessage processId e) (a.sendMessage processId e) := by
  have hsec := h.sendSection hok processId e
  rw [Kernel.sendMessage, Spec.Kernel.sendMessage]
  generalize hb : a.sendSection processId e = o' at hsec
  generalize k.sendSection processId e = o at hsec
  cases hsec with
  | none => exact .none
  | @some x y hxy =>
    obtain ⟨code, sent, k'⟩ := x
    obtain ⟨code', sent', b⟩ := y
    obtain ⟨rfl, rfl, hrep⟩ : code = code' ∧ sent = sent' ∧ KernelRep k' b := hxy
    have hok' := (hok.sendSection hb).1
    cases sent with
    | false => exact .some ⟨rfl, hrep⟩
    | true =>
      have hun := hrep.sched.unblockProcessByPid hok'.sched processId true
      simp only [Option.bind_eq_bind, Option.bind_some, if_true]
      generalize k'.sched.unblockProcessByPid processId true = o at hun
      generalize b.sched.unblockByPid processId true = o' at hun
      cases hun with
      | none => exact .none
      | some hs => exact .some ⟨rfl, hrep.withSched hs⟩

theorem delayedSend (h : KernelRep k a) (hok : a.Ok base r) (processId : UInt32) (e : Nat)
    (delay : UInt32) :
    Option.Rel SameReply (k.delayedSend processId e delay) (a.delayedSend processId e delay) := by
  rw [Kernel.delayedSend, Spec.Kernel.delayedSend]
  rw [h.sched.isPidValid hok.sched.wf.placed]
  split_ifs with h₁ h₂
  · exact .some ⟨rfl, h⟩
  · simp only [Option.bind_eq_bind, Option.bind_some, h₂]
    exact .some ⟨rfl, h⟩
  · have hfind : (!(a.sched.find processId).isSome) = false := by
      simpa [Option.isSome_iff_ne_none] using h₂
    simp only [Option.bind_eq_bind, Option.bind_some, hfind, Bool.false_eq_true, if_false]
    have hadd := h.address hok processId e
    generalize hb : a.address processId e = o' at hadd
    generalize k.address processId e = o at hadd
    cases hadd with
    | none => exact .none
    | @some k' b hrep =>
      have hw := hrep.write (sendTimeField e) (delay + b.ticks)
      simp only [Option.bind_some, Option.map_some, hrep.ticks]
      refine .some ⟨rfl, hw.sched, hw.pool, hw.mailbox, ?_, hw.ticks⟩
      exact hrep.delayed.storeIn (hok.address hb).1.delayed_le e

theorem receiveScan (h : KernelRep k a) (hok : a.Ok base r) :
    SameReply k.receiveScan a.receiveScan := by
  have htest : (fun e => decide (k.rx e = k.currentPid))
      = fun e => decide (a.rx e = a.sched.currentPid) := by
    funext e
    rw [h.rx, h.currentPid]
  rw [Kernel.receiveScan, Spec.Kernel.receiveScan]
  rw [h.mailbox.search_eq _ hok.mailbox_le, htest]
  cases hi : a.mailbox.findIdx? fun e => a.rx e = a.sched.currentPid with
  | none => exact ⟨rfl, h⟩
  | some i =>
    obtain ⟨hlt, -, -⟩ := List.findIdx?_eq_some_iff_getElem.mp hi
    refine ⟨h.mailbox i, h.sched, h.pool, ?_, h.delayed, h.ticks⟩
    exact (h.mailbox.delete hlt hok.mailbox_le).1

theorem receiveMessage (h : KernelRep k a) (hok : a.Ok base r) (hz : a.sched.pid r ≠ 0) :
    ∃ x, k.receiveMessage = some x ∧ SameReply x a.receiveMessage := by
  obtain ⟨hfst, hrep⟩ := h.receiveScan hok
  rw [Kernel.receiveMessage, Spec.Kernel.receiveMessage]
  have hsched : a.receiveScan.2.sched = a.sched := by
    rcases Spec.Kernel.receiveScan_cases a with ⟨-, he⟩ | ⟨i, e, -, -, -, he⟩ <;> rw [he]
  generalize k.receiveScan = x at hfst hrep
  generalize a.receiveScan = y at hfst hrep hsched
  obtain ⟨o, k'⟩ := x
  obtain ⟨o', b⟩ := y
  obtain rfl : o = o' := hfst
  replace hrep : KernelRep k' b := hrep
  replace hsched : b.sched = a.sched := hsched
  cases o with
  | some e => exact ⟨_, rfl, rfl, hrep⟩
  | none =>
    have hpid : b.sched.currentPid ≠ 0 := by
      rw [hsched, hok.currentPid]
      exact hz
    obtain ⟨s, hs, hrep'⟩ := hrep.sched.blockProcess (by rw [hsched]; exact hok.sched.wf) hpid .msg
    refine ⟨(none, k'.withSched s), ?_, rfl, hrep.withSched hrep'⟩
    simp only [hrep.currentPid, hs, Option.bind_eq_bind, Option.bind_some]
    rfl

theorem requestMemoryBlock (h : KernelRep k a) (hok : a.Ok base r) (hz : a.sched.pid r ≠ 0) :
    ∃ x, k.requestMemoryBlock = some x ∧ SameReply x a.requestMemoryBlock := by
  have htake := h.pool.takeBlock hok.pool a.sched.currentPid
  rw [Kernel.requestMemoryBlock, Spec.Kernel.requestMemoryBlock]
  rw [h.pool.areBlocksAvailable, h.currentPid]
  cases ha : a.pool.available with
  | nil =>
    have hnone : a.pool.take a.sched.currentPid = none := by rw [Spec.Pool.take, ha]
    have hpid : a.sched.currentPid ≠ 0 := by
      rw [hok.currentPid]
      exact hz
    obtain ⟨s, hs, hrep⟩ := h.sched.blockProcess hok.sched.wf hpid .mem
    rw [hnone, hs]
    exact ⟨_, rfl, rfl, h.withSched hrep⟩
  | cons b t =>
    obtain ⟨y, hy⟩ : ∃ y, a.pool.take a.sched.currentPid = some y := by
      rw [Spec.Pool.take, ha]
      exact ⟨_, rfl⟩
    rw [hy] at htake ⊢
    obtain ⟨x, hx, hfst, hrep⟩ := htake.exists_of_some_right
    rw [hx]
    exact ⟨_, rfl, congrArg some hfst, h.withPool hrep⟩

theorem releaseMemoryBlock (h : KernelRep k a) (hok : a.Ok base r) (x : Nat) :
    Option.Rel SameReply (k.releaseMemoryBlock x) (a.releaseMemoryBlock x) := by
  obtain ⟨p, hp, hrep⟩ := h.pool.releaseBlock hok.pool x a.sched.currentPid
  rw [Kernel.releaseMemoryBlock, Spec.Kernel.releaseMemoryBlock]
  rw [h.currentPid, hp]
  simp only [Option.bind_eq_bind, Option.bind_some]
  split_ifs with hcode
  · have hun := h.sched.unblockProcessByType hok.sched .mem
    exact (h.withPool hrep).map_withSched hun _
  · exact .some ⟨rfl, h.withPool hrep⟩

/-! ### The timer -/

/-- After a receiver was unblocked its priority is looked up again. -/
lemma wakeReceiver (h : KernelRep k a) (hok : a.Ok base r) (pid w : UInt32) (e i : Nat) :
    Option.Rel (fun x y => x.1 = y.1 ∧ x.2.1 = y.2.1 ∧ x.2.2.1 = y.2.2.1 ∧
        KernelRep x.2.2.2 y.2.2.2)
      (do
        if ← k.sched.isProcessBlocked pid then
          let k := k.withSched (← k.sched.unblockProcessByPid pid false)
          let priority ← k.sched.getProcessPriority pid
          return (e, i, if priority < w then priority else w, k)
        else return (e, i, w, k))
      ((a.wakeReceiver pid w).map fun x => (e, i, x)) := by
  have hfind := h.sched.getProcessByPid hok.sched.wf.placed pid
  have hun := h.sched.unblockProcessByPid hok.sched pid false
  rw [Spec.Kernel.wakeReceiver, Scheduler.isProcessBlocked]
  rw [hfind]
  cases hf : a.sched.find pid with
  | none => exact .some ⟨rfl, rfl, rfl, h⟩
  | some p =>
    simp only [Option.bind_eq_bind, Option.bind_some, h.sched.state]
    cases hb : (a.sched.state p).isBlocked with
    | false => exact .some ⟨rfl, rfl, rfl, h⟩
    | true =>
      simp only [Option.pure_def, Option.bind_some, if_true]
      rcases Spec.Sched.unblockByPidSection_cases pid hok.sched.running with ⟨hn, -⟩ | ⟨x, hx, -, he⟩
      · exact absurd (hn p hf) (by simp [hb])
      · obtain rfl := Option.some.inj (hf.symm.trans hx)
        have hspec : a.sched.unblockByPid pid false
            = some (a.sched.refile p .ready (a.sched.priority p)) := by
          simp [Spec.Sched.unblockByPid, he, Spec.Sched.releaseIf]
        rw [hspec] at hun ⊢
        obtain ⟨s, hs, hrep⟩ := hun.exists_of_some_right
        have hne := hok.sched.running_ne (hok.sched.ne_of_isBlocked hb)
        have hw := hok.sched.wf.wake (hok.sched.wf.find_live hf) hne
        have hf' : (a.sched.refile p .ready (a.sched.priority p)).find pid = some p := by
          rw [hw.find_eq_some_iff]
          simpa using hok.sched.wf.find_eq_some_iff.mp hf
        rw [hs]
        simp only [Option.bind_some, Option.map_some, Kernel.withSched,
          Scheduler.getProcessPriority, hrep.getProcessByPid hw.placed, hf', hrep.priority]
        exact .some ⟨rfl, rfl, rfl, h.withSched hrep⟩

theorem deliver (h : KernelRep k a) (hok : a.Ok base r) {e i : Nat} (hi : a.delayed[i]? = some e)
    (w : UInt32) :
    Option.Rel (fun x y => x.1 = y.1 ∧ x.2.1 = y.2.1 ∧ x.2.2.1 = y.2.2.1 ∧
        KernelRep x.2.2.2 y.2.2.2) (k.deliver i w) (a.deliver e i w) := by
  have hlt : i < a.delayed.length := (List.getElem?_eq_some_iff.mp hi).1
  rw [Kernel.deliver, Kernel.moveDue, Spec.Kernel.deliver]
  rw [h.mailbox.freeSlot_eq hok.mailbox_le]
  by_cases hfull : a.mailbox.length < memBlockCount
  · have hne : a.mailbox.length ≠ memBlockCount := Nat.ne_of_lt hfull
    obtain ⟨hpacked, hlast⟩ := h.delayed.delete hlt hok.delayed_le
    have hki : k.delayedMailbox i = some e := (h.delayed i).trans hi
    simp only [if_neg hne, if_pos hfull, hlast, Function.update_self, hki]
    have hrep : KernelRep { k with
        mailbox := Function.update k.mailbox a.mailbox.length (some e)
        delayedMailbox := (shiftDown (memBlockCount - (i + 1)) (i + 1)
          (Function.update k.delayedMailbox i none)).1 }
        (a.move e i) :=
      ⟨h.sched, h.pool, h.mailbox.insert e, hpacked, h.ticks⟩
    have hok' : (a.move e i).Ok base r :=
      ⟨hok.sched, hok.pool, by simpa [Spec.Kernel.move, Nat.succ_le_iff] using hfull,
        Nat.le_trans (List.length_eraseIdx_le ..) hok.delayed_le⟩
    rw [← h.rx]
    exact hrep.wakeReceiver hok' _ w e _
  · have heq : a.mailbox.length = memBlockCount := Nat.le_antisymm hok.mailbox_le (by omega)
    have hnone : k.mailbox memBlockCount = none := by
      rw [h.mailbox, List.getElem?_eq_none (Nat.le_of_eq heq)]
    simp only [heq, if_true, hnone, Nat.lt_irrefl, if_false]
    exact .none

theorem checkFrom (h : KernelRep k a) (hok : a.Ok base r) (n i : Nat) (w : UInt32)
    (moved : List Nat) :
    Option.Rel (fun x y => x.1 = y.1 ∧ x.2.1 = y.2.1 ∧ KernelRep x.2.2 y.2.2)
      (Kernel.checkFrom n i w moved k) (Spec.Kernel.checkFrom n i w moved a) := by
  induction n generalizing i w moved k a with
  | zero =>
    rw [Kernel.checkFrom, Spec.Kernel.checkFrom]
    split_ifs
    · exact .some ⟨rfl, rfl, h⟩
    · exact .none
  | succ n ih =>
    rw [Kernel.checkFrom, Spec.Kernel.checkFrom]
    split_ifs
    · exact .some ⟨rfl, rfl, h⟩
    · rw [h.delayed i]
      cases hi : a.delayed[i]? with
      | none => exact ih h hok _ _ _
      | some e =>
        simp only [h.sendTime, h.ticks]
        split_ifs
        · have hd := h.deliver hok hi w
          generalize hb : a.deliver e i w = o' at hd
          generalize k.deliver i w = o at hd
          cases hd with
          | none => exact .none
          | @some x y hxy =>
            obtain ⟨e₁, i₁, w₁, k₁⟩ := x
            obtain ⟨e₂, i₂, w₂, b⟩ := y
            obtain ⟨rfl, rfl, rfl, hrep⟩ : e₁ = e₂ ∧ i₁ = i₂ ∧ w₁ = w₂ ∧ KernelRep k₁ b := hxy
            exact ih hrep ((hok.sweeps w).deliver hb).ok _ _ _
        · exact ih h hok _ _ _

theorem timerIsr (h : KernelRep k a) (hok : a.Ok base r) :
    Option.Rel SameReply k.timerIsr a.timerIsr := by
  have h₀ : KernelRep { k with ticks := k.ticks + 1 } { a with ticks := a.ticks + 1 } :=
    ⟨h.sched, h.pool, h.mailbox, h.delayed, congrArg (· + 1) h.ticks⟩
  have hok₀ := hok.withTicks (a.ticks + 1)
  have hc := h₀.checkFrom hok₀ (2 * memBlockCount) 0 4 []
  unfold Kernel.timerIsr Kernel.checkExistingDelayedMessage Spec.Kernel.timerIsr
    Spec.Kernel.checkExistingDelayedMessage
  generalize hb : Spec.Kernel.checkFrom (2 * memBlockCount) 0 4 []
    { a with ticks := a.ticks + 1 } = o' at hc
  generalize Kernel.checkFrom (2 * memBlockCount) 0 4 [] { k with ticks := k.ticks + 1 } = o at hc
  cases hc with
  | none => exact .none
  | @some x y hxy =>
    obtain ⟨moved, w, k'⟩ := x
    obtain ⟨moved', w', b⟩ := y
    obtain ⟨rfl, rfl, hrep⟩ : moved = moved' ∧ w = w' ∧ KernelRep k' b := hxy
    have hok' : b.Ok base r := ((hok₀.sweeps 4).checkFrom hb).ok
    have hprio : k'.sched.getProcessPriority k'.currentPid = some b.currentPriority := by
      rw [Scheduler.getProcessPriority, hrep.currentPid,
        hrep.sched.getProcessByPid hok'.sched.wf.placed, hok'.currentPriority, hok'.currentPid,
        hok'.sched.wf.find_running hok'.sched.running, ← hrep.sched.priority]
      rfl
    obtain ⟨s, hs, hrep'⟩ := hrep.sched.procSwitchHandler hok'.sched.wf
    simp only [Option.bind_eq_bind, Option.bind_some, Option.map_some, hprio]
    split_ifs
    · rw [hs]
      exact .some ⟨rfl, hrep.withSched hrep'⟩
    · exact .some ⟨rfl, hrep⟩

theorem uartHandler (h : KernelRep k a) (hok : a.Ok base r) (c : UInt8) :
    Option.Rel SameReply (k.uartHandler c) (a.uartHandler c) := by
  have htake := h.pool.takeBlock hok.pool a.sched.currentPid
  rw [Kernel.uartHandler, Spec.Kernel.uartHandler]
  rw [h.pool.areBlocksAvailable, h.currentPid]
  cases ha : a.pool.available with
  | nil =>
    have hnone : a.pool.take a.sched.currentPid = none := by rw [Spec.Pool.take, ha]
    rw [hnone]
    exact .some ⟨rfl, h⟩
  | cons b t =>
    obtain ⟨y, hy⟩ : ∃ y, a.pool.take a.sched.currentPid = some y := by
      rw [Spec.Pool.take, ha]
      exact ⟨_, rfl⟩
    rw [hy] at htake ⊢
    obtain ⟨x, hx, hfst, hrep⟩ := htake.exists_of_some_right
    rw [hx]
    obtain ⟨e, p⟩ := x
    obtain ⟨e', p'⟩ := y
    obtain rfl : e = e' := hfst
    have hw := (((h.withPool hrep).write (txField e) uartPid).write (rxField e) kcdPid).store
      (msgField e) c
    have hok' := (((hok.withPool (hok.pool.take hy)).write (txField e) uartPid).write (rxField e)
      kcdPid).store (msgField e) c
    have hsend := hw.sendMessage hok' kcdPid e
    simp only [List.isEmpty_cons, Bool.not_false, if_true, Option.bind_eq_bind, Option.bind_some]
    generalize Kernel.sendMessage _ kcdPid e = o at hsend ⊢
    generalize Spec.Kernel.sendMessage _ kcdPid e = o' at hsend ⊢
    cases hsend with
    | none => exact .none
    | some hxy => exact .some ⟨congrArg some hxy.1, hxy.2⟩

/-! ### Every operation -/

lemma reply {α : Type} {o : Option (α × Kernel)} {o' : Option (α × Spec.Kernel)}
    (h : Option.Rel SameReply o o') (f : α → Reply) :
    Option.Rel SameReply (o.bind fun x => some (f x.1, x.2)) (o'.map fun x => (f x.1, x.2)) := by
  cases h with
  | none => exact .none
  | some hxy => exact .some ⟨congrArg f hxy.1, hxy.2⟩

theorem call (h : KernelRep k a) (hok : a.Ok base r) (op : Op)
    (hz : op.isInterrupt = false → a.sched.pid r ≠ 0) :
    Option.Rel SameReply (k.call op) (a.call op) := by
  cases op with
  | releaseProcessor =>
    obtain ⟨s, hs, hrep⟩ := h.sched.procSwitchHandler hok.sched.wf
    simp only [Kernel.call, Spec.Kernel.call]
    rw [hs]
    exact .some ⟨rfl, h.withSched hrep⟩
  | block t =>
    have hpid : a.sched.currentPid ≠ 0 := by
      rw [hok.currentPid]
      exact hz rfl
    obtain ⟨s, hs, hrep⟩ := h.sched.blockProcess hok.sched.wf hpid t
    simp only [Kernel.call, Spec.Kernel.call]
    rw [h.currentPid, hs]
    exact .some ⟨rfl, h.withSched hrep⟩
  | unblockByPid pid allow =>
    exact h.map_withSched (h.sched.unblockProcessByPid hok.sched pid allow) _
  | unblockByType t => exact h.map_withSched (h.sched.unblockProcessByType hok.sched t) _
  | setPriority pid priority =>
    have hset := h.sched.setProcessPriority hok.sched (hz rfl) pid priority
    simp only [Kernel.call, Spec.Kernel.call]
    generalize k.sched.setProcessPriority pid priority = o at hset ⊢
    generalize a.sched.setProcessPriority pid priority = o' at hset ⊢
    cases hset with
    | none => exact .none
    | some hxy => exact .some ⟨congrArg Reply.code hxy.1, h.withSched hxy.2⟩
  | send pid e => exact reply (h.sendMessage hok pid e) _
  | delayedSend pid e delay => exact reply (h.delayedSend hok pid e delay) _
  | receive =>
    obtain ⟨x, hx, hrep⟩ := h.receiveMessage hok (hz rfl)
    simp only [Kernel.call, Spec.Kernel.call]
    rw [hx]
    refine .some ⟨?_, hrep.2⟩
    rw [hrep.1, funext hrep.2.tx]
  | request =>
    obtain ⟨x, hx, hrep⟩ := h.requestMemoryBlock hok (hz rfl)
    simp only [Kernel.call, Spec.Kernel.call]
    rw [hx]
    exact .some ⟨congrArg Reply.block hrep.1, hrep.2⟩
  | release x => exact reply (h.releaseMemoryBlock hok x) _
  | store x v => exact .some ⟨rfl, h.store x v⟩
  | terminate => exact h.map_withSched (h.sched.terminate hok.sched (hz rfl)) _
  | timer => exact reply (h.timerIsr hok) _
  | uart c => exact reply (h.uartHandler hok c) _

end KernelRep

end RtxKernel
