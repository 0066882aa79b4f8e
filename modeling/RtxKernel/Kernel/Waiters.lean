import RtxKernel.Core.Waiting
import RtxKernel.Kernel.Refusal
import RtxKernel.Kernel.Retry

/-!
# Processes that wait for memory

A message wakes its receiver, also when that one waits for memory (`message_wakes_waiter`). As long as a process
waits it keeps its place among those that wait with it, unless it gets another priority.
-/

namespace RtxKernel

namespace Spec.Kernel

open Sched (Holds Wakes)

variable {a b : Kernel} {base : Nat} {r p : PcbPtr} {t : BlockType} {op : Op} {reply : Reply}

lemma Ok.holds_sendMessage (h : a.Ok base r) {pid : UInt32} {e : Nat} {y : UInt32 × Kernel}
    (hy : a.sendMessage pid e = some y) (hp : y.2.sched.state p = t.state) : Holds t p a.sched y.2.sched := by
  rw [Kernel.sendMessage] at hy
  obtain ⟨x, hx, hy⟩ := Option.bind_eq_some_iff.mp hy
  rcases sendSection_cases hx with ⟨-, c, -, rfl⟩ | ⟨-, b, hb, rfl⟩
  · obtain rfl := Option.some.inj hy
    exact .refl t p _
  · obtain ⟨-, hs⟩ := h.address hb
    obtain ⟨s, hs', hy⟩ := Option.bind_eq_some_iff.mp hy
    obtain rfl := Option.some.inj hy
    rw [hs] at hs'
    exact h.sched.holds_unblockByPid hs' hp

lemma holds_wakeReceiver (h : a.sched.Steady r) {pid w : UInt32} {x : UInt32 × Kernel}
    (hx : a.wakeReceiver pid w = some x) (hp : x.2.sched.state p = t.state) : Holds t p a.sched x.2.sched := by
  rw [wakeReceiver] at hx
  cases hf : a.sched.find pid with
  | none =>
    rw [hf] at hx
    obtain rfl := Option.some.inj hx
    exact .refl t p _
  | some y =>
    rw [hf] at hx
    dsimp only at hx
    split_ifs at hx
    · obtain ⟨s, hs, rfl⟩ := Option.map_eq_some_iff.mp hx
      exact h.holds_unblockByPid hs hp
    · obtain rfl := Option.some.inj hx
      exact .refl t p _

/-- A process that waits after the loop has waited all the time. -/
lemma Ok.holds_checkFrom (h : a.Ok base r) {n i : Nat} {w : UInt32} {moved : List Nat}
    {x : List Nat × UInt32 × Kernel} (hx : checkFrom n i w moved a = some x)
    (hp : x.2.2.sched.state p = t.state) : Holds t p a.sched x.2.2.sched := by
  induction n generalizing i w moved a with
  | zero =>
    rw [checkFrom] at hx
    split_ifs at hx
    obtain rfl := Option.some.inj hx
    exact .refl t p _
  | succ n ih =>
    rw [checkFrom] at hx
    split_ifs at hx
    · obtain rfl := Option.some.inj hx
      exact .refl t p _
    cases hi : a.delayed[i]? with
    | none =>
      rw [hi] at hx
      exact ih h hx
    | some e =>
      rw [hi] at hx
      dsimp only at hx
      split_ifs at hx with hdue
      · obtain ⟨y, hy, hx⟩ := Option.bind_eq_some_iff.mp hx
        have hok := ((h.sweeps w).deliver hy).ok
        obtain ⟨-, -, hw, -⟩ := hok.wakes_checkFrom hx
        have hstate := hw.state p (by rw [hp]; exact isBlocked_state t)
        rw [hp] at hstate
        rw [deliver] at hy
        split_ifs at hy
        obtain ⟨z, hz, rfl⟩ := Option.map_eq_some_iff.mp hy
        exact (holds_wakeReceiver (a := a.move e i) h.sched hz hstate.symm).trans (ih hok hx)
      · exact ih h hx

lemma Ok.holds_timer (h : a.Ok base r) {x : List Nat × Kernel} (hx : a.timerIsr = some x)
    (hp : x.2.sched.state p = t.state) : Holds t p a.sched x.2.sched := by
  obtain ⟨⟨new, w, b⟩, hb, rfl⟩ := Option.map_eq_some_iff.mp hx
  have hok := h.withTicks (a.ticks + 1)
  dsimp only at hp ⊢
  split_ifs at hp ⊢
  · have hafter : b.sched.procSwitch.state p = t.state := hp
    have hstate := (Wakes.procSwitch b.sched).state p (by rw [hafter]; exact isBlocked_state t)
    exact (hok.holds_checkFrom hb (hstate.symm.trans hafter)).trans (.procSwitch _)
  · exact hok.holds_checkFrom hb hp

lemma Ok.holds_uart (h : a.Ok base r) {c : UInt8} {x : Option UInt32 × Kernel}
    (hx : a.uartHandler c = some x) (hp : x.2.sched.state p = t.state) : Holds t p a.sched x.2.sched := by
  obtain rfl | ⟨q, y, z, hok, hz, rfl⟩ := h.uartHandler_cases hx
  · exact .refl t p _
  · exact hok.holds_sendMessage hz hp

/-- A process that waits after an operation has kept its place, unless it got another priority. -/
theorem Ok.holds (h : a.Ok base r) (hy : a.call op = some (reply, b)) (hp : b.sched.state p = t.state)
    (hset : ∀ pid v, op = .setPriority pid v → a.sched.pid p ≠ pid.toUInt32) : Holds t p a.sched b.sched := by
  cases op with
  | block t' =>
    obtain ⟨-, rfl⟩ := Prod.mk.inj (Option.some.inj hy)
    exact h.sched.holds_block t'
  | receive =>
    obtain ⟨-, rfl⟩ := Prod.mk.inj (Option.some.inj hy)
    rcases receiveScan_cases a with ⟨-, he⟩ | ⟨i, e, -, -, -, he⟩
    · rw [he]
      exact h.sched.holds_block .msg
    · rw [he]
      exact .refl t p _
  | request =>
    obtain ⟨-, rfl⟩ := Prod.mk.inj (Option.some.inj hy)
    rw [Kernel.requestMemoryBlock]
    cases a.pool.take a.sched.currentPid with
    | none => exact h.sched.holds_block .mem
    | some x => exact .refl t p _
  | terminate =>
    obtain ⟨s, hs, hb⟩ := Option.map_eq_some_iff.mp hy
    obtain ⟨-, rfl⟩ := Prod.mk.inj hb
    exact h.sched.holds_terminate hs
  | releaseProcessor =>
    obtain ⟨-, rfl⟩ := Prod.mk.inj (Option.some.inj hy)
    exact .procSwitch _
  | unblockByPid pid allow =>
    obtain ⟨s, hs, hb⟩ := Option.map_eq_some_iff.mp hy
    obtain ⟨-, rfl⟩ := Prod.mk.inj hb
    exact h.sched.holds_unblockByPid hs hp
  | unblockByType t' =>
    obtain ⟨s, hs, hb⟩ := Option.map_eq_some_iff.mp hy
    obtain ⟨-, rfl⟩ := Prod.mk.inj hb
    exact h.sched.holds_unblockByType hs hp
  | setPriority pid w =>
    obtain ⟨x, hx, hb⟩ := Option.map_eq_some_iff.mp hy
    obtain ⟨-, rfl⟩ := Prod.mk.inj hb
    exact h.sched.holds_setProcessPriority hx (hset pid w rfl)
  | send pid e =>
    obtain ⟨x, hx, hb⟩ := Option.map_eq_some_iff.mp hy
    obtain ⟨-, rfl⟩ := Prod.mk.inj hb
    exact h.holds_sendMessage hx hp
  | delayedSend pid e delay =>
    obtain ⟨x, hx, hb⟩ := Option.map_eq_some_iff.mp hy
    obtain ⟨-, rfl⟩ := Prod.mk.inj hb
    rcases delayedSend_cases hx with ⟨c, -, rfl⟩ | ⟨-, b', hb', rfl⟩
    · exact .refl t p _
    · change Holds t p a.sched b'.sched
      rw [(h.address hb').2]
      exact .refl t p _
  | release x =>
    obtain ⟨z, hz, hb⟩ := Option.map_eq_some_iff.mp hy
    obtain ⟨-, rfl⟩ := Prod.mk.inj hb
    rw [Kernel.releaseMemoryBlock] at hz
    dsimp only at hz
    split_ifs at hz
    · obtain ⟨s, hs, rfl⟩ := Option.map_eq_some_iff.mp hz
      exact h.sched.holds_unblockByType hs hp
    · obtain rfl := Option.some.inj hz
      exact .refl t p _
  | store x w =>
    obtain ⟨-, rfl⟩ := Prod.mk.inj (Option.some.inj hy)
    exact .refl t p _
  | timer =>
    obtain ⟨x, hx, hb⟩ := Option.map_eq_some_iff.mp hy
    obtain ⟨-, rfl⟩ := Prod.mk.inj hb
    exact h.holds_timer hx hp
  | uart c =>
    obtain ⟨x, hx, hb⟩ := Option.map_eq_some_iff.mp hy
    obtain ⟨-, rfl⟩ := Prod.mk.inj hb
    exact h.holds_uart hx hp

end Spec.Kernel

/-! ### In the code -/

namespace Kernel

/-- The process `pid`, which waits for memory, is made ready: by a message to it, by a block that is returned, or by
a direct call of the functions of `core.c`. -/
def RousedBy (k : Kernel) (pid : UInt32) : Op → Reply → Prop
  | .unblockByPid pid' _, _ => pid = pid'
  | .unblockByType t, _ => t = .mem
  | .release _, .code c => c = 0
  | .send pid' _, .code c => c = 0 ∧ pid = pid'
  | .timer, .moved es => ∃ e ∈ es, k.rx e = pid
  | .uart _, .sent c => c = some 0 ∧ pid = kcdPid
  | _, _ => False

/-- The process runs or is in the ready queue, and does not wait for memory. -/
def IsReady (k : Kernel) (p : PcbPtr) : Prop :=
  (k.sched.pcb p).state.isBlocked = false ∧ ∃ l, k.sched.Filed l ∧ (∀ i, p ∉ l .memBlocked i) ∧
    (k.sched.runningProcess = some p ∨ p ∈ l .ready (k.sched.level p))

end Kernel

variable {priority : Fin 6 → UInt8} {base : Nat} {k₀ k k' : Kernel} {a b : Spec.Kernel} {r r' p : PcbPtr}
  {es : List Event} {op : Op} {reply : Reply} {x e : Nat} {pid : UInt32} {l : QueueName → Nat → List PcbPtr}

namespace Sound

lemma rousedBy (h : Sound base k a r) (hw : a.RousedBy .mem p op reply) : k.RousedBy (a.sched.pid p) op reply := by
  cases op with
  | unblockByType t =>
    cases t with
    | mem => rfl
    | msg => cases hw
  | unblockByPid pid allow => exact hw
  | release x =>
    cases reply with
    | code c => exact hw.1
    | _ => exact hw
  | send pid e =>
    cases reply with
    | code c => exact hw
    | _ => exact hw
  | timer =>
    cases reply with
    | moved es =>
      obtain ⟨e, he, hrx⟩ := hw
      exact ⟨e, he, (h.rep.rx e).trans hrx⟩
    | _ => exact hw
  | uart c =>
    cases reply with
    | sent c => exact hw
    | _ => exact hw
  | _ => exact hw

/-- A process that is not blocked -/
lemma isReady (h : Sound base k a r) (hp : p ∈ k.sched.live) (hb : (k.sched.pcb p).state.isBlocked = false) :
    k.IsReady p := by
  have hq : (k.sched.pcb p).state.queue = .ready := by
    cases hs : (k.sched.pcb p).state with
    | blockedMsg => rw [hs] at hb; cases hb
    | blockedMem => rw [hs] at hb; cases hb
    | _ => rfl
  refine ⟨hb, _, h.filed, ?_, ?_⟩
  · intro i hi
    have hhome := ((h.filed.home p hp _ i).mp hi).2.1
    rw [hq] at hhome
    cases hhome
  · by_cases hrun : k.sched.runningProcess = some p
    · exact .inl hrun
    · exact .inr ((h.filed.home p hp _ _).mpr ⟨hrun, hq.symm, rfl⟩)

end Sound

/-- What an operation does to a process `p` that waits for memory, where `l` are the queues -/
structure Kernel.TreatsWaiter (k : Kernel) (l : QueueName → Nat → List PcbPtr) (p : PcbPtr) (op : Op) (reply : Reply)
    (k' : Kernel) : Prop where
  sent : ∀ e, op = .send (k.sched.pcb p).pid e → e ≠ 0 →
    reply = .code 0 ∧ k'.HasMessage e (k.sched.pcb p).pid ∧ k'.IsReady p
  delivered : ∀ new, op = .timer → reply = .moved new → (∀ e ∈ new, k'.HasMessage e (k.rx e)) ∧
    ((∃ e ∈ new, k.rx e = (k.sched.pcb p).pid) → k'.IsReady p)
  leaves : (k'.sched.pcb p).state ≠ .blockedMem → k.RousedBy (k.sched.pcb p).pid op reply
  stays : (k'.sched.pcb p).state = .blockedMem →
    (∀ pid v, op = .setPriority pid v → (k.sched.pcb p).pid ≠ pid.toUInt32) →
      ∃ l', k'.sched.Filed l' ∧ ∀ i, KeepsPlace p (l .memBlocked i) (l' .memBlocked i)

namespace Safe

lemma awake_isReady (h : Safe priority base k a r) (hp : p ∈ a.sched.live) (hb : a.sched.Awake (a.sched.pid p)) :
    k.IsReady p := by
  have hrep := h.rep.sched
  apply h.isReady (hrep.live ▸ hp)
  rw [hrep.state]
  exact hb p hp rfl

lemma treatsWaiter (h : Safe priority base k a r) (hl : k.sched.Filed l) (hp : p ∈ k.sched.live)
    (hs : (k.sched.pcb p).state = .blockedMem) (hop : k.Permits op) (hcall : k.call op = some (reply, k')) :
    k.TreatsWaiter l p op reply k' := by
  obtain ⟨b, r', hperm, hy, h', -⟩ := h.step (e := ⟨k.currentPid, op, reply⟩) ⟨rfl, hop, hcall⟩
  have hrep := h.rep.sched
  have hrep' := h'.rep.sched
  rw [hrep.state] at hs
  rw [hrep.live] at hp
  have hne : op = .terminate → a.sched.pid p ≠ a.sched.currentPid := by
    rintro - hpid
    obtain rfl := h.ok.sched.wf.pid_inj p hp r (h.ok.sched.wf.running_live r h.ok.sched.running)
      (hpid.trans h.ok.currentPid)
    rw [h.ok.sched.ready] at hs
    cases hs
  obtain ⟨hlive, hpid⟩ := h.ok.live_step hy hp hne
  constructor
  · rintro e rfl he
    rw [hrep.pid] at hy hperm ⊢
    have hfind : a.sched.find (a.sched.pid p) ≠ none := by
      rw [h.ok.sched.wf.find_eq_some_iff.mpr ⟨hp, rfl⟩]
      nofun
    obtain ⟨y, hy', hyb⟩ := Option.map_eq_some_iff.mp hy
    have hzero : y.1 = 0 := by
      obtain ⟨c, s, -, rfl⟩ := Spec.Kernel.sendMessage_valid he hfind hy'
      rfl
    obtain ⟨rfl, rfl⟩ := Prod.mk.inj hyb
    have hawake := (h.ok.wakes_sendMessage hy').2 hzero
    rw [hzero] at hy ⊢
    refine ⟨rfl, h'.hasMessage_iff.mpr (h.ok.mail_of_send h.posted hperm hy), h'.awake_isReady hlive ?_⟩
    rwa [hpid]
  · rintro new rfl rfl
    obtain ⟨hmail, hpool⟩ := (h.ok.effect hy).tick h.ok
    constructor
    · intro e he
      apply h'.hasMessage_iff.mpr
      rw [hmail, h.rep.rx, Spec.Kernel.rx, hpool]
      exact ⟨List.mem_append_right _ he, rfl⟩
    · rintro ⟨e, he, hrx⟩
      apply h'.awake_isReady hlive
      have hawake := (h.ok.wakes_timer hy).2 e he
      rwa [← h.rep.rx, hrx, hrep.pid, ← hpid] at hawake
  · intro hout
    rw [hrep.pid]
    apply h.rousedBy
    rw [hrep'.state] at hout
    exact ((h.ok.rouses .mem hy).state p hs).resolve_left hout
  · intro hstill hset
    rw [hrep'.state] at hstill
    rw [hrep.pid] at hset
    refine ⟨_, h'.filed, ?_⟩
    rw [hl.unique h.filed]
    exact h.ok.holds (t := .mem) hy hstill hset

end Safe

/-- A message makes its receiver ready whatever it waits for. A process that waits for memory goes on doing so
until it gets a message, or a block is returned, or the functions of `core.c` are called directly; and until then it
keeps its place, unless it gets another priority. The operations are permitted ones: what is sent are used blocks that
are in no mailbox. Only that the message comes into the mailbox depends on this. -/
theorem message_wakes_waiter (hprio : ∀ i, priority i ≤ 4) (hboot : boot priority base = some k₀)
    (h : Run Kernel.Step k₀ es k) (hl : k.sched.Filed l) (hp : p ∈ k.sched.live)
    (hs : (k.sched.pcb p).state = .blockedMem) (hop : k.Permits op) (hcall : k.call op = some (reply, k')) :
    k.TreatsWaiter l p op reply k' := by
  obtain ⟨a, r, ha, -⟩ := Safe.of_run hprio hboot h
  exact ha.treatsWaiter hl hp hs hop hcall

/-- The keyboard decoder takes all blocks and waits for another one. -/
lemma exists_waiter : ∃ k₀ es k p k', boot (fun _ => 2) 4096 = some k₀ ∧ Run Kernel.Step k₀ es k ∧
    p ∈ k.sched.live ∧ (k.sched.pcb p).pid = 10 ∧ (k.sched.pcb p).state = .blockedMem ∧
    k.Permits (.send 10 4096) ∧ k.call (.send 10 4096) = some (.code 0, k') ∧ (k'.sched.pcb p).state = .ready := by
  obtain ⟨k₀, es, k, hboot, hrun, -, hcheck⟩ := exists_run_of_boot Kernel.Permits (fun _ => 2) 4096
    (List.replicate 31 .request)
    (fun _ k => ∃ p ∈ k.sched.live, (k.sched.pcb p).pid = 10 ∧ (k.sched.pcb p).state = .blockedMem ∧
      k.Permits (.send 10 4096) ∧ (k.call (.send 10 4096)).any fun x =>
        x.1 = .code 0 ∧ (x.2.sched.pcb p).state = .ready) (by decide +kernel)
  obtain ⟨p, hp, hpid, hs, hperm, hany⟩ := of_decide_eq_true hcheck
  obtain ⟨⟨reply, k'⟩, hcall, hafter⟩ := (Option.any_eq_true _ _).mp hany
  obtain ⟨rfl, hready⟩ := of_decide_eq_true hafter
  exact ⟨k₀, es, k, p, k', hboot, hrun, hp, hpid, hs, hperm, hcall, hready⟩

theorem message_wakes_waiter_decoder : ∃ k₀ es k p k' l, boot (fun _ => 2) 4096 = some k₀ ∧
    Run Kernel.Step k₀ es k ∧ k.sched.Filed l ∧ p ∈ k.sched.live ∧ (k.sched.pcb p).pid = 10 ∧
    (k.sched.pcb p).state = .blockedMem ∧ k.call (.send 10 4096) = some (.code 0, k') ∧
    k.TreatsWaiter l p (.send 10 4096) (.code 0) k' := by
  obtain ⟨k₀, es, k, p, k', hboot, hrun, hp, hpid, hs, hperm, hcall, -⟩ := exists_waiter
  obtain ⟨⟨l, hl⟩, -⟩ := queues_safe (fun _ => by decide) hboot hrun
  exact ⟨k₀, es, k, p, k', l, hboot, hrun, hl, hp, hpid, hs, hcall,
    message_wakes_waiter (fun _ => by decide) hboot hrun hl hp hs hperm hcall⟩

/-- The message takes it out of the queue although there is no block. -/
theorem waiter_woken : ¬ ∀ k₀ es k, boot (fun _ => 2) 4096 = some k₀ → Run Kernel.Step k₀ es k →
    ∀ p ∈ k.sched.live, (k.sched.pcb p).state = .blockedMem → ∀ e k',
      k.Permits (.send (k.sched.pcb p).pid e) → k.call (.send (k.sched.pcb p).pid e) = some (.code 0, k') →
        (k'.sched.pcb p).state = .blockedMem := by
  intro hall
  obtain ⟨k₀, es, k, p, k', hboot, hrun, hp, hpid, hs, hperm, hcall, hready⟩ := exists_waiter
  rw [← hpid] at hperm hcall
  have hstill := hall k₀ es k hboot hrun p hp hs 4096 k' hperm hcall
  rw [hready] at hstill
  cases hstill

end RtxKernel
