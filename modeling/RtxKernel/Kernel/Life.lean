import RtxKernel.Kernel.Ownership
import RtxKernel.Core.Life

/-!
# The life of a process

A process is started when the CPU is handed to it for the first time, and goes on whenever it gets the
CPU later. After its entry function has returned it never gets the CPU again, is in no queue, and cannot
be addressed (`process_life`).
-/

namespace RtxKernel

/-! ### When the processor is released -/

namespace Kernel

/-- `send_message` up to its call of `release_processor()`. -/
def sendReleased (k : Kernel) (processId : UInt32) (envelope : Nat) : Option (Option Scheduler) := do
  let (_, sent, k) ← k.sendSection processId envelope
  if sent then return Scheduler.onRelease (← k.sched.unblockByPidSection processId)
  else return none

/-- `block_process` of the running process, up to its call of `release_processor()`. -/
def blockReleased (k : Kernel) (t : BlockType) : Option (Option Scheduler) :=
  (k.sched.blockSection k.currentPid t).map Scheduler.onRelease

/-- The scheduler with which an operation calls `release_processor()`, if it does. -/
def released (k : Kernel) : Op → Option (Option Scheduler)
  | .releaseProcessor => some (some k.sched)
  | .block t => k.blockReleased t
  | .unblockByPid pid allow =>
    (k.sched.unblockByPidSection pid).map fun x => Scheduler.onRelease (x.1 && allow, x.2)
  | .unblockByType t => (k.sched.unblockByTypeSection t).map Scheduler.onRelease
  | .setPriority pid priority =>
    (k.sched.setPrioritySection pid priority).map fun x => Scheduler.onRelease x.2
  | .send pid envelope => k.sendReleased pid envelope
  | .delayedSend _ _ _ => some none
  | .receive =>
    match k.receiveScan with
    | (some _, _) => some none
    | (none, k) => k.blockReleased .msg
  | .request => if k.pool.areBlocksAvailable then some none else k.blockReleased .mem
  | .release a => do
    let (code, _) ← k.pool.releaseBlock a k.currentPid
    if code = 0 then return Scheduler.onRelease (← k.sched.unblockByTypeSection .mem) else return none
  | .store _ _ => some none
  | .terminate =>
    match k.sched.runningProcess with
    | some r => (k.sched.endProcess r).map some
    | none => none
  | .timer => do
    let (_, highestPriority, k) ←
      checkFrom (2 * memBlockCount) 0 4 [] { k with ticks := k.ticks + 1 }
    if highestPriority < (← k.sched.getProcessPriority k.currentPid) then return some k.sched
    else return none
  | .uart c =>
    if k.pool.areBlocksAvailable then do
      let (a, pool) ← k.pool.takeBlock k.currentPid
      let k := { k with pool := pool }
      let k := k.write (txField a) uartPid
      let k := k.write (rxField a) kcdPid
      (k.store (msgField a) c).sendReleased kcdPid a
    else some none

/-- What an operation dispatches, if it does. -/
def dispatched (k : Kernel) (op : Op) : Option (Option Dispatch) := do
  match ← k.released op with
  | none => return none
  | some s => return some (← s.dispatched)

/-- One step of a history in which the dispatches are recorded. -/
def LifeStep (k : Kernel) (x : Event × Option Dispatch) (k' : Kernel) : Prop :=
  k.StepIf Calls x.1 k' ∧ k.dispatched x.1.op = some x.2

end Kernel

/-- A call that names the process with this pid. -/
def Op.names (pid : UInt32) : Op → Prop
  | .send pid' _ | .delayedSend pid' _ _ => pid' = pid
  | .setPriority pid' _ => pid'.toUInt32 = pid
  | _ => False

/-- The process is not running and in no queue, and a call that names its pid is refused. -/
structure Kernel.Gone (k : Kernel) (p : PcbPtr) (pid : UInt32) : Prop where
  running : k.sched.runningProcess ≠ some p
  queue : ∀ q i l, Chain k.sched.next (k.sched.queue q i) l → p ∉ l
  refused : ∀ op : Op, op.names pid → ∃ c, c ≠ 0 ∧ k.call op = some (.code c, k)

/-- A process is started at its first dispatch, and at no other one. -/
def StartsOnce (ds : List Dispatch) : Prop :=
  ∀ pre d post, ds = pre ++ d :: post → (d.bootstrap = true ↔ ∀ d' ∈ pre, d'.process ≠ d.process)

/-- What the `release_processor()` of `main` dispatches. -/
def firstDispatch (priority : Fin 6 → UInt8) : Option Dispatch := do
  let s ← Scheduler.initializeProcesses priority
  { s with runningProcess := some s.mainProcess }.dispatched

lemma StartsOnce.snoc {ds : List Dispatch} {d : Dispatch} (h : StartsOnce ds)
    (hd : d.bootstrap = true ↔ ∀ d' ∈ ds, d'.process ≠ d.process) : StartsOnce (ds ++ [d]) := by
  intro pre x post hx
  rcases List.eq_nil_or_concat post with rfl | ⟨post', y, rfl⟩
  · obtain ⟨rfl, hdx⟩ := List.append_inj' hx rfl
    obtain rfl := List.singleton_inj.mp hdx
    exact hd
  · rw [List.concat_eq_append, ← List.cons_append, ← List.append_assoc] at hx
    exact h pre x post' (List.append_inj' hx rfl).1

/-! ### A call ends with at most one dispatch -/

namespace Kernel

variable {base : Nat} {k k' : Kernel} {a : Spec.Kernel} {r : PcbPtr}

/-- The timer loop wakes processes without a release of the processor. -/
lemma sameNew_deliver {i : Nat} {w : UInt32} {x : Nat × Nat × UInt32 × Kernel}
    (h : k.deliver i w = some x) : k.sched.SameNew x.2.2.2.sched := by
  rw [deliver] at h
  have hsched := k.sched_moveDue i
  generalize k.moveDue i = y at h hsched
  obtain ⟨j, next, k₁⟩ := y
  dsimp only at h hsched
  rw [← hsched]
  cases hj : k₁.mailbox j with
  | none =>
    rw [hj] at h
    cases h
  | some e =>
    rw [hj] at h
    obtain ⟨blocked, -, h⟩ := Option.bind_eq_some_iff.mp h
    split_ifs at h
    · obtain ⟨s, hs, h⟩ := Option.bind_eq_some_iff.mp h
      obtain ⟨v, -, h⟩ := Option.bind_eq_some_iff.mp h
      obtain ⟨z, hz, hs⟩ := Scheduler.unblockProcessByPid_some hs
      rw [Bool.and_false] at hs
      rw [← Option.some.inj h, withSched, ← Option.some.inj hs]
      exact .unblockByPidSection hz
    · rw [← Option.some.inj h]
      exact .refl _

lemma sameNew_checkFrom {n i : Nat} {w : UInt32} {moved : List Nat} {x : List Nat × UInt32 × Kernel}
    (h : checkFrom n i w moved k = some x) : k.sched.SameNew x.2.2.sched := by
  induction n generalizing i w moved k with
  | zero =>
    rw [checkFrom] at h
    split_ifs at h
    rw [← Option.some.inj h]
    exact .refl _
  | succ n ih =>
    rw [checkFrom] at h
    split_ifs at h
    · rw [← Option.some.inj h]
      exact .refl _
    · cases hi : k.delayedMailbox i with
      | none =>
        rw [hi] at h
        exact ih h
      | some e =>
        rw [hi] at h
        dsimp only at h
        split_ifs at h
        · obtain ⟨y, hy, h⟩ := Option.bind_eq_some_iff.mp h
          exact (sameNew_deliver hy).trans (ih h)
        · exact ih h

lemma ends_sendMessage {pid : UInt32} {e : Nat} {y : UInt32 × Kernel}
    (h : k.sendMessage pid e = some y) : k.sched.Ends (k.sendReleased pid e) y.2.sched := by
  obtain ⟨⟨code, sent, k₁⟩, hk₁, h⟩ := Option.bind_eq_some_iff.mp h
  have hsched := sched_sendSection hk₁
  dsimp only at h hsched
  rw [sendReleased, hk₁, ← hsched]
  cases sent with
  | false =>
    rw [← Option.some.inj h]
    exact .stays (.refl _)
  | true =>
    obtain ⟨s, hs, h⟩ := Option.bind_eq_some_iff.mp h
    obtain ⟨z, hz, hs⟩ := Scheduler.unblockProcessByPid_some hs
    rw [Bool.and_true] at hs
    rw [← Option.some.inj h]
    simp only [Option.bind_eq_bind, Option.bind_some, if_true, hz]
    exact .releaseIf (.unblockByPidSection hz) hs

lemma ends_timerIsr {y : List Nat × Kernel} (hy : k.timerIsr = some y) :
    k.sched.Ends (k.released .timer) y.2.sched := by
  obtain ⟨⟨moved, w, k₁⟩, hx, hy⟩ := Option.bind_eq_some_iff.mp hy
  obtain ⟨v, hv, hy⟩ := Option.bind_eq_some_iff.mp hy
  have hnew := sameNew_checkFrom hx
  rw [released, hx]
  dsimp only [Option.bind_eq_bind, Option.bind_some] at hy hnew hv ⊢
  rw [hv]
  dsimp only [Option.bind_some]
  split_ifs at hy ⊢
  · obtain ⟨s, hs, hy⟩ := Option.bind_eq_some_iff.mp hy
    rw [← Option.some.inj hy]
    exact .releases hnew.iff hs
  · rw [← Option.some.inj hy]
    exact .stays hnew

lemma ends_uartHandler {c : UInt8} {y : Option UInt32 × Kernel} (hy : k.uartHandler c = some y) :
    k.sched.Ends (k.released (.uart c)) y.2.sched := by
  rw [uartHandler] at hy
  rw [released]
  split_ifs at hy with hav
  · obtain ⟨⟨x, pool⟩, hp, hy⟩ := Option.bind_eq_some_iff.mp hy
    obtain ⟨z, hz, hy⟩ := Option.bind_eq_some_iff.mp hy
    rw [← Option.some.inj hy, if_pos hav, hp]
    exact ends_sendMessage hz
  · rw [← Option.some.inj hy, if_neg hav]
    exact .stays (.refl _)

end Kernel

namespace Sound

variable {base : Nat} {k k' : Kernel} {a : Spec.Kernel} {r : PcbPtr} {op : Op} {reply : Reply}

lemma running (h : Sound base k a r) : k.sched.runningProcess = some r ∧ r ∈ k.sched.live := by
  rw [h.rep.sched.running, h.rep.sched.live]
  exact ⟨h.ok.sched.running, h.ok.sched.wf.running_live r h.ok.sched.running⟩

lemma running_ne_new (h : Sound base k a r) : (k.sched.pcb r).state ≠ .new := by
  rw [h.rep.sched.state, h.ok.sched.ready]
  decide

lemma firstLevel_ne_new (h : Sound base k a r) (t : BlockType) :
    ∀ i p, k.sched.firstLevel t.queue = some (i, p) → (k.sched.pcb p).state ≠ .new := by
  intro i p hf hnew
  rw [h.rep.sched.firstLevel] at hf
  rw [h.rep.sched.state] at hnew
  obtain ⟨-, hq, -⟩ := h.ok.sched.wf.of_firstLevel hf
  rw [hnew] at hq
  cases t <;> cases hq

lemma ends_block (h : Sound base k a r) {t : BlockType} {s : Scheduler}
    (hs : k.sched.blockProcess k.currentPid t = some s) : k.sched.Ends (k.blockReleased t) s := by
  obtain ⟨x, hx, hs⟩ := Option.bind_eq_some_iff.mp hs
  rw [Kernel.blockReleased, hx]
  exact .releaseIf (.blockSection h.running.1 h.running_ne_new hx) hs

lemma ends_unblockByType (h : Sound base k a r) {t : BlockType} {s : Scheduler}
    (hs : k.sched.unblockProcessByType t = some s) :
    k.sched.Ends ((k.sched.unblockByTypeSection t).map Scheduler.onRelease) s := by
  obtain ⟨x, hx, hs⟩ := Option.bind_eq_some_iff.mp hs
  rw [hx]
  exact .releaseIf (.unblockByTypeSection (h.firstLevel_ne_new t) hx) hs

lemma ends_receiveMessage (h : Sound base k a r) {y : Option Nat × Kernel}
    (hy : k.receiveMessage = some y) : k.sched.Ends (k.released .receive) y.2.sched := by
  rw [Kernel.released]
  rw [Kernel.receiveMessage] at hy
  have hsched := k.sched_receiveScan
  generalize k.receiveScan = x at hy hsched
  obtain ⟨e, k₁⟩ := x
  dsimp only at hsched
  cases e with
  | some e =>
    rw [← Option.some.inj hy, ← hsched]
    exact .stays (.refl _)
  | none =>
    obtain ⟨s, hs, hy⟩ := Option.bind_eq_some_iff.mp hy
    rw [← Option.some.inj hy]
    dsimp only
    rw [Kernel.currentPid, hsched] at hs
    rw [Kernel.blockReleased, Kernel.currentPid, hsched]
    exact h.ends_block hs

lemma ends_requestMemoryBlock (h : Sound base k a r) {y : Option Nat × Kernel}
    (hy : k.requestMemoryBlock = some y) : k.sched.Ends (k.released .request) y.2.sched := by
  rw [Kernel.released]
  rw [Kernel.requestMemoryBlock] at hy
  split_ifs at hy with hav
  · obtain ⟨z, -, hy⟩ := Option.bind_eq_some_iff.mp hy
    rw [← Option.some.inj hy, if_pos hav]
    exact .stays (.refl _)
  · obtain ⟨s, hs, hy⟩ := Option.bind_eq_some_iff.mp hy
    rw [← Option.some.inj hy, if_neg hav]
    exact h.ends_block hs

lemma ends_releaseMemoryBlock (h : Sound base k a r) {x : Nat} {y : UInt32 × Kernel}
    (hy : k.releaseMemoryBlock x = some y) : k.sched.Ends (k.released (.release x)) y.2.sched := by
  obtain ⟨⟨code, pool⟩, hp, hy⟩ := Option.bind_eq_some_iff.mp hy
  rw [Kernel.released, hp]
  dsimp only [Option.bind_eq_bind, Option.bind_some] at hy ⊢
  split_ifs at hy ⊢ with hc
  · obtain ⟨s, hs, hy⟩ := Option.bind_eq_some_iff.mp hy
    rw [← Option.some.inj hy]
    have hends := h.ends_unblockByType hs
    rwa [Option.map_eq_bind] at hends
  · rw [← Option.some.inj hy]
    exact .stays (.refl _)

lemma ends_terminate (h : Sound base k a r) {s : Scheduler} (hs : k.sched.terminate = some s) :
    k.sched.Ends (k.released .terminate) s := by
  rw [Kernel.released]
  rw [Scheduler.terminate] at hs
  rw [h.running.1] at hs ⊢
  obtain ⟨s₁, hs₁, hs⟩ := Option.bind_eq_some_iff.mp hs
  dsimp only
  rw [hs₁]
  exact .releases (Scheduler.endProcess_new hs₁) hs

/-- A call releases the processor at most once, and it starts no process in another way. -/
theorem ends (h : Sound base k a r) (hcall : k.call op = some (reply, k')) :
    k.sched.Ends (k.released op) k'.sched := by
  cases op with
  | releaseProcessor =>
    obtain ⟨s, hs, hk'⟩ := Option.bind_eq_some_iff.mp hcall
    rw [← (Prod.mk.inj (Option.some.inj hk')).2]
    exact .releases (fun _ => Iff.rfl) hs
  | block t =>
    obtain ⟨s, hs, hk'⟩ := Option.bind_eq_some_iff.mp hcall
    rw [← (Prod.mk.inj (Option.some.inj hk')).2]
    exact h.ends_block hs
  | unblockByPid pid allow =>
    obtain ⟨s, hs, hk'⟩ := Option.bind_eq_some_iff.mp hcall
    obtain ⟨x, hx, hs⟩ := Scheduler.unblockProcessByPid_some hs
    rw [← (Prod.mk.inj (Option.some.inj hk')).2, Kernel.released, hx]
    have hnew := Scheduler.SameNew.unblockByPidSection hx
    exact .releaseIf (x := (x.1 && allow, x.2)) hnew hs
  | unblockByType t =>
    obtain ⟨s, hs, hk'⟩ := Option.bind_eq_some_iff.mp hcall
    rw [← (Prod.mk.inj (Option.some.inj hk')).2]
    exact h.ends_unblockByType hs
  | setPriority pid priority =>
    obtain ⟨⟨code, s⟩, hs, hk'⟩ := Option.bind_eq_some_iff.mp hcall
    obtain ⟨⟨code', u, s₁⟩, hx, hs⟩ := Option.bind_eq_some_iff.mp hs
    obtain ⟨s₂, hs₂, hs⟩ := Option.bind_eq_some_iff.mp hs
    rw [← (Prod.mk.inj (Option.some.inj hk')).2, Kernel.released, hx,
      ← (Prod.mk.inj (Option.some.inj hs)).2]
    exact .releaseIf (x := (u, s₁)) (.setPrioritySection hx) hs₂
  | send pid e =>
    obtain ⟨y, hy, hk'⟩ := Option.bind_eq_some_iff.mp hcall
    rw [← (Prod.mk.inj (Option.some.inj hk')).2]
    exact Kernel.ends_sendMessage hy
  | delayedSend pid e delay =>
    obtain ⟨y, hy, hk'⟩ := Option.bind_eq_some_iff.mp hcall
    rw [← (Prod.mk.inj (Option.some.inj hk')).2]
    rw [Kernel.sched_delayedSend hy]
    exact .stays (.refl _)
  | receive =>
    obtain ⟨y, hy, hk'⟩ := Option.bind_eq_some_iff.mp hcall
    rw [← (Prod.mk.inj (Option.some.inj hk')).2]
    exact h.ends_receiveMessage hy
  | request =>
    obtain ⟨y, hy, hk'⟩ := Option.bind_eq_some_iff.mp hcall
    rw [← (Prod.mk.inj (Option.some.inj hk')).2]
    exact h.ends_requestMemoryBlock hy
  | release x =>
    obtain ⟨y, hy, hk'⟩ := Option.bind_eq_some_iff.mp hcall
    rw [← (Prod.mk.inj (Option.some.inj hk')).2]
    exact h.ends_releaseMemoryBlock hy
  | store x v =>
    rw [← (Prod.mk.inj (Option.some.inj hcall)).2]
    exact .stays (.refl _)
  | terminate =>
    obtain ⟨s, hs, hk'⟩ := Option.bind_eq_some_iff.mp hcall
    rw [← (Prod.mk.inj (Option.some.inj hk')).2]
    exact h.ends_terminate hs
  | timer =>
    obtain ⟨y, hy, hk'⟩ := Option.bind_eq_some_iff.mp hcall
    rw [← (Prod.mk.inj (Option.some.inj hk')).2]
    exact Kernel.ends_timerIsr hy
  | uart c =>
    obtain ⟨y, hy, hk'⟩ := Option.bind_eq_some_iff.mp hcall
    rw [← (Prod.mk.inj (Option.some.inj hk')).2]
    exact Kernel.ends_uartHandler hy

/-- What an operation dispatches is what happens to the scheduler. -/
lemma records (h : Sound base k a r) (hcall : k.call op = some (reply, k')) :
    ∃ d, k.dispatched op = some d ∧ k.sched.Records k'.sched d := by
  rcases (h.ends hcall).records with ⟨ho, hrec⟩ | ⟨t, d, ho, hd, hrec⟩
  · exact ⟨none, by rw [Kernel.dispatched, ho]; rfl, hrec⟩
  · refine ⟨some d, ?_, hrec⟩
    rw [Kernel.dispatched, ho]
    simp only [Option.bind_eq_bind, Option.bind_some, hd]
    rfl

/-- A call that comes back is a step of a history with dispatches. -/
lemma lifeStep (h : Sound base k a r) (hcalls : k.Calls op) (hcall : k.call op = some (reply, k')) :
    ∃ d, k.LifeStep (⟨k.currentPid, op, reply⟩, d) k' := by
  obtain ⟨d, hd, -⟩ := h.records hcall
  exact ⟨d, ⟨rfl, hcalls, hcall⟩, hd⟩

/-- Every history is one with dispatches. -/
lemma exists_lifeRun {k₀ : Kernel} {es : List Event} (h₀ : Sound base k₀ a r)
    (h : Run (Kernel.StepIf Kernel.Calls) k₀ es k) :
    ∃ xs, Run Kernel.LifeStep k₀ xs k ∧ xs.map Prod.fst = es := by
  obtain ⟨-, xs, hxs⟩ : (∃ a r, Sound base k a r) ∧
      ∃ xs, Run Kernel.LifeStep k₀ xs k ∧ xs.map Prod.fst = es := by
    apply h.history (I := fun es k => (∃ a r, Sound base k a r) ∧
      ∃ xs, Run Kernel.LifeStep k₀ xs k ∧ xs.map Prod.fst = es)
    · exact ⟨⟨a, r, h₀⟩, [], .nil k₀, rfl⟩
    · rintro es k ⟨caller, op, reply⟩ k' ⟨⟨b, r', hs⟩, xs, hxs, hes⟩ ⟨rfl, hcalls, hcall⟩
      obtain ⟨c, r'', -, hs', -⟩ := hs.call hcalls hcall
      obtain ⟨d, hd⟩ := hs.lifeStep hcalls hcall
      exact ⟨⟨c, r'', hs'⟩, xs ++ [_], .snoc hxs hd, by simp [hes]⟩
  exact ⟨xs, hxs⟩

/-- A process that is no longer live is gone. -/
lemma gone (h : Sound base k a r) {p : PcbPtr} {pid : UInt32} (hp : p ∉ a.sched.live)
    (hpid : ∀ q ∈ a.sched.live, a.sched.pid q ≠ pid) : k.Gone p pid where
  running hr := by
    obtain rfl := Option.some.inj (h.running.1.symm.trans hr)
    exact hp (h.rep.sched.live ▸ h.running.2)
  queue q i l hl hpl := by
    rw [hl.unique (h.rep.sched.chain q i)] at hpl
    exact hp (h.ok.sched.wf.live_of_mem hpl)
  refused op hop := by
    have hf : a.sched.find pid = none := by
      apply Option.eq_none_iff_forall_ne_some.mpr
      intro q hq
      exact hpid q (h.ok.sched.wf.find_live hq) (h.ok.sched.wf.find_pid hq)
    have hproc := h.rep.sched.getProcessByPid h.ok.sched.wf.placed pid
    have hvalid := h.rep.sched.isPidValid h.ok.sched.wf.placed pid
    rw [hf] at hproc hvalid
    cases op with
    | send pid' e =>
      obtain rfl : pid' = pid := hop
      rw [Kernel.call, Kernel.sendMessage, Kernel.sendSection]
      split_ifs
      · exact ⟨2, by decide, rfl⟩
      · refine ⟨1, by decide, ?_⟩
        simp [hvalid]
    | delayedSend pid' e delay =>
      obtain rfl : pid' = pid := hop
      rw [Kernel.call, Kernel.delayedSend]
      split_ifs
      · exact ⟨2, by decide, rfl⟩
      · refine ⟨1, by decide, ?_⟩
        simp [hvalid]
    | setPriority pid' priority =>
      obtain rfl : pid'.toUInt32 = pid := hop
      rw [Kernel.call, Scheduler.setProcessPriority, Scheduler.setPrioritySection]
      split_ifs
      · exact ⟨2, by decide, rfl⟩
      · exact ⟨3, by decide, rfl⟩
      · refine ⟨4, by decide, ?_⟩
        rw [hproc]
        rfl
    | _ => cases hop

end Sound

/-! ### Histories -/

/-- What holds of every state that is reached with the dispatches `ds`. -/
structure Lives (base : Nat) (ds : List Dispatch) (k : Kernel) (a : Spec.Kernel) (r : PcbPtr) : Prop
    extends Sound base k a r where
  once : StartsOnce ds
  new : ∀ p ∈ k.sched.live, (k.sched.pcb p).state = .new ↔ ∀ d ∈ ds, d.process ≠ p

/-- In the state after start-up all processes are new, but for the one that `main` has started. -/
lemma boot_dispatch {priority : Fin 6 → UInt8} (hprio : ∀ i, priority i ≤ 4) {base : Nat} {k : Kernel}
    (hboot : boot priority base = some k) : ∃ d, firstDispatch priority = some d ∧
      k.sched.runningProcess = some d.process ∧ d.bootstrap = true ∧
      ∀ p ∈ k.sched.live, (k.sched.pcb p).state = .new ↔ d.process ≠ p := by
  obtain ⟨s, a, hs, hc⟩ := Created.empty.foldlM (initBlocks priority)
  rw [List.nil_append] at hc
  obtain ⟨t, b, r, ht, hrep, hr, hf, -⟩ := hc.start hprio
  have hcount : s.pcbCount = (initBlocks priority).length := hc.rep.count.trans hc.count
  have hinit : Scheduler.initializeProcesses priority =
      some { s.setPcb (initBlocks priority).length ⟨noPid, .ready, noPid, none⟩ with
        pcbCount := (initBlocks priority).length + 1
        mainProcess := (initBlocks priority).length } := by
    rw [Scheduler.initializeProcesses, hs, ← hcount]
    rfl
  have hk : k.sched = t := by
    rw [boot, hinit] at hboot
    obtain ⟨s', hs', hboot⟩ := Option.bind_eq_some_iff.mp hboot
    obtain ⟨t', ht', hboot⟩ := Option.bind_eq_some_iff.mp hboot
    obtain rfl := Option.some.inj hs'
    obtain rfl := Option.some.inj (ht.symm.trans ht')
    rw [← Option.some.inj hboot]
  obtain ⟨d, hd, hrun, hstart, hnew⟩ := Scheduler.procSwitchHandler_new ht
  rw [hk]
  -- before the switch all processes are new
  have hall : ∀ p ∈ t.live, ((s.setPcb (initBlocks priority).length
      ⟨noPid, .ready, noPid, none⟩).pcb p).state = .new := by
    intro p hp
    rw [hrep.live] at hp
    exact (hc.addMain.state p).trans (hc.fields_addMain (hc.mem_live.mp (hf.live hp))).2
  have hlive : d.process ∈ t.live := by
    obtain rfl : r = d.process := Option.some.inj ((hrep.running.trans hr.running).symm.trans hrun)
    rw [hrep.live]
    exact hr.wf.running_live _ hr.running
  refine ⟨d, ?_, hrun, hstart.mpr (hall _ hlive), ?_⟩
  · rw [firstDispatch, hinit]
    exact hd
  · intro p hp
    rw [hnew p, and_iff_left (hall p hp), ne_comm]

namespace Lives

variable {priority : Fin 6 → UInt8} {base : Nat} {k₀ k k' : Kernel} {a : Spec.Kernel} {r : PcbPtr}
  {ds : List Dispatch} {d : Dispatch} {x : Event × Option Dispatch}
  {es : List (Event × Option Dispatch)} {p : PcbPtr} {pid : UInt32}

lemma boot (hprio : ∀ i, priority i ≤ 4) (hboot : RtxKernel.boot priority base = some k₀)
    (hd : firstDispatch priority = some d) : ∃ a r, Lives base [d] k₀ a r := by
  obtain ⟨a, r, hs, -⟩ := Safe.boot hprio hboot
  obtain ⟨d', hd', -, hstart, hnew⟩ := boot_dispatch hprio hboot
  obtain rfl := Option.some.inj (hd'.symm.trans hd)
  refine ⟨a, r, hs.toSound, ?_, ?_⟩
  · have hempty : StartsOnce [] := by
      intro pre y post hy
      simp at hy
    exact hempty.snoc (by simpa using hstart)
  · intro q hq
    rw [hnew q hq]
    simp

/-- What a step records is what it does. -/
lemma records (h : Lives base ds k a r) (hs : k.LifeStep x k') : k.sched.Records k'.sched x.2 := by
  obtain ⟨d, hd, hrec⟩ := h.toSound.records hs.1.2.2
  obtain rfl := Option.some.inj (hs.2.symm.trans hd)
  exact hrec

/-- A step makes at most one dispatch, of the process that then runs. -/
lemma step (h : Lives base ds k a r) (hs : k.LifeStep x k') : ∃ b r',
    a.call x.1.op = some (x.1.reply, b) ∧ Lives base (ds ++ x.2.toList) k' b r' ∧
      a.sched.Frame b.sched ∧ ∀ d ∈ x.2, d.process ∈ b.sched.live := by
  have hrec := h.records hs
  obtain ⟨⟨-, hz, hcall⟩, -⟩ := hs
  obtain ⟨b, r', hb, hs', hframe, -⟩ := h.toSound.call hz hcall
  have hlive : ∀ q ∈ k'.sched.live, q ∈ k.sched.live := by
    intro q hq
    rw [hs'.rep.sched.live] at hq
    rw [h.rep.sched.live]
    exact hframe.live hq
  refine ⟨b, r', hb, ?_⟩
  cases hx : x.2 with
  | none =>
    rw [hx] at hrec
    obtain ⟨-, hnew⟩ := hrec
    refine ⟨⟨hs', by simpa using h.once, ?_⟩, hframe, by simp⟩
    intro q hq
    rw [hnew q]
    simpa using h.new q (hlive q hq)
  | some d =>
    rw [hx] at hrec
    obtain ⟨hrun, hstart, hnew, -⟩ := hrec
    obtain rfl : r' = d.process := Option.some.inj (hs'.running.1.symm.trans hrun)
    have hlive' := hlive _ hs'.running.2
    refine ⟨⟨hs', h.once.snoc ?_, ?_⟩, hframe, ?_⟩
    · rw [hstart, h.new _ hlive']
    · intro q hq
      rw [hnew q, h.new q (hlive q hq), Option.toList_some, List.forall_mem_append,
        List.forall_mem_singleton, and_comm]
      exact and_congr_right fun _ => ne_comm
    · intro d' hd'
      obtain rfl := Option.some.inj hd'
      exact hs'.rep.sched.live ▸ hs'.running.2

lemma of_run (h : Lives base ds k₀ a r) (hrun : Run Kernel.LifeStep k₀ es k) :
    ∃ b r', Lives base (ds ++ es.filterMap Prod.snd) k b r' := by
  apply hrun.history (I := fun es k => ∃ b r', Lives base (ds ++ es.filterMap Prod.snd) k b r')
  · exact ⟨a, r, by simpa using h⟩
  · rintro es k x k' ⟨b, r', h'⟩ hs
    obtain ⟨c, r'', -, hc, -⟩ := h'.step hs
    refine ⟨c, r'', ?_⟩
    have hsnd : (es ++ [x]).filterMap Prod.snd = es.filterMap Prod.snd ++ x.2.toList := by
      rw [List.filterMap_append]
      cases hx : x.2 <;> simp [hx]
    rwa [hsnd, ← List.append_assoc]

/-- The process that ends is not live any more, and its pid is that of no live process. -/
lemma terminate (h : Lives base ds k a r) (hs : k.LifeStep x k') (hop : x.1.op = .terminate) :
    ∃ b r', Lives base (ds ++ x.2.toList) k' b r' ∧ r ∉ b.sched.live ∧
      (∀ q ∈ b.sched.live, b.sched.pid q ≠ x.1.caller) ∧ ∀ d ∈ x.2, d.process ≠ r := by
  obtain ⟨b, r', hb, h', -, hd⟩ := h.step hs
  rw [hop] at hb
  obtain ⟨s, hs', hb⟩ := Option.map_eq_some_iff.mp hb
  have hw := h.ok.sched.terminate_wakes hs'
  obtain rfl : a.withSched s = b := (Prod.mk.inj hb).2
  have hr : r ∉ s.live := by
    rw [hw.live]
    exact Finset.notMem_erase r _
  refine ⟨_, r', h', hr, ?_, ?_⟩
  · intro q hq hpid
    rw [hs.1.1, h.rep.currentPid, h.ok.currentPid, Spec.Kernel.withSched_sched, hw.pid] at hpid
    rw [Spec.Kernel.withSched_sched, hw.live, Finset.mem_erase] at hq
    exact hq.1 (h.ok.sched.wf.pid_inj q hq.2 r (h.ok.sched.wf.running_live r h.ok.sched.running) hpid)
  · rintro d hd' rfl
    exact hr (hd d hd')

/-- A process that has ended stays so. -/
lemma gone_of_run (h : Lives base ds k₀ a r) (hp : p ∉ a.sched.live)
    (hpid : ∀ q ∈ a.sched.live, a.sched.pid q ≠ pid) (hrun : Run Kernel.LifeStep k₀ es k) :
    k.Gone p pid ∧ ∀ y ∈ es, ∀ d ∈ y.2, d.process ≠ p := by
  obtain ⟨ds', b, r', h', hp', hpid', hes⟩ : ∃ ds b r', Lives base ds k b r' ∧ p ∉ b.sched.live ∧
      (∀ q ∈ b.sched.live, b.sched.pid q ≠ pid) ∧ ∀ y ∈ es, ∀ d ∈ y.2, d.process ≠ p := by
    apply hrun.history (I := fun es k => ∃ ds b r', Lives base ds k b r' ∧ p ∉ b.sched.live ∧
      (∀ q ∈ b.sched.live, b.sched.pid q ≠ pid) ∧ ∀ y ∈ es, ∀ d ∈ y.2, d.process ≠ p)
    · exact ⟨ds, a, r, h, hp, hpid, by simp⟩
    · rintro es k x k' ⟨ds, b, r', h', hp', hpid', hes⟩ hs
      obtain ⟨c, r'', -, hc, hframe, hd⟩ := h'.step hs
      refine ⟨_, c, r'', hc, fun hpc => hp' (hframe.live hpc), ?_, ?_⟩
      · intro q hq
        rw [hframe.pid]
        exact hpid' q (hframe.live hq)
      · intro y hy d hdy
        rcases List.mem_append.mp hy with hy | hy
        · exact hes y hy d hdy
        · obtain rfl := List.mem_singleton.mp hy
          rintro rfl
          exact hp' (hframe.live (hd d hdy))
  exact ⟨h'.toSound.gone hp' hpid', hes⟩

end Lives

variable {priority : Fin 6 → UInt8} {base : Nat} {k₀ k : Kernel} {es : List (Event × Option Dispatch)}

/-- A process is started at its first dispatch and at no other one. After its end it is not dispatched,
it is in no queue, and a call that names its pid is refused and changes nothing. What is recorded is what happens: the
process of a recorded dispatch runs after the step and was `new` if it is started, and where nothing is recorded the
running process has stayed. -/
theorem process_life (hprio : ∀ i, priority i ≤ 4) (hboot : boot priority base = some k₀)
    (h : Run Kernel.LifeStep k₀ es k) :
    (∃ d, firstDispatch priority = some d ∧ k₀.sched.runningProcess = some d.process ∧
      (∀ p ∈ k₀.sched.live, (k₀.sched.pcb p).state = .new ↔ d.process ≠ p) ∧
      StartsOnce (d :: es.filterMap Prod.snd)) ∧
    (∀ es₁ x es₂, es = es₁ ++ x :: es₂ → ∃ k₁ k₂, Run Kernel.LifeStep k₀ es₁ k₁ ∧ k₁.LifeStep x k₂ ∧
      Run Kernel.LifeStep k₂ es₂ k ∧ k₁.sched.Records k₂.sched x.2) ∧
    (∀ es₁ x es₂, es = es₁ ++ x :: es₂ → x.1.op = .terminate → ∃ k₁ p,
      Run Kernel.LifeStep k₀ es₁ k₁ ∧ k₁.sched.runningProcess = some p ∧ k.Gone p x.1.caller ∧
        ∀ y ∈ x :: es₂, ∀ d ∈ y.2, d.process ≠ p) ∧
    ∀ op reply k', k.Calls op → k.call op = some (reply, k') →
      ∃ d, k.LifeStep (⟨k.currentPid, op, reply⟩, d) k' := by
  obtain ⟨d, hd, hfirst, -, hnew⟩ := boot_dispatch hprio hboot
  obtain ⟨a, r, h₀⟩ := Lives.boot hprio hboot hd
  obtain ⟨b, r', hk⟩ := h₀.of_run h
  refine ⟨⟨d, hd, hfirst, hnew, hk.once⟩, ?_, ?_, ?_⟩
  · rintro es₁ x es₂ rfl
    obtain ⟨k₁, h₁, h₂⟩ := h.split
    obtain ⟨k₂, hx, h₂⟩ := h₂.head
    obtain ⟨c, p, hk₁⟩ := h₀.of_run h₁
    exact ⟨k₁, k₂, h₁, hx, h₂, hk₁.records hx⟩
  · rintro es₁ x es₂ rfl hop
    obtain ⟨k₁, h₁, h₂⟩ := h.split
    obtain ⟨k₂, hx, h₂⟩ := h₂.head
    obtain ⟨c, p, hk₁⟩ := h₀.of_run h₁
    obtain ⟨c', p', hk₂, hp, hpid, hx'⟩ := hk₁.terminate hx hop
    obtain ⟨hgone, hes₂⟩ := hk₂.gone_of_run hp hpid h₂
    refine ⟨k₁, p, h₁, hk₁.toSound.running.1, hgone, ?_⟩
    intro y hy
    rcases List.mem_cons.mp hy with rfl | hy
    · exact hx'
    · exact hes₂ y hy
  · intro op reply k'
    exact hk.toSound.lifeStep

/-- Process 11 sends to process 10, which waits, and ends; then process 10 goes on. -/
theorem process_life_after_end : ∃ k₀ es k, boot (fun _ => 2) 4096 = some k₀ ∧
    Run Kernel.LifeStep k₀ es k ∧ es.map (fun x => x.1.op) = [.receive, .request, .send 10 4096,
      .terminate, .receive, .receive, .receive, .receive] ∧ k.currentPid = 10 ∧
    (∃ d, firstDispatch (fun _ => 2) = some d ∧ k₀.sched.runningProcess = some d.process ∧
      (∀ p ∈ k₀.sched.live, (k₀.sched.pcb p).state = .new ↔ d.process ≠ p) ∧
      StartsOnce (d :: es.filterMap Prod.snd)) ∧
    (∀ es₁ x es₂, es = es₁ ++ x :: es₂ → ∃ k₁ k₂, Run Kernel.LifeStep k₀ es₁ k₁ ∧ k₁.LifeStep x k₂ ∧
      Run Kernel.LifeStep k₂ es₂ k ∧ k₁.sched.Records k₂.sched x.2) ∧
    (∀ es₁ x es₂, es = es₁ ++ x :: es₂ → x.1.op = .terminate → ∃ k₁ p,
      Run Kernel.LifeStep k₀ es₁ k₁ ∧ k₁.sched.runningProcess = some p ∧ k.Gone p x.1.caller ∧
        ∀ y ∈ x :: es₂, ∀ d ∈ y.2, d.process ≠ p) ∧
    ∀ op reply k', k.Calls op → k.call op = some (reply, k') →
      ∃ d, k.LifeStep (⟨k.currentPid, op, reply⟩, d) k' := by
  obtain ⟨k₀, es, k, hboot, hrun, hops, hcur⟩ := exists_run_of_boot Kernel.Calls (fun _ => 2) 4096
    [.receive, .request, .send 10 4096, .terminate, .receive, .receive, .receive, .receive]
    (fun _ k => k.currentPid = 10) (by decide +kernel)
  obtain ⟨a, r, hs, -⟩ := Safe.boot (fun _ => by decide) hboot
  obtain ⟨xs, hxs, rfl⟩ := hs.toSound.exists_lifeRun hrun
  refine ⟨k₀, xs, k, hboot, hxs, ?_, of_decide_eq_true hcur,
    process_life (fun _ => by decide) hboot hxs⟩
  rwa [List.map_map] at hops

end RtxKernel
