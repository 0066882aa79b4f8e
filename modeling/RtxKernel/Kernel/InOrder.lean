import RtxKernel.Kernel.Mailed
import RtxKernel.Kernel.Requests

/-!
# Memory waiters are served in order

Of two processes that wait in `request_memory_block` one leads: the more urgent one, or of two with one priority the
one that has blocked first. Every operation keeps this (`Ok.leads`), so that its request returns first, as long as it
finds a block when it tests again. If the block has been taken in the meantime it blocks again, behind the other one.
-/

namespace RtxKernel

open Spec (Sched)

namespace Spec.Kernel

open Sched (Behind Contend Leads)

variable {a b : Kernel} {base : Nat} {r p q : PcbPtr} {op : Op} {reply : Reply}

lemma behind_wakeReceiver (h : a.sched.Steady r) (hc : Contend p q r a.sched) (hb : Behind p q a.sched)
    {pid w : UInt32} {x : UInt32 × Kernel} (hx : a.wakeReceiver pid w = some x)
    (hmem : a.sched.pid q = pid → a.sched.state q = .blockedMem → a.sched.state p ≠ .blockedMem) :
    Contend p q r x.2.sched ∧ Behind p q x.2.sched := by
  rcases wakeReceiver_cases h pid w with he | ⟨y, hy, hpid, hblocked, he⟩
  · obtain rfl := Option.some.inj (he.symm.trans hx)
    exact ⟨hc, hb⟩
  · obtain rfl := Option.some.inj (he.symm.trans hx)
    refine ⟨hc.wake, h.behind_wake hc hb hblocked ?_⟩
    rintro rfl
    exact hmem hpid (Sched.blockedMem_of_isBlocked hblocked hc.second.2.2)

/-- The loop of the timer wakes the receivers of the messages that it moves. -/
lemma Ok.behind_checkFrom (h : a.Ok base r) {n i : Nat} {w : UInt32} {moved : List Nat}
    {x : List Nat × UInt32 × Kernel} (hx : checkFrom n i w moved a = some x) (hc : Contend p q r a.sched)
    (hb : Behind p q a.sched) : ∃ new, x.1 = moved ++ new ∧
      ((∀ e ∈ new, a.sched.pid q = a.rx e → a.sched.state q = .blockedMem → a.sched.state p ≠ .blockedMem) →
        Behind p q x.2.2.sched) := by
  induction n generalizing i w moved a with
  | zero =>
    rw [checkFrom] at hx
    split_ifs at hx
    obtain rfl := Option.some.inj hx
    exact ⟨[], by simp, fun _ => hb⟩
  | succ n ih =>
    rw [checkFrom] at hx
    split_ifs at hx
    · obtain rfl := Option.some.inj hx
      exact ⟨[], by simp, fun _ => hb⟩
    cases hi : a.delayed[i]? with
    | none =>
      rw [hi] at hx
      exact ih h hx hc hb
    | some e =>
      rw [hi] at hx
      dsimp only at hx
      split_ifs at hx with hdue
      · obtain ⟨y, hy, hx⟩ := Option.bind_eq_some_iff.mp hx
        obtain ⟨he, -, -, hmv⟩ := deliver_moves h.sched hi (by simpa [isDue] using hdue) hy
        have hok := ((h.sweeps w).deliver hy).ok
        have hrx : y.2.2.2.rx = a.rx := by
          funext z
          rw [Kernel.rx, hmv.pool]
          rfl
        rw [deliver] at hy
        split_ifs at hy
        obtain ⟨z, hz, rfl⟩ := Option.map_eq_some_iff.mp hy
        obtain ⟨new, hnew, -⟩ := hok.wakes_checkFrom hx
        obtain ⟨hw, -⟩ := wakes_wakeReceiver (a := a.move e i) h.sched hz
        refine ⟨e :: new, by simpa using hnew, ?_⟩
        intro hmem
        obtain ⟨hc', hb'⟩ := behind_wakeReceiver (a := a.move e i) h.sched hc hb hz (hmem e (by simp))
        obtain ⟨new', hnew', hlater⟩ := ih hok hx hc' hb'
        obtain rfl : new = new' := List.append_cancel_left (hnew.symm.trans hnew')
        apply hlater
        -- whoever waits now has waited before
        intro e' he' hpid hq hp
        rw [hrx, hw.pid] at hpid
        refine hmem e' (by simp [he']) hpid ?_ ?_
        · exact (hw.state q (by rw [hq]; rfl)).symm.trans hq
        · exact (hw.state p (by rw [hp]; rfl)).symm.trans hp
      · exact ih h hx hc hb

lemma Ok.leads_sendMessage (h : a.Ok base r) (hc : Contend p q r a.sched) (hb : Behind p q a.sched) {pid : UInt32}
    {e : Nat} {y : UInt32 × Kernel} (hy : a.sendMessage pid e = some y)
    (hmem : y.1 = 0 → a.sched.pid q = pid → a.sched.state q = .blockedMem → a.sched.state p ≠ .blockedMem) :
    Leads p q y.2.sched := by
  rw [Kernel.sendMessage] at hy
  obtain ⟨x, hx, hy⟩ := Option.bind_eq_some_iff.mp hy
  rcases sendSection_cases hx with ⟨-, c, -, rfl⟩ | ⟨-, b, hb', rfl⟩
  · obtain rfl := Option.some.inj hy
    exact h.sched.leads hc hb
  · obtain ⟨-, hs⟩ := h.address hb'
    obtain ⟨s, hs', hy⟩ := Option.bind_eq_some_iff.mp hy
    obtain rfl := Option.some.inj hy
    rw [hs] at hs'
    exact h.sched.leads_unblockByPid hc hb hs' (hmem rfl)

lemma Ok.leads_timer (h : a.Ok base r) (hc : Contend p q r a.sched) (hb : Behind p q a.sched)
    {x : List Nat × Kernel} (hx : a.timerIsr = some x)
    (hmem : ∀ e ∈ x.1, a.sched.pid q = a.rx e → a.sched.state q = .blockedMem → a.sched.state p ≠ .blockedMem) :
    Leads p q x.2.sched := by
  obtain ⟨⟨new, w, b⟩, hloop, rfl⟩ := Option.map_eq_some_iff.mp hx
  have hok := h.withTicks (a.ticks + 1)
  have hok' : b.Ok base r := ((hok.sweeps 4).checkFrom hloop).ok
  obtain ⟨new', hnew, hlater⟩ := hok.behind_checkFrom hloop hc hb
  obtain rfl : new = new' := hnew
  have hb' : Behind p q b.sched := hlater hmem
  have hne : b.sched.running ≠ some q := hok'.sched.running_ne hc.second.2.1.symm
  dsimp only
  split_ifs
  · exact hb'.procSwitch hok'.sched.wf fun hrun => absurd hrun hne
  · exact .inr ⟨hne, hb'⟩

/-- Whoever leads goes on doing so, as long as the other one is not woken by a message while he waits. -/
theorem Ok.leads (h : a.Ok base r) (hz : op.isInterrupt = false → a.sched.pid r ≠ 0) (hop : op.isPrimitive = true)
    (hy : a.call op = some (reply, b)) (hc : Contend p q r a.sched) (hb : Behind p q a.sched)
    (hkeep : b.sched.priority p = a.sched.priority p ∧ b.sched.priority q = a.sched.priority q ∨
      b.sched.priority p < b.sched.priority q)
    (hun : a.sched.state p = .blockedMem → a.sched.state q = .blockedMem → a.RousedBy .mem q op reply →
      (Event.mk a.sched.currentPid op reply).gives = true) : Leads p q b.sched := by
  have hrq : r ≠ q := hc.second.2.1
  cases op with
  | block t => cases hop
  | unblockByPid pid allow => cases hop
  | unblockByType t => cases hop
  | receive =>
    obtain ⟨-, rfl⟩ := Prod.mk.inj (Option.some.inj hy)
    rcases receiveScan_cases a with ⟨-, he⟩ | ⟨i, e, -, -, -, he⟩
    · rw [he]
      exact h.sched.leads_block (hz rfl) (hb.sleep hrq)
    · rw [he]
      exact h.sched.leads hc hb
  | request =>
    obtain ⟨-, rfl⟩ := Prod.mk.inj (Option.some.inj hy)
    rw [Kernel.requestMemoryBlock]
    cases a.pool.take a.sched.currentPid with
    | none => exact h.sched.leads_block (hz rfl) (hb.sleep hrq)
    | some x => exact h.sched.leads hc hb
  | terminate =>
    obtain ⟨s, hs, hb'⟩ := Option.map_eq_some_iff.mp hy
    obtain ⟨-, rfl⟩ := Prod.mk.inj hb'
    exact h.sched.leads_terminate (hz rfl) hb hs
  | releaseProcessor =>
    obtain ⟨-, rfl⟩ := Prod.mk.inj (Option.some.inj hy)
    exact hb.procSwitch h.sched.wf fun hrun => absurd hrun (h.sched.running_ne hrq.symm)
  | setPriority pid w =>
    obtain ⟨x, hx, hb'⟩ := Option.map_eq_some_iff.mp hy
    obtain ⟨-, rfl⟩ := Prod.mk.inj hb'
    exact h.sched.leads_setProcessPriority (hz rfl) hc hb hx hkeep
  | send pid e =>
    obtain ⟨x, hx, hb'⟩ := Option.map_eq_some_iff.mp hy
    obtain ⟨rfl, rfl⟩ := Prod.mk.inj hb'
    apply h.leads_sendMessage hc hb hx
    intro hzero hpid hq hp
    cases hun hp hq ⟨hzero, hpid⟩
  | delayedSend pid e delay =>
    obtain ⟨x, hx, hb'⟩ := Option.map_eq_some_iff.mp hy
    obtain ⟨-, rfl⟩ := Prod.mk.inj hb'
    rcases delayedSend_cases hx with ⟨c, -, rfl⟩ | ⟨-, d, hd, rfl⟩
    · exact h.sched.leads hc hb
    · change Leads p q d.sched
      rw [(h.address hd).2]
      exact h.sched.leads hc hb
  | release x =>
    obtain ⟨z, hz, hb'⟩ := Option.map_eq_some_iff.mp hy
    obtain ⟨-, rfl⟩ := Prod.mk.inj hb'
    rw [Kernel.releaseMemoryBlock] at hz
    dsimp only at hz
    split_ifs at hz
    · obtain ⟨s, hs, rfl⟩ := Option.map_eq_some_iff.mp hz
      exact h.sched.leads_unblockByType hc hb hs
    · obtain rfl := Option.some.inj hz
      exact h.sched.leads hc hb
  | store x w =>
    obtain ⟨-, rfl⟩ := Prod.mk.inj (Option.some.inj hy)
    exact h.sched.leads hc hb
  | timer =>
    obtain ⟨x, hx, hb'⟩ := Option.map_eq_some_iff.mp hy
    obtain ⟨rfl, rfl⟩ := Prod.mk.inj hb'
    apply h.leads_timer hc hb hx
    intro e he hpid hq hp
    cases hun hp hq ⟨e, he, hpid.symm⟩
  | uart c =>
    obtain ⟨x, hx, hb'⟩ := Option.map_eq_some_iff.mp hy
    obtain ⟨rfl, rfl⟩ := Prod.mk.inj hb'
    obtain rfl | ⟨q, x, z, hok, hz, rfl⟩ := h.uartHandler_cases hx
    · exact h.sched.leads hc hb
    · apply hok.leads_sendMessage hc hb hz
      intro hzero hpid hq hp
      cases hun hp hq ⟨congrArg some hzero, hpid⟩

end Spec.Kernel

/-! ### In the code -/

/-- The call returns a block. -/
def Event.isGrant (e : Event) : Bool :=
  match e.op, e.reply with
  | .request, .block (some _) => true
  | _, _ => false

/-- A call of `request_memory_block` returns a block to the process `pid`. -/
def Event.Returns (e : Event) (pid : UInt32) : Prop := e.IsOf pid ∧ e.isGrant = true

/-- A call of `request_memory_block` blocks the process `pid`. -/
def Event.Blocks (e : Event) (pid : UInt32) : Prop := e.IsOf pid ∧ e.isWait = true

instance (e : Event) (pid : UInt32) : Decidable (e.Returns pid) :=
  inferInstanceAs (Decidable (e.IsOf pid ∧ e.isGrant = true))

instance (e : Event) (pid : UInt32) : Decidable (e.Blocks pid) :=
  inferInstanceAs (Decidable (e.IsOf pid ∧ e.isWait = true))

namespace Traced

/-- Of two processes in `request_memory_block` the process `p` comes first: it is the more urgent one while both
wait; or it is not the less urgent one, and was there already when `q` has blocked. -/
inductive First (s : Traced) (p q : PcbPtr) : Prop
  | urgent (hp : (s.kernel.sched.pcb p).state = .blockedMem) (hq : (s.kernel.sched.pcb q).state = .blockedMem)
      (hlt : (s.kernel.sched.pcb p).priority < (s.kernel.sched.pcb q).priority)
  | earlier (es : List Event) (he : s.history = es ++ [⟨(s.kernel.sched.pcb q).pid, .request, .block none⟩])
      (hle : (s.kernel.sched.pcb p).priority ≤ (s.kernel.sched.pcb q).priority)

/-- A step after which `p` and `q` have the priorities they had, or `p` is the more urgent one, and in which no
message wakes `q` while `p` waits. -/
structure StepKeeping (p q : PcbPtr) (s : Traced) (e : Event) (t : Traced) : Prop where
  step : s.Step e t
  priority : (t.kernel.sched.pcb p).priority = (s.kernel.sched.pcb p).priority ∧
      (t.kernel.sched.pcb q).priority = (s.kernel.sched.pcb q).priority ∨
    (t.kernel.sched.pcb p).priority < (t.kernel.sched.pcb q).priority
  unwoken : (s.kernel.sched.pcb p).state = .blockedMem → (s.kernel.sched.pcb q).state = .blockedMem →
    s.kernel.RousedBy (s.kernel.sched.pcb q).pid e.op e.reply → e.gives = true

lemma Step.det {s t u : Traced} {e : Event} (h : s.Step e t) (h' : s.Step e u) : t = u := by
  obtain ⟨⟨-, -, hcall⟩, hhist, -⟩ := h
  obtain ⟨⟨-, -, hcall'⟩, hhist', -⟩ := h'
  have hkernel := congrArg Prod.snd (Option.some.inj (hcall.symm.trans hcall'))
  cases t
  cases u
  obtain rfl := hkernel
  obtain rfl := hhist.trans hhist'.symm
  rfl

end Traced

/-- Both processes are in `request_memory_block`, and `p` leads. -/
structure Lined (base : Nat) (p q : PcbPtr) (s : Traced) (a : Spec.Kernel) (r : PcbPtr) : Prop
    extends Waited base s a r where
  ne : p ≠ q
  live : p ∈ a.sched.live ∧ q ∈ a.sched.live
  requests : requesting (a.sched.pid p) s.history = true ∧ requesting (a.sched.pid q) s.history = true
  leads : Sched.Leads p q a.sched

section InOrder

variable {priority : Fin 6 → UInt8} {base : Nat} {k₀ : Kernel} {a b : Spec.Kernel} {r r' p q : PcbPtr}
  {es es' : List Event} {e : Event} {s s' t : Traced}

/-- A process that is in `request_memory_block` makes no other call. -/
lemma Waited.Next.stays (hn : Waited.Next base s a r e t b r') (h : Waited base s a r)
    (hp : p ∈ a.sched.live) (hreq : requesting (a.sched.pid p) s.history = true)
    (hret : ¬ e.Returns (a.sched.pid p)) (hblock : ¬ e.Blocks (a.sched.pid p)) :
    r ≠ p ∧ p ∈ b.sched.live ∧ b.sched.pid p = a.sched.pid p ∧ requesting (b.sched.pid p) t.history = true := by
  obtain ⟨caller, op, reply⟩ := e
  obtain rfl : caller = a.sched.currentPid := hn.caller
  have hrp : r ≠ p := by
    rintro rfl
    have hgoes := hn.goes
    rw [h.ok.currentPid] at hgoes
    obtain rfl : op = .request := hgoes hreq
    cases reply with
    | block o =>
      cases o with
      | some x => exact hret ⟨⟨h.ok.currentPid, rfl⟩, rfl⟩
      | none => exact hblock ⟨⟨h.ok.currentPid, rfl⟩, rfl⟩
    | _ => cases Option.some.inj hn.call
  have hcaller : a.sched.pid p ≠ a.sched.currentPid := by
    intro hpid
    exact hrp (h.ok.sched.wf.pid_inj p hp r (h.ok.sched.wf.running_live r h.ok.sched.running)
      (hpid.trans h.ok.currentPid)).symm
  obtain ⟨hlive, hpid⟩ := h.ok.live_step hn.call hp fun _ => hcaller
  refine ⟨hrp, hlive, hpid, ?_⟩
  rw [hpid, hn.history, requesting_snoc, if_neg]
  · exact hreq
  · rintro ⟨hof, -⟩
    exact hcaller hof.symm

namespace Lined

lemma step (h : Lined base p q s a r) (hs : s.StepKeeping p q e t) (hret : ¬ e.Returns (a.sched.pid p))
    (hblock : ¬ e.Blocks (a.sched.pid p)) :
    ¬ e.IsOf (a.sched.pid q) ∧ ∃ b r', Lined base p q t b r' ∧ b.sched.pid = a.sched.pid := by
  obtain ⟨b, r', hn⟩ := h.toWaited.step hs.step
  obtain ⟨hrp, hp, hpid, hpreq⟩ := hn.stays h.toWaited h.live.1 h.requests.1 hret hblock
  obtain ⟨hne, hbehind⟩ : a.sched.running ≠ some q ∧ Sched.Behind p q a.sched := by
    apply h.leads.resolve_left
    rw [h.ok.sched.running]
    intro he
    exact hrp (Option.some.inj he)
  have hrq : r ≠ q := by
    rintro rfl
    exact hne h.ok.sched.running
  have hcaller : ¬ e.IsOf (a.sched.pid q) := by
    rintro ⟨hof, -⟩
    exact hrq (h.ok.sched.wf.pid_inj q h.live.2 r (h.ok.sched.wf.running_live r h.ok.sched.running)
      (hof.symm.trans (hn.caller.trans h.ok.currentPid))).symm
  obtain ⟨-, hq, -, hqreq⟩ := hn.stays h.toWaited h.live.2 h.requests.2 (fun hret => hcaller hret.1)
    fun hblock => hcaller hblock.1
  have hcontend : Sched.Contend p q r a.sched :=
    ⟨h.ne, ⟨h.live.1, hrp, h.waits p h.live.1 h.requests.1⟩, ⟨h.live.2, hrq, h.waits q h.live.2 h.requests.2⟩⟩
  have hrep := h.rep.sched
  have hrep' := hn.waited.rep.sched
  refine ⟨hcaller, b, r', ⟨hn.waited, h.ne, ⟨hp, hq⟩, ⟨hpreq, hqreq⟩, ?_⟩, (h.ok.call hn.nonzero hn.call).1.pid⟩
  apply h.ok.leads hn.nonzero hn.primitive hn.call hcontend hbehind
  · have hkeep := hs.priority
    rwa [hrep.priority, hrep.priority, hrep'.priority, hrep'.priority] at hkeep
  · intro hps hqs hroused
    have hgives := hs.unwoken ((hrep.state p).trans hps) ((hrep.state q).trans hqs)
    rw [hrep.pid] at hgives
    exact hgives (h.rousedBy hroused)

/-- The more urgent one of two waiting processes -/
lemma of_urgent (h : Waited base s a r) (hne : p ≠ q) (hp : p ∈ a.sched.live) (hq : q ∈ a.sched.live)
    (hpreq : requesting (a.sched.pid p) s.history = true) (hqreq : requesting (a.sched.pid q) s.history = true)
    (hps : a.sched.state p = .blockedMem) (hqs : a.sched.state q = .blockedMem)
    (hlt : a.sched.priority p < a.sched.priority q) : Lined base p q s a r := by
  have hrunning : ∀ x, a.sched.state x = .blockedMem → a.sched.running ≠ some x := by
    intro x hx
    apply h.ok.sched.running_ne
    rintro rfl
    rw [h.ok.sched.ready] at hx
    cases hx
  refine ⟨h, hne, ⟨hp, hq⟩, ⟨hpreq, hqreq⟩, .inr ⟨hrunning q hqs, ?_⟩⟩
  apply Sched.Behind.of_level h.ok.sched.wf hp (hrunning p hps)
  · rw [hps]
    nofun
  · exact UInt32.lt_iff_toNat_lt.mp hlt
  · intro _
    exact (Sched.Behind.mem_queue_of_state h.ok.sched.wf hq hqs).2

/-- A process that has just blocked stands behind those that were in `request_memory_block` already. -/
lemma of_earlier (h : Waited base s a r) (hn : Waited.Next base s a r e t b r')
    (hne : p ≠ q) (hp : p ∈ b.sched.live) (hq : q ∈ b.sched.live)
    (hpreq : requesting (b.sched.pid p) t.history = true) (hqreq : requesting (b.sched.pid q) t.history = true)
    (he : e = ⟨b.sched.pid q, .request, .block none⟩) (hle : b.sched.priority p ≤ b.sched.priority q) :
    Lined base p q t b r' := by
  have hframe := (h.ok.call hn.nonzero hn.call).1
  have hcaller := hn.caller
  have hcall := hn.call
  have hz := hn.nonzero
  subst he
  have hrq : r = q := h.ok.sched.wf.pid_inj r (h.ok.sched.wf.running_live r h.ok.sched.running) q
    (hframe.live hq) (by rw [← h.ok.currentPid, ← hcaller, hframe.pid])
  subst hrq
  refine ⟨hn.waited, hne, ⟨hp, hq⟩, ⟨hpreq, hqreq⟩, ?_⟩
  rw [hframe.pid, hn.history, requesting_snoc, if_neg] at hpreq
  swap
  · rintro ⟨hof, -⟩
    exact hne (h.ok.sched.wf.pid_inj p (hframe.live hp) r (hframe.live hq) (by rw [← hof, hframe.pid]))
  obtain ⟨hreply, hb⟩ := Prod.mk.inj (Option.some.inj hcall)
  rw [Spec.Kernel.requestMemoryBlock] at hreply hb
  cases ht : a.pool.take a.sched.currentPid with
  | some x =>
    rw [ht] at hreply
    cases hreply
  | none =>
    rw [ht] at hb
    obtain rfl := hb
    apply h.ok.sched.leads_block (hz rfl)
    apply h.ok.sched.behind_sleep (hframe.live hp) hne (h.waits p (hframe.live hp) hpreq)
    change (a.sched.block a.sched.currentPid .mem).priority p ≤
      (a.sched.block a.sched.currentPid .mem).priority r at hle
    rw [h.ok.sched.block_priority (hz rfl)] at hle
    exact UInt32.le_iff_toNat_le.mp hle

/-- The first of the two, in the code -/
lemma of_first (hprio : ∀ i, priority i ≤ 4) (hboot : boot priority base = some k₀)
    (h : Run Traced.Step ⟨k₀, []⟩ es s) (hp : p ∈ s.kernel.sched.live) (hq : q ∈ s.kernel.sched.live) (hne : p ≠ q)
    (hpreq : s.InRequest p) (hqreq : s.InRequest q) (hfirst : s.First p q) :
    ∃ a r, Lined base p q s a r := by
  cases hfirst with
  | urgent hps hqs hlt =>
    obtain ⟨a, r, ha⟩ := Waited.of_run hprio hboot h
    have hrep := ha.rep.sched
    rw [hrep.state] at hps hqs
    rw [hrep.priority, hrep.priority] at hlt
    rw [hrep.live] at hp hq
    exact ⟨a, r, of_urgent ha hne hp hq (ha.inRequest_iff.mp hpreq) (ha.inRequest_iff.mp hqreq) hps hqs hlt⟩
  | earlier es' he hle =>
    cases h with
    | nil => exact absurd he (by simp)
    | snoc h hs =>
      obtain ⟨a, r, ha⟩ := Waited.of_run hprio hboot h
      obtain ⟨b, r', hn⟩ := ha.step hs
      have hb := hn.waited
      have hrep := hb.rep.sched
      rw [hrep.live] at hp hq
      rw [hrep.priority, hrep.priority] at hle
      rw [hrep.pid, hn.history] at he
      have hlast := List.singleton_inj.mp (List.append_inj' he rfl).2
      exact ⟨b, r', of_earlier ha hn hne hp hq (hb.inRequest_iff.mp hpreq) (hb.inRequest_iff.mp hqreq) hlast hle⟩

lemma of_run (h : Lined base p q s a r) (hrun : Run (Traced.StepKeeping p q) s es' s')
    (hret : ∀ e ∈ es', ¬ e.Returns (a.sched.pid p)) (hblock : ∀ e ∈ es', ¬ e.Blocks (a.sched.pid p)) :
    ∀ e ∈ es', ¬ e.IsOf (a.sched.pid q) := by
  obtain ⟨hnone, -⟩ := hrun.history_of_forall
    (I := fun es' s' => (∀ e ∈ es', ¬ e.IsOf (a.sched.pid q)) ∧
      ∃ b r', Lined base p q s' b r' ∧ b.sched.pid = a.sched.pid)
    (P := fun e => ¬ e.Returns (a.sched.pid p) ∧ ¬ e.Blocks (a.sched.pid p))
    (fun e he => ⟨hret e he, hblock e he⟩) ⟨by simp, a, r, h, rfl⟩ (by
      rintro es' s e t ⟨hnone, b, r', hb, hpid⟩ ⟨hret, hblock⟩ hs
      rw [← hpid] at hret hblock hnone ⊢
      obtain ⟨hcaller, c, r'', hc, hpid'⟩ := hb.step hs hret hblock
      refine ⟨?_, c, r'', hc, hpid'⟩
      intro e' he'
      rcases List.mem_append.mp he' with he' | he'
      · exact hnone e' he'
      · rw [List.mem_singleton.mp he']
        exact hcaller)
  exact hnone

end Lined

/-- In an undisturbed run a process that was woken gets a block. -/
lemma Served.blocks_once (h : Served base s a r) (hp : p ∈ a.sched.live)
    (hreq : requesting (a.sched.pid p) s.history = true) (hrun : Run Traced.StepUndisturbed s es' s')
    (hret : ∀ e ∈ es', ¬ e.Returns (a.sched.pid p)) : ∀ e ∈ es', ¬ e.Blocks (a.sched.pid p) := by
  obtain ⟨hnone, -⟩ := hrun.history_of_forall
    (I := fun es' s' => (∀ e ∈ es', ¬ e.Blocks (a.sched.pid p)) ∧
      ∃ b r', Served base s' b r' ∧ p ∈ b.sched.live ∧ b.sched.pid p = a.sched.pid p ∧
        requesting (b.sched.pid p) s'.history = true)
    hret ⟨by simp, a, r, h, hp, rfl, hreq⟩ (by
      rintro es' s e t ⟨hnone, b, r', hb, hp, hpid, hreq⟩ hret hs
      rw [← hpid] at hret hnone ⊢
      obtain ⟨c, r'', hn, hc⟩ := hb.step hs
      have hblock : ¬ e.Blocks (b.sched.pid p) := by
        obtain ⟨caller, op, reply⟩ := e
        rintro ⟨⟨hof, -⟩, hwait⟩
        obtain ⟨rfl, rfl⟩ : op = .request ∧ reply = .block none := of_decide_eq_true hwait
        have hcall := hn.call
        obtain rfl : p = r' := hb.ok.sched.wf.pid_inj p hp r' (hb.ok.sched.wf.running_live r' hb.ok.sched.running)
          (hof.symm.trans (hn.caller.trans hb.ok.currentPid))
        obtain ⟨x, hx⟩ := hb.serves.granted hb.ok hreq hcall
        cases hx
      obtain ⟨-, hp', hpid', hreq'⟩ := hn.stays hb.toWaited hp hreq hret hblock
      refine ⟨?_, c, r'', hc, hp', hpid', hreq'⟩
      intro e' he'
      rcases List.mem_append.mp he' with he' | he'
      · exact hnone e' he'
      · rw [List.mem_singleton.mp he']
        exact hblock)
  exact hnone

/-- Of two processes in `request_memory_block` the request of the first one returns first, unless it tests again in
vain; and that does not happen in a run that takes nothing from the processes that were woken. -/
theorem waiters_in_order (hprio : ∀ i, priority i ≤ 4) (hboot : boot priority base = some k₀)
    (h : Run Traced.Step ⟨k₀, []⟩ es s) (hp : p ∈ s.kernel.sched.live) (hq : q ∈ s.kernel.sched.live) (hne : p ≠ q)
    (hpreq : s.InRequest p) (hqreq : s.InRequest q) (hfirst : s.First p q)
    (hrun : Run (Traced.StepKeeping p q) s es' s') (hret : ∀ e ∈ es', ¬ e.Returns (s.kernel.sched.pcb p).pid) :
    ((∀ e ∈ es', ¬ e.Blocks (s.kernel.sched.pcb p).pid) → ∀ e ∈ es', ¬ e.Returns (s.kernel.sched.pcb q).pid) ∧
      (Run Traced.StepUndisturbed ⟨k₀, []⟩ (es ++ es') s' → ∀ e ∈ es', ¬ e.Blocks (s.kernel.sched.pcb p).pid) := by
  constructor
  · intro hblock e he hreturns
    obtain ⟨a, r, ha⟩ := Lined.of_first hprio hboot h hp hq hne hpreq hqreq hfirst
    rw [ha.rep.sched.pid] at hret hblock hreturns
    exact ha.of_run hrun hret hblock e he hreturns.1
  · intro hundisturbed
    obtain ⟨t, hbefore, hafter⟩ := hundisturbed.split
    obtain rfl : s = t := h.det (fun _ _ _ _ hs hs' => hs.det hs') (hbefore.mono fun _ _ _ hs => hs.1)
    obtain ⟨a, r, ha⟩ := Served.of_run hprio hboot hbefore
    rw [ha.rep.sched.live] at hp
    rw [ha.rep.sched.pid] at hret ⊢
    exact ha.blocks_once hp (ha.inRequest_iff.mp hpreq) hafter hret

end InOrder

/-! ### Two processes that wait -/

section Example

variable {s s' t : Traced} {op : Op} {ops : List Op} {p q : PcbPtr}

/-- An operation that sends no message -/
def Op.isSilent : Op → Bool
  | .request | .release _ | .releaseProcessor => true
  | _ => false

lemma Kernel.RousedBy.gives {k : Kernel} {pid : UInt32} {e : Event} (h : k.RousedBy pid e.op e.reply)
    (hop : e.op.isSilent = true) : e.gives = true := by
  obtain ⟨caller, op, reply⟩ := e
  cases op with
  | release x =>
    cases reply with
    | code c => exact decide_eq_true h
    | _ => exact h.elim
  | request => exact h.elim
  | releaseProcessor => exact h.elim
  | _ => cases hop

namespace Traced

/-- The step with this operation -/
def next (s : Traced) (op : Op) : Option Traced :=
  if s.kernel.CallsPrimitive op ∧ (requesting s.kernel.currentPid s.history = true → op = .request) then
    (s.kernel.call op).map fun x => ⟨x.2, s.history ++ [⟨s.kernel.currentPid, op, x.1⟩]⟩
  else none

/-- The step, if it sends no message and the two processes keep their priorities -/
def nextKeeping (p q : PcbPtr) (s : Traced) (op : Op) : Option Traced :=
  if op.isSilent then
    (s.next op).filter fun t => (t.kernel.sched.pcb p).priority = (s.kernel.sched.pcb p).priority ∧
      (t.kernel.sched.pcb q).priority = (s.kernel.sched.pcb q).priority
  else none

lemma step_of_next (h : s.next op = some t) : ∃ e, e.op = op ∧ s.Step e t := by
  rw [next] at h
  split_ifs at h with hp
  obtain ⟨x, hx, rfl⟩ := Option.map_eq_some_iff.mp h
  exact ⟨⟨s.kernel.currentPid, op, x.1⟩, rfl, ⟨rfl, hp.1, hx⟩, rfl, hp.2⟩

lemma stepKeeping_of_next (h : nextKeeping p q s op = some t) : ∃ e, StepKeeping p q s e t := by
  rw [nextKeeping] at h
  split_ifs at h with hop
  obtain ⟨hnext, hkeep⟩ := Option.filter_eq_some_iff.mp h
  obtain ⟨e, rfl, hs⟩ := step_of_next hnext
  refine ⟨e, hs, .inl (of_decide_eq_true hkeep), ?_⟩
  intro _ _ hroused
  exact hroused.gives hop

lemma run_of_foldlM {step : Traced → Event → Traced → Prop} {f : Traced → Op → Option Traced}
    (hf : ∀ s op t, f s op = some t → ∃ e, step s e t) (h : ops.foldlM f s = some t) :
    ∃ es, Run step s es t := by
  induction ops generalizing s with
  | nil =>
    obtain rfl : s = t := by simpa using h
    exact ⟨[], .nil s⟩
  | cons op ops ih =>
    rw [List.foldlM_cons] at h
    obtain ⟨r, hr, h⟩ := Option.bind_eq_some_iff.mp h
    obtain ⟨e, he⟩ := hf s op r hr
    obtain ⟨es, hes⟩ := ih h
    exact ⟨_, (Run.single he).append hes⟩

lemma history_of_run (h : Run (StepKeeping p q) s es s') : s'.history = s.history ++ es := by
  induction h with
  | nil => simp
  | snoc _ hs ih => rw [hs.step.2.1, ih, List.append_assoc]

end Traced

/-- The keyboard decoder takes all blocks, and two processes wait for one; then the operations `ops` follow. -/
lemma exists_waiters (ops : List Op) (check : List Event → Bool)
    (h : ((boot (fun _ => 2) 4096).any fun k =>
      ((List.replicate 30 Op.request ++ [Op.releaseProcessor, .request, .request]).foldlM Traced.next ⟨k, []⟩).any
        fun s => (ops.foldlM (Traced.nextKeeping 5 6) s).any fun s' =>
          5 ∈ s.kernel.sched.live ∧ 6 ∈ s.kernel.sched.live ∧ s.InRequest 5 ∧ s.InRequest 6 ∧
          (s.kernel.sched.pcb 5).pid = 11 ∧ (s.kernel.sched.pcb 6).pid = 12 ∧
          s.history.getLast? = some ⟨12, .request, .block none⟩ ∧
          (s.kernel.sched.pcb 5).priority = (s.kernel.sched.pcb 6).priority ∧
          check (s'.history.drop s.history.length) = true) = true) :
    ∃ k₀ es s es' s', boot (fun _ => 2) 4096 = some k₀ ∧ Run Traced.Step ⟨k₀, []⟩ es s ∧
      5 ∈ s.kernel.sched.live ∧ 6 ∈ s.kernel.sched.live ∧ s.InRequest 5 ∧ s.InRequest 6 ∧ s.First 5 6 ∧
      (s.kernel.sched.pcb 5).priority = (s.kernel.sched.pcb 6).priority ∧ (s.kernel.sched.pcb 5).pid = 11 ∧
      (s.kernel.sched.pcb 6).pid = 12 ∧ Run (Traced.StepKeeping 5 6) s es' s' ∧ check es' = true := by
  obtain ⟨k₀, hk₀, h⟩ := (Option.any_eq_true _ _).mp h
  obtain ⟨s, hs, h⟩ := (Option.any_eq_true _ _).mp h
  obtain ⟨s', hs', h⟩ := (Option.any_eq_true _ _).mp h
  obtain ⟨hp, hq, hpreq, hqreq, hpid, hqid, hlast, hprio, hcheck⟩ := of_decide_eq_true h
  obtain ⟨es, hes⟩ := Traced.run_of_foldlM (fun s op t hn => (Traced.step_of_next hn).imp fun _ he => he.2) hs
  obtain ⟨es', hes'⟩ := Traced.run_of_foldlM (f := Traced.nextKeeping 5 6)
    (fun _ _ _ hn => Traced.stepKeeping_of_next hn) hs'
  rw [Traced.history_of_run hes', List.drop_left] at hcheck
  refine ⟨k₀, es, s, es', s', hk₀, hes, hp, hq, hpreq, hqreq, ?_, hprio, hpid, hqid, hes', hcheck⟩
  apply Traced.First.earlier s.history.dropLast
  · rw [hqid]
    exact (List.dropLast_append_getLast? _ hlast).symm
  · rw [hprio]
    exact UInt32.le_refl _

/-- The block that is returned wakes the first of the two. -/
theorem waiters_in_order_returned : ∃ k₀ es s es' s', boot (fun _ => 2) 4096 = some k₀ ∧
    Run Traced.Step ⟨k₀, []⟩ es s ∧ s.First 5 6 ∧ (s.kernel.sched.pcb 6).pid = 12 ∧
    Run (Traced.StepKeeping 5 6) s es' s' ∧ (⟨10, .release 4096, .code 0⟩ ∈ es') ∧ ∀ e ∈ es', ¬ e.Returns 12 := by
  obtain ⟨k₀, es, s, es', s', hboot, h, hp, hq, hpreq, hqreq, hfirst, -, hpid, hqid, hrun, hcheck⟩ := exists_waiters
    [.releaseProcessor, .releaseProcessor, .release 4096, .releaseProcessor, .releaseProcessor, .releaseProcessor]
    (fun es' => ⟨10, .release 4096, .code 0⟩ ∈ es' ∧ ∀ e ∈ es', ¬ e.Returns 11 ∧ ¬ e.Blocks 11) (by decide +kernel)
  obtain ⟨hmem, hnone⟩ := of_decide_eq_true hcheck
  have horder := waiters_in_order (fun _ => by decide) hboot h hp hq (by decide) hpreq hqreq hfirst hrun (by
    rw [hpid]
    exact fun e he => (hnone e he).1)
  rw [hpid, hqid] at horder
  exact ⟨k₀, es, s, es', s', hboot, h, hfirst, hqid, hrun, hmem, horder.1 fun e he => (hnone e he).2⟩

/-- The decoder returns a block, which wakes the first of the two, and takes it again before that one runs. -/
theorem waiters_not_in_order : ¬ ∀ k₀ es s es' s' p q, boot (fun _ => 2) 4096 = some k₀ →
    Run Traced.Step ⟨k₀, []⟩ es s → p ∈ s.kernel.sched.live → q ∈ s.kernel.sched.live → p ≠ q → s.InRequest p →
    s.InRequest q → s.First p q → (s.kernel.sched.pcb p).priority = (s.kernel.sched.pcb q).priority →
    Run (Traced.StepKeeping p q) s es' s' → (∀ e ∈ es', ¬ e.Returns (s.kernel.sched.pcb p).pid) →
      ∀ e ∈ es', ¬ e.Returns (s.kernel.sched.pcb q).pid := by
  intro hall
  obtain ⟨k₀, es, s, es', s', hboot, h, hp, hq, hpreq, hqreq, hfirst, hprio, hpid, hqid, hrun, hcheck⟩ := exists_waiters
    [.releaseProcessor, .releaseProcessor, .release 4096, .request, .releaseProcessor, .releaseProcessor,
      .releaseProcessor, .request, .release 4096, .releaseProcessor, .releaseProcessor, .releaseProcessor, .request]
    (fun es' => (∀ e ∈ es', ¬ e.Returns 11) ∧ ∃ e ∈ es', e.Returns 12) (by decide +kernel)
  obtain ⟨hnone, e, he, hreturns⟩ := of_decide_eq_true hcheck
  have hcontra := hall k₀ es s es' s' 5 6 hboot h hp hq (by decide) hpreq hqreq hfirst hprio hrun (by rwa [hpid]) e he
  rw [hqid] at hcontra
  exact hcontra hreturns

end Example

end RtxKernel
