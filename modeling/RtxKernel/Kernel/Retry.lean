import RtxKernel.Kernel.Outside

/-!
# Receiving again

A process that finds no message in `receive_message_handler` is blocked there, and `receive_message` calls
itself when the process runs again. It was woken by a message, which stays in the mailbox until then, so that
the second call returns one (`receive_retries_once`).
-/

namespace RtxKernel

/-- The primitives of the kernel, the interrupts, and the writes of the processes: the functions of `core.c` that
block and unblock are not called directly. -/
def Op.isPrimitive : Op → Bool
  | .block _ | .unblockByPid _ _ | .unblockByType _ => false
  | _ => true

def Kernel.Primitive (k : Kernel) (op : Op) : Prop := k.Proper op ∧ op.isPrimitive = true

instance (k : Kernel) (op : Op) : Decidable (k.Primitive op) :=
  inferInstanceAs (Decidable (k.Proper op ∧ op.isPrimitive = true))

/-- The process `pid` has made the call. The caller of an interrupt is the process that it has interrupted. -/
def Event.IsOf (e : Event) (pid : UInt32) : Prop := e.caller = pid ∧ e.op.isInterrupt = false

instance (e : Event) (pid : UInt32) : Decidable (e.IsOf pid) :=
  inferInstanceAs (Decidable (e.caller = pid ∧ e.op.isInterrupt = false))

/-- The call has blocked the process in `receive_message_handler`. -/
def Event.isVain (e : Event) : Bool := e.op = .receive ∧ e.reply = .envelope none

/-- The calls of `receive_message` that the process `pid` has made, one in the other, and that got no envelope. -/
def openReceives (pid : UInt32) (es : List Event) : Nat :=
  es.foldl (fun n e => if e.IsOf pid then if e.isVain then n + 1 else 0 else n) 0

/-- The depth of the recursion in the next call of `receive_message` -/
def receiveDepth (pid : UInt32) (es : List Event) : Nat := openReceives pid es + 1

/-- The envelope is in the mailbox, for the process `pid`. -/
def Kernel.HasMessage (k : Kernel) (e : Nat) (pid : UInt32) : Prop :=
  (∃ i < memBlockCount, k.mailbox i = some e) ∧ k.rx e = pid

lemma openReceives_snoc (pid : UInt32) (es : List Event) (e : Event) : openReceives pid (es ++ [e]) =
    if e.IsOf pid then if e.isVain then openReceives pid es + 1 else 0 else openReceives pid es := by
  simp [openReceives]

namespace Spec

variable {a b : Kernel} {base : Nat} {r p : PcbPtr} {op : Op} {reply : Reply} {es : List Event} {e : Event}

lemma Sched.Steady.block_state {a : Sched} (h : a.Steady r) (t : BlockType) :
    (a.block a.currentPid t).state r = t.state := by
  rw [Sched.block, h.blockSection_running]
  have hstays : Sched.Rouses t.state ((a.setState r t.state).enqueue t.queue r)
      (Sched.releaseIf (true, (a.setState r t.state).enqueue t.queue r)) fun _ => False :=
    (Sched.Rouses.refl ..).releaseIf (Kernel.isBlocked_state t)
  have hnow : ((a.setState r t.state).enqueue t.queue r).state r = t.state := by
    simp [Sched.enqueue]
  exact (hstays.state r hnow).resolve_right id

namespace Kernel

/-! ### What a step does to a message -/

/-- A message stays in the mailbox, unless it is received. -/
lemma Effect.mem_mailbox (he : a.Effect op reply b) (hok : a.Ok base r) {x : Nat} (hx : x ∈ a.mailbox)
    (hrec : op = .receive → a.rx x ≠ a.sched.currentPid) : x ∈ b.mailbox := by
  have hstored : ∀ {c : Kernel} {y : Nat}, c.mailbox = a.mailbox → x ∈ storeIn c.mailbox y := by
    intro c y hc
    rw [hc, storeIn]
    split_ifs
    · exact List.mem_append_left _ hx
    · exact hx
  cases he with
  | sent s hb => exact hstored (address_fields hb).1
  | delayed hb => exact (address_fields hb).1 ▸ hx
  | received hi hrx =>
    have hmem : x ∈ a.mailbox.filter fun y => a.rx y = a.rx x := by simp [hx]
    rw [← filter_eraseIdx_of_not _ hi] at hmem
    · exact (List.mem_filter.mp hmem).1
    · simpa [hrx] using (hrec rfl).symm
  | ticked s hb =>
    have hmv := hok.moves_tick hb
    rw [withSched_mailbox, hmv.mailbox]
    exact List.mem_append_left _ hx
  | typed s hp hb => exact hstored (address_fields hb).1
  | _ => exact hx

lemma Effect.tick {new : List Nat} (he : a.Effect .timer (.moved new) b) (hok : a.Ok base r) :
    b.mailbox = a.mailbox ++ new ∧ b.pool = a.pool := by
  cases he with
  | quiet s hq => cases hq
  | ticked s hb =>
    have hmv := hok.moves_tick hb
    exact ⟨hmv.mailbox, hmv.pool⟩

/-- An envelope that is sent is in the mailbox, for its receiver. -/
lemma mem_post (hok : a.Ok base r) (hpost : a.Posted base) {c : BlockPtr} (hc : c < memBlockCount) {x : Nat}
    (hstart : a.pool.start c = x) (hnot : x ∉ a.mailbox ++ a.delayed) {b d : Kernel}
    {pid : UInt32} (hd : d.mailbox = a.mailbox) (hb : d.address pid x = some b) (s : Sched) :
    x ∈ ((b.post x).withSched s).mailbox ∧ ((b.post x).withSched s).rx x = pid := by
  refine ⟨?_, (address_header hb).1⟩
  rw [withSched_mailbox, post, (address_fields hb).1, hd, (storeIn_mail hok hpost hc hstart hnot).1]
  simp

lemma Ok.mail_of_send (h : a.Ok base r) (hpost : a.Posted base) {pid : UInt32} {x : Nat}
    (hp : a.Permits (.send pid x)) (hy : a.call (.send pid x) = some (.code 0, b)) :
    x ∈ b.mailbox ∧ b.rx x = pid := by
  obtain ⟨-, ⟨c, hc, hstart⟩, hnot⟩ := hp
  cases h.effect hy with
  | quiet s hq => simp [Op.isQuiet] at hq
  | sent s hb => exact mem_post h hpost (h.pool.lt_of_mem (q := .usedBlocks) hc) hstart hnot rfl hb s

/-- What makes a process ready that waits for a message is a message to it. -/
lemma Ok.mail_of_roused (h : a.Ok base r) (hpost : a.Posted base) (hp : a.Permits op)
    (hop : op.isPrimitive = true) (hy : a.call op = some (reply, b)) (hw : a.RousedBy .msg p op reply) :
    ∃ x ∈ b.mailbox, b.rx x = a.sched.pid p := by
  cases op with
  | send pid e =>
    cases reply with
    | code c =>
      obtain ⟨rfl, hpid⟩ := hw
      obtain ⟨hmem, hrx⟩ := h.mail_of_send hpost hp hy
      exact ⟨e, hmem, hrx.trans hpid.symm⟩
    | _ => exact hw.elim
  | timer =>
    obtain ⟨x, -, hxb⟩ := Option.map_eq_some_iff.mp hy
    obtain ⟨rfl, -⟩ := Prod.mk.inj hxb
    obtain ⟨e, he, hrx⟩ := hw
    obtain ⟨hmail, hpool⟩ := (h.effect hy).tick h
    refine ⟨e, ?_, ?_⟩
    · rw [hmail]
      exact List.mem_append_right _ he
    · rw [Kernel.rx, hpool]
      exact hrx
  | uart c =>
    obtain ⟨y, hu, hb⟩ := Option.map_eq_some_iff.mp hy
    obtain ⟨rfl, rfl⟩ := Prod.mk.inj hb
    obtain ⟨hzero, hpid⟩ := hw
    rw [Kernel.uartHandler] at hu
    cases ht : a.pool.take a.sched.currentPid with
    | none =>
      rw [ht] at hu
      obtain rfl := Option.some.inj hu
      cases hzero
    | some x =>
      rw [ht] at hu
      obtain ⟨z, hz, rfl⟩ := Option.map_eq_some_iff.mp hu
      obtain ⟨d, t, hav, hstart, -⟩ := take_cases ht
      have hd : d < memBlockCount := h.pool.lt_of_mem (q := .availableBlocks) (by simp [hav])
      rcases sendMessage_cases hz with ⟨-, code, hcode, rfl⟩ | ⟨-, b', s, hb', rfl⟩
      · exact absurd (Option.some.inj hzero) hcode
      · obtain ⟨hmem, hrx⟩ := mem_post (d := a.type x.2 x.1 c) h hpost hd hstart (hstart ▸ hp d t hav) rfl hb' s
        exact ⟨x.1, hmem, hrx.trans hpid.symm⟩
  | release x =>
    cases reply with
    | code c => cases hw.2
    | _ => exact hw.elim
  | unblockByPid pid allow => cases hop
  | unblockByType t => cases hop
  | _ => exact hw.elim

/-! ### What a step does to a process that waits for a message -/

/-- A process blocks in `receive_message_handler` only. -/
lemma Ok.blockedMsg_of_call (h : a.Ok base r) (hop : op.isPrimitive = true) (hy : a.call op = some (reply, b))
    (hb : b.sched.state p = .blockedMsg) : a.sched.state p = .blockedMsg ∨
      p = r ∧ op = .receive ∧ reply = .envelope none := by
  by_cases hwhole : op.isWhole = true
  · obtain ⟨l, -, hw⟩ := h.wakes hwhole hy
    left
    rw [← hb]
    exact (hw.state p (by rw [hb]; rfl)).symm
  · cases op with
    | receive =>
      obtain ⟨rfl, rfl⟩ := Prod.mk.inj (Option.some.inj hy)
      rcases receiveScan_cases a with ⟨-, he⟩ | ⟨i, e, -, -, -, he⟩
      · rw [he] at hb ⊢
        have hw := (h.sched.block_wakes .msg).state p
        have hs : (a.sched.block a.sched.currentPid .msg).state p = .blockedMsg := hb
        rw [hs, Sched.setState_state] at hw
        split_ifs at hw with hpr
        · exact .inr ⟨hpr, rfl, rfl⟩
        · exact .inl (hw rfl).symm
      · rw [he] at hb
        exact .inl hb
    | request =>
      obtain ⟨rfl, rfl⟩ := Prod.mk.inj (Option.some.inj hy)
      left
      rw [Kernel.requestMemoryBlock] at hb
      cases ht : a.pool.take a.sched.currentPid with
      | none =>
        rw [ht] at hb
        have hw := (h.sched.block_wakes .mem).state p
        have hs : (a.sched.block a.sched.currentPid .mem).state p = .blockedMsg := hb
        rw [hs, Sched.setState_state] at hw
        split_ifs at hw
        · cases hw rfl
        · exact (hw rfl).symm
      | some x =>
        rw [ht] at hb
        exact hb
    | block t => cases hop
    | _ => exact absurd rfl hwhole

lemma Ok.blockedMsg_of_receive (h : a.Ok base r) (hy : a.call .receive = some (.envelope none, b)) :
    b.sched.state r = .blockedMsg ∧ ∀ x ∈ a.mailbox, a.rx x ≠ a.sched.pid r := by
  obtain ⟨hreply, rfl⟩ := Prod.mk.inj (Option.some.inj hy)
  rcases receiveScan_cases a with ⟨hnone, he⟩ | ⟨i, e, -, -, -, he⟩
  · rw [he]
    rw [h.currentPid] at hnone
    exact ⟨h.sched.block_state .msg, hnone⟩
  · rw [he] at hreply
    cases hreply

/-- With a message in the mailbox for it, the running process receives one. -/
lemma Ok.receives (h : a.Ok base r) (hy : a.call .receive = some (reply, b)) {x : Nat} (hx : x ∈ a.mailbox)
    (hrx : a.rx x = a.sched.pid r) :
    ∃ y tx, reply = .envelope (some (y, tx)) ∧ y ∈ a.mailbox ∧ a.rx y = a.sched.pid r := by
  cases reply with
  | envelope o =>
    cases o with
    | none => exact absurd hrx ((h.blockedMsg_of_receive hy).2 x hx)
    | some y =>
      have he := h.effect hy
      cases he with
      | quiet s hq => cases hq
      | received hi hrx' => exact ⟨_, _, rfl, List.mem_of_getElem? hi, hrx'.trans h.currentPid⟩
  | _ => cases Option.some.inj hy

/-- A process whose last call was in vain still waits, or it has a message. -/
structure Retries (a : Kernel) (es : List Event) : Prop where
  le_one : ∀ pid, openReceives pid es ≤ 1
  null : openReceives 0 es = 0
  blocked : ∀ p ∈ a.sched.live, a.sched.state p = .blockedMsg → openReceives (a.sched.pid p) es = 1
  answered : ∀ p ∈ a.sched.live, openReceives (a.sched.pid p) es ≠ 0 →
    a.sched.state p = .blockedMsg ∨ ∃ x ∈ a.mailbox, a.rx x = a.sched.pid p

namespace Retries

/-- A message for a process stays, as long as the process makes no call. -/
lemma mail_stays {priority : Fin 6 → UInt8} {k' : RtxKernel.Kernel} {r' : PcbPtr} {x : Nat}
    (hok : a.Ok base r) (hown : a.MailOwned) (hn : Orderly.Next priority base a op reply k' b r')
    (hx : x ∈ a.mailbox) (hcall : ¬ Event.IsOf ⟨a.sched.currentPid, op, reply⟩ (a.rx x)) :
    x ∈ b.mailbox ∧ b.rx x = a.rx x := by
  refine ⟨hn.effect.mem_mailbox hok hx ?_, (hown.keep hok hn.permits hn.respects hn.effect
    (List.mem_append_left _ hx)).1⟩
  rintro rfl hrx
  exact hcall ⟨hrx.symm, rfl⟩

/-- Whoever is still waiting, or has a message, makes no call. -/
lemma answered_stays {priority : Fin 6 → UInt8} {k' : RtxKernel.Kernel} {r' : PcbPtr}
    (hok : a.Ok base r) (hpost : a.Posted base) (hown : a.MailOwned)
    (hn : Orderly.Next priority base a op reply k' b r') (hop : op.isPrimitive = true)
    (hcall : ¬ Event.IsOf ⟨a.sched.currentPid, op, reply⟩ (a.sched.pid p))
    (h : a.sched.state p = .blockedMsg ∨ ∃ x ∈ a.mailbox, a.rx x = a.sched.pid p) :
    b.sched.state p = .blockedMsg ∨ ∃ x ∈ b.mailbox, b.rx x = a.sched.pid p := by
  rcases h with hb | ⟨x, hx, hrx⟩
  · refine ((hok.rouses .msg hn.call).state p hb).imp_right ?_
    exact hok.mail_of_roused hpost hn.permits hop hn.call
  · right
    rw [← hrx] at hcall ⊢
    obtain ⟨hmem, hsame⟩ := mail_stays hok hown hn hx hcall
    exact ⟨x, hmem, hsame⟩

/-- A call in vain comes from a process that has made none before, and blocks it. -/
lemma vain (h : a.Retries es) (hok : a.Ok base r) (hy : a.call .receive = some (.envelope none, b)) :
    openReceives (a.sched.pid r) es = 0 ∧ b.sched.state r = .blockedMsg := by
  obtain ⟨hblocked, hnone⟩ := hok.blockedMsg_of_receive hy
  refine ⟨?_, hblocked⟩
  by_contra hne
  rcases h.answered r (hok.sched.wf.running_live r hok.sched.running) hne with hs | ⟨x, hx, hrx⟩
  · rw [hok.sched.ready] at hs
    cases hs
  · exact hnone x hx hrx

theorem step {priority : Fin 6 → UInt8} {k' : RtxKernel.Kernel} {r' : PcbPtr} (h : a.Retries es)
    (hok : a.Ok base r) (hpost : a.Posted base) (hown : a.MailOwned)
    (hz : op.isInterrupt = false → a.sched.pid r ≠ 0)
    (hn : Orderly.Next priority base a op reply k' b r') (hop : op.isPrimitive = true) :
    b.Retries (es ++ [⟨a.sched.currentPid, op, reply⟩]) := by
  have hframe := (hok.call hz hn.call).1
  have hrl := hok.sched.wf.running_live r hok.sched.running
  -- the process that makes a call is the one that runs
  have hcaller : ∀ p ∈ a.sched.live, Event.IsOf ⟨a.sched.currentPid, op, reply⟩ (a.sched.pid p) → p = r := by
    rintro p hp ⟨hpid, -⟩
    exact hok.sched.wf.pid_inj p hp r hrl (hpid.symm.trans hok.currentPid)
  constructor
  · intro pid
    rw [openReceives_snoc]
    split_ifs with hof hvain
    · obtain ⟨rfl, rfl⟩ : op = .receive ∧ reply = .envelope none := of_decide_eq_true hvain
      obtain rfl : a.sched.pid r = pid := hok.currentPid.symm.trans hof.1
      rw [(h.vain hok hn.call).1]
    · exact Nat.zero_le _
    · exact h.le_one pid
  · rw [openReceives_snoc, if_neg]
    · exact h.null
    · rintro ⟨hpid, hint⟩
      exact hz hint (hok.currentPid.symm.trans hpid)
  · intro p hp hb
    have hp' := hframe.live hp
    rw [hframe.pid, openReceives_snoc]
    rcases hok.blockedMsg_of_call hop hn.call hb with hs | ⟨rfl, rfl, rfl⟩
    · rw [if_neg, h.blocked p hp' hs]
      intro hof
      rw [hcaller p hp' hof, hok.sched.ready] at hs
      cases hs
    · rw [if_pos ⟨hok.currentPid, rfl⟩, (h.vain hok hn.call).1]
      rfl
  · intro p hp hne
    have hp' := hframe.live hp
    rw [hframe.pid, openReceives_snoc] at hne
    rw [hframe.pid]
    by_cases hof : Event.IsOf ⟨a.sched.currentPid, op, reply⟩ (a.sched.pid p)
    · obtain rfl := hcaller p hp' hof
      rw [if_pos hof] at hne
      split_ifs at hne with hvain
      · obtain ⟨rfl, rfl⟩ : op = .receive ∧ reply = .envelope none := of_decide_eq_true hvain
        exact .inl (h.vain hok hn.call).2
      · exact absurd rfl hne
    · rw [if_neg hof] at hne
      exact answered_stays hok hpost hown hn hop hof (h.answered p hp' hne)

end Retries

end Kernel

end Spec

/-! ### In the code -/

/-- What holds after a run of primitives. -/
structure Receives (priority : Fin 6 → UInt8) (base : Nat) (es : List Event) (k : Kernel) (a : Spec.Kernel)
    (r : PcbPtr) : Prop extends Orderly priority base k a r where
  retries : a.Retries es

variable {priority : Fin 6 → UInt8} {base : Nat} {k₀ k k' : Kernel} {a : Spec.Kernel} {r p : PcbPtr}
  {es es' : List Event} {e : Event} {x : Nat} {pid : UInt32}

namespace Receives

lemma step (h : Receives priority base es k a r) (hs : k.StepIf Kernel.Primitive e k') :
    ∃ b r', Receives priority base (es ++ [e]) k' b r' := by
  obtain ⟨hcaller, ⟨hp, hop⟩, hcall⟩ := hs
  obtain ⟨b, r', hn⟩ := h.toOrderly.step hp hcall
  refine ⟨b, r', hn.orderly, ?_⟩
  have hz : e.op.isInterrupt = false → a.sched.pid r ≠ 0 := by
    intro hint
    rw [← h.ok.currentPid, ← h.rep.currentPid]
    exact Safe.permits_ne (hp.1 hint) hint
  rw [h.rep.currentPid] at hcaller
  have hstep := h.retries.step h.ok h.posted h.mailOwned hz hn hop
  rwa [← hcaller] at hstep

lemma of_run (hprio : ∀ i, priority i ≤ 4) (hboot : boot priority base = some k₀)
    (h : Run (Kernel.StepIf Kernel.Primitive) k₀ es k) : ∃ a r, Receives priority base es k a r := by
  apply h.history (I := fun es k => ∃ a r, Receives priority base es k a r)
  · obtain ⟨a, r, ho, hfresh⟩ := Orderly.boot hprio hboot
    refine ⟨a, r, ho, fun _ => Nat.zero_le _, rfl, ?_, fun _ _ hne => absurd rfl hne⟩
    intro p hp hb
    have hawake := hfresh.awake p hp
    rw [hb] at hawake
    cases hawake
  · rintro es k e k' ⟨a, r, h⟩ hs
    exact h.step hs

end Receives

lemma Sound.hasMessage_iff (h : Sound base k a r) : k.HasMessage x pid ↔ x ∈ a.mailbox ∧ a.rx x = pid := by
  rw [Kernel.HasMessage, KernelRep.mem_iff_exists h.rep.mailbox h.ok.mailbox_le, h.rep.rx]

/-- A message stays as long as its receiver makes no call. -/
lemma Orderly.message_stays (h : Orderly priority base k a r)
    (hrun : Run (Kernel.StepIf Kernel.Primitive) k es k') (hno : ∀ e ∈ es, ¬ e.IsOf pid)
    (hx : k.HasMessage x pid) : ∃ b r', Orderly priority base k' b r' ∧ k'.HasMessage x pid := by
  apply hrun.history_of_forall (I := fun _ k' => ∃ b r', Orderly priority base k' b r' ∧ k'.HasMessage x pid) hno
  · exact ⟨a, r, h, hx⟩
  · rintro es k₁ e k₂ ⟨b, r', ho, hx'⟩ hnot ⟨hcaller, ⟨hp, -⟩, hcall⟩
    obtain ⟨c, r'', hn⟩ := ho.step hp hcall
    obtain ⟨hmem, rfl⟩ := ho.hasMessage_iff.mp hx'
    refine ⟨c, r'', hn.orderly, hn.orderly.hasMessage_iff.mpr ?_⟩
    apply Spec.Kernel.Retries.mail_stays ho.ok ho.mailOwned hn hmem
    rwa [← ho.rep.currentPid, ← hcaller]

/-- A process that was blocked in `receive_message_handler`, and is ready again, has a message, which stays in
the mailbox until it makes its next call; and when it runs, that call returns a message. So `receive_message`
calls itself at most once. -/
theorem receive_retries_once (hprio : ∀ i, priority i ≤ 4) (hboot : boot priority base = some k₀)
    (h : Run (Kernel.StepIf Kernel.Primitive) k₀ es k) :
    (∀ pid, receiveDepth pid es ≤ 2) ∧ ∀ p ∈ k.sched.live, ∀ pid, (k.sched.pcb p).pid = pid →
      ((k.sched.pcb p).state = .blockedMsg → openReceives pid es = 1) ∧
      (openReceives pid es ≠ 0 → (k.sched.pcb p).state ≠ .blockedMsg → ∃ x, k.HasMessage x pid ∧
        ∀ es' k', Run (Kernel.StepIf Kernel.Primitive) k es' k' → (∀ e ∈ es', ¬ e.IsOf pid) →
          k'.HasMessage x pid) ∧
      (openReceives pid es ≠ 0 → k.sched.runningProcess = some p → ∃ x tx k',
        k.call .receive = some (.envelope (some (x, tx)), k') ∧ k.HasMessage x pid) := by
  obtain ⟨a, r, ha⟩ := Receives.of_run hprio hboot h
  have hrep := ha.rep.sched
  refine ⟨fun pid => Nat.succ_le_succ (ha.retries.le_one pid), ?_⟩
  rintro p hp pid rfl
  rw [hrep.live] at hp
  rw [hrep.pid, hrep.state, hrep.running]
  have hmail : openReceives (a.sched.pid p) es ≠ 0 → a.sched.state p ≠ .blockedMsg →
      ∃ x, k.HasMessage x (a.sched.pid p) := by
    intro hne hs
    obtain ⟨x, hx⟩ := (ha.retries.answered p hp hne).resolve_left hs
    exact ⟨x, ha.hasMessage_iff.mpr hx⟩
  refine ⟨ha.retries.blocked p hp, ?_, ?_⟩
  · intro hne hs
    obtain ⟨x, hx⟩ := hmail hne hs
    refine ⟨x, hx, ?_⟩
    intro es' k' hrun hno
    obtain ⟨b, r', -, hx'⟩ := ha.message_stays hrun hno hx
    exact hx'
  · intro hne hrun
    obtain rfl : p = r := Option.some.inj (hrun.symm.trans ha.ok.sched.running)
    have hready : a.sched.state p ≠ .blockedMsg := by
      rw [ha.ok.sched.ready]
      nofun
    obtain ⟨x, hx⟩ := hmail hne hready
    obtain ⟨hmem, hrx⟩ := ha.hasMessage_iff.mp hx
    have hz : a.sched.pid p ≠ 0 := by
      intro hzero
      rw [hzero, ha.retries.null] at hne
      exact hne rfl
    have hpermits : k.Permits .receive := by
      change k.currentPid ≠ 0
      rwa [ha.rep.currentPid, ha.ok.currentPid]
    obtain ⟨reply, k', hcall⟩ := ha.call_isSome .receive hpermits
    obtain ⟨b, r', hb, -⟩ := ha.call (fun _ => hpermits) hcall
    obtain ⟨y, tx, rfl, hy⟩ := ha.ok.receives hb hmem hrx
    exact ⟨y, tx, k', hcall, ha.hasMessage_iff.mpr hy⟩

/-- The keyboard decoder waits for a message; it gets one, which `crt` has sent, when it runs again. -/
theorem receive_retries_once_sent : ∃ k₀ es k p, boot (fun _ => 2) 4096 = some k₀ ∧
    Run (Kernel.StepIf Kernel.Primitive) k₀ es k ∧ es.map Event.op = [.receive, .request, .send 10 4096,
      .releaseProcessor, .releaseProcessor, .releaseProcessor, .releaseProcessor] ∧
    p ∈ k.sched.live ∧ (k.sched.pcb p).pid = 10 ∧ openReceives 10 es = 1 ∧ receiveDepth 10 es ≤ 2 ∧
    ∃ x tx k', k.call .receive = some (.envelope (some (x, tx)), k') ∧ k.HasMessage x 10 := by
  obtain ⟨k₀, es, k, hboot, hrun, hops, hcheck⟩ := exists_run_of_boot Kernel.Primitive (fun _ => 2) 4096
    [.receive, .request, .send 10 4096, .releaseProcessor, .releaseProcessor, .releaseProcessor,
      .releaseProcessor]
    (fun es k => openReceives 10 es = 1 ∧ ∃ p ∈ k.sched.live, k.sched.runningProcess = some p ∧
      (k.sched.pcb p).pid = 10) (by decide +kernel)
  obtain ⟨hopen, p, hp, hrp, hpid⟩ := of_decide_eq_true hcheck
  obtain ⟨hdepth, hrest⟩ := receive_retries_once (fun _ => by decide) hboot hrun
  obtain ⟨-, -, hreturns⟩ := hrest p hp 10 hpid
  refine ⟨k₀, es, k, p, hboot, hrun, hops, hp, hpid, hopen, hdepth 10, ?_⟩
  exact hreturns (by rw [hopen]; decide) hrp

end RtxKernel
