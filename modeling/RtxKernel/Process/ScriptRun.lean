import RtxKernel.Process.View

/-!
# Processes run as their code says

A process that is correct as a sequential program (`Process.Correct`) is so in the system: with the messages that
have come into the mailbox for it, in their order and with their contents, it does what the program does with them,
whatever the other processes and the interrupts do in between.
-/

namespace RtxKernel

/-! ### The process in the system -/

/-- The code is correct as a sequential program: `J` relates the messages that were received, the variables and
the deeds at a `receive_message` if every message fits those before it. -/
structure Process.Correct {σ : Type} (p : Process σ) (allowed : Deed → Prop)
    (Fits : List IoMessage → IoMessage → Prop) (J : List IoMessage → σ → List Deed → Prop) : Prop where
  start : ∀ v, v.held = [] → v.deeds = [] →
    p.start.wp (contract allowed) (fun q w => J [] q w.deeds) v
  turn : ∀ ms m q e v, J ms q v.deeds → Fits ms m → e ∈ v.held → messageAt v.memory e = m →
    (p.turn q e).wp (contract allowed) (fun q w => J (ms ++ [m]) q w.deeds) v

/-! ### What is sent -/

/-- A message was sent, at once or later. -/
def Deed.isSending : Deed → Bool
  | .sent _ | .delayed _ _ => true
  | _ => false

/-- The messages that were sent -/
def sendings (l : List Deed) : List Deed := l.filter Deed.isSending

/-- What an operation sends -/
def Spec.Kernel.tells (a : Spec.Kernel) : Op → List Deed
  | .send pid e => [.sent ⟨pid, messageAt a.pool.memory e⟩]
  | .delayedSend pid e delay => [.delayed ⟨pid, messageAt a.pool.memory e⟩ delay]
  | _ => []

lemma Call.sendings_none {m : Memory} {c : Call} (h : c.op = none) (x : c.Result) : sendings (c.deed m x) = [] := by
  cases c with
  | load y => rfl
  | getTime => rfl
  | write y => rfl
  | fail => exact x.elim
  | _ => cases h

lemma Call.sendings_deed {a : Spec.Kernel} {c : Call} {op : Op} (h : c.op = some op) (x : c.Result) :
    sendings (c.deed a.pool.memory x) = a.tells op := by
  cases c <;> cases h <;> rfl

/-- A call that was not answered has sent nothing. -/
lemma Call.tells_of_unanswered {a b : Spec.Kernel} {c : Call} {op : Op} {reply : Reply} (h : c.op = some op)
    (hy : a.call op = some (reply, b)) (hres : c.result reply = none) : a.tells op = [] := by
  cases c with
  | send pid e =>
    obtain rfl := Option.some.inj h
    obtain ⟨code, rfl⟩ := Spec.Kernel.send_code hy
    cases hres
  | delayedSend pid e delay =>
    obtain rfl := Option.some.inj h
    obtain ⟨y, -, hx⟩ := Option.map_eq_some_iff.mp hy
    obtain ⟨rfl, -⟩ := Prod.mk.inj hx
    cases hres
  | load y => cases h
  | getTime => cases h
  | write y => cases h
  | fail => cases h
  | _ =>
    obtain rfl := Option.some.inj h
    rfl

/-- The code may send what it sends. -/
lemma Call.tells_allowed {a : Spec.Kernel} {pid : UInt32} {v : View} {allowed : Deed → Prop} {c : Call} {op : Op}
    (hshows : a.Shows pid v) (hpre : (contract allowed).pre v c) (h : c.op = some op) :
    ∀ d ∈ a.tells op, allowed d := by
  intro d hd
  cases c with
  | send q e =>
    obtain rfl := Option.some.inj h
    obtain rfl := List.mem_singleton.mp hd
    rw [← hshows.messageAt hpre.1]
    exact hpre.2
  | delayedSend q e delay =>
    obtain rfl := Option.some.inj h
    obtain rfl := List.mem_singleton.mp hd
    rw [← hshows.messageAt hpre.1]
    exact hpre.2
  | load y => cases h
  | getTime => cases h
  | write y => cases h
  | fail => cases h
  | _ =>
    obtain rfl := Option.some.inj h
    cases hd

/-! ### The system -/

/-- Every message fits those before it. -/
def AllFit (Fits : List IoMessage → IoMessage → Prop) (l : List IoMessage) : Prop :=
  ∀ ms m, ms ++ [m] <+: l → Fits ms m

namespace Scripted

variable {ι : Type} {σ : ι → Type} {p : ∀ i, Process (σ i)} {allowed : ι → Deed → Prop}
  {Fits : ι → List IoMessage → IoMessage → Prop} {J : ∀ i, List IoMessage → σ i → List Deed → Prop}
  {priority : Fin 6 → UInt8} {base : Nat} {k₀ k : Kernel} {s t u : Scripted σ} {a b : Spec.Kernel} {r r' : PcbPtr}
  {v w : View} {op : Op} {reply : Reply} {x : Action ι} {xs : List (Action ι)} {i j : ι} {pid : UInt32}

lemma mail_after (h : KernelRep s.kernel a) (h' : KernelRep k b) :
    (s.after op reply k).mail = s.mail ++ (a.comesIn op reply).map (messageAt b.pool.memory) := by
  have hin : s.kernel.comesIn op reply = a.comesIn op reply := by
    rw [Kernel.comesIn.eq_def, h.nextBlock]
    exact (Spec.Kernel.comesIn.eq_def a op reply).symm
  rw [after, hin, h'.pool.memory]

lemma arrived_after (pid : UInt32) (h : KernelRep s.kernel a) (h' : KernelRep k b) (op : Op) (reply : Reply) :
    (s.after op reply k).arrived pid = s.arrived pid ++ a.arrivedFor pid op reply b := by
  rw [arrived, mail_after h h', List.filter_append, List.filter_map]
  rfl

lemma of_perform (h : s.perform op = some (reply, t)) :
    ∃ k, s.kernel.call op = some (reply, k) ∧ t = s.after op reply k := by
  obtain ⟨⟨reply', k⟩, hcall, hx⟩ := Option.map_eq_some_iff.mp h
  obtain ⟨rfl, rfl⟩ := Prod.mk.inj hx
  exact ⟨k, hcall, rfl⟩

/-- For the process `i` the two states are the same. -/
structure Agrees (s t : Scripted σ) (i : ι) : Prop where
  mail : t.mail = s.mail
  code : t.code i = s.code i
  received : t.received i = s.received i
  deeds : t.deeds i = s.deeds i

/-- The process `i` can go on, to reach `J` at its next `receive_message`. -/
structure Goes (p : ∀ i, Process (σ i)) (allowed : ι → Deed → Prop)
    (J : ∀ i, List IoMessage → σ i → List Deed → Prop) (s : Scripted σ) (a : Spec.Kernel) (i : ι) (v : View) :
    Prop where
  live : ∃ x ∈ a.sched.live, a.sched.pid x = (p i).pid
  shows : a.Shows (p i).pid v
  deeds : v.deeds = s.deeds i
  arrived : s.arrived (p i).pid = s.received i ++ a.inbox (p i).pid
  code : (s.code i).wp (contract (allowed i)) (fun q w => J i (s.received i) q w.deeds) v

/-- The invariant of the system, over the abstract kernel `a` -/
def Good (p : ∀ i, Process (σ i)) (allowed : ι → Deed → Prop) (J : ∀ i, List IoMessage → σ i → List Deed → Prop)
    (priority : Fin 6 → UInt8) (base : Nat) (s : Scripted σ) (a : Spec.Kernel) : Prop :=
  ∃ r, Orderly priority base s.kernel a r ∧ a.FreeZero ∧ ∀ i, ∃ v, Goes p allowed J s a i v

/-- A step without the kernel -/
structure Quiet (s t : Scripted σ) : Prop where
  kernel : t.kernel = s.kernel
  mail : t.mail = s.mail
  typed : t.typed = s.typed
  sends : ∀ i, sendings (t.deeds i) = sendings (s.deeds i)

/-- A step with the operation `op` of the kernel -/
structure Calls (p : ∀ i, Process (σ i)) (allowed : ι → Deed → Prop) (priority : Fin 6 → UInt8) (base : Nat)
    (s t : Scripted σ) (a : Spec.Kernel) (op : Op) (reply : Reply) (b : Spec.Kernel) : Prop where
  next : ∃ r', Orderly.Next priority base a op reply t.kernel b r'
  free : b.FreeZero
  mail : t.mail = s.mail ++ (a.comesIn op reply).map (messageAt b.pool.memory)
  typed : t.typed = s.typed ++ op.passedOn reply
  sends : ∀ i, op.isInterrupt = false → a.sched.currentPid = (p i).pid →
    sendings (t.deeds i) = sendings (s.deeds i) ++ a.tells op ∧ ∀ d ∈ a.tells op, allowed i d
  silent : ∀ i, op.isInterrupt = true ∨ a.sched.currentPid ≠ (p i).pid → sendings (t.deeds i) = sendings (s.deeds i)
  kept : ∀ i, ∀ x ∈ a.mailbox ++ a.delayed, a.rx x = (p i).pid → a.Kept b x

lemma Good.start (hc : ∀ i, (p i).Correct (allowed i) (Fits i) (J i)) (hprio : ∀ i, priority i ≤ 4)
    (hboot : boot priority base = some k₀) (hp : ∀ i, (p i).pid ∈ (initBlocks priority).map Prod.fst) :
    ∃ a, (start p k₀).Good p allowed J priority base a ∧ a.delayed = [] := by
  obtain ⟨a, r, ho, hfresh⟩ := Orderly.boot hprio hboot
  refine ⟨a, ⟨r, ho, ?_, fun i => ⟨⟨[], a.pool.memory, []⟩, ?_, ?_, rfl, ?_, (hc i).start _ rfl rfl⟩⟩, hfresh.delayed⟩
  · obtain ⟨q, hq, -, -, -, hmem⟩ := poolRep_initMemory base
    intro c _ i _
    rw [← ho.rep.pool.memory, boot_pool hboot, hq.memory, hmem]
  · obtain ⟨y, hy, hpid⟩ := List.mem_map.mp (hp i)
    exact hpid ▸ hfresh.lives y hy
  · exact ⟨fun e he => (by cases he), fun e he => (by cases he)⟩
  · simp [Scripted.start, Scripted.arrived, Spec.Kernel.inbox, Spec.Kernel.mailTo, hfresh.mailbox]

/-! ### What the others do -/

/-- What an interrupt or another process does -/
lemma Goes.other (h : Goes p allowed J s a i v) (ho : Orderly priority base s.kernel a r) (hbase : base ≠ 0)
    (hown : a.UsesOwn op) (hcaller : op.isInterrupt = true ∨ a.sched.currentPid ≠ (p i).pid)
    (hn : Orderly.Next priority base a op reply k b r') (ht : (s.after op reply k).Agrees t i) :
    Goes p allowed J t b i v := by
  have hout := hown.outside ho.ok hcaller
  have hk := hout.preserves ho.ok ho.mailOwned hn.permits hn.respects hn.effect
  have hself : (p i).pid ∈ [(p i).pid] := List.mem_singleton_self _
  have hin := hn.effect.inbox (p i).pid ho.ok ho.posted hn.permits hk (fun _ _ => hself) hbase h.live ?_
  · refine ⟨hout.live ho.ok hn.call hself h.live, h.shows.preserves hk fun _ _ => hself, ht.deeds ▸ h.deeds, ?_, ?_⟩
    · rw [Scripted.arrived, ht.mail, ht.received]
      have harrived := arrived_after (p i).pid ho.rep hn.orderly.rep op reply
      rw [h.arrived, List.append_assoc, ← hin] at harrived
      exact harrived
    · rw [ht.code, ht.received]
      exact h.code
  · rintro rfl -
    rcases hout.caller with hint | hne
    · cases hint
    · simpa using hne

/-- What the others keep -/
lemma kept_of_other (ho : Orderly priority base s.kernel a r) (hown : a.UsesOwn op)
    (hcaller : op.isInterrupt = true ∨ a.sched.currentPid ≠ pid)
    (hn : Orderly.Next priority base a op reply k b r') :
    ∀ x ∈ a.mailbox ++ a.delayed, a.rx x = pid → a.Kept b x := by
  have hk := (hown.outside ho.ok hcaller).preserves ho.ok ho.mailOwned hn.permits hn.respects hn.effect
  intro x hx hrx
  exact hk.kept x hx (hrx ▸ List.mem_singleton_self _)

/-! ### What a process does itself -/

/-- The process `i` makes a call of the kernel, and can go on. -/
structure CallsOwn (p : ∀ i, Process (σ i)) (allowed : ι → Deed → Prop)
    (Fits : ι → List IoMessage → IoMessage → Prop) (J : ∀ i, List IoMessage → σ i → List Deed → Prop)
    (priority : Fin 6 → UInt8) (base : Nat) (s t : Scripted σ) (a : Spec.Kernel) (i : ι) (op : Op) (reply : Reply)
    (b : Spec.Kernel) (r' : PcbPtr) : Prop where
  noInterrupt : op.isInterrupt = false
  usesOwn : a.UsesOwn op
  next : Orderly.Next priority base a op reply t.kernel b r'
  mail : t.mail = (s.after op reply t.kernel).mail
  typed : t.typed = (s.after op reply t.kernel).typed
  agrees : ∀ j, j ≠ i → (s.after op reply t.kernel).Agrees t j
  sends : sendings (t.deeds i) = sendings (s.deeds i) ++ a.tells op ∧ ∀ d ∈ a.tells op, allowed i d
  kept : ∀ x ∈ a.mailbox ++ a.delayed, a.Kept b x
  goes : AllFit (Fits i) (t.arrived (p i).pid) → ∃ w, Goes p allowed J t b i w

lemma CallsOwn.calls (h : s.CallsOwn p allowed Fits J priority base t a i op reply b r')
    (ho : Orderly priority base s.kernel a r) (hfree : a.FreeZero)
    (hinj : ∀ j, (p j).pid = (p i).pid → j = i) (hcur : a.sched.currentPid = (p i).pid) :
    s.Calls p allowed priority base t a op reply b where
  next := ⟨r', h.next⟩
  free := hfree.step ho.ok h.usesOwn h.next.effect
  mail := h.mail.trans (mail_after ho.rep h.next.orderly.rep)
  typed := h.typed
  sends := by
    intro j _ hj
    obtain rfl := hinj j (hj.symm.trans hcur)
    exact h.sends
  silent := by
    rintro j (hint | hne)
    · rw [h.noInterrupt] at hint
      cases hint
    · have hj : j ≠ i := fun heq => hne (heq ▸ hcur)
      exact congrArg sendings (h.agrees j hj).deeds
  kept := fun j x hx _ => h.kept x hx

lemma CallsOwn.good (h : s.CallsOwn p allowed Fits J priority base t a i op reply b r')
    (ho : Orderly priority base s.kernel a r) (hfree : a.FreeZero) (hbase : base ≠ 0)
    (hinj : ∀ j, (p j).pid = (p i).pid → j = i) (hcur : a.sched.currentPid = (p i).pid)
    (hgoes : ∀ j, ∃ v, Goes p allowed J s a j v) (hfits : AllFit (Fits i) (t.arrived (p i).pid)) :
    t.Good p allowed J priority base b := by
  refine ⟨r', h.next.orderly, hfree.step ho.ok h.usesOwn h.next.effect, ?_⟩
  intro j
  by_cases hj : j = i
  · subst hj
    exact h.goes hfits
  · obtain ⟨v, hv⟩ := hgoes j
    have hne : a.sched.currentPid ≠ (p j).pid := fun heq => hj (hinj j (heq.symm.trans hcur))
    exact ⟨v, hv.other ho hbase h.usesOwn (.inr hne) h.next (h.agrees j hj)⟩

/-- A call of the kernel -/
lemma Goes.call_own (h : Goes p allowed J s a i v) (ho : Orderly priority base s.kernel a r) (hp : a.Permits op)
    (hr : a.Respects op) (hop : op ≠ .terminate) (hx : s.perform op = some (reply, t)) :
    ∃ k b r', t = s.after op reply k ∧ Orderly.Next priority base a op reply k b r' ∧
      ∃ x ∈ b.sched.live, b.sched.pid x = (p i).pid := by
  obtain ⟨k, hcall, rfl⟩ := of_perform hx
  obtain ⟨b, r', hn⟩ := ho.step_of_permits hp hr hcall
  refine ⟨k, b, r', rfl, hn, ?_⟩
  obtain ⟨y, hy, hpid⟩ := h.live
  obtain ⟨hy', hpid'⟩ := ho.ok.live_step hn.call hy fun hterm => absurd hterm hop
  exact ⟨y, hy', hpid'.trans hpid⟩

variable [DecidableEq ι]

lemma Agrees.goOn {l : List Deed} {code : Script (σ i)} (hj : j ≠ i) : s.Agrees (s.goOn i l code) j :=
  ⟨rfl, Function.update_of_ne hj _ _, rfl, Function.update_of_ne hj _ _⟩

lemma goOn_code {l : List Deed} {code : Script (σ i)} : (s.goOn i l code).code i = code := by
  simp only [Scripted.goOn, Function.update_self]

lemma goOn_deeds {l : List Deed} {code : Script (σ i)} : (s.goOn i l code).deeds i = s.deeds i ++ l := by
  simp only [Scripted.goOn, Function.update_self]

/-- The process receives a message and begins its next turn, or it waits. -/
lemma Goes.receive (h : Goes p allowed J s a i v) (ho : Orderly priority base s.kernel a r) (hbase : base ≠ 0)
    (hc : (p i).Correct (allowed i) (Fits i) (J i)) (hcur : a.sched.currentPid = (p i).pid)
    (hpid : (p i).pid ≠ 0) {q : σ i} (hcode : s.code i = .done q) (hx : s.receive p i q = some t) :
    ∃ reply b r', s.CallsOwn p allowed Fits J priority base t a i .receive reply b r' := by
  have hJ : J i (s.received i) q v.deeds := by
    have hwp := h.code
    rwa [hcode] at hwp
  have hw : Op.WorksAt none .receive := trivial
  have hpre : a.Permits .receive := show a.sched.currentPid ≠ 0 from hcur ▸ hpid
  obtain ⟨⟨reply, u⟩, hu, hx⟩ := Option.map_eq_some_iff.mp hx
  obtain ⟨k, b, r', rfl, hn, hlive⟩ := h.call_own ho hpre trivial (by simp) hu
  have hk := hw.preserves_all ho.ok ho.mailOwned hpre hn.effect
  have hsame : (s.after .receive reply k).arrived (p i).pid = s.arrived (p i).pid := by
    rw [arrived_after _ ho.rep hn.orderly.rep]
    exact List.append_nil _
  have hshows := h.shows.preserves hk fun _ _ => trivial
  have hsends : sendings (s.deeds i) = sendings (s.deeds i) ++ a.tells .receive ∧
      ∀ d ∈ a.tells .receive, allowed i d := ⟨(List.append_nil _).symm, by simp [Spec.Kernel.tells]⟩
  refine ⟨reply, b, r', ?_⟩
  rcases Spec.Kernel.receive_cases ho.posted ho.mailOwned hn.call hn.effect with rfl | ⟨e, tx, rfl, hrec⟩
  · obtain rfl := hx
    have hin := hn.effect.inbox (p i).pid ho.ok ho.posted hpre hk (fun _ _ => trivial) hbase h.live
      fun _ hq => by cases hq
    have hin' : b.inbox (p i).pid = a.inbox (p i).pid := hin.trans (List.append_nil _)
    refine ⟨rfl, trivial, hn, rfl, rfl, fun _ _ => ⟨rfl, rfl, rfl, rfl⟩, hsends,
      fun x hx => hk.kept x hx trivial, fun _ => ⟨v, hlive, hshows, h.deeds, ?_, h.code⟩⟩
    rw [hsame, hin']
    exact h.arrived
  · obtain rfl := hx
    have hmem : k.pool.memory = a.pool.memory := by
      rw [hn.orderly.rep.pool.memory, hrec.pool]
    have hin : a.inbox (p i).pid = messageAt a.pool.memory e :: b.inbox (p i).pid := by
      have hmail := hrec.mailTo
      rw [hcur] at hmail
      rw [Spec.Kernel.inbox, hmail, List.map_cons, Spec.Kernel.inbox, hrec.pool]
    have harrived : s.arrived (p i).pid =
        (s.received i ++ [messageAt a.pool.memory e]) ++ b.inbox (p i).pid := by
      rw [h.arrived, hin, List.append_assoc]
      rfl
    refine ⟨rfl, trivial, hn, rfl, rfl, ?_, hsends, fun x hx => hk.kept x hx trivial,
      fun hfits => ⟨⟨e :: v.held, a.pool.memory, v.deeds⟩, hlive, ⟨?_, ?_⟩, h.deeds, ?_, ?_⟩⟩
    · intro j hj
      exact ⟨rfl, Function.update_of_ne hj _ _, Function.update_of_ne hj _ _, rfl⟩
    · intro y hy
      rcases List.mem_cons.mp hy with rfl | hy
      · exact hcur ▸ hrec.held
      · exact hshows.held y hy
    · intro y _ x _ _
      rw [hrec.pool]
    · refine (hsame.trans harrived).trans ?_
      dsimp only
      rw [Function.update_self]
      exact congrArg (fun m => (s.received i ++ [messageAt m e]) ++ b.inbox (p i).pid) hmem.symm
    · dsimp only
      rw [Function.update_self, Function.update_self]
      rw [show (s.after .receive (.envelope (some (e, tx))) k).kernel.pool.memory = a.pool.memory from hmem]
      exact hc.turn (s.received i) _ q e ⟨e :: v.held, a.pool.memory, v.deeds⟩ hJ
        (hfits _ _ ⟨_, (hsame.trans harrived).symm⟩) List.mem_cons_self rfl

/-- A call that is answered without the kernel -/
lemma Goes.proceed_quiet (h : Goes p allowed J s a i v) (ho : Orderly priority base s.kernel a r) {c : Call}
    {next : c.Result → Script (σ i)} (hcode : s.code i = .step c next) (hop : c.op = none)
    (hx : s.proceed i c next = some t) :
    s.Quiet t ∧ (∀ j, j ≠ i → s.Agrees t j) ∧ ∃ w, Goes p allowed J t a i w := by
  have hwp := h.code
  rw [hcode] at hwp
  obtain ⟨hpre, hpost⟩ := hwp
  rw [Scripted.proceed, hop] at hx
  obtain ⟨y, hread, rfl⟩ := Option.map_eq_some_iff.mp hx
  have hon : ∀ w, (contract (allowed i)).post v c y w → a.Shows (p i).pid w →
      w.deeds = v.deeds ++ c.deed s.kernel.pool.memory y →
      Goes p allowed J (s.goOn i (c.deed s.kernel.pool.memory y) (next y)) a i w := by
    intro w hw hshows hdeeds
    refine ⟨h.live, hshows, ?_, h.arrived, ?_⟩
    · rw [hdeeds, h.deeds, goOn_deeds]
    · rw [goOn_code]
      exact hpost y w hw
  refine ⟨⟨rfl, rfl, rfl, ?_⟩, fun j hj => .goOn hj, ?_⟩
  · intro j
    by_cases hj : j = i
    · subst hj
      rw [goOn_deeds, sendings, List.filter_append]
      have hnone := Call.sendings_none (m := s.kernel.pool.memory) hop y
      rw [sendings] at hnone
      rw [hnone, List.append_nil]
      rfl
    · exact congrArg sendings (Agrees.goOn hj).deeds
  · cases c with
    | load z =>
      obtain rfl := Option.some.inj hread
      refine ⟨v, hon v ⟨?_, rfl⟩ h.shows (List.append_nil _).symm⟩
      rw [ho.rep.pool.memory]
      exact (h.shows.load hpre).symm
    | getTime => exact ⟨_, hon _ rfl ⟨h.shows.held, h.shows.memory⟩ rfl⟩
    | write z => exact ⟨_, hon _ rfl ⟨h.shows.held, h.shows.memory⟩ rfl⟩
    | fail => exact hpre.elim
    | _ => cases hop

/-- A call of the kernel -/
lemma Goes.proceed_call (h : Goes p allowed J s a i v) (Fits : ι → List IoMessage → IoMessage → Prop)
    (ho : Orderly priority base s.kernel a r) (hfree : a.FreeZero)
    (hbase : base ≠ 0) (hcur : a.sched.currentPid = (p i).pid) (hpid : (p i).pid ≠ 0) {c : Call}
    {next : c.Result → Script (σ i)} (hcode : s.code i = .step c next) (hop : c.op = some op)
    (hx : s.proceed i c next = some t) :
    ∃ reply b r', s.CallsOwn p allowed Fits J priority base t a i op reply b r' := by
  have hwp := h.code
  rw [hcode] at hwp
  obtain ⟨hpre, hpost⟩ := hwp
  rw [Scripted.proceed, hop] at hx
  obtain ⟨⟨reply, u⟩, hu, hx⟩ := Option.map_eq_some_iff.mp hx
  obtain ⟨hp, hr, hown⟩ := h.shows.proper ho.ok ho.mailOwned hcur hpid hpre hop
  have hkind : op.isInterrupt = false ∧ op ≠ .terminate ∧ op ≠ .receive := by
    cases c <;> cases hop <;> simp [Op.isInterrupt]
  obtain ⟨k, b, r', rfl, hn, hlive⟩ := h.call_own ho hp hr hkind.2.1 hu
  obtain ⟨hsome, hnone⟩ := h.shows.call ho.ok hn.orderly.ok ho.mailOwned hfree hcur hpid hpre hop hn.call hn.effect
  have hk := h.shows.mail ho.ok ho.mailOwned hp hpre hop hn.effect
  have hin := hn.effect.inbox (p i).pid ho.ok ho.posted hp hk
    (fun x hx => List.mem_append_left _ (Spec.Kernel.mem_mailTo.mp hx).1) hbase h.live
    fun hr => absurd hr hkind.2.2
  have harrived : (s.after op reply k).arrived (p i).pid = s.received i ++ b.inbox (p i).pid := by
    rw [arrived_after _ ho.rep hn.orderly.rep, h.arrived, hin, List.append_assoc]
  have hallowed := Call.tells_allowed h.shows hpre hop
  refine ⟨reply, b, r', ?_⟩
  cases hres : c.result reply with
  | some y =>
    simp only [hres] at hx
    obtain rfl := hx
    obtain ⟨w, hw, hshows, hdeeds⟩ := hsome y hres
    refine ⟨hkind.1, hown, hn, rfl, rfl, fun j hj => .goOn hj, ⟨?_, hallowed⟩, fun x hx => hk.kept x hx hx,
      fun _ => ⟨w, hlive, hshows, ?_, harrived, ?_⟩⟩
    · rw [goOn_deeds, sendings, List.filter_append, ← Call.sendings_deed hop y, ho.rep.pool.memory]
      rfl
    · rw [goOn_deeds, hdeeds, h.deeds, ho.rep.pool.memory]
      rfl
    · rw [goOn_code]
      exact hpost y w hw
  | none =>
    simp only [hres] at hx
    obtain rfl := hx
    have hnothing := Call.tells_of_unanswered hop hn.call hres
    refine ⟨hkind.1, hown, hn, rfl, rfl, fun _ _ => ⟨rfl, rfl, rfl, rfl⟩, ⟨?_, hallowed⟩,
      fun x hx => hk.kept x hx hx, fun _ => ⟨v, hlive, hnone hres, h.deeds, harrived, ?_⟩⟩
    · rw [hnothing, List.append_nil]
      rfl
    · dsimp only [after]
      rw [hcode]
      exact ⟨hpre, hpost⟩

variable [Fintype ι]

/-- One step of the system: what it is, and if the messages that have come in fit, the processes can go on. -/
theorem Good.step (hc : ∀ i, (p i).Correct (allowed i) (Fits i) (J i)) (hbase : base ≠ 0)
    (hpid : ∀ i, (p i).pid ≠ 0) (hinj : Function.Injective fun i => (p i).pid)
    (h : s.Good p allowed J priority base a) (hx : Step p s x t) :
    (s.Quiet t ∧ t.Good p allowed J priority base a) ∨
      ∃ op reply b, s.Calls p allowed priority base t a op reply b ∧
        ((∀ i, AllFit (Fits i) (t.arrived (p i).pid)) → t.Good p allowed J priority base b) := by
  obtain ⟨r, ho, hfree, hgoes⟩ := h
  cases x with
  | call op =>
    right
    rw [Step, Scripted.step] at hx
    split_ifs at hx with hop
    obtain ⟨⟨reply, u⟩, hu, rfl⟩ := Option.map_eq_some_iff.mp hx
    obtain ⟨k, hcall, rfl⟩ := of_perform hu
    obtain ⟨hcaller, hproper, hown⟩ := hop
    rw [ho.toSound.usesOwn_iff] at hown
    rw [ho.rep.currentPid] at hcaller
    obtain ⟨b, r', hn⟩ := ho.step hproper hcall
    have hfree' := hfree.step ho.ok hown hn.effect
    have hothers : ∀ i, op.isInterrupt = true ∨ a.sched.currentPid ≠ (p i).pid :=
      fun i => hcaller.imp_right fun hne => hne i
    refine ⟨op, reply, b, ⟨⟨r', hn⟩, hfree', mail_after ho.rep hn.orderly.rep, rfl, ?_, fun _ _ => rfl, ?_⟩, ?_⟩
    · intro i hint hcur
      rcases hothers i with hint' | hne
      · rw [hint] at hint'
        cases hint'
      · exact absurd hcur hne
    · exact fun i => kept_of_other ho hown (hothers i) hn
    · refine fun _ => ⟨r', hn.orderly, hfree', ?_⟩
      intro i
      obtain ⟨v, hv⟩ := hgoes i
      exact ⟨v, hv.other ho hbase hown (hothers i) hn ⟨rfl, rfl, rfl, rfl⟩⟩
  | own i =>
    rw [Step, Scripted.step, ho.rep.currentPid] at hx
    split_ifs at hx with hcur
    obtain ⟨v, hv⟩ := hgoes i
    have hone : ∀ j, (p j).pid = (p i).pid → j = i := fun j hj => hinj hj
    cases hcode : s.code i with
    | done q =>
      right
      rw [hcode] at hx
      obtain ⟨reply, b, r', hcalls⟩ := hv.receive ho hbase (hc i) hcur (hpid i) hcode hx
      exact ⟨_, reply, b, hcalls.calls ho hfree hone hcur,
        fun hfits => hcalls.good ho hfree hbase hone hcur hgoes (hfits i)⟩
    | step c next =>
      rw [hcode] at hx
      cases hop : c.op with
      | some op =>
        right
        obtain ⟨reply, b, r', hcalls⟩ := hv.proceed_call Fits ho hfree hbase hcur (hpid i) hcode hop hx
        exact ⟨_, reply, b, hcalls.calls ho hfree hone hcur,
          fun hfits => hcalls.good ho hfree hbase hone hcur hgoes (hfits i)⟩
      | none =>
        left
        obtain ⟨hquiet, hagree, w, hw⟩ := hv.proceed_quiet ho hcode hop hx
        refine ⟨hquiet, r, hquiet.kernel ▸ ho, hfree, ?_⟩
        intro j
        by_cases hj : j = i
        · subst hj
          exact ⟨w, hw⟩
        · obtain ⟨y, hy⟩ := hgoes j
          obtain ⟨hmail, hcode', hrec, hdeeds⟩ := hagree j hj
          refine ⟨y, hy.live, hy.shows, hdeeds ▸ hy.deeds, ?_, ?_⟩
          · rw [Scripted.arrived, hmail, hrec]
            exact hy.arrived
          · rw [hcode', hrec]
            exact hy.code

end Scripted

end RtxKernel
