import RtxKernel.Kernel.Early
import RtxKernel.Process.ClockScript
import RtxKernel.Process.PriorityScript
import RtxKernel.Process.Terminal

/-!
# The wall clock and the priority command at the screen

The processes of `wallclock/wallclock.c`, `core/priority_switch.c` and `io/crt.c`, all three running their code, among
other processes and interrupts. What comes to the CRT process from the wall clock are times of day that were right
when it read the time (`clock_shows`), and from the priority command the answers to what it has received, in their
order (`priority_replies`).
-/

namespace RtxKernel

open Script

/-- The processes -/
inductive Service
  | crt
  | wallclock
  | prioritySwitch
  deriving DecidableEq

namespace Service

instance : Fintype Service := ⟨{crt, wallclock, prioritySwitch}, fun i => by cases i <;> decide⟩

abbrev State : Service → Type
  | crt | prioritySwitch => Unit
  | wallclock => Wallclock

def process : ∀ i, Process (State i)
  | crt => RtxKernel.crt
  | wallclock => Wallclock.process
  | prioritySwitch => PrioritySwitch.process

def pid : Service → UInt32
  | crt => crtPid
  | wallclock => wallclockPid
  | prioritySwitch => prioritySwitchPid

/-- A command is registered, or a text that ends is sent to the CRT process. -/
def Reports (call : Send) : Prop :=
  call.processId = kcdPid ∨ call.processId = crtPid ∧ Ends call.message.msg 0 msgSize

/-- What the processes send -/
def Allowed : Service → Deed → Prop
  | crt, .sent call => call.processId = uartPid
  | wallclock, .sent call | prioritySwitch, .sent call => Reports call
  | wallclock, .delayed call _ => call.processId = wallclockPid
  | _, _ => False

/-- The messages that the processes can take -/
def Fits : Service → List IoMessage → IoMessage → Prop
  | crt => fun _ m => Ends m.msg 0 msgSize
  | wallclock => fun _ _ => True
  | prioritySwitch => fun _ m => PrioritySwitch.InEnvelope m

/-- What the processes have done with the messages that they have received -/
def Has : ∀ i, List IoMessage → State i → List Deed → Prop
  | crt => fun ms _ deeds => deeds = (ms.flatMap IoMessage.text).map fun c => .sent (charSend c)
  | wallclock => Wallclock.Handled
  | prioritySwitch => PrioritySwitch.Replied

variable {priority : Fin 6 → UInt8} {base : Nat} {k₀ : Kernel} {s : Scripted State}
  {ops : List (Scripted.Action Service)} {m : IoMessage} {l : List IoMessage}

lemma ends_display (w : Wallclock) (now : UInt32) : Ends (w.display now).message.msg 0 msgSize :=
  ⟨10, by decide, rfl⟩

theorem correct (i : Service) : (process i).Correct (Allowed i) (Fits i) (Has i) := by
  cases i with
  | crt => exact crt_correct fun _ => rfl
  | wallclock =>
    refine Wallclock.correct (fun _ _ => .inl rfl) ?_ rfl
    exact fun w now => .inr ⟨rfl, ends_display w now⟩
  | prioritySwitch =>
    refine PrioritySwitch.correct (.inl rfl) ?_
    exact fun call hcrt hends => .inr ⟨hcrt, hends⟩

lemma process_pid (i : Service) : (process i).pid = pid i := by
  cases i <;> rfl

lemma pid_injective : Function.Injective pid := by
  intro i j hij
  revert hij
  cases i <;> cases j <;> decide

/-- A text for the CRT process ends, if the texts of others do. -/
lemma ends_of_origin (h : Scripted.Origin process Allowed m) (hrx : m.rx = crtPid)
    (hothers : (∀ i, m.tx ≠ pid i) → Ends m.msg 0 msgSize) : Ends m.msg 0 msgSize := by
  have hreports : ∀ {call : Send} {tx : UInt32}, m = call.signed tx → Reports call → Ends m.msg 0 msgSize := by
    rintro call tx rfl (hkcd | ⟨-, hends⟩)
    · have hboth : kcdPid = crtPid := hkcd.symm.trans hrx
      cases hboth
    · exact hends
  cases h with
  | typed tx c hm =>
    subst hm
    cases hrx
  | own i call hm hallowed =>
    cases i with
    | crt =>
      subst hm
      have hboth : uartPid = crtPid := hallowed.symm.trans hrx
      cases hboth
    | wallclock => exact hreports hm hallowed
    | prioritySwitch => exact hreports hm hallowed
  | later h =>
    cases h with
    | other hne => exact hothers fun i => process_pid i ▸ hne i
    | own i call delay hm hallowed =>
      cases i with
      | crt => exact hallowed.elim
      | prioritySwitch => exact hallowed.elim
      | wallclock =>
        subst hm
        have hboth : wallclockPid = crtPid := hallowed.symm.trans hrx
        cases hboth

/-- The messages that come in fit, if what the others send does. -/
lemma allFit (htexts : ∀ m ∈ s.arrived crtPid, (∀ i, m.tx ≠ pid i) → Ends m.msg 0 msgSize)
    (hcommands : ∀ m ∈ s.arrived prioritySwitchPid, PrioritySwitch.InEnvelope m)
    (hl : l <+: s.mail) (hall : Scripted.AllMail process Allowed l) (i : Service) :
    AllFit (Fits i) (l.filter fun m => m.rx = (process i).pid) := by
  intro ms m hpre
  have hlast : m ∈ ms ++ [m] := List.mem_append_right _ (List.mem_singleton_self m)
  have harrived := (hpre.trans (hl.filter _)).subset hlast
  cases i with
  | wallclock => trivial
  | prioritySwitch => exact hcommands m harrived
  | crt =>
    obtain ⟨hmem, hrx⟩ := List.mem_filter.mp (hpre.subset hlast)
    have hrx : m.rx = crtPid := of_decide_eq_true hrx
    exact ends_of_origin (hall m hmem crt hrx) hrx (htexts m harrived)

/-- The three processes run as their code says. -/
lemma runs (hprio : ∀ i, priority i ≤ 4) (hbase : base ≠ 0) (hboot : boot priority base = some k₀)
    (hrun : Run (Scripted.Step process) (Scripted.start process k₀) ops s)
    (htexts : ∀ m ∈ s.arrived crtPid, (∀ i, m.tx ≠ pid i) → Ends m.msg 0 msgSize)
    (hcommands : ∀ m ∈ s.arrived prioritySwitchPid, PrioritySwitch.InEnvelope m) :
    (∀ i, s.AsCode process Has i) ∧ ∀ i, i ≠ crt → s.Channel process i crt := by
  have hinj : Function.Injective fun i => (process i).pid := by
    simpa only [process_pid] using pid_injective
  obtain ⟨hcode, a, hdel⟩ := Scripted.runs_as_code correct hprio hbase hboot
    (fun i => by cases i <;> simp [process_pid, pid, initBlocks, crtPid, wallclockPid, prioritySwitchPid])
    (fun i => by cases i <;> decide) hinj hrun fun l hl hall i => allFit htexts hcommands hl hall i
  refine ⟨hcode, ?_⟩
  intro i hi
  refine hdel.channel i crt (by decide) ?_
  intro call delay hallowed hcrt
  cases i with
  | crt => exact hi rfl
  | prioritySwitch => exact hallowed
  | wallclock =>
    have hboth : wallclockPid = crtPid := hallowed.symm.trans hcrt
    cases hboth

/-! ### The times at the screen -/

/-- The wall clock in the system, in every state that is reached: it has received its messages in their order, and
has done what `Wallclock.turn` says about them, at the times that it has read. Each message that has come from it to
the CRT process is the time of day to which it was set and the seconds since then. -/
theorem clock_shows (hprio : ∀ i, priority i ≤ 4) (hbase : base ≠ 0) (hboot : boot priority base = some k₀)
    (hrun : Run (Scripted.Step process) (Scripted.start process k₀) ops s)
    (htexts : ∀ m ∈ s.arrived crtPid, (∀ i, m.tx ≠ pid i) → Ends m.msg 0 msgSize)
    (hcommands : ∀ m ∈ s.arrived prioritySwitchPid, PrioritySwitch.InEnvelope m) :
    ∃ l, l.map Prod.fst = s.received wallclock ∧ s.received wallclock <+: s.arrived wallclockPid ∧
      (∀ m ∈ s.arrived crtPid, m.tx = wallclockPid → Wallclock.Shows l (s.deeds wallclock) m.msg) ∧
      s.deeds wallclock <+: Wallclock.registrations ++ (Wallclock.handle l).2 ∧
      ∀ w, s.code wallclock = .done w →
        w = (Wallclock.handle l).1 ∧ s.deeds wallclock = Wallclock.registrations ++ (Wallclock.handle l).2 := by
  obtain ⟨hcode, hchannel⟩ := runs hprio hbase hboot hrun htexts hcommands
  obtain ⟨l, hl, hpre, hwaiting⟩ : ∃ l, l.map Prod.fst = s.received wallclock ∧
      s.deeds wallclock <+: Wallclock.registrations ++ (Wallclock.handle l).2 ∧
      ∀ w, s.code wallclock = .done w →
        w = (Wallclock.handle l).1 ∧ s.deeds wallclock = Wallclock.registrations ++ (Wallclock.handle l).2 := by
    -- in the middle of a turn the times that are still to be read are not known
    cases hdone : s.code wallclock with
    | done q =>
      obtain ⟨l, hl, hq, hdeeds⟩ := (hcode wallclock).waiting q hdone
      refine ⟨l, hl, hdeeds ▸ List.prefix_refl _, ?_⟩
      intro w hw
      cases hw
      exact ⟨hq, hdeeds⟩
    | step c next =>
      obtain ⟨-, -, ⟨l, hl, -, rfl⟩, hpre⟩ := (hcode wallclock).within
      exact ⟨l, hl, hpre, fun w hw => by cases hw⟩
  refine ⟨l, hl, (hcode wallclock).received, ?_, hpre, hwaiting⟩
  intro m hm htx
  obtain ⟨call, rfl, hsent, hcrt⟩ := (hchannel wallclock (by decide)).exists_sent hm htx
  exact Wallclock.shows_of_prefix hpre hsent hcrt

def writes (x : Nat) (bs : List UInt8) : List (Scripted.Action Service) :=
  bs.mapIdx fun i b => .call (.store (x + i) b)

/-- The commands are registered. The process `kcdPid`, which is an arbitrary one here, passes `%WS 12:34:56` and
`%C 1 3` on, in the envelopes of the registrations. The clock is set. -/
def passedOn : List (Scripted.Action Service) :=
  [.call .receive, .own crt, .call .receive] ++ List.replicate 19 (.own wallclock) ++
    List.replicate 9 (.own prioritySwitch) ++ [.call .receive] ++
    writes (msgField 4096 + 3) [0x20, 0x31, 0x32, 0x3a, 0x33, 0x34, 0x3a, 0x35, 0x36] ++
    [.call (.send wallclockPid 4096), .call .receive, .call .receive] ++
    writes (msgField 4352 + 2) [0x20, 0x31, 0x20, 0x33] ++ [.call (.send prioritySwitchPid 4352), .call .receive] ++
    List.replicate 33 (.own wallclock)

/-- At the next tick the message of the clock to itself is due. Both messages are dealt with. -/
def dealtWith : List (Scripted.Action Service) :=
  .call .timer :: List.replicate 52 (.own prioritySwitch) ++ List.replicate 24 (.own wallclock)

def secondLater : List (Scripted.Action Service) := passedOn ++ List.replicate 999 (.call .timer) ++ dealtWith

def setTicks (s : Scripted State) (n : Nat) : Scripted State := { s with kernel := s.kernel.setTicks n }

/-- No time has passed yet, and in `n` ticks no message will be due. -/
def Idle (s : Scripted State) (n : Nat) : Prop :=
  s.kernel.ticks = 0 ∧ (∀ i < memBlockCount, ∀ e ∈ s.kernel.delayedMailbox i, n < (s.kernel.sendTime e).toNat) ∧
    s.kernel.sched.getProcessPriority s.kernel.currentPid = some 0

instance (s : Scripted State) (n : Nat) : Decidable (Idle s n) :=
  inferInstanceAs (Decidable (_ ∧ (∀ i < memBlockCount, ∀ e ∈ s.kernel.delayedMailbox i, _) ∧ _))

section Ticks

variable {n : Nat} (h : ∀ i < memBlockCount, ∀ e ∈ s.kernel.delayedMailbox i, n < (s.kernel.sendTime e).toNat)
  (hp : s.kernel.sched.getProcessPriority s.kernel.currentPid = some 0)

include hp

lemma step_timer (h : ∀ i < memBlockCount, ∀ e ∈ s.kernel.delayedMailbox i, n + 1 < (s.kernel.sendTime e).toNat) :
    Scripted.Step process (setTicks s n) (.call .timer) (setTicks s (n + 1)) := by
  have hcall : (setTicks s n).kernel.call .timer = some (.moved [], (setTicks s (n + 1)).kernel) :=
    Kernel.call_timer_setTicks h hp (by decide)
  have hothers : (setTicks s n).ByOthers process .timer := ⟨.inl rfl, ⟨fun _ => trivial, trivial⟩, trivial⟩
  have hperform : (setTicks s n).perform .timer = some (.moved [], setTicks s (n + 1)) := by
    rw [Scripted.perform, hcall]
    simp [Scripted.after, Kernel.comesIn, Op.arrivals, Op.passedOn, setTicks]
  rw [Scripted.Step, Scripted.step, if_pos hothers, hperform]
  rfl

include h

lemma run_timers : Run (Scripted.Step process) (setTicks s 0) (List.replicate n (.call .timer)) (setTicks s n) := by
  induction n with
  | zero => exact .nil _
  | succ n ih =>
    rw [List.replicate_succ']
    exact .append (ih fun i hi e he => Nat.lt_of_succ_lt (h i hi e he)) (.single (step_timer hp h))

end Ticks

lemma Idle.run {n : Nat} (h : Idle s n) :
    Run (Scripted.Step process) s (List.replicate n (.call .timer)) (setTicks s n) := by
  obtain ⟨hzero, hlate, hp⟩ := h
  have hkernel : s.kernel.setTicks 0 = s.kernel := by
    rw [Kernel.setTicks]
    change Kernel.mk s.kernel.sched s.kernel.pool s.kernel.mailbox s.kernel.delayedMailbox 0 = s.kernel
    rw [← hzero]
  have hstart : setTicks s 0 = s := by
    rw [setTicks, hkernel]
  exact hstart ▸ run_timers hlate hp

/-- What there is to see of a state: the senders and the beginnings of the texts for the CRT process, and whether the
commands are read in their fields -/
def seen (s : Scripted State) : List (UInt32 × List UInt8) × Bool :=
  ((s.arrived crtPid).map fun m => (m.tx, (List.range 8).map m.msg), (s.arrived prioritySwitchPid).all fun m =>
    (priorityReads m.msg 0).all (fun x => decide (x < 0 + msgSize)) && decide (m.msg 63 = 0))

lemma seen_secondLater : ∃ k₀ s, boot (fun _ => 2) 4096 = some k₀ ∧
    Run (Scripted.Step process) (Scripted.start process k₀) secondLater s ∧
      ((s.arrived crtPid).map fun m => (m.tx, (List.range 8).map m.msg)) =
        [(prioritySwitchPid, [0x50, 0x72, 0x69, 0x6f, 0x72, 0x69, 0x74, 0x79]),
          (wallclockPid, [0x31, 0x32, 0x3a, 0x33, 0x34, 0x3a, 0x35, 0x37])] ∧
      ∀ m ∈ s.arrived prioritySwitchPid, PrioritySwitch.InEnvelope m := by
  have hrun : ((boot (fun _ => 2) 4096).bind fun k =>
      (passedOn.foldlM (Scripted.step process) (Scripted.start process k)).bind fun s =>
        if Idle s 999 then (dealtWith.foldlM (Scripted.step process) (setTicks s 999)).map seen else none) =
      some ([(prioritySwitchPid, [0x50, 0x72, 0x69, 0x6f, 0x72, 0x69, 0x74, 0x79]),
        (wallclockPid, [0x31, 0x32, 0x3a, 0x33, 0x34, 0x3a, 0x35, 0x37])], true) := by
    decide +kernel
  obtain ⟨k₀, hboot, hrun⟩ := Option.bind_eq_some_iff.mp hrun
  obtain ⟨s₁, hpassed, hrun⟩ := Option.bind_eq_some_iff.mp hrun
  have hidle : Idle s₁ 999 := by
    by_contra hnot
    rw [if_neg hnot] at hrun
    cases hrun
  rw [if_pos hidle] at hrun
  obtain ⟨s, hdealt, hseen⟩ := Option.map_eq_some_iff.mp hrun
  obtain ⟨hcrt, hswitch⟩ := Prod.mk.inj hseen
  have hruns : Run (Scripted.Step process) (Scripted.start process k₀) secondLater s :=
    ((Run.of_foldlM (fun _ _ _ hstep => hstep) hpassed).append hidle.run).append
      (Run.of_foldlM (fun _ _ _ hstep => hstep) hdealt)
  refine ⟨k₀, s, hboot, hruns, hcrt, ?_⟩
  intro m hm
  have hchecked := List.all_eq_true.mp hswitch m hm
  obtain ⟨hreads, hnull⟩ := (Bool.and_eq_true _ _).mp hchecked
  exact ⟨fun x hx => of_decide_eq_true (List.all_eq_true.mp hreads x hx), of_decide_eq_true hnull⟩

/-- The texts are those of the two processes. -/
lemma texts_of_seen {x y : List UInt8} (h : ((s.arrived crtPid).map fun m => (m.tx, (List.range 8).map m.msg)) =
    [(prioritySwitchPid, x), (wallclockPid, y)]) :
    ∀ m ∈ s.arrived crtPid, (∀ i, m.tx ≠ pid i) → Ends m.msg 0 msgSize := by
  intro m hm hne
  have hmem := List.mem_map_of_mem (f := fun m : IoMessage => (m.tx, (List.range 8).map m.msg)) hm
  rw [h] at hmem
  rcases List.mem_pair.mp hmem with heq | heq
  · exact absurd (Prod.mk.inj heq).1 (hne prioritySwitch)
  · exact absurd (Prod.mk.inj heq).1 (hne wallclock)

/-- The clock was set to 12:34:56, and a second later it shows 12:34:57. -/
theorem clock_shows_secondLater : ∃ k₀ s l m, boot (fun _ => 2) 4096 = some k₀ ∧
    Run (Scripted.Step process) (Scripted.start process k₀) secondLater s ∧ m ∈ s.arrived crtPid ∧
      (List.range 8).map m.msg = [0x31, 0x32, 0x3a, 0x33, 0x34, 0x3a, 0x35, 0x37] ∧
      Wallclock.Shows l (s.deeds wallclock) m.msg := by
  obtain ⟨k₀, s, hboot, hrun, hcrt, hcommands⟩ := seen_secondLater
  obtain ⟨l, -, -, hshows, -⟩ := clock_shows (by decide) (by decide) hboot hrun (texts_of_seen hcrt) hcommands
  obtain ⟨m₁, rest, hall, -, hrest⟩ := List.map_eq_cons_iff.mp hcrt
  obtain ⟨m, rest, hm, hsecond, -⟩ := List.map_eq_cons_iff.mp hrest
  have hmem : m ∈ s.arrived crtPid := by
    rw [hall, hm]
    exact List.mem_cons_of_mem _ (List.mem_cons_self ..)
  obtain ⟨htx, htext⟩ := Prod.mk.inj hsecond
  exact ⟨k₀, s, l, m, hboot, hrun, hmem, htext, hshows m hmem htx⟩

/-! ### The answers at the screen -/

/-- The message is the answer with which the handler has ended its turn. -/
def Answers (deeds : List Deed) (a : IoMessage) : Prop :=
  ∃ call, deeds.getLast? = some (.sent call) ∧ a = call.signed prioritySwitchPid

lemma sentTo_change {success : UInt32} {v : Verdict} :
    Scripted.sentTo crtPid (PrioritySwitch.change success v) = [] := by
  cases v <;> rfl

lemma answers_of_replies {ms : List IoMessage} {outs : List (List Deed)}
    (h : List.Forall₂ PrioritySwitch.Replies ms outs) : List.Forall₂ Answers outs
      ((Scripted.sentTo crtPid outs.flatten).map fun call => call.signed prioritySwitchPid) := by
  induction h with
  | nil => exact .nil
  | @cons m deeds ms outs hm _ ih =>
    obtain ⟨v, m₁, success, hv, rfl⟩ := hm
    rw [List.flatten_cons, Scripted.sentTo_append, Scripted.sentTo_append, sentTo_change]
    exact .cons ⟨PrioritySwitch.answer m v m₁ success, List.getLast?_concat .., rfl⟩ ih

/-- The turns whose answers are sent are done. -/
lemma take_done {ms : List IoMessage} {outs : List (List Deed)}
    (h : List.Forall₂ PrioritySwitch.Replies ms outs) {l : List Deed} (hl : l <+: outs.flatten) :
    (outs.take (Scripted.sentTo crtPid l).length).flatten <+: l := by
  induction h generalizing l with
  | nil => simp
  | @cons m deeds ms outs hm _ ih =>
    obtain ⟨v, m₁, success, hv, rfl⟩ := hm
    rw [List.flatten_cons] at hl
    rcases List.prefix_or_prefix_of_prefix hl (List.prefix_append _ outs.flatten) with hpart | hall
    · rcases List.prefix_concat_iff.mp hpart with rfl | hbefore
      · rw [Scripted.sentTo_append, sentTo_change]
        simp [Scripted.sentTo, PrioritySwitch.answer]
      · have hnone := Scripted.sentTo_prefix crtPid hbefore
        rw [sentTo_change, List.prefix_nil] at hnone
        rw [hnone]
        exact List.nil_prefix
    · obtain ⟨rest, rfl⟩ := hall
      have hrest := ih ((List.prefix_append_right_inj _).mp hl)
      rw [Scripted.sentTo_append, Scripted.sentTo_append, sentTo_change]
      exact (List.prefix_append_right_inj _).mpr hrest

/-- The priority command in the system, in every state that is reached: the commands come in in their order, each
one is dealt with and replied to before the next one, and the messages that have come from the handler to the CRT
process are the answers to the first commands, each with the result of its own call of `set_process_priority`. -/
theorem priority_replies (hprio : ∀ i, priority i ≤ 4) (hbase : base ≠ 0) (hboot : boot priority base = some k₀)
    (hrun : Run (Scripted.Step process) (Scripted.start process k₀) ops s)
    (htexts : ∀ m ∈ s.arrived crtPid, (∀ i, m.tx ≠ pid i) → Ends m.msg 0 msgSize)
    (hcommands : ∀ m ∈ s.arrived prioritySwitchPid, PrioritySwitch.InEnvelope m) :
    s.received prioritySwitch <+: s.arrived prioritySwitchPid ∧
      (∃ outs n, List.Forall₂ PrioritySwitch.Replies (s.received prioritySwitch) outs ∧
        s.deeds prioritySwitch <+: .sent (registration PrioritySwitch.name) :: outs.flatten ∧
        (outs.take n).flatten <:+: s.deeds prioritySwitch ∧
        List.Forall₂ Answers (outs.take n) ((s.arrived crtPid).filter fun m => m.tx = prioritySwitchPid)) ∧
      ∀ i, s.kernel.currentPid = pid i → ∃ t, Scripted.Step process s (.own i) t := by
  obtain ⟨hcode, hchannel⟩ := runs hprio hbase hboot hrun htexts hcommands
  obtain ⟨-, -, ⟨outs, houts, rfl⟩, hpre⟩ := (hcode prioritySwitch).within
  refine ⟨(hcode prioritySwitch).received, ⟨outs, (Scripted.sentTo crtPid (s.deeds prioritySwitch)).length, houts,
    hpre, ?_, ?_⟩, ?_⟩
  · rcases List.prefix_cons_iff.mp hpre with hnone | ⟨l, hl, hlpre⟩
    · rw [hnone]
      exact List.infix_refl _
    · rw [hl]
      exact (take_done houts hlpre).isInfix.trans (List.infix_cons (List.infix_refl _))
  · have hch : (s.arrived crtPid).filter (fun m => m.tx = prioritySwitchPid) =
        (Scripted.sentTo crtPid (s.deeds prioritySwitch)).map fun call => call.signed prioritySwitchPid :=
      hchannel prioritySwitch (by decide)
    have hsent := (Scripted.sentTo_prefix crtPid hpre).map fun call => call.signed prioritySwitchPid
    have hname : Scripted.sentTo crtPid (.sent (registration PrioritySwitch.name) :: outs.flatten) =
        Scripted.sentTo crtPid outs.flatten := rfl
    rw [hname] at hsent
    have htake := List.forall₂_take (Scripted.sentTo crtPid (s.deeds prioritySwitch)).length
      (answers_of_replies houts)
    have hfirst := List.prefix_iff_eq_take.mp hsent
    rw [List.length_map] at hfirst
    rw [hch, hfirst]
    exact htake
  · intro i hi
    exact (hcode i).goesOn (process_pid i ▸ hi)

/-- The command has been answered. -/
theorem priority_replies_secondLater : ∃ k₀ s outs n, boot (fun _ => 2) 4096 = some k₀ ∧
    Run (Scripted.Step process) (Scripted.start process k₀) secondLater s ∧ (outs.take n).length = 1 ∧
      List.Forall₂ PrioritySwitch.Replies (s.received prioritySwitch) outs ∧
      (outs.take n).flatten <:+: s.deeds prioritySwitch ∧
      List.Forall₂ Answers (outs.take n) ((s.arrived crtPid).filter fun m => m.tx = prioritySwitchPid) := by
  obtain ⟨k₀, s, hboot, hrun, hcrt, hcommands⟩ := seen_secondLater
  obtain ⟨-, ⟨outs, n, hreplies, -, hdone, hanswers⟩, -⟩ :=
    priority_replies (by decide) (by decide) hboot hrun (texts_of_seen hcrt) hcommands
  refine ⟨k₀, s, outs, n, hboot, hrun, ?_, hreplies, hdone, hanswers⟩
  have hfrom : (((s.arrived crtPid).map fun m => (m.tx, (List.range 8).map m.msg)).filter fun x =>
      x.1 = prioritySwitchPid).length = 1 := by
    rw [hcrt]
    rfl
  rw [List.filter_map, List.length_map] at hfrom
  exact hanswers.length_eq.trans hfrom

end Service

end RtxKernel
