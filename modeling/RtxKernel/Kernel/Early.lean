import RtxKernel.Kernel.Delayed
import RtxKernel.Kernel.Outside
import RtxKernel.Kernel.Refusal

/-!
# The clock wraps around

`delayed_send` stores the sum of the time and the delay modulo 2^32, and each tick compares it with the time.
The comparison tells whether the delay has passed unless the sum wraps around and the time does not
(`Outlasts`): then the message is delivered with the next tick (`never_early_iff`).
-/

namespace RtxKernel

/-- A message that is sent at the time `t` with the delay `d` is not due before `d` ticks have passed. -/
def Outlasts (t d : UInt32) : Prop := t.toNat + d.toNat < 4294967296 ∨ d.toNat ≤ 1 ∨ t.toNat = 4294967295

instance (t d : UInt32) : Decidable (Outlasts t d) :=
  inferInstanceAs (Decidable (t.toNat + d.toNat < 4294967296 ∨ d.toNat ≤ 1 ∨ t.toNat = 4294967295))

lemma Outlasts.not_due {t d : UInt32} (h : Outlasts t d) {n : Nat} (hn : 1 ≤ n) (hnd : n < d.toNat) :
    ¬ d + t ≤ t + UInt32.ofNat n := by
  have hd := d.toNat_lt
  have ht := t.toNat_lt
  rw [UInt32.le_iff_toNat_le, UInt32.toNat_add, UInt32.toNat_add, UInt32.toNat_ofNat']
  rcases h with hsum | hsmall | hlast
  · omega
  · omega
  · omega

/-- Otherwise the message is due with the next tick. -/
lemma due_of_not_outlasts {t d : UInt32} (h : ¬ Outlasts t d) : 1 < d.toNat ∧ d + t ≤ t + 1 := by
  have hd := d.toNat_lt
  have ht := t.toNat_lt
  rw [Outlasts, not_or, not_or] at h
  obtain ⟨hwrap, hlate, hlast⟩ := h
  refine ⟨Nat.lt_of_not_le hlate, ?_⟩
  have hone : (1 : UInt32).toNat = 1 := rfl
  rw [UInt32.le_iff_toNat_le, UInt32.toNat_add, UInt32.toNat_add, hone]
  omega

/-- The number of timer ticks -/
def ticksIn (es : List Event) : Nat := es.countP fun e => e.op = .timer

/-- A tick moves the envelope to the mailbox. -/
def Event.Moves (e : Event) (x : Nat) : Prop := e.op = .timer ∧ ∃ new, e.reply = .moved new ∧ x ∈ new

namespace Spec.Kernel

variable {a b : Kernel} {base : Nat} {r r' : PcbPtr} {op : Op} {reply : Reply} {x : Nat} {s : UInt32}
  {priority : Fin 6 → UInt8} {k' : RtxKernel.Kernel}

lemma Effect.clock (he : a.Effect op reply b) (hok : a.Ok base r) :
    b.ticks = if op = .timer then a.ticks + 1 else a.ticks := by
  cases he with
  | quiet s hq =>
    rw [if_neg]
    · rfl
    · rintro rfl
      cases hq
  | sent s hb => exact (address_fields hb).2.2.1
  | delayed hb => exact (address_fields hb).2.2.1
  | ticked s hb =>
    have hmv := hok.moves_tick hb
    exact hmv.ticks
  | typed s hp hb => exact (address_fields hb).2.2.1
  | _ => rfl

/-- The envelope waits in the delayed mailbox, to be sent at the time `s`. -/
structure Delays (a : Kernel) (x : Nat) (s : UInt32) : Prop where
  mem : x ∈ a.delayed
  sendTime : a.sendTime x = s

lemma Delays.step (h : a.Delays x s) (hok : a.Ok base r) (hpost : a.Posted base)
    (hn : Orderly.Next priority base a op reply k' b r') {pid : UInt32} (hm : ¬ Event.Moves ⟨pid, op, reply⟩ x) :
    b.Delays x s := by
  have hmail : x ∈ a.mailbox ++ a.delayed := List.mem_append_right _ h.mem
  constructor
  · refine (hn.effect.delayed_stays hok h.mem).resolve_right ?_
    intro harr
    cases op with
    | send pid e =>
      cases reply with
      | code c =>
        rw [Op.arrivals] at harr
        split_ifs at harr
        · obtain rfl := List.mem_singleton.mp harr
          exact hn.permits.2.2 hmail
        · cases harr
      | _ => cases harr
    | timer =>
      cases reply with
      | moved new => exact hm ⟨rfl, new, rfl, harr⟩
      | _ => cases harr
    | _ => cases harr
  · have hsame := hn.effect.sameHeader hok (hpost.block x hmail) (spares_of_respects hn.permits hn.respects hmail)
    exact hsame.2.2.trans h.sendTime

/-- What a tick moves is due. -/
lemma Effect.due {new : List Nat} (he : a.Effect .timer (.moved new) b) (hok : a.Ok base r) (hx : x ∈ new) :
    a.sendTime x ≤ a.ticks + 1 := by
  cases he with
  | quiet s hq => cases hq
  | ticked s hb =>
    have hmv := hok.moves_tick hb
    exact of_decide_eq_true (hmv.due x hx)

/-- A message that was accepted waits. -/
lemma delayed_of_delayedSend {pid d : UInt32} (hok : a.Ok base r) (hpost : a.Posted base)
    (hn : Orderly.Next priority base a (.delayedSend pid x d) (.code 0) k' b r') :
    b.delayed = a.delayed ++ [x] ∧ b.sendTime x = d + a.ticks := by
  obtain ⟨-, ⟨c, hc, hstart⟩, hnot⟩ := hn.permits
  cases hn.effect with
  | quiet s hq => simp [Op.isQuiet] at hq
  | delayed hb hne =>
    have hroom := (storeIn_mail hok hpost (hok.pool.lt_of_mem (q := .usedBlocks) hc) hstart hnot).2
    constructor
    · rw [postDelayed, (address_fields hb).2.1]
      exact hroom
    · exact read32_write32

lemma Delays.of_delayedSend {pid d : UInt32} (hok : a.Ok base r) (hpost : a.Posted base)
    (hn : Orderly.Next priority base a (.delayedSend pid x d) (.code 0) k' b r') : b.Delays x (d + a.ticks) := by
  obtain ⟨hdelayed, hsend⟩ := delayed_of_delayedSend hok hpost hn
  exact ⟨by simp [hdelayed], hsend⟩

/-- The only message that waits is moved as soon as it is due. -/
lemma Effect.moves_due {new : List Nat} (he : a.Effect .timer (.moved new) b) (hok : a.Ok base r)
    (hd : a.delayed = [x]) (hdue : a.sendTime x ≤ a.ticks + 1) : x ∈ new := by
  cases he with
  | quiet s hq => cases hq
  | @ticked _ w c s hb =>
    have hok₀ := hok.withTicks (a.ticks + 1)
    have hdelayed : Kernel.delayed { a with ticks := a.ticks + 1 } = [] ++ [x] := hd
    have hnot : ¬ Skips (isDue { a with ticks := a.ticks + 1 }) (Kernel.delayed { a with ticks := a.ticks + 1 }) := by
      rintro ⟨hfull, -⟩
      rw [hdelayed] at hfull
      cases hfull
    have hcheck : new = [] ++ [x].filter (isDue { a with ticks := a.ticks + 1 }) :=
      (checkFrom_due hok₀ hdelayed (.inl rfl) (by simp) hnot hb).1
    have hdue' : isDue { a with ticks := a.ticks + 1 } x = true := decide_eq_true hdue
    simp [hcheck, hdue']

end Spec.Kernel

/-! ### Ticks with which nothing is due -/

namespace Kernel

variable {k : Kernel} {priority : UInt32} {n i : Nat} {moved : List Nat}

/-- The delayed messages are not due at the time `t`. -/
def Early (k : Kernel) (t : UInt32) : Prop := ∀ i < memBlockCount, ∀ e ∈ k.delayedMailbox i, t < k.sendTime e

instance (k : Kernel) (t : UInt32) : Decidable (k.Early t) :=
  inferInstanceAs (Decidable (∀ i < memBlockCount, ∀ e ∈ k.delayedMailbox i, _))

lemma checkFrom_early (h : k.Early k.ticks) (hn : memBlockCount ≤ i + n) :
    checkFrom n i priority moved k = some (moved, priority, k) := by
  induction n generalizing i with
  | zero =>
    have hi : memBlockCount ≤ i := by simpa using hn
    rw [checkFrom, if_pos hi]
  | succ n ih =>
    rw [checkFrom]
    split_ifs with hi
    · rfl
    · have hnext : checkFrom n (i + 1) priority moved k = some (moved, priority, k) := by
        apply ih
        omega
      cases he : k.delayedMailbox i with
      | none => exact hnext
      | some e =>
        have hlt : ¬ k.sendTime e ≤ k.ticks := UInt32.not_le.mpr (h i (Nat.lt_of_not_le hi) e he)
        simp only [hlt, if_false]
        exact hnext

/-- A tick at which no message is due -/
lemma call_timer_early (h : k.Early (k.ticks + 1))
    (hp : k.sched.getProcessPriority k.currentPid = some priority) (hle : priority ≤ 4) :
    k.call .timer = some (.moved [], { k with ticks := k.ticks + 1 }) := by
  have hcheck : checkFrom (2 * memBlockCount) 0 4 [] { k with ticks := k.ticks + 1 } =
      some ([], 4, { k with ticks := k.ticks + 1 }) :=
    checkFrom_early h (by decide)
  rw [call, timerIsr, checkExistingDelayedMessage, hcheck]
  change ((k.sched.getProcessPriority k.currentPid).bind _ >>= _) = _
  rw [hp]
  simp [UInt32.not_lt.mpr hle]

def setTicks (k : Kernel) (n : Nat) : Kernel := { k with ticks := UInt32.ofNat n }

/-- A tick after which the delayed messages still have to wait is counted, and nothing else happens. -/
lemma call_timer_setTicks (h : ∀ i < memBlockCount, ∀ e ∈ k.delayedMailbox i, n + 1 < (k.sendTime e).toNat)
    (hp : k.sched.getProcessPriority k.currentPid = some priority) (hle : priority ≤ 4) :
    (k.setTicks n).call .timer = some (.moved [], k.setTicks (n + 1)) := by
  have hticks : UInt32.ofNat n + 1 = UInt32.ofNat (n + 1) := (UInt32.ofNat_add n 1).symm
  have hearly : (k.setTicks n).Early ((k.setTicks n).ticks + 1) := by
    intro i hi e he
    have hlt := h i hi e he
    have hsmall : n + 1 < 2 ^ 32 := hlt.trans (k.sendTime e).toNat_lt
    change UInt32.ofNat n + 1 < k.sendTime e
    rw [hticks, UInt32.lt_iff_toNat_lt, UInt32.toNat_ofNat_of_lt' hsmall]
    exact hlt
  have hcall := call_timer_early hearly hp hle
  rw [hcall, setTicks, setTicks, hticks]

/-- As long as no message is due, the ticks are counted. -/
lemma run_ticks (h : ∀ i < memBlockCount, ∀ e ∈ k.delayedMailbox i, n < (k.sendTime e).toNat)
    (hp : k.sched.getProcessPriority k.currentPid = some priority) (hle : priority ≤ 4) :
    Run (StepIf Proper) (k.setTicks 0) (List.replicate n ⟨k.currentPid, .timer, .moved []⟩) (k.setTicks n) := by
  induction n with
  | zero => exact .nil _
  | succ n ih =>
    have hn : ∀ i < memBlockCount, ∀ e ∈ k.delayedMailbox i, n < (k.sendTime e).toNat :=
      fun i hi e he => Nat.lt_of_succ_lt (h i hi e he)
    rw [List.replicate_succ']
    exact .append (ih hn) (.single ⟨rfl, ⟨fun _ => trivial, trivial⟩, call_timer_setTicks h hp hle⟩)

end Kernel

/-! ### Messages that are early -/

variable {priority : Fin 6 → UInt8} {base : Nat} {k₀ k k' : Kernel} {a : Spec.Kernel} {r : PcbPtr}
  {es : List Event} {e : Event} {x : Nat} {s t d : UInt32}

namespace Orderly

lemma of_run (hprio : ∀ i, priority i ≤ 4) (hboot : RtxKernel.boot priority base = some k₀)
    (h : Run (Kernel.StepIf Kernel.Proper) k₀ es k) : ∃ a r, Orderly priority base k a r := by
  apply h.invariant (I := fun k => ∃ a r, Orderly priority base k a r)
  · obtain ⟨a, r, ho, -⟩ := boot hprio hboot
    exact ⟨a, r, ho⟩
  · rintro k e k' ⟨a, r, ho⟩ ⟨-, hp, hcall⟩
    obtain ⟨b, r', hn⟩ := ho.step hp hcall
    exact ⟨b, r', hn.orderly⟩

/-- A message waits as long as no tick moves it, and the clock counts the ticks. -/
lemma waits (h : Orderly priority base k a r) (hx : a.Delays x s) (hrun : Run (Kernel.StepIf Kernel.Proper) k es k')
    (hno : ∀ e ∈ es, ¬ e.Moves x) :
    ∃ b r', Orderly priority base k' b r' ∧ b.Delays x s ∧ b.ticks = a.ticks + UInt32.ofNat (ticksIn es) := by
  apply hrun.history_of_forall (I := fun es k' => ∃ b r', Orderly priority base k' b r' ∧ b.Delays x s ∧
    b.ticks = a.ticks + UInt32.ofNat (ticksIn es)) hno
  · exact ⟨a, r, h, hx, (UInt32.add_zero _).symm⟩
  · rintro es k₁ e k₂ ⟨b, r', ho, hx', hticks⟩ hnot ⟨-, hp, hcall⟩
    obtain ⟨c, r'', hn⟩ := ho.step hp hcall
    refine ⟨c, r'', hn.orderly, hx'.step ho.ok ho.posted hn hnot, ?_⟩
    rw [hn.effect.clock ho.ok, hticks, ticksIn, ticksIn, List.countP_append, List.countP_singleton]
    split_ifs with htimer hdec hdec
    · rw [UInt32.ofNat_add, UInt32.add_assoc]
      rfl
    · exact absurd (decide_eq_true htimer) hdec
    · exact absurd (of_decide_eq_true hdec) htimer
    · rfl

end Orderly

/-- No message that `delayed_send` accepts at the time `t` with the delay `d` is moved to the mailbox before at
least `d` ticks have occurred. All operations are `Proper` ones here; of this discipline only what it asks about the
message itself matters. -/
def NeverEarly (t d : UInt32) : Prop :=
  ∀ (priority : Fin 6 → UInt8) (base : Nat) (k₀ k k₁ k₂ : Kernel) (es es' : List Event) (e : Event)
    (pid : UInt32) (x : Nat), (∀ i, priority i ≤ 4) → boot priority base = some k₀ →
    Run (Kernel.StepIf Kernel.Proper) k₀ es k → k.ticks = t →
    Run (Kernel.StepIf Kernel.Proper) k (⟨k.currentPid, .delayedSend pid x d, .code 0⟩ :: es') k₁ →
    (∀ e ∈ es', ¬ e.Moves x) → k₁.StepIf Kernel.Proper e k₂ → e.Moves x → d.toNat ≤ ticksIn (es' ++ [e])

lemma Outlasts.neverEarly (h : Outlasts t d) : NeverEarly t d := by
  rintro priority base k₀ k k₁ k₂ es es' ⟨caller, op, reply⟩ pid x hprio hboot hrun rfl hrun' hno
    ⟨-, hp, hcall⟩ ⟨rfl, new, rfl, hx⟩
  obtain ⟨a, r, ho⟩ := Orderly.of_run hprio hboot hrun
  obtain ⟨k', ⟨-, hp', hcall'⟩, hrest⟩ := hrun'.head
  obtain ⟨b, r', hn⟩ := ho.step hp' hcall'
  have hwait := Spec.Kernel.Delays.of_delayedSend ho.ok ho.posted hn
  have hticks : b.ticks = a.ticks := hn.effect.clock ho.ok
  obtain ⟨c, r'', ho', hwait', hticks'⟩ := hn.orderly.waits hwait hrest hno
  obtain ⟨f, r₃, hn'⟩ := ho'.step hp hcall
  have hdue := hn'.effect.due ho'.ok hx
  rw [hwait'.sendTime, hticks', hticks, ← ho.rep.ticks, UInt32.add_assoc] at hdue
  have hsum : UInt32.ofNat (ticksIn es') + 1 = UInt32.ofNat (ticksIn es' + 1) := (UInt32.ofNat_add _ 1).symm
  rw [hsum] at hdue
  have hcount : ticksIn (es' ++ [⟨caller, .timer, .moved new⟩]) = ticksIn es' + 1 := by
    simp [ticksIn]
  rw [hcount]
  by_contra hlt
  exact h.not_due (Nat.le_add_left 1 _) (Nat.lt_of_not_le hlt) hdue

/-- After start-up the keyboard decoder takes a block, and then time passes. -/
lemma exists_waiting (t : UInt32) : ∃ k₀ es k, boot (fun _ => 2) 4096 = some k₀ ∧
    Run (Kernel.StepIf Kernel.Proper) k₀ es k ∧ k.ticks = t ∧ k.Permits (.delayedSend 10 4096 0) ∧ k.IsLive 10 ∧
    ∀ i < memBlockCount, k.delayedMailbox i = none := by
  obtain ⟨k₀, es, k, hboot, hrun, -, hcheck⟩ := exists_run_of_boot Kernel.Proper (fun _ => 2) 4096 [.request]
    (fun _ k => k.ticks = 0 ∧ k.Permits (.delayedSend 10 4096 0) ∧ (∃ p ∈ k.sched.live, (k.sched.pcb p).pid = 10) ∧
      (∀ i < memBlockCount, k.delayedMailbox i = none) ∧ k.sched.getProcessPriority k.currentPid = some 0)
    (by decide +kernel)
  obtain ⟨hzero, hperm, hlive, hnone, hp⟩ := of_decide_eq_true hcheck
  have hstart : k.setTicks 0 = k := by
    rw [Kernel.setTicks]
    change Kernel.mk k.sched k.pool k.mailbox k.delayedMailbox 0 = k
    rw [← hzero]
  have hearly : ∀ i < memBlockCount, ∀ e ∈ k.delayedMailbox i, t.toNat < (k.sendTime e).toNat := by
    intro i hi e he
    rw [hnone i hi] at he
    cases he
  have hticks := Kernel.run_ticks hearly hp (by decide)
  rw [hstart] at hticks
  refine ⟨k₀, _, k.setTicks t.toNat, hboot, hrun.append hticks, ?_, hperm, hlive, hnone⟩
  exact UInt32.ofNat_toNat

/-- A message whose time wraps around is delivered with the next tick. -/
lemma not_neverEarly (h : ¬ Outlasts t d) : ¬ NeverEarly t d := by
  intro hnever
  obtain ⟨hlate, hdue⟩ := due_of_not_outlasts h
  obtain ⟨k₀, es, k, hboot, hrun, hticks, hperm, hlive, hnone⟩ := exists_waiting t
  obtain ⟨a, r, ho⟩ := Orderly.of_run (fun _ => by decide) hboot hrun
  obtain ⟨⟨code, k₁⟩, hsend⟩ := ho.delayedSend_used hperm.2.1 10 d
  obtain rfl : code = 0 := ho.delayedSend_accepted (by decide) hlive hsend
  have hcall : k.call (.delayedSend 10 4096 d) = some (.code 0, k₁) := by
    rw [Kernel.call, hsend]
    rfl
  have hproper : k.Proper (.delayedSend 10 4096 d) := ⟨fun _ => hperm, trivial⟩
  obtain ⟨b, r', hn⟩ := ho.step hproper hcall
  obtain ⟨hdelayed, hsendTime⟩ := Spec.Kernel.delayed_of_delayedSend ho.ok ho.posted hn
  have hempty : a.delayed = [] := by
    apply List.eq_nil_iff_forall_not_mem.mpr
    intro y hy
    obtain ⟨i, hi, hslot⟩ := (KernelRep.mem_iff_exists ho.rep.delayed ho.ok.delayed_le).mp hy
    rw [hnone i hi] at hslot
    cases hslot
  rw [hempty] at hdelayed
  have hpermits : k₁.Permits .timer := trivial
  have htimer : k₁.Proper .timer := ⟨fun _ => hpermits, trivial⟩
  obtain ⟨reply, k₂, hcall'⟩ := hn.orderly.call_isSome .timer hpermits
  obtain ⟨c, r'', hn'⟩ := hn.orderly.step htimer hcall'
  obtain ⟨new, -, -, -, rfl, -, -⟩ := Delivers.effect_timer hn'.effect
  have hmoved : 4096 ∈ new := by
    apply hn'.effect.moves_due hn.orderly.ok hdelayed
    have hclock : b.ticks = a.ticks := hn.effect.clock ho.ok
    rw [hsendTime, hclock, ← ho.rep.ticks, hticks]
    exact hdue
  have hle := hnever (fun _ => 2) 4096 k₀ k k₁ k₂ es [] ⟨k₁.currentPid, .timer, .moved new⟩ 10 4096 (fun _ => by decide)
    hboot hrun hticks (.single ⟨rfl, hproper, hcall⟩) (by simp) ⟨rfl, htimer, hcall'⟩
    ⟨rfl, new, rfl, hmoved⟩
  exact absurd hle (Nat.not_le.mpr hlate)

/-- A delayed message is never early exactly if its time does not wrap around, or the clock wraps around with the
next tick, or the delay is at most one tick. -/
theorem never_early_iff (t d : UInt32) :
    NeverEarly t d ↔ t.toNat + d.toNat < 4294967296 ∨ d.toNat ≤ 1 ∨ t.toNat = 4294967295 := by
  constructor
  · intro h
    by_contra hnot
    exact not_neverEarly hnot h
  · intro h
    exact Outlasts.neverEarly h

/-- A delay of ten ticks, five ticks before the clock wraps around: the message is early. -/
theorem early_before_wrap : ¬ ∀ t d, NeverEarly t d := by
  intro hall
  exact not_neverEarly (by decide) (hall 4294967291 10)

end RtxKernel
