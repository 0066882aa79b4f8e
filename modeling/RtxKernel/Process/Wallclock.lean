import RtxKernel.Process.Util
import RtxKernel.Lib.Run

/-!
# The wall clock

The process of `wallclock/wallclock.c`, together with the messages for it that are delayed or in the mailbox.
While the clock is on, every tick asks for the next one. Stopping the clock does not take back the tick that
is on its way, and starting it asks for one more, so that a clock that is stopped and started within a second
has two ticks from then on (`ticks_exact_iff`).
-/

namespace RtxKernel

/-- `WALLCLOCK_PID` -/
def wallclockPid : UInt32 := 60

/-- `TYPE_WALLCLOCK_TICK` -/
def typeWallclockTick : UInt32 := 2

/-- The variables of `wallclock.c` that one turn leaves for the next -/
structure Wallclock where
  clockOn : Bool
  hour : UInt32
  min : UInt32
  sec : UInt32
  baseTime : UInt32

namespace Wallclock

/-- `get_msg_type` -/
def getMsgType (msg : Memory) : Nat :=
  if msg 2 = 0x53 then 1 else if msg 2 = 0x54 then 2 else 0

/-- `error_check`, which returns 1 for an error -/
def errorCheck (msg : Memory) : Bool :=
  if msg 6 ≠ 0x3a ∨ msg 9 ≠ 0x3a then true
  else if msg 3 ≠ 0x20 then true
  else if msg 12 ≠ 0 then true
  else [4, 5, 7, 8, 10, 11].any fun i => msg i < 0x30 || 0x39 < msg i

/-- Two digits -/
def twoDigits (msg : Memory) (i : Nat) : Nat := digit (msg i) * 10 + digit (msg (i + 1))

/-- `convert_to_dec`, behind `error_check`; it fails with 1. -/
def convertToDec (w : Wallclock) (msg : Memory) : Option Wallclock :=
  if 23 < twoDigits msg 4 then none
  else if 59 < twoDigits msg 7 ∨ 59 < twoDigits msg 10 then none
  else some { w with
    hour := UInt32.ofNat (twoDigits msg 4)
    min := UInt32.ofNat (twoDigits msg 7)
    sec := UInt32.ofNat (twoDigits msg 10) }

/-- `convert_to_ascii` -/
def convertToAscii (hour min sec : UInt32) : List UInt8 :=
  [(hour / 10 + 0x30).toUInt8, (hour % 10 + 0x30).toUInt8, 0x3a, (min / 10 + 0x30).toUInt8,
    (min % 10 + 0x30).toUInt8, 0x3a, (sec / 10 + 0x30).toUInt8, (sec % 10 + 0x30).toUInt8, 0x0d, 0x0a]

/-- What is sent to the CRT process at a tick, at the time `now`. -/
def display (w : Wallclock) (now : UInt32) : Send :=
  let curTime := (now - w.baseTime) / 1000
  let outSec := (w.sec + curTime) % 60
  let outMin := (w.min + (w.sec + curTime) / 60) % 60
  let outHour := (w.hour + (w.min + (w.sec + curTime) / 60) / 60) % 24
  ⟨crtPid, { IoMessage.blank with
    msg := strCopy IoMessage.blank.msg (convertToAscii outHour outMin outSec) 0 }⟩

/-- The message that asks for the next tick -/
def tick : IoMessage := { IoMessage.blank with tx := wallclockPid, rx := wallclockPid, type := typeWallclockTick }

/-- The end of the loop, from the release of the message on: what the process has sent, and what it gives to
`delayed_send`. -/
def endOfTurn (w : Wallclock) (sent : List Send) : Wallclock × List Send × List IoMessage :=
  (w, sent, if w.clockOn then [tick] else [])

/-- One turn of `wallclock` with the message that it has received, when `get_time` returns `now`. -/
def turn (w : Wallclock) (now : UInt32) (m : IoMessage) : Wallclock × List Send × List IoMessage :=
  if getMsgType m.msg = 1 then
    if errorCheck m.msg then (w, [], [])
    else match w.convertToDec m.msg with
      | none => (w, [], [])
      | some w =>
        if w.clockOn then ({ w with baseTime := now }, [], [])
        else endOfTurn { w with baseTime := now, clockOn := true } []
  else if getMsgType m.msg = 2 then ({ w with clockOn := false }, [], [])
  else if m.type = typeWallclockTick ∧ w.clockOn then endOfTurn w [w.display now]
  else endOfTurn w []

/-- The message is a `%WS` that turns the clock on. -/
def TurnsOn (w : Wallclock) (m : IoMessage) : Prop :=
  getMsgType m.msg = 1 ∧ errorCheck m.msg = false ∧ (w.convertToDec m.msg).isSome = true ∧
    w.clockOn = false

instance (w : Wallclock) (m : IoMessage) : Decidable (w.TurnsOn m) :=
  inferInstanceAs (Decidable (_ ∧ _ ∧ _ ∧ _))

end Wallclock

/-- The process, the messages for it in `delayed_mailbox` and in `mailbox`, the message that it has received
and not yet dealt with, and what it has sent to the CRT process. -/
structure ClockSystem where
  clock : Wallclock
  delayedMailbox : List IoMessage
  mailbox : List IoMessage
  hand : Option IoMessage
  sent : List Send

namespace ClockSystem

/-- What can happen: a command is sent to the process, the timer moves a delayed message to the mailbox, the
process receives a message, or it completes its turn. -/
inductive Event
  | command (m : IoMessage)
  | due (i : Nat)
  | receive
  | complete (now : UInt32)

/-- A command of the keyboard decoder, `%WS` or `%WT` with whatever behind it -/
def IsClockCommand (m : IoMessage) : Prop :=
  m.type = 0 ∧ m.msg 0 = 0x25 ∧ m.msg 1 = 0x57 ∧ (m.msg 2 = 0x53 ∨ m.msg 2 = 0x54)

instance (m : IoMessage) : Decidable (IsClockCommand m) :=
  inferInstanceAs (Decidable (_ ∧ _ ∧ _ ∧ (_ ∨ _)))

def step (s : ClockSystem) : Event → Option ClockSystem
  | .command m => if IsClockCommand m then some { s with mailbox := s.mailbox ++ [m] } else none
  | .due i => (s.delayedMailbox[i]?).map fun m =>
      { s with delayedMailbox := s.delayedMailbox.eraseIdx i, mailbox := s.mailbox ++ [m] }
  | .receive =>
    match s.hand, s.mailbox with
    | none, m :: mailbox => some { s with hand := some m, mailbox := mailbox }
    | _, _ => none
  | .complete now => s.hand.map fun m =>
      let (clock, sent, delayed) := s.clock.turn now m
      { s with
        clock := clock
        hand := none
        sent := s.sent ++ sent
        delayedMailbox := s.delayedMailbox ++ delayed }

def Step (s : ClockSystem) (e : Event) (t : ClockSystem) : Prop := s.step e = some t

/-- The process at its first `receive_message` -/
def start : ClockSystem where
  clock := { clockOn := false, hour := 0, min := 0, sec := 0, baseTime := 0 }
  delayedMailbox := []
  mailbox := []
  hand := none
  sent := []

def isTick (m : IoMessage) : Bool := m.type = typeWallclockTick

/-- The number of ticks that are delayed or in the mailbox -/
def outstanding (s : ClockSystem) : Nat := s.delayedMailbox.countP isTick + s.mailbox.countP isTick

/-- While the process waits there is one tick at most, and exactly one if the clock is on. -/
def TicksExact (s : ClockSystem) : Prop :=
  s.hand = none → s.outstanding ≤ 1 ∧ (s.clock.clockOn = true → s.outstanding = 1)

/-- The event turns the clock on while a tick is outstanding. -/
def Restarts (s : ClockSystem) (e : Event) : Prop :=
  ∃ now m, e = .complete now ∧ s.hand = some m ∧ s.clock.TurnsOn m ∧ 0 < s.outstanding

end ClockSystem

namespace Wallclock

variable {w w' : Wallclock} {m : IoMessage} {now : UInt32} {sent : List Send} {delayed : List IoMessage}

lemma convertToDec_clockOn {msg : Memory} (h : w.convertToDec msg = some w') : w'.clockOn = w.clockOn := by
  rw [convertToDec] at h
  split_ifs at h
  cases h
  rfl

/-- The turn of a tick -/
lemma turn_tick : w.turn now tick =
    if w.clockOn then (w, [w.display now], [tick]) else (w, [], []) := by
  have htype : getMsgType tick.msg = 0 := by decide
  rw [turn, htype, if_neg (by decide), if_neg (by decide)]
  cases hon : w.clockOn with
  | true =>
    rw [if_pos ⟨rfl, rfl⟩, endOfTurn, hon, if_pos rfl, if_pos rfl]
  | false =>
    rw [if_neg (fun h => Bool.false_ne_true h.2), endOfTurn, hon, if_neg Bool.false_ne_true,
      if_neg Bool.false_ne_true]

/-- The turn of a command that turns the clock on -/
lemma turn_turnsOn (h : w.TurnsOn m) (hs : w.turn now m = (w', sent, delayed)) :
    w'.clockOn = true ∧ delayed = [tick] := by
  obtain ⟨htype, hcheck, hdec, hoff⟩ := h
  obtain ⟨w₁, hw₁⟩ := Option.isSome_iff_exists.mp hdec
  rw [turn, if_pos htype, hcheck, if_neg Bool.false_ne_true, hw₁] at hs
  dsimp only at hs
  rw [if_neg (by rw [convertToDec_clockOn hw₁, hoff]; exact Bool.false_ne_true), endOfTurn,
    if_pos rfl] at hs
  cases hs
  exact ⟨rfl, rfl⟩

/-- The turn of another command -/
lemma turn_command (hm : ClockSystem.IsClockCommand m) (h : ¬ w.TurnsOn m)
    (hs : w.turn now m = (w', sent, delayed)) :
    (w'.clockOn = true → w.clockOn = true) ∧ delayed = [] := by
  rw [turn] at hs
  by_cases htype : getMsgType m.msg = 1
  · rw [if_pos htype] at hs
    cases hcheck : errorCheck m.msg with
    | true =>
      rw [hcheck, if_pos rfl] at hs
      cases hs
      exact ⟨id, rfl⟩
    | false =>
      rw [hcheck, if_neg Bool.false_ne_true] at hs
      cases hdec : w.convertToDec m.msg with
      | none =>
        rw [hdec] at hs
        cases hs
        exact ⟨id, rfl⟩
      | some w₁ =>
        have hon : w₁.clockOn = true := by
          by_contra hoff
          rw [Bool.not_eq_true, convertToDec_clockOn hdec] at hoff
          exact h ⟨htype, hcheck, by rw [hdec]; rfl, hoff⟩
        rw [hdec] at hs
        dsimp only at hs
        rw [if_pos hon] at hs
        cases hs
        rw [convertToDec_clockOn hdec] at hon
        exact ⟨fun _ => hon, rfl⟩
  · -- the command is `%WT`
    have htwo : getMsgType m.msg = 2 := by
      rw [getMsgType] at htype ⊢
      rcases hm.2.2.2 with hS | hT
      · exact absurd (if_pos hS) htype
      · rw [hT, if_neg (by decide), if_pos rfl]
    rw [if_neg htype, if_pos htwo] at hs
    cases hs
    refine ⟨?_, rfl⟩
    intro hon
    cases hon

end Wallclock

namespace ClockSystem

variable {s t : ClockSystem} {e : Event} {es : List Event} {m : IoMessage}

/-- The number of ticks in the hand of the process -/
def held (s : ClockSystem) : Nat := s.hand.toList.countP isTick

/-- What holds in every state as long as the clock is not restarted too early -/
structure Settled (s : ClockSystem) : Prop where
  delayed : ∀ m ∈ s.delayedMailbox, m = Wallclock.tick
  mailbox : ∀ m ∈ s.mailbox, IsClockCommand m ∨ m = Wallclock.tick
  hand : ∀ m ∈ s.hand, IsClockCommand m ∨ m = Wallclock.tick
  le_one : s.outstanding + s.held ≤ 1
  one : s.clock.clockOn = true → s.outstanding + s.held = 1

lemma Settled.ticksExact (h : s.Settled) : s.TicksExact := by
  intro hidle
  have hle := h.le_one
  have hone := h.one
  rw [held, hidle] at hle hone
  exact ⟨hle, hone⟩

lemma settled_start : start.Settled where
  delayed := by simp [start]
  mailbox := by simp [start]
  hand := by simp [start]
  le_one := by decide
  one := by
    intro hon
    cases hon

lemma isTick_tick : isTick Wallclock.tick = true := rfl

lemma IsClockCommand.not_isTick (h : IsClockCommand m) : isTick m = false := by
  rw [isTick, h.1]
  rfl

lemma Settled.command (h : s.Settled) (hm : IsClockCommand m) :
    Settled { s with mailbox := s.mailbox ++ [m] } := by
  have hout : outstanding { s with mailbox := s.mailbox ++ [m] } = s.outstanding := by
    rw [outstanding, outstanding, List.countP_append, List.countP_singleton, hm.not_isTick]
    rfl
  refine ⟨h.delayed, ?_, h.hand, ?_, ?_⟩
  · intro x hx
    rcases List.mem_append.mp hx with hx | hx
    · exact h.mailbox x hx
    · exact .inl (List.mem_singleton.mp hx ▸ hm)
  · rw [hout]
    exact h.le_one
  · rw [hout]
    exact h.one

lemma Settled.due {i : Nat} (h : s.Settled) (hi : s.delayedMailbox[i]? = some m) :
    Settled { s with delayedMailbox := s.delayedMailbox.eraseIdx i, mailbox := s.mailbox ++ [m] } := by
  obtain ⟨hlt, hget⟩ := List.getElem?_eq_some_iff.mp hi
  have hperm := (List.getElem_cons_eraseIdx_perm hlt).countP_eq isTick
  have hm := h.delayed m (List.mem_of_getElem? hi)
  rw [hget, List.countP_cons] at hperm
  have hout : outstanding
      { s with delayedMailbox := s.delayedMailbox.eraseIdx i, mailbox := s.mailbox ++ [m] } =
        s.outstanding := by
    rw [outstanding, outstanding, List.countP_append, List.countP_singleton]
    dsimp only
    omega
  refine ⟨?_, ?_, h.hand, ?_, ?_⟩
  · intro x hx
    exact h.delayed x (List.mem_of_mem_eraseIdx hx)
  · intro x hx
    rcases List.mem_append.mp hx with hx | hx
    · exact h.mailbox x hx
    · exact .inr (List.mem_singleton.mp hx ▸ hm)
  · rw [hout]
    exact h.le_one
  · rw [hout]
    exact h.one

lemma Settled.receive {rest : List IoMessage} (h : s.Settled) (hhand : s.hand = none)
    (hmail : s.mailbox = m :: rest) : Settled { s with hand := some m, mailbox := rest } := by
  have hsum : outstanding { s with hand := some m, mailbox := rest } +
      held { s with hand := some m, mailbox := rest } = s.outstanding + s.held := by
    rw [outstanding, outstanding, held, held, hhand, hmail, Option.toList_some, Option.toList_none,
      List.countP_cons, List.countP_cons]
    dsimp only
    omega
  refine ⟨h.delayed, ?_, ?_, ?_, ?_⟩
  · intro x hx
    exact h.mailbox x (hmail ▸ List.mem_cons_of_mem m hx)
  · intro x hx
    cases hx
    exact h.mailbox m (hmail ▸ List.mem_cons_self)
  · rw [hsum]
    exact h.le_one
  · rw [hsum]
    exact h.one

/-- A turn that does not restart the clock too early -/
lemma Settled.complete {now : UInt32} {clock : Wallclock} {sent : List Send} {delayed : List IoMessage}
    (h : s.Settled) (hhand : s.hand = some m) (hturn : s.clock.turn now m = (clock, sent, delayed))
    (hcare : ¬ s.Restarts (.complete now)) :
    Settled { s with
      clock := clock
      hand := none
      sent := s.sent ++ sent
      delayedMailbox := s.delayedMailbox ++ delayed } := by
  have hle := h.le_one
  have hone := h.one
  rw [held, hhand, Option.toList_some, List.countP_singleton] at hle hone
  -- the claim, from what the turn does to the clock and to the ticks
  have hfinal : (∀ x ∈ delayed, x = Wallclock.tick) → s.outstanding + delayed.length ≤ 1 →
      (clock.clockOn = true → s.outstanding + delayed.length = 1) →
      Settled { s with
        clock := clock
        hand := none
        sent := s.sent ++ sent
        delayedMailbox := s.delayedMailbox ++ delayed } := by
    intro hticks hle hone
    have hcount : delayed.countP isTick = delayed.length := by
      rw [List.countP_eq_length]
      intro x hx
      rw [hticks x hx]
      rfl
    have hsum : s.delayedMailbox.countP isTick + delayed.countP isTick + s.mailbox.countP isTick =
        s.outstanding + delayed.length := by
      rw [outstanding, hcount]
      omega
    refine ⟨?_, h.mailbox, ?_, ?_, ?_⟩
    · intro x hx
      rcases List.mem_append.mp hx with hx | hx
      · exact h.delayed x hx
      · exact hticks x hx
    · intro x hx
      cases hx
    · rw [outstanding, held, List.countP_append, hsum]
      exact hle
    · intro hon
      rw [outstanding, held, List.countP_append, hsum]
      exact hone hon
  rcases h.hand m hhand with hm | rfl
  · rw [hm.not_isTick, if_neg Bool.false_ne_true] at hle hone
    by_cases hon : s.clock.TurnsOn m
    · have hnone : s.outstanding = 0 := by
        by_contra hpos
        exact hcare ⟨now, m, rfl, hhand, hon, Nat.pos_of_ne_zero hpos⟩
      obtain ⟨-, rfl⟩ := Wallclock.turn_turnsOn hon hturn
      apply hfinal
      · intro x hx
        exact List.mem_singleton.mp hx
      · rw [hnone]
        decide
      · intro _
        rw [hnone]
        rfl
    · obtain ⟨hclock, rfl⟩ := Wallclock.turn_command hm hon hturn
      apply hfinal
      · intro x hx
        cases hx
      · exact hle
      · intro hon'
        exact hone (hclock hon')
  · rw [isTick_tick, if_pos rfl] at hle hone
    rw [Wallclock.turn_tick] at hturn
    split_ifs at hturn with hon
    · cases hturn
      apply hfinal
      · intro x hx
        exact List.mem_singleton.mp hx
      · exact hle
      · exact hone
    · cases hturn
      apply hfinal
      · intro x hx
        cases hx
      · exact Nat.le_of_succ_le hle
      · intro hon'
        exact absurd hon' hon

/-- What one step preserves -/
theorem Settled.step (h : s.Settled) (hs : Step s e t) (hcare : ¬ s.Restarts e) : t.Settled := by
  cases e with
  | command m =>
    rw [Step, ClockSystem.step] at hs
    split_ifs at hs with hm
    cases hs
    exact h.command hm
  | due i =>
    obtain ⟨m, hi, rfl⟩ := Option.map_eq_some_iff.mp hs
    exact h.due hi
  | receive =>
    rw [Step, ClockSystem.step] at hs
    cases hhand : s.hand with
    | some m => rw [hhand] at hs; cases hs
    | none =>
      cases hmail : s.mailbox with
      | nil => rw [hhand, hmail] at hs; cases hs
      | cons m rest =>
        rw [hhand, hmail] at hs
        cases hs
        exact h.receive hhand hmail
  | complete now =>
    obtain ⟨m, hhand, rfl⟩ := Option.map_eq_some_iff.mp hs
    exact h.complete hhand rfl hcare

/-- A clock that is restarted too early has two ticks. -/
lemma Restarts.not_ticksExact (h : s.Restarts e) (hs : Step s e t) : ¬ t.TicksExact := by
  obtain ⟨now, m, rfl, hhand, hon, hpos⟩ := h
  obtain ⟨m', hm', rfl⟩ := Option.map_eq_some_iff.mp hs
  obtain rfl := Option.some.inj (hhand.symm.trans hm')
  cases hturn : s.clock.turn now m with
  | mk clock rest =>
    cases rest with
    | mk sent delayed =>
      obtain ⟨-, rfl⟩ := Wallclock.turn_turnsOn hon hturn
      intro hexact
      have hle := (hexact rfl).1
      rw [outstanding, List.countP_append, List.countP_singleton, isTick_tick] at hle
      rw [outstanding] at hpos
      dsimp only at hle
      rw [if_pos rfl] at hle
      omega

/-- In a run in which the clock is never restarted while a tick is outstanding, every state is settled. -/
theorem settled_of_run (h : Run Step start es s)
    (hcare : ∀ es₁ e es₂ t, es = es₁ ++ e :: es₂ → Run Step start es₁ t → ¬ t.Restarts e) :
    s.Settled := by
  induction h with
  | nil => exact settled_start
  | @snoc t _ es e h he ih =>
    have hpre : t.Settled := by
      apply ih
      intro es₁ e' es₂ u hes hu
      exact hcare es₁ e' (es₂ ++ [e]) u (by rw [hes]; simp) hu
    exact hpre.step he (hcare es e [] _ rfl h)

end ClockSystem

open ClockSystem in
/-- In a run there is at most one tick, and exactly one while the clock is on, whenever the process waits, if
and only if no command turns the clock on while a tick is outstanding. -/
theorem ticks_exact_iff {es : List ClockSystem.Event} {s : ClockSystem} (h : Run Step start es s) :
    (∀ es₁ es₂ t, es = es₁ ++ es₂ → Run Step start es₁ t → t.TicksExact) ↔
      ∀ es₁ e es₂ t, es = es₁ ++ e :: es₂ → Run Step start es₁ t → ¬ t.Restarts e := by
  constructor
  · intro hexact es₁ e es₂ t hes ht hre
    rw [hes, ← List.singleton_append, ← List.append_assoc] at h
    obtain ⟨u, hu, -⟩ := h.split
    obtain ⟨t', ht', hlast⟩ := hu.split
    obtain ⟨u', he, hnil⟩ := hlast.head
    obtain rfl := hnil.eq_of_nil
    have htt : t = t' := ht.det (fun _ _ _ _ h₁ h₂ => Option.some.inj (h₁.symm.trans h₂)) ht'
    subst htt
    apply hre.not_ticksExact he
    exact hexact (es₁ ++ [e]) es₂ _ (by rw [hes]; simp) hu
  · intro hcare es₁ es₂ t hes ht
    apply (settled_of_run ht _).ticksExact
    intro es₃ e es₄ t' hes' ht'
    exact hcare es₃ e (es₄ ++ es₂) t' (by rw [hes, hes']; simp) ht'

/-- A message with the text `t` for the wall clock -/
def clockCommand (t : List UInt8) : IoMessage :=
  { IoMessage.blank with tx := kcdPid, rx := wallclockPid, msg := strCopy IoMessage.blank.msg t 0 }

/-- `%WS 12:00:00` -/
def startClock : IoMessage :=
  clockCommand [0x25, 0x57, 0x53, 0x20, 0x31, 0x32, 0x3a, 0x30, 0x30, 0x3a, 0x30, 0x30]

/-- `%WT` -/
def stopClock : IoMessage := clockCommand [0x25, 0x57, 0x54]

/-- The clock is started once. -/
def startEvents : List ClockSystem.Event := [.command startClock, .receive, .complete 0]

/-- The clock is started, stopped and started again, all before the first tick. -/
def restartEvents : List ClockSystem.Event :=
  startEvents ++ [.command stopClock, .receive, .complete 1] ++
    [.command startClock, .receive, .complete 2]

open ClockSystem in
/-- A clock that is started once has one tick. -/
theorem ticks_exact_started : ∃ s, Run Step start startEvents s ∧ s.clock.clockOn = true ∧
    ∀ es₁ es₂ t, startEvents = es₁ ++ es₂ → Run Step start es₁ t → t.TicksExact := by
  obtain ⟨s, hs, hon⟩ : ∃ s, startEvents.foldlM step start = some s ∧ s.clock.clockOn = true :=
    ⟨_, rfl, rfl⟩
  have hrun : Run Step start startEvents s := Run.of_foldlM (fun _ _ _ h => h) hs
  refine ⟨s, hrun, hon, (ticks_exact_iff hrun).mpr ?_⟩
  rintro es₁ e es₂ t hes ht ⟨now, m, rfl, hhand, -, hpos⟩
  have hpre : es₁ = [.command startClock, .receive] := by
    rcases es₁ with _ | ⟨a, _ | ⟨b, _ | ⟨c, es₁⟩⟩⟩
    · cases hes
    · cases hes
    · cases hes
      rfl
    · cases es₁ <;> cases hes
  subst hpre
  obtain ⟨u, hu, hzero⟩ :
      ∃ u, [Event.command startClock, .receive].foldlM step start = some u ∧ u.outstanding = 0 :=
    ⟨_, rfl, by decide⟩
  have hdet := ht.det (fun _ _ _ _ h₁ h₂ => Option.some.inj (h₁.symm.trans h₂))
    (Run.of_foldlM (fun _ _ _ h => h) hu)
  rw [hdet, hzero] at hpos
  exact absurd hpos (Nat.lt_irrefl 0)

open ClockSystem in
/-- A clock that is stopped and started again within a second has two ticks. -/
theorem ticks_exact_restarted : ∃ s, Run Step start restartEvents s ∧ s.hand = none ∧
    s.outstanding = 2 ∧ ¬ s.TicksExact := by
  obtain ⟨s, hs, hhand, htwo⟩ :
      ∃ s, restartEvents.foldlM step start = some s ∧ s.hand = none ∧ s.outstanding = 2 :=
    ⟨_, rfl, rfl, rfl⟩
  refine ⟨s, Run.of_foldlM (fun _ _ _ h => h) hs, hhand, htwo, ?_⟩
  intro hexact
  have hle := (hexact hhand).1
  rw [htwo] at hle
  exact absurd hle (by decide)

end RtxKernel
