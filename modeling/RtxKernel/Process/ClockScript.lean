import RtxKernel.Process.ClockTime
import RtxKernel.Process.ScriptMail
import RtxKernel.Process.ScriptRules

/-!
# The wall clock in the system

The code of `wallclock/wallclock.c` with every byte that it reads and writes in an envelope. A turn of it does what
`Wallclock.turn` says about messages (`Wallclock.wp_code`). So whatever the other processes and the interrupts do,
the times that the clock displays are the time to which it was set and the seconds since then (`Wallclock.Shows`).
-/

namespace RtxKernel

open Script

namespace Wallclock

/-! ### The code -/

/-- `get_msg_type` -/
def readMsgType (msg : Nat) : Script Nat := do
  let c ← loadMsg msg 2
  if c = 0x53 then return 1 else
    let c ← loadMsg msg 2
    if c = 0x54 then return 2 else return 0

/-- `msg[i] < 0x30 || msg[i] > 0x39` for one of the indices -/
def readNonDigit (msg : Nat) : List Nat → Script Bool
  | [] => return false
  | i :: l => do
    let c ← loadMsg msg i
    if c < 0x30 then return true else
      let c ← loadMsg msg i
      if 0x39 < c then return true else readNonDigit msg l

/-- `error_check` -/
def readErrorCheck (msg : Nat) : Script Bool := do
  let c ← loadMsg msg 6
  if c ≠ 0x3a then return true else
    let c ← loadMsg msg 9
    if c ≠ 0x3a then return true else
      let c ← loadMsg msg 3
      if c ≠ 0x20 then return true else
        let c ← loadMsg msg 12
        if c ≠ 0 then return true else readNonDigit msg [4, 5, 7, 8, 10, 11]

/-- One of the numbers of `convert_to_dec` -/
def readTwoDigits (msg i : Nat) : Script Nat := do
  let c ← loadMsg msg i
  let d ← loadMsg msg (i + 1)
  return digit c * 10 + digit d

/-- `convert_to_dec` -/
def readDec (w : Wallclock) (msg : Nat) : Script (Option Wallclock) := do
  let hour ← readTwoDigits msg 4
  let min ← readTwoDigits msg 7
  let sec ← readTwoDigits msg 10
  if 23 < hour then return none
  else if 59 < min ∨ 59 < sec then return none
  else return some { w with hour := UInt32.ofNat hour, min := UInt32.ofNat min, sec := UInt32.ofNat sec }

/-- The time is sent to the CRT process. The text in `out_time` is the clock's own. -/
def sendTime (w : Wallclock) : Script Unit := do
  let sendMsg ← request
  let now ← getTime
  copyTo (strCopy (fun _ => 0) (w.outTime now) 0) (msgField sendMsg) addressSpace 0
  let _ ← send crtPid sendMsg

/-- The end of the loop, from the release of the message on -/
def finish (w : Wallclock) (msg : Nat) : Script Wallclock := do
  let _ ← release msg
  if w.clockOn then
    let delayMsg ← request
    store32 (typeField delayMsg) typeWallclockTick
    let _ ← delayedSend wallclockPid delayMsg 1000
    return w
  else return w

/-- The clock is set. -/
def set (msg : Nat) : Option Wallclock → Wallclock → Script Wallclock
  | none, w => do
    let _ ← release msg
    return w
  | some w, _ =>
    if w.clockOn then do
      let now ← getTime
      let _ ← release msg
      return { w with baseTime := now }
    else do
      let now ← getTime
      finish { w with baseTime := now, clockOn := true } msg

/-- `wallclock`, with a message that it has received -/
def code (w : Wallclock) (msg : Nat) : Script Wallclock := do
  let mode ← readMsgType msg
  if mode = 1 then
    let wrong ← readErrorCheck msg
    if wrong then
      let _ ← release msg
      return w
    else
      let read ← w.readDec msg
      set msg read w
  else if mode = 2 then
    let _ ← release msg
    return { w with clockOn := false }
  else
    let type ← load32 (typeField msg)
    if type = typeWallclockTick ∧ w.clockOn then
      w.sendTime
      w.finish msg
    else w.finish msg

def off : Wallclock := ⟨false, 0, 0, 0, 0⟩

/-- `%WS` and `%WT` -/
def names : List (List UInt8) := [[0x25, 0x57, 0x53], [0x25, 0x57, 0x54]]

/-- The wall clock as a process. Its variables are its own memory. -/
def process : Process Wallclock where
  pid := wallclockPid
  start := do
    register [0x25, 0x57, 0x53]
    register [0x25, 0x57, 0x54]
    return off
  turn := code

/-! ### What a turn does -/

/-- The message that asks for the next tick, before it is sent -/
def ask : Send := ⟨wallclockPid, { IoMessage.blank with type := typeWallclockTick }⟩

/-- The turn calls `get_time`. -/
def readsTime (w : Wallclock) (m : IoMessage) : Bool :=
  if getMsgType m.msg = 1 then !errorCheck m.msg && (w.convertToDec m.msg).isSome
  else decide (getMsgType m.msg ≠ 2 ∧ m.type = typeWallclockTick) && w.clockOn

/-- What a turn does with a message at the time `now` -/
def turnDeeds (w : Wallclock) (now : UInt32) (m : IoMessage) : List Deed :=
  (if w.readsTime m then [.time now] else []) ++ (w.turn now m).2.1.map .sent ++
    (w.turn now m).2.2.map fun _ => .delayed ask 1000

/-- The messages `l`, each one with the time at which it is dealt with -/
def handle (l : List (IoMessage × UInt32)) : Wallclock × List Deed :=
  l.foldl (fun x y => ((x.1.turn y.2 y.1).1, x.2 ++ x.1.turnDeeds y.2 y.1)) (off, [])

def registrations : List Deed := names.map fun name => .sent (registration name)

/-- The clock has registered its commands and has dealt with the messages `ms`. -/
def Handled (ms : List IoMessage) (w : Wallclock) (deeds : List Deed) : Prop :=
  ∃ l, l.map Prod.fst = ms ∧ w = (handle l).1 ∧ deeds = registrations ++ (handle l).2

lemma handle_concat {l : List (IoMessage × UInt32)} {m : IoMessage} {now : UInt32} : handle (l ++ [(m, now)]) =
    (((handle l).1.turn now m).1, (handle l).2 ++ (handle l).1.turnDeeds now m) := by
  rw [handle, List.foldl_append]
  rfl

/-! ### The parts of a turn -/

section Parts

variable {allowed : Deed → Prop} {v : View} {e i : Nat} {l : List Nat} {m : IoMessage} {w w' : Wallclock}
  {now : UInt32} {c d : UInt8} {U : Unit → View → Prop} {R : Wallclock → View → Prop}

lemma wp_readMsgType {Q : Nat → View → Prop} (h : v.Has e m) (hQ : Q (getMsgType m.msg) v) :
    (readMsgType e).wp (contract allowed) Q v := by
  rw [getMsgType] at hQ
  rw [readMsgType, Program.wp_bind]
  refine h.loadMsg (by decide) ?_
  by_cases hS : m.msg 2 = 0x53
  · rw [if_pos hS] at hQ ⊢
    exact hQ
  · rw [if_neg hS] at hQ ⊢
    rw [Program.wp_bind]
    refine h.loadMsg (by decide) ?_
    by_cases hT : m.msg 2 = 0x54
    · rw [if_pos hT] at hQ ⊢
      exact hQ
    · rw [if_neg hT] at hQ ⊢
      exact hQ

lemma wp_readNonDigit {Q : Bool → View → Prop} (h : v.Has e m) (hl : ∀ i ∈ l, i < msgSize)
    (hQ : Q (l.any fun i => m.msg i < 0x30 || 0x39 < m.msg i) v) : (readNonDigit e l).wp (contract allowed) Q v := by
  induction l with
  | nil => exact hQ
  | cons i l ih =>
    rw [List.forall_mem_cons] at hl
    rw [List.any_cons] at hQ
    rw [readNonDigit, Program.wp_bind]
    refine h.loadMsg hl.1 ?_
    by_cases hlow : m.msg i < 0x30
    · rw [if_pos hlow]
      simpa [hlow] using hQ
    · rw [if_neg hlow, Program.wp_bind]
      refine h.loadMsg hl.1 ?_
      by_cases hhigh : 0x39 < m.msg i
      · rw [if_pos hhigh]
        simpa [hhigh] using hQ
      · rw [if_neg hhigh]
        refine ih hl.2 ?_
        simpa [hlow, hhigh] using hQ

lemma wp_readErrorCheck {Q : Bool → View → Prop} (h : v.Has e m) (hQ : Q (errorCheck m.msg) v) :
    (readErrorCheck e).wp (contract allowed) Q v := by
  rw [errorCheck] at hQ
  rw [readErrorCheck, Program.wp_bind]
  refine h.loadMsg (by decide) ?_
  by_cases h6 : m.msg 6 ≠ 0x3a
  · rw [if_pos (.inl h6)] at hQ
    rw [if_pos h6]
    exact hQ
  rw [if_neg h6, Program.wp_bind]
  refine h.loadMsg (by decide) ?_
  by_cases h9 : m.msg 9 ≠ 0x3a
  · rw [if_pos (.inr h9)] at hQ
    rw [if_pos h9]
    exact hQ
  rw [if_neg (not_or.mpr ⟨h6, h9⟩)] at hQ
  rw [if_neg h9, Program.wp_bind]
  refine h.loadMsg (by decide) ?_
  by_cases h3 : m.msg 3 ≠ 0x20
  · rw [if_pos h3] at hQ ⊢
    exact hQ
  rw [if_neg h3] at hQ ⊢
  rw [Program.wp_bind]
  refine h.loadMsg (by decide) ?_
  by_cases h12 : m.msg 12 ≠ 0
  · rw [if_pos h12] at hQ ⊢
    exact hQ
  rw [if_neg h12] at hQ ⊢
  exact wp_readNonDigit h (by decide) hQ

lemma wp_readTwoDigits {Q : Nat → View → Prop} (h : v.Has e m) (hi : i + 1 < msgSize) (hQ : Q (twoDigits m.msg i) v) :
    (readTwoDigits e i).wp (contract allowed) Q v := by
  simp only [readTwoDigits, Program.wp_bind]
  refine h.loadMsg (Nat.lt_of_succ_lt hi) ?_
  exact h.loadMsg hi hQ

lemma wp_readDec {Q : Option Wallclock → View → Prop} (h : v.Has e m) (hQ : Q (w.convertToDec m.msg) v) :
    (w.readDec e).wp (contract allowed) Q v := by
  rw [convertToDec] at hQ
  simp only [readDec, Program.wp_bind]
  refine wp_readTwoDigits h (by decide) ?_
  refine wp_readTwoDigits h (by decide) ?_
  refine wp_readTwoDigits h (by decide) ?_
  split_ifs at hQ ⊢ with hhour hrest
  · exact hQ
  · exact hQ
  · exact hQ

lemma zero_notMem_outTime : (0 : UInt8) ∉ w.outTime now := by
  have hlt : ∀ x y : UInt32, y.toNat ≠ 0 → y.toNat < 100 → (x % y).toNat < 100 := by
    intro x y hpos hy
    rw [UInt32.toNat_mod]
    exact Nat.lt_trans (Nat.mod_lt _ (Nat.pos_of_ne_zero hpos)) hy
  rw [outTime, convertToAscii_eq]
  exact zero_notMem_timeText (hlt _ 24 (by decide) (by decide)) (hlt _ 60 (by decide) (by decide))
    (hlt _ 60 (by decide) (by decide))

lemma wp_sendTime (h : v.Has e m) (hall : ∀ now, allowed (.sent (w.display now)))
    (hU : ∀ now v', v'.Has e m → v'.deeds = v.deeds ++ [.time now, .sent (w.display now)] → U () v') :
    w.sendTime.wp (contract allowed) U v := by
  simp only [sendTime, Program.wp_bind]
  refine wp_request ?_
  intro x v₀ h₀
  have hapart := h₀.apart e h.held
  have hne : e ≠ x := by
    rintro rfl
    simp only [memBlockSize] at hapart
    omega
  have he₀ : v₀.Has e m := h.of_frame (h₀.held ▸ List.mem_cons_of_mem _ h.held) h₀.frame hapart
  refine wp_getTime ?_
  intro now
  have htext : StringAt (strCopy (fun _ => 0) (w.outTime now) 0) 0 (w.outTime now) :=
    stringAt_strCopy zero_notMem_outTime rfl
  have hlen : (w.outTime now).length = 10 := rfl
  have hhas : (v₀.note [.time now]).Has x .blank := ⟨h₀.has.held, h₀.has.message⟩
  refine hhas.copyTo htext (by rw [hlen]; decide) (by rw [hlen]; decide) ?_
  intro v₁ h₁
  have he₁ : v₁.Has e m := he₀.of_frame (h₁.held ▸ he₀.held) h₁.frame hapart
  refine wp_send h₁.has (hall now) ?_
  intro code v₂ h₂
  refine hU now v₂ ⟨?_, ?_⟩ ?_
  · rw [h₂.held]
    exact List.mem_filter.mpr ⟨he₁.held, by simpa using hne⟩
  · rw [h₂.memory]
    exact he₁.message
  · rw [h₂.deeds, h₁.deeds, View.note, h₀.deeds, List.append_assoc]
    rfl

lemma wp_finish (h : v.Has e m) (hall : allowed (.delayed ask 1000))
    (hR : ∀ v', v'.deeds = v.deeds ++ (if w.clockOn then [.delayed ask 1000] else []) → R w v') :
    (w.finish e).wp (contract allowed) R v := by
  rw [finish, Program.wp_bind]
  refine wp_release h.held ?_
  intro code v₁ h₁
  cases hon : w.clockOn with
  | false =>
    refine hR v₁ ?_
    rw [h₁.deeds, hon]
    rfl
  | true =>
    rw [if_pos rfl]
    simp only [Program.wp_bind]
    refine wp_request ?_
    intro x v₂ h₂
    refine h₂.has.setType ?_
    intro v₃ h₃
    refine wp_delayedSend h₃.has hall ?_
    intro code v₄ h₄
    refine hR v₄ ?_
    rw [h₄.deeds, h₃.deeds, h₂.deeds, h₁.deeds, hon, List.append_nil]
    rfl

/-- A turn that only releases the message -/
lemma wp_only_release {w₀ : Wallclock} (h : v.Has e m) (hturn : w.turn 0 m = (w₀, [], []))
    (hreads : w.readsTime m = false)
    (hR : ∀ now v', v'.deeds = v.deeds ++ w.turnDeeds now m → R (w.turn now m).1 v') :
    (do
      let _ ← release e
      return w₀ : Script Wallclock).wp (contract allowed) R v := by
  rw [Program.wp_bind]
  refine wp_release h.held ?_
  intro code v₁ h₁
  have hend := hR 0 v₁ (by rw [h₁.deeds, turnDeeds, hturn, hreads]; rfl)
  rwa [hturn] at hend

/-- A `%WS` whose text has been read -/
lemma wp_set (h : v.Has e m) (hask : allowed (.delayed ask 1000)) (hmode : getMsgType m.msg = 1)
    (hcheck : errorCheck m.msg = false)
    (hR : ∀ now v', v'.deeds = v.deeds ++ w.turnDeeds now m → R (w.turn now m).1 v') :
    (set e (w.convertToDec m.msg) w).wp (contract allowed) R v := by
  cases hdec : w.convertToDec m.msg with
  | none =>
    refine wp_only_release h ?_ ?_ hR
    · rw [turn, if_pos hmode, hcheck, if_neg Bool.false_ne_true, hdec]
    · rw [readsTime, if_pos hmode, hdec, Option.isSome_none, Bool.and_false]
  | some w₁ =>
    have hreads : w.readsTime m = true := by
      rw [readsTime, if_pos hmode, hcheck, hdec]
      rfl
    have hturn : ∀ now, w.turn now m = if w₁.clockOn then ({ w₁ with baseTime := now }, [], [])
        else endOfTurn { w₁ with baseTime := now, clockOn := true } [] := by
      intro now
      rw [turn, if_pos hmode, hcheck, if_neg Bool.false_ne_true, hdec]
    rw [set]
    cases hon : w₁.clockOn with
    | true =>
      rw [if_pos rfl, Program.wp_bind]
      refine wp_getTime ?_
      intro now
      have hnow : w.turn now m = ({ w₁ with baseTime := now }, [], []) := (hturn now).trans (if_pos hon)
      rw [Program.wp_bind]
      refine wp_release h.held ?_
      intro code v₁ h₁
      have hend := hR now v₁ (by rw [h₁.deeds, turnDeeds, hnow, hreads, List.append_nil]; rfl)
      rw [hnow] at hend
      exact hon ▸ hend
    | false =>
      rw [if_neg Bool.false_ne_true, Program.wp_bind]
      refine wp_getTime ?_
      intro now
      have hnow : w.turn now m = endOfTurn { w₁ with baseTime := now, clockOn := true } [] :=
        (hturn now).trans (if_neg (by rw [hon]; exact Bool.false_ne_true))
      refine wp_finish ⟨h.held, h.message⟩ hask ?_
      intro v₁ h₁
      have hend := hR now v₁ (by rw [h₁, turnDeeds, hnow, hreads, View.note, List.append_assoc]; rfl)
      rwa [hnow] at hend

/-- A tick while the clock is on -/
lemma wp_tick (h : v.Has e m) (hsent : ∀ now, allowed (.sent (w.display now))) (hask : allowed (.delayed ask 1000))
    (hset : getMsgType m.msg ≠ 1) (hstop : getMsgType m.msg ≠ 2) (htick : m.type = typeWallclockTick ∧ w.clockOn)
    (hR : ∀ now v', v'.deeds = v.deeds ++ w.turnDeeds now m → R (w.turn now m).1 v') :
    (do
      w.sendTime
      w.finish e : Script Wallclock).wp (contract allowed) R v := by
  have hreads : w.readsTime m = true := by simp [readsTime, hset, hstop, htick.1, htick.2]
  rw [Program.wp_bind]
  refine wp_sendTime h hsent ?_
  intro now v₁ h₁ hdeeds
  have hnow : w.turn now m = endOfTurn w [w.display now] := by rw [turn, if_neg hset, if_neg hstop, if_pos htick]
  refine wp_finish h₁ hask ?_
  intro v₂ h₂
  have hend := hR now v₂ (by rw [h₂, hdeeds, turnDeeds, hnow, hreads, endOfTurn, if_pos htick.2]; simp [htick.2])
  rwa [hnow] at hend

/-- A turn of the code does what the turn over messages does. -/
theorem wp_code (h : v.Has e m) (hsent : ∀ now, allowed (.sent (w.display now))) (hask : allowed (.delayed ask 1000))
    (hR : ∀ now v', v'.deeds = v.deeds ++ w.turnDeeds now m → R (w.turn now m).1 v') :
    (w.code e).wp (contract allowed) R v := by
  rw [code, Program.wp_bind]
  refine wp_readMsgType h ?_
  by_cases hset : getMsgType m.msg = 1
  · rw [if_pos hset, Program.wp_bind]
    refine wp_readErrorCheck h ?_
    cases hcheck : errorCheck m.msg with
    | true =>
      refine wp_only_release h ?_ ?_ hR
      · rw [turn, if_pos hset, hcheck, if_pos rfl]
      · rw [readsTime, if_pos hset, hcheck]
        rfl
    | false =>
      rw [if_neg Bool.false_ne_true, Program.wp_bind]
      exact wp_readDec h (wp_set h hask hset hcheck hR)
  rw [if_neg hset]
  by_cases hstop : getMsgType m.msg = 2
  · rw [if_pos hstop]
    refine wp_only_release h ?_ ?_ hR
    · rw [turn, if_neg hset, if_pos hstop]
    · simp [readsTime, hstop]
  rw [if_neg hstop, Program.wp_bind]
  refine h.loadType ?_
  by_cases htick : m.type = typeWallclockTick ∧ w.clockOn
  · rw [if_pos htick]
    exact wp_tick h hsent hask hset hstop htick hR
  · rw [if_neg htick]
    have hnow : w.turn 0 m = endOfTurn w [] := by rw [turn, if_neg hset, if_neg hstop, if_neg htick]
    have hreads : w.readsTime m = false := by
      simpa [readsTime, hset, hstop] using htick
    refine wp_finish h hask ?_
    intro v₁ h₁
    have hend := hR 0 v₁ (by rw [h₁, turnDeeds, hnow, hreads, endOfTurn]; cases w.clockOn <;> rfl)
    rwa [hnow] at hend

end Parts

theorem correct {allowed : Deed → Prop} (hnames : ∀ name ∈ names, allowed (.sent (registration name)))
    (hsent : ∀ (w : Wallclock) now, allowed (.sent (w.display now))) (hask : allowed (.delayed ask 1000)) :
    process.Correct allowed (fun _ _ => True) Handled where
  start := by
    intro v _ hdeeds
    simp only [names, List.forall_mem_cons] at hnames
    simp only [process, Program.wp_bind]
    refine wp_register (by decide) hnames.1 ?_
    intro v₁ h₁
    refine wp_register (by decide) hnames.2.1 ?_
    intro v₂ h₂
    have hnow : v₂.deeds = registrations := by
      rw [h₂, h₁, hdeeds]
      rfl
    exact ⟨[], rfl, rfl, hnow⟩
  turn := by
    rintro ms m w e v ⟨l, hl, rfl, hdeeds⟩ - he hm
    refine wp_code ⟨he, hm⟩ (hsent _) hask ?_
    intro now v' hv'
    refine ⟨l ++ [(m, now)], by rw [List.map_append, hl]; rfl, ?_, ?_⟩
    · rw [handle_concat]
    · rw [handle_concat, hv', hdeeds, List.append_assoc]

/-! ### The time that is displayed -/

/-- The messages `l` have set the clock, at the time `base`. -/
def SetBy (l : List (IoMessage × UInt32)) (hour min sec : Nat) (base : UInt32) : Prop :=
  ∃ l₁ m l₂, l = l₁ ++ (m, base) :: l₂ ∧ m.msg 2 = 0x53 ∧ IsTimeText m.msg hour min sec ∧
    ∀ x ∈ l₂, x.1.msg 2 = 0x53 → ∀ hour min sec, ¬ IsTimeText x.1.msg hour min sec

/-- The text was made at a tick among the messages `l`. It is the time of day to which the clock was set before,
and the seconds between the two times that it has read, at the command and at the tick. -/
def Shows (l : List (IoMessage × UInt32)) (deeds : List Deed) (msg : Memory) : Prop :=
  ∃ l₁ m now l₂ hour min sec base t, l = l₁ ++ (m, now) :: l₂ ∧ m.type = typeWallclockTick ∧
    SetBy l₁ hour min sec base ∧ .time base ∈ deeds ∧ .time now ∈ deeds ∧
    t = (3600 * hour + 60 * min + sec + (now - base).toNat / 1000) % 86400 ∧
    StringAt msg 0 (timeText (t / 3600) (t / 60 % 60) (t % 60))

section Shown

variable {l : List (IoMessage × UInt32)} {m : IoMessage} {w : Wallclock} {now base : UInt32} {hour min sec : Nat}
  {call : Send} {deeds d₁ d₂ : List Deed}

lemma SetBy.concat (h : SetBy l hour min sec base)
    (hm : m.msg 2 = 0x53 → ∀ hour min sec, ¬ IsTimeText m.msg hour min sec) :
    SetBy (l ++ [(m, now)]) hour min sec base := by
  obtain ⟨l₁, m₁, l₂, rfl, hS, htext, hrest⟩ := h
  refine ⟨l₁, m₁, l₂ ++ [(m, now)], by simp, hS, htext, ?_⟩
  intro x hx
  rcases List.mem_append.mp hx with hx | hx
  · exact hrest x hx
  · obtain rfl := List.mem_singleton.mp hx
    exact hm

/-- Another message leaves the clock as it is, or stops it. -/
lemma turn_of_ne (w : Wallclock) (now : UInt32) (hS : m.msg 2 ≠ 0x53) :
    (w.turn now m).1 = w ∨ (w.turn now m).1.clockOn = false := by
  have hmode : getMsgType m.msg ≠ 1 := by
    rw [getMsgType, if_neg hS]
    split_ifs <;> decide
  rw [turn, if_neg hmode]
  split_ifs
  · exact .inr rfl
  · exact .inl rfl
  · exact .inl rfl

lemma readsTime_of_isTimeText (hS : m.msg 2 = 0x53) (h : IsTimeText m.msg hour min sec) : w.readsTime m = true := by
  have hcheck : errorCheck m.msg = false := errorCheck_eq_false_iff.mpr ⟨h.colons, h.space, h.null, h.digits⟩
  rw [readsTime, if_pos (by rw [getMsgType, if_pos hS]), hcheck]
  rcases convertToDec_cases w m.msg with ⟨-, -, -, hdec⟩ | ⟨hno, -⟩
  · rw [hdec]
    rfl
  · rw [twoDigits_eq, twoDigits_eq, twoDigits_eq, h.hours, h.minutes, h.seconds] at hno
    exact absurd h.inRange hno

/-- A clock that is on was set, and has read the time then. -/
lemma setBy_of_on (hon : (handle l).1.clockOn = true) : ∃ hour min sec base, SetBy l hour min sec base ∧
    (hour < 24 ∧ min < 60 ∧ sec < 60) ∧ .time base ∈ (handle l).2 ∧
      (handle l).1 = ⟨true, UInt32.ofNat hour, UInt32.ofNat min, UInt32.ofNat sec, base⟩ := by
  induction l using List.reverseRecOn with
  | nil => cases hon
  | append_singleton l x ih =>
    obtain ⟨m, now⟩ := x
    rw [handle_concat] at hon ⊢
    have hkeep : (∀ hour min sec, m.msg 2 = 0x53 → ¬ IsTimeText m.msg hour min sec) →
        ((handle l).1.turn now m).1 = (handle l).1 → ∃ hour min sec base, SetBy (l ++ [(m, now)]) hour min sec base ∧
          (hour < 24 ∧ min < 60 ∧ sec < 60) ∧ .time base ∈ (handle l).2 ++ (handle l).1.turnDeeds now m ∧
            ((handle l).1.turn now m).1 = ⟨true, UInt32.ofNat hour, UInt32.ofNat min, UInt32.ofNat sec, base⟩ := by
      intro hno hsame
      rw [hsame] at hon ⊢
      obtain ⟨hour, min, sec, base, hset, hrange, htime, heq⟩ := ih hon
      exact ⟨hour, min, sec, base, hset.concat fun hS _ _ _ => hno _ _ _ hS, hrange, List.mem_append_left _ htime, heq⟩
    by_cases hS : m.msg 2 = 0x53
    · by_cases htext : ∃ hour min sec, IsTimeText m.msg hour min sec
      · obtain ⟨hour, min, sec, htext⟩ := htext
        refine ⟨hour, min, sec, now, ⟨l, m, [], rfl, hS, htext, by simp⟩, htext.inRange, ?_,
          turn_of_isTimeText htext hS⟩
        rw [turnDeeds, readsTime_of_isTimeText hS htext]
        simp
      · have hno : ∀ hour min sec, ¬ IsTimeText m.msg hour min sec :=
          fun hour min sec h => htext ⟨hour, min, sec, h⟩
        exact hkeep (fun hour min sec _ => hno hour min sec) (turn_of_not hS hno)
    · rcases turn_of_ne (handle l).1 now hS with hsame | hoff
      · exact hkeep (fun _ _ _ h => absurd h hS) hsame
      · rw [hoff] at hon
        cases hon

lemma turn_sent (w : Wallclock) (now : UInt32) (m : IoMessage) : (w.turn now m).2.1 = [] ∨
    (w.readsTime m = true ∧ m.type = typeWallclockTick ∧ w.clockOn = true ∧
      w.turn now m = endOfTurn w [w.display now]) := by
  rw [turn]
  by_cases hset : getMsgType m.msg = 1
  · rw [if_pos hset]
    left
    cases errorCheck m.msg with
    | true => rfl
    | false =>
      cases w.convertToDec m.msg with
      | none => rfl
      | some w₁ =>
        rw [if_neg Bool.false_ne_true]
        dsimp only
        split_ifs
        · rfl
        · rfl
  · rw [if_neg hset]
    split_ifs with hstop htick
    · exact .inl rfl
    · exact .inr ⟨by simp [readsTime, hset, hstop, htick.1, htick.2], htick.1, htick.2, rfl⟩
    · exact .inl rfl

/-- What is sent in a turn is the time, right after it was read. -/
lemma turnDeeds_sent (h : w.turnDeeds now m = d₁ ++ .sent call :: d₂) :
    d₁ = [.time now] ∧ m.type = typeWallclockTick ∧ w.clockOn = true ∧ call = w.display now := by
  rcases turn_sent w now m with hnone | ⟨hreads, htick, hon, hturn⟩
  · have hmem : Deed.sent call ∈ w.turnDeeds now m := by
      rw [h]
      simp
    rw [turnDeeds, hnone] at hmem
    simp only [List.map_nil, List.append_nil, List.mem_append, List.mem_map] at hmem
    rcases hmem with hmem | ⟨x, -, hx⟩
    · split_ifs at hmem
      · cases List.mem_singleton.mp hmem
      · cases hmem
    · cases hx
  · rw [turnDeeds, hreads, hturn, endOfTurn, if_pos hon] at h
    have hlist : [Deed.time now, .sent (w.display now), .delayed ask 1000] = d₁ ++ .sent call :: d₂ := h
    rcases d₁ with _ | ⟨d, _ | ⟨d', _ | ⟨d'', d₁⟩⟩⟩
    · cases hlist
    · obtain ⟨rfl, hrest⟩ := List.cons.inj hlist
      obtain ⟨heq, -⟩ := List.cons.inj hrest
      exact ⟨rfl, htick, hon, (Deed.sent.inj heq).symm⟩
    · cases hlist
    · simp at hlist

/-- A time that is displayed -/
lemma shows_display (hset : SetBy l hour min sec base) (hrange : hour < 24 ∧ min < 60 ∧ sec < 60)
    (hbase : .time base ∈ deeds) (hnow : .time now ∈ deeds) (htick : m.type = typeWallclockTick)
    (l₂ : List (IoMessage × UInt32)) : Shows (l ++ (m, now) :: l₂) deeds
      (display ⟨true, UInt32.ofNat hour, UInt32.ofNat min, UInt32.ofNat sec, base⟩ now).message.msg := by
  have hofNat : ∀ {x b : Nat}, x < b → b < UInt32.size → UInt32.ofNat x < UInt32.ofNat b := fun hx hb =>
    (UInt32.ofNat_lt_iff_lt (Nat.lt_trans hx hb) hb).mpr hx
  have hsize : ∀ {x b : Nat}, x < b → b < UInt32.size → (UInt32.ofNat x).toNat = x := fun hx hb =>
    UInt32.toNat_ofNat_of_lt' (Nat.lt_trans hx hb)
  refine ⟨l, m, now, l₂, hour, min, sec, base, _, rfl, htick, hset, hbase, hnow, rfl, ?_⟩
  have htime := (@outTime_eq ⟨true, UInt32.ofNat hour, UInt32.ofNat min, UInt32.ofNat sec, base⟩ now
    (hofNat hrange.1 (by decide)) (hofNat hrange.2.1 (by decide)) (hofNat hrange.2.2 (by decide)) _ rfl).2
  dsimp only at htime
  rw [hsize hrange.1 (by decide), hsize hrange.2.1 (by decide), hsize hrange.2.2 (by decide),
    UInt32.toNat_div] at htime
  rw [display_eq, htime]
  exact stringAt_strCopy (zero_notMem_timeText (by omega) (by omega) (by omega)) rfl

lemma Shows.concat {msg : Memory} {x : IoMessage × UInt32} (h : Shows l deeds msg) : Shows (l ++ [x]) deeds msg := by
  obtain ⟨l₁, m, now, l₂, hour, min, sec, base, t, rfl, h⟩ := h
  exact ⟨l₁, m, now, l₂ ++ [x], hour, min, sec, base, t, by simp, h⟩

/-- What stands before a display accounts for it. -/
lemma shows_of_sent (h : (handle l).2 = d₁ ++ .sent call :: d₂) : Shows l d₁ call.message.msg := by
  induction l using List.reverseRecOn generalizing d₂ with
  | nil => cases d₁ <;> cases h
  | append_singleton l x ih =>
    obtain ⟨m, now⟩ := x
    rw [handle_concat] at h
    rcases List.append_eq_append_iff.mp h with ⟨c, rfl, hc⟩ | ⟨c, hl, hc⟩
    · obtain ⟨rfl, htick, hon, rfl⟩ := turnDeeds_sent hc
      obtain ⟨hour, min, sec, base, hset, hrange, hbase, heq⟩ := setBy_of_on hon
      rw [heq]
      exact shows_display hset hrange (List.mem_append_left _ hbase) (by simp) htick []
    · rcases c with _ | ⟨d, c⟩
      · have hfirst : (handle l).1.turnDeeds now m = [] ++ .sent call :: d₂ := hc.symm
        cases (turnDeeds_sent hfirst).1
      · obtain ⟨rfl, -⟩ := List.cons.inj hc
        exact (ih hl).concat

lemma Shows.mono {msg : Memory} (h : Shows l d₁ msg) (hsub : d₁ ⊆ deeds) : Shows l deeds msg := by
  obtain ⟨l₁, m, now, l₂, hour, min, sec, base, t, hl, htick, hset, hbase, hnow, h⟩ := h
  exact ⟨l₁, m, now, l₂, hour, min, sec, base, t, hl, htick, hset, hsub hbase, hsub hnow, h⟩

/-- What the clock has sent to the CRT process, wherever its code stands -/
lemma shows_of_prefix (hpre : deeds <+: registrations ++ (handle l).2) (hmem : .sent call ∈ deeds)
    (hcrt : call.processId = crtPid) : Shows l deeds call.message.msg := by
  obtain ⟨d₁, d₂, rfl⟩ := List.append_of_mem hmem
  obtain ⟨t, ht⟩ := hpre
  rw [List.append_assoc, List.cons_append] at ht
  have hnotName : .sent call ∉ registrations := by
    intro hname
    obtain ⟨name, -, heq⟩ := List.mem_map.mp hname
    obtain rfl := Deed.sent.inj heq
    exact absurd hcrt (show kcdPid ≠ crtPid by decide)
  rcases List.append_eq_append_iff.mp ht with ⟨c, hc, hrest⟩ | ⟨c, rfl, hc⟩
  · rcases c with _ | ⟨d, c⟩
    · have hfirst : (handle l).2 = [] ++ .sent call :: (d₂ ++ t) := hrest.symm
      exact (shows_of_sent hfirst).mono (List.nil_subset _)
    · obtain ⟨rfl, -⟩ := List.cons.inj hrest
      exact absurd (hc ▸ List.mem_append_right _ (List.mem_cons_self ..)) hnotName
  · exact (shows_of_sent hc).mono fun x hx => List.mem_append_left _ (List.mem_append_right _ hx)

end Shown

end Wallclock

end RtxKernel
