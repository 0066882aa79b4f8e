import RtxKernel.Process.CommandText
import RtxKernel.Process.ScriptMail
import RtxKernel.Process.ScriptRules

/-!
# The priority command in the system

The code of `core/priority_switch.c` and of `ascii_to_int`, with every byte that it reads and writes in an envelope.
What it makes of a command is `priorityCommand` (`PrioritySwitch.wp_code`), as long as it reads no byte behind the
field of the text; and each command that it receives is answered at the CRT process, in the envelope in which it came.
-/

namespace RtxKernel

open Script

namespace PrioritySwitch

/-! ### The code -/

/-- The loop of `ascii_to_int` from the index `i` on, for at most `n` turns -/
def readIntFrom (cmd : Nat) : Nat → Nat → Int32 → Script Int32
  | 0, _, _ => fail
  | n + 1, i, value => do
    let c ← loadMsg cmd i
    if c = 0 then return value else
      let c ← loadMsg cmd i
      if c < 0x30 then return -1 else
        let c ← loadMsg cmd i
        if 0x39 < c then return -1 else
          let c ← loadMsg cmd i
          readIntFrom cmd n (i + 1) (value * 10 + Int32.ofNat (c.toNat - 0x30))

/-- `ascii_to_int` -/
def readInt (cmd i : Nat) : Script Int32 := do
  let c ← loadMsg cmd i
  if c = 0 then return -1 else readIntFrom cmd addressSpace i 0

/-- The loop that puts a null at the first space behind the index `i`, for at most `n` turns -/
def cutAtSpace (cmd : Nat) : Nat → Nat → Script Nat
  | 0, _ => fail
  | n + 1, i => do
    let c ← loadMsg cmd i
    if c = 0 then return i else
      let c ← loadMsg cmd i
      if c = 0x20 then
        storeMsg cmd i 0
        return i
      else cutAtSpace cmd n (i + 1)

/-- `cmd->msg[0] != '%' || cmd->msg[1] != 'C' || cmd->msg[2] != ' '` -/
def testPrefix (cmd : Nat) : Script Bool := do
  let c ← loadMsg cmd 0
  if c ≠ 0x25 then return true else
    let c ← loadMsg cmd 1
    if c ≠ 0x43 then return true else
      let c ← loadMsg cmd 2
      return c ≠ 0x20

/-- The answer is written over the command, whose envelope goes on to the CRT process. -/
def reply (cmd : Nat) (text : String) : Script Unit := do
  storeText (msgField cmd) (bytes text)
  let _ ← send crtPid cmd

/-- `priority_switch_command_handler`, with a message that it has received -/
def code (cmd : Nat) : Script Unit := do
  let invalid ← testPrefix cmd
  if invalid then reply cmd "Command was invalid\n\r"
  else
    let i ← cutAtSpace cmd addressSpace 3
    let pid ← readInt cmd 3
    let priority ← readInt cmd (i + 1)
    if pid = -1 then reply cmd "PID was invalid\n\r"
    else if priority = -1 then reply cmd "Priority was invalid\n\r"
    else
      let success ← setPriority pid priority
      if success ≠ 0 then reply cmd "Cannot change that process to that priority\n\r"
      else reply cmd "Priority change successful\n\r"

/-- `%C` -/
def name : List UInt8 := [0x25, 0x43]

/-- The handler as a process -/
def process : Process Unit where
  pid := prioritySwitchPid
  start := register name
  turn _ cmd := code cmd

/-! ### What a turn does -/

/-- The answer to the command `m`, in its own envelope -/
def answer (m : IoMessage) (v : Verdict) (m₁ : Memory) (success : UInt32) : Send :=
  ⟨crtPid, { m with msg := v.write success m₁ 0 }⟩

/-- The call of `set_process_priority`, which has returned `success` -/
def change (success : UInt32) : Verdict → List Deed
  | .setPriority pid priority => [.setPriority pid priority success]
  | _ => []

/-- What is done with the command `m` -/
def Replies (m : IoMessage) (deeds : List Deed) : Prop :=
  ∃ v m₁ success, priorityCommand m.msg 0 = some (v, m₁) ∧ deeds = change success v ++ [.sent (answer m v m₁ success)]

/-- The handler has registered its command and has replied to the messages `ms`. -/
def Replied (ms : List IoMessage) (_ : Unit) (deeds : List Deed) : Prop :=
  ∃ l, List.Forall₂ Replies ms l ∧ deeds = .sent (registration name) :: l.flatten

/-- The command is read in its field, which ends with a null. -/
structure InEnvelope (m : IoMessage) : Prop where
  reads : InField 0 (priorityReads m.msg 0)
  null : m.msg 63 = 0

/-! ### The parts of a turn -/

section Parts

variable {allowed : Deed → Prop} {v : View} {e i j n : Nat} {m : IoMessage} {value r : Int32} {m₁ : Memory}
  {verdict : Verdict} {success : UInt32} {U : Unit → View → Prop} {D : Int32 → View → Prop}

lemma wp_readIntFrom (h : v.Has e m)
    (hin : ∀ x ∈ reads (fun c => c = 0 ∨ c < 0x30 ∨ 0x39 < c) m.msg n i, x < msgSize)
    (hr : asciiToIntFrom m.msg n i value = some r) (hD : D r v) :
    (readIntFrom e n i value).wp (contract allowed) D v := by
  induction n generalizing i value with
  | zero => cases hr
  | succ n ih =>
    rw [reads, List.forall_mem_cons] at hin
    rw [asciiToIntFrom] at hr
    obtain ⟨hi, hin⟩ := hin
    rw [readIntFrom, Program.wp_bind]
    refine h.loadMsg hi ?_
    by_cases hz : m.msg i = 0
    · rw [if_pos hz] at hr ⊢
      obtain rfl := Option.some.inj hr
      exact hD
    rw [if_neg hz] at hr ⊢
    rw [Program.wp_bind]
    refine h.loadMsg hi ?_
    by_cases hlow : m.msg i < 0x30
    · rw [if_pos (.inl hlow)] at hr
      obtain rfl := Option.some.inj hr
      rw [if_pos hlow]
      exact hD
    rw [if_neg hlow, Program.wp_bind]
    refine h.loadMsg hi ?_
    by_cases hhigh : 0x39 < m.msg i
    · rw [if_pos (.inr hhigh)] at hr
      obtain rfl := Option.some.inj hr
      rw [if_pos hhigh]
      exact hD
    have hdigit : ¬ (m.msg i < 0x30 ∨ 0x39 < m.msg i) := not_or.mpr ⟨hlow, hhigh⟩
    rw [if_neg (not_or.mpr ⟨hz, hdigit⟩)] at hin
    rw [if_neg hdigit] at hr
    rw [if_neg hhigh, Program.wp_bind]
    refine h.loadMsg hi ?_
    exact ih hin hr

lemma wp_readInt (h : v.Has e m) (hin : InField 0 (asciiReads m.msg i)) (hr : asciiToInt m.msg i = some r)
    (hD : D r v) : (readInt e i).wp (contract allowed) D v := by
  have hin' : ∀ x ∈ asciiReads m.msg i, x < msgSize := fun x hx => Nat.zero_add msgSize ▸ hin x hx
  rw [asciiToInt] at hr
  rw [readInt, Program.wp_bind]
  refine h.loadMsg (hin' i (start_mem_reads (by decide))) ?_
  by_cases hz : m.msg i = 0
  · rw [if_pos hz] at hr ⊢
    obtain rfl := Option.some.inj hr
    exact hD
  · rw [if_neg hz] at hr ⊢
    exact wp_readIntFrom h hin' hr hD

lemma wp_cutAtSpace {Q : Nat → View → Prop} (h : v.Has e m)
    (hin : ∀ x ∈ reads (fun c => c = 0 ∨ c = 0x20) m.msg n i, x < msgSize)
    (hs : splitAtSpace m.msg 0 n i = some (j, m₁))
    (hQ : ∀ w, w.Has e { m with msg := m₁ } → w.deeds = v.deeds → Q j w) :
    (cutAtSpace e n i).wp (contract allowed) Q v := by
  induction n generalizing i with
  | zero => cases hs
  | succ n ih =>
    rw [reads, List.forall_mem_cons] at hin
    rw [splitAtSpace, Nat.zero_add] at hs
    obtain ⟨hi, hin⟩ := hin
    rw [cutAtSpace, Program.wp_bind]
    refine h.loadMsg hi ?_
    by_cases hz : m.msg i = 0
    · rw [if_pos hz] at hs ⊢
      obtain ⟨rfl, rfl⟩ := Prod.mk.inj (Option.some.inj hs)
      exact hQ v h rfl
    rw [if_neg hz] at hs ⊢
    rw [Program.wp_bind]
    refine h.loadMsg hi ?_
    by_cases hsp : m.msg i = 0x20
    · rw [if_pos hsp] at hs ⊢
      obtain ⟨rfl, rfl⟩ := Prod.mk.inj (Option.some.inj hs)
      rw [Program.wp_bind]
      refine h.storeMsg hi ?_
      intro w hw
      exact hQ w hw.has hw.deeds
    · rw [if_neg hsp] at hs ⊢
      rw [if_neg (not_or.mpr ⟨hz, hsp⟩)] at hin
      exact ih hin hs

lemma wp_testPrefix {Q : Bool → View → Prop} (h : v.Has e m)
    (hQ : ∀ b, (b = true ↔ m.msg 0 ≠ 0x25 ∨ m.msg (0 + 1) ≠ 0x43 ∨ m.msg (0 + 2) ≠ 0x20) → Q b v) :
    (testPrefix e).wp (contract allowed) Q v := by
  rw [testPrefix, Program.wp_bind]
  refine h.loadMsg (by decide) ?_
  by_cases h₀ : m.msg 0 ≠ 0x25
  · rw [if_pos h₀]
    exact hQ true (by simp [h₀])
  rw [if_neg h₀, Program.wp_bind]
  refine h.loadMsg (by decide) ?_
  by_cases h₁ : m.msg 1 ≠ 0x43
  · rw [if_pos h₁]
    exact hQ true (by simp [h₁])
  rw [if_neg h₁, Program.wp_bind]
  refine h.loadMsg (by decide) ?_
  rw [not_not] at h₀ h₁
  exact hQ _ (by simp [h₀, h₁])

/-- The answer goes out. -/
lemma wp_reply (m : IoMessage) (m₁ : Memory) (verdict : Verdict) (success : UInt32) {text : String}
    (h : v.Has e { m with msg := m₁ }) (htext : text = verdict.answer success)
    (hall : allowed (.sent (answer m verdict m₁ success)))
    (hU : ∀ w, w.deeds = v.deeds ++ [.sent (answer m verdict m₁ success)] → U () w) :
    (reply e text).wp (contract allowed) U v := by
  subst htext
  simp only [reply, Program.wp_bind]
  refine h.setText (Nat.le_of_lt (verdict.answer_length success)) ?_
  intro v₁ h₁
  refine wp_send h₁.has hall ?_
  intro code v₂ h₂
  refine hU v₂ ?_
  rw [h₂.deeds, h₁.deeds]
  rfl

/-- A turn of the code does what the command says. -/
theorem wp_code (h : v.Has e m) (hin : InField 0 (priorityReads m.msg 0))
    (hp : priorityCommand m.msg 0 = some (verdict, m₁))
    (hall : ∀ success, allowed (.sent (answer m verdict m₁ success)))
    (hU : ∀ success w,
      w.deeds = v.deeds ++ (change success verdict ++ [.sent (answer m verdict m₁ success)]) → U () w) :
    (code e).wp (contract allowed) U v := by
  rw [code, Program.wp_bind]
  refine wp_testPrefix h ?_
  intro b hb
  rw [priorityCommand] at hp
  by_cases hpre : m.msg 0 ≠ 0x25 ∨ m.msg (0 + 1) ≠ 0x43 ∨ m.msg (0 + 2) ≠ 0x20
  · rw [if_pos hpre] at hp
    obtain ⟨rfl, rfl⟩ := Prod.mk.inj (Option.some.inj hp)
    rw [if_pos (hb.mpr hpre)]
    apply wp_reply m m.msg .invalidCommand 0
    · exact h
    · rfl
    · exact hall 0
    · intro w hw
      exact hU 0 w (by simp [hw, change])
  rw [if_neg hpre] at hp
  obtain ⟨⟨i, m₂⟩, hs, hp⟩ := Option.bind_eq_some_iff.mp hp
  obtain ⟨pid, hpid, hp⟩ := Option.bind_eq_some_iff.mp hp
  obtain ⟨priority, hpriority, hp⟩ := Option.bind_eq_some_iff.mp hp
  obtain ⟨rfl, rfl⟩ := Prod.mk.inj (Option.some.inj hp)
  rw [priorityReads_of_eq hpre hs] at hin
  have hleft : ∀ x ∈ [0, 0 + 1, 0 + 2] ++ splitReads m.msg (0 + 3), x < msgSize :=
    fun x hx => Nat.zero_add msgSize ▸ hin x (List.mem_append_left _ hx)
  have hfirst : InField 0 (asciiReads m₂ 3) :=
    fun x hx => hin x (List.mem_append_right _ (List.mem_append_left _ hx))
  have hsecond : InField 0 (asciiReads m₂ (0 + (i + 1))) :=
    fun x hx => hin x (List.mem_append_right _ (List.mem_append_right _ hx))
  rw [Nat.zero_add] at hsecond hpriority hpid
  rw [if_neg fun ht => hpre (hb.mp ht), Program.wp_bind]
  refine wp_cutAtSpace h (fun x hx => hleft x (List.mem_append_right _ hx)) hs ?_
  intro v₁ h₁ hdeeds₁
  rw [Program.wp_bind]
  refine wp_readInt h₁ hfirst hpid ?_
  rw [Program.wp_bind]
  refine wp_readInt h₁ hsecond hpriority ?_
  rw [judge] at hall hU
  by_cases hx : pid = -1
  · rw [if_pos hx] at hall hU ⊢
    apply wp_reply m m₂ .invalidPid 0
    · exact h₁
    · rfl
    · exact hall 0
    · intro w hw
      exact hU 0 w (by simp [hw, hdeeds₁, change])
  rw [if_neg hx] at hall hU ⊢
  by_cases hy : priority = -1
  · rw [if_pos hy] at hall hU ⊢
    apply wp_reply m m₂ .invalidPriority 0
    · exact h₁
    · rfl
    · exact hall 0
    · intro w hw
      exact hU 0 w (by simp [hw, hdeeds₁, change])
  rw [if_neg hy] at hall hU ⊢
  rw [Program.wp_bind]
  refine wp_setPriority ?_
  intro success
  have hend : ∀ w : View, w.deeds = (v₁.note [.setPriority pid priority success]).deeds ++
      [.sent (answer m (.setPriority pid priority) m₂ success)] → U () w := by
    intro w hw
    refine hU success w ?_
    rw [hw, View.note, hdeeds₁, List.append_assoc]
    rfl
  by_cases hz : success ≠ 0
  · rw [if_pos hz]
    apply wp_reply m m₂ (.setPriority pid priority) success
    · exact ⟨h₁.held, h₁.message⟩
    · exact (if_pos hz).symm
    · exact hall success
    · exact hend
  · rw [if_neg hz]
    apply wp_reply m m₂ (.setPriority pid priority) success
    · exact ⟨h₁.held, h₁.message⟩
    · exact (if_neg hz).symm
    · exact hall success
    · exact hend

end Parts

/-! ### The handler as a process -/

section Process

variable {allowed : Deed → Prop} {mem : Memory} {i n : Nat} {value : Int32} {m : IoMessage} {v : Verdict} {m₁ : Memory}

lemma splitAtSpace_isSome (h : ∃ x, i ≤ x ∧ x < i + n ∧ (mem x = 0 ∨ mem x = 0x20)) :
    ∃ y, splitAtSpace mem 0 n i = some y := by
  induction n generalizing i with
  | zero =>
    obtain ⟨x, hx, hx', -⟩ := h
    omega
  | succ n ih =>
    rw [splitAtSpace, Nat.zero_add]
    split_ifs with hz hsp
    · exact ⟨_, rfl⟩
    · exact ⟨_, rfl⟩
    · obtain ⟨x, hx, hx', hstop⟩ := h
      have hne : x ≠ i := by
        rintro rfl
        exact hstop.elim hz hsp
      exact ih ⟨x, by omega, by omega, hstop⟩

lemma asciiToIntFrom_isSome (h : ∃ x, i ≤ x ∧ x < i + n ∧ (mem x = 0 ∨ mem x < 0x30 ∨ 0x39 < mem x)) :
    ∃ r, asciiToIntFrom mem n i value = some r := by
  induction n generalizing i value with
  | zero =>
    obtain ⟨x, hx, hx', -⟩ := h
    omega
  | succ n ih =>
    rw [asciiToIntFrom]
    split_ifs with hz hd
    · exact ⟨_, rfl⟩
    · exact ⟨_, rfl⟩
    · obtain ⟨x, hx, hx', hstop⟩ := h
      have hne : x ≠ i := by
        rintro rfl
        exact hstop.elim hz hd
      exact ih ⟨x, by omega, by omega, hstop⟩

lemma asciiToInt_isSome (hin : InField 0 (asciiReads mem i)) : ∃ r, asciiToInt mem i = some r := by
  obtain ⟨x, hx, hx', hstop⟩ := (inField_reads_iff (Nat.zero_le i)).mp hin
  have hsize : 0 + msgSize < addressSpace := by decide
  rw [asciiToInt]
  split_ifs
  · exact ⟨_, rfl⟩
  · exact asciiToIntFrom_isSome ⟨x, hx, by omega, hstop⟩

/-- A command that is read in its field is read to its end. -/
lemma priorityCommand_isSome (hin : InField 0 (priorityReads mem 0)) : ∃ y, priorityCommand mem 0 = some y := by
  rw [priorityCommand]
  by_cases hpre : mem 0 ≠ 0x25 ∨ mem (0 + 1) ≠ 0x43 ∨ mem (0 + 2) ≠ 0x20
  · exact ⟨_, if_pos hpre⟩
  · rw [if_neg hpre]
    have hsplit : InField 0 (splitReads mem (0 + 3)) := by
      intro x hx
      apply hin
      rw [not_or, not_or] at hpre
      rw [priorityReads, if_neg hpre.1, if_neg hpre.2.1, if_neg hpre.2.2]
      exact List.mem_append_left _ (List.mem_append_right _ hx)
    obtain ⟨x, hx, hx', hstop⟩ := (inField_reads_iff (Nat.zero_le _)).mp hsplit
    have hsize : 0 + msgSize < addressSpace := by decide
    obtain ⟨⟨i, m₂⟩, hs⟩ := @splitAtSpace_isSome mem 3 addressSpace ⟨x, hx, by omega, hstop⟩
    rw [priorityReads_of_eq hpre hs] at hin
    have hfirst : InField 0 (asciiReads m₂ (0 + 3)) :=
      fun x hx => hin x (List.mem_append_right _ (List.mem_append_left _ hx))
    have hsecond : InField 0 (asciiReads m₂ (0 + (i + 1))) :=
      fun x hx => hin x (List.mem_append_right _ (List.mem_append_right _ hx))
    obtain ⟨pid, hpid⟩ := asciiToInt_isSome hfirst
    obtain ⟨priority, hpriority⟩ := asciiToInt_isSome hsecond
    rw [hs, Option.bind_eq_bind, Option.bind_some]
    dsimp only
    rw [hpid, Option.bind_eq_bind, Option.bind_some, hpriority]
    exact ⟨_, rfl⟩

/-- The answer ends in its field. -/
lemma ends_answer (h : InEnvelope m) (hp : priorityCommand m.msg 0 = some (v, m₁)) (success : UInt32) :
    Ends (answer m v m₁ success).message.msg 0 msgSize := by
  have hlen := v.answer_length success
  refine ⟨63, by decide, ?_⟩
  have hback : strCopy m₁ (bytes (v.answer success)) 0 (0 + 63) = m₁ 63 :=
    strCopy_of_ge (by rw [msgSize] at hlen; omega)
  exact hback.trans (priorityCommand_zero hp h.null)

theorem correct (hname : allowed (.sent (registration name)))
    (hall : ∀ call, call.processId = crtPid → Ends call.message.msg 0 msgSize → allowed (.sent call)) :
    process.Correct allowed (fun _ m => InEnvelope m) Replied where
  start := by
    intro v _ hdeeds
    refine wp_register (by decide) hname ?_
    intro w hw
    have hnow : w.deeds = [.sent (registration name)] := by
      rw [hw, hdeeds]
      rfl
    exact ⟨[], .nil, hnow⟩
  turn := by
    rintro ms m q e v ⟨l, hl, hdeeds⟩ hm he hmsg
    obtain ⟨⟨verdict, m₁⟩, hp⟩ := priorityCommand_isSome hm.reads
    refine wp_code ⟨he, hmsg⟩ hm.reads hp (fun success => hall _ rfl (ends_answer hm hp success)) ?_
    intro success w hw
    refine ⟨l ++ [change success verdict ++ [.sent (answer m verdict m₁ success)]], ?_, ?_⟩
    · exact List.rel_append hl (.cons ⟨verdict, m₁, success, hp, rfl⟩ .nil)
    · rw [hw, hdeeds, List.flatten_append, List.flatten_singleton]
      rfl

end Process

end PrioritySwitch

end RtxKernel
