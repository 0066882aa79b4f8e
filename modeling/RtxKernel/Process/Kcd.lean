import RtxKernel.Process.Util
import Mathlib.Data.List.Forall2
import Mathlib.Data.List.GetD

/-!
# The keyboard decoder

The process of `io/kcd.c`. It takes registrations of commands and single characters, passes every character
on to the CRT process, collects the characters behind a `%`, and at a return sends the line to the process
that has registered its first word.

`Console` is what the decoder is for: the line typed so far, of any length, and the commands in the order of
their registration. The decoder with its buffer of 64 bytes follows it (`kcdTurn_tracks`).
-/

namespace RtxKernel

/-- `KCD_BUFFER_SIZE` -/
def kcdBufferSize : Nat := 64

/-- `struct reg_cmd`, a member of the list -/
structure RegCmd where
  pid : UInt32
  cmd : Memory

/-- The variables of the decoder; `cmds` is the list from `cmd_head` on. -/
structure Kcd where
  kcdBuffer : Memory
  kbufSize : Nat
  cmds : List RegCmd

/-- `reset_kcd_buffer` -/
def resetKcdBuffer (buffer : Memory) : Memory := fill buffer 0 kcdBufferSize 0

namespace Kcd

/-- `register_command` -/
def registerCommand (s : Kcd) (cmdStr : Memory) (pid : UInt32) : Option Kcd := do
  if cmdStr 0 ≠ 0x25 then return s
  let cmd ← strCopyLoop cmdStr addressSpace 0 fun _ => 0
  return { s with cmds := s.cmds ++ [⟨pid, cmd⟩] }

/-- The loop that compares the line with the registered commands, from the index `i` on, for at most `n`
turns at the first of them. -/
def findCommand (buffer : Memory) : Nat → Nat → List RegCmd → Option (Option RegCmd)
  | _, _, [] => some none
  | 0, _, _ :: _ => none
  | n + 1, i, current :: next =>
    if (buffer i = 0x20 ∨ buffer i = 0) ∧ current.cmd i = 0 then some (some current)
    else if buffer i = current.cmd i then findCommand buffer n (i + 1) (current :: next)
    else findCommand buffer addressSpace 1 next
  termination_by n _ cmds => (cmds.length, n)

/-- The message for the process that has registered the command. -/
def commandFor (buffer : Memory) : Option RegCmd → Option (List Send)
  | none => some []
  | some current => do
    let msg ← strCopyLoop buffer addressSpace 0 IoMessage.blank.msg
    return [⟨current.pid, { IoMessage.blank with tx := kcdPid, rx := current.pid, msg := msg }⟩]

/-- What is sent to the CRT process for the message of a character. -/
def forward (m : IoMessage) : Send :=
  ⟨crtPid, { m with
    tx := kcdPid
    rx := crtPid
    msg := if m.msg 0 = 0x0d then Function.update m.msg 1 0x0a else m.msg }⟩

/-- `"\f"`, which clears the screen -/
def clearScreen : Send :=
  ⟨crtPid, { IoMessage.blank with
    tx := kcdPid
    rx := crtPid
    msg := strCopy IoMessage.blank.msg [0x0c] 0 }⟩

/-- One turn of `kcd`, with the message that it has received. -/
def turn (s : Kcd) (m : IoMessage) : Option (Kcd × List Send) := do
  if m.type = typeRegisterCmd then return (← s.registerCommand m.msg m.tx, [])
  if m.msg 1 = 0x63 ∧ m.msg 2 = 0x6c ∧ m.msg 3 = 0x72 then return (s, [clearScreen])
  if m.msg 0 = 0x25 then
    let buffer := Function.update (resetKcdBuffer s.kcdBuffer) 0 (m.msg 0)
    return ({ s with kcdBuffer := buffer, kbufSize := 1 }, [forward m])
  if m.msg 0 = 0x0d then
    if s.kcdBuffer 0 ≠ 0x25 then return (s, [forward m])
    let current ← findCommand s.kcdBuffer addressSpace 1 s.cmds
    let commands ← commandFor s.kcdBuffer current
    return ({ s with kcdBuffer := resetKcdBuffer s.kcdBuffer, kbufSize := 0 }, forward m :: commands)
  if kcdBufferSize ≤ s.kbufSize then return (s, [forward m])
  if s.kcdBuffer 0 = 0x25 then
    let buffer := Function.update s.kcdBuffer s.kbufSize (m.msg 0)
    return ({ s with kcdBuffer := buffer, kbufSize := s.kbufSize + 1 }, [forward m])
  return (s, [forward m])

/-- The turns of `kcd` for messages that it receives one after the other, and what it sends in each. -/
def run (s : Kcd) : List IoMessage → Option (Kcd × List (List Send))
  | [] => some (s, [])
  | m :: ms => do
    let (s, out) ← s.turn m
    let (s, outs) ← run s ms
    return (s, out :: outs)

/-- `"%clr"` -/
def clr : List UInt8 := [0x25, 0x63, 0x6c, 0x72]

/-- The decoder at its first turn: the buffer is zeroed, what stands behind it is arbitrary, and `%clr` is
registered. -/
def start (behind : Memory) : Kcd where
  kcdBuffer := fill behind 0 kcdBufferSize 0
  kbufSize := 0
  cmds := [⟨kcdPid, strCopy (fun _ => 0) clr 0⟩]

end Kcd

/-! ### The console -/

/-- The first word of a line -/
def commandWord (line : List UInt8) : List UInt8 := line.takeWhile fun c => c ≠ 0x20

/-- What the decoder takes in. -/
inductive Input
  | register (name : List UInt8) (pid : UInt32)
  | ignored
  | key (c : UInt8)
  | clear

/-- The line since the last `%`, if there is one since the last return, and the registered commands. -/
structure Console where
  line : Option (List UInt8)
  commands : List (List UInt8 × UInt32)

namespace Console

def start : Console := ⟨none, [(Kcd.clr, kcdPid)]⟩

/-- The line after one more character. -/
def typed (line : Option (List UInt8)) (c : UInt8) : Option (List UInt8) :=
  if c = 0x25 then some [c] else if c = 0x0d then none else line.map fun l => l ++ [c]

def next (d : Console) : Input → Console
  | .register name pid => { d with commands := d.commands ++ [(name, pid)] }
  | .key c => { d with line := typed d.line c }
  | _ => d

/-- The process that was the first to register the first word of the line. -/
def target (d : Console) (line : List UInt8) : Option UInt32 :=
  (d.commands.find? fun r => r.1 = commandWord line).map Prod.snd

end Console

/-- The message `m` is the input `x`. -/
inductive Carries (m : IoMessage) : Input → Prop
  | register (w : List UInt8) : m.type = typeRegisterCmd → StringAt m.msg 0 (0x25 :: w) →
      w.length < 63 → (0x20 : UInt8) ∉ w → Carries m (.register (0x25 :: w) m.tx)
  | ignored : m.type = typeRegisterCmd → m.msg 0 ≠ 0x25 → Carries m .ignored
  | key : m.type ≠ typeRegisterCmd → (∀ i, 0 < i → i < 64 → m.msg i = 0) → Carries m (.key (m.msg 0))
  | clear (line : List UInt8) : m.type ≠ typeRegisterCmd → StringAt m.msg 0 line →
      commandWord line = Kcd.clr → Carries m .clear

/-- The call sends the text `t` to the process `pid`. -/
structure Sends (call : Send) (pid : UInt32) (t : List UInt8) : Prop where
  processId : call.processId = pid
  text : StringAt call.message.msg 0 t

/-- What the screen is to show for a character. -/
def echo (c : UInt8) : List UInt8 :=
  if c = 0 then [] else if c = 0x0d then [c, 0x0a] else [c]

/-- A line that fits into the buffer, with its null. -/
def Fits (line : List UInt8) : Prop := line.length ≤ 63 ∧ (0 : UInt8) ∉ line

/-- The command messages for a line. -/
structure Commands (d : Console) (line : List UInt8) (calls : List Send) : Prop where
  none : d.target line = .none → calls = []
  some : ∀ pid, d.target line = .some pid → ∃ call, calls = [call] ∧ Sends call pid line ∧
    (commandWord line = Kcd.clr → Carries call.message .clear)

/-- What the decoder sends for an input: a character to the CRT process, and behind a return the command. -/
def Answers (d : Console) : Input → List Send → Prop
  | .register _ _, out => out = []
  | .ignored, out => out = []
  | .clear, out => ∃ call, out = [call] ∧ Sends call crtPid [0x0c]
  | .key c, out => ∃ call commands, out = call :: commands ∧ Sends call crtPid (echo c) ∧
      (c ≠ 0x0d ∨ d.line = none → commands = []) ∧
      ∀ line, c = 0x0d → d.line = some line → Fits line → Commands d line commands

/-- The answers to inputs that come one after the other. -/
inductive Answered : Console → List Input → List (List Send) → Prop
  | nil {d : Console} : Answered d [] []
  | cons {d : Console} {x : Input} {xs : List Input} {out : List Send} {outs : List (List Send)} :
      Answers d x out → Answered (d.next x) xs outs → Answered d (x :: xs) (out :: outs)

/-- At a return the line fits into the buffer. -/
def Console.Ready (d : Console) : Input → Prop
  | .key c => ∀ line, c = 0x0d → d.line = some line → Fits line
  | _ => True

def Console.AllReady : Console → List Input → Prop
  | _, [] => True
  | d, x :: xs => d.Ready x ∧ (d.next x).AllReady xs

/-! ### Comparing a line with the commands -/

section Find

variable {buffer : Memory} {n i : Nat} {l w line : List UInt8} {current : RegCmd} {next : List RegCmd}
variable {d : Console} {r : RegCmd} {name : List UInt8 × UInt32}

/-- The record of a registered command -/
inductive Stored : RegCmd → List UInt8 × UInt32 → Prop
  | mk (pid : UInt32) (cmd : Memory) (w : List UInt8) : StringAt cmd 0 (0x25 :: w) → w.length < 63 →
      (0x20 : UInt8) ∉ w → Stored ⟨pid, cmd⟩ (0x25 :: w, pid)

lemma commandWord_cons_eq_iff {c e : UInt8} (he : e ≠ 0x20) :
    commandWord (c :: l) = e :: w ↔ c = e ∧ commandWord l = w := by
  rw [commandWord, commandWord]
  by_cases hc : c = 0x20
  · subst hc
    constructor
    · intro h
      exact absurd h (by simp)
    · intro h
      exact absurd h.1.symm he
  · rw [List.takeWhile_cons_of_pos (by simpa using hc), List.cons.injEq]

/-- The comparison with one command, when the line and the command agree before the index `i`. -/
lemma findCommand_cons (hl : StringAt buffer i l) (hw : StringAt current.cmd i w)
    (hsp : (0x20 : UInt8) ∉ w) (hn : w.length < n) :
    Kcd.findCommand buffer n i (current :: next) =
      if commandWord l = w then some (some current)
      else Kcd.findCommand buffer addressSpace 1 next := by
  induction w generalizing i l n with
  | nil =>
    obtain ⟨n, rfl⟩ : ∃ k, n = k + 1 := Nat.exists_eq_add_one_of_ne_zero (Nat.ne_of_gt hn)
    rw [Kcd.findCommand, StringAt.nil_iff.mp hw]
    cases l with
    | nil =>
      rw [StringAt.nil_iff.mp hl, if_pos ⟨.inr rfl, rfl⟩]
      rfl
    | cons c l =>
      obtain ⟨hc, hne, -⟩ := hl
      rw [hc]
      by_cases hspace : c = 0x20
      · rw [if_pos ⟨.inl hspace, rfl⟩, hspace]
        rfl
      · have hword : commandWord (c :: l) ≠ [] := by
          rw [commandWord, List.takeWhile_cons_of_pos (by simpa using hspace)]
          exact List.cons_ne_nil _ _
        rw [if_neg, if_neg hne, if_neg hword]
        rintro ⟨h | h, -⟩
        · exact hspace h
        · exact hne h
  | cons e w ih =>
    obtain ⟨n, rfl⟩ : ∃ k, n = k + 1 := Nat.exists_eq_add_one_of_ne_zero (by omega)
    obtain ⟨he, hne, hrest⟩ := hw
    rw [List.mem_cons, not_or] at hsp
    rw [Kcd.findCommand, he, if_neg fun h => hne h.2]
    cases l with
    | nil =>
      rw [StringAt.nil_iff.mp hl, if_neg (Ne.symm hne), if_neg]
      exact (List.cons_ne_nil e w).symm
    | cons c l =>
      obtain ⟨hc, -, hlrest⟩ := hl
      rw [hc]
      by_cases hce : c = e
      · rw [if_pos hce, ih hlrest hrest hsp.2 (Nat.lt_of_succ_lt_succ hn)]
        by_cases hword : commandWord l = w
        · rw [if_pos hword, if_pos ((commandWord_cons_eq_iff (Ne.symm hsp.1)).mpr ⟨hce, hword⟩)]
        · rw [if_neg hword, if_neg]
          intro h
          exact hword ((commandWord_cons_eq_iff (Ne.symm hsp.1)).mp h).2
      · rw [if_neg hce, if_neg]
        intro h
        exact hce ((commandWord_cons_eq_iff (Ne.symm hsp.1)).mp h).1

/-- The loop ends, at the first command that is the first word of the line. -/
theorem findCommand_eq {cmds : List RegCmd} {names : List (List UInt8 × UInt32)}
    (hline : StringAt buffer 0 (0x25 :: l)) (h : List.Forall₂ Stored cmds names) :
    ∃ found, Kcd.findCommand buffer addressSpace 1 cmds = some found ∧
      found.map RegCmd.pid = (names.find? fun r => r.1 = commandWord (0x25 :: l)).map Prod.snd := by
  induction h with
  | nil =>
    refine ⟨none, ?_, rfl⟩
    rw [Kcd.findCommand]
  | cons hr _ ih =>
    cases hr with
    | mk pid cmd w hcmd hlen hsp =>
      have hspace : 63 < addressSpace := by decide
      rw [findCommand_cons hline.2.2 hcmd.2.2 hsp (by omega)]
      have hiff := commandWord_cons_eq_iff (c := 0x25) (e := 0x25) (l := l) (w := w) (by decide)
      by_cases hword : commandWord l = w
      · rw [if_pos hword, List.find?_cons_of_pos (by simpa using (hiff.mpr ⟨rfl, hword⟩).symm)]
        exact ⟨_, rfl, rfl⟩
      · rw [if_neg hword, List.find?_cons_of_neg]
        · exact ih
        · intro h
          exact hword (hiff.mp (of_decide_eq_true h).symm).2

end Find

/-! ### The decoder follows the console -/

structure Tracks (s : Kcd) (d : Console) : Prop where
  size_le : s.kbufSize ≤ 64
  zero : ∀ i, s.kbufSize ≤ i → i < 64 → s.kcdBuffer i = 0
  idle : d.line = none → s.kbufSize = 0
  line : ∀ l, d.line = some l → l.head? = some 0x25 ∧ s.kbufSize = min 64 l.length ∧
    ∀ i, i < s.kbufSize → s.kcdBuffer i = l.getD i 0
  commands : List.Forall₂ Stored s.cmds d.commands

section Turn

variable {s s' : Kcd} {d : Console} {m : IoMessage} {x : Input} {out : List Send} {l : List UInt8}
variable {ms : List IoMessage} {xs : List Input} {outs : List (List Send)} {behind : Memory}

lemma clr_stringAt : StringAt (strCopy (fun _ => 0) Kcd.clr 0) 0 Kcd.clr :=
  stringAt_strCopy (by decide) rfl

lemma Tracks.start : Tracks (Kcd.start behind) Console.start where
  size_le := Nat.zero_le 64
  zero := by
    intro i _ hi
    exact fill_self (Nat.zero_le i) (by simpa [kcdBufferSize] using hi)
  idle := fun _ => rfl
  line := by
    intro l hl
    cases hl
  commands := .cons (.mk _ _ _ clr_stringAt (by decide) (by decide)) .nil

/-- The test for a `%` at the start of the buffer. -/
lemma Tracks.head_iff (h : Tracks s d) : s.kcdBuffer 0 = 0x25 ↔ d.line ≠ none := by
  cases hd : d.line with
  | none =>
    rw [h.zero 0 (Nat.le_of_eq (h.idle hd)) (by decide)]
    simp
  | some l =>
    obtain ⟨hhead, hsize, hbuf⟩ := h.line l hd
    cases l with
    | nil => cases hhead
    | cons c l =>
      rw [hbuf 0 (by rw [hsize, List.length_cons]; omega), List.getD_cons_zero]
      simpa using hhead

/-- A line that fits stands in the buffer. -/
lemma Tracks.stringAt (h : Tracks s d) (hl : d.line = some l) (hfits : Fits l) :
    StringAt s.kcdBuffer 0 l := by
  obtain ⟨-, hsize, hbuf⟩ := h.line l hl
  have hlen : s.kbufSize = l.length := by
    have := hfits.1
    omega
  have hcopy : ∀ i, i ≤ l.length → strCopy (fun _ => 0) l 0 i = s.kcdBuffer i := by
    intro i hi
    rw [strCopy, Nat.zero_add]
    split_ifs with hlt
    · rw [hbuf i (by omega), Nat.sub_zero]
    · have := hfits.1
      exact (h.zero i (by omega) (by omega)).symm
  apply (stringAt_strCopy (m := fun _ => 0) (a := 0) hfits.2 rfl).frame
  intro i _ hi
  exact (hcopy i (by omega)).symm

lemma echo_forward (hz : ∀ i, 0 < i → i < 64 → m.msg i = 0) :
    Sends (Kcd.forward m) crtPid (echo (m.msg 0)) where
  processId := rfl
  text := by
    have hone := hz 1 (by decide) (by decide)
    have htwo := hz 2 (by decide) (by decide)
    rw [echo, Kcd.forward]
    by_cases hr : m.msg 0 = 0x0d
    · rw [if_pos hr, if_pos hr, if_neg (by rw [hr]; decide)]
      dsimp only
      refine ⟨?_, ?_, ?_, by decide, ?_⟩
      · exact Function.update_of_ne (show 0 ≠ 1 by decide) _ _
      · rw [hr]
        decide
      · exact Function.update_self _ _ _
      · exact (Function.update_of_ne (show 2 ≠ 1 by decide) _ _).trans htwo
    · rw [if_neg hr, if_neg hr]
      split_ifs with h₀
      · exact h₀
      · exact ⟨rfl, h₀, hone⟩

/-- The command for a line that fits. -/
lemma Tracks.commandFor (h : Tracks s d) (hl : d.line = some l) (hfits : Fits l) :
    ∃ found calls, Kcd.findCommand s.kcdBuffer addressSpace 1 s.cmds = some found ∧
      Kcd.commandFor s.kcdBuffer found = some calls ∧ Commands d l calls := by
  have hstring := h.stringAt hl hfits
  have hhead := (h.line l hl).1
  cases l with
  | nil => cases hhead
  | cons c l =>
    obtain rfl : c = 0x25 := by simpa using hhead
    obtain ⟨found, hfound, hpid⟩ := findCommand_eq hstring h.commands
    cases found with
    | none =>
      refine ⟨none, [], hfound, rfl, fun _ => rfl, ?_⟩
      intro pid htarget
      rw [Console.target, ← hpid] at htarget
      cases htarget
    | some current =>
      have hspace : 63 < addressSpace := by decide
      have hcopy := strCopyLoop_eq (m := IoMessage.blank.msg) hstring
        (Nat.lt_of_le_of_lt hfits.1 hspace)
      have hcalls : Kcd.commandFor s.kcdBuffer (some current) = some
          [⟨current.pid, { IoMessage.blank with
            tx := kcdPid, rx := current.pid, msg := strCopy IoMessage.blank.msg (0x25 :: l) 0 }⟩] := by
        rw [Kcd.commandFor, hcopy]
        rfl
      refine ⟨some current, _, hfound, hcalls, ?_, ?_⟩
      · intro htarget
        rw [Console.target, ← hpid] at htarget
        cases htarget
      · intro pid htarget
        rw [Console.target, ← hpid] at htarget
        have htext := stringAt_strCopy (m := IoMessage.blank.msg) (a := 0) hfits.2 rfl
        refine ⟨_, rfl, ⟨?_, htext⟩, ?_⟩
        · exact Option.some.inj htarget
        · intro hclr
          exact .clear _ (show (0 : UInt32) ≠ 3 by decide) htext hclr

/-- The buffer after a `%` -/
lemma Tracks.restart (h : Tracks s d) : Tracks
    { s with kcdBuffer := Function.update (resetKcdBuffer s.kcdBuffer) 0 0x25, kbufSize := 1 }
    { d with line := some [0x25] } where
  size_le := show 1 ≤ 64 by decide
  zero := by
    intro i hi hlt
    exact (Function.update_of_ne (Nat.ne_of_gt hi) _ _).trans
      (fill_self (Nat.zero_le i) (by simpa [kcdBufferSize] using hlt))
  idle := by
    intro hd
    cases hd
  line := by
    intro l hl
    cases hl
    refine ⟨rfl, rfl, ?_⟩
    intro i hi
    obtain rfl : i = 0 := Nat.lt_one_iff.mp hi
    dsimp only
    rw [Function.update_self, List.getD_cons_zero]
  commands := h.commands

/-- The buffer after a return -/
lemma Tracks.flush (h : Tracks s d) : Tracks
    { s with kcdBuffer := resetKcdBuffer s.kcdBuffer, kbufSize := 0 } { d with line := none } where
  size_le := Nat.zero_le 64
  zero := by
    intro i _ hlt
    exact fill_self (Nat.zero_le i) (by simpa [kcdBufferSize] using hlt)
  idle := fun _ => rfl
  line := by
    intro l hl
    cases hl
  commands := h.commands

lemma Tracks.noLine (h : Tracks s d) (hd : d.line = none) : Tracks s { d with line := none } := by
  rw [← hd]
  exact h

/-- A character that does not fit any more -/
lemma Tracks.full {c : UInt8} (h : Tracks s d) (hl : d.line = some l) (hsize : 64 ≤ s.kbufSize) :
    Tracks s { d with line := some (l ++ [c]) } where
  size_le := h.size_le
  zero := h.zero
  idle := by
    intro hd
    cases hd
  line := by
    intro l' hl'
    cases hl'
    obtain ⟨hhead, hlen, hbuf⟩ := h.line l hl
    refine ⟨?_, ?_, ?_⟩
    · rw [List.head?_append, hhead]
      rfl
    · rw [List.length_append]
      omega
    · intro i hi
      rw [hbuf i hi, List.getD_append _ _ _ _ (by omega)]
  commands := h.commands

/-- A character that is stored -/
lemma Tracks.push {c : UInt8} (h : Tracks s d) (hl : d.line = some l) (hsize : s.kbufSize < 64) :
    Tracks { s with kcdBuffer := Function.update s.kcdBuffer s.kbufSize c, kbufSize := s.kbufSize + 1 }
      { d with line := some (l ++ [c]) } where
  size_le := hsize
  zero := by
    intro i hi hlt
    dsimp only at hi ⊢
    rw [Function.update_of_ne (Nat.ne_of_gt hi)]
    exact h.zero i (Nat.le_of_succ_le hi) hlt
  idle := by
    intro hd
    cases hd
  line := by
    intro l' hl'
    cases hl'
    obtain ⟨hhead, hlen, hbuf⟩ := h.line l hl
    have hsizel : s.kbufSize = l.length := by omega
    dsimp only
    refine ⟨?_, ?_, ?_⟩
    · rw [List.head?_append, hhead]
      rfl
    · rw [List.length_append, List.length_singleton, hsizel]
      omega
    · intro i hi
      rcases Nat.lt_succ_iff_lt_or_eq.mp hi with hi | rfl
      · rw [Function.update_of_ne (Nat.ne_of_lt hi), hbuf i hi, List.getD_append _ _ _ _ (by omega)]
      · rw [Function.update_self, hsizel, List.getD_append_right _ _ _ _ (Nat.le_refl _), Nat.sub_self]
        rfl
  commands := h.commands

/-- A registration -/
lemma Tracks.register {name : List UInt8 × UInt32} {r : RegCmd} (h : Tracks s d) (hr : Stored r name) :
    Tracks { s with cmds := s.cmds ++ [r] } { d with commands := d.commands ++ [name] } where
  size_le := h.size_le
  zero := h.zero
  idle := h.idle
  line := h.line
  commands := List.rel_append h.commands (.cons hr .nil)

/-- The message of a character is no command message for `%clr`. -/
lemma not_clear (hz : ∀ i, 0 < i → i < 64 → m.msg i = 0) :
    ¬ (m.msg 1 = 0x63 ∧ m.msg 2 = 0x6c ∧ m.msg 3 = 0x72) := by
  rintro ⟨h₁, -⟩
  rw [hz 1 (by decide) (by decide)] at h₁
  cases h₁

/-- What a turn for a character does, by cases on the character. -/
lemma Tracks.key (h : Tracks s d) (hs : s.turn m = some (s', out)) (htype : m.type ≠ typeRegisterCmd)
    (hz : ∀ i, 0 < i → i < 64 → m.msg i = 0) :
    Tracks s' (d.next (.key (m.msg 0))) ∧ Answers d (.key (m.msg 0)) out := by
  have hecho := echo_forward hz
  have hquiet : ∀ {k : Kcd}, (m.msg 0 = 0x0d → d.line = none) → Tracks k (d.next (.key (m.msg 0))) →
      (k, [Kcd.forward m]) = (s', out) →
      Tracks s' (d.next (.key (m.msg 0))) ∧ Answers d (.key (m.msg 0)) out := by
    intro k hline hk heq
    cases heq
    refine ⟨hk, _, [], rfl, hecho, fun _ => rfl, ?_⟩
    intro line hr hl
    rw [hline hr] at hl
    cases hl
  rw [Kcd.turn, if_neg htype, if_neg (not_clear hz)] at hs
  rw [Console.next, Console.typed] at hquiet ⊢
  by_cases hp : m.msg 0 = 0x25
  · rw [if_pos hp] at hs hquiet ⊢
    apply hquiet _ _ (Option.some.inj hs)
    · intro hr
      rw [hp] at hr
      cases hr
    · rw [hp]
      exact h.restart
  rw [if_neg hp] at hs hquiet ⊢
  by_cases hr : m.msg 0 = 0x0d
  · rw [if_pos hr] at hs hquiet ⊢
    by_cases hd : d.line = none
    · rw [if_pos fun hb => h.head_iff.mp hb hd] at hs
      exact hquiet (fun _ => hd) (h.noLine hd) (Option.some.inj hs)
    · rw [if_neg fun hb => hb (h.head_iff.mpr hd)] at hs
      obtain ⟨found, hfound, hs⟩ := Option.bind_eq_some_iff.mp hs
      obtain ⟨calls, hcalls, hs⟩ := Option.bind_eq_some_iff.mp hs
      cases Option.some.inj hs
      refine ⟨h.flush, _, calls, rfl, hecho, ?_, ?_⟩
      · rintro (hne | hnone)
        · exact absurd hr hne
        · exact absurd hnone hd
      · intro line _ hl hfits
        obtain ⟨found', calls', hfound', hcalls', hcommands⟩ := h.commandFor hl hfits
        obtain rfl := Option.some.inj (hfound.symm.trans hfound')
        obtain rfl := Option.some.inj (hcalls.symm.trans hcalls')
        exact hcommands
  · rw [if_neg hr] at hs hquiet ⊢
    have hnot : m.msg 0 = 0x0d → d.line = none := fun hr' => absurd hr' hr
    cases hd : d.line with
    | none =>
      rw [hd] at hquiet
      have hb : s.kcdBuffer 0 ≠ 0x25 := fun hb => h.head_iff.mp hb hd
      rw [if_neg hb] at hs
      split_ifs at hs
      · exact hquiet (fun _ => rfl) (h.noLine hd) (Option.some.inj hs)
      · exact hquiet (fun _ => rfl) (h.noLine hd) (Option.some.inj hs)
    | some l =>
      rw [hd] at hquiet hnot
      rw [if_pos (h.head_iff.mpr (by rw [hd]; exact Option.some_ne_none l))] at hs
      split_ifs at hs with hsize
      · exact hquiet hnot (h.full hd hsize) (Option.some.inj hs)
      · exact hquiet hnot (h.push hd (Nat.lt_of_not_le hsize)) (Option.some.inj hs)

lemma registerCommand_eq {w : List UInt8} {pid : UInt32} {cmdStr : Memory}
    (h : StringAt cmdStr 0 (0x25 :: w)) (hw : w.length < 63) :
    s.registerCommand cmdStr pid = some
      { s with cmds := s.cmds ++ [⟨pid, strCopy (fun _ => 0) (0x25 :: w) 0⟩] } := by
  have hspace : 64 < addressSpace := by decide
  have hlen : (0x25 :: w).length < addressSpace := by
    rw [List.length_cons]
    omega
  rw [Kcd.registerCommand, if_neg (not_not.mpr h.1), strCopyLoop_eq h hlen]
  rfl

lemma zero_notMem_of_stringAt {mem : Memory} {a : Nat} {t : List UInt8} (h : StringAt mem a t) :
    (0 : UInt8) ∉ t := by
  induction t generalizing a with
  | nil => exact List.not_mem_nil
  | cons c t ih =>
    rw [List.mem_cons, not_or]
    exact ⟨Ne.symm h.2.1, ih h.2.2⟩

/-- A command message for `%clr` has these characters behind its first. -/
lemma clear_chars (hline : StringAt m.msg 0 l) (hclr : commandWord l = Kcd.clr) :
    m.msg 1 = 0x63 ∧ m.msg 2 = 0x6c ∧ m.msg 3 = 0x72 := by
  have hpre : Kcd.clr <+: l := hclr ▸ List.takeWhile_prefix _
  obtain ⟨t, rfl⟩ := hpre
  exact ⟨hline.2.2.1, hline.2.2.2.2.1, hline.2.2.2.2.2.2.1⟩

/-- What one turn does: the decoder goes on following the console, and answers. -/
theorem Tracks.turn (h : Tracks s d) (hx : Carries m x) (hs : s.turn m = some (s', out)) :
    Tracks s' (d.next x) ∧ Answers d x out := by
  cases hx with
  | register w htype hname hw hsp =>
    rw [Kcd.turn, if_pos htype, registerCommand_eq hname hw] at hs
    cases Option.some.inj hs
    refine ⟨h.register (.mk _ _ w ?_ hw hsp), rfl⟩
    exact stringAt_strCopy (zero_notMem_of_stringAt hname) rfl
  | ignored htype hne =>
    rw [Kcd.turn, if_pos htype, Kcd.registerCommand, if_pos hne] at hs
    cases Option.some.inj hs
    exact ⟨h, rfl⟩
  | key htype hz => exact h.key hs htype hz
  | clear line htype hline hclr =>
    rw [Kcd.turn, if_neg htype, if_pos (clear_chars hline hclr)] at hs
    cases Option.some.inj hs
    refine ⟨h, _, rfl, rfl, ?_⟩
    exact stringAt_strCopy (by decide) rfl

/-- A turn comes to its end. -/
theorem Tracks.turn_isSome (h : Tracks s d) (hx : Carries m x) (hready : d.Ready x) :
    ∃ s' out, s.turn m = some (s', out) := by
  cases hx with
  | register w htype hname hw hsp =>
    rw [Kcd.turn, if_pos htype, registerCommand_eq hname hw]
    exact ⟨_, _, rfl⟩
  | ignored htype hne =>
    rw [Kcd.turn, if_pos htype, Kcd.registerCommand, if_pos hne]
    exact ⟨_, _, rfl⟩
  | clear line htype hline hclr =>
    rw [Kcd.turn, if_neg htype, if_pos (clear_chars hline hclr)]
    exact ⟨_, _, rfl⟩
  | key htype hz =>
    rw [Kcd.turn, if_neg htype]
    split_ifs with hclr hp hr hb
    · exact ⟨_, _, rfl⟩
    · exact ⟨_, _, rfl⟩
    · exact ⟨_, _, rfl⟩
    · have hd : d.line ≠ none := h.head_iff.mp (not_not.mp hb)
      obtain ⟨line, hl⟩ := Option.ne_none_iff_exists'.mp hd
      obtain ⟨found, calls, hfound, hcalls, -⟩ := h.commandFor hl (hready line hr hl)
      rw [hfound, Option.bind_eq_bind, Option.bind_some, hcalls]
      exact ⟨_, _, rfl⟩
    · exact ⟨_, _, rfl⟩
    · exact ⟨_, _, rfl⟩
    · exact ⟨_, _, rfl⟩

/-- What a run does. -/
theorem Tracks.run (h : Tracks s d) (hms : List.Forall₂ Carries ms xs)
    (hs : s.run ms = some (s', outs)) :
    Tracks s' (xs.foldl Console.next d) ∧ Answered d xs outs := by
  induction hms generalizing s d outs with
  | nil =>
    cases Option.some.inj hs
    exact ⟨h, .nil⟩
  | cons hx _ ih =>
    obtain ⟨⟨s₁, out⟩, hturn, hs⟩ := Option.bind_eq_some_iff.mp hs
    obtain ⟨⟨s₂, outs⟩, hrest, hs⟩ := Option.bind_eq_some_iff.mp hs
    cases Option.some.inj hs
    obtain ⟨h₁, hanswers⟩ := h.turn hx hturn
    obtain ⟨h₂, hanswered⟩ := ih h₁ hrest
    exact ⟨h₂, .cons hanswers hanswered⟩

/-- A run comes to its end if all lines fit. -/
lemma Tracks.run_isSome (h : Tracks s d) (hms : List.Forall₂ Carries ms xs) (hready : d.AllReady xs) :
    ∃ s' outs, s.run ms = some (s', outs) := by
  induction hms generalizing s d with
  | nil => exact ⟨s, [], rfl⟩
  | cons hx _ ih =>
    obtain ⟨s₁, out, hturn⟩ := h.turn_isSome hx hready.1
    obtain ⟨s₂, outs, hrest⟩ := ih (h.turn hx hturn).1 hready.2
    refine ⟨s₂, out :: outs, ?_⟩
    rw [Kcd.run, hturn, Option.bind_eq_bind, Option.bind_some]
    dsimp only
    rw [hrest]
    rfl

/-- After every sequence of messages the buffer is zero behind the line, every character has been passed on,
every line that fits has been sent to the process that was the first to register its first word, and to no
other; and the next turn comes to its end. -/
theorem kcd_dispatches (hms : List.Forall₂ Carries ms xs)
    (hrun : (Kcd.start behind).run ms = some (s, outs)) :
    s.kbufSize ≤ 64 ∧ (∀ i, s.kbufSize ≤ i → i < 64 → s.kcdBuffer i = 0) ∧
      Answered Console.start xs outs ∧
      ∀ m x, Carries m x → (xs.foldl Console.next Console.start).Ready x →
        ∃ s' out, s.turn m = some (s', out) := by
  obtain ⟨h, hanswered⟩ := Tracks.start.run hms hrun
  refine ⟨h.size_le, h.zero, hanswered, ?_⟩
  intro m x hx hready
  exact h.turn_isSome hx hready

end Turn

/-- The message that the interrupt handler makes of a character -/
def keyMessage (c : UInt8) : IoMessage :=
  ⟨uartPid, kcdPid, 0, Function.update IoMessage.blank.msg 0 c⟩

lemma keyMessage_carries (c : UInt8) : Carries (keyMessage c) (.key c) := by
  have hc : (keyMessage c).msg 0 = c := rfl
  have hkey : Carries (keyMessage c) (.key ((keyMessage c).msg 0)) := by
    refine .key (show (0 : UInt32) ≠ 3 by decide) ?_
    intro i hi _
    exact Function.update_of_ne (Nat.ne_of_gt hi) _ _
  rwa [hc] at hkey

/-- After `%clr` and a return the decoder has one message for itself. -/
theorem kcd_dispatches_clr : ∃ s outs,
    (Kcd.start fun _ => 0).run ((Kcd.clr ++ [0x0d]).map keyMessage) = some (s, outs) ∧
      Answered Console.start ((Kcd.clr ++ [0x0d]).map Input.key) outs := by
  have hms : List.Forall₂ Carries ((Kcd.clr ++ [0x0d]).map keyMessage)
      ((Kcd.clr ++ [0x0d]).map Input.key) := by
    rw [List.forall₂_map_left_iff, List.forall₂_map_right_iff]
    exact List.forall₂_same.mpr fun c _ => keyMessage_carries c
  have hready : Console.start.AllReady ((Kcd.clr ++ [0x0d]).map Input.key) := by
    refine ⟨?_, ?_, ?_, ?_, ?_, trivial⟩
    · intro line hr
      cases hr
    · intro line hr
      cases hr
    · intro line hr
      cases hr
    · intro line hr
      cases hr
    · intro line _ hl
      obtain rfl : Kcd.clr = line := Option.some.inj hl
      exact ⟨by decide, by decide⟩
  obtain ⟨s, outs, hrun⟩ := Tracks.start.run_isSome hms hready
  exact ⟨s, outs, hrun, (kcd_dispatches hms hrun).2.2.1⟩

end RtxKernel
