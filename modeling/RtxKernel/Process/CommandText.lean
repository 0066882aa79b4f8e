import RtxKernel.Process.FieldReads
import RtxKernel.Process.Kcd

/-!
# The text of a command

A line goes from the buffer of the decoder into the message for the process that has registered its first
word, and from there through `priority_switch_command_handler` to the CRT process. Each of them walks it up
to its null, in a field of 64 bytes. The decoder stores 64 characters, so that a longer line has no null; and
the handler looks for the second number behind the null when there is no space, which is outside of the field
for a text of 63 characters. For all other lines no field is left (`command_text_contained_iff`).
-/

namespace RtxKernel

/-- `PRIORITY_SWITCH_PID` -/
def prioritySwitchPid : UInt32 := 80

/-- What the message `m` brings to the decoder: a registered text ends in its field. -/
inductive Brings (m : IoMessage) : Input → Prop
  | register (w : List UInt8) : m.type = typeRegisterCmd → StringAt m.msg 0 (0x25 :: w) →
      w.length < 63 → Brings m (.register (0x25 :: w) m.tx)
  | ignored : m.type = typeRegisterCmd → m.msg 0 ≠ 0x25 → Brings m .ignored
  | key : m.type ≠ typeRegisterCmd → (∀ i, 0 < i → i < 64 → m.msg i = 0) → Brings m (.key (m.msg 0))
  | clear : m.type ≠ typeRegisterCmd → m.msg 1 = 0x63 ∧ m.msg 2 = 0x6c ∧ m.msg 3 = 0x72 →
      Brings m .clear

/-! ### What is read of a command -/

namespace Kcd

/-- The command that is found in a turn -/
def found (s : Kcd) (m : IoMessage) : Option RegCmd :=
  if m.type ≠ typeRegisterCmd ∧ ¬ (m.msg 1 = 0x63 ∧ m.msg 2 = 0x6c ∧ m.msg 3 = 0x72) ∧
      m.msg 0 = 0x0d ∧ s.kcdBuffer 0 = 0x25 then
    (findCommand s.kcdBuffer addressSpace 1 s.cmds).join
  else none

end Kcd

/-- The text of a command message ends in its field, and no loop that walks it leaves the field: that of the
CRT process, and, where the message goes to the handler of the priority command, those of the handler and
that of the CRT process over the answer. -/
structure Send.Contained (call : Send) : Prop where
  ends : Ends call.message.msg 0 kcdBufferSize
  printed : InField 0 (crtReads call.message.msg 0)
  handled : call.processId = prioritySwitchPid → InField 0 (priorityReads call.message.msg 0)
  answered : call.processId = prioritySwitchPid → ∀ v m success,
    priorityCommand call.message.msg 0 = some (v, m) →
      (bytes (v.answer success)).length ≤ kcdBufferSize ∧ InField 0 (crtReads (v.write success m 0) 0)

/-- In a turn `str_copy` reads the texts in their fields, and what is sent behind the echo of a character is
contained. -/
structure Kcd.Contained (s : Kcd) (m : IoMessage) : Prop where
  registered : m.type = typeRegisterCmd → m.msg 0 = 0x25 → InField 0 (strCopyReads m.msg 0)
  copied : ∀ current, s.found m = some current → InField 0 (strCopyReads s.kcdBuffer 0)
  sent : ∀ s' out, s.turn m = some (s', out) → ∀ call ∈ out.tail, call.Contained

/-- All turns for the messages are contained. -/
def Kcd.AllContained : Kcd → List IoMessage → Prop
  | _, [] => True
  | s, m :: ms => s.Contained m ∧ ∀ s' out, s.turn m = some (s', out) → s'.AllContained ms

/-! ### What is typed -/

/-- The line calls the command `w`: a space or the end stands behind it. -/
def Calls (line w : List UInt8) : Prop :=
  w <+: line ∧ (line.getD w.length 0 = 0x20 ∨ line.getD w.length 0 = 0)

instance (line w : List UInt8) : Decidable (Calls line w) :=
  inferInstanceAs (Decidable (w <+: line ∧ (line.getD w.length 0 = 0x20 ∨ line.getD w.length 0 = 0)))

/-- The characters of the line in the buffer, up to a null -/
def lineText (line : List UInt8) : List UInt8 := (line.take kcdBufferSize).takeWhile fun c => c ≠ 0

namespace Console

/-- The process to which the line goes. -/
def called (d : Console) (line : List UInt8) : Option UInt32 :=
  (d.commands.find? fun r => Calls line r.1).map Prod.snd

/-- A line that goes to a process has a null in the buffer; and for the handler of the priority command it
has a space or is shorter by another character. -/
def Short (d : Console) : Input → Prop
  | .key c => ∀ line pid, c = 0x0d → d.line = some line → d.called line = some pid →
      (lineText line).length < kcdBufferSize ∧ (pid = prioritySwitchPid → ¬ LacksNumber (lineText line))
  | _ => True

def AllShort : Console → List Input → Prop
  | _, [] => True
  | d, x :: xs => d.Short x ∧ (d.next x).AllShort xs

end Console

/-! ### A line in the buffer -/

section Line

variable {buffer : Memory} {n i : Nat} {l w line : List UInt8} {current : RegCmd} {next : List RegCmd}

lemma calls_cons_iff {c e : UInt8} : Calls (c :: l) (e :: w) ↔ c = e ∧ Calls l w := by
  rw [Calls, Calls, List.cons_prefix_cons, List.length_cons, List.getD_cons_succ]
  constructor
  · rintro ⟨⟨rfl, hpre⟩, hend⟩
    exact ⟨rfl, hpre, hend⟩
  · rintro ⟨rfl, hpre, hend⟩
    exact ⟨⟨rfl, hpre⟩, hend⟩

/-- Behind its first character the line stands behind the first byte. -/
lemma line_tail {c : UInt8} (hb : ∀ j < n + 1, buffer (i + j) = (c :: l).getD j 0) :
    ∀ j < n, buffer (i + 1 + j) = l.getD j 0 := by
  intro j hj
  have hj' := hb (j + 1) (Nat.succ_lt_succ hj)
  rwa [List.getD_cons_succ, ← Nat.add_assoc, Nat.add_right_comm] at hj'

/-- The text of the line ends in the buffer if a null is in it. -/
lemma ends_iff (hb : ∀ j < n, buffer (i + j) = l.getD j 0) :
    Ends buffer i n ↔ ((l.take n).takeWhile fun c => c ≠ 0).length < n := by
  induction n generalizing i l with
  | zero =>
    constructor
    · rintro ⟨j, hj, -⟩
      cases hj
    · intro h
      cases h
  | succ n ih =>
    have hfirst := hb 0 (Nat.zero_lt_succ n)
    cases l with
    | nil =>
      constructor
      · intro _
        exact Nat.zero_lt_succ n
      · intro _
        exact ⟨0, Nat.zero_lt_succ n, hfirst⟩
    | cons c l =>
      rw [List.getD_cons_zero] at hfirst
      rw [List.take_succ_cons]
      by_cases hc : c = 0
      · rw [List.takeWhile_cons_of_neg (by simpa using hc)]
        constructor
        · intro _
          exact Nat.zero_lt_succ n
        · intro _
          exact ⟨0, Nat.zero_lt_succ n, hfirst.trans hc⟩
      · rw [List.takeWhile_cons_of_pos (by simpa using hc), List.length_cons, Nat.succ_lt_succ_iff,
          ← ih (line_tail hb)]
        constructor
        · intro hends
          apply hends.succ
          rw [Nat.add_zero] at hfirst
          rwa [hfirst]
        · rintro ⟨j, hj, hz⟩
          refine ⟨j + 1, Nat.succ_lt_succ hj, ?_⟩
          rwa [← Nat.add_assoc, Nat.add_right_comm]

/-- And then it is a string. -/
lemma stringAt_of_ends (hb : ∀ j < n, buffer (i + j) = l.getD j 0) (h : Ends buffer i n) :
    StringAt buffer i ((l.take n).takeWhile fun c => c ≠ 0) := by
  induction n generalizing i l with
  | zero =>
    obtain ⟨j, hj, -⟩ := h
    cases hj
  | succ n ih =>
    have hfirst := hb 0 (Nat.zero_lt_succ n)
    rw [Nat.add_zero] at hfirst
    cases l with
    | nil => exact hfirst
    | cons c l =>
      rw [List.getD_cons_zero] at hfirst
      rw [List.take_succ_cons]
      by_cases hc : c = 0
      · rw [List.takeWhile_cons_of_neg (by simpa using hc)]
        exact hfirst.trans hc
      · rw [List.takeWhile_cons_of_pos (by simpa using hc)]
        refine ⟨hfirst, hc, ih (line_tail hb) (h.succ ?_)⟩
        rwa [hfirst]

/-- The comparison with one command, when the line and the command agree before the index `i`. -/
lemma findCommand_calls (hb : ∀ j < w.length + 1, buffer (i + j) = l.getD j 0)
    (hw : StringAt current.cmd i w) (hn : w.length < n) :
    Kcd.findCommand buffer n i (current :: next) =
      if Calls l w then some (some current) else Kcd.findCommand buffer addressSpace 1 next := by
  induction w generalizing i l n with
  | nil =>
    obtain ⟨n, rfl⟩ : ∃ k, n = k + 1 := Nat.exists_eq_add_one_of_ne_zero (Nat.ne_of_gt hn)
    have hfirst := hb 0 (Nat.zero_lt_succ _)
    rw [Nat.add_zero] at hfirst
    rw [Kcd.findCommand, StringAt.nil_iff.mp hw, hfirst]
    by_cases hend : l.getD 0 0 = 0x20 ∨ l.getD 0 0 = 0
    · rw [if_pos ⟨hend, rfl⟩, if_pos ⟨List.nil_prefix, hend⟩]
    · rw [if_neg fun h => hend h.1, if_neg fun h => hend (.inr h), if_neg fun h => hend h.2]
  | cons e w ih =>
    obtain ⟨n, rfl⟩ : ∃ k, n = k + 1 := Nat.exists_eq_add_one_of_ne_zero (by omega)
    have hfirst := hb 0 (Nat.zero_lt_succ _)
    rw [Nat.add_zero] at hfirst
    obtain ⟨he, hne, hrest⟩ := hw
    rw [Kcd.findCommand, he, if_neg fun h => hne h.2, hfirst]
    cases l with
    | nil =>
      have hzero : ([] : List UInt8).getD 0 0 = 0 := rfl
      rw [hzero, if_neg (Ne.symm hne), if_neg]
      rintro ⟨hpre, -⟩
      cases List.prefix_nil.mp hpre
    | cons c l =>
      rw [List.getD_cons_zero]
      by_cases hce : c = e
      · rw [if_pos hce, ih (line_tail hb) hrest (Nat.lt_of_succ_lt_succ hn)]
        by_cases hcalls : Calls l w
        · rw [if_pos hcalls, if_pos (calls_cons_iff.mpr ⟨hce, hcalls⟩)]
        · rw [if_neg hcalls, if_neg fun h => hcalls (calls_cons_iff.mp h).2]
      · rw [if_neg hce, if_neg fun h => hce (calls_cons_iff.mp h).1]

/-- The record of a command whose text ends in its field -/
inductive Kept : RegCmd → List UInt8 × UInt32 → Prop
  | mk (pid : UInt32) (cmd : Memory) (w : List UInt8) : StringAt cmd 0 (0x25 :: w) → w.length < 63 →
      Kept ⟨pid, cmd⟩ (0x25 :: w, pid)

/-- The loop ends, at the first command that the line calls. -/
theorem findCommand_called {cmds : List RegCmd} {names : List (List UInt8 × UInt32)}
    (hb : ∀ j < 63, buffer (1 + j) = l.getD j 0) (h : List.Forall₂ Kept cmds names) :
    ∃ found, Kcd.findCommand buffer addressSpace 1 cmds = some found ∧
      found.map RegCmd.pid = (names.find? fun r => Calls (0x25 :: l) r.1).map Prod.snd := by
  induction h with
  | nil =>
    refine ⟨none, ?_, rfl⟩
    rw [Kcd.findCommand]
  | cons hr _ ih =>
    cases hr with
    | mk pid cmd w hcmd hlen =>
      have hspace : 63 < addressSpace := by decide
      have hword : ∀ j < w.length + 1, buffer (1 + j) = l.getD j 0 := by
        intro j hj
        exact hb j (by omega)
      rw [findCommand_calls hword hcmd.2.2 (by omega)]
      by_cases hcalls : Calls l w
      · rw [if_pos hcalls, List.find?_cons_of_pos (by simpa using calls_cons_iff.mpr ⟨rfl, hcalls⟩)]
        exact ⟨_, rfl, rfl⟩
      · rw [if_neg hcalls, List.find?_cons_of_neg]
        · exact ih
        · intro h
          exact hcalls (calls_cons_iff.mp (of_decide_eq_true h)).2

/-- The copy of the text of a line -/
lemma holds_copy (hb : ∀ j < 64, buffer j = line.getD j 0) (hshort : (lineText line).length < kcdBufferSize) :
    strCopyLoop buffer addressSpace 0 IoMessage.blank.msg =
        some (strCopy IoMessage.blank.msg (lineText line) 0) ∧
      Holds (strCopy IoMessage.blank.msg (lineText line) 0) 0 (lineText line) := by
  have hspace : kcdBufferSize < addressSpace := by decide
  have hb' : ∀ j < kcdBufferSize, buffer (0 + j) = line.getD j 0 := by
    intro j hj
    rw [Nat.zero_add]
    exact hb j hj
  have hstring : StringAt buffer 0 (lineText line) := stringAt_of_ends hb' ((ends_iff hb').mpr hshort)
  refine ⟨strCopyLoop_eq hstring (Nat.lt_trans hshort hspace), Nat.le_of_lt_succ hshort, ?_, ?_⟩
  · exact stringAt_strCopy (zero_notMem_of_stringAt hstring) rfl
  · intro i hi _
    rw [strCopy_of_ge (by omega)]
    rfl

end Line

/-! ### One turn -/

section Turn

variable {s s' : Kcd} {d : Console} {m : IoMessage} {x : Input} {out : List Send} {l line : List UInt8}
variable {ms : List IoMessage} {xs : List Input} {behind : Memory} {current : RegCmd}

/-- What is sent behind the echo is the message for the command that is found. -/
lemma Kcd.turn_tail (hs : s.turn m = some (s', out)) :
    Kcd.commandFor s.kcdBuffer (s.found m) = some out.tail := by
  rw [Kcd.turn] at hs
  rw [Kcd.found]
  by_cases htype : m.type = typeRegisterCmd
  · rw [if_pos htype] at hs
    obtain ⟨s₁, -, hs⟩ := Option.bind_eq_some_iff.mp hs
    cases hs
    rw [if_neg fun h => h.1 htype]
    rfl
  rw [if_neg htype] at hs
  by_cases hclr : m.msg 1 = 0x63 ∧ m.msg 2 = 0x6c ∧ m.msg 3 = 0x72
  · rw [if_pos hclr] at hs
    cases hs
    rw [if_neg fun h => h.2.1 hclr]
    rfl
  rw [if_neg hclr] at hs
  by_cases hr : m.msg 0 = 0x0d
  · have hp : m.msg 0 ≠ 0x25 := by
      rw [hr]
      decide
    rw [if_neg hp, if_pos hr] at hs
    by_cases hb : s.kcdBuffer 0 = 0x25
    · rw [if_neg (not_not.mpr hb)] at hs
      rw [if_pos ⟨htype, hclr, hr, hb⟩]
      obtain ⟨found, hfound, hs⟩ := Option.bind_eq_some_iff.mp hs
      obtain ⟨calls, hcalls, hs⟩ := Option.bind_eq_some_iff.mp hs
      cases hs
      rw [hfound]
      exact hcalls
    · rw [if_pos hb] at hs
      rw [if_neg fun h => hb h.2.2.2]
      cases hs
      rfl
  · rw [if_neg fun h => hr h.2.2.1]
    rw [if_neg hr] at hs
    split_ifs at hs
    · cases hs
      rfl
    · cases hs
      rfl
    · cases hs
      rfl
    · cases hs
      rfl

/-- The turn for a return behind a line -/
lemma Kcd.turn_return {found : Option RegCmd} {calls : List Send} (htype : m.type ≠ typeRegisterCmd)
    (hclr : ¬ (m.msg 1 = 0x63 ∧ m.msg 2 = 0x6c ∧ m.msg 3 = 0x72)) (hr : m.msg 0 = 0x0d)
    (hb : s.kcdBuffer 0 = 0x25) (hfound : Kcd.findCommand s.kcdBuffer addressSpace 1 s.cmds = some found)
    (hcalls : Kcd.commandFor s.kcdBuffer found = some calls) :
    s.turn m = some ({ s with kcdBuffer := resetKcdBuffer s.kcdBuffer, kbufSize := 0 },
      Kcd.forward m :: calls) := by
  have hp : m.msg 0 ≠ 0x25 := by
    rw [hr]
    decide
  rw [Kcd.turn, if_neg htype, if_neg hclr, if_neg hp, if_pos hr, if_neg (not_not.mpr hb), hfound,
    Option.bind_eq_bind, Option.bind_some, hcalls]
  rfl

/-- What a turn for a character does to the buffer does not depend on the commands. -/
lemma Kcd.turn_forget (htype : m.type ≠ typeRegisterCmd) (hs : s.turn m = some (s', out)) :
    s'.cmds = s.cmds ∧
      ∃ out', Kcd.turn { s with cmds := [] } m = some ({ s' with cmds := [] }, out') := by
  rw [Kcd.turn, if_neg htype] at hs ⊢
  by_cases hclr : m.msg 1 = 0x63 ∧ m.msg 2 = 0x6c ∧ m.msg 3 = 0x72
  · rw [if_pos hclr] at hs ⊢
    cases hs
    exact ⟨rfl, _, rfl⟩
  rw [if_neg hclr] at hs ⊢
  by_cases hp : m.msg 0 = 0x25
  · rw [if_pos hp] at hs ⊢
    cases hs
    exact ⟨rfl, _, rfl⟩
  rw [if_neg hp] at hs ⊢
  by_cases hr : m.msg 0 = 0x0d
  · rw [if_pos hr] at hs ⊢
    by_cases hb : s.kcdBuffer 0 = 0x25
    · rw [if_neg (not_not.mpr hb)] at hs ⊢
      obtain ⟨found, -, hs⟩ := Option.bind_eq_some_iff.mp hs
      obtain ⟨calls, -, hs⟩ := Option.bind_eq_some_iff.mp hs
      cases hs
      rw [Kcd.findCommand]
      exact ⟨rfl, _, rfl⟩
    · rw [if_pos hb] at hs ⊢
      cases hs
      exact ⟨rfl, _, rfl⟩
  rw [if_neg hr] at hs ⊢
  split_ifs at hs ⊢
  · cases hs
    exact ⟨rfl, _, rfl⟩
  · cases hs
    exact ⟨rfl, _, rfl⟩
  · cases hs
    exact ⟨rfl, _, rfl⟩

/-- The buffer holds the line, and the list the registered commands, with texts of any form. -/
structure Follows (s : Kcd) (d : Console) : Prop where
  line : Tracks { s with cmds := [] } { d with commands := [] }
  commands : List.Forall₂ Kept s.cmds d.commands

lemma Follows.start : Follows (Kcd.start behind) Console.start where
  line := { (Tracks.start : Tracks (Kcd.start behind) Console.start) with commands := .nil }
  commands := .cons (.mk _ _ _ clr_stringAt (by decide)) .nil

lemma Follows.buffer (h : Follows s d) (hl : d.line = some line) :
    ∀ j < 64, s.kcdBuffer j = line.getD j 0 := by
  obtain ⟨-, hsize, hbuf⟩ := h.line.line line hl
  intro j hj
  by_cases hlt : j < s.kbufSize
  · exact hbuf j hlt
  · have hle : line.length ≤ j := by
      dsimp only at hsize
      omega
    rw [List.getD_eq_default _ _ hle]
    exact h.line.zero j (Nat.le_of_not_lt hlt) hj

lemma Follows.head_iff (h : Follows s d) : s.kcdBuffer 0 = 0x25 ↔ d.line ≠ none := h.line.head_iff

/-- Every turn goes on following the console. -/
theorem Follows.turn (h : Follows s d) (hx : Brings m x) (hs : s.turn m = some (s', out)) :
    Follows s' (d.next x) := by
  cases hx with
  | register w htype hname hw =>
    rw [Kcd.turn, if_pos htype, registerCommand_eq hname hw] at hs
    cases Option.some.inj hs
    refine ⟨h.line, List.rel_append h.commands (.cons (.mk _ _ w ?_ hw) .nil)⟩
    exact stringAt_strCopy (zero_notMem_of_stringAt hname) rfl
  | ignored htype hne =>
    rw [Kcd.turn, if_pos htype, Kcd.registerCommand, if_pos hne] at hs
    cases Option.some.inj hs
    exact h
  | key htype hz =>
    obtain ⟨hcmds, out', hs'⟩ := Kcd.turn_forget htype hs
    refine ⟨(h.line.key hs' htype hz).1, ?_⟩
    rw [hcmds]
    exact h.commands
  | clear htype hclr =>
    rw [Kcd.turn, if_neg htype, if_pos hclr] at hs
    cases Option.some.inj hs
    exact h

/-- At a return behind a line the command is looked for, and the search ends. -/
lemma Follows.found (h : Follows s d) (htype : m.type ≠ typeRegisterCmd)
    (hz : ∀ i, 0 < i → i < 64 → m.msg i = 0) (hr : m.msg 0 = 0x0d) (hl : d.line = some line) :
    Kcd.findCommand s.kcdBuffer addressSpace 1 s.cmds = some (s.found m) ∧
      (s.found m).map RegCmd.pid = d.called line := by
  have hb : s.kcdBuffer 0 = 0x25 := h.head_iff.mpr (hl ▸ Option.some_ne_none line)
  have hclr : ¬ (m.msg 1 = 0x63 ∧ m.msg 2 = 0x6c ∧ m.msg 3 = 0x72) := not_clear hz
  have hbuf := h.buffer hl
  have hhead := (h.line.line line hl).1
  cases line with
  | nil => cases hhead
  | cons c line =>
    obtain rfl : c = 0x25 := by simpa using hhead
    have htail : ∀ j < 63, s.kcdBuffer (1 + j) = line.getD j 0 := by
      intro j hj
      rw [hbuf (1 + j) (by omega), Nat.add_comm, List.getD_cons_succ]
    obtain ⟨found, hfound, hpid⟩ := findCommand_called htail h.commands
    have hf : s.found m = found := by
      rw [Kcd.found, if_pos ⟨htype, hclr, hr, hb⟩, hfound]
      rfl
    rw [hf]
    exact ⟨hfound, hpid⟩

/-- Otherwise no command is found. -/
lemma Follows.found_eq_none (h : Follows s d) (hne : m.msg 0 ≠ 0x0d ∨ d.line = none) :
    s.found m = none := by
  rw [Kcd.found, if_neg]
  rintro ⟨-, -, hr, hb⟩
  rcases hne with hne | hnone
  · exact hne hr
  · exact h.head_iff.mp hb hnone

/-- When the message for a command is contained. -/
lemma contained_iff {t : List UInt8} {call : Send} (h : Holds call.message.msg 0 t) :
    call.Contained ↔ (call.processId = prioritySwitchPid → ¬ LacksNumber t) := by
  constructor
  · intro hc hpid
    exact (inField_priorityReads_iff h).mp (hc.handled hpid)
  · intro hlacks
    have hends : Ends call.message.msg 0 msgSize := by
      refine ⟨63, by decide, ?_⟩
      exact h.zero 63 h.length (by decide)
    exact {
      ends := hends
      printed := inField_crtReads_iff.mpr hends
      handled := fun hpid => (inField_priorityReads_iff h).mpr (hlacks hpid)
      answered := fun _ v _ success hm =>
        ⟨Nat.le_of_lt (v.answer_length success), inField_answer h hm success⟩ }

/-- A turn in which no command is found is contained. -/
lemma Kcd.contained_of_none (hf : s.found m = none)
    (hreg : m.type = typeRegisterCmd → m.msg 0 = 0x25 → InField 0 (strCopyReads m.msg 0)) :
    s.Contained m where
  registered := hreg
  copied := by
    intro current hcurrent
    rw [hf] at hcurrent
    cases hcurrent
  sent := by
    intro s' out hs call hcall
    have htail := Kcd.turn_tail hs
    rw [hf] at htail
    rw [← Option.some.inj htail] at hcall
    cases hcall

lemma ends_of_stringAt {mem : Memory} {a n : Nat} {t : List UInt8} (h : StringAt mem a t)
    (hn : t.length < n) : Ends mem a n := by
  rw [← List.append_nil t] at h
  exact ⟨t.length, hn, h.of_append⟩

/-- What happens at a return behind a line that calls a command -/
lemma Follows.called (h : Follows s d) (htype : m.type ≠ typeRegisterCmd)
    (hz : ∀ i, 0 < i → i < 64 → m.msg i = 0) (hr : m.msg 0 = 0x0d) (hl : d.line = some line)
    (hf : s.found m = some current) :
    (InField 0 (strCopyReads s.kcdBuffer 0) ↔ (lineText line).length < kcdBufferSize) ∧
      ((lineText line).length < kcdBufferSize → ∃ s' call, s.turn m = some (s', [Kcd.forward m, call]) ∧
        call.processId = current.pid ∧ Holds call.message.msg 0 (lineText line)) := by
  have hbuf := h.buffer hl
  constructor
  · rw [inField_strCopyReads_iff]
    apply ends_iff
    intro j hj
    rw [Nat.zero_add]
    exact hbuf j hj
  · intro hshort
    obtain ⟨hcopy, hholds⟩ := holds_copy hbuf hshort
    have hcalls : Kcd.commandFor s.kcdBuffer (some current) = some
        [⟨current.pid, { IoMessage.blank with
          tx := kcdPid
          rx := current.pid
          msg := strCopy IoMessage.blank.msg (lineText line) 0 }⟩] := by
      rw [Kcd.commandFor, hcopy]
      rfl
    have hb : s.kcdBuffer 0 = 0x25 := h.head_iff.mpr (hl ▸ Option.some_ne_none line)
    have hfound := (h.found htype hz hr hl).1
    rw [hf] at hfound
    exact ⟨_, _, Kcd.turn_return htype (not_clear hz) hr hb hfound hcalls, rfl, hholds⟩

/-- A return behind a line that begins with a percent sign. -/
lemma Follows.contained_return (h : Follows s d) (htype : m.type ≠ typeRegisterCmd)
    (hz : ∀ i, 0 < i → i < 64 → m.msg i = 0) (hr : m.msg 0 = 0x0d) (hl : d.line = some line) :
    s.Contained m ↔ d.Short (.key (m.msg 0)) := by
  have hreg : m.type = typeRegisterCmd → m.msg 0 = 0x25 → InField 0 (strCopyReads m.msg 0) :=
    fun hreg => absurd hreg htype
  obtain ⟨-, hpid⟩ := h.found htype hz hr hl
  cases hf : s.found m with
  | none =>
    rw [hf] at hpid
    refine iff_of_true (Kcd.contained_of_none hf hreg) ?_
    intro line' pid _ hl' hcalled
    obtain rfl : line = line' := Option.some.inj (hl.symm.trans hl')
    rw [← hpid] at hcalled
    cases hcalled
  | some current =>
    rw [hf] at hpid
    obtain ⟨hcopied, hsent⟩ := h.called htype hz hr hl hf
    constructor
    · intro hc line' pid _ hl' hcalled
      obtain rfl : line = line' := Option.some.inj (hl.symm.trans hl')
      have hshort := hcopied.mp (hc.copied current hf)
      obtain ⟨s', call, hturn, hcall, hholds⟩ := hsent hshort
      refine ⟨hshort, ?_⟩
      have hcontained := hc.sent s' _ hturn call (List.mem_singleton_self call)
      rw [contained_iff hholds, hcall] at hcontained
      rw [← hpid] at hcalled
      obtain rfl : current.pid = pid := Option.some.inj hcalled
      exact hcontained
    · intro hd
      obtain ⟨hshort, hlacks⟩ := hd line current.pid hr hl hpid.symm
      obtain ⟨s', call, hturn, hcall, hholds⟩ := hsent hshort
      refine ⟨hreg, ?_, ?_⟩
      · intro _ _
        exact hcopied.mpr hshort
      · intro s'' out hs call' hcall'
        rw [hturn] at hs
        cases hs
        obtain rfl := List.mem_singleton.mp hcall'
        rw [contained_iff hholds, hcall]
        exact hlacks

/-- A turn is contained if the line that is sent is short, and only then. -/
theorem Follows.contained_iff (h : Follows s d) (hx : Brings m x) : s.Contained m ↔ d.Short x := by
  cases hx with
  | register w htype hname hw =>
    refine iff_of_true (Kcd.contained_of_none ?_ ?_) trivial
    · rw [Kcd.found, if_neg fun hc => hc.1 htype]
    · intro _ _
      exact inField_strCopyReads_iff.mpr (ends_of_stringAt hname (Nat.succ_lt_succ hw))
  | ignored htype hne =>
    refine iff_of_true (Kcd.contained_of_none ?_ ?_) trivial
    · rw [Kcd.found, if_neg fun hc => hc.1 htype]
    · intro _ hp
      exact absurd hp hne
  | clear htype hclr =>
    refine iff_of_true (Kcd.contained_of_none ?_ ?_) trivial
    · rw [Kcd.found, if_neg fun hc => hc.2.1 hclr]
    · intro hreg
      exact absurd hreg htype
  | key htype hz =>
    by_cases hne : m.msg 0 ≠ 0x0d ∨ d.line = none
    · -- nothing is sent but the echo
      refine iff_of_true (Kcd.contained_of_none (h.found_eq_none hne) fun hreg => absurd hreg htype) ?_
      intro line pid hr hl _
      rcases hne with hne | hnone
      · exact absurd hr hne
      · rw [hnone] at hl
        cases hl
    · rw [not_or, not_not] at hne
      obtain ⟨hr, hsome⟩ := hne
      obtain ⟨line, hl⟩ := Option.ne_none_iff_exists'.mp hsome
      exact h.contained_return htype hz hr hl

/-- And a contained turn comes to its end. -/
lemma Follows.turn_isSome (h : Follows s d) (hx : Brings m x) (hshort : d.Short x) :
    ∃ s' out, s.turn m = some (s', out) := by
  cases hx with
  | register w htype hname hw =>
    rw [Kcd.turn, if_pos htype, registerCommand_eq hname hw]
    exact ⟨_, _, rfl⟩
  | ignored htype hne =>
    rw [Kcd.turn, if_pos htype, Kcd.registerCommand, if_pos hne]
    exact ⟨_, _, rfl⟩
  | clear htype hclr =>
    rw [Kcd.turn, if_neg htype, if_pos hclr]
    exact ⟨_, _, rfl⟩
  | key htype hz =>
    by_cases hr : m.msg 0 = 0x0d ∧ s.kcdBuffer 0 = 0x25
    · obtain ⟨line, hl⟩ := Option.ne_none_iff_exists'.mp (h.head_iff.mp hr.2)
      obtain ⟨hfound, hpid⟩ := h.found htype hz hr.1 hl
      cases hf : s.found m with
      | none =>
        rw [hf] at hfound
        exact ⟨_, _, Kcd.turn_return htype (not_clear hz) hr.1 hr.2 hfound rfl⟩
      | some current =>
        rw [hf] at hpid
        obtain ⟨s', call, hturn, -⟩ :=
          (h.called htype hz hr.1 hl hf).2 (hshort line current.pid hr.1 hl hpid.symm).1
        exact ⟨s', _, hturn⟩
    · rw [Kcd.turn, if_neg htype, if_neg (not_clear hz)]
      split_ifs with hp hr' hb
      · exact ⟨_, _, rfl⟩
      · exact ⟨_, _, rfl⟩
      · exact absurd ⟨hr', not_not.mp hb⟩ hr
      · exact ⟨_, _, rfl⟩
      · exact ⟨_, _, rfl⟩
      · exact ⟨_, _, rfl⟩

/-- All turns of a run are contained if every line that is sent is short. -/
theorem Follows.allContained_iff (h : Follows s d) (hms : List.Forall₂ Brings ms xs) :
    s.AllContained ms ↔ d.AllShort xs := by
  induction hms generalizing s d with
  | nil => exact Iff.rfl
  | cons hx _ ih =>
    constructor
    · rintro ⟨hm, hrest⟩
      have hshort := (h.contained_iff hx).mp hm
      obtain ⟨s', out, hs⟩ := h.turn_isSome hx hshort
      exact ⟨hshort, (ih (h.turn hx hs)).mp (hrest s' out hs)⟩
    · rintro ⟨hshort, hrest⟩
      refine ⟨(h.contained_iff hx).mpr hshort, ?_⟩
      intro s' out hs
      exact (ih (h.turn hx hs)).mpr hrest

/-- No command text leaves its field, in the decoder, in the message, in the handler of the priority command
and on the way to the port, if every line that goes to a process is short; and only then. -/
theorem command_text_contained_iff (hms : List.Forall₂ Brings ms xs) :
    (Kcd.start behind).AllContained ms ↔ Console.start.AllShort xs :=
  Follows.start.allContained_iff hms

end Turn

lemma keyMessage_brings (c : UInt8) : Brings (keyMessage c) (.key c) := by
  have hc : (keyMessage c).msg 0 = c := rfl
  have hkey : Brings (keyMessage c) (.key ((keyMessage c).msg 0)) := by
    refine .key (show (0 : UInt32) ≠ 3 by decide) ?_
    intro i hi _
    exact Function.update_of_ne (Nat.ne_of_gt hi) _ _
  rwa [hc] at hkey

lemma keyMessages_bring (cs : List UInt8) :
    List.Forall₂ Brings (cs.map keyMessage) (cs.map Input.key) := by
  rw [List.forall₂_map_left_iff, List.forall₂_map_right_iff]
  exact List.forall₂_same.mpr fun c _ => keyMessage_brings c

lemma Console.AllShort.last {d : Console} {xs : List Input} {x : Input} (h : d.AllShort (xs ++ [x])) :
    (xs.foldl Console.next d).Short x := by
  induction xs generalizing d with
  | nil => exact h.1
  | cons _ xs ih => exact ih h.2

/-- Characters other than `%` and the return are added to the line. -/
lemma Console.foldl_keys {d : Console} {l cs : List UInt8} (hl : d.line = some l)
    (hcs : ∀ c ∈ cs, c ≠ 0x25 ∧ c ≠ 0x0d) :
    (cs.map Input.key).foldl Console.next d = { d with line := some (l ++ cs) } := by
  induction cs generalizing d l with
  | nil =>
    rw [List.append_nil, ← hl]
    rfl
  | cons c cs ih =>
    rw [List.forall_mem_cons] at hcs
    have hline : (d.next (.key c)).line = some (l ++ [c]) := by
      rw [Console.next, Console.typed, if_neg hcs.1.1, if_neg hcs.1.2, hl]
      rfl
    rw [List.map_cons, List.foldl_cons, ih hline hcs.2, List.append_assoc]
    rfl

/-- The texts for `%clr` and a return are contained. -/
theorem command_text_contained_clr :
    (Kcd.start fun _ => 0).AllContained ((Kcd.clr ++ [0x0d]).map keyMessage) := by
  refine (command_text_contained_iff (keyMessages_bring _)).mpr ?_
  refine ⟨?_, ?_, ?_, ?_, ?_, trivial⟩
  · intro line pid hr
    cases hr
  · intro line pid hr
    cases hr
  · intro line pid hr
    cases hr
  · intro line pid hr
    cases hr
  · intro line pid _ hl _
    obtain rfl : Kcd.clr = line := Option.some.inj hl
    refine ⟨by decide, ?_⟩
    rintro - ⟨hlen, -⟩
    revert hlen
    decide

/-- `%clr` and 60 spaces -/
def longLine : List UInt8 := Kcd.clr ++ List.replicate 60 0x20

/-- Behind this line a return makes `str_copy` read the byte behind the buffer. -/
theorem command_text_not_contained :
    List.Forall₂ Brings ((longLine ++ [0x0d]).map keyMessage) ((longLine ++ [0x0d]).map Input.key) ∧
      ¬ (Kcd.start fun _ => 0).AllContained ((longLine ++ [0x0d]).map keyMessage) := by
  refine ⟨keyMessages_bring _, ?_⟩
  intro hall
  have hshort := (Follows.start.allContained_iff (keyMessages_bring _)).mp hall
  rw [List.map_append] at hshort
  have hline : ((longLine.map Input.key).foldl Console.next Console.start) =
      { Console.start with line := some longLine } := by
    have hfirst : (Console.start.next (.key 0x25)).line = some [0x25] := rfl
    exact Console.foldl_keys hfirst (by decide +kernel)
  have hlast := hshort.last
  rw [hline] at hlast
  have hlen := (hlast longLine kcdPid rfl rfl (by decide)).1
  revert hlen
  decide

end RtxKernel
