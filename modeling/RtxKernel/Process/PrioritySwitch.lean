import RtxKernel.Process.Util
import Mathlib.Data.List.TakeWhile

/-!
# The priority command

The process of `core/priority_switch.c`, and the functions of `shared/rtx_util.c` that it uses. A command is
a text `%C`, a space, a pid, a space and a priority; the numbers are read by `ascii_to_int`, which computes
modulo 2^32 and tells an error by the value -1. So a number that does not fit is not noticed, unless it is
-1 modulo 2^32 (`priority_command_exact_iff`).
-/

namespace RtxKernel

/-- The loop of `ascii_to_int`, for at most `n` turns. -/
def asciiToIntFrom (m : Memory) : Nat → Nat → Int32 → Option Int32
  | 0, _, _ => none
  | n + 1, a, value =>
    if m a = 0 then some value
    else if m a < 0x30 ∨ 0x39 < m a then some (-1)
    else asciiToIntFrom m n (a + 1) (value * 10 + Int32.ofNat ((m a).toNat - 0x30))

/-- `ascii_to_int` -/
def asciiToInt (m : Memory) (a : Nat) : Option Int32 :=
  if m a = 0 then some (-1) else asciiToIntFrom m addressSpace a 0

/-- What is made of a command. -/
inductive Verdict
  | invalidCommand
  | invalidPid
  | invalidPriority
  | setPriority (pid priority : Int32)
  deriving DecidableEq

/-- The loop that puts a null at the first space behind the index `i`, for at most `n` turns. -/
def splitAtSpace (m : Memory) (msg : Nat) : Nat → Nat → Option (Nat × Memory)
  | 0, _ => none
  | n + 1, i =>
    if m (msg + i) = 0 then some (i, m)
    else if m (msg + i) = 0x20 then some (i, Function.update m (msg + i) 0)
    else splitAtSpace m msg n (i + 1)

/-- The tests of the two numbers. -/
def judge (pid priority : Int32) : Verdict :=
  if pid = -1 then .invalidPid
  else if priority = -1 then .invalidPriority
  else .setPriority pid priority

/-- One command of `priority_switch_command_handler`, up to its call of `set_process_priority`: what is made
of the text at `msg`, and the memory. -/
def priorityCommand (m : Memory) (msg : Nat) : Option (Verdict × Memory) := do
  if m msg ≠ 0x25 ∨ m (msg + 1) ≠ 0x43 ∨ m (msg + 2) ≠ 0x20 then return (.invalidCommand, m)
  let (i, m) ← splitAtSpace m msg addressSpace 3
  let pid ← asciiToInt m (msg + 3)
  let priority ← asciiToInt m (msg + (i + 1))
  return (judge pid priority, m)

/-- The answer to a command, where `success` is what `set_process_priority` has returned. -/
def Verdict.answer (success : UInt32) : Verdict → String
  | .invalidCommand => "Command was invalid\n\r"
  | .invalidPid => "PID was invalid\n\r"
  | .invalidPriority => "Priority was invalid\n\r"
  | .setPriority _ _ =>
    if success ≠ 0 then "Cannot change that process to that priority\n\r"
    else "Priority change successful\n\r"

/-- The text of the answer is written over that of the command. -/
def Verdict.write (v : Verdict) (success : UInt32) (m : Memory) (msg : Nat) : Memory :=
  strCopy m (bytes (v.answer success)) msg

/-- The kernel calls that follow, for the command in the envelope `cmd`. -/
def Verdict.calls (cmd : Nat) : Verdict → List Op
  | .setPriority pid priority => [.setPriority pid priority, .send crtPid cmd]
  | _ => [.send crtPid cmd]

/-! ### The grammar -/

/-- `%C`, and a space -/
def commandPrefix : List UInt8 := [0x25, 0x43, 0x20]

/-- The text `t` is a command with the numbers `p` and `q`. -/
def IsCommand (t p q : List UInt8) : Prop :=
  t = commandPrefix ++ p ++ 0x20 :: q ∧ IsNumber p ∧ IsNumber q

/-- The envelope with the message `msg` holds the text `t`, and zero behind it. -/
structure Holds (m : Memory) (msg : Nat) (t : List UInt8) : Prop where
  length : t.length ≤ 63
  string : StringAt m msg t
  zero : ∀ i, t.length ≤ i → i < 64 → m (msg + i) = 0

/-- What is taken for the pid: the characters behind the prefix, up to a space -/
def firstNumber (t : List UInt8) : List UInt8 := (t.drop commandPrefix.length).takeWhile (· ≠ 0x20)

/-- The index of the null behind the first number -/
def splitIndex (t : List UInt8) : Nat := commandPrefix.length + (firstNumber t).length

/-- With the null behind the first number -/
def cutText (m : Memory) (msg : Nat) (t : List UInt8) : Memory := Function.update m (msg + splitIndex t) 0

/-- The number is -1 modulo 2^32. -/
def IsMinusOne (s : List UInt8) : Prop := value s % 4294967296 = 4294967295

/-- A command with a number that does not fit into an `int`, and none that is -1 modulo 2^32. -/
def Overflows (t : List UInt8) : Prop :=
  ∃ p q, IsCommand t p q ∧ (2147483648 ≤ value p ∨ 2147483648 ≤ value q) ∧
    ¬ IsMinusOne p ∧ ¬ IsMinusOne q

/-- A text of 63 characters with one number only, which is taken together with a number that stands behind
the block. -/
def RunsOn (m : Memory) (msg : Nat) (t : List UInt8) : Prop :=
  ∃ p q, t = commandPrefix ++ p ∧ p.length = 60 ∧ IsNumber p ∧ ¬ IsMinusOne p ∧
    StringAt m (msg + 64) q ∧ q.length < addressSpace ∧ IsNumber q ∧ ¬ IsMinusOne q

/-! ### Reading a number -/

section Numbers

variable {m : Memory} {n v a : Nat} {r : Int32} {s t p q : List UInt8} {c : UInt8}

lemma ofNat_eq_minusOne_iff : Int32.ofNat (value s) = -1 ↔ IsMinusOne s := by
  have hsize : Int32.size = 4294967296 := rfl
  rw [IsMinusOne, ← Int32.toInt_inj, Int32.toInt_ofNat', Int.bmod_def, hsize]
  have hone : (-1 : Int32).toInt = -1 := rfl
  rw [hone]
  split_ifs <;> omega

/-- The loop reads a string of digits, modulo 2^32. -/
lemma asciiToIntFrom_eq_some_iff (hr : r ≠ -1) :
    asciiToIntFrom m n a (Int32.ofNat v) = some r ↔ ∃ s, StringAt m a s ∧ s.length < n ∧
      (∀ c ∈ s, isDigit c = true) ∧ r = Int32.ofNat (valueFrom v s) := by
  induction n generalizing a v with
  | zero => simp [asciiToIntFrom]
  | succ n ih =>
    rw [asciiToIntFrom]
    split_ifs with hz hd
    · -- the string ends here
      constructor
      · intro h
        refine ⟨[], hz, Nat.zero_lt_succ n, by simp, ?_⟩
        exact (Option.some.inj h).symm
      · rintro ⟨s, hs, -, -, rfl⟩
        rw [hs.unique (t := []) hz]
        rfl
    · constructor
      · intro h
        exact absurd (Option.some.inj h).symm hr
      · rintro ⟨s, hs, -, hdigits, -⟩
        cases s with
        | nil => exact absurd hs hz
        | cons c s =>
          have hc := hdigits c (by simp)
          rw [isDigit_iff, ← hs.1] at hc
          exact absurd hd hc
    · have hstep : Int32.ofNat v * 10 + Int32.ofNat ((m a).toNat - 0x30) =
          Int32.ofNat (v * 10 + digit (m a)) := by
        rw [Int32.ofNat_add, Int32.ofNat_mul]
        rfl
      rw [hstep, ih]
      constructor
      · rintro ⟨s, hs, hlen, hdigits, rfl⟩
        refine ⟨m a :: s, ⟨rfl, hz, hs⟩, Nat.succ_lt_succ hlen, ?_, rfl⟩
        intro c hc
        rcases List.mem_cons.mp hc with rfl | hc
        · exact isDigit_iff.mpr hd
        · exact hdigits c hc
      · rintro ⟨s, hs, hlen, hdigits, rfl⟩
        cases s with
        | nil => exact absurd hs hz
        | cons c s =>
          obtain ⟨rfl, -, hs⟩ := hs
          refine ⟨s, hs, Nat.lt_of_succ_lt_succ hlen, ?_, rfl⟩
          intro c hc
          exact hdigits c (by simp [hc])

/-- `ascii_to_int` reads a decimal number, modulo 2^32. -/
theorem asciiToInt_eq_some_iff (hr : r ≠ -1) : asciiToInt m a = some r ↔
    ∃ s, StringAt m a s ∧ s.length < addressSpace ∧ IsNumber s ∧ r = Int32.ofNat (value s) := by
  rw [asciiToInt]
  split_ifs with hz
  · constructor
    · intro h
      exact absurd (Option.some.inj h).symm hr
    · rintro ⟨s, hs, -, hnum, -⟩
      exact absurd (hs.unique (t := []) hz) hnum.1
  · have hzero : (0 : Int32) = Int32.ofNat 0 := rfl
    rw [hzero, asciiToIntFrom_eq_some_iff hr]
    constructor
    · rintro ⟨s, hs, hlen, hdigits, hval⟩
      refine ⟨s, hs, hlen, ⟨?_, hdigits⟩, hval⟩
      rintro rfl
      exact hz hs
    · rintro ⟨s, hs, hlen, hnum, hval⟩
      exact ⟨s, hs, hlen, hnum.2, hval⟩

/-- A digit is no space. -/
lemma IsNumber.space_notMem (h : IsNumber s) : (0x20 : UInt8) ∉ s := by
  intro hs
  have hd := h.2 _ hs
  revert hd
  decide

end Numbers

/-! ### Reading a command -/

section Command

variable {m : Memory} {msg a i n : Nat} {x y : Int32} {s t p q : List UInt8}

lemma judge_eq_iff {pid priority : Int32} : judge pid priority = .setPriority x y ↔
    pid ≠ -1 ∧ priority ≠ -1 ∧ pid = x ∧ priority = y := by
  rw [judge]
  split_ifs with hpid hpri
  · simp [hpid]
  · simp [hpri]
  · simp [hpid, hpri]

lemma splitAtSpace_end (h : StringAt m (msg + i) s) (hs : (0x20 : UInt8) ∉ s) (hn : s.length < n) :
    splitAtSpace m msg n i = some (i + s.length, m) := by
  induction s generalizing i n with
  | nil =>
    obtain ⟨n, rfl⟩ : ∃ k, n = k + 1 := Nat.exists_eq_add_one_of_ne_zero (Nat.ne_of_gt hn)
    rw [splitAtSpace, if_pos (StringAt.nil_iff.mp h)]
    rfl
  | cons c s ih =>
    obtain ⟨n, rfl⟩ : ∃ k, n = k + 1 := Nat.exists_eq_add_one_of_ne_zero (by omega)
    obtain ⟨hc, hne, hrest⟩ := h
    rw [List.mem_cons, not_or] at hs
    rw [splitAtSpace, hc, if_neg hne, if_neg (Ne.symm hs.1), ih hrest hs.2 (by simpa using hn)]
    rw [List.length_cons, Nat.add_assoc, Nat.add_comm 1]

lemma splitAtSpace_space (h : StringAt m (msg + i) (p ++ 0x20 :: q)) (hp : (0x20 : UInt8) ∉ p)
    (hn : p.length < n) : splitAtSpace m msg n i =
      some (i + p.length, Function.update m (msg + (i + p.length)) 0) := by
  induction p generalizing i n with
  | nil =>
    obtain ⟨n, rfl⟩ : ∃ k, n = k + 1 := Nat.exists_eq_add_one_of_ne_zero (Nat.ne_of_gt hn)
    rw [splitAtSpace, h.1, if_neg (by decide), if_pos rfl]
    rfl
  | cons c p ih =>
    obtain ⟨n, rfl⟩ : ∃ k, n = k + 1 := Nat.exists_eq_add_one_of_ne_zero (by omega)
    obtain ⟨hc, hne, hrest⟩ := h
    rw [List.mem_cons, not_or] at hp
    rw [splitAtSpace, hc, if_neg hne, if_neg (Ne.symm hp.1), ih hrest hp.2 (by simpa using hn)]
    rw [List.length_cons, Nat.add_assoc i 1, Nat.add_comm 1]

/-- The test of the first three characters. -/
lemma prefix_iff (h : StringAt m msg t) :
    ¬ (m msg ≠ 0x25 ∨ m (msg + 1) ≠ 0x43 ∨ m (msg + 2) ≠ 0x20) ↔ ∃ s, t = commandPrefix ++ s := by
  rw [not_or, not_or, not_not, not_not, not_not]
  constructor
  · rintro ⟨h₀, h₁, h₂⟩
    cases t with
    | nil => exact absurd (h₀.symm.trans h) (by decide)
    | cons c t =>
      obtain ⟨hc, -, h⟩ := h
      cases t with
      | nil => exact absurd (h₁.symm.trans h) (by decide)
      | cons d t =>
        obtain ⟨hd, -, h⟩ := h
        cases t with
        | nil => exact absurd (h₂.symm.trans h) (by decide)
        | cons e t =>
          refine ⟨t, ?_⟩
          rw [← hc, ← hd, ← h.1, h₀, h₁, h₂]
          rfl
  · rintro ⟨s, rfl⟩
    exact ⟨h.1, h.2.2.1, h.2.2.2.2.1⟩

lemma firstNumber_of_space (hp : (0x20 : UInt8) ∉ p) : firstNumber (commandPrefix ++ (p ++ 0x20 :: q)) = p := by
  have hall : ∀ c ∈ p, decide (c ≠ 0x20) = true := by
    intro c hc
    refine decide_eq_true ?_
    rintro rfl
    exact hp hc
  rw [firstNumber, List.drop_left, List.takeWhile_append_of_pos hall]
  simp

lemma firstNumber_of_notMem (hs : (0x20 : UInt8) ∉ s) : firstNumber (commandPrefix ++ s) = s := by
  rw [firstNumber, List.drop_left, List.takeWhile_eq_self_iff]
  intro c hc
  refine decide_eq_true ?_
  rintro rfl
  exact hs hc

lemma firstNumber_length_le : (firstNumber (commandPrefix ++ s)).length ≤ s.length := by
  rw [firstNumber, List.drop_left]
  exact (List.takeWhile_prefix _).length_le

lemma cutText_of_gt (ha : msg + splitIndex t < a) : cutText m msg t a = m a :=
  Function.update_of_ne (by omega) _ _

lemma stringAt_cutText_iff (ha : msg + splitIndex t < a) : StringAt (cutText m msg t) a s ↔ StringAt m a s := by
  constructor
  · intro h
    exact h.frame fun x hx _ => (cutText_of_gt (by omega)).symm
  · intro h
    exact h.frame fun x hx _ => cutText_of_gt (by omega)

/-- The first number ends at the null. -/
lemma stringAt_firstNumber (h : StringAt m msg (commandPrefix ++ s)) :
    StringAt (cutText m msg (commandPrefix ++ s)) (msg + 3) (firstNumber (commandPrefix ++ s)) := by
  have hs : StringAt m (msg + 3) s := h.of_append
  have hthree : commandPrefix.length = 3 := rfl
  rw [cutText, splitIndex, hthree, firstNumber, List.drop_left]
  rw [← List.takeWhile_append_dropWhile (p := (· ≠ 0x20)) (l := s)] at hs
  apply hs.cut
  · intro x _ hx
    exact Function.update_of_ne (by omega) _ _
  · rw [Nat.add_assoc]
    exact Function.update_self ..

/-- A null is put at the first space. -/
lemma splitAtSpace_eq (h : StringAt m msg (commandPrefix ++ s)) (hn : s.length < n) : splitAtSpace m msg n 3 =
    some (splitIndex (commandPrefix ++ s), cutText m msg (commandPrefix ++ s)) := by
  have hs : StringAt m (msg + 3) s := h.of_append
  by_cases hsp : (0x20 : UInt8) ∈ s
  · obtain ⟨p, q, rfl, hp⟩ := List.eq_append_cons_of_mem hsp
    rw [List.length_append] at hn
    rw [cutText, splitIndex, firstNumber_of_space hp]
    exact splitAtSpace_space hs hp (by omega)
  · have hend := hs.null
    rw [Nat.add_assoc] at hend
    have hcut : cutText m msg (commandPrefix ++ s) = m := by
      rw [cutText, splitIndex, firstNumber_of_notMem hsp]
      exact Function.update_eq_self_iff.mpr hend.symm
    rw [hcut, splitIndex, firstNumber_of_notMem hsp]
    exact splitAtSpace_end hs hsp hn

/-- What the handler does with a text behind the prefix. -/
lemma priorityCommand_eq (h : StringAt m msg (commandPrefix ++ s)) (hlen : s.length < addressSpace) :
    priorityCommand m msg = do
      let pid ← asciiToInt (cutText m msg (commandPrefix ++ s)) (msg + 3)
      let priority ← asciiToInt (cutText m msg (commandPrefix ++ s)) (msg + (splitIndex (commandPrefix ++ s) + 1))
      return (judge pid priority, cutText m msg (commandPrefix ++ s)) := by
  rw [priorityCommand, if_neg ((prefix_iff h).mpr ⟨s, rfl⟩), splitAtSpace_eq h hlen]
  rfl

/-- With both numbers found, what the handler goes on with. -/
lemma verdict_iff {m₁ : Memory} {a b : Nat} (hp : StringAt m₁ a p) (hlen : p.length < addressSpace) :
    (∃ m', (do
        let pid ← asciiToInt m₁ a
        let priority ← asciiToInt m₁ b
        return (judge pid priority, m₁)) = some (Verdict.setPriority x y, m')) ↔
      IsNumber p ∧ ¬ IsMinusOne p ∧ x = Int32.ofNat (value p) ∧
        ∃ q, StringAt m₁ b q ∧ q.length < addressSpace ∧ IsNumber q ∧ ¬ IsMinusOne q ∧
          y = Int32.ofNat (value q) := by
  constructor
  · rintro ⟨m', h⟩
    obtain ⟨pid, hpid, h⟩ := Option.bind_eq_some_iff.mp h
    obtain ⟨priority, hpri, h⟩ := Option.bind_eq_some_iff.mp h
    obtain ⟨hjudge, -⟩ := Prod.mk.inj (Option.some.inj h)
    obtain ⟨hx, hy, rfl, rfl⟩ := judge_eq_iff.mp hjudge
    obtain ⟨p', hp', -, hnum, rfl⟩ := (asciiToInt_eq_some_iff hx).mp hpid
    obtain ⟨q, hq, hql, hqn, rfl⟩ := (asciiToInt_eq_some_iff hy).mp hpri
    obtain rfl := hp.unique hp'
    rw [ne_eq, ofNat_eq_minusOne_iff] at hx hy
    exact ⟨hnum, hx, rfl, q, hq, hql, hqn, hy, rfl⟩
  · rintro ⟨hnum, hx, rfl, q, hq, hql, hqn, hy, rfl⟩
    rw [← ofNat_eq_minusOne_iff] at hx hy
    rw [(asciiToInt_eq_some_iff hx).mpr ⟨p, hp, hlen, hnum, rfl⟩,
      (asciiToInt_eq_some_iff hy).mpr ⟨q, hq, hql, hqn, rfl⟩]
    refine ⟨m₁, ?_⟩
    simp only [Option.bind_eq_bind, Option.bind_some]
    rw [judge_eq_iff.mpr ⟨hx, hy, rfl, rfl⟩]
    rfl

/-- When `set_process_priority` is called, and with which numbers. -/
theorem priorityCommand_iff (h : Holds m msg t) :
    (∃ m', priorityCommand m msg = some (.setPriority x y, m')) ↔
      (∃ p q, IsCommand t p q ∧ ¬ IsMinusOne p ∧ ¬ IsMinusOne q ∧
        x = Int32.ofNat (value p) ∧ y = Int32.ofNat (value q)) ∨
      ∃ p q, t = commandPrefix ++ p ∧ p.length = 60 ∧ IsNumber p ∧ ¬ IsMinusOne p ∧
        StringAt m (msg + 64) q ∧ q.length < addressSpace ∧ IsNumber q ∧ ¬ IsMinusOne q ∧
          x = Int32.ofNat (value p) ∧ y = Int32.ofNat (value q) := by
  have hspace : 63 < addressSpace := by decide
  by_cases hpre : ∃ s, t = commandPrefix ++ s
  · obtain ⟨s, rfl⟩ := hpre
    have hlen := h.length
    have hthree : commandPrefix.length = 3 := rfl
    rw [List.length_append, hthree] at hlen
    have hs : StringAt m (msg + 3) s := h.string.of_append
    have hfirst := firstNumber_length_le (s := s)
    have hbehind : msg + splitIndex (commandPrefix ++ s) < msg + (splitIndex (commandPrefix ++ s) + 1) := by omega
    rw [priorityCommand_eq h.string (by omega), verdict_iff (stringAt_firstNumber h.string) (by omega)]
    simp only [stringAt_cutText_iff hbehind]
    by_cases hsp : (0x20 : UInt8) ∈ s
    · -- the second number stands behind the first space
      obtain ⟨p, q, rfl, hp⟩ := List.eq_append_cons_of_mem hsp
      rw [List.length_append, List.length_cons] at hlen
      have hright : StringAt m (msg + (3 + p.length + 1)) q := by
        have hq := hs.of_append.2.2
        rwa [Nat.add_assoc, Nat.add_assoc, ← Nat.add_assoc 3] at hq
      rw [splitIndex, firstNumber_of_space hp, hthree]
      constructor
      · rintro ⟨hpn, hpm, hx, q', hq', -, hqn, hqm, hy⟩
        obtain rfl := hright.unique hq'
        exact .inl ⟨p, q, ⟨by simp, hpn, hqn⟩, hpm, hqm, hx, hy⟩
      · rintro (⟨p', q', ⟨ht, hpn, hqn⟩, hpm, hqm, hx, hy⟩ | ⟨p', q', ht, -, hpn, -⟩)
        · rw [List.append_assoc] at ht
          obtain ⟨rfl, rfl⟩ := cut_unique hp hpn.space_notMem (List.append_cancel_left ht)
          exact ⟨hpn, hpm, hx, q, hright, by omega, hqn, hqm, hy⟩
        · have hs' := List.append_cancel_left ht
          exact absurd (hs' ▸ hsp) hpn.space_notMem
    · rw [splitIndex, firstNumber_of_notMem hsp, hthree]
      constructor
      · rintro ⟨hsn, hsm, hx, q, hq, hql, hqn, hqm, hy⟩
        have hfull : s.length = 60 := by
          by_contra hne
          -- the second number is empty
          have hz := h.zero (3 + s.length + 1) (by simp [hthree]) (by omega)
          exact hqn.1 (hq.unique (t := []) hz)
        rw [hfull] at hq
        exact .inr ⟨s, q, rfl, hfull, hsn, hsm, hq, hql, hqn, hqm, hx, hy⟩
      · rintro (⟨p, q, ⟨ht, -, -⟩, -⟩ | ⟨p, q, ht, hpl, hpn, hpm, hq, hql, hqn, hqm, hx, hy⟩)
        · rw [List.append_assoc] at ht
          exact absurd (by simp [List.append_cancel_left ht]) hsp
        · obtain rfl := List.append_cancel_left ht
          rw [hpl]
          exact ⟨hpn, hpm, hx, q, hq, hql, hqn, hqm, hy⟩
  · rw [priorityCommand, if_pos (by_contra fun hne => hpre ((prefix_iff h.string).mp hne))]
    constructor
    · rintro ⟨m', hm'⟩
      cases (Prod.mk.inj (Option.some.inj hm')).1
    · rintro (⟨p, q, ⟨rfl, -, -⟩, -⟩ | ⟨p, q, rfl, -⟩)
      · exact absurd ⟨_, List.append_assoc ..⟩ hpre
      · exact absurd ⟨_, rfl⟩ hpre

lemma toInt_ofNat_value (h : value s < 2147483648) : (Int32.ofNat (value s)).toInt = value s :=
  Int32.toInt_ofNat_of_lt h

lemma not_isMinusOne (h : value s < 2147483648) : ¬ IsMinusOne s := by
  rw [IsMinusOne]
  omega

end Command

variable {m : Memory} {msg : Nat} {t : List UInt8}

/-- `set_process_priority` is called for the commands whose numbers are below 2^31, with these numbers, and
for no other text, unless a number overflows or is read from behind the block. -/
theorem priority_command_exact_iff (h : Holds m msg t) :
    (∀ pid priority, (∃ m', priorityCommand m msg = some (.setPriority pid priority, m')) ↔
      ∃ p q, IsCommand t p q ∧ value p < 2147483648 ∧ value q < 2147483648 ∧
        pid.toInt = value p ∧ priority.toInt = value q) ↔
      ¬ Overflows t ∧ ¬ RunsOn m msg t := by
  simp only [priorityCommand_iff h]
  constructor
  · intro hexact
    constructor
    · rintro ⟨p, q, ⟨rfl, hpn, hqn⟩, hbig, hpm, hqm⟩
      obtain ⟨p', q', ⟨ht, hpn', -⟩, hp', hq', -⟩ :=
        (hexact _ _).mp (.inl ⟨p, q, ⟨rfl, hpn, hqn⟩, hpm, hqm, rfl, rfl⟩)
      rw [List.append_assoc, List.append_assoc] at ht
      obtain ⟨rfl, rfl⟩ :=
        cut_unique hpn.space_notMem hpn'.space_notMem (List.append_cancel_left ht)
      omega
    · rintro ⟨p, q, rfl, hpl, hpn, hpm, hq, hql, hqn, hqm⟩
      obtain ⟨p', q', ⟨ht, -⟩, -⟩ :=
        (hexact _ _).mp (.inr ⟨p, q, rfl, hpl, hpn, hpm, hq, hql, hqn, hqm, rfl, rfl⟩)
      rw [List.append_assoc] at ht
      apply hpn.space_notMem
      simp [List.append_cancel_left ht]
  · rintro ⟨hover, hrun⟩ pid priority
    constructor
    · rintro (⟨p, q, hcmd, hpm, hqm, rfl, rfl⟩ | ⟨p, q, ht, hpl, hpn, hpm, hq, hql, hqn, hqm, -, -⟩)
      · have hsmall : value p < 2147483648 ∧ value q < 2147483648 := by
          by_contra hbig
          exact hover ⟨p, q, hcmd, by omega, hpm, hqm⟩
        exact ⟨p, q, hcmd, hsmall.1, hsmall.2, toInt_ofNat_value hsmall.1, toInt_ofNat_value hsmall.2⟩
      · exact absurd ⟨p, q, ht, hpl, hpn, hpm, hq, hql, hqn, hqm⟩ hrun
    · rintro ⟨p, q, hcmd, hp, hq, hpid, hpri⟩
      refine .inl ⟨p, q, hcmd, not_isMinusOne hp, not_isMinusOne hq, ?_, ?_⟩
      · rw [← Int32.toInt_inj, hpid, toInt_ofNat_value hp]
      · rw [← Int32.toInt_inj, hpri, toInt_ofNat_value hq]

/-- A message with a text, in memory that is zero elsewhere. -/
def textAt (t : List UInt8) : Memory := strCopy (fun _ => 0) t 64

/-- The command `%C 8 3` -/
def smallCommand : List UInt8 := commandPrefix ++ [0x38] ++ 0x20 :: [0x33]

/-- The command `%C 4294967297 3` -/
def bigCommand : List UInt8 :=
  commandPrefix ++ [0x34, 0x32, 0x39, 0x34, 0x39, 0x36, 0x37, 0x32, 0x39, 0x37] ++ 0x20 :: [0x33]

/-- The command `%C 8 3` is carried out. -/
theorem priority_command_exact_small : Holds (textAt smallCommand) 64 smallCommand ∧
    ∀ pid priority,
      (∃ m', priorityCommand (textAt smallCommand) 64 = some (.setPriority pid priority, m')) ↔
        ∃ p q, IsCommand smallCommand p q ∧ value p < 2147483648 ∧ value q < 2147483648 ∧
          pid.toInt = value p ∧ priority.toInt = value q := by
  have hzero : ∀ i < 64, smallCommand.length ≤ i → textAt smallCommand (64 + i) = 0 := by
    decide +kernel
  have h : Holds (textAt smallCommand) 64 smallCommand :=
    ⟨by decide, by decide +kernel, fun i hi hlt => hzero i hlt hi⟩
  refine ⟨h, (priority_command_exact_iff h).mpr ⟨?_, ?_⟩⟩
  · rintro ⟨p, q, ⟨ht, hpn, -⟩, hbig, -⟩
    rw [smallCommand, List.append_assoc, List.append_assoc] at ht
    obtain ⟨rfl, rfl⟩ :=
      cut_unique (by decide) hpn.space_notMem (List.append_cancel_left ht)
    revert hbig
    decide
  · rintro ⟨p, q, ht, hpl, -⟩
    have hlen := congrArg List.length ht
    rw [List.length_append, hpl] at hlen
    revert hlen
    decide

/-- The command `%C 4294967297 3` is carried out for the process 1. -/
theorem priority_command_overflow : Holds (textAt bigCommand) 64 bigCommand ∧
    (∃ m', priorityCommand (textAt bigCommand) 64 = some (.setPriority 1 3, m')) ∧
    ¬ ∀ pid priority,
      (∃ m', priorityCommand (textAt bigCommand) 64 = some (.setPriority pid priority, m')) ↔
        ∃ p q, IsCommand bigCommand p q ∧ value p < 2147483648 ∧ value q < 2147483648 ∧
          pid.toInt = value p ∧ priority.toInt = value q := by
  have hzero : ∀ i < 64, bigCommand.length ≤ i → textAt bigCommand (64 + i) = 0 := by decide +kernel
  have h : Holds (textAt bigCommand) 64 bigCommand :=
    ⟨by decide, by decide +kernel, fun i hi hlt => hzero i hlt hi⟩
  have hcall : ∃ m', priorityCommand (textAt bigCommand) 64 = some (.setPriority 1 3, m') := by
    refine (priorityCommand_iff h).mpr (.inl ⟨_, _, ⟨rfl, ?_, ?_⟩, ?_, ?_, ?_, ?_⟩)
    · decide
    · decide
    · rw [IsMinusOne]
      decide
    · rw [IsMinusOne]
      decide
    · decide
    · decide
  refine ⟨h, hcall, ?_⟩
  intro hexact
  obtain ⟨p, q, ⟨ht, hpn, -⟩, hp, -⟩ := (hexact 1 3).mp hcall
  rw [bigCommand, List.append_assoc, List.append_assoc] at ht
  obtain ⟨rfl, rfl⟩ := cut_unique (by decide) hpn.space_notMem (List.append_cancel_left ht)
  revert hp
  decide

end RtxKernel
