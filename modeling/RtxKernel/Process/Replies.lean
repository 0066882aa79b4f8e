import RtxKernel.Process.PrioritySwitch

/-!
# The replies to the priority command

The handler of the priority command copies its reply over the command, with `str_copy`, which writes no null. So the
reply ends where the command did, or at the space in place of which a null was put; otherwise the rest of the command
stands behind it (`replies_clean_iff`).
-/

namespace RtxKernel

/-- The replies of `priority_switch_command_handler` -/
def replies : List String :=
  ["Command was invalid\n\r", "PID was invalid\n\r", "Priority was invalid\n\r",
    "Cannot change that process to that priority\n\r", "Priority change successful\n\r"]

/-- A turn of `priority_switch_command_handler`: the memory when the envelope is sent to the CRT process, where
`success` is what `set_process_priority` returns. -/
def priorityReply (m : Memory) (msg : Nat) (success : UInt32) : Option Memory := do
  let (v, m) ← priorityCommand m msg
  return v.write success m msg

/-- The envelope is sent, and its text is a reply. -/
def CleanReply (m : Memory) (msg : Nat) (success : UInt32) : Prop :=
  ∃ m', priorityReply m msg success = some m' ∧ ∃ s ∈ replies, StringAt m' msg (bytes s)

/-- A number that `ascii_to_int` does not take for an error -/
def IsTaken (s : List UInt8) : Prop := IsNumber s ∧ ¬ IsMinusOne s

/-- Such a number stands at `a`. -/
def NumberAt (m : Memory) (a : Nat) : Prop := ∃ s, StringAt m a s ∧ s.length < addressSpace ∧ IsTaken s

/-- The digits that stand at `a` come to an end. -/
def Stops (m : Memory) (a : Nat) : Prop := ∃ j < addressSpace, isDigit (m (a + j)) = false

/-- At the index `n` the command has a null, or the space in place of which a null is put. -/
def EndsAt (m : Memory) (msg : Nat) (t : List UInt8) (n : Nat) : Prop := m (msg + n) = 0 ∨ n = splitIndex t

/-- Behind the reply to the command `t` there is a null: the five replies have 21, 17, 22, 45 and 28 characters. -/
structure EndsReply (m : Memory) (msg : Nat) (t : List UInt8) (success : UInt32) : Prop where
  invalidCommand : ¬ commandPrefix <+: t → m (msg + 21) = 0
  stops : commandPrefix <+: t → Stops m (msg + (splitIndex t + 1))
  invalidPid : commandPrefix <+: t → ¬ IsTaken (firstNumber t) → EndsAt m msg t 17
  invalidPriority : commandPrefix <+: t → IsTaken (firstNumber t) → ¬ NumberAt m (msg + (splitIndex t + 1)) →
    EndsAt m msg t 22
  refused : commandPrefix <+: t → IsTaken (firstNumber t) → NumberAt m (msg + (splitIndex t + 1)) → success ≠ 0 →
    EndsAt m msg t 45
  changed : commandPrefix <+: t → IsTaken (firstNumber t) → NumberAt m (msg + (splitIndex t + 1)) → success = 0 →
    EndsAt m msg t 28

/-! ### The text that is sent -/

section Write

variable {m m₁ : Memory} {msg : Nat} {success : UInt32} {v : Verdict}

/-- No reply begins with another one. -/
lemma replies_prefix : ∀ s ∈ replies, ∀ s' ∈ replies, bytes s <+: bytes s' → bytes s = bytes s' := by
  decide +kernel

lemma replies_length : replies.map (fun s => (bytes s).length) = [21, 17, 22, 45, 28] := by
  decide +kernel

lemma replies_no_null : ∀ s ∈ replies, (0 : UInt8) ∉ bytes s := by
  decide +kernel

lemma Verdict.answer_mem (v : Verdict) (success : UInt32) : v.answer success ∈ replies := by
  cases v with
  | setPriority pid priority =>
    rw [Verdict.answer]
    split_ifs <;> simp [replies]
  | _ => simp [Verdict.answer, replies]

/-- The text is a reply if a null stands behind the answer that is written. -/
lemma cleanReply_iff_of_command (h : priorityCommand m msg = some (v, m₁)) :
    CleanReply m msg success ↔ m₁ (msg + (bytes (v.answer success)).length) = 0 := by
  have hmem := v.answer_mem success
  have hnull := replies_no_null _ hmem
  have hsent : priorityReply m msg success = some (v.write success m₁ msg) := by
    rw [priorityReply, h]
    rfl
  constructor
  · rintro ⟨m', hm', s, hs, hstring⟩
    obtain rfl := Option.some.inj (hsent.symm.trans hm')
    obtain ⟨w, hw, hend⟩ := (stringAt_strCopy_iff hnull).mp hstring
    have heq := replies_prefix _ hmem s hs ⟨w, hw.symm⟩
    rw [← heq, List.self_eq_append_right] at hw
    subst hw
    exact hend
  · intro hend
    exact ⟨_, hsent, _, hmem, (stringAt_strCopy_iff hnull).mpr ⟨[], (List.append_nil _).symm, hend⟩⟩

end Write

/-! ### What is read of a command -/

lemma StringAt.stops {m : Memory} {a : Nat} {p : List UInt8} (h : StringAt m a p) (hlen : p.length < addressSpace) :
    Stops m a := by
  refine ⟨p.length, hlen, ?_⟩
  rw [h.null]
  rfl

section Command

variable {m : Memory} {msg a n : Nat} {value₀ r : Int32} {s t : List UInt8}

lemma asciiToIntFrom_isSome_iff :
    (asciiToIntFrom m n a value₀).isSome = true ↔ ∃ j < n, isDigit (m (a + j)) = false := by
  induction n generalizing a value₀ with
  | zero => simp [asciiToIntFrom]
  | succ n ih =>
    have hdigit : isDigit (m a) = false ↔ m a < 0x30 ∨ 0x39 < m a := by
      rw [← Bool.not_eq_true, isDigit_iff, not_not]
    rw [asciiToIntFrom]
    split_ifs with hz hd
    · refine iff_of_true rfl ⟨0, Nat.succ_pos n, ?_⟩
      rw [Nat.add_zero, hz]
      rfl
    · exact iff_of_true rfl ⟨0, Nat.succ_pos n, hdigit.mpr hd⟩
    · rw [ih]
      constructor
      · rintro ⟨j, hj, h⟩
        refine ⟨j + 1, Nat.succ_lt_succ hj, ?_⟩
        rwa [Nat.add_comm j, ← Nat.add_assoc]
      · rintro ⟨j, hj, h⟩
        cases j with
        | zero => exact absurd (hdigit.mp h) hd
        | succ j =>
          refine ⟨j, Nat.lt_of_succ_lt_succ hj, ?_⟩
          rwa [Nat.add_comm j, ← Nat.add_assoc] at h

/-- `ascii_to_int` returns if the digits come to an end. -/
lemma asciiToInt_isSome_iff : (asciiToInt m a).isSome = true ↔ Stops m a := by
  rw [asciiToInt]
  split_ifs with hz
  · refine iff_of_true rfl ⟨0, by decide, ?_⟩
    rw [Nat.add_zero, hz]
    rfl
  · exact asciiToIntFrom_isSome_iff

lemma asciiToInt_ne_iff (h : asciiToInt m a = some r) : r ≠ -1 ↔ NumberAt m a := by
  constructor
  · intro hr
    obtain ⟨s, hs, hlen, hnum, rfl⟩ := (asciiToInt_eq_some_iff hr).mp h
    exact ⟨s, hs, hlen, hnum, mt ofNat_eq_minusOne_iff.mpr hr⟩
  · rintro ⟨s, hs, hlen, hnum, hone⟩
    have hr : Int32.ofNat (value s) ≠ -1 := mt ofNat_eq_minusOne_iff.mp hone
    have hread := (asciiToInt_eq_some_iff hr).mpr ⟨s, hs, hlen, hnum, rfl⟩
    rwa [Option.some.inj (h.symm.trans hread)]

lemma cutText_eq_zero_iff : cutText m msg t (msg + n) = 0 ↔ EndsAt m msg t n := by
  rw [cutText, EndsAt]
  by_cases hn : n = splitIndex t
  · subst hn
    simp
  · rw [Function.update_of_ne (by omega)]
    simp [hn]

lemma numberAt_cutText (ha : msg + splitIndex t < a) : NumberAt (cutText m msg t) a ↔ NumberAt m a := by
  simp only [NumberAt, stringAt_cutText_iff ha]

lemma stops_cutText (ha : msg + splitIndex t < a) : Stops (cutText m msg t) a ↔ Stops m a := by
  have hsame : ∀ j, cutText m msg t (a + j) = m (a + j) := fun j => cutText_of_gt (by omega)
  simp only [Stops, hsame]

/-- The first number is read. -/
lemma asciiToInt_firstNumber (h : StringAt m msg (commandPrefix ++ s)) (hlen : s.length < addressSpace) :
    ∃ pid, asciiToInt (cutText m msg (commandPrefix ++ s)) (msg + 3) = some pid ∧
      (pid ≠ -1 ↔ IsTaken (firstNumber (commandPrefix ++ s))) := by
  have hfirst := stringAt_firstNumber h
  have hfirstlen := Nat.lt_of_le_of_lt firstNumber_length_le hlen
  obtain ⟨pid, hpid⟩ := Option.isSome_iff_exists.mp (asciiToInt_isSome_iff.mpr (hfirst.stops hfirstlen))
  refine ⟨pid, hpid, ?_⟩
  rw [asciiToInt_ne_iff hpid]
  constructor
  · rintro ⟨p, hp, -, htaken⟩
    exact hfirst.unique hp ▸ htaken
  · intro htaken
    exact ⟨_, hfirst, hfirstlen, htaken⟩

end Command

/-! ### When a reply is clean -/

section Replies

variable {m : Memory} {msg n : Nat} {success : UInt32} {t : List UInt8} {pid priority : Int32}

/-- In a message that holds nothing but the command, the reply ends if it is not the shorter one, or if it ends where
the null is put. -/
lemma Holds.endsAt_iff (h : Holds m msg t) (hn : n < 64) : EndsAt m msg t n ↔ t.length ≤ n ∨ n = splitIndex t := by
  have hzero : m (msg + n) = 0 ↔ t.length ≤ n := by
    constructor
    · intro hz
      by_contra hlt
      have hstring : StringAt m (msg + (t.take n).length) (t.drop n) := by
        apply StringAt.of_append
        rw [List.take_append_drop]
        exact h.string
      rw [List.length_take_of_le (Nat.le_of_not_le hlt)] at hstring
      have hnil := hstring.unique (t := []) hz
      rw [List.drop_eq_nil_iff] at hnil
      exact hlt hnil
    · intro hle
      exact h.zero n hle hn
  rw [EndsAt, hzero]

/-- A text without the prefix -/
lemma cleanReply_iff_of_invalid (h : StringAt m msg t) (hpre : ¬ commandPrefix <+: t) :
    CleanReply m msg success ↔ m (msg + 21) = 0 := by
  have hcmd : priorityCommand m msg = some (.invalidCommand, m) := by
    rw [priorityCommand, if_pos]
    · rfl
    · by_contra hne
      obtain ⟨s, rfl⟩ := (prefix_iff h).mp hne
      exact hpre (List.prefix_append _ _)
  have hlen : (bytes "Command was invalid\n\r").length = 21 := (List.cons.inj replies_length).1
  rw [cleanReply_iff_of_command hcmd, Verdict.answer, hlen]

/-- A text with the prefix whose numbers are read -/
lemma cleanReply_iff_of_judge (hcmd : priorityCommand m msg = some (judge pid priority, cutText m msg t)) :
    CleanReply m msg success ↔
      (pid = -1 → EndsAt m msg t 17) ∧ (pid ≠ -1 → priority = -1 → EndsAt m msg t 22) ∧
        (pid ≠ -1 → priority ≠ -1 → success ≠ 0 → EndsAt m msg t 45) ∧
        (pid ≠ -1 → priority ≠ -1 → success = 0 → EndsAt m msg t 28) := by
  have hlen := replies_length
  simp only [replies, List.map_cons, List.map_nil, List.cons.injEq, and_true] at hlen
  obtain ⟨-, hpidlen, hprilen, hrefusedlen, hchangedlen⟩ := hlen
  rw [cleanReply_iff_of_command hcmd, cutText_eq_zero_iff, judge]
  by_cases hpid : pid = -1
  · simp [hpid, Verdict.answer, hpidlen]
  · by_cases hpri : priority = -1
    · simp [hpid, hpri, Verdict.answer, hprilen]
    · by_cases hs : success = 0
      · simp [hpid, hpri, hs, Verdict.answer, hchangedlen]
      · simp [hpid, hpri, hs, Verdict.answer, hrefusedlen]

end Replies

/-- The reply to a command is clean if a null, or the space in place of which a null is put, stands right behind it, and
only then. -/
theorem replies_clean_iff {m : Memory} {msg : Nat} {t : List UInt8} (h : StringAt m msg t) (hlen : t.length ≤ 63)
    (success : UInt32) : CleanReply m msg success ↔ EndsReply m msg t success := by
  by_cases hpre : commandPrefix <+: t
  · obtain ⟨s, rfl⟩ := hpre
    have hpre : commandPrefix <+: commandPrefix ++ s := List.prefix_append _ _
    have hspace : 63 < addressSpace := by decide
    rw [List.length_append] at hlen
    obtain ⟨pid, hpid, htaken⟩ := asciiToInt_firstNumber h (by omega)
    have hcmd := priorityCommand_eq h (by omega)
    rw [hpid] at hcmd
    have hbehind : msg + splitIndex (commandPrefix ++ s) < msg + (splitIndex (commandPrefix ++ s) + 1) := by omega
    have hstops := asciiToInt_isSome_iff.trans (stops_cutText (m := m) hbehind)
    cases hpri : asciiToInt (cutText m msg (commandPrefix ++ s)) (msg + (splitIndex (commandPrefix ++ s) + 1)) with
    | none =>
      -- the handler does not come to its reply
      rw [hpri] at hcmd hstops
      constructor
      · rintro ⟨m', hm', -⟩
        rw [priorityReply, hcmd] at hm'
        cases hm'
      · intro hends
        cases hstops.mpr (hends.stops hpre)
    | some priority =>
      have hnumber := (asciiToInt_ne_iff hpri).trans (numberAt_cutText (m := m) hbehind)
      rw [hpri] at hcmd hstops
      rw [cleanReply_iff_of_judge hcmd]
      constructor
      · rintro ⟨hinvalidPid, hinvalid, hrefused, hchanged⟩
        refine ⟨fun hne => absurd hpre hne, fun _ => hstops.mp rfl, ?_, ?_, ?_, ?_⟩
        · intro _ hp
          exact hinvalidPid (not_not.mp (mt htaken.mp hp))
        · intro _ hp hn
          exact hinvalid (htaken.mpr hp) (not_not.mp (mt hnumber.mp hn))
        · intro _ hp hn
          exact hrefused (htaken.mpr hp) (hnumber.mpr hn)
        · intro _ hp hn
          exact hchanged (htaken.mpr hp) (hnumber.mpr hn)
      · intro hends
        refine ⟨?_, ?_, ?_, ?_⟩
        · intro hp
          exact hends.invalidPid hpre (mt htaken.mpr (not_not.mpr hp))
        · intro hp hn
          exact hends.invalidPriority hpre (htaken.mp hp) (mt hnumber.mpr (not_not.mpr hn))
        · intro hp hn
          exact hends.refused hpre (htaken.mp hp) (hnumber.mp hn)
        · intro hp hn
          exact hends.changed hpre (htaken.mp hp) (hnumber.mp hn)
  · rw [cleanReply_iff_of_invalid h hpre]
    constructor
    · intro hz
      exact ⟨fun _ => hz, fun hc => absurd hc hpre, fun hc => absurd hc hpre, fun hc => absurd hc hpre,
        fun hc => absurd hc hpre, fun hc => absurd hc hpre⟩
    · intro hends
      exact hends.invalidCommand hpre

/-- The reply to `%C 8 3` is longer than the command. -/
theorem replies_clean_small : StringAt (textAt smallCommand) 64 smallCommand ∧ smallCommand.length ≤ 63 ∧
    CleanReply (textAt smallCommand) 64 0 := by
  have h : StringAt (textAt smallCommand) 64 smallCommand := by decide +kernel
  have hlen : smallCommand.length ≤ 63 := by decide
  have hstops : Stops (textAt smallCommand) (64 + (splitIndex smallCommand + 1)) := ⟨1, by decide, by decide +kernel⟩
  have hzero : ∀ n ∈ [17, 21, 22, 28, 45], textAt smallCommand (64 + n) = 0 := by decide +kernel
  refine ⟨h, hlen, (replies_clean_iff h hlen 0).mpr ⟨?_, fun _ => hstops, ?_, ?_, ?_, ?_⟩⟩
  · exact fun _ => hzero 21 (by simp)
  · exact fun _ _ => .inl (hzero 17 (by simp))
  · exact fun _ _ _ => .inl (hzero 22 (by simp))
  · exact fun _ _ _ _ => .inl (hzero 45 (by simp))
  · exact fun _ _ _ _ => .inl (hzero 28 (by simp))

/-- The command `%C wallclock display 2` -/
def nameCommand : List UInt8 := commandPrefix ++ bytes "wallclock display 2"

/-- The reply to it is followed by the rest of the command. -/
theorem replies_not_clean : Holds (textAt nameCommand) 64 nameCommand ∧
    (∃ m', priorityReply (textAt nameCommand) 64 0 = some m' ∧ StringAt m' 64 (bytes "PID was invalid\n\rlay 2")) ∧
    ¬ ∀ m msg t success, StringAt m msg t → t.length ≤ 63 → CleanReply m msg success := by
  have hzero : ∀ i < 64, nameCommand.length ≤ i → textAt nameCommand (64 + i) = 0 := by decide +kernel
  have h : Holds (textAt nameCommand) 64 nameCommand :=
    ⟨by decide +kernel, by decide +kernel, fun i hi hlt => hzero i hlt hi⟩
  have hspace : (bytes "wallclock display 2").length < addressSpace := by decide +kernel
  obtain ⟨pid, hpid, htaken⟩ := asciiToInt_firstNumber h.string hspace
  have hno : ¬ IsTaken (firstNumber nameCommand) := by
    rintro ⟨hnum, -⟩
    revert hnum
    decide +kernel
  obtain rfl : pid = -1 := not_not.mp (mt htaken.mp hno)
  have hstops : Stops (cutText (textAt nameCommand) 64 nameCommand) (64 + (splitIndex nameCommand + 1)) :=
    ⟨0, by decide, by decide +kernel⟩
  obtain ⟨priority, hpri⟩ := Option.isSome_iff_exists.mp (asciiToInt_isSome_iff.mpr hstops)
  have hcmd : priorityCommand (textAt nameCommand) 64 =
      some (judge (-1) priority, cutText (textAt nameCommand) 64 nameCommand) := by
    rw [priorityCommand_eq h.string hspace, hpid]
    exact Option.bind_eq_some_iff.mpr ⟨-1, rfl, Option.bind_eq_some_iff.mpr ⟨priority, hpri, rfl⟩⟩
  have hjudge : judge (-1) priority = .invalidPid := if_pos rfl
  have hsent : priorityReply (textAt nameCommand) 64 0 =
      some (Verdict.invalidPid.write 0 (cutText (textAt nameCommand) 64 nameCommand) 64) := by
    rw [priorityReply, hcmd, hjudge]
    rfl
  refine ⟨h, ⟨_, hsent, by decide +kernel⟩, ?_⟩
  intro hall
  have hclean := hall _ _ _ 0 h.string h.length
  have hends := ((cleanReply_iff_of_judge hcmd).mp hclean).1 rfl
  rw [h.endsAt_iff (by decide)] at hends
  revert hends
  decide +kernel

end RtxKernel
