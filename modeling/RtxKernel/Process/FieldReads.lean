import RtxKernel.Process.PrioritySwitch
import RtxKernel.Process.Serial

/-!
# What the loops over a text read

The text of a message has a field of 64 bytes, and no loop that walks it counts them: `str_copy` and the loop
of the CRT process go on up to a null, the search of the priority command up to a null or a space, and
`ascii_to_int` up to a null or a character that is no digit. Here are the addresses that they read. What
they compute depends on no other byte (`strCopyLoop_congr`, `priorityCommand_congr`).
-/

namespace RtxKernel

/-- What `str_copy` reads from `src`; it writes to the same indices of the destination. -/
def strCopyReads (src : Memory) (a : Nat) : List Nat := reads (fun c => c = 0) src addressSpace a

/-- What the loop of the process `crt` reads. -/
def crtReads (m : Memory) (msg : Nat) : List Nat := reads (fun c => c = 0) m addressSpace msg

/-- What the search for the space reads. -/
def splitReads (m : Memory) (a : Nat) : List Nat := reads (fun c => c = 0 ∨ c = 0x20) m addressSpace a

/-- What `ascii_to_int` reads. -/
def asciiReads (m : Memory) (a : Nat) : List Nat :=
  reads (fun c => c = 0 ∨ c < 0x30 ∨ 0x39 < c) m addressSpace a

/-- What `priority_switch_command_handler` reads of the text at `msg`. -/
def priorityReads (m : Memory) (msg : Nat) : List Nat :=
  if m msg ≠ 0x25 then [msg]
  else if m (msg + 1) ≠ 0x43 then [msg, msg + 1]
  else if m (msg + 2) ≠ 0x20 then [msg, msg + 1, msg + 2]
  else [msg, msg + 1, msg + 2] ++ splitReads m (msg + 3) ++
    match splitAtSpace m msg addressSpace 3 with
    | none => []
    | some (i, m') => asciiReads m' (msg + 3) ++ asciiReads m' (msg + (i + 1))

/-- The field of the text at `a` is not left. -/
def InField (a : Nat) (l : List Nat) : Prop := ∀ x ∈ l, x < a + msgSize

/-- The text of 63 characters has only one number. -/
def LacksNumber (t : List UInt8) : Prop :=
  t.length = 63 ∧ ∃ s, t = commandPrefix ++ s ∧ (0x20 : UInt8) ∉ s

section Loops

variable {src src' m m' m₁ : Memory} {a b i j n v msg x : Nat} {r : Int32} {t : List UInt8}

/-! ### The reads are all -/

lemma strCopyLoop_reads (h : ∀ x ∈ reads (fun c => c = 0) src n i, src' x = src x) :
    strCopyLoop src' n i m = strCopyLoop src n i m := by
  induction n generalizing i m with
  | zero => rfl
  | succ n ih =>
    rw [reads, List.forall_mem_cons] at h
    rw [strCopyLoop, strCopyLoop, h.1]
    by_cases hz : src i = 0
    · rw [if_pos hz, if_pos hz]
    · rw [if_neg hz] at h
      rw [if_neg hz, if_neg hz, ih h.2]

/-- The copy depends only on the bytes that are read. -/
theorem strCopyLoop_congr (h : ∀ x ∈ strCopyReads src a, src' x = src x) :
    strCopyLoop src' addressSpace a m = strCopyLoop src addressSpace a m :=
  strCopyLoop_reads h

lemma asciiToIntFrom_reads
    (h : ∀ x ∈ reads (fun c => c = 0 ∨ c < 0x30 ∨ 0x39 < c) m n a, m' x = m x) :
    asciiToIntFrom m' n a r = asciiToIntFrom m n a r := by
  induction n generalizing a r with
  | zero => rfl
  | succ n ih =>
    rw [reads, List.forall_mem_cons] at h
    rw [asciiToIntFrom, asciiToIntFrom, h.1]
    by_cases hz : m a = 0
    · rw [if_pos hz, if_pos hz]
    · rw [if_neg hz, if_neg hz]
      by_cases hd : m a < 0x30 ∨ 0x39 < m a
      · rw [if_pos hd, if_pos hd]
      · rw [if_neg (not_or.mpr ⟨hz, hd⟩)] at h
        rw [if_neg hd, if_neg hd, ih h.2]

lemma asciiToInt_congr (h : ∀ x ∈ asciiReads m a, m' x = m x) : asciiToInt m' a = asciiToInt m a := by
  have ha : m' a = m a := by
    apply h
    apply start_mem_reads
    decide
  rw [asciiToInt, asciiToInt, ha, asciiToIntFrom_reads h]

/-- The search ends in the same place, and writes the same byte. -/
lemma splitAtSpace_congr (h : ∀ x ∈ reads (fun c => c = 0 ∨ c = 0x20) m n (msg + i), m' x = m x)
    (hs : splitAtSpace m msg n i = some (j, m₁)) :
    ∃ m₁', splitAtSpace m' msg n i = some (j, m₁') ∧ ∀ x, m' x = m x → m₁' x = m₁ x := by
  induction n generalizing i with
  | zero => cases hs
  | succ n ih =>
    rw [reads, List.forall_mem_cons] at h
    rw [splitAtSpace] at hs ⊢
    rw [h.1]
    by_cases hz : m (msg + i) = 0
    · rw [if_pos hz] at hs ⊢
      cases hs
      exact ⟨m', rfl, fun _ hx => hx⟩
    · rw [if_neg hz] at hs ⊢
      by_cases hsp : m (msg + i) = 0x20
      · rw [if_pos hsp] at hs ⊢
        cases hs
        refine ⟨_, rfl, ?_⟩
        intro x hx
        rw [Function.update_apply, Function.update_apply, hx]
      · rw [if_neg hsp] at hs ⊢
        rw [if_neg (not_or.mpr ⟨hz, hsp⟩)] at h
        exact ih h.2 hs

/-- What is made of a command depends only on the bytes that are read. -/
theorem priorityCommand_congr {v : Verdict} (h : ∀ x ∈ priorityReads m msg, m' x = m x)
    (hm : priorityCommand m msg = some (v, m₁)) :
    ∃ m₁', priorityCommand m' msg = some (v, m₁') ∧ ∀ x, m' x = m x → m₁' x = m₁ x := by
  rw [priorityReads] at h
  rw [priorityCommand] at hm ⊢
  by_cases h₀ : m msg ≠ 0x25
  · rw [if_pos h₀, List.forall_mem_singleton] at h
    rw [if_pos (.inl h₀)] at hm
    rw [h, if_pos (.inl h₀)]
    cases hm
    exact ⟨m', rfl, fun _ hx => hx⟩
  rw [if_neg h₀] at h
  by_cases h₁ : m (msg + 1) ≠ 0x43
  · rw [if_pos h₁, List.forall_mem_cons, List.forall_mem_singleton] at h
    rw [if_pos (.inr (.inl h₁))] at hm
    rw [h.1, h.2, if_pos (.inr (.inl h₁))]
    cases hm
    exact ⟨m', rfl, fun _ hx => hx⟩
  rw [if_neg h₁] at h
  by_cases h₂ : m (msg + 2) ≠ 0x20
  · rw [if_pos h₂, List.forall_mem_cons, List.forall_mem_cons, List.forall_mem_singleton] at h
    rw [if_pos (.inr (.inr h₂))] at hm
    rw [h.1, h.2.1, h.2.2, if_pos (.inr (.inr h₂))]
    cases hm
    exact ⟨m', rfl, fun _ hx => hx⟩
  have hpre : ¬ (m msg ≠ 0x25 ∨ m (msg + 1) ≠ 0x43 ∨ m (msg + 2) ≠ 0x20) :=
    not_or.mpr ⟨h₀, not_or.mpr ⟨h₁, h₂⟩⟩
  rw [if_neg h₂, List.forall_mem_append, List.forall_mem_append] at h
  obtain ⟨⟨hstart, hsplit⟩, hnumbers⟩ := h
  rw [List.forall_mem_cons, List.forall_mem_cons, List.forall_mem_singleton] at hstart
  rw [if_neg hpre] at hm
  rw [hstart.1, hstart.2.1, hstart.2.2, if_neg hpre]
  obtain ⟨⟨i, m₂⟩, hs, hm⟩ := Option.bind_eq_some_iff.mp hm
  obtain ⟨m₂', hs', hframe⟩ := splitAtSpace_congr hsplit hs
  rw [hs, List.forall_mem_append] at hnumbers
  obtain ⟨hfirst, hsecond⟩ := hnumbers
  obtain ⟨pid, hpid, hm⟩ := Option.bind_eq_some_iff.mp hm
  obtain ⟨priority, hpriority, hm⟩ := Option.bind_eq_some_iff.mp hm
  cases hm
  refine ⟨m₂', ?_, hframe⟩
  rw [hs', Option.bind_eq_bind, Option.bind_some]
  dsimp only
  rw [asciiToInt_congr fun x hx => hframe x (hfirst x hx), hpid, Option.bind_eq_bind, Option.bind_some]
  rw [asciiToInt_congr fun x hx => hframe x (hsecond x hx), hpriority]
  rfl

end Loops

/-! ### The reads are in the field -/

section Field

variable {m m' m₁ : Memory} {a b i j n msg x : Nat} {s t : List UInt8} {k l : List Nat}

lemma InField.append (hk : InField a k) (hl : InField a l) : InField a (k ++ l) := by
  intro x hx
  rcases List.mem_append.mp hx with hx | hx
  · exact hk x hx
  · exact hl x hx

lemma inField_reads_iff {stop : UInt8 → Prop} [DecidablePred stop] (h : a ≤ b) :
    InField a (reads stop m addressSpace b) ↔ ∃ x, b ≤ x ∧ x < a + msgSize ∧ stop (m x) := by
  have hpos : 0 < addressSpace := by decide
  have hsize : msgSize < addressSpace := by decide
  apply reads_lt_iff hpos
  omega

/-- A string with its null in the field is read within it. -/
lemma inField_strCopyReads_iff : InField a (strCopyReads m a) ↔ Ends m a msgSize := by
  rw [strCopyReads, inField_reads_iff (Nat.le_refl a)]
  constructor
  · rintro ⟨x, hax, hx, hz⟩
    obtain ⟨i, rfl⟩ := Nat.exists_eq_add_of_le hax
    exact ⟨i, Nat.lt_of_add_lt_add_left hx, hz⟩
  · rintro ⟨i, hi, hz⟩
    exact ⟨a + i, Nat.le_add_right a i, Nat.add_lt_add_left hi a, hz⟩

lemma inField_crtReads_iff : InField a (crtReads m a) ↔ Ends m a msgSize := inField_strCopyReads_iff

/-- The search and `ascii_to_int` stop at a null. -/
lemma inField_splitReads (hx : b ≤ x) (hxa : x < a + msgSize) (hz : m x = 0) (h : a ≤ b) :
    InField a (splitReads m b) := (inField_reads_iff h).mpr ⟨x, hx, hxa, .inl hz⟩

lemma inField_asciiReads (hx : b ≤ x) (hxa : x < a + msgSize) (hz : m x = 0) (h : a ≤ b) :
    InField a (asciiReads m b) := (inField_reads_iff h).mpr ⟨x, hx, hxa, .inl hz⟩

/-- `ascii_to_int` reads a byte behind the field if it is started there. -/
lemma not_inField_asciiReads (h : a + msgSize ≤ b) : ¬ InField a (asciiReads m b) := by
  intro hall
  have hb : b < a + msgSize := by
    apply hall
    apply start_mem_reads
    decide
  exact absurd hb (Nat.not_lt_of_le h)

/-- A text that does not start with `%C` and a space -/
lemma priorityReads_of_ne (h : m msg ≠ 0x25 ∨ m (msg + 1) ≠ 0x43 ∨ m (msg + 2) ≠ 0x20) :
    ∀ x ∈ priorityReads m msg, x < msg + 3 := by
  rw [priorityReads]
  split_ifs with h₀ h₁ h₂
  · simp
  · simp
  · simp
  · rcases h with h | h | h
    · exact absurd h h₀
    · exact absurd h h₁
    · exact absurd h h₂

lemma priorityReads_of_eq (h : ¬ (m msg ≠ 0x25 ∨ m (msg + 1) ≠ 0x43 ∨ m (msg + 2) ≠ 0x20))
    (hs : splitAtSpace m msg addressSpace 3 = some (i, m₁)) :
    priorityReads m msg = [msg, msg + 1, msg + 2] ++ splitReads m (msg + 3) ++
      (asciiReads m₁ (msg + 3) ++ asciiReads m₁ (msg + (i + 1))) := by
  rw [not_or, not_or] at h
  rw [priorityReads, if_neg h.1, if_neg h.2.1, if_neg h.2.2, hs]

/-- The handler reads in the field, unless the text is full and has only one number. -/
theorem inField_priorityReads_iff (h : Holds m msg t) :
    InField msg (priorityReads m msg) ↔ ¬ LacksNumber t := by
  have hsize : msgSize = 64 := rfl
  have hspace : 63 < addressSpace := by decide
  have hlen := h.length
  by_cases hpre : ∃ s, t = commandPrefix ++ s
  · obtain ⟨s, rfl⟩ := hpre
    have hthree : commandPrefix.length = 3 := rfl
    rw [List.length_append, hthree] at hlen
    have hs : StringAt m (msg + 3) s := h.string.of_append
    have hfirst := firstNumber_length_le (s := s)
    have hindex : splitIndex (commandPrefix ++ s) = 3 + (firstNumber (commandPrefix ++ s)).length := rfl
    have hend := hs.null
    rw [priorityReads_of_eq ((prefix_iff h.string).mpr ⟨s, rfl⟩) (splitAtSpace_eq h.string (by omega)),
      ← List.append_assoc]
    -- the first number ends in the text
    have hleft : InField msg ([msg, msg + 1, msg + 2] ++ splitReads m (msg + 3) ++
        asciiReads (cutText m msg (commandPrefix ++ s)) (msg + 3)) := by
      apply InField.append
      · apply InField.append
        · intro x hx
          simp only [List.mem_cons, List.not_mem_nil, or_false] at hx
          omega
        · exact inField_splitReads (Nat.le_add_right _ _) (by omega) hend (by omega)
      · exact inField_asciiReads (x := msg + splitIndex (commandPrefix ++ s)) (by omega) (by omega)
          (Function.update_self ..) (by omega)
    by_cases hsp : (0x20 : UInt8) ∈ s
    · -- so does the second one
      obtain ⟨p, q, rfl, hp⟩ := List.eq_append_cons_of_mem hsp
      rw [firstNumber_of_space hp] at hindex
      rw [List.length_append, List.length_cons] at hlen hend
      constructor
      · rintro - ⟨-, s', heq, hsp'⟩
        rw [List.append_cancel_left heq] at hsp
        exact hsp' hsp
      · intro _
        apply hleft.append
        apply inField_asciiReads (x := msg + 3 + (p.length + (q.length + 1))) (by omega) (by omega)
        · rw [cutText_of_gt (by omega)]
          exact hend
        · omega
    · -- the second number is looked for behind the null
      rw [firstNumber_of_notMem hsp] at hindex
      constructor
      · rintro hall ⟨hfull, -⟩
        rw [List.length_append, hthree] at hfull
        apply not_inField_asciiReads (a := msg) (b := msg + (splitIndex (commandPrefix ++ s) + 1))
          (m := cutText m msg (commandPrefix ++ s)) (by omega)
        intro x hx
        exact hall x (List.mem_append_right _ hx)
      · intro hlacks
        have hne : s.length ≠ 60 := by
          intro hfull
          apply hlacks
          refine ⟨?_, s, rfl, hsp⟩
          rw [List.length_append, hfull, hthree]
        apply hleft.append
        apply inField_asciiReads (Nat.le_refl _) (by omega)
        · rw [cutText_of_gt (by omega)]
          apply h.zero
          · rw [List.length_append, hthree]
            omega
          · omega
        · omega
  · constructor
    · rintro - ⟨-, s, hs, -⟩
      exact hpre ⟨s, hs⟩
    · intro _ x hx
      have hlt := priorityReads_of_ne (by_contra fun hne => hpre ((prefix_iff h.string).mp hne)) x hx
      omega

/-- The handler writes nothing but a null into the text before the answer. -/
lemma splitAtSpace_zero (hs : splitAtSpace m msg n i = some (j, m₁)) (hz : m x = 0) : m₁ x = 0 := by
  induction n generalizing i with
  | zero => cases hs
  | succ n ih =>
    rw [splitAtSpace] at hs
    split_ifs at hs
    · cases hs
      exact hz
    · cases hs
      rw [Function.update_apply]
      split_ifs
      · rfl
      · exact hz
    · exact ih hs

lemma priorityCommand_zero {v : Verdict} (h : priorityCommand m msg = some (v, m₁)) (hz : m x = 0) :
    m₁ x = 0 := by
  rw [priorityCommand] at h
  split_ifs at h
  · cases h
    exact hz
  · obtain ⟨⟨i, m₂⟩, hs, h⟩ := Option.bind_eq_some_iff.mp h
    obtain ⟨pid, -, h⟩ := Option.bind_eq_some_iff.mp h
    obtain ⟨priority, -, h⟩ := Option.bind_eq_some_iff.mp h
    cases h
    exact splitAtSpace_zero hs hz

/-- Every answer fits into the field with a null. -/
lemma Verdict.answer_length (v : Verdict) (success : UInt32) :
    (bytes (v.answer success)).length < msgSize := by
  cases v with
  | invalidCommand =>
    rw [Verdict.answer]
    decide
  | invalidPid =>
    rw [Verdict.answer]
    decide
  | invalidPriority =>
    rw [Verdict.answer]
    decide
  | setPriority pid priority =>
    rw [Verdict.answer]
    split_ifs
    · decide
    · decide

/-- The CRT process reads the answer in the field. -/
lemma inField_answer {v : Verdict} (h : Holds m msg t) (hm : priorityCommand m msg = some (v, m₁))
    (success : UInt32) : InField msg (crtReads (v.write success m₁ msg) msg) := by
  have hlen := v.answer_length success
  have hsize : msgSize = 64 := rfl
  rw [inField_crtReads_iff]
  refine ⟨63, by decide, ?_⟩
  rw [Verdict.write, strCopy_of_ge (by omega)]
  exact priorityCommand_zero hm (h.zero 63 h.length (by decide))

end Field

end RtxKernel
