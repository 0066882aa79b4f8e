import RtxKernel.Kernel.Delivery

/-!
# Delayed messages

A tick moves the messages that are due from the delayed mailbox to the mailbox, in the order in which they
stand there, and the others stay (`checkFrom_due`). The loop goes on with the entry behind the one
it has removed; only when all slots were taken it passes over an entry (`Skips`), which is the one that was
shifted into the freed slot. As long as that entry is not due, the ledger of a history tells for every
tick which messages are moved (`Timed`).
-/

namespace RtxKernel

/-- All slots are taken, and the entry behind the first one that is due is due too. -/
def Skips (due : Nat → Bool) (l : List Nat) : Prop :=
  l.length = memBlockCount ∧ ∃ pre e e' post, l = pre ++ e :: e' :: post ∧
    (∀ x ∈ pre, due x = false) ∧ due e = true ∧ due e' = true

namespace Spec.Kernel

variable {a b : Kernel} {base : Nat} {r : PcbPtr}

lemma rest_eq_nil {pre rest : List Nat} {i : Nat} (hi : i = pre.length ∨ rest = [] ∧ pre.length ≤ i)
    (hout : pre.length + rest.length ≤ i) : rest = [] := by
  rcases hi with rfl | ⟨hr, -⟩
  · exact List.length_eq_zero_iff.mp (by omega)
  · exact hr

/-- One turn for a due entry: it is removed, and so the loop goes on in front of the next entry, or behind
it if that one is not due. -/
lemma deliver_due {pre rest : List Nat} {e : Nat} (hd : a.delayed = pre ++ e :: rest)
    (hskip : ¬ Skips a.isDue a.delayed) (hpre : ∀ x ∈ pre, a.isDue x = false)
    (hdue : a.isDue e = true) :
    a.nextIndex pre.length = pre.length ∨ rest = [] ∧ pre.length ≤ a.nextIndex pre.length ∨
      ∃ e' post, rest = e' :: post ∧ a.isDue e' = false ∧ a.nextIndex pre.length = pre.length + 1 := by
  rw [nextIndex]
  split_ifs with hnext
  · exact .inl rfl
  · right
    cases hrest : rest with
    | nil => exact .inl ⟨rfl, Nat.le_succ _⟩
    | cons e' post =>
      subst hrest
      refine .inr ⟨e', post, rfl, ?_, rfl⟩
      have hfull : a.delayed.length = memBlockCount := by
        by_contra hne
        apply hnext
        refine ⟨hne, ?_⟩
        rw [hd]
        simp
      by_contra hdue'
      exact hskip ⟨hfull, pre, e, e', post, hd, hpre, hdue, by simpa using hdue'⟩

/-- The loop of `check_existing_delayed_message` from slot `i` on, where the entries `pre` in front of
it are not due. -/
theorem checkFrom_due (h : a.Ok base r) {pre rest : List Nat} (hd : a.delayed = pre ++ rest) {i : Nat}
    (hi : i = pre.length ∨ rest = [] ∧ pre.length ≤ i) (hpre : ∀ x ∈ pre, a.isDue x = false)
    (hskip : ¬ Skips a.isDue a.delayed) {n : Nat} {w : UInt32} {moved : List Nat}
    {x : List Nat × UInt32 × Kernel} (hx : checkFrom n i w moved a = some x) :
    x.1 = moved ++ rest.filter a.isDue ∧
      x.2.2.delayed = pre ++ rest.filter (fun e => ! a.isDue e) := by
  induction n generalizing i w moved a pre rest with
  | zero =>
    have hlen := h.delayed_le
    rw [hd, List.length_append] at hlen
    rw [checkFrom] at hx
    split_ifs at hx with hle
    obtain rfl := Option.some.inj hx
    rw [rest_eq_nil hi (hlen.trans hle)] at hd ⊢
    exact ⟨by simp, hd⟩
  | succ n ih =>
    have hlen := h.delayed_le
    rw [hd, List.length_append] at hlen
    rw [checkFrom] at hx
    split_ifs at hx with hle
    · obtain rfl := Option.some.inj hx
      rw [rest_eq_nil hi (hlen.trans hle)] at hd ⊢
      exact ⟨by simp, hd⟩
    cases hget : a.delayed[i]? with
    | none =>
      rw [hget] at hx
      have hout := List.getElem?_eq_none_iff.mp hget
      rw [hd, List.length_append] at hout
      obtain rfl := rest_eq_nil hi hout
      exact ih h hd (.inr ⟨rfl, Nat.le_succ_of_le hout⟩) hpre hskip hx
    | some e =>
      rw [hget] at hx
      dsimp only at hx
      have hin := (List.getElem?_eq_some_iff.mp hget).1
      rw [hd, List.length_append] at hin
      obtain rfl : i = pre.length := by
        rcases hi with hi | ⟨rfl, hle'⟩
        · exact hi
        · exact absurd hin (Nat.not_lt.mpr hle')
      rw [hd, List.getElem?_append_right (Nat.le_refl _), Nat.sub_self, ← List.head?_eq_getElem?] at hget
      obtain ⟨rest, rfl⟩ : ∃ rest', rest = e :: rest' := ⟨_, (List.cons_head?_tail hget).symm⟩
      split_ifs at hx with hdue
      · -- the entry is removed
        have hdue' : a.isDue e = true := by simpa [isDue] using hdue
        obtain ⟨y, hy, hx⟩ := Option.bind_eq_some_iff.mp hx
        have hget' : a.delayed[pre.length]? = some e := by simp [hd]
        obtain ⟨he, hnext, hfields, hmv⟩ := deliver_moves h.sched hget' hdue' hy
        have hdel : y.2.2.2.delayed = pre ++ rest := by
          rw [hfields, withSched_delayed, move, hd,
            List.eraseIdx_append_of_length_le (Nat.le_refl _), Nat.sub_self]
          rfl
        have hsame : y.2.2.2.isDue = a.isDue := isDue_congr hmv.pool hmv.ticks
        have hskip' : ¬ Skips y.2.2.2.isDue y.2.2.2.delayed := by
          rintro ⟨hfull, -⟩
          rw [hdel, List.length_append] at hfull
          rw [List.length_cons] at hlen
          omega
        have hok' := ((h.sweeps w).deliver hy).ok
        rw [← hsame] at hpre
        rw [hnext] at hx
        rcases deliver_due hd hskip (by rwa [hsame] at hpre) hdue' with hi' | ⟨rfl, hi'⟩ |
          ⟨e', post, rfl, hnot, hi'⟩
        · have hrec := ih hok' hdel (.inl hi') hpre hskip' hx
          simpa [hsame, he, hdue'] using hrec
        · have hrec := ih hok' hdel (.inr ⟨rfl, hi'⟩) hpre hskip' hx
          simpa [hsame, he, hdue'] using hrec
        · have hpre' : ∀ x ∈ pre ++ [e'], y.2.2.2.isDue x = false := by
            simpa [hsame, hnot, or_imp, forall_and] using hpre
          have hdel' : y.2.2.2.delayed = pre ++ [e'] ++ post := by simpa using hdel
          have hrec := ih hok' hdel' (.inl (by simpa using hi')) hpre' hskip' hx
          simpa [hsame, he, hdue', hnot] using hrec
      · have hdue' : a.isDue e = false := by simpa [isDue] using hdue
        have hpre' : ∀ x ∈ pre ++ [e], a.isDue x = false := by
          simpa [hdue', or_imp, forall_and] using hpre
        have hd' : a.delayed = pre ++ [e] ++ rest := by simpa using hd
        have hrec := ih h hd' (.inl (by simp)) hpre' hskip hx
        simpa [hdue'] using hrec

end Spec.Kernel

/-! ### The ledger with the clock -/

namespace Message

/-- The time at which `delayed_send` asks for the message to be delivered. -/
def time (m : Message) : Nat := m.sentAt + (m.delay.getD 0).toNat

/-- The tick that delivers a delayed message: the first one after it was sent at which its time has
come. -/
def due (m : Message) : Nat := max m.time (m.sentAt + 1)

end Message

/-- Of the messages accepted by `delayed_send` those wait that are not due, and the others were posted,
tick by tick and in the order in which they were accepted. -/
structure Ledger.Timed (l : Ledger) : Prop where
  now_lt : l.now < UInt32.size
  accepted : ∀ m ∈ l.accepted, m.sentAt ≤ l.now ∧ m.delay.isSome = true ∧ m.time < UInt32.size
  waiting : l.waiting = l.accepted.filter (l.now < ·.due)
  posted : l.posted.filter (·.delay.isSome)
    = (List.range' 1 l.now).flatMap fun t => l.accepted.filter (·.due = t)

namespace Ledger

variable {l : Ledger} {m : Message}

lemma find?_envelope {ms : List Message} (hnd : (ms.map Message.envelope).Nodup) (hm : m ∈ ms) :
    ms.find? (·.envelope = m.envelope) = some m := by
  induction ms with
  | nil => cases hm
  | cons x ms ih =>
    rw [List.map_cons, List.nodup_cons] at hnd
    rcases List.mem_cons.mp hm with rfl | hm
    · simp
    · have hne : x.envelope ≠ m.envelope := by
        intro heq
        exact hnd.1 (heq ▸ List.mem_map_of_mem hm)
      rw [List.find?_cons_of_neg (by simpa using hne), ih hnd.2 hm]

/-- The messages in the envelopes of a filtered list. -/
lemma moved_filter {q : Nat → Bool} (hnd : (l.waiting.map Message.envelope).Nodup) :
    l.moved ((l.waiting.map Message.envelope).filter q) = l.waiting.filter fun m => q m.envelope := by
  have hfind : ∀ ms : List Message, (∀ m ∈ ms, m ∈ l.waiting) →
      (ms.map Message.envelope).filterMap (fun x => l.waiting.find? (·.envelope = x)) = ms := by
    intro ms hms
    induction ms with
    | nil => rfl
    | cons m ms ih =>
      rw [List.map_cons, List.filterMap_cons, find?_envelope hnd (hms m (by simp)),
        ih fun x hx => hms x (by simp [hx])]
  rw [moved, List.filter_map]
  exact hfind _ fun m hm => (List.mem_filter.mp hm).1

namespace Timed

lemma empty : Ledger.empty.Timed where
  now_lt := by decide
  accepted := by simp [Ledger.empty]
  waiting := by simp [Ledger.empty]
  posted := by simp [Ledger.empty]

lemma post (h : l.Timed) (hm : m.delay = none) : Timed { l with posted := l.posted ++ [m] } where
  now_lt := h.now_lt
  accepted := h.accepted
  waiting := h.waiting
  posted := by
    rw [List.filter_append, h.posted]
    simp [hm]

lemma receive (h : l.Timed) (x : Receipt) : Timed { l with received := l.received ++ [x] } :=
  ⟨h.now_lt, h.accepted, h.waiting, h.posted⟩

lemma wait (h : l.Timed) (hm : m.sentAt = l.now) (hd : m.delay.isSome = true)
    (ht : m.time < UInt32.size) :
    Timed { l with accepted := l.accepted ++ [m], waiting := l.waiting ++ [m] } where
  now_lt := h.now_lt
  accepted x hx := by
    rcases List.mem_append.mp hx with hx | hx
    · exact h.accepted x hx
    · rw [List.mem_singleton.mp hx]
      exact ⟨hm.le, hd, ht⟩
  waiting := by
    have hlt : l.now < m.due := by
      rw [Message.due, hm]
      exact Nat.lt_of_lt_of_le (Nat.lt_succ_self _) (Nat.le_max_right _ _)
    rw [List.filter_append, h.waiting]
    simp [hlt]
  posted := by
    rw [h.posted]
    apply List.flatMap_congr
    intro t ht
    have hne : m.due ≠ t := by
      rw [List.mem_range'_1] at ht
      rw [Message.due, hm]
      omega
    rw [List.filter_append]
    simp [hne]

lemma record_timer (l : Ledger) (p : UInt32) (es : List Nat) :
    l.record ⟨p, .timer, .moved es⟩
      = { l with
          now := l.now + 1
          posted := l.posted ++ l.moved es
          waiting := l.waiting.filter (·.envelope ∉ es) } := rfl

/-- With a tick the messages are moved whose time has come. -/
lemma tick (h : l.Timed) (hnow : l.now + 1 < UInt32.size) {q : Nat → Bool}
    (hnd : (l.waiting.map Message.envelope).Nodup)
    (hq : ∀ m ∈ l.waiting, q m.envelope = decide (m.time ≤ l.now + 1)) (p : UInt32) :
    (l.record ⟨p, .timer, .moved ((l.waiting.map Message.envelope).filter q)⟩).Timed := by
  have hdue : ∀ m ∈ l.accepted, m.sentAt + 1 ≤ l.now + 1 := fun m hm =>
    Nat.succ_le_succ (h.accepted m hm).1
  have hmoved : l.moved ((l.waiting.map Message.envelope).filter q)
      = l.accepted.filter (·.due = l.now + 1) := by
    rw [moved_filter hnd, List.filter_congr hq, h.waiting, List.filter_filter]
    apply List.filter_congr
    intro m hm
    have hle := hdue m hm
    rw [← Bool.decide_and, decide_eq_decide, Message.due]
    omega
  rw [record_timer]
  refine ⟨hnow, ?_, ?_, ?_⟩
  · intro m hm
    obtain ⟨hle, hrest⟩ := h.accepted m hm
    exact ⟨Nat.le_succ_of_le hle, hrest⟩
  · have hstay : l.waiting.filter (·.envelope ∉ (l.waiting.map Message.envelope).filter q)
        = l.waiting.filter (¬ ·.time ≤ l.now + 1) := by
      apply List.filter_congr
      intro m hm
      rw [decide_eq_decide, List.mem_filter, hq m hm]
      simp [List.mem_map_of_mem (f := Message.envelope) hm]
    dsimp only
    rw [hstay, h.waiting, List.filter_filter]
    apply List.filter_congr
    intro m hm
    have hle := hdue m hm
    rw [← Bool.decide_and, decide_eq_decide, Message.due]
    omega
  · dsimp only
    rw [List.filter_append, h.posted, hmoved, List.range'_1_concat, List.flatMap_append]
    simp only [List.flatMap_cons, List.flatMap_nil, List.append_nil, List.append_cancel_left_eq]
    rw [List.filter_filter, Nat.add_comm 1]
    apply List.filter_congr
    intro m hm
    simp [(h.accepted m hm).2.1]

end Timed

end Ledger

/-! ### Punctual histories -/

namespace Kernel

/-- The message in slot `i` of the delayed mailbox is due with the next tick. -/
def DueNext (k : Kernel) (i : Nat) : Prop := ∃ e ∈ k.delayedMailbox i, k.sendTime e ≤ k.ticks + 1

/-- With the next tick the loop passes over an entry. -/
def SkipsNext (k : Kernel) : Prop :=
  (∀ j < memBlockCount, (k.delayedMailbox j).isSome = true) ∧
    ∃ i < memBlockCount - 1, (∀ j < i, ¬ k.DueNext j) ∧ k.DueNext i ∧ k.DueNext (i + 1)

/-- The clock does not wrap around while a message is delayed. -/
def InTime (k : Kernel) : Op → Prop
  | .delayedSend _ _ delay => k.ticks.toNat + delay.toNat < UInt32.size
  | .timer => k.ticks.toNat + 1 < UInt32.size
  | _ => True

def Timely (k : Kernel) (op : Op) : Prop := k.Disciplined op ∧ k.InTime op

/-- The operations of histories in which no entry is passed over. -/
def Punctual (k : Kernel) (op : Op) : Prop := k.Timely op ∧ (op = .timer → ¬ k.SkipsNext)

instance (k : Kernel) (i : Nat) : Decidable (k.DueNext i) :=
  inferInstanceAs (Decidable (∃ e ∈ k.delayedMailbox i, k.sendTime e ≤ k.ticks + 1))

instance (k : Kernel) : Decidable k.SkipsNext :=
  inferInstanceAs (Decidable ((∀ j < memBlockCount, (k.delayedMailbox j).isSome = true) ∧
    ∃ i < memBlockCount - 1, (∀ j < i, ¬ k.DueNext j) ∧ k.DueNext i ∧ k.DueNext (i + 1)))

instance (k : Kernel) : (op : Op) → Decidable (k.InTime op)
  | .delayedSend _ _ delay => inferInstanceAs (Decidable (k.ticks.toNat + delay.toNat < UInt32.size))
  | .timer => inferInstanceAs (Decidable (k.ticks.toNat + 1 < UInt32.size))
  | .releaseProcessor | .block _ | .unblockByPid _ _ | .unblockByType _ | .setPriority _ _ | .send _ _
  | .receive | .request | .release _ | .store _ _ | .terminate | .uart _ => .isTrue trivial

instance (k : Kernel) (op : Op) : Decidable (k.Timely op) :=
  inferInstanceAs (Decidable (k.Disciplined op ∧ k.InTime op))

instance (k : Kernel) (op : Op) : Decidable (k.Punctual op) :=
  inferInstanceAs (Decidable (k.Timely op ∧ (op = .timer → ¬ k.SkipsNext)))

end Kernel

variable {priority : Fin 6 → UInt8} {base : Nat} {k₀ k k' : Kernel} {a : Spec.Kernel} {r : PcbPtr}
  {es : List Event} {e : Event} {pending : List Message}

namespace Delivers

/-- The abstract kernel with which the loop of the next tick is entered. -/
def ticking (a : Spec.Kernel) : Spec.Kernel := { a with ticks := a.ticks + 1 }

lemma isDue_ticking (h : KernelRep k a) (x : Nat) :
    (ticking a).isDue x = decide (k.sendTime x ≤ k.ticks + 1) := by
  rw [h.sendTime, h.ticks]
  rfl

lemma skipsNext (h : KernelRep k a) (hs : Skips (ticking a).isDue a.delayed) : k.SkipsNext := by
  obtain ⟨hfull, pre, e, e', post, hd, hpre, he, he'⟩ := hs
  have hslot : ∀ j, k.delayedMailbox j = a.delayed[j]? := h.delayed
  have hdue : ∀ j x, a.delayed[j]? = some x → (k.DueNext j ↔ (ticking a).isDue x = true) := by
    intro j x hx
    rw [isDue_ticking h, decide_eq_true_iff, Kernel.DueNext, hslot, hx]
    simp
  have hlen : pre.length + 1 < memBlockCount := by
    rw [← hfull, hd]
    simp
  refine ⟨?_, pre.length, Nat.lt_sub_of_add_lt hlen, ?_, ?_, ?_⟩
  · intro j hj
    rw [hslot, List.getElem?_eq_getElem (hfull ▸ hj)]
    rfl
  · intro j hj hnext
    have hget : a.delayed[j]? = some pre[j] := by
      rw [hd, List.getElem?_append_left hj, List.getElem?_eq_getElem hj]
    rw [hdue j _ hget, hpre _ (List.getElem_mem hj)] at hnext
    cases hnext
  · exact (hdue _ e (by simp [hd])).mpr he
  · exact (hdue _ e' (by simp [hd])).mpr he'

/-- A message that waits is due with the next tick if its time has come. -/
lemma isDue_iff (h : Delivers priority base es k a r pending) (ht : (Ledger.of es).Timed)
    (hnow : (Ledger.of es).now + 1 < UInt32.size) {m : Message} (hm : m ∈ (Ledger.of es).waiting) :
    (ticking a).isDue m.envelope = decide (m.time ≤ (Ledger.of es).now + 1) := by
  obtain ⟨d, hd, hs⟩ := h.keeps.sendTime m hm
  have hacc := hm
  rw [ht.waiting] at hacc
  have hlt := (ht.accepted m (List.mem_filter.mp hacc).1).2.2
  simp only [Message.time, hd, Option.getD_some] at hlt ⊢
  have hsend : (a.sendTime m.envelope).toNat = m.sentAt + d.toNat := by
    rw [hs, UInt32.toNat_add, UInt32.toNat_ofNat_of_lt' (Nat.lt_of_le_of_lt (Nat.le_add_right _ _) hlt),
      Nat.add_comm]
    exact Nat.mod_eq_of_lt hlt
  have hticks : (a.ticks + 1).toNat = (Ledger.of es).now + 1 := by
    rw [h.keeps.ticks, UInt32.toNat_add, UInt32.toNat_ofNat_of_lt' ht.now_lt]
    exact Nat.mod_eq_of_lt hnow
  change decide (a.sendTime m.envelope ≤ a.ticks + 1) = _
  rw [decide_eq_decide, UInt32.le_iff_toNat_le, hsend, hticks]

lemma toNat_ticks (h : Delivers priority base es k a r pending) (ht : (Ledger.of es).Timed) :
    k.ticks.toNat = (Ledger.of es).now := by
  rw [h.rep.ticks, h.keeps.ticks]
  exact UInt32.toNat_ofNat_of_lt' ht.now_lt

/-- What a tick moves, and what it leaves. -/
lemma tick (h : Delivers priority base es k a r pending) (hskip : ¬ k.SkipsNext) {new : List Nat}
    {w : UInt32} {b : Spec.Kernel}
    (hb : Spec.Kernel.checkFrom (2 * memBlockCount) 0 4 [] (ticking a) = some (new, w, b)) :
    new = a.delayed.filter (ticking a).isDue ∧
      b.delayed = a.delayed.filter fun e => ! (ticking a).isDue e := by
  have hok : (ticking a).Ok base r := h.ok.withTicks (a.ticks + 1)
  have hnot : ¬ Skips (ticking a).isDue (ticking a).delayed := fun hs => hskip (skipsNext h.rep hs)
  have hd : (ticking a).delayed = [] ++ a.delayed := rfl
  exact Spec.Kernel.checkFrom_due hok hd (.inl rfl) (by simp) hnot hb

lemma timed (h : Delivers priority base es k a r pending) (ht : (Ledger.of es).Timed)
    (hs : k.StepIf Kernel.Punctual e k') : (Ledger.of (es ++ [e])).Timed := by
  obtain ⟨hcaller, ⟨⟨⟨hp, -⟩, htime⟩, hskip⟩, hcall⟩ := hs
  obtain ⟨b, r', hp', hy, -, -⟩ := h.toSafe.step ⟨hcaller, hp, hcall⟩
  have he := h.ok.effect hy
  have hticks := h.toNat_ticks ht
  rw [Ledger.of_snoc]
  obtain ⟨caller, op, reply⟩ := e
  cases he with
  | quiet s hq =>
    rw [Ledger.record_of_isQuiet _ hq]
    exact ht
  | sent s hb => exact ht.post rfl
  | @delayed pid delay x b hb =>
    have hlt : (Ledger.of es).now + delay.toNat < UInt32.size := hticks ▸ htime
    exact ht.wait (m := ⟨x, caller, pid, _, some delay⟩) rfl rfl hlt
  | received he hrx hfirst => exact ht.receive _
  | granted hp => exact ht
  | released s hc hx ho => exact ht
  | stored => exact ht
  | @ticked new w b s hb =>
    obtain ⟨rfl, -⟩ := h.tick (hskip rfl) hb
    have hnow : (Ledger.of es).now + 1 < UInt32.size := hticks ▸ htime
    have hnd := h.posted.nodup.of_append_right
    rw [h.keeps.delayed] at hnd ⊢
    exact ht.tick hnow hnd (fun m hm => h.isDue_iff ht hnow hm) caller
  | typedLost hp => exact ht
  | typed s hp hb => exact ht

lemma of_punctual_run (hprio : ∀ i, priority i ≤ 4) (hb : boot priority base = some k₀)
    (h : Run (Kernel.StepIf Kernel.Punctual) k₀ es k) :
    ∃ a r pending, Delivers priority base es k a r pending ∧ (Ledger.of es).Timed := by
  apply h.history (I := fun es k => ∃ a r pending,
    Delivers priority base es k a r pending ∧ (Ledger.of es).Timed)
  · obtain ⟨a, r, pending, hd⟩ := Delivers.of_run hprio hb (.nil k₀)
    exact ⟨a, r, pending, hd, .empty⟩
  · rintro es k e k' ⟨a, r, pending, hd, ht⟩ hs
    obtain ⟨b, r', pending', hd'⟩ := hd.step ⟨hs.1, hs.2.1.1.1, hs.2.2⟩
    exact ⟨b, r', pending', hd', hd.timed ht hs⟩

lemma effect_timer {b : Spec.Kernel} {reply : Reply} (h : a.Effect .timer reply b) :
    ∃ new w c s, reply = .moved new ∧ b = c.withSched s ∧
      Spec.Kernel.checkFrom (2 * memBlockCount) 0 4 [] (ticking a) = some (new, w, c) := by
  cases h with
  | quiet s hq => cases hq
  | ticked s hb => exact ⟨_, _, _, s, rfl, rfl, hb⟩

/-- A tick, in the code. -/
lemma timer (h : Delivers priority base es k a r pending) (hskip : ¬ k.SkipsNext) :
    ∃ k', k.call .timer = some (.moved (a.delayed.filter fun x => k.sendTime x ≤ k.ticks + 1), k') ∧
      Packed k'.mailbox (a.mailbox ++ a.delayed.filter fun x => k.sendTime x ≤ k.ticks + 1) ∧
      Packed k'.delayedMailbox (a.delayed.filter fun x => k.ticks + 1 < k.sendTime x) := by
  have hdue : (ticking a).isDue = fun x => decide (k.sendTime x ≤ k.ticks + 1) :=
    funext (isDue_ticking h.rep)
  obtain ⟨reply, k', hk'⟩ := h.call_isSome .timer trivial
  obtain ⟨b, r', -, hy, hs', -⟩ :=
    h.toSafe.step (e := ⟨k.currentPid, .timer, reply⟩) ⟨rfl, trivial, hk'⟩
  obtain ⟨new, w, c, s, rfl, rfl, hb⟩ := effect_timer (h.ok.effect hy)
  have hok : (ticking a).Ok base r := h.ok.withTicks (a.ticks + 1)
  obtain ⟨hnew, hstay⟩ := h.tick hskip hb
  obtain ⟨new', hnew', hmv⟩ := Spec.Kernel.checkFrom_moves hok hb
  obtain rfl : new = new' := hnew'
  have hmail : Packed k'.mailbox (a.mailbox ++ new) := by
    have hpacked := hs'.rep.mailbox
    rwa [Spec.Kernel.withSched_mailbox, hmv.mailbox] at hpacked
  have hdel : Packed k'.delayedMailbox (a.delayed.filter fun x => k.ticks + 1 < k.sendTime x) := by
    have hpacked := hs'.rep.delayed
    rw [Spec.Kernel.withSched_delayed, hstay, hdue] at hpacked
    simpa only [← decide_not, UInt32.not_le] using hpacked
  rw [hdue] at hnew
  subst hnew
  exact ⟨k', hk', hmail, hdel⟩

end Delivers

/-- Messages that are posted tick by tick are posted in the order in which they are due. -/
lemma Ledger.Timed.pairwise {l : Ledger} (h : l.Timed) (p : UInt32) :
    (l.posted.filter fun m => m.receiver = p ∧ m.delay.isSome).Pairwise fun m m' => m.due ≤ m'.due := by
  have hposted : (l.posted.filter (·.delay.isSome)).Pairwise fun m m' => m.due ≤ m'.due := by
    rw [h.posted, List.pairwise_flatMap]
    constructor
    · intro t ht
      apply List.pairwise_of_forall_mem_list
      intro m hm m' hm'
      rw [of_decide_eq_true (List.mem_filter.mp hm).2, of_decide_eq_true (List.mem_filter.mp hm').2]
    · apply (List.pairwise_lt_range' 1).imp
      intro t t' hlt m hm m' hm'
      rw [of_decide_eq_true (List.mem_filter.mp hm).2, of_decide_eq_true (List.mem_filter.mp hm').2]
      exact hlt.le
  have hfilter := hposted.filter (fun m => m.receiver = p)
  rw [List.filter_filter] at hfilter
  simpa using hfilter

/-- As long as no entry is passed over, each tick moves the messages that are due to the mailbox, in the
order in which they wait, and the others stay. So the delayed messages have been posted that are due by
now, each with the first tick after it was sent at which its time had come, and those of one tick in the
order in which they were sent; and each process receives them in that order. -/
theorem delayed_delivered (hprio : ∀ i, priority i ≤ 4) (hboot : boot priority base = some k₀)
    (h : Run (Kernel.StepIf Kernel.Punctual) k₀ es k) :
    k.ticks.toNat = (Ledger.of es).now ∧
    Packed k.delayedMailbox (((Ledger.of es).accepted.filter fun m => (Ledger.of es).now < m.due).map
      Message.envelope) ∧
    ((Ledger.of es).posted.filter (·.delay.isSome) = (List.range' 1 (Ledger.of es).now).flatMap fun t =>
      (Ledger.of es).accepted.filter (·.due = t)) ∧
    (∀ p, (Ledger.of es).receivedBy p <+: (Ledger.of es).postedTo p ∧
      ((Ledger.of es).posted.filter fun m => m.receiver = p ∧ m.delay.isSome).Pairwise
        fun m m' => m.due ≤ m'.due) ∧
    (¬ k.SkipsNext → ∃ mailbox delayed k', Packed k.mailbox mailbox ∧
      Packed k.delayedMailbox delayed ∧
      k.call .timer = some (.moved (delayed.filter fun x => k.sendTime x ≤ k.ticks + 1), k') ∧
      Packed k'.mailbox (mailbox ++ delayed.filter fun x => k.sendTime x ≤ k.ticks + 1) ∧
      Packed k'.delayedMailbox (delayed.filter fun x => k.ticks + 1 < k.sendTime x)) := by
  obtain ⟨a, r, pending, hd, ht⟩ := Delivers.of_punctual_run hprio hboot h
  refine ⟨hd.toNat_ticks ht, ?_, ht.posted, ?_, ?_⟩
  · rw [← ht.waiting, ← hd.keeps.delayed]
    exact hd.rep.delayed
  · intro p
    refine ⟨?_, ht.pairwise p⟩
    rw [hd.keeps.fifo p]
    exact List.prefix_append _ _
  · intro hskip
    obtain ⟨k', hk', hmail, hdel⟩ := hd.timer hskip
    exact ⟨a.mailbox, a.delayed, k', hd.rep.mailbox, hd.rep.delayed, hk', hmail, hdel⟩

/-- Three delayed messages to one process, which receives them in two turns. -/
theorem delayed_delivered_thrice : ∃ k₀ es k, boot (fun _ => 2) 4096 = some k₀ ∧
    Run (Kernel.StepIf Kernel.Punctual) k₀ es k ∧
    (Ledger.of es).receivedBy 10 = [⟨4224, 9, 10⟩, ⟨4352, 9, 10⟩, ⟨4096, 9, 10⟩] ∧
    ((Ledger.of es).posted.filter (·.delay.isSome)
      = (List.range' 1 (Ledger.of es).now).flatMap fun t =>
        (Ledger.of es).accepted.filter (·.due = t)) := by
  obtain ⟨k₀, es, k, hboot, hrun, -, hrec⟩ := exists_run_of_boot Kernel.Punctual (fun _ => 2) 4096
    [.receive, .receive, .receive, .receive, .receive, .request, .request, .request,
      .delayedSend 10 4096 2, .delayedSend 10 4224 1, .delayedSend 10 4352 1, .timer, .receive,
      .receive, .receive, .timer, .receive]
    (fun es _ => (Ledger.of es).receivedBy 10 = [⟨4224, 9, 10⟩, ⟨4352, 9, 10⟩, ⟨4096, 9, 10⟩])
    (by decide +kernel)
  exact ⟨k₀, es, k, hboot, hrun, of_decide_eq_true hrec,
    (delayed_delivered (fun _ => by decide) hboot hrun).2.2.1⟩

/-- The messages of one tick are not sorted by their times: without a delay the second one is delivered
with the same tick as the first. And of 30 messages that are due with one tick, the second one stays. -/
theorem delayed_out_of_order :
    (¬ ∀ k₀ es k, boot (fun _ => 2) 4096 = some k₀ → Run (Kernel.StepIf Kernel.Timely) k₀ es k →
      ((Ledger.of es).posted.filter fun m => m.receiver = 10 ∧ m.delay.isSome).Pairwise
        fun m m' => m.time ≤ m'.time) ∧
    ¬ ∀ k₀ es k, boot (fun _ => 2) 4096 = some k₀ → Run (Kernel.StepIf Kernel.Timely) k₀ es k →
      ∀ m ∈ (Ledger.of es).waiting, (Ledger.of es).now < m.due := by
  constructor
  · intro hall
    obtain ⟨k₀, es, k, hboot, hrun, -, hnot⟩ := exists_run_of_boot Kernel.Timely (fun _ => 2) 4096
      [.receive, .receive, .receive, .receive, .receive, .request, .request,
        .delayedSend 10 4096 1, .delayedSend 10 4224 0, .timer]
      (fun es _ => ¬ ((Ledger.of es).posted.filter fun m => m.receiver = 10 ∧ m.delay.isSome).Pairwise
        fun m m' => m.time ≤ m'.time) (by decide +kernel)
    exact of_decide_eq_true hnot (hall k₀ es k hboot hrun)
  · intro hall
    obtain ⟨k₀, es, k, hboot, hrun, -, hnot⟩ := exists_run_of_boot Kernel.Timely (fun _ => 2) 4096
      ([.receive, .receive, .receive, .receive, .receive] ++ List.replicate 30 .request ++
        (List.range 30).map (fun i => .delayedSend 10 (4096 + i * memBlockSize) 1) ++ [.timer])
      (fun es _ => ¬ ∀ m ∈ (Ledger.of es).waiting, (Ledger.of es).now < m.due) (by decide +kernel)
    exact of_decide_eq_true hnot (hall k₀ es k hboot hrun)

end RtxKernel
