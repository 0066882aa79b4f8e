import RtxKernel.Kernel.Ownership
import RtxKernel.Kernel.Delayed

/-!
# Full mailboxes

`send_message` and `delayed_send` return 0 whether or not they have found a free slot, and a tick goes on
with `mailbox[MEM_BLOCK_COUNT]` when it has found none. So a message is kept exactly if there is room for
it: one slot for a call, and for a tick as many as there are messages that it comes across
(`mail_kept_iff`).
-/

namespace RtxKernel

/-- How many slots of an array of `MEM_BLOCK_COUNT` pointers are null. -/
def freeSlots (s : Nat → Option Nat) : Nat :=
  (List.range memBlockCount).countP fun i => s i = none

namespace Kernel

/-- How many messages are due with the next tick. -/
def dueCount (k : Kernel) : Nat := (List.range memBlockCount).countP fun i => k.DueNext i

/-- The mailbox has a slot for every message that the next tick comes across; it passes over one if all
slots of the delayed mailbox are taken and the second message that is due follows the first. -/
def HasRoom (k : Kernel) : Prop :=
  k.dueCount ≤ freeSlots k.mailbox ∨ k.SkipsNext ∧ k.dueCount ≤ freeSlots k.mailbox + 1

/-- From `k` to `k'` no message has got lost, and none was added. -/
def KeepsMail (k k' : Kernel) : Prop :=
  ∀ e, slotsWith k'.mailbox e + slotsWith k'.delayedMailbox e =
    slotsWith k.mailbox e + slotsWith k.delayedMailbox e

instance (k : Kernel) : Decidable k.HasRoom :=
  inferInstanceAs (Decidable (k.dueCount ≤ freeSlots k.mailbox ∨
    k.SkipsNext ∧ k.dueCount ≤ freeSlots k.mailbox + 1))

end Kernel

/-! ### The messages that a tick comes across -/

/-- How many entries of the full list `l` are moved: the entry behind the first one that is due is passed
over. -/
def reached (due : Nat → Bool) : List Nat → Nat
  | [] => 0
  | e :: l => if due e then l.tail.countP due + 1 else reached due l

/-- The entry behind the first one that is due is due too. -/
def TwoDue (due : Nat → Bool) (l : List Nat) : Prop :=
  ∃ pre e e' post, l = pre ++ e :: e' :: post ∧ (∀ x ∈ pre, due x = false) ∧ due e = true ∧ due e' = true

section Reached

variable {due : Nat → Bool} {l : List Nat} {e : Nat}

lemma TwoDue.cons_iff : TwoDue due (e :: l) ↔
    (due e = true ∧ ∃ e' post, l = e' :: post ∧ due e' = true) ∨ due e = false ∧ TwoDue due l := by
  constructor
  · rintro ⟨pre, x, x', post, hl, hpre, hx, hx'⟩
    cases pre with
    | nil =>
      obtain ⟨rfl, rfl⟩ := List.cons.inj hl
      exact .inl ⟨hx, x', post, rfl, hx'⟩
    | cons y pre =>
      obtain ⟨rfl, rfl⟩ := List.cons.inj hl
      refine .inr ⟨hpre e (by simp), pre, x, x', post, rfl, ?_, hx, hx'⟩
      intro z hz
      exact hpre z (by simp [hz])
  · rintro (⟨he, e', post, rfl, he'⟩ | ⟨he, pre, x, x', post, rfl, hpre, hx, hx'⟩)
    · exact ⟨[], e, e', post, rfl, by simp, he, he'⟩
    · refine ⟨e :: pre, x, x', post, rfl, ?_, hx, hx'⟩
      intro z hz
      rcases List.mem_cons.mp hz with rfl | hz
      · exact he
      · exact hpre z hz

lemma reached_of_twoDue (h : TwoDue due l) : reached due l + 1 = l.countP due := by
  induction l with
  | nil =>
    obtain ⟨pre, x, x', post, hl, -⟩ := h
    simp at hl
  | cons e l ih =>
    rcases TwoDue.cons_iff.mp h with ⟨he, e', post, rfl, he'⟩ | ⟨he, h⟩
    · rw [reached, if_pos he, List.countP_cons_of_pos he, List.countP_cons_of_pos he']
      rfl
    · rw [reached, if_neg (by simp [he]), List.countP_cons_of_neg (by simp [he])]
      exact ih h

lemma reached_of_not_twoDue (h : ¬ TwoDue due l) : reached due l = l.countP due := by
  induction l with
  | nil => rfl
  | cons e l ih =>
    rw [TwoDue.cons_iff, not_or] at h
    cases he : due e with
    | true =>
      rw [reached, if_pos he, List.countP_cons_of_pos he]
      cases l with
      | nil => rfl
      | cons e' post =>
        have he' : due e' = false := by
          by_contra hne
          exact h.1 ⟨he, e', post, rfl, by simpa using hne⟩
        rw [List.countP_cons_of_neg (by simp [he']), List.tail_cons]
    | false =>
      rw [reached, if_neg (by simp [he]), List.countP_cons_of_neg (by simp [he])]
      exact ih fun ht => h.2 ⟨he, ht⟩

end Reached

namespace Spec.Kernel

variable {a b : Kernel} {base : Nat} {r : PcbPtr} {pre rest : List Nat} {e : Nat}

/-- One turn of the loop for a due entry, in terms of the turns that follow. -/
lemma checkFrom_due_iff (h : a.Ok base r) (hd : a.delayed = pre ++ e :: rest)
    (hdue : a.isDue e = true) {n : Nat} {w : UInt32} {moved : List Nat} {m : Nat}
    (hrest : ∀ b : Kernel, b.Ok base r → b.isDue = a.isDue → b.delayed = pre ++ rest →
      b.mailbox.length = a.mailbox.length + 1 → ∀ w moved,
        ((∃ x, checkFrom n (a.nextIndex pre.length) w moved b = some x) ↔
          b.mailbox.length + m ≤ memBlockCount)) :
    (∃ x, checkFrom (n + 1) pre.length w moved a = some x) ↔
      a.mailbox.length + (m + 1) ≤ memBlockCount := by
  have hlen := h.delayed_le
  rw [hd, List.length_append, List.length_cons] at hlen
  have hget : a.delayed[pre.length]? = some e := by simp [hd]
  have hin : ¬ memBlockCount ≤ pre.length := by omega
  have hsend : a.sendTime e ≤ a.ticks := by simpa [isDue] using hdue
  rw [checkFrom, if_neg hin, hget]
  dsimp only
  rw [if_pos hsend]
  by_cases hroom : a.mailbox.length < memBlockCount
  · obtain ⟨y, hy⟩ := deliver_isSome h.sched hroom e pre.length w
    obtain ⟨-, hnext, hfields, hmv⟩ := deliver_moves h.sched hget hdue hy
    have hdel : y.2.2.2.delayed = pre ++ rest := by
      rw [hfields, withSched_delayed, move, hd,
        List.eraseIdx_append_of_length_le (Nat.le_refl _), Nat.sub_self]
      rfl
    have hmail : y.2.2.2.mailbox.length = a.mailbox.length + 1 := by
      rw [hfields]
      simp [move]
    have hiff := hrest _ ((h.sweeps w).deliver hy).ok (isDue_congr hmv.pool hmv.ticks) hdel hmail
    rw [hy]
    simp only [Option.bind_eq_bind, Option.bind_some]
    rw [hnext, hiff, hmail, Nat.add_assoc, Nat.add_comm 1 m]
  · have hnone : a.deliver e pre.length w = none := by rw [deliver, if_neg hroom]
    rw [hnone]
    constructor
    · rintro ⟨x, hx⟩
      cases hx
    · intro hle
      exact absurd (by omega) hroom

/-- One turn of the loop for an entry that is not due. -/
lemma checkFrom_not_due (h : a.Ok base r) (hd : a.delayed = pre ++ e :: rest)
    (hdue : a.isDue e = false) (n : Nat) (w : UInt32) (moved : List Nat) :
    checkFrom (n + 1) pre.length w moved a = checkFrom n (pre.length + 1) w moved a := by
  have hlen := h.delayed_le
  rw [hd, List.length_append, List.length_cons] at hlen
  have hget : a.delayed[pre.length]? = some e := by simp [hd]
  have hsend : ¬ a.sendTime e ≤ a.ticks := by simpa [isDue] using hdue
  rw [checkFrom, if_neg (by omega), hget]
  dsimp only
  rw [if_neg hsend]

/-- Behind the last entry the loop runs to its end. -/
lemma checkFrom_end {i : Nat} (hi : a.delayed.length ≤ i) {n : Nat} (hn : memBlockCount - i ≤ n)
    (w : UInt32) (moved : List Nat) : checkFrom n i w moved a = some (moved, w, a) := by
  induction n generalizing i with
  | zero =>
    rw [checkFrom, if_pos (Nat.le_of_sub_eq_zero (Nat.le_zero.mp hn))]
  | succ n ih =>
    rw [checkFrom]
    split_ifs with hend
    · rfl
    · rw [List.getElem?_eq_none hi]
      exact ih (Nat.le_succ_of_le hi) (by omega)

/-- With a free slot in the delayed mailbox the loop comes across every entry. -/
lemma checkFrom_isSome_iff (h : a.Ok base r) (hfull : a.delayed.length < memBlockCount)
    (hd : a.delayed = pre ++ rest) {n : Nat} (hn : memBlockCount - pre.length + rest.length ≤ n)
    (w : UInt32) (moved : List Nat) : (∃ x, checkFrom n pre.length w moved a = some x) ↔
      a.mailbox.length + rest.countP a.isDue ≤ memBlockCount := by
  induction rest generalizing n pre w moved a with
  | nil =>
    rw [checkFrom_end (by simp [hd]) (by simpa using hn)]
    simpa using h.mailbox_le
  | cons e rest ih =>
    rw [List.length_cons] at hn
    obtain ⟨n, rfl⟩ : ∃ m, n = m + 1 := Nat.exists_eq_add_one_of_ne_zero (by omega)
    cases hdue : a.isDue e with
    | true =>
      rw [List.countP_cons_of_pos hdue]
      refine checkFrom_due_iff h hd hdue ?_
      intro b hb hsame hbd hmail w moved
      have hblen : b.delayed.length < memBlockCount := by
        rw [hd] at hfull
        rw [hbd]
        simp only [List.length_append, List.length_cons] at hfull ⊢
        omega
      rw [← hsame]
      by_cases hlast : rest = []
      · subst hlast
        rw [checkFrom_end]
        · simpa using hb.mailbox_le
        · rw [hbd, List.append_nil, nextIndex]
          split_ifs
          · exact le_rfl
          · exact Nat.le_succ _
        · rw [nextIndex]
          split_ifs <;> simp at hn ⊢ <;> omega
      · have hnext : a.nextIndex pre.length = pre.length := by
          rw [nextIndex, if_pos]
          refine ⟨Nat.ne_of_lt hfull, ?_⟩
          have hpos := List.length_pos_iff.mpr hlast
          rw [hd, List.length_append, List.length_cons]
          omega
        rw [hnext]
        exact ih hb hblen hbd (by omega) w moved
    | false =>
      rw [List.countP_cons_of_neg (by simp [hdue]), checkFrom_not_due h hd hdue]
      have hd' : a.delayed = (pre ++ [e]) ++ rest := by simp [hd]
      have hrec := ih h hfull hd' (n := n) (by simp; omega) w moved
      rwa [List.length_append, List.length_singleton] at hrec

/-- With a full delayed mailbox the loop passes over the entry behind the first one that is due. -/
lemma checkFrom_isSome_iff_of_full (h : a.Ok base r) (hfull : a.delayed.length = memBlockCount)
    (hd : a.delayed = pre ++ rest) {n : Nat} (hn : memBlockCount - pre.length + rest.length ≤ n)
    (w : UInt32) (moved : List Nat) : (∃ x, checkFrom n pre.length w moved a = some x) ↔
      a.mailbox.length + reached a.isDue rest ≤ memBlockCount := by
  induction rest generalizing n pre with
  | nil =>
    rw [checkFrom_end (by simp [hd]) (by simpa using hn)]
    simpa [reached] using h.mailbox_le
  | cons e rest ih =>
    rw [List.length_cons] at hn
    obtain ⟨n, rfl⟩ : ∃ m, n = m + 1 := Nat.exists_eq_add_one_of_ne_zero (by omega)
    cases hdue : a.isDue e with
    | true =>
      rw [reached, if_pos hdue]
      refine checkFrom_due_iff h hd hdue ?_
      intro b hb hsame hbd hmail w moved
      have hnext : a.nextIndex pre.length = pre.length + 1 := by
        rw [nextIndex, if_neg]
        rintro ⟨hne, -⟩
        exact hne hfull
      rw [hnext, ← hsame]
      cases rest with
      | nil =>
        rw [checkFrom_end (by simp [hbd]) (by simp at hn ⊢; omega)]
        simpa using hb.mailbox_le
      | cons e' post =>
        -- `e'` has taken the slot of `e`
        have hbd' : b.delayed = (pre ++ [e']) ++ post := by simp [hbd]
        have hblen : b.delayed.length < memBlockCount := by
          rw [hd] at hfull
          rw [hbd]
          simp only [List.length_append, List.length_cons] at hfull ⊢
          omega
        have hrec := checkFrom_isSome_iff hb hblen hbd' (n := n) (by simp at hn ⊢; omega) w moved
        rwa [List.length_append, List.length_singleton] at hrec
    | false =>
      rw [reached, if_neg (by simp [hdue]), checkFrom_not_due h hd hdue]
      have hd' : a.delayed = (pre ++ [e]) ++ rest := by simp [hd]
      have hrec := ih hd' (n := n) (by simp; omega)
      rwa [List.length_append, List.length_singleton] at hrec

/-- A tick comes back if there is a slot for every message that it comes across. -/
lemma Ok.timer_isSome_iff (h : a.Ok base r) : (∃ y, a.call .timer = some y) ↔
    a.delayed.countP (Delivers.ticking a).isDue ≤ memBlockCount - a.mailbox.length ∨
      Skips (Delivers.ticking a).isDue a.delayed ∧
        a.delayed.countP (Delivers.ticking a).isDue ≤ memBlockCount - a.mailbox.length + 1 := by
  have hok : (Delivers.ticking a).Ok base r := h.withTicks (a.ticks + 1)
  have hd : (Delivers.ticking a).delayed = [] ++ a.delayed := rfl
  have hfuel : memBlockCount - ([] : List Nat).length + a.delayed.length ≤ 2 * memBlockCount := by
    have hle := h.delayed_le
    simp only [List.length_nil]
    omega
  have hcall : (∃ y, a.call .timer = some y) ↔
      ∃ x, checkFrom (2 * memBlockCount) ([] : List Nat).length 4 [] (Delivers.ticking a) = some x := by
    constructor
    · rintro ⟨y, hy⟩
      obtain ⟨z, hz, -⟩ := Option.map_eq_some_iff.mp hy
      obtain ⟨x, hx, -⟩ := Option.map_eq_some_iff.mp hz
      exact ⟨x, hx⟩
    · rintro ⟨x, hx⟩
      have hx' : checkFrom (2 * memBlockCount) 0 4 [] { a with ticks := a.ticks + 1 } = some x := hx
      rw [Spec.Kernel.call, Spec.Kernel.timerIsr, checkExistingDelayedMessage, hx']
      exact ⟨_, rfl⟩
  have hmail : (Delivers.ticking a).mailbox = a.mailbox := rfl
  have hle := h.mailbox_le
  rw [hcall]
  by_cases hfull : a.delayed.length = memBlockCount
  · rw [checkFrom_isSome_iff_of_full hok hfull hd hfuel, hmail]
    by_cases ht : TwoDue (Delivers.ticking a).isDue a.delayed
    · have hskips : Skips (Delivers.ticking a).isDue a.delayed := ⟨hfull, ht⟩
      rw [← reached_of_twoDue ht]
      simp only [hskips, true_and]
      omega
    · have hskips : ¬ Skips (Delivers.ticking a).isDue a.delayed := fun hs => ht hs.2
      rw [reached_of_not_twoDue ht]
      simp only [hskips, false_and, or_false]
      omega
  · have hlt := Nat.lt_of_le_of_ne h.delayed_le hfull
    have hskips : ¬ Skips (Delivers.ticking a).isDue a.delayed := fun hs => hfull hs.1
    rw [checkFrom_isSome_iff hok hlt hd hfuel, hmail]
    simp only [hskips, false_and, or_false]
    omega

/-- A tick that comes back keeps the messages. -/
lemma Ok.timer_count (h : a.Ok base r) {reply : Reply} (hy : a.call .timer = some (reply, b)) (e : Nat) :
    b.mailbox.count e + b.delayed.count e = a.mailbox.count e + a.delayed.count e := by
  obtain ⟨new, w, c, s, -, rfl, hc⟩ := Delivers.effect_timer (h.effect hy)
  have hok : (Delivers.ticking a).Ok base r := h.withTicks (a.ticks + 1)
  obtain ⟨new', -, hmv⟩ := checkFrom_moves hok hc
  have hdel := hmv.delayed.count_eq e
  rw [withSched_mailbox, withSched_delayed, hmv.mailbox, List.count_append]
  rw [List.count_append] at hdel
  dsimp only at hdel
  have hsame : (Delivers.ticking a).delayed = a.delayed := rfl
  have hmail : (Delivers.ticking a).mailbox = a.mailbox := rfl
  rw [hsame] at hdel
  rw [hmail]
  omega

end Spec.Kernel

/-! ### In the code -/

namespace Sound

variable {base : Nat} {k k' : Kernel} {a : Spec.Kernel} {r : PcbPtr} {op : Op} {reply : Reply}

lemma freeSlots_mailbox (h : Sound base k a r) :
    freeSlots k.mailbox = memBlockCount - a.mailbox.length := by
  have hcount := countP_range_getElem? h.ok.mailbox_le fun x => decide (x = none)
  have hslot : ∀ i, k.mailbox i = a.mailbox[i]? := h.rep.mailbox
  simp only [← hslot] at hcount
  rw [freeSlots, hcount]
  simp

lemma dueNext_iff (h : Sound base k a r) (i : Nat) :
    k.DueNext i ↔ a.delayed[i]?.any (Delivers.ticking a).isDue = true := by
  have hslot : k.delayedMailbox i = a.delayed[i]? := h.rep.delayed i
  rw [Kernel.DueNext, hslot]
  cases a.delayed[i]? with
  | none => simp
  | some e =>
    rw [Option.any_some, Delivers.isDue_ticking h.rep, decide_eq_true_iff]
    constructor
    · rintro ⟨x, hx, hle⟩
      obtain rfl := Option.some.inj hx
      exact hle
    · intro hle
      exact ⟨e, rfl, hle⟩

lemma dueCount (h : Sound base k a r) :
    k.dueCount = a.delayed.countP (Delivers.ticking a).isDue := by
  rw [Kernel.dueCount, ← countP_range_any h.ok.delayed_le]
  apply List.countP_congr
  intro i _
  rw [decide_eq_true_iff]
  exact h.dueNext_iff i

lemma skipsNext_iff (h : Sound base k a r) :
    k.SkipsNext ↔ Skips (Delivers.ticking a).isDue a.delayed := by
  constructor
  · rintro ⟨hall, i, hi, hbefore, hdue, hdue'⟩
    have hslot : ∀ j, k.delayedMailbox j = a.delayed[j]? := h.rep.delayed
    have hfull : a.delayed.length = memBlockCount := by
      apply Nat.le_antisymm h.ok.delayed_le
      by_contra hlt
      have hsome := hall a.delayed.length (Nat.not_le.mp hlt)
      rw [hslot, List.getElem?_eq_none (Nat.le_refl _)] at hsome
      cases hsome
    have hi' : i + 1 < a.delayed.length := by
      rw [hfull]
      omega
    have hget : ∀ j (hj : j < a.delayed.length),
        k.DueNext j ↔ (Delivers.ticking a).isDue a.delayed[j] = true := by
      intro j hj
      rw [h.dueNext_iff, List.getElem?_eq_getElem hj, Option.any_some]
    refine ⟨hfull, a.delayed.take i, a.delayed[i], a.delayed[i + 1], a.delayed.drop (i + 2), ?_, ?_,
      (hget i _).mp hdue, (hget (i + 1) hi').mp hdue'⟩
    · rw [← List.drop_eq_getElem_cons hi', ← List.drop_eq_getElem_cons, List.take_append_drop]
    · intro x hx
      obtain ⟨j, hj, rfl⟩ := List.mem_take_iff_getElem.mp hx
      by_contra hne
      have hji : j < i := Nat.lt_of_lt_of_le hj (Nat.min_le_left _ _)
      exact hbefore j hji ((hget j _).mpr (by simpa using hne))
  · exact Delivers.skipsNext h.rep

lemma timer_isSome_iff (h : Sound base k a r) : (∃ x, k.call .timer = some x) ↔ k.HasRoom := by
  rw [Kernel.HasRoom, h.freeSlots_mailbox, h.dueCount, h.skipsNext_iff, ← h.ok.timer_isSome_iff]
  have hrel := h.rep.call h.ok .timer (by simp [Op.isInterrupt])
  constructor
  · rintro ⟨x, hx⟩
    rw [hx] at hrel
    obtain ⟨y, hy, -⟩ := hrel.exists_of_some
    exact ⟨y, hy⟩
  · rintro ⟨y, hy⟩
    rw [hy] at hrel
    obtain ⟨x, hx, -⟩ := hrel.exists_of_some_right
    exact ⟨x, hx⟩

lemma timer_keepsMail (h : Sound base k a r) (hcall : k.call .timer = some (reply, k')) :
    k.KeepsMail k' := by
  obtain ⟨b, r', hy, hs, -, -⟩ := h.call (by simp [Op.isInterrupt]) hcall
  intro e
  rw [h.slotsWith_mailbox, h.slotsWith_delayed, hs.slotsWith_mailbox, hs.slotsWith_delayed]
  exact h.ok.timer_count hy e

end Sound

namespace Spec.Kernel

/-- Storing an envelope adds it once, if there is room. -/
lemma count_storeIn_eq_iff {l : List Nat} {e : Nat} :
    (storeIn l e).count e = l.count e + 1 ↔ l.length < memBlockCount := by
  rw [storeIn]
  split_ifs with hlt
  · simp [hlt]
  · simp [hlt]

end Spec.Kernel

variable {priority : Fin 6 → UInt8} {base : Nat} {k₀ k : Kernel} {es : List Event}

/-- A message that `send_message` or `delayed_send` accepts is stored if and only if its mailbox has a free
slot. A tick comes back, with no message lost, if and only if the mailbox has room for the messages that it
comes across. -/
theorem mail_kept_iff (hprio : ∀ i, priority i ≤ 4) (hboot : boot priority base = some k₀)
    (h : Run (Kernel.StepIf Kernel.Calls) k₀ es k) :
    (∀ pid e k', k.currentPid ≠ 0 → k.call (.send pid e) = some (.code 0, k') →
      (slotsWith k'.mailbox e = slotsWith k.mailbox e + 1 ↔
        ∃ i < memBlockCount, k.mailbox i = none)) ∧
    (∀ pid e delay k', k.currentPid ≠ 0 → k.call (.delayedSend pid e delay) = some (.code 0, k') →
      (slotsWith k'.delayedMailbox e = slotsWith k.delayedMailbox e + 1 ↔
        ∃ i < memBlockCount, k.delayedMailbox i = none)) ∧
    ((∃ reply k', k.call .timer = some (reply, k') ∧ k.KeepsMail k') ↔ k.HasRoom) := by
  obtain ⟨a, r, hs⟩ := Sound.of_run hprio hboot h
  refine ⟨?_, ?_, ?_⟩
  · intro pid e k' hz hcall
    obtain ⟨b, r', hy, hs', -, -⟩ := hs.call (fun _ => hz) hcall
    rw [hs.slotsWith_mailbox, hs'.slotsWith_mailbox, hs.rep.mailbox.exists_free_iff]
    cases hs.ok.effect hy with
    | quiet s hq => simp [Op.isQuiet] at hq
    | sent s hb =>
      rw [Spec.Kernel.withSched_mailbox, Spec.Kernel.post, (Spec.Kernel.address_fields hb).1]
      exact Spec.Kernel.count_storeIn_eq_iff
  · intro pid e delay k' hz hcall
    obtain ⟨b, r', hy, hs', -, -⟩ := hs.call (fun _ => hz) hcall
    rw [hs.slotsWith_delayed, hs'.slotsWith_delayed, hs.rep.delayed.exists_free_iff]
    cases hs.ok.effect hy with
    | quiet s hq => simp [Op.isQuiet] at hq
    | delayed hb =>
      rw [Spec.Kernel.postDelayed, (Spec.Kernel.address_fields hb).2.1]
      exact Spec.Kernel.count_storeIn_eq_iff
  · rw [← hs.timer_isSome_iff]
    constructor
    · rintro ⟨reply, k', hcall, -⟩
      exact ⟨_, hcall⟩
    · rintro ⟨⟨reply, k'⟩, hcall⟩
      exact ⟨reply, k', hcall, hs.timer_keepsMail hcall⟩

/-- One message is due, and the mailbox is empty. -/
theorem mail_kept_by_tick : ∃ k₀ es k, boot (fun _ => 2) 4096 = some k₀ ∧
    Run (Kernel.StepIf Kernel.Calls) k₀ es k ∧ k.dueCount = 1 ∧
    ∃ reply k', k.call .timer = some (reply, k') ∧ k.KeepsMail k' := by
  obtain ⟨k₀, es, k, hboot, hrun, -, hc⟩ := exists_run_of_boot Kernel.Calls (fun _ => 2) 4096
    [.request, .delayedSend 12 4096 0] (fun _ k => k.dueCount = 1 ∧ k.HasRoom) (by decide +kernel)
  obtain ⟨hdue, hroom⟩ := of_decide_eq_true hc
  exact ⟨k₀, es, k, hboot, hrun, hdue,
    (mail_kept_iff (fun _ => by decide) hboot hrun).2.2.mpr hroom⟩

/-- An envelope is sent thirty times, and then with `delayed_send`: it is accepted once more and not stored,
and the next tick reads behind the mailbox. -/
theorem mail_lost : ∃ k₀ es k k', boot (fun _ => 2) 4096 = some k₀ ∧
    Run (Kernel.StepIf Kernel.Calls) k₀ es k ∧ k.call (.send 12 4096) = some (.code 0, k') ∧
    slotsWith k'.mailbox 4096 ≠ slotsWith k.mailbox 4096 + 1 ∧
    k.dueCount = 1 ∧ k.call .timer = none := by
  obtain ⟨k₀, es, k, hboot, hrun, -, hc⟩ := exists_run_of_boot Kernel.Calls (fun _ => 2) 4096
    ([.request] ++ List.replicate 30 (.send 12 4096) ++ [.delayedSend 12 4096 0])
    (fun _ k => (k.call (.send 12 4096)).any (fun x => x.1 = .code 0 ∧ slotsWith x.2.mailbox 4096 ≠
      slotsWith k.mailbox 4096 + 1) = true ∧ k.dueCount = 1 ∧ (k.call .timer).isNone = true)
    (by decide +kernel)
  obtain ⟨hsend, hdue, htick⟩ := of_decide_eq_true hc
  obtain ⟨⟨reply, k'⟩, hcall, hx⟩ := (Option.any_eq_true _ _).mp hsend
  obtain ⟨rfl, hslots⟩ : reply = .code 0 ∧ slotsWith k'.mailbox 4096 ≠ slotsWith k.mailbox 4096 + 1 :=
    of_decide_eq_true hx
  exact ⟨k₀, es, k, k', hboot, hrun, hcall, hslots, hdue, Option.isNone_iff_eq_none.mp htick⟩

end RtxKernel
