import RtxKernel.Kernel.Refinement
import Mathlib.Data.List.Perm.Subperm

/-!
# The mailboxes never overflow

If every envelope that is sent is a used block that is in no mailbox, then the entries of the two
mailboxes are distinct blocks (`Posted`). There are as many slots as there are blocks, so a free slot
is always found, and no permitted operation fails (`Posted.call_isSome`).
-/

namespace RtxKernel.Spec.Kernel

variable {a b : Kernel} {base : Nat} {r : PcbPtr}

/-- The entries of the two mailboxes are distinct blocks. -/
structure Posted (a : Kernel) (base : Nat) : Prop where
  nodup : (a.mailbox ++ a.delayed).Nodup
  block : ∀ e ∈ a.mailbox ++ a.delayed, ∃ c < memBlockCount, e = base + c * memBlockSize

namespace Posted

/-- The entries are no more than the blocks. -/
theorem length_le (h : a.Posted base) : a.mailbox.length + a.delayed.length ≤ memBlockCount := by
  have hsub : a.mailbox ++ a.delayed
      ⊆ (List.range memBlockCount).map fun c => base + c * memBlockSize := by
    intro e he
    obtain ⟨c, hc, rfl⟩ := h.block e he
    exact List.mem_map.mpr ⟨c, List.mem_range.mpr hc, rfl⟩
  simpa using (List.subperm_of_subset h.nodup hsub).length_le

/-- One block more than the entries: no mailbox is full. -/
theorem length_lt (h : a.Posted base) {c : Nat} (hc : c < memBlockCount)
    (hnot : base + c * memBlockSize ∉ a.mailbox ++ a.delayed) :
    a.mailbox.length + a.delayed.length < memBlockCount := by
  have hsub : (base + c * memBlockSize) :: (a.mailbox ++ a.delayed)
      ⊆ (List.range memBlockCount).map fun c => base + c * memBlockSize := by
    intro e he
    rcases List.mem_cons.mp he with rfl | he
    · exact List.mem_map.mpr ⟨c, List.mem_range.mpr hc, rfl⟩
    · obtain ⟨d, hd, rfl⟩ := h.block e he
      exact List.mem_map.mpr ⟨d, List.mem_range.mpr hd, rfl⟩
  have hlen := (List.subperm_of_subset (List.nodup_cons.mpr ⟨hnot, h.nodup⟩) hsub).length_le
  simp at hlen
  omega

/-- Rearranging the entries. -/
lemma of_perm (h : a.Posted base) (hp : (b.mailbox ++ b.delayed).Perm (a.mailbox ++ a.delayed)) :
    b.Posted base :=
  ⟨hp.nodup_iff.mpr h.nodup, fun e he => h.block e (hp.mem_iff.mp he)⟩

lemma of_sublist (h : a.Posted base)
    (hs : (b.mailbox ++ b.delayed).Sublist (a.mailbox ++ a.delayed)) : b.Posted base :=
  ⟨h.nodup.sublist hs, fun e he => h.block e (hs.subset he)⟩

/-- A block that was in no mailbox comes in. -/
lemma of_cons (h : a.Posted base) {c : Nat} (hc : c < memBlockCount)
    (hnot : base + c * memBlockSize ∉ a.mailbox ++ a.delayed)
    (hp : (b.mailbox ++ b.delayed).Perm ((base + c * memBlockSize) :: (a.mailbox ++ a.delayed))) :
    b.Posted base := by
  refine ⟨hp.nodup_iff.mpr (List.nodup_cons.mpr ⟨hnot, h.nodup⟩), fun e he => ?_⟩
  rcases List.mem_cons.mp (hp.mem_iff.mp he) with rfl | he
  · exact ⟨c, hc, rfl⟩
  · exact h.block e he

end Posted

lemma mem_storeIn {l : List Nat} {e x : Nat} (h : x ∈ storeIn l e) : x ∈ l ∨ x = e := by
  rw [storeIn] at h
  split_ifs at h
  · simpa using h
  · exact .inl h

/-! ### The timer loop moves messages -/

/-- The time of the message in the envelope `e` has come. -/
def isDue (a : Kernel) (e : Nat) : Bool := a.sendTime e ≤ a.ticks

lemma isDue_congr (hp : b.pool = a.pool) (ht : b.ticks = a.ticks) : b.isDue = a.isDue := by
  funext e
  rw [isDue, isDue, ht, sendTime, sendTime, hp]

/-- `b` comes from `a` by moving the messages `new`, which are due, to the mailbox. -/
structure Moves (a : Kernel) (new : List Nat) (b : Kernel) : Prop where
  mailbox : b.mailbox = a.mailbox ++ new
  delayed : (new ++ b.delayed).Perm a.delayed
  sublist : b.delayed.Sublist a.delayed
  due : ∀ e ∈ new, a.isDue e = true
  pool : b.pool = a.pool
  ticks : b.ticks = a.ticks

lemma Moves.trans {c : Kernel} {new new' : List Nat} (h : Moves a new b) (h' : Moves b new' c) :
    Moves a (new ++ new') c where
  mailbox := by rw [h'.mailbox, h.mailbox, List.append_assoc]
  delayed := by
    rw [List.append_assoc]
    exact (h'.delayed.append_left new).trans h.delayed
  sublist := h'.sublist.trans h.sublist
  due e he := by
    rcases List.mem_append.mp he with he | he
    · exact h.due e he
    · rw [← isDue_congr h.pool h.ticks]
      exact h'.due e he
  pool := h'.pool.trans h.pool
  ticks := h'.ticks.trans h.ticks

/-- With distinct entries, those that stay are the ones that were not moved. -/
lemma Moves.delayed_eq {new : List Nat} (h : Moves a new b) (hnd : a.delayed.Nodup) :
    b.delayed = a.delayed.filter (· ∉ new) := by
  have hnd' := (List.nodup_append.mp (h.delayed.nodup_iff.mpr hnd)).2.2
  have hstay : b.delayed.filter (· ∉ new) = b.delayed := by
    apply List.filter_eq_self.mpr
    intro e he
    simpa using fun hnew => hnd' e hnew e he rfl
  have hgone : new.filter (· ∉ new) = [] := by
    apply List.filter_eq_nil_iff.mpr
    intro e he
    simpa using he
  have hsub := h.sublist.filter (· ∉ new)
  rw [hstay] at hsub
  apply hsub.eq_of_length
  have hlen := (h.delayed.filter (· ∉ new)).length_eq
  rw [List.filter_append, hgone, hstay] at hlen
  exact hlen

lemma wakeReceiver_fields (h : a.sched.Steady r) {pid w : UInt32} {x : UInt32 × Kernel}
    (hx : a.wakeReceiver pid w = some x) : x.2 = a.withSched x.2.sched := by
  rcases wakeReceiver_cases h pid w with he | ⟨p, -, -, -, he⟩
  · obtain rfl := Option.some.inj (he.symm.trans hx)
    rfl
  · obtain rfl := Option.some.inj (he.symm.trans hx)
    rfl

lemma perm_cons_eraseIdx {l : List Nat} {i e : Nat} (h : l[i]? = some e) :
    (e :: l.eraseIdx i).Perm l := by
  obtain ⟨hlt, rfl⟩ := List.getElem?_eq_some_iff.mp h
  exact List.getElem_cons_eraseIdx_perm hlt

/-- Delivering a due message moves it, and unblocks its receiver. -/
lemma deliver_moves (h : a.sched.Steady r) {e i : Nat} (hi : a.delayed[i]? = some e)
    (hdue : a.isDue e = true) {w : UInt32} {x : Nat × Nat × UInt32 × Kernel} (hx : a.deliver e i w = some x) :
    x.1 = e ∧ x.2.1 = a.nextIndex i ∧ x.2.2.2 = (a.move e i).withSched x.2.2.2.sched ∧
      Moves a [e] x.2.2.2 := by
  rw [deliver] at hx
  split_ifs at hx
  obtain ⟨y, hy, rfl⟩ := Option.map_eq_some_iff.mp hx
  have hf := wakeReceiver_fields (a := a.move e i) h hy
  refine ⟨rfl, rfl, hf, ?_⟩
  dsimp only
  rw [hf]
  exact ⟨rfl, perm_cons_eraseIdx hi, List.eraseIdx_sublist .., by simpa using hdue, rfl, rfl⟩

lemma deliver_isSome (h : a.sched.Steady r) (hroom : a.mailbox.length < memBlockCount) (e i : Nat)
    (w : UInt32) : ∃ x, a.deliver e i w = some x := by
  rw [deliver]
  rw [if_pos hroom]
  rcases wakeReceiver_cases (a := a.move e i) h (a.rx e) w with he | ⟨p, -, -, -, he⟩
  · exact ⟨_, by rw [he]; rfl⟩
  · exact ⟨_, by rw [he]; rfl⟩

lemma checkFrom_moves (h : a.Ok base r) {n i : Nat} {w : UInt32} {moved : List Nat}
    {x : List Nat × UInt32 × Kernel} (hx : checkFrom n i w moved a = some x) :
    ∃ new, x.1 = moved ++ new ∧ Moves a new x.2.2 := by
  induction n generalizing i w moved a with
  | zero =>
    rw [checkFrom] at hx
    split_ifs at hx
    obtain rfl := Option.some.inj hx
    exact ⟨[], by simp, by simp, by simp, .refl _, by simp, rfl, rfl⟩
  | succ n ih =>
    rw [checkFrom] at hx
    split_ifs at hx
    · obtain rfl := Option.some.inj hx
      exact ⟨[], by simp, by simp, by simp, .refl _, by simp, rfl, rfl⟩
    · cases hi : a.delayed[i]? with
      | none =>
        rw [hi] at hx
        exact ih h hx
      | some e =>
        rw [hi] at hx
        dsimp only at hx
        split_ifs at hx with hdue
        · obtain ⟨y, hy, hx⟩ := Option.bind_eq_some_iff.mp hx
          obtain ⟨he, -, -, hmv⟩ := deliver_moves h.sched hi (by simpa [isDue] using hdue) hy
          obtain ⟨new, hnew, hmv'⟩ := ih ((h.sweeps w).deliver hy).ok hx
          exact ⟨e :: new, by simpa [he] using hnew, hmv.trans hmv'⟩
        · exact ih h hx

/-- What a tick of the timer moves to the mailbox -/
lemma Ok.moves_tick (h : a.Ok base r) {n : Nat} {v w : UInt32} {new : List Nat}
    (hb : checkFrom n 0 v [] { a with ticks := a.ticks + 1 } = some (new, w, b)) :
    Moves { a with ticks := a.ticks + 1 } new b := by
  obtain ⟨new', hnew, hmv⟩ := checkFrom_moves (h.withTicks (a.ticks + 1)) hb
  obtain rfl : new = new' := hnew
  exact hmv

/-- With a slot for every entry, and enough turns, the loop comes to its end. -/
lemma checkFrom_isSome (h : a.Ok base r) (hlen : a.mailbox.length + a.delayed.length ≤ memBlockCount)
    {n i : Nat} (hn : memBlockCount - i + a.delayed.length ≤ n) (w : UInt32) (moved : List Nat) :
    ∃ x, checkFrom n i w moved a = some x := by
  induction n generalizing i w moved a with
  | zero =>
    rw [checkFrom]
    exact ⟨_, if_pos (by omega)⟩
  | succ n ih =>
    rw [checkFrom]
    split_ifs with hend
    · exact ⟨_, rfl⟩
    · cases hi : a.delayed[i]? with
      | none => exact ih h hlen (by omega) _ _
      | some e =>
        dsimp only
        split_ifs with hdue
        · have hlt := (List.getElem?_eq_some_iff.mp hi).1
          have hroom : a.mailbox.length < memBlockCount := by omega
          obtain ⟨x, hx⟩ := deliver_isSome h.sched hroom e i w
          obtain ⟨-, hnext, hfields, -⟩ := deliver_moves h.sched hi (by simpa [isDue] using hdue) hx
          rw [hx]
          have hdel : x.2.2.2.delayed.length + 1 = a.delayed.length := by
            rw [hfields]
            exact List.length_eraseIdx_add_one hlt
          have hmail : x.2.2.2.mailbox.length = a.mailbox.length + 1 := by
            rw [hfields]
            simp [move]
          have hi' : i ≤ a.nextIndex i := by
            rw [nextIndex]
            split_ifs <;> omega
          have hn' : memBlockCount - x.2.1 + x.2.2.2.delayed.length ≤ n := by
            rw [hnext]
            omega
          exact ih ((h.sweeps w).deliver hx).ok (by omega) hn' _ _
        · exact ih h hlen (by omega) _ _

end RtxKernel.Spec.Kernel
