import RtxKernel.Kernel.Wake
import RtxKernel.Kernel.Zeroed

/-!
# Envelopes in the mailboxes are used blocks

An envelope that was sent belongs to its receiver. As long as nobody returns a block that is in a mailbox,
sends it once more or writes into its header, every envelope in a mailbox is a used block of its receiver
(`MailOwned.step`). A used block stays as it is unless an operation names it (`Effect.untouched`).
-/

namespace RtxKernel

/-- The operations of processes that use envelopes as they should; the interrupts are free. -/
def Kernel.Proper (k : Kernel) (op : Op) : Prop :=
  (op.isInterrupt = false → k.Permits op) ∧ k.Respects op

instance (k : Kernel) (op : Op) : Decidable (k.Proper op) :=
  inferInstanceAs (Decidable ((op.isInterrupt = false → k.Permits op) ∧ k.Respects op))

namespace Spec.Kernel

variable {a b : Kernel} {base : Nat} {r : PcbPtr} {op : Op} {reply : Reply} {c d : BlockPtr} {e : Nat}

/-! ### What an operation leaves alone -/

/-- The operation neither sends nor returns the block `c`, and does not write into it. -/
def LeavesAlone (a : Kernel) (c : BlockPtr) : Op → Prop
  | .send _ e | .delayedSend _ e _ => a.pool.start c ≠ e
  | .release x => a.pool.start c ≠ x ∨ a.pool.pid c ≠ a.sched.currentPid
  | .store x _ => x < a.pool.start c ∨ a.pool.start c + memBlockSize ≤ x
  | _ => True

/-- The block `c` is used in both states, with one owner and one content. -/
structure Untouched (a b : Kernel) (c : BlockPtr) : Prop where
  used : c ∈ b.pool.used
  pid : b.pool.pid c = a.pool.pid c
  memory : ∀ x, a.pool.start c ≤ x → x < a.pool.start c + memBlockSize → b.pool.memory x = a.pool.memory x

lemma Untouched.of_pool (hc : c ∈ a.pool.used) (hp : b.pool = a.pool) : a.Untouched b c := by
  rw [← hp] at hc
  exact ⟨hc, by rw [hp], fun _ _ _ => by rw [hp]⟩

/-- What is written inside the block `d` does not change the block `c`. -/
lemma memory_of_block (hok : a.Ok base r) (hc : c < memBlockCount) (hd : d < memBlockCount) (hcd : c ≠ d)
    {m : Memory} (hframe : ∀ x, x < a.pool.start d ∨ a.pool.start d + memBlockSize ≤ x →
      m x = a.pool.memory x) {x : Nat} (hx : a.pool.start c ≤ x)
    (hx' : x < a.pool.start c + memBlockSize) : m x = a.pool.memory x := by
  have hne : a.pool.start c ≠ a.pool.start d := fun he => hcd (hok.pool.start_inj hc hd he)
  rw [hok.pool.start_eq c hc, hok.pool.start_eq d hd] at hne
  have hapart := blocks_apart hne
  rw [← hok.pool.start_eq c hc, ← hok.pool.start_eq d hd] at hapart
  apply hframe
  rcases hapart with hlt | hlt
  · exact .inl (Nat.lt_of_lt_of_le hx' hlt)
  · exact .inr (Nat.le_trans hlt hx)

lemma Untouched.address (hok : a.Ok base r) (hc : c ∈ a.pool.used) {pid : UInt32}
    (hb : a.address pid e = some b) (hne : a.pool.start c ≠ e) : a.Untouched b c := by
  obtain ⟨d, hd, hpid, hused, -, -⟩ := address_pid hb
  obtain ⟨hdlt, rfl⟩ := hok.pool.lookup_eq_some_iff.mp hd
  have hclt := hok.pool.lt_of_mem (q := .usedBlocks) hc
  have hcd : c ≠ d := by
    rintro rfl
    exact hne rfl
  refine ⟨hused ▸ hc, ?_, ?_⟩
  · rw [hpid, Function.update_of_ne hcd]
  · intro x hx hx'
    exact memory_of_block hok hclt hdlt hcd (address_header hb).2.2 hx hx'

/-- A used block that an operation leaves alone is untouched. -/
theorem Effect.untouched (he : a.Effect op reply b) (hok : a.Ok base r) (hc : c ∈ a.pool.used)
    (hl : a.LeavesAlone c op) : a.Untouched b c := by
  have hclt := hok.pool.lt_of_mem (q := .usedBlocks) hc
  cases he with
  | quiet s hq => exact .of_pool hc rfl
  | sent s hb =>
    have hu := Untouched.address hok hc hb hl
    exact ⟨hu.used, hu.pid, hu.memory⟩
  | delayed hb =>
    have hu := Untouched.address hok hc hb hl
    refine ⟨hu.used, hu.pid, ?_⟩
    obtain ⟨d, hd, -⟩ := address_eq_some_iff.mp hb
    obtain ⟨hdlt, rfl⟩ := hok.pool.lookup_eq_some_iff.mp hd
    have hcd : c ≠ d := by
      rintro rfl
      exact hl rfl
    intro x hx hx'
    refine memory_of_block hok hclt hdlt hcd ?_ hx hx'
    intro y hy
    refine (write32_frame ?_).trans ((address_header hb).2.2 y hy)
    simp only [sendTimeField, memBlockSize] at hy ⊢
    omega
  | received => exact .of_pool hc rfl
  | granted hp =>
    obtain ⟨d, t, hav, -, rfl⟩ := take_cases hp
    have hcd : c ≠ d := (hok.ne_of_available (by simp [hav]) hc).symm
    exact ⟨List.mem_append_left _ hc, Function.update_of_ne hcd _ _, fun _ _ _ => rfl⟩
  | @released x d s hd hx ho =>
    have hcd : c ≠ d := by
      rintro rfl
      rcases hl with hl | hl
      · exact hl hx
      · exact hl ho
    refine ⟨(List.mem_erase_of_ne hcd).mpr hc, Function.update_of_ne hcd _ _, ?_⟩
    intro y hy hy'
    exact memory_of_block hok hclt (hok.pool.lt_of_mem (q := .usedBlocks) hd) hcd
      (fun _ => fill_frame) hy hy'
  | @stored x v =>
    refine ⟨hc, rfl, ?_⟩
    intro y hy hy'
    refine Function.update_of_ne ?_ _ _
    rintro rfl
    rcases hl with hl | hl
    · exact Nat.not_le_of_lt hl hy
    · exact Nat.not_lt_of_le hl hy'
  | ticked s hb =>
    have hmv := hok.moves_tick hb
    exact .of_pool hc (by rw [withSched_pool, hmv.pool])
  | typedLost hp =>
    obtain ⟨d, t, hav, rfl, rfl⟩ := take_cases hp
    have hd : d ∈ a.pool.available := by simp [hav]
    have hcd : c ≠ d := (hok.ne_of_available hd hc).symm
    refine ⟨List.mem_append_left _ hc, Function.update_of_ne hcd _ _, ?_⟩
    intro y hy hy'
    exact memory_of_block hok hclt (hok.pool.lt_of_mem (q := .availableBlocks) hd) hcd
      (fun _ => type_frame) hy hy'
  | @typed x p v b' s hp hb =>
    have hwf : (a.type p x v).pool.WF base := ⟨(hok.pool.take hp).perm, (hok.pool.take hp).start_eq⟩
    obtain ⟨d, hd, hpid, hused, -, -⟩ := address_pid hb
    obtain ⟨hdlt, hstart⟩ := hwf.lookup_eq_some_iff.mp hd
    obtain ⟨d', t, hav, rfl, rfl⟩ := take_cases hp
    have hd' : d' ∈ a.pool.available := by simp [hav]
    obtain rfl := hok.pool.start_inj hdlt (hok.pool.lt_of_mem (q := .availableBlocks) hd') hstart
    have hcd : c ≠ d := (hok.ne_of_available hd' hc).symm
    refine ⟨?_, ?_, ?_⟩
    · rw [withSched_pool, post, hused]
      exact List.mem_append_left _ hc
    · rw [withSched_pool, post, hpid, Function.update_of_ne hcd]
      exact Function.update_of_ne hcd _ _
    · intro y hy hy'
      refine memory_of_block hok hclt hdlt hcd ?_ hy hy'
      intro z hz
      exact ((address_header hb).2.2 z hz).trans (type_frame hz)

lemma Effect.start (he : a.Effect op reply b) (hok : a.Ok base r) : b.pool.start = a.pool.start := by
  cases he with
  | quiet s hq => rfl
  | sent s hb =>
    obtain ⟨d, -, -, -, -, hstart⟩ := address_pid hb
    exact hstart
  | delayed hb =>
    obtain ⟨d, -, -, -, -, hstart⟩ := address_pid hb
    exact hstart
  | received => rfl
  | granted hp =>
    obtain ⟨d, t, -, -, rfl⟩ := take_cases hp
    rfl
  | released => rfl
  | stored => rfl
  | ticked s hb =>
    have hmv := hok.moves_tick hb
    rw [withSched_pool, hmv.pool]
  | typedLost hp =>
    obtain ⟨d, t, -, -, rfl⟩ := take_cases hp
    rfl
  | typed s hp hb =>
    obtain ⟨d, -, -, -, -, hstart⟩ := address_pid hb
    obtain ⟨d', t, -, -, rfl⟩ := take_cases hp
    exact hstart

/-! ### Who owns an envelope in a mailbox -/

/-- The used block `c` starts at `e` and belongs to `p`. -/
structure OwnedBy (a : Kernel) (e : Nat) (p : UInt32) (c : BlockPtr) : Prop where
  used : c ∈ a.pool.used
  start : a.pool.start c = e
  pid : a.pool.pid c = p

/-- Every envelope in a mailbox belongs to its receiver. -/
def MailOwned (a : Kernel) : Prop := ∀ e ∈ a.mailbox ++ a.delayed, ∃ c, a.OwnedBy e (a.rx e) c

/-- An available block is in no mailbox, so that the interrupts are always permitted. -/
lemma MailOwned.permits (h : a.MailOwned) (hok : a.Ok base r) (hp : op.isInterrupt = false → a.Permits op) :
    a.Permits op := by
  cases op with
  | uart c =>
    intro d t hav hd
    have hdav : d ∈ a.pool.available := by simp [hav]
    obtain ⟨c', hc'⟩ := h _ hd
    apply hok.ne_of_available hdav hc'.used
    exact hok.pool.start_inj (hok.pool.lt_of_mem (q := .availableBlocks) hdav)
      (hok.pool.lt_of_mem (q := .usedBlocks) hc'.used) hc'.start.symm
  | timer => exact trivial
  | _ => exact hp rfl

/-- An envelope that was in a mailbox stays its receiver's. -/
lemma MailOwned.keep (h : a.MailOwned) (hok : a.Ok base r) (hp : a.Permits op) (hr : a.Respects op)
    (he : a.Effect op reply b) {x : Nat} (hx : x ∈ a.mailbox ++ a.delayed) :
    b.rx x = a.rx x ∧ ∃ c, b.OwnedBy x (b.rx x) c := by
  obtain ⟨c, hc⟩ := h x hx
  have hclt := hok.pool.lt_of_mem (q := .usedBlocks) hc.used
  have hblock : ∃ d < memBlockCount, x = base + d * memBlockSize :=
    ⟨c, hclt, by rw [← hc.start, hok.pool.start_eq c hclt]⟩
  have hrx := (he.sameHeader hok hblock (spares_of_respects hp hr hx)).1
  refine ⟨hrx, c, ?_⟩
  rw [hrx]
  have hstart : b.pool.start c = x := by rw [he.start hok, hc.start]
  have huntouched : a.LeavesAlone c op → b.OwnedBy x (a.rx x) c := by
    intro hl
    have hu := he.untouched hok hc.used hl
    exact ⟨hu.used, hstart, hu.pid.trans hc.pid⟩
  cases op with
  | store y v =>
    cases he with
    | quiet s hq => exact ⟨hc.used, hc.start, hc.pid⟩
    | stored => exact ⟨hc.used, hc.start, hc.pid⟩
  | send pid e =>
    apply huntouched
    rintro rfl
    exact hp.2.2 (hc.start ▸ hx)
  | delayedSend pid e delay =>
    apply huntouched
    rintro rfl
    exact hp.2.2 (hc.start ▸ hx)
  | release y =>
    apply huntouched
    left
    rintro rfl
    exact hr (hc.start ▸ hx)
  | _ => exact huntouched trivial

/-- An envelope that was addressed belongs to its receiver. -/
lemma address_owned (hok : a.Ok base r) {pid : UInt32} (hb : a.address pid e = some b)
    (hc : a.OwnedBy e (a.pool.pid c) c) : b.OwnedBy e pid c := by
  obtain ⟨d, hd, hpid, hused, -, hstart⟩ := address_pid hb
  obtain ⟨hdlt, hds⟩ := hok.pool.lookup_eq_some_iff.mp hd
  obtain rfl := hok.pool.start_inj hdlt (hok.pool.lt_of_mem (q := .usedBlocks) hc.used)
    (hds.trans hc.start.symm)
  refine ⟨hused ▸ hc.used, by rw [hstart, hc.start], ?_⟩
  rw [hpid, Function.update_self]

theorem MailOwned.step (h : a.MailOwned) (hok : a.Ok base r) (hp : a.Permits op) (hr : a.Respects op)
    (he : a.Effect op reply b) : b.MailOwned := by
  have hkeep : ∀ x ∈ a.mailbox ++ a.delayed, ∃ c, b.OwnedBy x (b.rx x) c :=
    fun x hx => (h.keep hok hp hr he hx).2
  intro x hx
  cases he with
  | quiet s hq => exact hkeep x hx
  | sent s hb =>
    obtain ⟨hmail, hdel, -, -⟩ := address_fields hb
    rw [withSched_mailbox, withSched_delayed, post, hmail, hdel, List.mem_append] at hx
    obtain ⟨-, ⟨c, hc, hstart⟩, -⟩ := hp
    rcases hx with hx | hx
    · rcases mem_storeIn hx with hx | rfl
      · exact hkeep x (List.mem_append_left _ hx)
      · have ho := address_owned hok hb ⟨hc, hstart, rfl⟩
        refine ⟨c, ho.used, ho.start, ho.pid.trans ?_⟩
        exact (address_header hb).1.symm
    · exact hkeep x (List.mem_append_right _ hx)
  | @delayed pid delay e b' hb =>
    obtain ⟨hmail, hdel, -, -⟩ := address_fields hb
    rw [postDelayed, write_mailbox, hmail, hdel, List.mem_append] at hx
    obtain ⟨-, ⟨c, hc, hstart⟩, -⟩ := hp
    rcases hx with hx | hx
    · exact hkeep x (List.mem_append_left _ hx)
    · rcases mem_storeIn hx with hx | rfl
      · exact hkeep x (List.mem_append_right _ hx)
      · have ho := address_owned hok hb ⟨hc, hstart, rfl⟩
        refine ⟨c, ho.used, ho.start, ho.pid.trans ?_⟩
        have hrx : read32 (write32 b'.pool.memory (sendTimeField x) (delay + a.ticks)) (rxField x) =
            read32 b'.pool.memory (rxField x) := by
          apply read32_write32_of_disjoint
          simp only [rxField, sendTimeField]
          omega
        exact ((address_header hb).1.symm).trans hrx.symm
  | received he' =>
    apply hkeep x
    exact List.mem_append.mpr ((List.mem_append.mp hx).imp List.mem_of_mem_eraseIdx id)
  | granted hp' => exact hkeep x hx
  | released s hc hs ho => exact hkeep x hx
  | stored => exact hkeep x hx
  | ticked s hb =>
    have hmv := hok.moves_tick hb
    apply hkeep x
    rw [withSched_mailbox, withSched_delayed, hmv.mailbox, List.append_assoc] at hx
    exact (hmv.delayed.append_left a.mailbox).mem_iff.mp hx
  | typedLost hp' => exact hkeep x hx
  | @typed y p v b' s hp' hb =>
    obtain ⟨hmail, hdel, -, -⟩ := address_fields hb
    rw [withSched_mailbox, withSched_delayed, post, hmail, hdel, List.mem_append] at hx
    rcases hx with hx | hx
    · rcases mem_storeIn hx with hx | rfl
      · exact hkeep x (List.mem_append_left _ hx)
      · obtain ⟨d, t, hav, hstart, rfl⟩ := take_cases hp'
        have hok' := (((hok.withPool (hok.pool.take hp')).write (txField x)
          uartPid).write (rxField x) kcdPid).store (msgField x) v
        have ho := address_owned (c := d) hok' hb ⟨List.mem_append_right _ (by simp), hstart, rfl⟩
        refine ⟨d, ho.used, ho.start, ho.pid.trans ?_⟩
        exact (address_header hb).1.symm
    · exact hkeep x (List.mem_append_right _ hx)

/-! ### What comes into the mailboxes, and what is held outside -/

/-- The messages in the mailbox for the process `p` -/
def mailTo (a : Kernel) (p : UInt32) : List Nat := a.mailbox.filter fun e => a.rx e = p

lemma mem_mailTo {p : UInt32} {x : Nat} : x ∈ a.mailTo p ↔ x ∈ a.mailbox ∧ a.rx x = p := by
  rw [mailTo, List.mem_filter, decide_eq_true_iff]

lemma mailTo_append {l : List Nat} {p : UInt32} (hm : b.mailbox = a.mailbox ++ l)
    (hrx : ∀ x ∈ a.mailbox, b.rx x = a.rx x) :
    b.mailTo p = a.mailTo p ++ l.filter fun e => b.rx e = p := by
  have hsame : (a.mailbox.filter fun e => b.rx e = p) = a.mailTo p := by
    apply List.filter_congr
    intro x hx
    rw [hrx x hx]
  rw [mailTo, hm, List.filter_append, hsame]

/-- An envelope in a mailbox was there before, or it was sent now. -/
lemma Effect.mem_mail (he : a.Effect op reply b) (hok : a.Ok base r) {x : Nat}
    (hx : x ∈ b.mailbox ++ b.delayed) : x ∈ a.mailbox ++ a.delayed ∨
      (∃ pid, op = .send pid x ∧ b.rx x = pid) ∨
      (∃ pid delay, op = .delayedSend pid x delay ∧ b.rx x = pid) ∨
      ∃ d ∈ a.pool.available, a.pool.start d = x ∧ b.rx x = kcdPid := by
  cases he with
  | quiet s hq => exact .inl hx
  | @sent pid e b' s hb =>
    obtain ⟨hmail, hdel, -, -⟩ := address_fields hb
    rw [withSched_mailbox, withSched_delayed, post, hmail, hdel, List.mem_append] at hx
    rcases hx with hx | hx
    · rcases mem_storeIn hx with hx | rfl
      · exact .inl (List.mem_append_left _ hx)
      · exact .inr (.inl ⟨pid, rfl, (address_header hb).1⟩)
    · exact .inl (List.mem_append_right _ hx)
  | @delayed pid delay e b' hb =>
    obtain ⟨hmail, hdel, -, -⟩ := address_fields hb
    rw [postDelayed, write_mailbox, hmail, hdel, List.mem_append] at hx
    rcases hx with hx | hx
    · exact .inl (List.mem_append_left _ hx)
    · rcases mem_storeIn hx with hx | rfl
      · exact .inl (List.mem_append_right _ hx)
      · refine .inr (.inr (.inl ⟨pid, delay, rfl, ?_⟩))
        refine (read32_write32_of_disjoint ?_).trans (address_header hb).1
        simp only [rxField, sendTimeField]
        omega
  | received he' =>
    left
    exact List.mem_append.mpr ((List.mem_append.mp hx).imp List.mem_of_mem_eraseIdx id)
  | granted hp => exact .inl hx
  | released s hc hs ho => exact .inl hx
  | stored => exact .inl hx
  | ticked s hb =>
    have hmv := hok.moves_tick hb
    rw [withSched_mailbox, withSched_delayed, hmv.mailbox, List.append_assoc] at hx
    exact .inl ((hmv.delayed.append_left a.mailbox).mem_iff.mp hx)
  | typedLost hp => exact .inl hx
  | @typed y p v b' s hp hb =>
    obtain ⟨hmail, hdel, -, -⟩ := address_fields hb
    rw [withSched_mailbox, withSched_delayed, post, hmail, hdel, List.mem_append] at hx
    rcases hx with hx | hx
    · rcases mem_storeIn hx with hx | rfl
      · exact .inl (List.mem_append_left _ hx)
      · obtain ⟨d, t, hav, hstart, -⟩ := take_cases hp
        exact .inr (.inr (.inr ⟨d, by simp [hav], hstart, (address_header hb).1⟩))
    · exact .inl (List.mem_append_right _ hx)

/-- The process `p` holds the envelope `e`: it owns the block, which is in no mailbox. -/
structure Held (a : Kernel) (e : Nat) (p : UInt32) : Prop where
  owned : ∃ c, a.OwnedBy e p c
  notMem : e ∉ a.mailbox ++ a.delayed

/-- The block at `e` has the same content in both states. -/
def Kept (a b : Kernel) (e : Nat) : Prop :=
  ∀ x, e ≤ x → x < e + memBlockSize → b.pool.memory x = a.pool.memory x

lemma Kept.rx (h : a.Kept b e) : b.rx e = a.rx e := by
  apply read32_congr
  intro x hx hx'
  simp only [rxField] at hx hx'
  exact h x (by omega) (by simp only [memBlockSize]; omega)

lemma OwnedBy.lt (hok : a.Ok base r) {p : UInt32} (h : a.OwnedBy e p c) : c < memBlockCount :=
  hok.pool.lt_of_mem (q := .usedBlocks) h.used

lemma OwnedBy.unique (hok : a.Ok base r) {p q : UInt32} (h : a.OwnedBy e p c) (h' : a.OwnedBy e q d) :
    c = d ∧ p = q := by
  obtain rfl := hok.pool.start_inj (h.lt hok) (h'.lt hok) (h.start.trans h'.start.symm)
  exact ⟨rfl, h.pid.symm.trans h'.pid⟩

lemma OwnedBy.step {p : UInt32} (h : a.OwnedBy e p c) (he : a.Effect op reply b) (hok : a.Ok base r)
    (hl : a.LeavesAlone c op) : b.OwnedBy e p c ∧ a.Kept b e := by
  have hu := he.untouched hok h.used hl
  refine ⟨⟨hu.used, by rw [he.start hok, h.start], hu.pid.trans h.pid⟩, ?_⟩
  have hm := hu.memory
  rw [h.start] at hm
  exact hm

/-- Two envelopes have no byte in common. -/
lemma OwnedBy.apart (hok : a.Ok base r) {p q : UInt32} {x : Nat} (h : a.OwnedBy e p c)
    (h' : a.OwnedBy x q d) (hne : e ≠ x) : e + memBlockSize ≤ x ∨ x + memBlockSize ≤ e := by
  rw [← h.start, ← h'.start, hok.pool.start_eq c (h.lt hok), hok.pool.start_eq d (h'.lt hok)] at hne ⊢
  exact blocks_apart hne

/-- An envelope that is left alone is held on. -/
lemma Held.step {p : UInt32} (h : a.Held e p) (he : a.Effect op reply b) (hok : a.Ok base r)
    (hl : ∀ c, a.OwnedBy e p c → a.LeavesAlone c op) : b.Held e p ∧ a.Kept b e := by
  obtain ⟨c, hc⟩ := h.owned
  obtain ⟨hc', hkept⟩ := hc.step he hok (hl c hc)
  refine ⟨⟨⟨c, hc'⟩, ?_⟩, hkept⟩
  intro hmem
  rcases he.mem_mail hok hmem with hx | ⟨pid, rfl, -⟩ | ⟨pid, delay, rfl, -⟩ | ⟨d, hd, hstart, -⟩
  · exact h.notMem hx
  · exact hl c hc hc.start
  · exact hl c hc hc.start
  · apply hok.ne_of_available hd hc.used
    exact hok.pool.start_inj (hok.pool.lt_of_mem (q := .availableBlocks) hd) (hc.lt hok)
      (hstart.trans hc.start.symm)

/-! ### Who lives -/

lemma Ok.live_of_call (h : a.Ok base r) (hop : op ≠ .terminate) (hy : a.call op = some (reply, b)) :
    b.sched.pid = a.sched.pid ∧ b.sched.live = a.sched.live := by
  have hblock : ∀ t, (a.sched.block a.sched.currentPid t).pid = a.sched.pid ∧
      (a.sched.block a.sched.currentPid t).live = a.sched.live := by
    intro t
    have hw := h.sched.block_wakes t
    exact ⟨hw.pid, hw.live⟩
  by_cases hwhole : op.isWhole = true
  · obtain ⟨l, hl, hw⟩ := h.wakes hwhole hy
    rcases hl with rfl | ⟨hterm, -⟩
    · exact ⟨hw.pid, hw.live⟩
    · exact absurd hterm hop
  · cases op with
    | block t =>
      obtain ⟨-, rfl⟩ := Prod.mk.inj (Option.some.inj hy)
      exact hblock t
    | receive =>
      obtain ⟨-, rfl⟩ := Prod.mk.inj (Option.some.inj hy)
      rcases receiveScan_cases a with ⟨-, he⟩ | ⟨i, e, -, -, -, he⟩
      · rw [he]
        exact hblock .msg
      · rw [he]
        exact ⟨rfl, rfl⟩
    | request =>
      obtain ⟨-, rfl⟩ := Prod.mk.inj (Option.some.inj hy)
      rw [Spec.Kernel.requestMemoryBlock]
      cases a.pool.take a.sched.currentPid with
      | none => exact hblock .mem
      | some x => exact ⟨rfl, rfl⟩
    | _ => exact absurd rfl hwhole

/-- A process lives on, unless it ends itself. -/
lemma Ok.live_step (h : a.Ok base r) (hy : a.call op = some (reply, b)) {p : PcbPtr}
    (hp : p ∈ a.sched.live) (hop : op = .terminate → a.sched.pid p ≠ a.sched.currentPid) :
    p ∈ b.sched.live ∧ b.sched.pid p = a.sched.pid p := by
  by_cases hterm : op = .terminate
  · have hne := hop hterm
    subst hterm
    obtain ⟨l, hl, hw⟩ := h.wakes rfl hy
    refine ⟨?_, by rw [hw.pid]⟩
    rw [hw.live]
    rcases hl with rfl | ⟨-, rfl⟩
    · exact hp
    · refine Finset.mem_erase.mpr ⟨?_, hp⟩
      rintro rfl
      exact hne h.currentPid.symm
  · obtain ⟨hpid, hlive⟩ := h.live_of_call hterm hy
    exact ⟨hlive ▸ hp, by rw [hpid]⟩

end Spec.Kernel

/-! ### In the code -/

/-- What holds of every state that proper operations reach. -/
structure Orderly (priority : Fin 6 → UInt8) (base : Nat) (k : Kernel) (a : Spec.Kernel)
    (r : PcbPtr) : Prop extends Safe priority base k a r where
  mailOwned : a.MailOwned

namespace Orderly

variable {priority : Fin 6 → UInt8} {base : Nat} {k k' : Kernel} {a : Spec.Kernel} {r : PcbPtr}
  {op : Op} {reply : Reply}

lemma boot (hprio : ∀ i, priority i ≤ 4) (hboot : RtxKernel.boot priority base = some k) :
    ∃ a r, Orderly priority base k a r ∧ a.Fresh priority r := by
  obtain ⟨a, r, hs, hfresh⟩ := Safe.boot hprio hboot
  refine ⟨a, r, ⟨hs, ?_⟩, hfresh⟩
  intro e he
  simp [hfresh.mailbox, hfresh.delayed] at he

/-- What one operation does, in the code and in the abstract kernel. -/
structure Next (priority : Fin 6 → UInt8) (base : Nat) (a : Spec.Kernel) (op : Op) (reply : Reply)
    (k' : Kernel) (b : Spec.Kernel) (r' : PcbPtr) : Prop where
  permits : a.Permits op
  respects : a.Respects op
  call : a.call op = some (reply, b)
  effect : a.Effect op reply b
  orderly : Orderly priority base k' b r'

lemma step_of_permits (h : Orderly priority base k a r) (hp : a.Permits op) (hr : a.Respects op)
    (hcall : k.call op = some (reply, k')) : ∃ b r', Next priority base a op reply k' b r' := by
  have hstep : k.Step ⟨k.currentPid, op, reply⟩ k' := ⟨rfl, (h.rep.permits_iff h.ok op).mpr hp, hcall⟩
  obtain ⟨b, r', -, hb, hs, -⟩ := h.toSafe.step hstep
  have he := h.ok.effect hb
  exact ⟨b, r', hp, hr, hb, he, hs, h.mailOwned.step h.ok hp hr he⟩

lemma step (h : Orderly priority base k a r) (hp : k.Proper op) (hcall : k.call op = some (reply, k')) :
    ∃ b r', Next priority base a op reply k' b r' := by
  have hperm : a.Permits op :=
    h.mailOwned.permits h.ok fun hop => (h.rep.permits_iff h.ok op).mp (hp.1 hop)
  exact h.step_of_permits hperm ((h.rep.respects_iff h.ok op).mp hp.2) hcall

end Orderly

end RtxKernel
