import RtxKernel.Kernel.Ledger

/-!
# Owners of blocks

`release_memory_block` checks that the block belongs to the caller. `send_message` and `delayed_send` do
not: they make the envelope over to the receiver, whoever its owner was. These are the only calls with
which a process can give away, or mail, a block of another one (`keepsBlock_iff`).
-/

namespace RtxKernel

/-- How often `e` stands in an array of `MEM_BLOCK_COUNT` pointers. -/
def slotsWith (s : Nat → Option Nat) (e : Nat) : Nat :=
  (List.range memBlockCount).countP fun i => s i = some e

namespace Kernel

/-- The block at `x` is in use and belongs to the running process. -/
def Owns (k : Kernel) (x : Nat) : Prop :=
  ∃ b, find k.pool.next (fun b => (k.pool.block b).startBlock = x) memBlockCount
    (k.pool.queue .usedBlocks) = some (some b) ∧ (k.pool.block b).pid = k.currentPid

instance (k : Kernel) (x : Nat) : Decidable (k.Owns x) :=
  match h : find k.pool.next (fun b => (k.pool.block b).startBlock = x) memBlockCount
      (k.pool.queue .usedBlocks) with
  | some (some b) =>
    decidable_of_iff ((k.pool.block b).pid = k.currentPid) <| by
      constructor
      · intro hb
        exact ⟨b, h, hb⟩
      · rintro ⟨c, hc, hpid⟩
        rw [h] at hc
        obtain rfl := Option.some.inj (Option.some.inj hc)
        exact hpid
  | some none => .isFalse fun ⟨b, hb, _⟩ => by rw [h] at hb; cases hb
  | none => .isFalse fun ⟨b, hb, _⟩ => by rw [h] at hb; cases hb

/-- Any operation, except that the NULL process makes no calls. -/
def Calls (k : Kernel) (op : Op) : Prop := op.isInterrupt = false → k.currentPid ≠ 0

instance (k : Kernel) (op : Op) : Decidable (k.Calls op) :=
  inferInstanceAs (Decidable (op.isInterrupt = false → k.currentPid ≠ 0))

/-- The block `b` is in `usedBlocks` and belongs to `p`. -/
def UsedBy (k : Kernel) (b : BlockPtr) (p : UInt32) : Prop :=
  (∃ l, Chain k.pool.next (k.pool.queue .usedBlocks) l ∧ b ∈ l) ∧ (k.pool.block b).pid = p

/-- From `k` to `k'` the block `b` has stayed with its owner `p`, and was not entered into a mailbox. -/
structure KeepsBlock (k k' : Kernel) (b : BlockPtr) (p : UInt32) : Prop where
  usedBy : k'.UsedBy b p
  mailbox : slotsWith k'.mailbox (k.pool.block b).startBlock
    ≤ slotsWith k.mailbox (k.pool.block b).startBlock
  delayed : slotsWith k'.delayedMailbox (k.pool.block b).startBlock
    ≤ slotsWith k.delayedMailbox (k.pool.block b).startBlock

/-- The operation sends the block `b` of `p`: to another process, or into a mailbox that has room. -/
def GivesAway (k : Kernel) (b : BlockPtr) (p : UInt32) : Op → Prop
  | .send pid e => e ≠ 0 ∧ (k.pool.block b).startBlock = e ∧ k.sched.isPidValid pid = some true ∧
      (pid ≠ p ∨ ∃ i < memBlockCount, k.mailbox i = none)
  | .delayedSend pid e _ => e ≠ 0 ∧ (k.pool.block b).startBlock = e ∧
      k.sched.isPidValid pid = some true ∧ (pid ≠ p ∨ ∃ i < memBlockCount, k.delayedMailbox i = none)
  | _ => False

end Kernel

/-- The calls of `messaging.c` and `mem.c`. -/
def Op.isBlockCall : Op → Bool
  | .send _ _ | .delayedSend _ _ _ | .receive | .request | .release _ => true
  | _ => false

/-! ### Counting slots -/

lemma Packed.slotsWith_eq {s : Nat → Option Nat} {l : List Nat} (h : Packed s l)
    (hl : l.length ≤ memBlockCount) (e : Nat) : slotsWith s e = l.count e := by
  have hcount := countP_range_getElem? hl fun x => decide (x = some e)
  simp only [← h _] at hcount
  rw [slotsWith, hcount]
  simp [List.count, BEq.beq]

lemma Packed.exists_free_iff {s : Nat → Option Nat} {l : List Nat} (h : Packed s l) :
    (∃ i < memBlockCount, s i = none) ↔ l.length < memBlockCount := by
  constructor
  · rintro ⟨i, hi, hs⟩
    rw [h i, List.getElem?_eq_none_iff] at hs
    exact Nat.lt_of_le_of_lt hs hi
  · intro hlt
    refine ⟨l.length, hlt, ?_⟩
    rw [h, List.getElem?_eq_none_iff]

namespace Spec.Kernel

variable {a b : Kernel} {base : Nat} {r : PcbPtr} {op : Op} {reply : Reply} {c : BlockPtr}

lemma count_storeIn_le_iff {l : List Nat} {e x : Nat} :
    (storeIn l e).count x ≤ l.count x ↔ ¬ (e = x ∧ l.length < memBlockCount) := by
  rw [storeIn]
  split_ifs with hlt
  · rw [List.count_append, List.count_singleton]
    by_cases hex : e = x
    · simp [hex, hlt]
    · simp [hex]
  · simp [hlt]

/-- The block at `x` is in use and belongs to the running process. -/
def Owns (a : Kernel) (x : Nat) : Prop :=
  ∃ c ∈ a.pool.used, a.pool.start c = x ∧ a.pool.pid c = a.sched.currentPid

/-- The owner of the block that an envelope names is the receiver, after it was sent. -/
lemma address_pid {pid : UInt32} {e : Nat} (hb : a.address pid e = some b) :
    ∃ d, a.pool.lookup e = some d ∧ b.pool.pid = Function.update a.pool.pid d pid ∧
      b.pool.used = a.pool.used ∧ b.pool.available = a.pool.available ∧ b.pool.start = a.pool.start := by
  obtain ⟨d, hd, rfl⟩ := address_eq_some_iff.mp hb
  exact ⟨d, hd, rfl, rfl, rfl, rfl⟩

/-- A used block of another process is left alone, unless it is sent. -/
lemma Effect.owner (he : a.Effect op reply b) (hok : a.Ok base r) (hc : c ∈ a.pool.used)
    (hne : a.pool.pid c ≠ a.sched.currentPid) (hsend : ∀ pid, op ≠ .send pid (a.pool.start c))
    (hdelay : ∀ pid delay, op ≠ .delayedSend pid (a.pool.start c) delay) :
    c ∈ b.pool.used ∧ b.pool.pid c = a.pool.pid c := by
  have hlt := hok.pool.lt_of_mem (q := .usedBlocks) hc
  have hother : ∀ d, d ∈ a.pool.available → c ≠ d := by
    rintro d hd rfl
    exact (List.nodup_append.mp hok.pool.nodup).2.2 c hd c hc rfl
  have hsent : ∀ {pid : UInt32} {e : Nat} {b' : Kernel}, a.address pid e = some b' →
      e ≠ a.pool.start c → c ∈ b'.pool.used ∧ b'.pool.pid c = a.pool.pid c := by
    intro pid e b' hb hec
    obtain ⟨d, hd, hpid, hused, -, -⟩ := address_pid hb
    refine ⟨by rw [hused]; exact hc, ?_⟩
    rw [hpid, Function.update_of_ne]
    rintro rfl
    exact hec (hok.pool.lookup_eq_some_iff.mp hd).2.symm
  have htaken : ∀ {x : Nat} {p : Pool}, a.pool.take a.sched.currentPid = some (x, p) →
      c ∈ p.used ∧ p.pid c = a.pool.pid c ∧ x ≠ a.pool.start c := by
    intro x p hp
    obtain ⟨d, t, hav, rfl, rfl⟩ := take_cases hp
    have hcd := hother d (by simp [hav])
    refine ⟨List.mem_append_left _ hc, Function.update_of_ne hcd _ _, ?_⟩
    intro hstart
    exact hcd (hok.pool.start_inj (hok.pool.lt_of_mem (q := .availableBlocks) (by simp [hav])) hlt
      hstart).symm
  cases he with
  | quiet s hq => exact ⟨hc, rfl⟩
  | @sent pid e b' s hb _ =>
    apply hsent hb
    rintro rfl
    exact hsend pid rfl
  | @delayed pid delay e b' hb _ =>
    apply hsent hb
    rintro rfl
    exact hdelay pid delay rfl
  | received => exact ⟨hc, rfl⟩
  | granted hp => exact ⟨(htaken hp).1, (htaken hp).2.1⟩
  | @released x d s hd hx ho =>
    have hcd : c ≠ d := by
      rintro rfl
      exact hne ho
    exact ⟨(List.mem_erase_of_ne hcd).mpr hc, Function.update_of_ne hcd _ _⟩
  | stored => exact ⟨hc, rfl⟩
  | @ticked new w b' s hb =>
    have hmv := hok.moves_tick hb
    rw [withSched_pool, hmv.pool]
    exact ⟨hc, rfl⟩
  | typedLost hp => exact ⟨(htaken hp).1, (htaken hp).2.1⟩
  | @typed x p v b' s hp hb hx =>
    obtain ⟨hused, hpid, hxc⟩ := htaken hp
    obtain ⟨d, hd, hpid', hused', -, -⟩ := address_pid hb
    refine ⟨by rw [withSched_pool, post, hused']; exact hused, ?_⟩
    have hwf : (a.type p x v).pool.WF base := ⟨(hok.pool.take hp).perm, (hok.pool.take hp).start_eq⟩
    have hstart := (hwf.lookup_eq_some_iff.mp hd).2
    rw [withSched_pool, post, hpid', Function.update_of_ne]
    · exact hpid
    · rintro rfl
      apply hxc
      rw [← hstart, hwf.start_eq c hlt, hok.pool.start_eq c hlt]

/-- A call of `messaging.c` or `mem.c` that does not send a block does not enter it into a mailbox. -/
lemma Effect.count_le (he : a.Effect op reply b) (hop : op.isBlockCall = true) {x : Nat}
    (hsend : ∀ pid, op ≠ .send pid x) (hdelay : ∀ pid delay, op ≠ .delayedSend pid x delay) :
    b.mailbox.count x ≤ a.mailbox.count x ∧ b.delayed.count x ≤ a.delayed.count x := by
  cases he with
  | quiet s hq => exact ⟨le_rfl, le_rfl⟩
  | @sent pid e b' s hb _ =>
    obtain ⟨hmail, hdel, -, -⟩ := address_fields hb
    rw [withSched_mailbox, withSched_delayed, post, hmail, hdel, count_storeIn_le_iff]
    refine ⟨?_, le_rfl⟩
    rintro ⟨rfl, -⟩
    exact hsend pid rfl
  | @delayed pid delay e b' hb _ =>
    obtain ⟨hmail, hdel, -, -⟩ := address_fields hb
    rw [postDelayed, write_mailbox, hmail, hdel, count_storeIn_le_iff]
    refine ⟨le_rfl, ?_⟩
    rintro ⟨rfl, -⟩
    exact hdelay pid delay rfl
  | received => exact ⟨(List.eraseIdx_sublist ..).count_le _, le_rfl⟩
  | granted hp => exact ⟨le_rfl, le_rfl⟩
  | released s hd hx ho => exact ⟨le_rfl, le_rfl⟩
  | stored | ticked | typedLost | typed => cases hop

/-- What sending the block `c` does to it and to a mailbox `l`. -/
lemma keeps_address_iff {pid p : UInt32} {e : Nat} (hok : a.Ok base r) (hb : a.address pid e = some b)
    (hc : c ∈ a.pool.used) (he : a.pool.start c = e) (l : List Nat) :
    ((c ∈ b.pool.used ∧ b.pool.pid c = p) ∧ (storeIn l e).count e ≤ l.count e) ↔
      ¬ (pid ≠ p ∨ l.length < memBlockCount) := by
  obtain ⟨d, hd, hpid, hused, -, -⟩ := address_pid hb
  obtain ⟨hlt, hstart⟩ := hok.pool.lookup_eq_some_iff.mp hd
  obtain rfl := hok.pool.start_inj hlt (hok.pool.lt_of_mem (q := .usedBlocks) hc) (hstart.trans he.symm)
  rw [hused, hpid, Function.update_self, count_storeIn_le_iff]
  simp [hc]

/-- A message that is not rejected is accepted. -/
lemma sendMessage_valid {pid : UInt32} {e : Nat} {y : UInt32 × Kernel} (hne : e ≠ 0)
    (hf : a.sched.find pid ≠ none) (hy : a.sendMessage pid e = some y) :
    ∃ b s, a.address pid e = some b ∧ y = (0, (b.post e).withSched s) := by
  rcases sendMessage_cases hy with ⟨hwhy, -⟩ | ⟨-, b, s, hb, rfl⟩
  · exact absurd hwhy (by simp [hne, hf])
  · exact ⟨b, s, hb, rfl⟩

lemma sendMessage_invalid {pid : UInt32} {e : Nat} (h : ¬ (e ≠ 0 ∧ a.sched.find pid ≠ none)) :
    ∃ c, c ≠ 0 ∧ a.sendMessage pid e = some (c, a) := by
  rw [sendMessage, sendSection]
  split_ifs with h₁ h₂
  · exact ⟨2, by decide, rfl⟩
  · exact ⟨1, by decide, rfl⟩
  · exact absurd ⟨h₁, h₂⟩ h

lemma delayedSend_valid {pid delay : UInt32} {e : Nat} {y : UInt32 × Kernel} (hne : e ≠ 0)
    (hf : a.sched.find pid ≠ none) (hy : a.delayedSend pid e delay = some y) :
    ∃ b, a.address pid e = some b ∧ y = (0, b.postDelayed e (delay + b.ticks)) := by
  rw [delayedSend, if_neg hne, if_neg hf] at hy
  obtain ⟨b, hb, rfl⟩ := Option.map_eq_some_iff.mp hy
  exact ⟨b, hb, rfl⟩

lemma delayedSend_invalid {pid : UInt32} {e : Nat} (h : ¬ (e ≠ 0 ∧ a.sched.find pid ≠ none))
    (delay : UInt32) :
    ∃ c, c ≠ 0 ∧ a.delayedSend pid e delay = some (c, a) := by
  rw [delayedSend]
  split_ifs with h₁ h₂
  · exact ⟨2, by decide, rfl⟩
  · exact ⟨1, by decide, rfl⟩
  · exact absurd ⟨h₁, h₂⟩ h

end Spec.Kernel

/-! ### In the code -/

namespace Sound

variable {priority : Fin 6 → UInt8} {base : Nat} {k₀ k k' : Kernel} {a : Spec.Kernel} {r : PcbPtr}
  {es : List Event} {op : Op} {reply : Reply} {b : BlockPtr} {p : UInt32}

lemma of_run (hprio : ∀ i, priority i ≤ 4) (hboot : boot priority base = some k₀)
    (h : Run (Kernel.StepIf Kernel.Calls) k₀ es k) : ∃ a r, Sound base k a r := by
  apply h.invariant (I := fun k => ∃ a r, Sound base k a r)
  · obtain ⟨a, r, hs, -⟩ := Safe.boot hprio hboot
    exact ⟨a, r, hs.toSound⟩
  · rintro k e k' ⟨a, r, h⟩ ⟨-, hz, hcall⟩
    obtain ⟨b, r', -, hs, -, -⟩ := h.call hz hcall
    exact ⟨b, r', hs⟩

lemma owns_iff (h : Sound base k a r) (x : Nat) : k.Owns x ↔ a.Owns x := by
  rw [Kernel.Owns, Spec.Kernel.Owns]
  have hstart := h.rep.pool.start
  rw [(h.rep.pool.chain .usedBlocks).find_eq _ (PoolRep.length_le h.ok.pool .usedBlocks),
    h.rep.currentPid]
  simp only [Option.some.injEq, hstart, h.rep.pool.pid, Spec.Pool.list_usedBlocks]
  constructor
  · rintro ⟨c, hc, hpid⟩
    exact ⟨c, List.mem_of_find?_eq_some hc, by simpa using List.find?_some hc, hpid⟩
  · rintro ⟨c, hc, rfl, hpid⟩
    obtain ⟨d, hd⟩ : ∃ d, a.pool.used.find? (fun d => a.pool.start d = a.pool.start c) = some d := by
      apply Option.isSome_iff_exists.mp
      exact List.find?_isSome.mpr ⟨c, hc, by simp⟩
    have hdu := List.mem_of_find?_eq_some hd
    have heq : a.pool.start d = a.pool.start c := by simpa using List.find?_some hd
    have hlt : ∀ y ∈ a.pool.used, y < memBlockCount := fun y hy =>
      h.ok.pool.lt_of_mem (q := .usedBlocks) hy
    obtain rfl := h.ok.pool.start_inj (hlt d hdu) (hlt c hc) heq
    exact ⟨d, hd, hpid⟩

lemma usedBy_iff (h : Sound base k a r) : k.UsedBy b p ↔ b ∈ a.pool.used ∧ a.pool.pid b = p := by
  have hchain := h.rep.pool.chain .usedBlocks
  rw [Kernel.UsedBy, h.rep.pool.pid]
  constructor
  · rintro ⟨⟨l, hl, hb⟩, hp⟩
    rw [hl.unique hchain] at hb
    exact ⟨hb, hp⟩
  · rintro ⟨hb, hp⟩
    exact ⟨⟨_, hchain, hb⟩, hp⟩

lemma slotsWith_mailbox (h : Sound base k a r) (e : Nat) :
    slotsWith k.mailbox e = a.mailbox.count e := h.rep.mailbox.slotsWith_eq h.ok.mailbox_le e

lemma slotsWith_delayed (h : Sound base k a r) (e : Nat) :
    slotsWith k.delayedMailbox e = a.delayed.count e := h.rep.delayed.slotsWith_eq h.ok.delayed_le e

lemma isPidValid_iff (h : Sound base k a r) (pid : UInt32) :
    k.sched.isPidValid pid = some true ↔ a.sched.find pid ≠ none := by
  rw [h.rep.sched.isPidValid h.ok.sched.wf.placed, Option.some.injEq, Option.isSome_iff_ne_none]

/-- The block stays with `p`, as far as the abstract kernel tells. -/
lemma keeps_iff (h : Sound base k a r) {a' : Spec.Kernel} {r' : PcbPtr}
    (h' : Sound base k' a' r') : k.KeepsBlock k' b p ↔
      (b ∈ a'.pool.used ∧ a'.pool.pid b = p) ∧
        a'.mailbox.count (a.pool.start b) ≤ a.mailbox.count (a.pool.start b) ∧
        a'.delayed.count (a.pool.start b) ≤ a.delayed.count (a.pool.start b) := by
  have hstart := h.rep.pool.start b
  constructor
  · rintro ⟨hu, hm, hd⟩
    rw [hstart, h.slotsWith_mailbox, h'.slotsWith_mailbox] at hm
    rw [hstart, h.slotsWith_delayed, h'.slotsWith_delayed] at hd
    exact ⟨h'.usedBy_iff.mp hu, hm, hd⟩
  · rintro ⟨hu, hm, hd⟩
    refine ⟨h'.usedBy_iff.mpr hu, ?_, ?_⟩
    · rwa [hstart, h.slotsWith_mailbox, h'.slotsWith_mailbox]
    · rwa [hstart, h.slotsWith_delayed, h'.slotsWith_delayed]

/-- A call that does not send the block keeps it. -/
lemma keepsBlock (h : Sound base k a r) {a' : Spec.Kernel} {r' : PcbPtr} (h' : Sound base k' a' r')
    (hy : a.call op = some (reply, a')) (hop : op.isBlockCall = true) (hb : b ∈ a.pool.used)
    (hq : a.pool.pid b ≠ a.sched.currentPid) (hsend : ∀ pid, op ≠ .send pid (a.pool.start b))
    (hdelay : ∀ pid delay, op ≠ .delayedSend pid (a.pool.start b) delay) :
    k.KeepsBlock k' b (a.pool.pid b) := by
  have he := h.ok.effect hy
  exact (h.keeps_iff h').mpr ⟨he.owner h.ok hb hq hsend hdelay, he.count_le hop hsend hdelay⟩

end Sound

variable {priority : Fin 6 → UInt8} {base : Nat} {k₀ k k' : Kernel} {es : List Event} {op : Op}
  {reply : Reply} {b : BlockPtr} {p : UInt32}

/-- A call of a process that does not own a used block leaves the block to its owner and out of the
mailboxes, unless it sends the block. -/
theorem keepsBlock_iff (hprio : ∀ i, priority i ≤ 4) (hboot : boot priority base = some k₀)
    (h : Run (Kernel.StepIf Kernel.Calls) k₀ es k) (hb : k.UsedBy b p) (hq : k.currentPid ≠ p)
    (hz : k.currentPid ≠ 0) (hop : op.isBlockCall = true) (hcall : k.call op = some (reply, k')) :
    k.KeepsBlock k' b p ↔ ¬ k.GivesAway b p op := by
  obtain ⟨a, r, hs⟩ := Sound.of_run hprio hboot h
  obtain ⟨a', r', hy, hs', -, -⟩ := hs.call (fun _ => hz) hcall
  obtain ⟨hu, rfl⟩ := hs.usedBy_iff.mp hb
  have hq' : a.pool.pid b ≠ a.sched.currentPid := by
    rw [← hs.rep.currentPid]
    exact hq.symm
  have hstart := hs.rep.pool.start b
  have hkeep := hs.keepsBlock hs' hy hop hu hq'
  cases op with
  | send pid e =>
    obtain ⟨y, hsend, hb'⟩ := Option.map_eq_some_iff.mp hy
    obtain ⟨rfl, rfl⟩ := Prod.mk.inj hb'
    rw [Kernel.GivesAway, hstart, hs.isPidValid_iff, hs.rep.mailbox.exists_free_iff]
    by_cases he : a.pool.start b = e
    · by_cases hv : e ≠ 0 ∧ a.sched.find pid ≠ none
      · obtain ⟨c, s, hc, rfl⟩ := Spec.Kernel.sendMessage_valid hv.1 hv.2 hsend
        obtain ⟨hmail, hdel, -, -⟩ := Spec.Kernel.address_fields hc
        have hiff := Spec.Kernel.keeps_address_iff (p := a.pool.pid b) hs.ok hc hu he a.mailbox
        rw [hs.keeps_iff hs', he]
        simp only [Spec.Kernel.withSched_pool, Spec.Kernel.withSched_mailbox,
          Spec.Kernel.withSched_delayed, Spec.Kernel.post, hmail, hdel, le_refl, and_true, hiff]
        simp [hv.1, hv.2]
      · obtain ⟨c, -, hc⟩ := Spec.Kernel.sendMessage_invalid hv
        obtain rfl := Option.some.inj (hc.symm.trans hsend)
        rw [hs.keeps_iff hs']
        simp only [hu, le_refl, and_self, true_iff]
        rintro ⟨hne, -, hf, -⟩
        exact hv ⟨hne, hf⟩
    · refine iff_of_true (hkeep ?_ ?_) ?_
      · intro pid' hne
        exact he (Op.send.inj hne).2.symm
      · intro pid' delay hne
        cases hne
      · rintro ⟨-, he', -⟩
        exact he he'
  | delayedSend pid e delay =>
    obtain ⟨y, hsend, hb'⟩ := Option.map_eq_some_iff.mp hy
    obtain ⟨rfl, rfl⟩ := Prod.mk.inj hb'
    rw [Kernel.GivesAway, hstart, hs.isPidValid_iff, hs.rep.delayed.exists_free_iff]
    by_cases he : a.pool.start b = e
    · by_cases hv : e ≠ 0 ∧ a.sched.find pid ≠ none
      · obtain ⟨c, hc, rfl⟩ := Spec.Kernel.delayedSend_valid hv.1 hv.2 hsend
        obtain ⟨hmail, hdel, -, -⟩ := Spec.Kernel.address_fields hc
        have hiff := Spec.Kernel.keeps_address_iff (p := a.pool.pid b) hs.ok hc hu he a.delayed
        rw [hs.keeps_iff hs', he]
        simp only [Spec.Kernel.postDelayed, Spec.Kernel.write_mailbox, hmail, hdel, le_refl, true_and]
        rw [show (c.write (sendTimeField e) (delay + c.ticks)).pool.used = c.pool.used from rfl,
          show (c.write (sendTimeField e) (delay + c.ticks)).pool.pid = c.pool.pid from rfl, hiff]
        simp [hv.1, hv.2]
      · obtain ⟨c, -, hc⟩ := Spec.Kernel.delayedSend_invalid hv delay
        obtain rfl := Option.some.inj (hc.symm.trans hsend)
        rw [hs.keeps_iff hs']
        simp only [hu, le_refl, and_self, true_iff]
        rintro ⟨hne, -, hf, -⟩
        exact hv ⟨hne, hf⟩
    · refine iff_of_true (hkeep ?_ ?_) ?_
      · intro pid' hne
        cases hne
      · intro pid' delay' hne
        exact he (Op.delayedSend.inj hne).2.1.symm
      · rintro ⟨-, he', -⟩
        exact he he'
  | receive | request | release => exact iff_of_true (hkeep (by simp) (by simp)) id
  | _ => cases hop

/-- The keyboard decoder has a block, which another process cannot release. -/
theorem keepsBlock_of_release : ∃ k₀ es k k', boot (fun _ => 2) 4096 = some k₀ ∧
    Run (Kernel.StepIf Kernel.Calls) k₀ es k ∧ k.UsedBy 0 10 ∧ k.currentPid = 11 ∧
    k.call (.release 4096) = some (.code 3, k') ∧ k.KeepsBlock k' 0 10 := by
  obtain ⟨k₀, es, k, hboot, hrun, -, hc⟩ := exists_run_of_boot Kernel.Calls (fun _ => 2) 4096
    [.request, .receive]
    (fun _ k => Chain k.pool.next (k.pool.queue .usedBlocks) [0] ∧ (k.pool.block 0).pid = 10 ∧
      k.currentPid = 11 ∧ (k.call (.release 4096)).any (fun x => x.1 = .code 3) = true)
    (by decide +kernel)
  obtain ⟨hchain, hpid, hcur, hrel⟩ := of_decide_eq_true hc
  obtain ⟨⟨reply, k'⟩, hcall, hreply⟩ := (Option.any_eq_true _ _).mp hrel
  obtain rfl : reply = .code 3 := of_decide_eq_true hreply
  have hused : k.UsedBy 0 10 := ⟨⟨[0], hchain, by simp⟩, hpid⟩
  refine ⟨k₀, es, k, k', hboot, hrun, hused, hcur, hcall, ?_⟩
  exact (keepsBlock_iff (fun _ => by decide) hboot hrun hused (by rw [hcur]; decide)
    (by rw [hcur]; decide) rfl hcall).mpr id

/-- Another process sends the block of the keyboard decoder to the process of the UART. -/
theorem block_given_away : ∃ k₀ es k k', boot (fun _ => 2) 4096 = some k₀ ∧
    Run (Kernel.StepIf Kernel.Calls) k₀ es k ∧ k.UsedBy 0 10 ∧ k.currentPid = 11 ∧
    k.call (.send 12 4096) = some (.code 0, k') ∧ ¬ k.KeepsBlock k' 0 10 := by
  obtain ⟨k₀, es, k, hboot, hrun, -, hc⟩ := exists_run_of_boot Kernel.Calls (fun _ => 2) 4096
    [.request, .receive]
    (fun _ k => Chain k.pool.next (k.pool.queue .usedBlocks) [0] ∧ (k.pool.block 0).pid = 10 ∧
      k.currentPid = 11 ∧ (k.call (.send 12 4096)).any
        (fun x => x.1 = .code 0 ∧ (x.2.pool.block 0).pid = 12) = true)
    (by decide +kernel)
  obtain ⟨hchain, hpid, hcur, hsend⟩ := of_decide_eq_true hc
  obtain ⟨⟨reply, k'⟩, hcall, hx⟩ := (Option.any_eq_true _ _).mp hsend
  obtain ⟨rfl, hpid'⟩ : reply = .code 0 ∧ (k'.pool.block 0).pid = 12 := of_decide_eq_true hx
  refine ⟨k₀, es, k, k', hboot, hrun, ⟨⟨[0], hchain, by simp⟩, hpid⟩, hcur, hcall, ?_⟩
  intro hkeep
  rw [hkeep.usedBy.2] at hpid'
  cases hpid'

end RtxKernel
